import Mathlib.Data.List.Count
import Mathlib.Data.List.Perm.Basic
import Mathlib.Logic.Function.Basic
import NodeOs.Library.Machine

/-!
# Threads that do not notice each other

Threads take steps on a state they share, each from a place of its own. Where
the steps of different threads commute, a schedule matters only through how
many steps it gives to each thread, so that any interleaving ends where the
threads end that run one after the other.
-/

namespace NodeOs.Library.Interleaving

open NodeOs.Library.Machine

structure Joint (Thread Own Shared : Type*) where
  own : Thread → Own
  shared : Shared

variable {Thread Own Shared : Type*}

/-- A thread's next step, if it has one. -/
abbrev Advance (Thread Own Shared : Type*) := Thread → Own → Shared → Option (Own × Shared)

/-- The next steps of two threads, the first one's before the second one's. -/
def both (advance : Advance Thread Own Shared) (first second : Thread) (left right : Own)
    (shared : Shared) : Option (Own × Own × Shared) :=
  (advance first left shared).bind fun one =>
    (advance second right one.2).map fun two => (one.1, two.1, two.2)

def Independent (advance : Advance Thread Own Shared) (first second : Thread) : Prop :=
  ∀ left right shared, both advance first second left right shared =
    (both advance second first right left shared).map fun after => (after.2.1, after.1, after.2.2)

/-- Some steps of one thread. -/
def alone (advance : Advance Thread Own Shared) (thread : Thread) :
    Nat → Own → Shared → Option (Own × Shared)
  | 0, own, shared => some (own, shared)
  | count + 1, own, shared =>
      (advance thread own shared).bind fun next => alone advance thread count next.1 next.2

section Threads

variable [DecidableEq Thread] {advance : Advance Thread Own Shared}

def step (advance : Advance Thread Own Shared) (state : Joint Thread Own Shared) (thread : Thread) :
    Option (Joint Thread Own Shared) :=
  (advance thread (state.own thread) state.shared).map fun next =>
    ⟨Function.update state.own thread next.1, next.2⟩

/-- The schedule of threads that take their turns in the given order. -/
def inTurn (counts : Thread → Nat) (order : List Thread) : List Thread :=
  order.flatMap fun thread => List.replicate (counts thread) thread

theorem step_step {first second : Thread} (apart : first ≠ second)
    (state : Joint Thread Own Shared) :
    ((step advance state first).bind fun next => step advance next second) =
      (both advance first second (state.own first) (state.own second) state.shared).map fun after =>
        ⟨Function.update (Function.update state.own first after.1) second after.2.1,
          after.2.2⟩ := by
  unfold step both
  cases advance first (state.own first) state.shared with
  | none => rfl
  | some one =>
      simp only [Option.map_some, Option.bind_some, Function.update_of_ne apart.symm]
      cases advance second (state.own second) one.2 <;> rfl

theorem step_comm {first second : Thread} (apart : first ≠ second)
    (independent : Independent advance first second) (state : Joint Thread Own Shared) :
    ((step advance state first).bind fun next => step advance next second) =
      (step advance state second).bind fun next => step advance next first := by
  rw [step_step apart, step_step apart.symm, independent, Option.map_map]
  congr 1
  funext after
  simp only [Function.comp_apply, Function.update_comm apart]

/-- A schedule matters only through how often each thread stands in it. -/
theorem run_perm (independent : ∀ first second, first ≠ second → Independent advance first second)
    {schedule other : List Thread} (same : schedule.Perm other) (state : Joint Thread Own Shared) :
    run (step advance) state schedule = run (step advance) state other := by
  induction same generalizing state with
  | nil => rfl
  | cons thread _ ih =>
      simp only [run]
      cases step advance state thread with
      | none => rfl
      | some next => exact ih next
  | swap first second rest =>
      by_cases apart : first = second
      · rw [apart]
      · have swapped := step_comm apart (independent first second apart) state
        simp only [run, ← Option.bind_assoc]
        rw [swapped]
  | trans _ _ left right => exact (left state).trans (right state)

theorem count_in_turn {order : List Thread} (distinct : order.Nodup) (counts : Thread → Nat)
    (thread : Thread) :
    (inTurn counts order).count thread = if thread ∈ order then counts thread else 0 := by
  induction order with
  | nil => rfl
  | cons first order ih =>
      obtain ⟨fresh, later⟩ := List.nodup_cons.mp distinct
      have split : inTurn counts (first :: order) =
          List.replicate (counts first) first ++ inTurn counts order := by
        simp [inTurn]
      rw [split, List.count_append, List.count_replicate, ih later]
      by_cases same : first = thread
      · simp [← same, fresh]
      · have other : thread ≠ first := Ne.symm same
        simp [same, other]

/-- Any interleaving ends where the threads end that take their turns. -/
theorem run_in_turn
    (independent : ∀ first second, first ≠ second → Independent advance first second)
    {schedule order : List Thread} (distinct : order.Nodup)
    (covered : ∀ thread ∈ schedule, thread ∈ order) (state : Joint Thread Own Shared) :
    run (step advance) state schedule =
      run (step advance) state (inTurn schedule.count order) := by
  refine run_perm independent (List.perm_iff_count.mpr fun thread => ?_) state
  rw [count_in_turn distinct]
  by_cases present : thread ∈ order
  · rw [if_pos present]
  · rw [if_neg present, List.count_eq_zero]
    exact fun scheduled => present (covered thread scheduled)

theorem run_replicate (thread : Thread) (count : Nat) (state : Joint Thread Own Shared) :
    run (step advance) state (List.replicate count thread) =
      (alone advance thread count (state.own thread) state.shared).map fun after =>
        ⟨Function.update state.own thread after.1, after.2⟩ := by
  induction count generalizing state with
  | zero => simp [run, alone]
  | succ count ih =>
      simp only [List.replicate_succ, run, alone, step]
      cases advance thread (state.own thread) state.shared with
      | none => rfl
      | some next => simp [ih]

/-- What threads do to the shared state that take their turns, from what each of
them does alone. -/
theorem in_turn_effect {begins : Thread → Own} {counts : Thread → Nat}
    {effect : Thread → Own → Shared → Shared}
    (solo : ∀ thread shared after,
      alone advance thread (counts thread) (begins thread) shared = some after →
        after.2 = effect thread after.1 shared)
    {order : List Thread} (distinct : order.Nodup) {state final : Joint Thread Own Shared}
    (fresh : ∀ thread ∈ order, state.own thread = begins thread)
    (reached : run (step advance) state (inTurn counts order) = some final) :
    final.shared = order.foldl (fun shared thread => effect thread (final.own thread) shared)
        state.shared ∧
      ∀ thread, thread ∉ order → final.own thread = state.own thread := by
  induction order generalizing state with
  | nil =>
      obtain rfl := Option.some.inj reached
      exact ⟨rfl, fun _ _ => rfl⟩
  | cons first order ih =>
      obtain ⟨absent, later⟩ := List.nodup_cons.mp distinct
      have split : inTurn counts (first :: order) =
          List.replicate (counts first) first ++ inTurn counts order := by
        simp [inTurn]
      rw [split, run_append, run_replicate, fresh first (by simp)] at reached
      cases ran : alone advance first (counts first) (begins first) state.shared with
      | none => simp [ran] at reached
      | some after =>
          rw [ran, Option.map_some, Option.bind_some] at reached
          have others : ∀ thread ∈ order,
              Function.update state.own first after.1 thread = begins thread := by
            intro thread present
            have other : thread ≠ first := fun same => absent (same ▸ present)
            rw [Function.update_of_ne other, fresh thread (by simp [present])]
          obtain ⟨shared, kept⟩ := ih later others reached
          have own : final.own first = after.1 :=
            (kept first absent).trans (Function.update_self ..)
          refine ⟨?_, ?_⟩
          · rw [shared, List.foldl_cons, own, solo first _ _ ran]
          · intro thread missing
            simp only [List.mem_cons, not_or] at missing
            exact (kept thread missing.2).trans (Function.update_of_ne missing.1 ..)

/-- The steps of the other threads leave a thread where it is. -/
theorem own_kept {thread : Thread} {schedule : List Thread} {state final : Joint Thread Own Shared}
    (others : ∀ other ∈ schedule, other ≠ thread)
    (reached : run (step advance) state schedule = some final) :
    final.own thread = state.own thread := by
  induction schedule generalizing state with
  | nil => rw [← Option.some.inj reached]
  | cons first schedule ih =>
      cases taken : step advance state first with
      | none => simp [run, taken] at reached
      | some next =>
          rw [run_cons schedule taken] at reached
          rw [ih (fun other listed => others other (by simp [listed])) reached]
          obtain ⟨moved, -, rfl⟩ := Option.map_eq_some_iff.mp taken
          exact Function.update_of_ne (others first (by simp)).symm ..

/-- Among threads that do not notice each other, each gets as far as it gets
alone. -/
theorem alone_of_run
    (independent : ∀ first second, first ≠ second → Independent advance first second)
    {schedule : List Thread} {state final : Joint Thread Own Shared}
    (reached : run (step advance) state schedule = some final) (thread : Thread) :
    ∃ shared, alone advance thread (schedule.count thread) (state.own thread) state.shared =
      some (final.own thread, shared) := by
  have others : ∀ other ∈ schedule.filter (· ≠ thread), other ≠ thread := by
    intro other present
    simpa using (List.mem_filter.mp present).2
  have front : schedule.Perm
      (List.replicate (schedule.count thread) thread ++ schedule.filter (· ≠ thread)) := by
    refine List.perm_iff_count.mpr fun other => ?_
    rw [List.count_append, List.count_replicate]
    by_cases same : thread = other
    · obtain rfl := same
      rw [List.count_eq_zero.mpr fun present => others thread present rfl]
      simp
    · rw [List.count_filter (by simpa using Ne.symm same)]
      simp [same]
  rw [run_perm independent front, run_append, run_replicate] at reached
  cases ran : alone advance thread (schedule.count thread) (state.own thread) state.shared with
  | none => simp [ran] at reached
  | some after =>
      rw [ran, Option.map_some, Option.bind_some] at reached
      refine ⟨after.2, ?_⟩
      have kept : final.own thread = after.1 :=
        (own_kept others reached).trans (Function.update_self ..)
      rw [kept]

end Threads

end NodeOs.Library.Interleaving
