import NodeOs.Library.Machine
import NodeOs.Noded.WriteAtomic

/-!
# Concurrent calls of `write_atomic` on one path

The calls share one temporary name. The machine goes call by call of the file
system: a name stands for an inode, an open call keeps its inode whatever the
names do, and a rename moves whichever inode the temporary name has by then.
-/

namespace NodeOs.Noded.ConcurrentWrite

open NodeOs.Library.FaultPlan NodeOs.Library.Machine
open NodeOs.Noded.FileSystem NodeOs.Noded.WriteAtomic

/-- Where a call of `write_atomic` is. -/
inductive Phase where
  | idle
  | writing (inode offset : Nat)
  | synced
  | renamed
  | returned (ok : Bool)
  deriving DecidableEq, Repr

/-- Between its open and its rename. -/
def Phase.Live : Phase → Prop
  | .writing _ _ => True
  | .synced => True
  | _ => False

inductive CallStep where
  | openTemp
  | write (count : Nat)
  | fsync
  | rename
  | finish
  | fail
  deriving DecidableEq, Repr

variable {Call : Type}

/-- `replaced` is the history of renames, the latest first: the call, and what
the file it moved to the path held. -/
structure State (Call : Type) where
  inodes : Nat → Bytes
  unused : Nat
  temp : Option Nat
  target : Option Nat
  phases : Call → Phase
  replaced : List (Call × Bytes)

namespace State

/-- What the path holds. -/
def content (state : State Call) : Option Bytes := state.target.map state.inodes

def advance [DecidableEq Call] (state : State Call) (call : Call) (phase : Phase) : State Call :=
  { state with phases := Function.update state.phases call phase }

def fill (state : State Call) (inode : Nat) (bytes : Bytes) : State Call :=
  { state with inodes := Function.update state.inodes inode bytes }

/-- A new file under the temporary name. -/
def create (state : State Call) : State Call :=
  { state with temp := some state.unused, unused := state.unused + 1 }

section Advance

variable [DecidableEq Call] (state : State Call) (call : Call) (phase : Phase)

theorem advance_phase : (state.advance call phase).phases call = phase :=
  Function.update_self ..

theorem advance_phases (other : Call) (apart : other ≠ call) :
    (state.advance call phase).phases other = state.phases other :=
  Function.update_of_ne apart ..

theorem advance_content : (state.advance call phase).content = state.content := rfl

end Advance

end State

/-- A write at an offset; a gap before it reads as zeros. -/
def writeAt (content : Bytes) (offset : Nat) (chunk : Bytes) : Bytes :=
  (content.take offset).rightpad offset 0 ++ chunk ++ content.drop (offset + chunk.length)

def step [DecidableEq Call] (data : Call → Bytes) (state : State Call) (action : Call × CallStep) :
    Option (State Call) :=
  let call := action.1
  match action.2, state.phases call with
  | .openTemp, .idle =>
      match state.temp with
      | some inode => some ((state.fill inode []).advance call (.writing inode 0))
      | none =>
          some ((state.create.fill state.unused []).advance call (.writing state.unused 0))
  | .write count, .writing inode offset =>
      let chunk := ((data call).drop offset).take count
      if chunk = [] then none
      else
        some ((state.fill inode (writeAt (state.inodes inode) offset chunk)).advance call
          (.writing inode (offset + chunk.length)))
  | .fsync, .writing _ offset =>
      if offset = (data call).length then some (state.advance call .synced) else none
  | .rename, .synced =>
      match state.temp with
      | none => some (state.advance call (.returned false))
      | some inode =>
          some ({ state with
            temp := none
            target := some inode
            replaced := (call, state.inodes inode) :: state.replaced }.advance call .renamed)
  | .finish, .renamed => some (state.advance call (.returned true))
  | .fail, .idle => some (state.advance call (.returned false))
  | .fail, .writing _ _ => some (state.advance call (.returned false))
  | .fail, .synced => some (state.advance call (.returned false))
  | _, _ => none

/-- A call opens the temporary file only while no other one is between its open
and its rename. -/
def OpensAlone (state : State Call) (action : Call × CallStep) : Prop :=
  action.2 = .openTemp → ∀ other, other ≠ action.1 → ¬(state.phases other).Live

/-- No call has begun; the names have inodes of their own. -/
structure Begins (state : State Call) : Prop where
  idle : ∀ call, state.phases call = .idle
  apart : ∀ inode, state.temp = some inode → state.target ≠ some inode
  used : ∀ inode, state.temp = some inode ∨ state.target = some inode → inode < state.unused

/-- Since the call's own replacement the path has held its data, or that of a
call whose replacement came later. -/
def HasHeld (data : Call → Bytes) (replaced : List (Call × Bytes)) (call : Call) : Prop :=
  ∃ newer own older, replaced = newer ++ own :: older ∧ own.1 = call ∧
    ∃ entry, (entry = own ∨ entry ∈ newer) ∧ entry.2 = data entry.1

/-- What atomic replacement promises, in one state. -/
structure Atomic (data : Call → Bytes) (prior : Option Bytes) (state : State Call) : Prop where
  whole : state.content = prior ∨ ∃ call, state.content = some (data call)
  held : ∀ call, state.phases call = .returned true → HasHeld data state.replaced call

/-- What a call may count on in its phase. -/
def Staged (data : Call → Bytes) (state : State Call) (call : Call) : Phase → Prop
  | .idle => True
  | .writing inode offset =>
      state.temp = some inode ∧ offset ≤ (data call).length ∧
        state.inodes inode = (data call).take offset
  | .synced => ∃ inode, state.temp = some inode ∧ state.inodes inode = data call
  | .renamed => (call, data call) ∈ state.replaced
  | .returned ok => ok = true → (call, data call) ∈ state.replaced

structure Sound (data : Call → Bytes) (prior : Option Bytes) (state : State Call) : Prop where
  alone : ∀ first second, (state.phases first).Live → (state.phases second).Live → first = second
  apart : ∀ inode, state.temp = some inode → state.target ≠ some inode
  used : ∀ inode, state.temp = some inode ∨ state.target = some inode → inode < state.unused
  staged : ∀ call, Staged data state call (state.phases call)
  whole : state.content = prior ∨ ∃ call, state.content = some (data call)

section Steps

variable {data : Call → Bytes} {prior : Option Bytes} {state next : State Call} {call : Call}

theorem Sound.others_not_live (sound : Sound data prior state) (live : (state.phases call).Live) :
    ∀ other, other ≠ call → ¬(state.phases other).Live :=
  fun other apart running => apart (sound.alone other call running live)

/-- Outside its live phases a call depends on nothing but its own replacement. -/
theorem staged_of_not_live {phase : Phase} (ended : ¬phase.Live)
    (kept : ∀ entry ∈ state.replaced, entry ∈ next.replaced)
    (staged : Staged data state call phase) : Staged data next call phase := by
  cases phase with
  | idle => trivial
  | writing inode offset => exact absurd trivial ended
  | synced => exact absurd trivial ended
  | renamed => exact kept _ staged
  | returned ok => exact fun answered => kept _ (staged answered)

/-- A step of the only live call: its own phase is all there is to check. -/
theorem Sound.of_alone (sound : Sound data prior state)
    (others : ∀ other, other ≠ call → ¬(state.phases other).Live)
    (phases : ∀ other, other ≠ call → next.phases other = state.phases other)
    (kept : ∀ entry ∈ state.replaced, entry ∈ next.replaced)
    (apart : ∀ inode, next.temp = some inode → next.target ≠ some inode)
    (used : ∀ inode, next.temp = some inode ∨ next.target = some inode → inode < next.unused)
    (own : Staged data next call (next.phases call))
    (whole : next.content = prior ∨ ∃ call, next.content = some (data call)) :
    Sound data prior next where
  alone := by
    have only : ∀ other, (next.phases other).Live → other = call := by
      intro other live
      by_contra apart
      rw [phases other apart] at live
      exact others other apart live
    exact fun first second left right => (only first left).trans (only second right).symm
  apart := apart
  used := used
  staged := by
    intro other
    by_cases same : other = call
    · rwa [same]
    · rw [phases other same]
      exact staged_of_not_live (others other same) kept (sound.staged other)
  whole := whole

/-- What happens to the temporary file does not show at the path. -/
theorem fill_content {inode : Nat} (bytes : Bytes) (apart : state.target ≠ some inode) :
    (state.fill inode bytes).content = state.content := by
  simp only [State.content, State.fill]
  cases placed : state.target with
  | none => rfl
  | some other =>
      rw [placed, Ne, Option.some.injEq] at apart
      simp [Function.update_of_ne apart]

theorem Begins.sound {start : State Call} (begins : Begins start) :
    Sound data start.content start where
  alone first second live := absurd live (by simp [begins.idle first, Phase.Live])
  apart := begins.apart
  used := begins.used
  staged call := by rw [begins.idle call]; trivial
  whole := Or.inl rfl

theorem Sound.atomic (sound : Sound data prior state) : Atomic data prior state where
  whole := sound.whole
  held := by
    intro call answered
    have staged := sound.staged call
    rw [answered] at staged
    obtain ⟨newer, older, split⟩ := List.append_of_mem (staged rfl)
    exact ⟨newer, _, older, split, rfl, _, Or.inl rfl, rfl⟩

variable [DecidableEq Call]

/-- A step that leaves the files alone and ends outside the live phases. -/
theorem Sound.leave (sound : Sound data prior state) {phase : Phase} (ended : ¬phase.Live)
    (own : Staged data state call phase) : Sound data prior (state.advance call phase) where
  alone := by
    have earlier : ∀ other, ((state.advance call phase).phases other).Live →
        (state.phases other).Live := by
      intro other live
      by_cases same : other = call
      · rw [same, State.advance_phase] at live
        exact absurd live ended
      · rwa [State.advance_phases _ _ _ _ same] at live
    exact fun first second left right =>
      sound.alone first second (earlier first left) (earlier second right)
  apart := sound.apart
  used := sound.used
  staged := by
    intro other
    by_cases same : other = call
    · rw [same, State.advance_phase]
      exact own
    · rw [State.advance_phases _ _ _ _ same]
      exact sound.staged other
  whole := sound.whole

theorem open_old_step {inode : Nat} (idle : state.phases call = .idle)
    (temp : state.temp = some inode) : step data state (call, .openTemp) =
      some ((state.fill inode []).advance call (.writing inode 0)) := by
  simp only [step, idle, temp]

theorem open_new_step (idle : state.phases call = .idle) (temp : state.temp = none) :
    step data state (call, .openTemp) =
      some ((state.create.fill state.unused []).advance call (.writing state.unused 0)) := by
  simp only [step, idle, temp]

theorem open_preserves_sound (sound : Sound data prior state)
    (others : ∀ other, other ≠ call → ¬(state.phases other).Live)
    (taken : step data state (call, .openTemp) = some next) : Sound data prior next := by
  cases phase : state.phases call with
  | idle =>
      cases staged : state.temp with
      | some inode =>
          rw [open_old_step phase staged] at taken
          obtain rfl := Option.some.inj taken
          refine sound.of_alone others (State.advance_phases _ _ _) (fun entry member => member)
            sound.apart sound.used ?_ ?_
          · rw [State.advance_phase]
            exact ⟨staged, Nat.zero_le _, Function.update_self ..⟩
          · rw [State.advance_content, fill_content [] (sound.apart inode staged)]
            exact sound.whole
      | none =>
          rw [open_new_step phase staged] at taken
          obtain rfl := Option.some.inj taken
          have unplaced : state.target ≠ some state.unused := fun placed =>
            Nat.lt_irrefl _ (sound.used _ (Or.inr placed))
          refine sound.of_alone others (State.advance_phases _ _ _) (fun entry member => member)
            ?_ ?_ ?_ ?_
          · intro inode fresh
            rw [← Option.some.inj fresh]
            exact unplaced
          · rintro inode (fresh | placed)
            · rw [← Option.some.inj fresh]
              exact Nat.lt_succ_self _
            · exact Nat.lt_succ_of_lt (sound.used inode (Or.inr placed))
          · rw [State.advance_phase]
            exact ⟨rfl, Nat.zero_le _, Function.update_self ..⟩
          · have kept : (state.create.fill state.unused []).content = state.content :=
              fill_content [] unplaced
            rw [State.advance_content, kept]
            exact sound.whole
  | _ => simp [step, phase] at taken

/-- The next chunk goes where the last one ended. -/
theorem write_at_end (bytes : Bytes) (offset count : Nat) (inside : offset ≤ bytes.length) :
    writeAt (bytes.take offset) offset ((bytes.drop offset).take count) =
      bytes.take (offset + ((bytes.drop offset).take count).length) := by
  have full : (bytes.take offset).length = offset := by
    rw [List.length_take, Nat.min_eq_left inside]
  have past (more : Nat) : (bytes.take offset).drop (offset + more) = [] :=
    List.drop_eq_nil_of_le (by rw [full]; omega)
  rw [writeAt, past, List.append_nil, List.take_take, Nat.min_self, List.rightpad, full,
    Nat.sub_self, List.replicate_zero, List.append_nil, List.take_add, List.length_take,
    ← List.take_eq_take_min]

theorem write_preserves_sound {count : Nat} (sound : Sound data prior state)
    (taken : step data state (call, .write count) = some next) : Sound data prior next := by
  cases phase : state.phases call with
  | writing inode offset =>
      have others := sound.others_not_live (by rw [phase]; trivial)
      have staged := sound.staged call
      rw [phase] at staged
      obtain ⟨temp, inside, held⟩ := staged
      simp only [step, phase, Option.ite_none_left_eq_some, Option.some.injEq] at taken
      obtain ⟨-, rfl⟩ := taken
      refine sound.of_alone others (State.advance_phases _ _ _) (fun entry member => member)
        sound.apart sound.used ?_ ?_
      · rw [State.advance_phase]
        refine ⟨temp, ?_, ?_⟩
        · rw [List.length_take, List.length_drop]
          omega
        · refine (Function.update_self ..).trans ?_
          rw [held, write_at_end _ _ _ inside]
      · rw [State.advance_content, fill_content _ (sound.apart inode temp)]
        exact sound.whole
  | _ => simp [step, phase] at taken

theorem fsync_preserves_sound (sound : Sound data prior state)
    (taken : step data state (call, .fsync) = some next) : Sound data prior next := by
  cases phase : state.phases call with
  | writing inode offset =>
      have others := sound.others_not_live (by rw [phase]; trivial)
      have staged := sound.staged call
      rw [phase] at staged
      obtain ⟨temp, -, held⟩ := staged
      simp only [step, phase, Option.ite_none_right_eq_some, Option.some.injEq] at taken
      obtain ⟨full, rfl⟩ := taken
      refine sound.of_alone others (State.advance_phases _ _ _) (fun entry member => member)
        sound.apart sound.used ?_ sound.whole
      rw [State.advance_phase]
      rw [full, List.take_length] at held
      exact ⟨inode, temp, held⟩
  | _ => simp [step, phase] at taken

theorem rename_preserves_sound (sound : Sound data prior state)
    (taken : step data state (call, .rename) = some next) : Sound data prior next := by
  cases phase : state.phases call with
  | synced =>
      have others := sound.others_not_live (by rw [phase]; trivial)
      have staged := sound.staged call
      rw [phase] at staged
      obtain ⟨inode, temp, held⟩ := staged
      simp only [step, phase, temp, Option.some.injEq] at taken
      subst taken
      refine sound.of_alone others (State.advance_phases _ _ _)
        (fun entry member => List.mem_cons_of_mem _ member) ?_ ?_ ?_ ?_
      · intro other none
        cases none
      · rintro other (none | placed)
        · cases none
        · exact sound.used other (Or.inl (temp.trans placed))
      · rw [State.advance_phase]
        show (call, data call) ∈ (call, state.inodes inode) :: state.replaced
        rw [held]
        exact List.mem_cons_self ..
      · exact Or.inr ⟨call, congrArg some held⟩
  | _ => simp [step, phase] at taken

theorem finish_preserves_sound (sound : Sound data prior state)
    (taken : step data state (call, .finish) = some next) : Sound data prior next := by
  cases phase : state.phases call with
  | renamed =>
      simp only [step, phase, Option.some.injEq] at taken
      subst taken
      have staged := sound.staged call
      rw [phase] at staged
      exact sound.leave id fun _ => staged
  | _ => simp [step, phase] at taken

theorem fail_preserves_sound (sound : Sound data prior state)
    (taken : step data state (call, .fail) = some next) : Sound data prior next := by
  have left : next = state.advance call (.returned false) := by
    cases phase : state.phases call <;> simp_all [step]
  rw [left]
  exact sound.leave id (by simp [Staged])

theorem step_preserves_sound (action : Call × CallStep) (sound : Sound data prior state)
    (alone : OpensAlone state action) (taken : step data state action = some next) :
    Sound data prior next := by
  obtain ⟨call, action⟩ := action
  cases action with
  | openTemp => exact open_preserves_sound sound (alone rfl) taken
  | write count => exact write_preserves_sound sound taken
  | fsync => exact fsync_preserves_sound sound taken
  | rename => exact rename_preserves_sound sound taken
  | finish => exact finish_preserves_sound sound taken
  | fail => exact fail_preserves_sound sound taken

/-- However the calls of `write_atomic` on a path interleave: as long as no call
opens the temporary file while another one is between its open and its rename,
every state reached is one that atomic replacement promises. -/
theorem lone_opens_atomic (data : Call → Bytes) {start final : State Call}
    {actions : List (Call × CallStep)} (begins : Begins start)
    (alone : Guarded (step data) OpensAlone start actions)
    (reached : run (step data) start actions = some final) :
    Atomic data start.content final := by
  have sound : Sound data start.content final := by
    refine run_preserves (fun state action next sound alone taken => ?_) begins.sound alone reached
    exact step_preserves_sound action sound alone taken
  exact sound.atomic

/-- Whoever opens the temporary file behind a call that is about to rename it
makes that call move an empty file. -/
theorem open_empties {other : Call} (apart : other ≠ call) {inode : Nat}
    (temp : state.temp = some inode) (idle : state.phases call = .idle)
    (about : state.phases other = .synced) :
    ∃ final, run (step data) state [(call, .openTemp), (other, .rename)] = some final ∧
      final.content = some [] := by
  have later : ((state.fill inode []).advance call (.writing inode 0)).phases other = .synced :=
    (State.advance_phases _ _ _ _ apart).trans about
  have again : ((state.fill inode []).advance call (.writing inode 0)).temp = some inode := temp
  rw [run_cons _ (open_old_step idle temp), run, step]
  simp only [later, again]
  refine ⟨_, rfl, ?_⟩
  exact congrArg some (Function.update_self ..)

/-- A call that has its file open and `offset` bytes in it, while the path holds
`content`. -/
structure Writing (data : Call → Bytes) (state : State Call) (call : Call) (inode offset : Nat)
    (content : Option Bytes) : Prop where
  phase : state.phases call = .writing inode offset
  temp : state.temp = some inode
  apart : state.target ≠ some inode
  inside : offset ≤ (data call).length
  held : state.inodes inode = (data call).take offset
  content : state.content = content

theorem open_writing (data : Call → Bytes) (begins : Begins state) (call : Call) :
    ∃ inode next, step data state (call, .openTemp) = some next ∧
      Writing data next call inode 0 state.content := by
  have idle := begins.idle call
  cases temp : state.temp with
  | some inode =>
      have apart := begins.apart inode temp
      exact ⟨inode, _, open_old_step idle temp,
        { phase := State.advance_phase ..
          temp := temp
          apart := apart
          inside := Nat.zero_le _
          held := Function.update_self ..
          content := fill_content [] apart }⟩
  | none =>
      have unplaced : state.target ≠ some state.unused := fun placed =>
        Nat.lt_irrefl _ (begins.used _ (Or.inr placed))
      exact ⟨state.unused, _, open_new_step idle temp,
        { phase := State.advance_phase ..
          temp := rfl
          apart := unplaced
          inside := Nat.zero_le _
          held := Function.update_self ..
          content := by
            have kept : (state.create.fill state.unused []).content = state.content :=
              fill_content [] unplaced
            exact kept }⟩

theorem write_writing {inode : Nat} {content : Option Bytes} (count : Nat)
    (writing : Writing data state call inode 0 content) :
    ∃ actions next, run (step data) state actions = some next ∧
      Writing data next call inode ((data call).take count).length content := by
  by_cases none : (data call).take count = []
  · refine ⟨[], state, rfl, ?_⟩
    rwa [none]
  · let chunk := (data call).take count
    let next := (state.fill inode (writeAt (state.inodes inode) 0 chunk)).advance call
      (.writing inode chunk.length)
    refine ⟨[(call, .write count)], next, ?_,
      { phase := State.advance_phase ..
        temp := writing.temp
        apart := writing.apart
        inside := ?_
        held := ?_
        content := (fill_content _ writing.apart).trans writing.content }⟩
    · simp only [run, step, writing.phase, List.drop_zero, if_neg none, Nat.zero_add]
      rfl
    · rw [List.length_take]
      exact Nat.min_le_right ..
    · refine (Function.update_self ..).trans ?_
      have ended := write_at_end (data call) 0 count (Nat.zero_le _)
      rwa [List.drop_zero, Nat.zero_add, ← writing.held] at ended

theorem rename_writing {inode : Nat} {content : Option Bytes}
    (writing : Writing data state call inode (data call).length content) :
    ∃ next, run (step data) state [(call, .fsync), (call, .rename)] = some next ∧
      next.content = some (data call) ∧ next.temp = none := by
  have synced : step data state (call, .fsync) = some (state.advance call .synced) := by
    simp only [step, writing.phase, if_true]
  have temp : (state.advance call .synced).temp = some inode := writing.temp
  rw [run_cons _ synced, run, step]
  simp only [State.advance_phase, temp]
  refine ⟨_, rfl, ?_, rfl⟩
  exact congrArg some (writing.held.trans (List.take_length ..))

/-- The two names in the view of a single call. -/
def Views (path temp : Path) (state : State Call) (content : Path → Option Bytes) : Prop :=
  state.content = content path ∧ state.temp.map state.inodes = content temp

/-- A call of `write_atomic` that nobody disturbs goes one of the machine's ways,
whatever its plan is. -/
theorem solo_call_run {path temp : Path} (staged : path.tempPath = some temp) (isPrivate : Bool)
    (plan : Plan WriteStep) (disk : Disk) (begins : Begins state) (call : Call)
    (view : Views path temp state disk.content) :
    ∃ actions next, run (step data) state actions = some next ∧
      Views path temp next
        ((writeAtomic path (data call) isPrivate).run plan disk).2.content := by
  rw [write_atomic_content]
  have apart := Path.temp_path_ne path temp staged
  obtain ⟨inode, opened, taken, writing⟩ := open_writing data begins call
  cases moved : progress path (data call) plan with
  | untouched => exact ⟨[], state, rfl, by simpa [Progress.content] using view⟩
  | staged bytes =>
      obtain ⟨count, rfl⟩ := staged_is_beginning moved
      obtain ⟨actions, next, written, writing⟩ := write_writing count writing
      refine ⟨(call, .openTemp) :: actions, next, by rw [run_cons _ taken, written], ?_, ?_⟩
      · simp [Progress.content, staged, Function.update_of_ne (Ne.symm apart), writing.content,
          view.1]
      · rw [writing.temp, Option.map_some, writing.held, List.length_take, ← List.take_eq_take_min]
        simp [Progress.content, staged]
  | replaced =>
      obtain ⟨actions, next, written, writing⟩ := write_writing (data call).length writing
      rw [List.take_length] at writing
      obtain ⟨final, renamed, content, none⟩ := rename_writing writing
      refine ⟨(call, .openTemp) :: (actions ++ [(call, .fsync), (call, .rename)]), final, ?_, ?_,
        ?_⟩
      · rw [run_cons _ taken, run_append, written, Option.bind_some, renamed]
      · simp [Progress.content, staged, Function.update_of_ne (Ne.symm apart), content]
      · simp [Progress.content, staged, none]

end Steps

section Sample

/-- Two calls, with their data. -/
def twoCalls : Bool → Bytes
  | false => asBytes "first"
  | true => asBytes "second"

/-- Neither the path nor the temporary file exists. -/
def untouched : State Bool where
  inodes := fun _ => []
  unused := 0
  temp := none
  target := none
  phases := fun _ => .idle
  replaced := []

theorem untouched_begins : Begins untouched where
  idle _ := rfl
  apart := by simp [untouched]
  used := by simp [untouched]

/-- All of a call. -/
def wholeCall (call : Bool) : List (Bool × CallStep) :=
  [(call, .openTemp), (call, .write 6), (call, .fsync), (call, .rename), (call, .finish)]

/-- One call after the other. -/
theorem whole_calls_alone :
    Guarded (step twoCalls) OpensAlone untouched (wholeCall false ++ wholeCall true) := by
  refine guarded_cons (fun _ other _ => id) rfl ?_
  refine guarded_cons (fun wrong => by cases wrong) rfl ?_
  refine guarded_cons (fun wrong => by cases wrong) rfl ?_
  refine guarded_cons (fun wrong => by cases wrong) rfl ?_
  refine guarded_cons (fun wrong => by cases wrong) rfl ?_
  refine guarded_cons (fun _ other apart => ?_) rfl ?_
  · cases other with
    | false => exact id
    | true => exact absurd rfl apart
  refine guarded_cons (fun wrong => by cases wrong) rfl ?_
  refine guarded_cons (fun wrong => by cases wrong) rfl ?_
  refine guarded_cons (fun wrong => by cases wrong) rfl ?_
  exact guarded_cons (fun wrong => by cases wrong) rfl trivial

theorem lone_opens_atomic_sample :
    ∃ final, run (step twoCalls) untouched (wholeCall false ++ wholeCall true) = some final ∧
      final.content = some (asBytes "second") ∧ Atomic twoCalls none final := by
  refine ⟨_, rfl, rfl, ?_⟩
  exact lone_opens_atomic twoCalls untouched_begins whole_calls_alone rfl

/-- The second call opens the temporary file between the first one's fsync and
rename. -/
theorem overlapping_open_empties :
    Begins untouched ∧ ∃ final, run (step twoCalls) untouched
        [(false, .openTemp), (false, .write 6), (false, .fsync), (true, .openTemp),
          (false, .rename)] = some final ∧
      ¬Atomic twoCalls none final := by
  refine ⟨untouched_begins, _, rfl, ?_⟩
  rintro ⟨whole, -⟩
  rcases whole with none | ⟨call, full⟩
  · cases none
  · revert full
    cases call <;> decide

end Sample

end NodeOs.Noded.ConcurrentWrite
