import NodeOs.Library.FaultPlan

/-!
# Loops of processes under a fault plan

`each` is a loop over a list, whose body sees the position of its item; the
first error ends it. `iterate` repeats a body on the value it returned.

A loop over a list often works on one part of the state per item. `Held` says
that each item fits its part; the rules below ask what one pass of the body
does to its own part and that it leaves the other parts alone.
-/

namespace NodeOs.Library.FaultPlan

namespace Proc

variable {Step Error State Item Other Value : Type}

def each (body : Nat → Item → Proc Step Error State Other) :
    Nat → List Item → Proc Step Error State (List Other)
  | _, [] => pure []
  | index, item :: rest => do
      let made ← body index item
      let others ← each body (index + 1) rest
      pure (made :: others)

def iterate (body : Value → Proc Step Error State Value) :
    Nat → Value → Proc Step Error State Value
  | 0, value => pure value
  | count + 1, value => do
      let next ← body value
      iterate body count next

end Proc

open Proc

variable {Step Error State Item Other Value Part : Type}

/-- Every item of a list, at its position from `start` on, fits its part of the state. -/
def Held (fits : Nat → Item → Part → Prop) (view : Nat → State → Part) (start : Nat)
    (items : List Item) (state : State) : Prop :=
  ∀ offset item, items[offset]? = some item →
    fits (start + offset) item (view (start + offset) state)

theorem held_cons {fits : Nat → Item → Part → Prop} {view : Nat → State → Part} {start : Nat}
    {item : Item} {rest : List Item} {state : State} :
    Held fits view start (item :: rest) state ↔
      fits start item (view start state) ∧ Held fits view (start + 1) rest state := by
  constructor
  · intro held
    constructor
    · exact held 0 item rfl
    · intro offset other listed
      have shifted := held (offset + 1) other listed
      rwa [show start + (offset + 1) = start + 1 + offset by omega] at shifted
  · intro ⟨head, tail⟩ offset other listed
    cases offset with
    | zero =>
        cases listed
        exact head
    | succ offset =>
        rw [show start + (offset + 1) = start + 1 + offset by omega]
        exact tail offset other listed

theorem held_congr {fits : Nat → Item → Part → Prop} {view : Nat → State → Part} {start : Nat}
    {items : List Item} {first second : State} (held : Held fits view start items first)
    (same : ∀ index, start ≤ index → view index second = view index first) :
    Held fits view start items second := by
  intro offset item listed
  rw [same (start + offset) (by omega)]
  exact held offset item listed

/-- A loop leaves the parts of the positions it does not visit alone. -/
theorem Keeps.each {body : Nat → Item → Proc Step Error State Other} {view : Nat → State → Part}
    (frame : ∀ index item other, other ≠ index → Keeps (view other) (body index item))
    {start : Nat} {items : List Item} {other : Nat}
    (outside : other < start ∨ start + items.length ≤ other) :
    Keeps (view other) (Proc.each body start items) := by
  induction items generalizing start with
  | nil => exact Keeps.ret []
  | cons item rest ih =>
      have later : other < start + 1 ∨ start + 1 + rest.length ≤ other := by
        rw [List.length_cons] at outside
        omega
      apply Keeps.bind
      · apply frame
        rw [List.length_cons] at outside
        omega
      · intro made
        apply Keeps.bind (ih later)
        intro others
        exact Keeps.ret _

/-- An invariant of the visits to the items of a list is one of the loop. -/
theorem each_preserves {plan : Plan Step} {invariant : State → Prop}
    {body : Nat → Item → Proc Step Error State Other} (start : Nat) (items : List Item)
    (visit : ∀ offset item, items[offset]? = some item → ∀ state, invariant state →
      invariant ((body (start + offset) item).run plan state).2)
    (state : State) (holds : invariant state) :
    invariant ((Proc.each body start items).run plan state).2 := by
  induction items generalizing start state with
  | nil => exact holds
  | cons item rest ih =>
      have here := visit 0 item rfl state holds
      have later (offset : Nat) (other : Item) (listed : rest[offset]? = some other) :
          ∀ state, invariant state →
            invariant ((body (start + 1 + offset) other).run plan state).2 := by
        rw [show start + 1 + offset = start + (offset + 1) by omega]
        exact visit (offset + 1) other listed
      unfold Proc.each
      rw [run_bind]
      cases ran : (body start item).run plan state with
      | mk outcome middle =>
          rw [Nat.add_zero, ran] at here
          cases outcome with
          | ok made =>
              dsimp only
              rw [run_bind_pure_state]
              exact ih (start + 1) later middle here
          | err error => exact here
          | killed => exact here

theorem Preserves.iterate {invariant : State → Prop}
    {repeated : Value → Proc Step Error State Value}
    (pass : ∀ value, Preserves invariant (repeated value)) (count : Nat) (value : Value) :
    Preserves invariant (Proc.iterate repeated count value) := by
  induction count generalizing value with
  | zero => exact Preserves.ret value
  | succ count ih => exact Preserves.bind (pass value) ih

section Rules

variable {plan : Plan Step} {body : Nat → Item → Proc Step Error State Other}
  {view : Nat → State → Part} {before : Nat → Item → Part → Prop}
  {after : Nat → Other → Part → Prop} {broken : Error → Nat → Part → Prop}
  {cut : Nat → Part → Prop}

/-- Where the loop ends early, the positions it has left and those it has not
reached fit `broken` because what fits `after` or `before` does. -/
theorem Meets.each
    (visit : ∀ index item, Meets plan (fun state => before index item (view index state))
      (body index item) (fun made state => after index made (view index state))
      (fun error state => broken error index (view index state))
      (fun state => cut index (view index state)))
    (frame : ∀ index item other, other ≠ index → Keeps (view other) (body index item))
    (unvisited : ∀ index item part, before index item part →
      (∀ error, broken error index part) ∧ cut index part)
    (visited : ∀ index made part, after index made part →
      (∀ error, broken error index part) ∧ cut index part)
    (start : Nat) (items : List Item) :
    Meets plan (Held before view start items) (Proc.each body start items)
      (fun others state => others.length = items.length ∧ Held after view start others state)
      (fun error state => ∀ offset < items.length,
        broken error (start + offset) (view (start + offset) state))
      (fun state => ∀ offset < items.length,
        cut (start + offset) (view (start + offset) state)) := by
  induction items generalizing start with
  | nil =>
      intro state _
      exact ⟨rfl, fun offset item listed => by simp at listed⟩
  | cons item rest ih =>
      -- What holds here and at every later position holds at every position.
      have shift {fits : Nat → Part → Prop} {state : State} (here : fits start (view start state))
          (there : ∀ offset < rest.length,
            fits (start + 1 + offset) (view (start + 1 + offset) state)) :
          ∀ offset < (item :: rest).length,
            fits (start + offset) (view (start + offset) state) := by
        intro offset inside
        cases offset with
        | zero => exact here
        | succ offset =>
            rw [show start + (offset + 1) = start + 1 + offset by omega]
            exact there offset (by simpa using inside)
      have head : Meets plan (Held before view start (item :: rest)) (body start item)
          (fun made state => after start made (view start state) ∧
            Held before view (start + 1) rest state)
          (fun error state => ∀ offset < (item :: rest).length,
            broken error (start + offset) (view (start + offset) state))
          (fun state => ∀ offset < (item :: rest).length,
            cut (start + offset) (view (start + offset) state)) := by
        intro state held
        obtain ⟨fits, ahead⟩ := held_cons.mp held
        have opening := visit start item state fits
        have ready := held_congr ahead fun index past =>
          frame start item index (by omega) plan state
        cases ran : (body start item).run plan state with
        | mk outcome middle =>
            rw [ran] at opening ready
            cases outcome with
            | ok made => exact ⟨opening, ready⟩
            | err error =>
                apply shift opening
                intro offset inside
                exact (unvisited _ _ _ (ready offset _ (List.getElem?_eq_getElem inside))).1 error
            | killed =>
                apply shift opening
                intro offset inside
                exact (unvisited _ _ _ (ready offset _ (List.getElem?_eq_getElem inside))).2
      have tail (made : Other) : Meets plan
          (fun state => after start made (view start state) ∧
            Held before view (start + 1) rest state)
          (Proc.each body (start + 1) rest)
          (fun others state => after start made (view start state) ∧
            others.length = rest.length ∧ Held after view (start + 1) others state)
          (fun error state => ∀ offset < (item :: rest).length,
            broken error (start + offset) (view (start + offset) state))
          (fun state => ∀ offset < (item :: rest).length,
            cut (start + offset) (view (start + offset) state)) := by
        intro state ⟨settled, ahead⟩
        have looped := ih (start + 1) state ahead
        have kept : view start ((Proc.each body (start + 1) rest).run plan state).2 =
            view start state :=
          Keeps.each frame (Or.inl (Nat.lt_succ_self start)) plan state
        rw [← kept] at settled
        cases ran : (Proc.each body (start + 1) rest).run plan state with
        | mk outcome final =>
            rw [ran] at looped settled
            cases outcome with
            | ok others => exact ⟨settled, looped⟩
            | err error => exact shift ((visited _ _ _ settled).1 error) looped
            | killed => exact shift (visited _ _ _ settled).2 looped
      apply Meets.bind head
      intro made
      apply Meets.bind (tail made)
      intro others
      apply Meets.ret
      intro state ⟨settled, length, held⟩
      exact ⟨by simp [length], held_cons.mpr ⟨settled, held⟩⟩

/-- A loop that takes an invariant of one position to that of the next. -/
theorem Meets.each_forward {invariant : Nat → State → Prop} {failed : Error → State → Prop}
    {crashed : State → Prop} (start : Nat) (items : List Item)
    (visit : ∀ offset item, items[offset]? = some item →
      Meets plan (invariant (start + offset)) (body (start + offset) item)
        (fun _ => invariant (start + offset + 1)) failed crashed) :
    Meets plan (invariant start) (Proc.each body start items)
      (fun _ => invariant (start + items.length)) failed crashed := by
  induction items generalizing start with
  | nil => exact Meets.ret fun _ holds => holds
  | cons item rest ih =>
      have later (offset : Nat) (other : Item) (listed : rest[offset]? = some other) :
          Meets plan (invariant (start + 1 + offset)) (body (start + 1 + offset) other)
            (fun _ => invariant (start + 1 + offset + 1)) failed crashed := by
        rw [show start + 1 + offset = start + (offset + 1) by omega]
        exact visit (offset + 1) other listed
      have length : start + (item :: rest).length = start + 1 + rest.length := by
        rw [List.length_cons]
        omega
      unfold Proc.each
      rw [length]
      apply Meets.bind (visit 0 item rfl)
      intro made
      apply Meets.bind (ih (start + 1) later)
      intro others
      exact Meets.ret fun _ holds => holds

theorem Meets.iterate {repeated : Value → Proc Step Error State Value}
    {invariant : Value → State → Prop} {failed : Error → State → Prop} {crashed : State → Prop}
    (pass : ∀ value, Meets plan (invariant value) (repeated value) invariant failed crashed)
    (count : Nat) (value : Value) :
    Meets plan (invariant value) (Proc.iterate repeated count value) invariant failed crashed := by
  induction count generalizing value with
  | zero => exact Meets.ret fun _ holds => holds
  | succ count ih => exact Meets.bind (pass value) ih

end Rules

/-- Every error that ends the process is one that the caller accepts. -/
def Ends (accepts : Error → State → Prop) (result : Outcome Error Value × State) : Prop :=
  ∀ error, result.1 = .err error → accepts error result.2

section Ending

variable {plan : Plan Step} {accepts : Error → State → Prop}

theorem ends_bind_iff (first : Proc Step Error State Value)
    (next : Value → Proc Step Error State Other) (state : State) :
    Ends accepts ((first >>= next).run plan state) ↔
      Ends accepts (first.run plan state) ∧
        ∀ value middle, first.run plan state = (.ok value, middle) →
          Ends accepts ((next value).run plan middle) := by
  unfold Ends
  rw [run_bind]
  cases ran : first.run plan state with
  | mk outcome middle => cases outcome <;> simp

theorem ends_pure (value : Value) (state : State) :
    Ends accepts ((pure value : Proc Step Error State Value).run plan state) := by
  intro error failed
  cases failed

theorem ends_attempt (process : Proc Step Error State Value) (state : State) :
    Ends accepts ((attempt process).run plan state) := by
  intro error failed
  rw [run_attempt] at failed
  cases ran : process.run plan state with
  | mk outcome after =>
      rw [ran] at failed
      cases outcome <;> cases failed

theorem ends_of_never {pre : State → Prop} {process : Proc Step Error State Value}
    {returned : Value → State → Prop} {crashed : State → Prop}
    (met : Meets plan pre process returned (fun _ _ => False) crashed) (state : State)
    (holds : pre state) : Ends accepts (process.run plan state) := by
  intro error failed
  have result := met state holds
  cases ran : process.run plan state with
  | mk outcome after =>
      rw [ran] at result failed
      cases failed
      exact result.elim

/-- A guard on the visits that a loop over a list really makes. -/
def EachMeets (guard : Nat → Item → State → Prop)
    (body : Nat → Item → Proc Step Error State Other) (plan : Plan Step) :
    Nat → List Item → State → Prop
  | _, [], _ => True
  | index, item :: rest, state =>
      guard index item state ∧ ∀ made after, (body index item).run plan state = (.ok made, after) →
        EachMeets guard body plan (index + 1) rest after

/-- A guard on the passes that a repetition really makes. -/
def PassesMeet (guard : Value → State → Prop) (body : Value → Proc Step Error State Value)
    (plan : Plan Step) : Nat → Value → State → Prop
  | 0, _, _ => True
  | count + 1, value, state =>
      guard value state ∧ ∀ next after, (body value).run plan state = (.ok next, after) →
        PassesMeet guard body plan count next after

/-- Two guards agree on a loop's visits where they agree on the states that an
invariant of the visits allows. -/
theorem each_meets_congr {first second : Nat → Item → State → Prop} {invariant : State → Prop}
    {body : Nat → Item → Proc Step Error State Other}
    (same : ∀ index item state, invariant state →
      (first index item state ↔ second index item state))
    (kept : ∀ index item state made after, invariant state →
      (body index item).run plan state = (.ok made, after) → invariant after)
    (start : Nat) (items : List Item) (state : State) (holds : invariant state) :
    EachMeets first body plan start items state ↔ EachMeets second body plan start items state := by
  induction items generalizing start state with
  | nil => exact Iff.rfl
  | cons item rest ih =>
      unfold EachMeets
      apply and_congr (same start item state holds)
      apply forall_congr'
      intro made
      apply forall_congr'
      intro after
      apply forall_congr'
      intro returned
      exact ih (start + 1) after (kept start item state made after holds returned)

theorem ends_each_iff {body : Nat → Item → Proc Step Error State Other}
    {guard : Nat → Item → State → Prop} {start : Nat} {items : List Item}
    (visit : ∀ offset item, items[offset]? = some item → ∀ state,
      Ends accepts ((body (start + offset) item).run plan state) ↔
        guard (start + offset) item state)
    (state : State) :
    Ends accepts ((each body start items).run plan state) ↔
      EachMeets guard body plan start items state := by
  induction items generalizing start state with
  | nil => simp [each, Ends, EachMeets]
  | cons item rest ih =>
      have here := visit 0 item rfl state
      have later (offset : Nat) (other : Item) (listed : rest[offset]? = some other) :
          ∀ state, Ends accepts ((body (start + 1 + offset) other).run plan state) ↔
            guard (start + 1 + offset) other state := by
        rw [show start + 1 + offset = start + (offset + 1) by omega]
        exact visit (offset + 1) other listed
      unfold each EachMeets
      rw [ends_bind_iff]
      apply and_congr here
      apply forall_congr'
      intro made
      apply forall_congr'
      intro after
      apply forall_congr'
      intro _
      rw [ends_bind_iff, ih later after]
      simp [Ends]

theorem ends_iterate_iff {body : Value → Proc Step Error State Value}
    {guard : Value → State → Prop} {invariant : Value → State → Prop}
    (pass : ∀ value state, invariant value state →
      (Ends accepts ((body value).run plan state) ↔ guard value state))
    (kept : ∀ value state next after, invariant value state →
      (body value).run plan state = (.ok next, after) → invariant next after)
    (count : Nat) (value : Value) (state : State) (holds : invariant value state) :
    Ends accepts ((iterate body count value).run plan state) ↔
      PassesMeet guard body plan count value state := by
  induction count generalizing value state with
  | zero => simp [iterate, Ends, PassesMeet]
  | succ count ih =>
      unfold iterate PassesMeet
      rw [ends_bind_iff]
      apply and_congr (pass value state holds)
      apply forall_congr'
      intro next
      apply forall_congr'
      intro after
      apply forall_congr'
      intro returned
      exact ih next after (kept value state next after holds returned)

end Ending

end NodeOs.Library.FaultPlan
