import Mathlib.Data.List.Forall2
import NodeOs.Library.Loop

/-!
# Processes that work through a list

A process that has some items to deal with, in their order, and leaves an entry
for each in a list of the state. Whatever the plan does to it, the entries are
those of a beginning of the items, and of all of them if it returns.
-/

namespace NodeOs.Library.FaultPlan

open Proc

variable {Step Inner Error Fault State Part Item Entry Value Other : Type}

def Appends (view : State → List Entry) (belongs : Item → Entry → Prop) (items : List Item)
    (process : Proc Step Error State Value) : Prop :=
  ∀ plan state, ∃ entries, view (process.run plan state).2 = view state ++ entries ∧
    (∃ count, List.Forall₂ belongs (items.take count) entries) ∧
    ∀ value, (process.run plan state).1 = .ok value → List.Forall₂ belongs items entries

/-- A loop keeps what each of its passes keeps. -/
theorem Keeps.loop {view : State → Part} {body : Nat → Item → Proc Step Error State Other}
    (visit : ∀ index item, Keeps view (body index item)) (start : Nat) (items : List Item) :
    Keeps view (Proc.each body start items) := by
  induction items generalizing start with
  | nil => exact .ret []
  | cons item rest ih =>
      exact .bind (visit start item) fun _ => .bind (ih (start + 1)) fun _ => .ret _

/-- What holds when the first part has returned and the second has run, and
when the first has not returned, holds of the sequence. -/
theorem run_bind_holds {holds : State → Prop} {plan : Plan Step} {state : State}
    {first : Proc Step Error State Value} {next : Value → Proc Step Error State Other}
    (through : ∀ value, (first.run plan state).1 = .ok value →
      holds ((next value).run plan (first.run plan state).2).2)
    (stopped : (∀ value, (first.run plan state).1 ≠ .ok value) →
      holds (first.run plan state).2) :
    holds ((first >>= next).run plan state).2 := by
  rw [run_bind]
  cases ran : first.run plan state with
  | mk outcome after =>
      rw [ran] at through stopped
      cases outcome with
      | ok value => exact through value rfl
      | err error => exact stopped (by simp)
      | killed => exact stopped (by simp)

/-- Entries of a beginning of the items have been appended. -/
def Begun (belongs : Item → Entry → Prop) (items : List Item) (before after : List Entry) : Prop :=
  ∃ entries, after = before ++ entries ∧ ∃ count, List.Forall₂ belongs (items.take count) entries

/-- The entries of all of them have been. -/
def Whole (belongs : Item → Entry → Prop) (items : List Item) (before after : List Entry) : Prop :=
  ∃ entries, after = before ++ entries ∧ List.Forall₂ belongs items entries

theorem begun_refl (belongs : Item → Entry → Prop) (items : List Item) (before : List Entry) :
    Begun belongs items before before :=
  ⟨[], by simp, 0, .nil⟩

theorem Whole.begun {belongs : Item → Entry → Prop} {items : List Item}
    {before after : List Entry} (whole : Whole belongs items before after) :
    Begun belongs items before after := by
  obtain ⟨entries, same, all⟩ := whole
  exact ⟨entries, same, items.length, by rwa [List.take_length]⟩

namespace Appends

variable {view : State → List Entry} {belongs : Item → Entry → Prop} {items more : List Item}

theorem begun {process : Proc Step Error State Value}
    (appends : Appends view belongs items process) (plan : Plan Step) (state : State) :
    Begun belongs items (view state) (view (process.run plan state).2) := by
  obtain ⟨entries, same, begun, -⟩ := appends plan state
  exact ⟨entries, same, begun⟩

theorem whole {process : Proc Step Error State Value} {plan : Plan Step} {state : State}
    {value : Value} (appends : Appends view belongs items process)
    (returned : (process.run plan state).1 = .ok value) :
    Whole belongs items (view state) (view (process.run plan state).2) := by
  obtain ⟨entries, same, -, all⟩ := appends plan state
  exact ⟨entries, same, all value returned⟩

theorem of_keeps {process : Proc Step Error State Value} (kept : Keeps view process) :
    Appends view belongs [] process := by
  intro plan state
  refine ⟨[], ?_, ⟨0, .nil⟩, fun _ _ => .nil⟩
  rw [kept plan state, List.append_nil]

/-- A step that leaves an entry, if it takes effect. -/
theorem act {item : Item} {label : Step} {error : Error} {effect : State → Option State}
    (leaves : ∀ state next, effect state = some next →
      ∃ entry, belongs item entry ∧ view next = view state ++ [entry]) :
    Appends view belongs [item] (Proc.act label error effect) := by
  intro plan state
  have returned := run_act_ok_iff plan state label error effect
  have after : ((Proc.act label error effect).run plan state).2 =
      if (plan label).begins then (effect state).getD state else state :=
    congrArg Prod.snd (run_act plan state label error effect)
  cases taken : effect state with
  | none =>
      refine ⟨[], ?_, ⟨0, .nil⟩, fun value answer => ?_⟩
      · simp [after, taken]
      · simp [taken] at returned
        exact absurd answer (returned value)
  | some next =>
      obtain ⟨entry, belonging, appended⟩ := leaves state next taken
      have whole : List.Forall₂ belongs [item] [entry] := .cons belonging .nil
      by_cases begins : (plan label).begins = true
      · refine ⟨[entry], ?_, ⟨1, whole⟩, fun _ _ => whole⟩
        rw [after, if_pos begins, taken]
        exact appended
      · refine ⟨[], ?_, ⟨0, .nil⟩, fun value answer => ?_⟩
        · rw [after, if_neg begins, List.append_nil]
        · have done := ((returned value).mp answer).1
          rw [done] at begins
          exact absurd rfl begins

theorem bind_ok {first : Proc Step Error State Value} {next : Value → Proc Step Error State Other}
    (head : Appends view belongs items first)
    (tail : ∀ plan state value, (first.run plan state).1 = .ok value →
      Appends view belongs more (next value)) :
    Appends view belongs (items ++ more) (first >>= next) := by
  intro plan state
  obtain ⟨entries, appended, ⟨count, begun⟩, full⟩ := head plan state
  have rest := tail plan state
  -- A beginning of the first items is one of them all.
  have partly : ∃ count, List.Forall₂ belongs ((items ++ more).take count) entries := by
    refine ⟨min count items.length, ?_⟩
    rw [List.take_append_of_le_length (Nat.min_le_right _ _), List.take_eq_take_min] at *
    simpa using begun
  rw [run_bind]
  cases ran : first.run plan state with
  | mk outcome middle =>
      rw [ran] at appended full rest
      cases outcome with
      | err error => exact ⟨entries, appended, partly, by simp⟩
      | killed => exact ⟨entries, appended, partly, by simp⟩
      | ok value =>
          obtain ⟨later, followed, ⟨rest, reached⟩, complete⟩ := rest value rfl plan middle
          have whole := full value rfl
          refine ⟨entries ++ later, ?_, ⟨items.length + rest, ?_⟩, fun other answer => ?_⟩
          · rw [followed, ← List.append_assoc]
            exact congrArg (· ++ later) appended
          · rw [List.take_length_add_append]
            exact List.rel_append whole reached
          · exact List.rel_append whole (complete other answer)

theorem bind {first : Proc Step Error State Value} {next : Value → Proc Step Error State Other}
    (head : Appends view belongs items first)
    (tail : ∀ value, Appends view belongs more (next value)) :
    Appends view belongs (items ++ more) (first >>= next) :=
  bind_ok head fun _ _ value _ => tail value

theorem mapError {change : Error → Fault} {process : Proc Step Error State Value}
    (inner : Appends view belongs items process) :
    Appends view belongs items (Proc.mapError change process) := by
  intro plan state
  obtain ⟨entries, appended, begun, full⟩ := inner plan state
  refine ⟨entries, ?_, begun, fun value answer => full value ?_⟩
  · rw [run_mapError_state]
    exact appended
  · rwa [run_mapError_ok_iff] at answer

theorem relabel {place : Inner → Step} {process : Proc Inner Error State Value}
    (inner : Appends view belongs items process) :
    Appends view belongs items (Proc.relabel place process) :=
  fun plan state => inner (plan.at place) state

/-- A loop over the items, each of which has its pass. -/
theorem each {body : Nat → Item → Proc Step Error State Other}
    (visit : ∀ index item, Appends view belongs [item] (body index item))
    (start : Nat) (items : List Item) :
    Appends view belongs items (Proc.each body start items) := by
  induction items generalizing start with
  | nil => exact of_keeps (.ret [])
  | cons item rest ih =>
      show Appends view belongs ([item] ++ rest) _
      refine bind (visit start item) fun made => ?_
      have last (others : List Other) : Appends view belongs []
          (pure (made :: others) : Proc Step Error State (List Other)) := of_keeps (.ret _)
      have later := bind (ih (start + 1)) last
      rwa [List.append_nil] at later

end Appends

end NodeOs.Library.FaultPlan
