import NodeOs.Library.FaultPlan

/-!
# Processes that answer alike

Two processes with the same steps, on two kinds of state, simulate each other
when every plan gets the same answer out of both and related states stay related.
The relation may be weaker from the first step on.
-/

namespace NodeOs.Library.FaultPlan

open Proc

variable {Step Error State Model Value Result : Type} {before after : State → Model → Prop}

theorem Proc.bind_ret (value : Value) (next : Value → Proc Step Error State Result) :
    (pure value >>= next) = next value := rfl

def Simulates (before after : State → Model → Prop) (process : Proc Step Error State Value)
    (model : Proc Step Error Model Value) : Prop :=
  ∀ plan state other, before state other →
    (process.run plan state).1 = (model.run plan other).1 ∧
      after (process.run plan state).2 (model.run plan other).2

namespace Simulates

theorem ret (weaker : ∀ state other, before state other → after state other) (value : Value) :
    Simulates before after (pure value : Proc Step Error State Value) (pure value) :=
  fun _ state other related => ⟨rfl, weaker state other related⟩

theorem raise (weaker : ∀ state other, before state other → after state other) (error : Error) :
    Simulates before after (Proc.raise error : Proc Step Error State Value) (Proc.raise error) :=
  fun _ state other related => ⟨rfl, weaker state other related⟩

theorem bind {first : Proc Step Error State Value} {model : Proc Step Error Model Value}
    {next : Value → Proc Step Error State Result} {modelNext : Value → Proc Step Error Model Result}
    (head : Simulates before after first model)
    (tail : ∀ value, Simulates after after (next value) (modelNext value)) :
    Simulates before after (first >>= next) (model >>= modelNext) := by
  intro plan state other related
  obtain ⟨same, opened⟩ := head plan state other related
  rw [run_bind, run_bind]
  cases ran : first.run plan state with
  | mk outcome middle =>
      cases modelRan : model.run plan other with
      | mk modelOutcome modelMiddle =>
          rw [ran, modelRan] at same opened
          cases same
          cases outcome with
          | ok value => exact tail value plan middle modelMiddle opened
          | err error => exact ⟨rfl, opened⟩
          | killed => exact ⟨rfl, opened⟩

theorem step {label : Step} {error : Error} {cut : Nat → State → State}
    {modelCut : Nat → Model → Model} {action : State → Outcome Error Value × State}
    {modelAction : Model → Outcome Error Value × Model}
    (full : ∀ state other, before state other →
      (action state).1 = (modelAction other).1 ∧ after (action state).2 (modelAction other).2)
    (broken : ∀ extent state other, before state other →
      after (cut extent state) (modelCut extent other)) :
    Simulates before after (Proc.step label error cut action)
      (Proc.step label error modelCut modelAction) := by
  intro plan state other related
  rw [run_step, run_step]
  cases plan label with
  | done => exact full state other related
  | fails extent => exact ⟨rfl, broken extent state other related⟩
  | killed extent => exact ⟨rfl, broken extent state other related⟩

theorem attempt {process : Proc Step Error State Value} {model : Proc Step Error Model Value}
    (inner : Simulates before after process model) :
    Simulates before after (Proc.attempt process) (Proc.attempt model) := by
  intro plan state other related
  obtain ⟨same, reached⟩ := inner plan state other related
  rw [run_attempt, run_attempt]
  cases ran : process.run plan state with
  | mk outcome final =>
      cases modelRan : model.run plan other with
      | mk modelOutcome modelFinal =>
          rw [ran, modelRan] at same reached
          cases same
          cases outcome <;> exact ⟨rfl, reached⟩

theorem ignore {process : Proc Step Error State Value} {model : Proc Step Error Model Value}
    (inner : Simulates before after process model) :
    Simulates before after (Proc.ignore process) (Proc.ignore model) := by
  intro plan state other related
  obtain ⟨same, reached⟩ := inner plan state other related
  rw [run_ignore, run_ignore]
  cases ran : process.run plan state with
  | mk outcome final =>
      cases modelRan : model.run plan other with
      | mk modelOutcome modelFinal =>
          rw [ran, modelRan] at same reached
          cases same
          cases outcome <;> exact ⟨rfl, reached⟩

end Simulates

end NodeOs.Library.FaultPlan
