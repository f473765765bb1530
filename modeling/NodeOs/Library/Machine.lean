import Mathlib.Logic.Basic

/-!
# Runs of a machine with a step function

A machine is a function that says what an action makes of a state, where the
action is possible at all. A guard is a condition on the state before a step
and the action taken; a run is guarded when every one of its steps meets it.
-/

namespace NodeOs.Library.Machine

variable {State Action : Type*}

def run (step : State → Action → Option State) : State → List Action → Option State
  | state, [] => some state
  | state, action :: actions => (step state action).bind fun next => run step next actions

def Guarded (step : State → Action → Option State) (guard : State → Action → Prop) :
    State → List Action → Prop
  | _, [] => True
  | state, action :: actions =>
      guard state action ∧ ∀ next, step state action = some next → Guarded step guard next actions

section Runs

variable {step : State → Action → Option State} {guard : State → Action → Prop}

theorem run_cons {state next : State} {action : Action} (actions : List Action)
    (taken : step state action = some next) :
    run step state (action :: actions) = run step next actions := by
  simp [run, taken]

theorem guarded_cons {state next : State} {action : Action} {actions : List Action}
    (met : guard state action) (taken : step state action = some next)
    (rest : Guarded step guard next actions) : Guarded step guard state (action :: actions) := by
  refine ⟨met, fun other same => ?_⟩
  rw [taken] at same
  rwa [← Option.some.inj same]

theorem run_append (state : State) (first second : List Action) :
    run step state (first ++ second) =
      (run step state first).bind fun middle => run step middle second := by
  induction first generalizing state with
  | nil => rfl
  | cons action first ih =>
      simp only [List.cons_append, run]
      cases step state action with
      | none => rfl
      | some next => exact ih next

theorem guarded_append {state middle : State} {first second : List Action}
    (guarded : Guarded step guard state (first ++ second))
    (reached : run step state first = some middle) :
    Guarded step guard state first ∧ Guarded step guard middle second := by
  induction first generalizing state with
  | nil =>
      rw [← Option.some.inj reached]
      exact ⟨trivial, guarded⟩
  | cons action first ih =>
      cases taken : step state action with
      | none => simp [run, taken] at reached
      | some next =>
          rw [run_cons first taken] at reached
          obtain ⟨head, tail⟩ := ih (guarded.2 next taken) reached
          exact ⟨guarded_cons guarded.1 taken head, tail⟩

/-- A guard that looks at the action alone. -/
theorem guarded_of_actions {start : State} {actions : List Action}
    (met : ∀ state, ∀ action ∈ actions, guard state action) :
    Guarded step guard start actions := by
  induction actions generalizing start with
  | nil => trivial
  | cons action actions ih =>
      refine ⟨met start action (by simp), fun next _ => ih ?_⟩
      intro state later inside
      exact met state later (by simp [inside])

theorem guarded_and {other : State → Action → Prop} {start : State} {actions : List Action}
    (left : Guarded step guard start actions) (right : Guarded step other start actions) :
    Guarded step (fun state action => guard state action ∧ other state action) start actions := by
  induction actions generalizing start with
  | nil => trivial
  | cons action actions ih =>
      exact ⟨⟨left.1, right.1⟩, fun next taken => ih (left.2 next taken) (right.2 next taken)⟩

/-- What every guarded step preserves, a guarded run preserves. -/
theorem run_preserves {invariant : State → Prop}
    (preserves : ∀ state action next, invariant state → guard state action →
      step state action = some next → invariant next)
    {actions : List Action} {start final : State} (initial : invariant start)
    (guarded : Guarded step guard start actions) (reached : run step start actions = some final) :
    invariant final := by
  induction actions generalizing start with
  | nil => rwa [← Option.some.inj reached]
  | cons action actions ih =>
      cases taken : step start action with
      | none => simp [run, taken] at reached
      | some next =>
          rw [run_cons actions taken] at reached
          exact ih (preserves start action next initial guarded.1 taken) (guarded.2 next taken)
            reached

/-- The same for an invariant that looks at the actions taken before. -/
theorem run_preserves_past {invariant : List Action → State → Prop}
    (preserves : ∀ past state action next, invariant past state →
      step state action = some next → invariant (past ++ [action]) next)
    {past actions : List Action} {start final : State} (initial : invariant past start)
    (reached : run step start actions = some final) : invariant (past ++ actions) final := by
  induction actions generalizing past start with
  | nil =>
      rw [← Option.some.inj reached, List.append_nil]
      exact initial
  | cons action actions ih =>
      cases taken : step start action with
      | none => simp [run, taken] at reached
      | some next =>
          rw [run_cons actions taken] at reached
          rw [List.append_cons]
          exact ih (preserves past start action next initial taken) reached

/-- Two machines that agree wherever an invariant of guarded runs holds have the
same guarded runs. -/
theorem run_congr {other : State → Action → Option State} {invariant : State → Prop}
    (agree : ∀ state action, invariant state → guard state action →
      other state action = step state action)
    (preserves : ∀ state action next, invariant state → guard state action →
      step state action = some next → invariant next)
    {actions : List Action} {start : State} (initial : invariant start)
    (guarded : Guarded step guard start actions) :
    run other start actions = run step start actions := by
  induction actions generalizing start with
  | nil => rfl
  | cons action actions ih =>
      simp only [run]
      rw [agree start action initial guarded.1]
      cases taken : step start action with
      | none => rfl
      | some next =>
          exact ih (preserves start action next initial guarded.1 taken) (guarded.2 next taken)

end Runs

end NodeOs.Library.Machine
