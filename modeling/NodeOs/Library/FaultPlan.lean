import Mathlib.Logic.Basic
import Mathlib.Logic.Function.Basic

/-!
# Processes under a fault plan

A process is a sequence of named steps, each of which changes a state. What the
environment does to the steps is an input: a fault plan gives every step a
fate. A step can complete, report an error, or be the point where the process
is killed; in the last two cases the plan also says how much of the step's
effect took place. Proofs quantify over plans, so no schedule is left out.
-/

namespace NodeOs.Library.FaultPlan

/-- `extent` is how much of the step took place before it failed or the process
was killed. Zero means that the step had not even begun. -/
inductive Fate where
  | done
  | fails (extent : Nat)
  | killed (extent : Nat)
  deriving DecidableEq, Repr

inductive Outcome (Error Value : Type) where
  | ok (value : Value)
  | err (error : Error)
  | killed
  deriving DecidableEq, Repr

/-- The step has got so far that it takes effect. -/
def Fate.begins : Fate → Bool
  | .done => true
  | .fails extent => extent != 0
  | .killed extent => extent != 0

abbrev Plan (Step : Type) := Step → Fate

def Plan.allDone {Step : Type} : Plan Step := fun _ => .done

/-- The part of a plan that concerns a process run inside a larger one. -/
def Plan.at {Step Inner : Type} (plan : Plan Step) (place : Inner → Step) : Plan Inner :=
  fun label => plan (place label)

/-- A process reads the plan, and threads the state through its steps. -/
structure Proc (Step Error State Value : Type) where
  run : Plan Step → State → Outcome Error Value × State

namespace Proc

variable {Step Inner Error Fault State Part Value Other : Type}

def ret (value : Value) : Proc Step Error State Value :=
  ⟨fun _ state => (.ok value, state)⟩

/-- An error ends the process, as Rust's `?` does; so does a kill. -/
def andThen (first : Proc Step Error State Value)
    (next : Value → Proc Step Error State Other) : Proc Step Error State Other :=
  ⟨fun plan state =>
    match first.run plan state with
    | (.ok value, after) => (next value).run plan after
    | (.err error, after) => (.err error, after)
    | (.killed, after) => (.killed, after)⟩

instance : Monad (Proc Step Error State) where
  pure := ret
  bind := andThen

def raise (error : Error) : Proc Step Error State Value :=
  ⟨fun _ state => (.err error, state)⟩

def observe (view : State → Value) : Proc Step Error State Value :=
  ⟨fun _ state => (.ok (view state), state)⟩

/-- A change of the state that is no step: it cannot fail. -/
def modify (change : State → State) : Proc Step Error State Unit :=
  ⟨fun _ state => (.ok (), change state)⟩

def ofExcept : Except Error Value → Proc Step Error State Value
  | .ok value => ret value
  | .error error => raise error

/-- One named step. `action` is what the step does when it runs to its end,
which may itself be an error; `cut` is what a broken-off step leaves behind. -/
def step (label : Step) (error : Error) (cut : Nat → State → State)
    (action : State → Outcome Error Value × State) : Proc Step Error State Value :=
  ⟨fun plan state =>
    match plan label with
    | .done => action state
    | .fails extent => (.err error, cut extent state)
    | .killed extent => (.killed, cut extent state)⟩

/-- A step that changes nothing: all that matters is whether it succeeds. -/
def check (label : Step) (error : Error) : Proc Step Error State Unit :=
  step label error (fun _ state => state) fun state => (.ok (), state)

/-- A step that takes effect as a whole or is refused. -/
def act (label : Step) (error : Error) (effect : State → Option State) :
    Proc Step Error State Unit :=
  step label error (fun extent state => if extent = 0 then state else (effect state).getD state)
    fun state =>
      match effect state with
      | some after => (.ok (), after)
      | none => (.err error, state)

/-- Turn an error into a value, so that the caller can look at it. -/
def attempt (process : Proc Step Error State Value) :
    Proc Step Error State (Except Error Value) :=
  ⟨fun plan state =>
    match process.run plan state with
    | (.ok value, after) => (.ok (.ok value), after)
    | (.err error, after) => (.ok (.error error), after)
    | (.killed, after) => (.killed, after)⟩

/-- `let _ = process`. -/
def ignore (process : Proc Step Error State Value) : Proc Step Error State Unit :=
  ⟨fun plan state =>
    match process.run plan state with
    | (.ok _, after) => (.ok (), after)
    | (.err _, after) => (.ok (), after)
    | (.killed, after) => (.killed, after)⟩

def mapError (change : Error → Fault) (process : Proc Step Error State Value) :
    Proc Step Fault State Value :=
  ⟨fun plan state =>
    match process.run plan state with
    | (.ok value, after) => (.ok value, after)
    | (.err error, after) => (.err (change error), after)
    | (.killed, after) => (.killed, after)⟩

/-- Run a process inside a larger one: `place` says which step of the larger
process each step is. -/
def relabel (place : Inner → Step) (process : Proc Inner Error State Value) :
    Proc Step Error State Value :=
  ⟨fun plan state => process.run (plan.at place) state⟩

/-- Run a process on one component of a larger state. -/
def focus (get : State → Part) (set : Part → State → State)
    (process : Proc Step Error Part Value) : Proc Step Error State Value :=
  ⟨fun plan state =>
    ((process.run plan (get state)).1, set (process.run plan (get state)).2 state)⟩

section Running

variable (plan : Plan Step) (state : State)

@[simp] theorem run_pure (value : Value) :
    (pure value : Proc Step Error State Value).run plan state = (.ok value, state) := rfl

@[simp] theorem run_raise (error : Error) :
    (raise error : Proc Step Error State Value).run plan state = (.err error, state) := rfl

@[simp] theorem run_observe (view : State → Value) :
    (observe view : Proc Step Error State Value).run plan state = (.ok (view state), state) := rfl

@[simp] theorem run_modify (change : State → State) :
    (modify change : Proc Step Error State Unit).run plan state = (.ok (), change state) := rfl

@[simp] theorem run_ofExcept_ok (value : Value) :
    (ofExcept (.ok value) : Proc Step Error State Value).run plan state =
      (.ok value, state) := rfl

@[simp] theorem run_ofExcept_error (error : Error) :
    (ofExcept (.error error) : Proc Step Error State Value).run plan state =
      (.err error, state) := rfl

@[simp] theorem run_ofExcept_ok_iff (result : Except Error Value) (value : Value) :
    ((ofExcept result : Proc Step Error State Value).run plan state).1 = .ok value ↔
      result = .ok value := by
  cases result <;> simp

@[simp] theorem run_ofExcept_state (result : Except Error Value) :
    ((ofExcept result : Proc Step Error State Value).run plan state).2 = state := by
  cases result <;> rfl

@[simp] theorem run_relabel (place : Inner → Step) (process : Proc Inner Error State Value) :
    (relabel place process).run plan state = process.run (plan.at place) state := rfl

theorem run_bind (first : Proc Step Error State Value)
    (next : Value → Proc Step Error State Other) :
    (first >>= next).run plan state =
      match first.run plan state with
      | (.ok value, after) => (next value).run plan after
      | (.err error, after) => (.err error, after)
      | (.killed, after) => (.killed, after) := rfl

theorem run_bind_assoc {Last : Type} (first : Proc Step Error State Value)
    (next : Value → Proc Step Error State Other) (last : Other → Proc Step Error State Last) :
    ((first >>= next) >>= last).run plan state =
      (first >>= fun value => next value >>= last).run plan state := by
  rw [run_bind, run_bind, run_bind]
  cases first.run plan state with
  | mk outcome after => cases outcome <;> rfl

/-- A sequence returns exactly when both of its parts do. -/
theorem run_bind_ok_iff (first : Proc Step Error State Value)
    (next : Value → Proc Step Error State Other) (value : Other) :
    ((first >>= next).run plan state).1 = .ok value ↔
      ∃ middle, (first.run plan state).1 = .ok middle ∧
        ((next middle).run plan (first.run plan state).2).1 = .ok value := by
  rw [run_bind]
  cases ran : first.run plan state with
  | mk outcome after => cases outcome <;> simp

/-- If the first part does not return, the sequence ends as it ended. -/
theorem run_bind_of_not_ok {first : Proc Step Error State Value}
    (next : Value → Proc Step Error State Other)
    (stopped : ∀ value, (first.run plan state).1 ≠ .ok value) :
    ((first >>= next).run plan state).2 = (first.run plan state).2 ∧
      ∀ value, ((first >>= next).run plan state).1 ≠ .ok value := by
  rw [run_bind]
  cases ran : first.run plan state with
  | mk outcome after =>
      rw [ran] at stopped
      cases outcome with
      | ok value => exact absurd rfl (stopped value)
      | err error => simp
      | killed => simp

theorem run_bind_of_ok {first : Proc Step Error State Value}
    {next : Value → Proc Step Error State Other} {value : Value}
    (returned : (first.run plan state).1 = .ok value) :
    (first >>= next).run plan state = (next value).run plan (first.run plan state).2 := by
  rw [run_bind]
  cases ran : first.run plan state with
  | mk outcome after =>
      rw [ran] at returned
      cases returned
      rfl

theorem run_bind_pure_state (first : Proc Step Error State Value) (answer : Value → Other) :
    ((first >>= fun value => pure (answer value)).run plan state).2 = (first.run plan state).2 := by
  rw [run_bind]
  cases first.run plan state with
  | mk outcome after => cases outcome <;> rfl

theorem run_step (label : Step) (error : Error) (cut : Nat → State → State)
    (action : State → Outcome Error Value × State) :
    (step label error cut action).run plan state =
      match plan label with
      | .done => action state
      | .fails extent => (.err error, cut extent state)
      | .killed extent => (.killed, cut extent state) := rfl

theorem run_check (label : Step) (error : Error) :
    (check label error : Proc Step Error State Unit).run plan state =
      match plan label with
      | .done => (.ok (), state)
      | .fails _ => (.err error, state)
      | .killed _ => (.killed, state) := rfl

@[simp] theorem run_check_ok_iff (label : Step) (error : Error) (value : Unit) :
    ((check label error : Proc Step Error State Unit).run plan state).1 = .ok value ↔
      plan label = .done := by
  rw [run_check]
  cases plan label <;> simp

@[simp] theorem run_check_state (label : Step) (error : Error) :
    ((check label error : Proc Step Error State Unit).run plan state).2 = state := by
  rw [run_check]
  cases plan label <;> rfl

theorem run_act (label : Step) (error : Error) (effect : State → Option State) :
    (act label error effect).run plan state =
      (match plan label with
        | .done => if (effect state).isSome then .ok () else .err error
        | .fails _ => .err error
        | .killed _ => .killed,
      if (plan label).begins then (effect state).getD state else state) := by
  rw [act, run_step]
  cases plan label with
  | done => cases effect state <;> rfl
  | fails extent => by_cases unbegun : extent = 0 <;> simp [Fate.begins, unbegun]
  | killed extent => by_cases unbegun : extent = 0 <;> simp [Fate.begins, unbegun]

theorem run_act_ok_iff (label : Step) (error : Error) (effect : State → Option State)
    (value : Unit) :
    ((act label error effect).run plan state).1 = .ok value ↔
      plan label = .done ∧ (effect state).isSome = true := by
  rw [run_act]
  cases plan label with
  | done => cases effect state <;> simp
  | fails extent => simp
  | killed extent => simp

theorem run_attempt (process : Proc Step Error State Value) :
    (attempt process).run plan state =
      match process.run plan state with
      | (.ok value, after) => (.ok (.ok value), after)
      | (.err error, after) => (.ok (.error error), after)
      | (.killed, after) => (.killed, after) := rfl

@[simp] theorem run_attempt_state (process : Proc Step Error State Value) :
    ((attempt process).run plan state).2 = (process.run plan state).2 := by
  rw [run_attempt]
  cases ran : process.run plan state with
  | mk outcome after => cases outcome <;> rfl

theorem run_ignore (process : Proc Step Error State Value) :
    (ignore process).run plan state =
      match process.run plan state with
      | (.ok _, after) => (.ok (), after)
      | (.err _, after) => (.ok (), after)
      | (.killed, after) => (.killed, after) := rfl

@[simp] theorem run_ignore_state (process : Proc Step Error State Value) :
    ((ignore process).run plan state).2 = (process.run plan state).2 := by
  rw [run_ignore]
  cases process.run plan state with
  | mk outcome after => cases outcome <;> rfl

@[simp] theorem run_focus (get : State → Part) (set : Part → State → State)
    (process : Proc Step Error Part Value) :
    (focus get set process).run plan state =
      ((process.run plan (get state)).1, set (process.run plan (get state)).2 state) := rfl

theorem run_mapError (change : Error → Fault) (process : Proc Step Error State Value) :
    (mapError change process).run plan state =
      match process.run plan state with
      | (.ok value, after) => (.ok value, after)
      | (.err error, after) => (.err (change error), after)
      | (.killed, after) => (.killed, after) := rfl

@[simp] theorem run_mapError_ok_iff (change : Error → Fault)
    (process : Proc Step Error State Value) (value : Value) :
    ((mapError change process).run plan state).1 = .ok value ↔
      (process.run plan state).1 = .ok value := by
  rw [run_mapError]
  cases ran : process.run plan state with
  | mk outcome after => cases outcome <;> simp

@[simp] theorem run_mapError_state (change : Error → Fault)
    (process : Proc Step Error State Value) :
    ((mapError change process).run plan state).2 = (process.run plan state).2 := by
  rw [run_mapError]
  cases ran : process.run plan state with
  | mk outcome after => cases outcome <;> rfl

/-- A process that cleans up and then hands on what it was handed. -/
theorem run_attempt_cleanup (process : Proc Step Error State Value)
    {cleanup : Proc Step Error State Unit}
    (alive : (process.run plan state).1 ≠ .killed)
    (cleaned : (cleanup.run plan (process.run plan state).2).1 = .ok ()) :
    (attempt process >>= fun result => cleanup >>= fun _ => ofExcept result).run plan state =
      ((process.run plan state).1, (cleanup.run plan (process.run plan state).2).2) := by
  rw [run_bind, run_attempt]
  cases ran : process.run plan state with
  | mk outcome after =>
      rw [ran] at alive cleaned
      cases outcome with
      | ok value =>
          simp only [run_bind_of_ok _ _ cleaned]
          rfl
      | err error =>
          simp only [run_bind_of_ok _ _ cleaned]
          rfl
      | killed => exact absurd rfl alive

theorem run_attempt_cleanup_ok_iff (process : Proc Step Error State Value)
    (cleanup : Proc Step Error State Unit) (value : Value) :
    ((attempt process >>= fun result => cleanup >>= fun _ => ofExcept result).run plan state).1 =
        .ok value ↔
      (process.run plan state).1 = .ok value ∧
        (cleanup.run plan (process.run plan state).2).1 = .ok () := by
  rw [run_bind, run_attempt]
  cases ran : process.run plan state with
  | mk outcome after =>
      cases cleaned : cleanup.run plan after with
      | mk result final => cases outcome <;> cases result <;> simp [run_bind, cleaned]

theorem run_attempt_cleanup_killed (process : Proc Step Error State Value)
    {cleanup : Proc Step Error State Unit}
    (killed : (process.run plan state).1 = .killed ∨
      (cleanup.run plan (process.run plan state).2).1 = .killed) :
    ((attempt process >>= fun result => cleanup >>= fun _ => ofExcept result).run plan state).1 =
      .killed := by
  rw [run_bind, run_attempt]
  cases ran : process.run plan state with
  | mk outcome after =>
      rw [ran] at killed
      cases outcome with
      | killed => rfl
      | ok value =>
          have stopped := killed.resolve_left nofun
          simp only [run_bind]
          cases cleaned : cleanup.run plan after with
          | mk result final =>
              rw [cleaned] at stopped
              cases stopped
              rfl
      | err error =>
          have stopped := killed.resolve_left nofun
          simp only [run_bind]
          cases cleaned : cleanup.run plan after with
          | mk result final =>
              rw [cleaned] at stopped
              cases stopped
              rfl

end Running

end Proc

/-- A process that changes nothing in one view of the state, whatever the plan
does to it. -/
def Keeps {Step Error State Part Value : Type} (view : State → Part)
    (process : Proc Step Error State Value) : Prop :=
  ∀ plan state, view (process.run plan state).2 = view state

namespace Keeps

open Proc

variable {Step Error Fault State Part Value Other : Type} {view : State → Part}

theorem ret (value : Value) : Keeps view (pure value : Proc Step Error State Value) :=
  fun _ _ => rfl

theorem raise (error : Error) : Keeps view (Proc.raise error : Proc Step Error State Value) :=
  fun _ _ => rfl

theorem ofExcept (result : Except Error Value) :
    Keeps view (Proc.ofExcept result : Proc Step Error State Value) := by
  cases result <;> exact fun _ _ => rfl

theorem bind {first : Proc Step Error State Value} {next : Value → Proc Step Error State Other}
    (head : Keeps view first) (tail : ∀ value, Keeps view (next value)) :
    Keeps view (first >>= next) := by
  intro plan state
  have opening := head plan state
  rw [run_bind]
  cases ran : first.run plan state with
  | mk outcome after =>
      rw [ran] at opening
      cases outcome with
      | ok value => exact (tail value plan after).trans opening
      | err error => exact opening
      | killed => exact opening

/-- What the second part of a sequence keeps is as the first part left it. -/
theorem after {next : Value → Proc Step Error State Other}
    (tail : ∀ value, Keeps view (next value)) (first : Proc Step Error State Value)
    (plan : Plan Step) (state : State) :
    view ((first >>= next).run plan state).2 = view (first.run plan state).2 := by
  rw [run_bind]
  cases first.run plan state with
  | mk outcome middle =>
      cases outcome with
      | ok value => exact tail value plan middle
      | err error => rfl
      | killed => rfl

theorem step {label : Step} {error : Error} {cut : Nat → State → State}
    {action : State → Outcome Error Value × State}
    (full : ∀ state, view (action state).2 = view state)
    (broken : ∀ extent state, view (cut extent state) = view state) :
    Keeps view (Proc.step label error cut action) := by
  intro plan state
  rw [run_step]
  cases plan label with
  | done => exact full state
  | fails extent => exact broken extent state
  | killed extent => exact broken extent state

theorem check (label : Step) (error : Error) :
    Keeps view (Proc.check label error : Proc Step Error State Unit) :=
  step (fun _ => rfl) (fun _ _ => rfl)

theorem act {effect : State → Option State} (label : Step) (error : Error)
    (kept : ∀ state next, effect state = some next → view next = view state) :
    Keeps view (Proc.act label error effect) := by
  intro plan state
  rw [run_act]
  cases taken : effect state with
  | none => simp
  | some next =>
      by_cases begins : (plan label).begins = true
      · rw [if_pos begins]
        exact kept state next taken
      · rw [if_neg begins]

theorem mapError {change : Error → Fault} {process : Proc Step Error State Value}
    (inner : Keeps view process) : Keeps view (Proc.mapError change process) := by
  intro plan state
  rw [run_mapError_state]
  exact inner plan state

theorem attempt {process : Proc Step Error State Value} (inner : Keeps view process) :
    Keeps view (Proc.attempt process) := by
  intro plan state
  rw [run_attempt_state]
  exact inner plan state

theorem ignore {process : Proc Step Error State Value} (inner : Keeps view process) :
    Keeps view (Proc.ignore process) := by
  intro plan state
  rw [run_ignore_state]
  exact inner plan state

theorem observe (answer : State → Value) :
    Keeps view (Proc.observe answer : Proc Step Error State Value) :=
  fun _ _ => rfl

end Keeps

/-- A process that keeps an invariant, whatever the plan does to it. -/
def Preserves {Step Error State Value : Type} (invariant : State → Prop)
    (process : Proc Step Error State Value) : Prop :=
  ∀ plan state, invariant state → invariant (process.run plan state).2

namespace Preserves

open Proc

variable {Step Inner Error Fault State Part Value Other : Type} {invariant : State → Prop}

/-- What a process keeps it preserves. -/
theorem of_keeps {view : State → Part} {process : Proc Step Error State Value}
    (kept : Keeps view process)
    (seen : ∀ before after, view after = view before → invariant before → invariant after) :
    Preserves invariant process :=
  fun plan state holds => seen state _ (kept plan state) holds

theorem ret (value : Value) :
    Preserves invariant (pure value : Proc Step Error State Value) :=
  fun _ _ holds => holds

theorem raise (error : Error) :
    Preserves invariant (Proc.raise error : Proc Step Error State Value) :=
  fun _ _ holds => holds

theorem ofExcept (result : Except Error Value) :
    Preserves invariant (Proc.ofExcept result : Proc Step Error State Value) := by
  cases result <;> exact fun _ _ holds => holds

/-- The second process need only be looked at for values the first can
return. -/
theorem bind_ok {first : Proc Step Error State Value} {next : Value → Proc Step Error State Other}
    (head : Preserves invariant first)
    (tail : ∀ plan state value, (first.run plan state).1 = .ok value →
      Preserves invariant (next value)) :
    Preserves invariant (first >>= next) := by
  intro plan state holds
  have opening := head plan state holds
  have returned := tail plan state
  rw [run_bind]
  cases ran : first.run plan state with
  | mk outcome after =>
      rw [ran] at opening returned
      cases outcome with
      | ok value => exact returned value rfl plan after opening
      | err error => exact opening
      | killed => exact opening

theorem bind {first : Proc Step Error State Value} {next : Value → Proc Step Error State Other}
    (head : Preserves invariant first) (tail : ∀ value, Preserves invariant (next value)) :
    Preserves invariant (first >>= next) :=
  bind_ok head fun _ _ value _ => tail value

theorem observing {view : State → Value} {next : Value → Proc Step Error State Other}
    (tail : ∀ value, Preserves invariant (next value)) :
    Preserves invariant (Proc.observe view >>= next) :=
  bind (fun _ _ holds => holds) tail

/-- What holds when the first part of a sequence has ended holds at its end. -/
theorem after {first : Proc Step Error State Value} {next : Value → Proc Step Error State Other}
    {plan : Plan Step} {state : State} (reached : invariant (first.run plan state).2)
    (tail : ∀ value, Preserves invariant (next value)) :
    invariant ((first >>= next).run plan state).2 := by
  rw [run_bind]
  cases ran : first.run plan state with
  | mk outcome middle =>
      rw [ran] at reached
      cases outcome with
      | ok value => exact tail value plan middle reached
      | err error => exact reached
      | killed => exact reached

theorem step {label : Step} {error : Error} {cut : Nat → State → State}
    {action : State → Outcome Error Value × State}
    (full : ∀ state, invariant state → invariant (action state).2)
    (broken : ∀ extent state, invariant state → invariant (cut extent state)) :
    Preserves invariant (Proc.step label error cut action) := by
  intro plan state holds
  rw [run_step]
  cases plan label with
  | done => exact full state holds
  | fails extent => exact broken extent state holds
  | killed extent => exact broken extent state holds

theorem check (label : Step) (error : Error) :
    Preserves invariant (Proc.check label error : Proc Step Error State Unit) :=
  step (fun _ holds => holds) (fun _ _ holds => holds)

theorem act {effect : State → Option State} (label : Step) (error : Error)
    (taken : ∀ state next, effect state = some next → invariant state → invariant next) :
    Preserves invariant (Proc.act label error effect) := by
  intro plan state holds
  rw [run_act]
  by_cases begins : (plan label).begins = true
  · rw [if_pos begins]
    cases took : effect state with
    | none => exact holds
    | some next => exact taken state next took holds
  · rw [if_neg begins]
    exact holds

theorem mapError {change : Error → Fault} {process : Proc Step Error State Value}
    (inner : Preserves invariant process) : Preserves invariant (Proc.mapError change process) := by
  intro plan state holds
  rw [run_mapError_state]
  exact inner plan state holds

theorem attempt {process : Proc Step Error State Value} (inner : Preserves invariant process) :
    Preserves invariant (Proc.attempt process) := by
  intro plan state holds
  rw [run_attempt_state]
  exact inner plan state holds

theorem ignore {process : Proc Step Error State Value} (inner : Preserves invariant process) :
    Preserves invariant (Proc.ignore process) := by
  intro plan state holds
  rw [run_ignore_state]
  exact inner plan state holds

theorem relabel {place : Inner → Step} {process : Proc Inner Error State Value}
    (inner : Preserves invariant process) : Preserves invariant (Proc.relabel place process) :=
  fun plan state holds => inner (plan.at place) state holds

theorem focus {get : State → Part} {set : Part → State → State}
    {process : Proc Step Error Part Value} {inside : Part → Prop}
    (read : ∀ state, invariant state → inside (get state))
    (written : ∀ part state, invariant state → inside part → invariant (set part state))
    (inner : Preserves inside process) : Preserves invariant (Proc.focus get set process) := by
  intro plan state holds
  rw [run_focus]
  exact written _ state holds (inner plan (get state) (read state holds))

end Preserves

/-- A contract of a process under one plan. The three conditions speak about
the state in which the process returns, reports an error, or is killed. -/
def Meets {Step Error State Value : Type} (plan : Plan Step) (pre : State → Prop)
    (process : Proc Step Error State Value) (returned : Value → State → Prop)
    (failed : Error → State → Prop) (crashed : State → Prop) : Prop :=
  ∀ state, pre state →
    match process.run plan state with
    | (.ok value, after) => returned value after
    | (.err error, after) => failed error after
    | (.killed, after) => crashed after

namespace Meets

open Proc

variable {Step Inner Error Fault State Part Value Other : Type} {plan : Plan Step}
  {pre : State → Prop} {failed : Error → State → Prop} {crashed : State → Prop}

theorem ret {value : Value} {returned : Value → State → Prop}
    (holds : ∀ state, pre state → returned value state) :
    Meets plan pre (pure value : Proc Step Error State Value) returned failed crashed :=
  holds

theorem raise {error : Error} {returned : Value → State → Prop}
    (holds : ∀ state, pre state → failed error state) :
    Meets plan pre (Proc.raise error : Proc Step Error State Value) returned failed crashed :=
  holds

theorem observing {view : State → Value} {next : Value → Proc Step Error State Other}
    {returned : Other → State → Prop}
    (tail : ∀ value, Meets plan pre (next value) returned failed crashed) :
    Meets plan pre (Proc.observe view >>= next) returned failed crashed :=
  fun state holds => tail (view state) state holds

/-- A premise that does not speak about the state. -/
theorem given {process : Proc Step Error State Value} {fact : Prop}
    {returned : Value → State → Prop}
    (inner : fact → Meets plan pre process returned failed crashed) :
    Meets plan (fun state => pre state ∧ fact) process returned failed crashed :=
  fun state holds => inner holds.2 state holds.1

/-- The sequencing rule: the first process's result is the next one's premise,
and an error or a kill in either ends both. -/
theorem bind {first : Proc Step Error State Value}
    {next : Value → Proc Step Error State Other}
    {middle : Value → State → Prop} {returned : Other → State → Prop}
    (head : Meets plan pre first middle failed crashed)
    (tail : ∀ value, Meets plan (middle value) (next value) returned failed crashed) :
    Meets plan pre (first >>= next) returned failed crashed := by
  intro state holds
  have opening := head state holds
  rw [run_bind]
  cases ran : first.run plan state with
  | mk outcome after =>
      rw [ran] at opening
      cases outcome with
      | ok value => exact tail value after opening
      | err error => exact opening
      | killed => exact opening

theorem step {label : Step} {error : Error} {cut : Nat → State → State}
    {action : State → Outcome Error Value × State} {returned : Value → State → Prop}
    (full : ∀ state, pre state →
      match action state with
      | (.ok value, after) => returned value after
      | (.err fault, after) => failed fault after
      | (.killed, after) => crashed after)
    (broken : ∀ state extent, pre state → failed error (cut extent state))
    (stopped : ∀ state extent, pre state → crashed (cut extent state)) :
    Meets plan pre (Proc.step label error cut action) returned failed crashed := by
  intro state holds
  rw [run_step]
  cases plan label with
  | done => exact full state holds
  | fails extent => exact broken state extent holds
  | killed extent => exact stopped state extent holds

theorem check {label : Step} {error : Error} {returned : Unit → State → Prop}
    (full : ∀ state, pre state → returned () state)
    (broken : ∀ state, pre state → failed error state)
    (stopped : ∀ state, pre state → crashed state) :
    Meets plan pre (Proc.check label error : Proc Step Error State Unit) returned failed crashed :=
  step full (fun state _ => broken state) fun state _ => stopped state

theorem attempt {process : Proc Step Error State Value}
    {returned : Except Error Value → State → Prop}
    (inner : Meets plan pre process (fun value => returned (.ok value))
      (fun error => returned (.error error)) crashed) :
    Meets plan pre (Proc.attempt process) returned failed crashed := by
  intro state holds
  have result := inner state holds
  rw [run_attempt]
  cases ran : process.run plan state with
  | mk outcome after =>
      rw [ran] at result
      cases outcome <;> exact result

theorem ignore {process : Proc Step Error State Value} {after : State → Prop}
    (inner : Meets plan pre process (fun _ => after) (fun _ => after) crashed) :
    Meets plan pre (Proc.ignore process) (fun _ => after) failed crashed := by
  intro state holds
  have result := inner state holds
  rw [run_ignore]
  cases ran : process.run plan state with
  | mk outcome final =>
      rw [ran] at result
      cases outcome <;> exact result

theorem mapError {change : Fault → Error} {process : Proc Step Fault State Value}
    {returned : Value → State → Prop}
    (inner : Meets plan pre process returned (fun fault => failed (change fault)) crashed) :
    Meets plan pre (Proc.mapError change process) returned failed crashed := by
  intro state holds
  have result := inner state holds
  rw [run_mapError]
  cases ran : process.run plan state with
  | mk outcome after =>
      rw [ran] at result
      cases outcome <;> exact result

theorem relabel {place : Inner → Step} {process : Proc Inner Error State Value}
    {returned : Value → State → Prop}
    (inner : Meets (plan.at place) pre process returned failed crashed) :
    Meets plan pre (Proc.relabel place process) returned failed crashed :=
  inner

theorem focus {get : State → Part} {set : Part → State → State}
    {process : Proc Step Error Part Value} {returned : Value → State → Prop}
    (inner : ∀ state, pre state →
      Meets plan (fun part => part = get state) process
        (fun value part => returned value (set part state))
        (fun error part => failed error (set part state))
        (fun part => crashed (set part state))) :
    Meets plan pre (Proc.focus get set process) returned failed crashed := by
  intro state holds
  have result := inner state holds (get state) rfl
  rw [run_focus]
  cases ran : process.run plan (get state) with
  | mk outcome part =>
      rw [ran] at result
      cases outcome <;> exact result

/-- A process that changes nothing: what it answers is all there is to say. -/
theorem of_keeps {process : Proc Step Error State Value} {returned : Value → State → Prop}
    (kept : Keeps id process)
    (full : ∀ state value, pre state → (process.run plan state).1 = .ok value →
      returned value state)
    (broken : ∀ error state, pre state → failed error state)
    (stopped : ∀ state, pre state → crashed state) :
    Meets plan pre process returned failed crashed := by
  intro state holds
  have same := kept plan state
  cases ran : process.run plan state with
  | mk outcome after =>
      rw [ran] at same
      obtain rfl : after = state := same
      cases outcome with
      | ok value => exact full after value holds (congrArg Prod.fst ran)
      | err error => exact broken error after holds
      | killed => exact stopped after holds

theorem of_preserves {process : Proc Step Error State Value} {returned : Value → State → Prop}
    (kept : Preserves pre process)
    (full : ∀ state value, pre state → (process.run plan state).1 = .ok value →
      returned value (process.run plan state).2) :
    Meets plan pre process returned (fun _ => pre) pre := by
  intro state holds
  have after := kept plan state holds
  have answered := fun value => full state value holds
  cases ran : process.run plan state with
  | mk outcome final =>
      rw [ran] at after answered
      cases outcome with
      | ok value => exact answered value rfl
      | err error => exact after
      | killed => exact after

theorem weaken {process : Proc Step Error State Value} {stronger : State → Prop}
    {returned returned' : Value → State → Prop} {failed' : Error → State → Prop}
    {crashed' : State → Prop}
    (inner : Meets plan pre process returned failed crashed)
    (before : ∀ state, stronger state → pre state)
    (good : ∀ value state, returned value state → returned' value state)
    (bad : ∀ error state, failed error state → failed' error state)
    (dead : ∀ state, crashed state → crashed' state) :
    Meets plan stronger process returned' failed' crashed' := by
  intro state holds
  have result := inner state (before state holds)
  cases ran : process.run plan state with
  | mk outcome after =>
      rw [ran] at result
      cases outcome with
      | ok value => exact good value after result
      | err error => exact bad error after result
      | killed => exact dead after result

end Meets

end NodeOs.Library.FaultPlan
