import Mathlib.Algebra.Order.Ring.Nat
import NodeOs.Library.Loop

/-!
# The service supervisor of initd

PID 1 starts the configured services and then looks at each of them once a
second. What happens around it is given by a timeline: which marker files exist
at which moment, how long each process lives, and how much time a system call
takes. Which system calls fail, and where the machine stops, is a fault plan
over the moments at which the calls are made.

The world records the calls of PID 1 that concern a service, under the
position of the service in the configured list.
-/

namespace NodeOs.Initd.Supervise

open NodeOs.Library.FaultPlan

inductive RestartPolicy where
  | never
  | always
  deriving DecidableEq, Repr

structure Service where
  name : String
  command : String
  args : List String := []
  restart : RestartPolicy := .never
  readyWhen : Option String := none
  readyTimeoutSecs : Nat := 30
  startWhen : Option String := none
  deriving DecidableEq, Repr

/-- A child process; the moment of its start tells it from any other one. -/
structure Child where
  started : Nat
  command : String
  args : List String
  deriving DecidableEq, Repr

def Service.childAt (service : Service) (moment : Nat) : Child :=
  ⟨moment, service.command, service.args⟩

structure RunningService where
  spec : Service
  child : Option Child
  deriving DecidableEq, Repr

/-- The raw wait status. -/
abbrev ExitStatus := Nat

structure Timeline where
  present : Nat → String → Bool
  lifetime : Nat → Option (Nat × ExitStatus)
  delay : Nat → Nat

/-- Every system call takes some time, so no two are made at one moment. -/
def Timeline.after (timeline : Timeline) (moment : Nat) : Nat :=
  moment + 1 + timeline.delay moment

def Timeline.exitedBy (timeline : Timeline) (child : Child) (moment : Nat) : Option ExitStatus :=
  (timeline.lifetime child.started).bind fun (life, status) =>
    if child.started + life ≤ moment then some status else none

def Timeline.alive (timeline : Timeline) (moment : Nat) (child : Child) : Bool :=
  decide (child.started ≤ moment) && (timeline.exitedBy child moment).isNone

inductive Event where
  | checked (moment : Nat) (present : Bool)
  | polled (moment : Nat) (present : Bool)
  | spawned (child : Child)
  | refused (moment : Nat)
  | exited (moment : Nat) (status : ExitStatus)
  deriving DecidableEq, Repr

def Event.child? : Event → Option Child
  | .spawned child => some child
  | _ => none

def Event.isExit : Event → Bool
  | .exited _ _ => true
  | _ => false

structure World where
  now : Nat
  events : List (Nat × Event)
  deriving Repr

def World.booted (moment : Nat) : World := ⟨moment, []⟩

/-- What was recorded of one service. -/
def World.history (index : Nat) (world : World) : List Event :=
  (world.events.filter fun entry => entry.1 == index).map Prod.snd

def World.pass (timeline : Timeline) (world : World) : World :=
  { world with now := timeline.after world.now }

def World.note (timeline : Timeline) (index : Nat) (event : Event) (world : World) : World :=
  ⟨timeline.after world.now, world.events ++ [(index, event)]⟩

inductive InitError where
  | stat
  | start (service : String)
  | wait
  | exited (service : String)
  | instantOverflow
  deriving DecidableEq, Repr

/-- The text of the error, without the operating system's own part of it. -/
def InitError.message : InitError → String
  | .stat => "stat"
  | .start service => "start service " ++ service
  | .wait => "wait"
  | .exited service => "required service " ++ service ++ " exited"
  | .instantOverflow => "overflow when adding duration to instant"

abbrev Init := Proc Nat InitError World

section Calls

variable (timeline : Timeline) (index : Nat)

def metadata (record : Nat → Bool → Event) (path : String) : Init Unit := do
  let now ← Proc.observe World.now
  Proc.step now .stat (fun _ => World.note timeline index (record now false)) fun world =>
    if timeline.present now path then (.ok (), world.note timeline index (record now true))
    else (.err .stat, world.note timeline index (record now false))

/-- `Path::exists`: a failed call counts as an absent file. -/
def pathExists (record : Nat → Bool → Event) (path : String) : Init Bool := do
  let answer ← Proc.attempt (metadata timeline index record path)
  pure answer.isOk

def spawnService (service : Service) : Init Child := do
  let now ← Proc.observe World.now
  Proc.step now (.start service.name) (fun _ => World.note timeline index (.refused now))
    fun world => (.ok (service.childAt now),
      world.note timeline index (.spawned (service.childAt now)))

def tryWait (child : Child) : Init (Option ExitStatus) := do
  let now ← Proc.observe World.now
  Proc.step now .wait (fun _ => World.pass timeline) fun world =>
    match timeline.exitedBy child now with
    | some status => (.ok (some status), world.note timeline index (.exited now status))
    | none => (.ok none, world.pass timeline)

/-- `thread::sleep`, in nanoseconds; it can be cut short only by the end of the machine. -/
def sleep (duration : Nat) : Init Unit := do
  let now ← Proc.observe World.now
  let later := fun world : World =>
    { world.pass timeline with now := timeline.after now + duration }
  Proc.ignore (Proc.step now .wait (fun _ => later) fun world => (.ok (), later world))

end Calls

def second : Nat := 1000000000

def readyPollInterval : Nat := 200000000

section Source

variable (timeline : Timeline)

/-- The loop of `await_ready`. Every round sleeps for the poll interval, so a
number of rounds that covers the time to the deadline is as good as any more. -/
def pollReady (index : Nat) (marker : String) (deadline : Nat) : Nat → Init Unit
  | 0 => pure ()
  | polls + 1 => do
      let ready ← pathExists timeline index .polled marker
      if ready then pure ()
      else
        let now ← Proc.observe World.now
        if deadline ≤ now then pure ()
        else
          sleep timeline readyPollInterval
          pollReady index marker deadline polls

theorem path_exists_now (plan : Plan Nat) (index : Nat) (record : Nat → Bool → Event)
    (path : String) (world : World) :
    ((pathExists timeline index record path).run plan world).2.now = timeline.after world.now := by
  unfold pathExists metadata
  simp only [Proc.run_bind, Proc.run_attempt, Proc.run_observe, Proc.run_step]
  cases plan world.now with
  | done => by_cases present : timeline.present world.now path = true <;> simp [present, World.note]
  | fails extent => rfl
  | killed extent => rfl

theorem sleep_now (plan : Plan Nat) (duration : Nat) (world : World) :
    ((sleep timeline duration).run plan world).2.now = timeline.after world.now + duration := by
  unfold sleep
  simp only [Proc.run_bind, Proc.run_observe, Proc.run_ignore, Proc.run_step]
  cases plan world.now <;> rfl

/-- Once the rounds cover the time to the deadline, more of them change nothing. -/
theorem poll_ready_enough (plan : Plan Nat) (index : Nat) (marker : String) (deadline extra : Nat)
    (polls : Nat) (world : World) (covers : deadline ≤ world.now + polls * readyPollInterval) :
    (pollReady timeline index marker deadline (polls + 1 + extra)).run plan world =
      (pollReady timeline index marker deadline (polls + 1)).run plan world := by
  induction polls generalizing world with
  | zero =>
      rw [show 0 + 1 + extra = extra + 1 by omega]
      simp only [pollReady]
      rw [Proc.run_bind, Proc.run_bind]
      have later := path_exists_now timeline plan index .polled marker world
      cases ran : (pathExists timeline index .polled marker).run plan world with
      | mk outcome after =>
          rw [ran] at later
          simp only [Timeline.after] at later
          have passed : deadline ≤ after.now := by omega
          cases outcome with
          | ok ready => cases ready <;> simp [Proc.run_bind, passed]
          | err error => rfl
          | killed => rfl
  | succ polls ih =>
      rw [show polls + 1 + 1 + extra = polls + 1 + extra + 1 by omega]
      rw [pollReady, pollReady.eq_def _ _ _ _ (polls + 1 + 1)]
      simp only
      rw [Proc.run_bind, Proc.run_bind]
      have later := path_exists_now timeline plan index .polled marker world
      cases ran : (pathExists timeline index .polled marker).run plan world with
      | mk outcome after =>
          rw [ran] at later
          simp only [Timeline.after] at later
          cases outcome with
          | ok ready =>
              cases ready with
              | true => rfl
              | false =>
                  by_cases passed : deadline ≤ after.now
                  · simp [Proc.run_bind, passed]
                  · simp only [Bool.false_eq_true, ↓reduceIte, Proc.run_bind, Proc.run_observe,
                      passed]
                    have awake := sleep_now timeline plan readyPollInterval after
                    cases slept : (sleep timeline readyPollInterval).run plan after with
                    | mk rested middle =>
                        rw [slept] at awake
                        simp only [Timeline.after] at awake
                        cases rested with
                        | ok value =>
                            apply ih
                            rw [Nat.add_mul] at covers
                            omega
                        | err error => rfl
                        | killed => rfl
          | err error => rfl
          | killed => rfl

/-- Adding the timeout to the present instant panics past the range of its seconds. -/
def awaitReady (index : Nat) (marker : String) (timeoutSecs : Nat) : Init Unit := do
  let now ← Proc.observe World.now
  if 2 ^ 63 ≤ now / second + timeoutSecs then Proc.raise .instantOverflow
  else pollReady timeline index marker (now + timeoutSecs * second) (timeoutSecs * 5 + 1)

theorem await_ready_enough (plan : Plan Nat) (index : Nat) (marker : String)
    (timeoutSecs extra : Nat) (world : World) :
    (pollReady timeline index marker (world.now + timeoutSecs * second)
        (timeoutSecs * 5 + 1 + extra)).run plan world =
      (pollReady timeline index marker (world.now + timeoutSecs * second)
        (timeoutSecs * 5 + 1)).run plan world := by
  apply poll_ready_enough
  unfold second readyPollInterval
  omega

/-- `start_when`: the marker of a gated service is missing. -/
def deferred (index : Nat) (service : Service) : Init Bool :=
  match service.startWhen with
  | some marker => do
      let present ← pathExists timeline index .checked marker
      pure (!present)
  | none => pure false

def startNow (index : Nat) (service : Service) : Init RunningService := do
  let child ← spawnService timeline index service
  match service.readyWhen with
  | some marker => do
      awaitReady timeline index marker service.readyTimeoutSecs
      pure ⟨service, some child⟩
  | none => pure ⟨service, some child⟩

/-- One pass of the loop in `start_services`. -/
def startService (index : Nat) (service : Service) : Init RunningService := do
  let waits ← deferred timeline index service
  if waits then pure ⟨service, none⟩ else startNow timeline index service

def startServices (services : List Service) : Init (List RunningService) :=
  Proc.each (startService timeline) 0 services

/-- A deferred service is ready when its marker exists, or when it has none. -/
def markerReady (index : Nat) (service : Service) : Init Bool :=
  match service.startWhen with
  | some marker => pathExists timeline index .checked marker
  | none => pure true

def startDeferred (index : Nat) (running : RunningService) : Init RunningService := do
  let ready ← markerReady timeline index running.spec
  if ready then
    let spawned ← Proc.attempt (spawnService timeline index running.spec)
    match spawned with
    | .ok child => pure { running with child := some child }
    | .error _ => pure running
  else pure running

/-- What the supervisor does about an exit that it has seen. -/
def afterExit (index : Nat) (running : RunningService) : Init RunningService :=
  match running.spec.restart with
  | .always => do
      let child ← spawnService timeline index running.spec
      pure { running with child := some child }
  | .never => Proc.raise (.exited running.spec.name)

def watchChild (index : Nat) (running : RunningService) (child : Child) : Init RunningService := do
  let status ← tryWait timeline index child
  match status with
  | some _ => afterExit timeline index running
  | none => pure running

/-- One pass of the inner loop of `supervise`. -/
def superviseService (index : Nat) (running : RunningService) : Init RunningService :=
  match running.child with
  | none => startDeferred timeline index running
  | some child => watchChild timeline index running child

/-- One pass of the outer loop. -/
def superviseTick (running : List RunningService) : Init (List RunningService) := do
  let running ← Proc.each (superviseService timeline) 0 running
  sleep timeline second
  pure running

def supervise (ticks : Nat) (running : List RunningService) : Init (List RunningService) :=
  Proc.iterate (superviseTick timeline) ticks running

/-- `supervise` as far as some passes of the outer loop and, in the next one,
some passes of the inner loop. -/
def superviseUntil (ticks visits : Nat) (running : List RunningService) :
    Init (List RunningService) := do
  let running ← supervise timeline ticks running
  let visited ← Proc.each (superviseService timeline) 0 (running.take visits)
  pure (visited ++ running.drop visits)

/-- The end of `main`. -/
def runServices (services : List Service) (ticks visits : Nat) : Init (List RunningService) := do
  let running ← startServices timeline services
  superviseUntil timeline ticks visits running

end Source

end NodeOs.Initd.Supervise
