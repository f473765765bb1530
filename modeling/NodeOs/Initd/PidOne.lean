import NodeOs.Initd.Supervisor

/-!
# When supervision ends

PID 1 should stop supervising only over the exit of a service that is not to be
restarted. It also stops when it cannot ask for the status of a child, and when
the start that follows an exit is refused, although a refused start of a
deferred service is tried again.
-/

namespace NodeOs.Initd.Supervise

open NodeOs.Library.FaultPlan

/-- A service that is not to be restarted has exited. -/
def EndedForCause (services : List Service) (error : InitError) (world : World) : Prop :=
  ∃ index service moment status, services[index]? = some service ∧ service.restart = .never ∧
    error = .exited service.name ∧ Event.exited moment status ∈ world.history index

structure EndsOnlyForCause (services : List Service)
    (ran : Outcome InitError (List RunningService) × World) : Prop where
  ends : Ends (EndedForCause services) ran
  restarts : ran.1 ≠ .killed → ∀ (index : Nat) (service : Service),
    services[index]? = some service → service.restart = .always →
      Restarted (ran.2.history index)

/-- The call made at this moment does not fail. -/
def Answered (plan : Plan Nat) (moment : Nat) : Prop :=
  ∀ extent, plan moment ≠ .fails extent

/-- The status of the child is answered and, where the child has exited and is
to be restarted, the start that follows is not refused. -/
def WatchAnswered (timeline : Timeline) (plan : Plan Nat) (_ : Nat) (running : RunningService)
    (world : World) : Prop :=
  ∀ child, running.child = some child →
    Answered plan world.now ∧
      (plan world.now = .done → (timeline.exitedBy child world.now).isSome = true →
        running.spec.restart = .always → Answered plan (timeline.after world.now))

def TickAnswered (timeline : Timeline) (plan : Plan Nat) (running : List RunningService)
    (world : World) : Prop :=
  EachMeets (WatchAnswered timeline plan) (superviseService timeline) plan 0 running world

/-- At every visit that a run of `supervise` makes, the calls are answered. -/
def RunAnswered (timeline : Timeline) (plan : Plan Nat) (ticks visits : Nat)
    (running : List RunningService) (world : World) : Prop :=
  PassesMeet (TickAnswered timeline plan) (superviseTick timeline) plan ticks running world ∧
    ∀ later after, (supervise timeline ticks running).run plan world = (.ok later, after) →
      TickAnswered timeline plan (later.take visits) after

section Ending

variable {timeline : Timeline} {plan : Plan Nat} {services : List Service}

theorem not_for_cause {error : InitError} {world : World}
    (unrelated : ∀ name, error ≠ .exited name) : ¬EndedForCause services error world := by
  intro ⟨_, service, _, _, _, _, bail, _⟩
  exact unrelated service.name bail

theorem path_exists_ends (index : Nat) (record : Nat → Bool → Event) (path : String)
    (world : World) :
    Ends (EndedForCause services) ((pathExists timeline index record path).run plan world) := by
  exact ends_of_never (path_exists_meets record path (world.history index) world.now) world
    ⟨rfl, rfl⟩

/-- A deferred service never ends the supervision. -/
theorem start_deferred_ends (index : Nat) (running : RunningService) (world : World) :
    Ends (EndedForCause services) ((startDeferred timeline index running).run plan world) := by
  unfold startDeferred
  rw [ends_bind_iff]
  constructor
  · unfold markerReady
    cases running.spec.startWhen with
    | none => exact ends_pure _ _
    | some marker => exact path_exists_ends index _ marker world
  · intro ready later _
    split
    · rw [ends_bind_iff]
      constructor
      · exact ends_attempt _ _
      · intro spawned after _
        cases spawned <;> exact ends_pure _ _
    · exact ends_pure _ _

theorem supervise_service_ends_iff {index : Nat} {running : RunningService}
    (listed : services[index]? = some running.spec) (world : World) :
    Ends (EndedForCause services) ((superviseService timeline index running).run plan world) ↔
      WatchAnswered timeline plan index running world := by
  unfold superviseService WatchAnswered
  cases alive : running.child with
  | none =>
      constructor
      · intro _ child impossible
        cases impossible
      · intro _
        exact start_deferred_ends index running world
  | some child =>
      unfold watchChild tryWait Answered
      simp only [Proc.run_bind, Proc.run_observe, Proc.run_step]
      cases fate : plan world.now with
      | killed extent => simp [Ends]
      | fails extent =>
          have unrelated : ¬EndedForCause services .wait (world.pass timeline) :=
            not_for_cause (by simp)
          simp [Ends, unrelated]
      | done =>
          cases gone : timeline.exitedBy child world.now with
          | none => simp [Ends, gone]
          | some status =>
              simp only
              unfold afterExit
              cases policy : running.spec.restart with
              | never =>
                  have cause : EndedForCause services (.exited running.spec.name)
                      (world.note timeline index (.exited world.now status)) :=
                    ⟨index, running.spec, world.now, status, listed, policy, rfl, by simp⟩
                  simp [Ends, cause]
              | always =>
                  unfold spawnService
                  simp only [Proc.run_bind, Proc.run_observe, Proc.run_step, note_now]
                  cases restart : plan (timeline.after world.now) with
                  | done => simp [Ends]
                  | killed extent => simp [Ends]
                  | fails extent =>
                      have unrelated (after : World) :
                          ¬EndedForCause services (.start running.spec.name) after :=
                        not_for_cause (by simp)
                      simp [Ends, unrelated, gone]

theorem visit_services_ends_iff {running : List RunningService}
    (listed : ∀ (index : Nat) (entry : RunningService), running[index]? = some entry →
      services[index]? = some entry.spec)
    (world : World) :
    Ends (EndedForCause services)
        ((Proc.each (superviseService timeline) 0 running).run plan world) ↔
      TickAnswered timeline plan running world := by
  apply ends_each_iff
  intro offset entry found state
  rw [Nat.zero_add]
  exact supervise_service_ends_iff (listed offset entry found) state

theorem supervise_tick_ends_iff {running : List RunningService} {world : World}
    (tracked : AllTracked timeline services running world) :
    Ends (EndedForCause services) ((superviseTick timeline running).run plan world) ↔
      TickAnswered timeline plan running world := by
  have listed (index : Nat) (entry : RunningService) (found : running[index]? = some entry) :
      services[index]? = some entry.spec :=
    (tracked.entry found).listed
  rw [← visit_services_ends_iff listed]
  unfold superviseTick
  rw [ends_bind_iff]
  constructor
  · intro ⟨loop, _⟩
    exact loop
  · intro loop
    refine ⟨loop, fun visited middle _ => ?_⟩
    rw [ends_bind_iff]
    constructor
    · have slept : Meets plan (fun _ => True) (sleep timeline second) (fun _ _ => True)
          (fun _ _ => False) (fun _ => True) :=
        sleep_meets second fun _ _ holds => holds
      exact ends_of_never slept middle trivial
    · intro slept after _
      exact ends_pure _ _

theorem supervise_until_ends_iff {running : List RunningService} {world : World}
    (tracked : AllTracked timeline services running world) (ticks visits : Nat) :
    Ends (EndedForCause services)
        ((superviseUntil timeline ticks visits running).run plan world) ↔
      RunAnswered timeline plan ticks visits running world := by
  have kept (entries : List RunningService) (before : World) (next : List RunningService)
      (after : World) (tracked : AllTracked timeline services entries before)
      (returned : (superviseTick timeline entries).run plan before = (.ok next, after)) :
      AllTracked timeline services next after := by
    have met : Meets plan _ _ (AllTracked timeline services) _ _ := supervise_tick_meets entries
    have result := met before tracked
    rwa [returned] at result
  unfold superviseUntil RunAnswered
  rw [ends_bind_iff]
  apply and_congr
  · apply ends_iterate_iff _ kept ticks running world tracked
    intro entries before tracked
    exact supervise_tick_ends_iff tracked
  · apply forall_congr'
    intro later
    apply forall_congr'
    intro after
    apply forall_congr'
    intro returned
    have still : AllTracked timeline services later after := by
      have met : Meets plan _ _ (AllTracked timeline services) _ _ :=
        Meets.iterate supervise_tick_meets ticks running
      have result := met world tracked
      unfold supervise at returned
      rwa [returned] at result
    have listed (index : Nat) (entry : RunningService)
        (found : (later.take visits)[index]? = some entry) :
        services[index]? = some entry.spec := by
      rw [List.getElem?_take] at found
      split at found
      · exact (still.entry found).listed
      · cases found
    rw [← visit_services_ends_iff listed, ends_bind_iff]
    constructor
    · intro ⟨loop, _⟩
      exact loop
    · intro loop
      exact ⟨loop, fun visited middle _ => ends_pure _ _⟩

/-- `supervise` ends only for cause, and restarts after every exit, exactly when
every child's status is answered and no start after an exit is refused. -/
theorem supervise_ends_for_cause_iff (timeline : Timeline) (services : List Service)
    (plan : Plan Nat) (moment ticks visits : Nat) (running : List RunningService) (world : World)
    (started : (startServices timeline services).run plan (World.booted moment) =
      (.ok running, world)) :
    EndsOnlyForCause services ((superviseUntil timeline ticks visits running).run plan world) ↔
      RunAnswered timeline plan ticks visits running world := by
  have tracked : AllTracked timeline services running world := by
    have met : Meets plan _ _ (AllTracked timeline services) _ _ := start_services_meets moment
    have result := met (World.booted moment) rfl
    rwa [started] at result
  rw [← supervise_until_ends_iff tracked]
  constructor
  · intro good
    exact good.ends
  · intro ends
    refine ⟨ends, fun survived index service listed policy => ?_⟩
    have inside := (List.getElem?_eq_some_iff.mp listed).1
    have met : Meets plan _ _ (AllTracked timeline services) (AllBroken timeline services) _ :=
      supervise_until_meets ticks visits running
    have result := met world tracked
    cases ran : (superviseUntil timeline ticks visits running).run plan world with
    | mk outcome after =>
        rw [ran] at result ends survived
        cases outcome with
        | ok entries =>
            obtain ⟨life, held, restarted⟩ :=
              result.broken (.exited service.name) index inside service listed
            exact restarted service.name rfl policy
        | err error =>
            obtain ⟨_, _, _, _, _, _, bail, _⟩ := ends error rfl
            obtain ⟨life, held, restarted⟩ := result index inside service listed
            exact restarted _ bail policy
        | killed => exact absurd rfl survived

theorem passes_meet_of_always {Value : Type} {guard : Value → World → Prop}
    {body : Value → Init Value} (always : ∀ value world, guard value world) (count : Nat)
    (value : Value) (world : World) : PassesMeet guard body plan count value world := by
  induction count generalizing value world with
  | zero => trivial
  | succ count ih => exact ⟨always value world, fun next after _ => ih next after⟩

theorem tick_answered_of_all (answered : ∀ moment, Answered plan moment)
    (running : List RunningService) (world : World) :
    TickAnswered timeline plan running world := by
  unfold TickAnswered
  generalize 0 = index
  induction running generalizing index world with
  | nil => trivial
  | cons entry rest ih =>
      refine ⟨fun child alive => ⟨answered _, fun _ _ _ => answered _⟩, ?_⟩
      intro made after _
      exact ih after (index + 1)

/-- While no call fails, the services are only ever stopped by one of them that
is not to be restarted. -/
theorem run_answered_of_all (answered : ∀ moment, Answered plan moment) (ticks visits : Nat)
    (running : List RunningService) (world : World) :
    RunAnswered timeline plan ticks visits running world :=
  ⟨passes_meet_of_always (tick_answered_of_all answered) ticks running world,
    fun later after _ => tick_answered_of_all answered (later.take visits) after⟩

end Ending

section Fixtures

def nodedService : Service where
  name := "noded"
  command := "/usr/bin/noded"
  restart := .always

/-- The first process exits at once with status 1; nothing else ever exits. -/
def crashingTimeline : Timeline where
  present := fun _ _ => false
  lifetime := fun moment => if moment = 0 then some (0, 256) else none
  delay := fun _ => 0

def nodedStarted : World := ⟨1, [(0, .spawned (nodedService.childAt 0))]⟩

theorem supervise_ends_for_cause_iff_sample :
    (startServices crashingTimeline [nodedService]).run Plan.allDone (World.booted 0) =
        (.ok [⟨nodedService, some (nodedService.childAt 0)⟩], nodedStarted) ∧
      EndsOnlyForCause [nodedService]
        ((superviseUntil crashingTimeline 3 1
          [⟨nodedService, some (nodedService.childAt 0)⟩]).run Plan.allDone nodedStarted) := by
  refine ⟨rfl, ?_⟩
  apply (supervise_ends_for_cause_iff crashingTimeline [nodedService] Plan.allDone 0 3 1 _ _
    rfl).mpr
  apply run_answered_of_all
  intro moment extent same
  cases same

/-- The start that follows the exit is refused, as under memory pressure. -/
def refusedPlan : Plan Nat := fun moment => if moment = 2 then .fails 0 else .done

/-- The exit of a service to be restarted, and one refused start, end PID 1. -/
theorem refused_restart_ends_supervision :
    (startServices crashingTimeline [nodedService]).run refusedPlan (World.booted 0) =
        (.ok [⟨nodedService, some (nodedService.childAt 0)⟩], nodedStarted) ∧
      ((superviseUntil crashingTimeline 1 0
        [⟨nodedService, some (nodedService.childAt 0)⟩]).run refusedPlan nodedStarted).1 =
          .err (.start "noded") ∧
      ∀ service ∈ [nodedService], service.restart = .always := by
  refine ⟨rfl, rfl, ?_⟩
  decide

end Fixtures

end NodeOs.Initd.Supervise
