import NodeOs.Initd.Supervisor

/-!
# The order that `readyWhen` gives

A service that `start_services` starts is waited for there, before any later
service is started by it or by `supervise`. A service that it defers is not
waited for by either of them.
-/

namespace NodeOs.Initd.ReadyOrder

open NodeOs.Library.FaultPlan
open NodeOs.Initd.Supervise

/-- `start_services` has not found the start marker. -/
def Deferred (history : List Event) : Prop :=
  ∃ moment, history.head? = some (.checked moment false)

/-- The service was spawned, and then its marker was seen or its timeout passed. -/
def ReadyBy (timeline : Timeline) (service : Service) (marker : String) (history : List Event)
    (moment : Nat) : Prop :=
  ∃ child, (children history).head? = some child ∧ child.started < moment ∧
    ((∃ seen, .polled seen true ∈ history ∧ child.started < seen ∧ seen < moment ∧
        timeline.present seen marker = true) ∨
      child.started + service.readyTimeoutSecs * second ≤ moment)

/-- The service after this one was first spawned when this one was ready. -/
def ReadyFirst (timeline : Timeline) (services : List Service) (index : Nat) (world : World) :
    Prop :=
  ∀ service marker next, services[index]? = some service → service.readyWhen = some marker →
    (children (world.history (index + 1))).head? = some next →
    ReadyBy timeline service marker (world.history index) next.started

/-- Time has passed, and one service has new records. -/
structure Grows (index : Nat) (start world : World) : Prop where
  later : start.now ≤ world.now
  others : ∀ other, other ≠ index → world.history other = start.history other
  own : ∃ added, world.history index = start.history index ++ added ∧
    ∀ child ∈ children added, start.now ≤ child.started

section Calls

variable {timeline : Timeline} {index : Nat} {start : World}

theorem Grows.refl (index : Nat) (world : World) : Grows index world world :=
  ⟨Nat.le_refl _, fun _ _ => rfl, [], by simp, by simp⟩

theorem Grows.note {world : World} (grows : Grows index start world) (event : Event)
    (fresh : ∀ child, event.child? = some child → start.now ≤ child.started) :
    Grows index start (world.note timeline index event) := by
  obtain ⟨added, same, starts⟩ := grows.own
  constructor
  · exact Nat.le_trans grows.later (moment_le_after world.now)
  · intro other different
    rw [note_history_other different]
    exact grows.others other different
  · refine ⟨added ++ [event], by rw [note_history, same, List.append_assoc], ?_⟩
    intro child inside
    rw [children_append, List.mem_append] at inside
    rcases inside with early | last
    · exact starts child early
    · apply fresh
      simpa using last

theorem Grows.wait {world : World} (grows : Grows index start world) {moment : Nat}
    (later : world.now ≤ moment) : Grows index start { world with now := moment } :=
  ⟨Nat.le_trans grows.later later, grows.others, grows.own⟩

theorem path_exists_grows (record : Nat → Bool → Event) (path : String)
    (silent : ∀ moment present, (record moment present).child? = none) :
    Preserves (Grows index start) (pathExists timeline index record path) := by
  intro plan world grows
  have noted (present : Bool) :
      Grows index start (world.note timeline index (record world.now present)) := by
    apply grows.note
    rw [silent]
    intro child impossible
    cases impossible
  unfold pathExists metadata
  simp only [Proc.run_bind, Proc.run_attempt, Proc.run_observe, Proc.run_step]
  cases plan world.now with
  | done =>
      by_cases present : timeline.present world.now path = true
      · rw [if_pos present]
        exact noted true
      · rw [if_neg present]
        exact noted false
  | fails extent => exact noted false
  | killed extent => exact noted false

theorem spawn_service_grows (service : Service) :
    Preserves (Grows index start) (spawnService timeline index service) := by
  intro plan world grows
  have refused : Grows index start (world.note timeline index (.refused world.now)) := by
    apply grows.note
    intro child impossible
    cases impossible
  unfold spawnService
  simp only [Proc.run_bind, Proc.run_observe, Proc.run_step]
  cases plan world.now with
  | done =>
      apply grows.note
      intro child same
      cases same
      exact grows.later
  | fails extent => exact refused
  | killed extent => exact refused

theorem try_wait_grows (child : Child) :
    Preserves (Grows index start) (tryWait timeline index child) := by
  intro plan world grows
  have passed : Grows index start (world.pass timeline) := grows.wait (moment_le_after world.now)
  unfold tryWait
  simp only [Proc.run_bind, Proc.run_observe, Proc.run_step]
  cases plan world.now with
  | done =>
      cases timeline.exitedBy child world.now with
      | some status =>
          apply grows.note
          intro child impossible
          cases impossible
      | none => exact passed
  | fails extent => exact passed
  | killed extent => exact passed

theorem sleep_grows (duration : Nat) :
    Preserves (Grows index start) (sleep timeline duration) := by
  intro plan world grows
  have later : world.now ≤ timeline.after world.now + duration :=
    Nat.le_trans (moment_le_after world.now) (Nat.le_add_right _ _)
  unfold sleep
  simp only [Proc.run_bind, Proc.run_observe, Proc.run_ignore, Proc.run_step]
  cases plan world.now <;> exact grows.wait later

theorem poll_ready_grows (marker : String) (deadline polls : Nat) :
    Preserves (Grows index start) (pollReady timeline index marker deadline polls) := by
  induction polls with
  | zero => exact Preserves.ret ()
  | succ polls ih =>
      unfold pollReady
      apply Preserves.bind (path_exists_grows _ _ fun _ _ => rfl)
      intro ready
      split
      · exact Preserves.ret ()
      · apply Preserves.observing
        intro now
        split
        · exact Preserves.ret ()
        · apply Preserves.bind (sleep_grows _)
          intro slept
          exact ih

theorem await_ready_grows (marker : String) (timeoutSecs : Nat) :
    Preserves (Grows index start) (awaitReady timeline index marker timeoutSecs) := by
  unfold awaitReady
  apply Preserves.observing
  intro now
  split
  · exact Preserves.raise _
  · exact poll_ready_grows marker _ _

theorem start_now_grows (service : Service) :
    Preserves (Grows index start) (startNow timeline index service) := by
  unfold startNow
  apply Preserves.bind (spawn_service_grows service)
  intro child
  cases service.readyWhen with
  | none => exact Preserves.ret _
  | some marker =>
      apply Preserves.bind (await_ready_grows marker _)
      intro ready
      exact Preserves.ret _

theorem start_service_grows (service : Service) :
    Preserves (Grows index start) (startService timeline index service) := by
  unfold startService
  apply Preserves.bind
  · unfold deferred
    cases service.startWhen with
    | none => exact Preserves.ret _
    | some marker =>
        apply Preserves.bind (path_exists_grows _ _ fun _ _ => rfl)
        intro present
        exact Preserves.ret _
  · intro waits
    split
    · exact Preserves.ret _
    · exact start_now_grows service

theorem supervise_service_grows (running : RunningService) :
    Preserves (Grows index start) (superviseService timeline index running) := by
  unfold superviseService
  cases running.child with
  | none =>
      unfold startDeferred
      apply Preserves.bind
      · unfold markerReady
        cases running.spec.startWhen with
        | none => exact Preserves.ret _
        | some marker => exact path_exists_grows _ _ fun _ _ => rfl
      · intro ready
        split
        · apply Preserves.bind (Preserves.attempt (spawn_service_grows _))
          intro spawned
          cases spawned <;> exact Preserves.ret _
        · exact Preserves.ret _
  | some child =>
      unfold watchChild
      apply Preserves.bind (try_wait_grows child)
      intro status
      cases status with
      | none => exact Preserves.ret _
      | some status =>
          unfold afterExit
          cases running.spec.restart with
          | never => exact Preserves.raise _
          | always =>
              apply Preserves.bind (spawn_service_grows _)
              intro child
              exact Preserves.ret _

end Calls

section Ready

theorem spawn_service_now (timeline : Timeline) (plan : Plan Nat) (index : Nat) (service : Service)
    (world : World) :
    ((spawnService timeline index service).run plan world).2.now = timeline.after world.now := by
  unfold spawnService
  simp only [Proc.run_bind, Proc.run_observe, Proc.run_step]
  cases plan world.now <;> rfl

variable {timeline : Timeline} {plan : Plan Nat} {index : Nat} {service : Service}
  {marker : String}

theorem ReadyBy.mono {history later : List Event} {moment next : Nat}
    (ready : ReadyBy timeline service marker history moment) (order : moment ≤ next) :
    ReadyBy timeline service marker (history ++ later) next := by
  obtain ⟨child, first, before, seen | passed⟩ := ready
  all_goals
    refine ⟨child, ?_, Nat.lt_of_lt_of_le before order, ?_⟩
    · rw [children_append, List.head?_append, first]
      rfl
  · obtain ⟨moment', polled, after, earlier, present⟩ := seen
    exact Or.inl ⟨moment', List.mem_append_left _ polled, after,
      Nat.lt_of_lt_of_le earlier order, present⟩
  · exact Or.inr (Nat.le_trans passed order)

/-- What the loop of `await_ready` has found when it returns. The rounds cover the
time to the deadline. -/
theorem poll_ready_found (marker : String) (deadline polls : Nat) (world : World)
    (covers : deadline ≤ world.now + polls * readyPollInterval) {after : World}
    (returned : (pollReady timeline index marker deadline polls).run plan world =
      (.ok (), after)) :
    (∃ seen, .polled seen true ∈ after.history index ∧ world.now ≤ seen ∧ seen < after.now ∧
        timeline.present seen marker = true) ∨ deadline ≤ after.now := by
  induction polls generalizing world with
  | zero =>
      cases returned
      right
      simpa using covers
  | succ polls ih =>
      unfold pollReady at returned
      rw [Proc.run_bind] at returned
      have looked := @path_exists_meets timeline plan index .polled marker
        (world.history index) world.now world ⟨rfl, rfl⟩
      cases ran : (pathExists timeline index .polled marker).run plan world with
      | mk outcome middle =>
          rw [ran] at looked returned
          cases outcome with
          | killed => cases returned
          | err error => cases returned
          | ok present =>
              obtain ⟨⟨held, now⟩, seen⟩ := looked
              have passed : world.now < middle.now := by
                rw [now]
                unfold Timeline.after
                omega
              cases present with
              | true =>
                  cases returned
                  left
                  exact ⟨world.now, by simp [held], Nat.le_refl _, passed, seen rfl⟩
              | false =>
                  simp only [Bool.false_eq_true, if_false, Proc.run_bind, Proc.run_observe]
                    at returned
                  by_cases late : deadline ≤ middle.now
                  · rw [if_pos late] at returned
                    cases returned
                    exact Or.inr late
                  · rw [if_neg late, Proc.run_bind] at returned
                    have awake := sleep_now timeline plan readyPollInterval middle
                    cases slept : (sleep timeline readyPollInterval).run plan middle with
                    | mk rested rest =>
                        rw [slept] at returned awake
                        cases rested with
                        | killed => cases returned
                        | err error => cases returned
                        | ok value =>
                            have still : middle.now ≤ timeline.after middle.now :=
                              moment_le_after _
                            have more : deadline ≤ rest.now + polls * readyPollInterval := by
                              rw [Nat.add_mul] at covers
                              simp only at awake
                              omega
                            have found := ih rest more returned
                            simp only at awake
                            obtain ⟨moment, polled, from', before, present⟩ | reached := found
                            · exact Or.inl ⟨moment, polled, by omega, before, present⟩
                            · exact Or.inr reached

theorem await_ready_found {child : Child} {world after : World}
    (first : (children (world.history index)).head? = some child)
    (before : child.started < world.now)
    (returned : (awaitReady timeline index marker service.readyTimeoutSecs).run plan world =
      (.ok (), after)) :
    ReadyBy timeline service marker (after.history index) after.now := by
  have grows : Grows index world after := by
    have grown := @await_ready_grows timeline index world marker service.readyTimeoutSecs plan
      world (Grows.refl index world)
    rwa [returned] at grown
  obtain ⟨added, same, -⟩ := grows.own
  have kept : (children (after.history index)).head? = some child := by
    rw [same, children_append, List.head?_append, first]
    rfl
  unfold awaitReady at returned
  simp only [Proc.run_bind, Proc.run_observe] at returned
  by_cases overflows : 2 ^ 63 ≤ world.now / second + service.readyTimeoutSecs
  · rw [if_pos overflows] at returned
    cases returned
  · rw [if_neg overflows] at returned
    have covers : world.now + service.readyTimeoutSecs * second ≤
        world.now + (service.readyTimeoutSecs * 5 + 1) * readyPollInterval := by
      unfold second readyPollInterval
      omega
    refine ⟨child, kept, Nat.lt_of_lt_of_le before grows.later, ?_⟩
    obtain ⟨seen, polled, from', earlier, present⟩ | reached :=
      poll_ready_found marker _ _ world covers returned
    · exact Or.inl ⟨seen, polled, Nat.lt_of_lt_of_le before from', earlier, present⟩
    · exact Or.inr (by omega)

theorem start_now_ready {world after : World} {running : RunningService}
    (unspawned : children (world.history index) = []) (gate : service.readyWhen = some marker)
    (returned : (startNow timeline index service).run plan world = (.ok running, after)) :
    ReadyBy timeline service marker (after.history index) after.now := by
  unfold startNow at returned
  rw [Proc.run_bind] at returned
  have spawned := @spawn_service_meets timeline plan index service (world.history index) world.now
    world ⟨rfl, rfl⟩
  have grown := @spawn_service_grows timeline index world service plan world
    (Grows.refl index world)
  cases ran : (spawnService timeline index service).run plan world with
  | mk outcome middle =>
      rw [ran] at returned spawned grown
      cases outcome with
      | killed => cases returned
      | err error => cases returned
      | ok child =>
          obtain ⟨rfl, held⟩ := spawned
          have now : middle.now = timeline.after world.now := by
            have passed := spawn_service_now timeline plan index service world
            rwa [ran] at passed
          have first : (children (middle.history index)).head? =
              some (service.childAt world.now) := by
            rw [held, children_append, unspawned]
            rfl
          have before : (service.childAt world.now).started < middle.now := by
            rw [now]
            change world.now < timeline.after world.now
            unfold Timeline.after
            omega
          simp only [gate] at returned
          rw [Proc.run_bind] at returned
          cases awaited : (awaitReady timeline index marker service.readyTimeoutSecs).run plan
            middle with
          | mk outcome last =>
              rw [awaited] at returned
              cases outcome with
              | killed => cases returned
              | err error => cases returned
              | ok ready =>
                  cases returned
                  exact await_ready_found first before awaited

/-- A service that is passed by the loop was deferred, or is ready. -/
theorem start_service_ready {world after : World} {running : RunningService}
    (fresh : world.history index = []) (gate : service.readyWhen = some marker)
    (returned : (startService timeline index service).run plan world = (.ok running, after))
    (started : ¬Deferred (after.history index)) :
    ReadyBy timeline service marker (after.history index) after.now := by
  unfold startService deferred at returned
  cases opening : service.startWhen with
  | none =>
      simp only [opening, Proc.run_bind, Proc.run_pure, Bool.false_eq_true, if_false] at returned
      exact start_now_ready (by rw [fresh]; rfl) gate returned
  | some path =>
      simp only [opening, Proc.run_bind] at returned
      have looked := @path_exists_meets timeline plan index .checked path (world.history index)
        world.now world ⟨rfl, rfl⟩
      cases ran : (pathExists timeline index .checked path).run plan world with
      | mk outcome middle =>
          rw [ran] at looked returned
          cases outcome with
          | killed => cases returned
          | err error => cases returned
          | ok present =>
              obtain ⟨⟨held, -⟩, -⟩ := looked
              cases present with
              | false =>
                  cases returned
                  exact absurd ⟨world.now, by rw [held, fresh]; rfl⟩ started
              | true =>
                  have unspawned : children (middle.history index) = [] := by
                    rw [held, fresh]
                    rfl
                  exact start_now_ready unspawned gate returned

end Ready

section Runs

variable {timeline : Timeline} {plan : Plan Nat} {services : List Service}

/-- The order that every run keeps. -/
def Ordered (timeline : Timeline) (services : List Service) (world : World) : Prop :=
  ∀ index, ¬Deferred (world.history index) → ReadyFirst timeline services index world

/-- And what the services that have been passed by `start_services` are by now. -/
structure Passed (timeline : Timeline) (services : List Service) (count : Nat) (world : World) :
    Prop where
  ordered : Ordered timeline services world
  ready : ∀ index < count, ¬Deferred (world.history index) → ∀ service marker,
    services[index]? = some service → service.readyWhen = some marker →
    ReadyBy timeline service marker (world.history index) world.now

theorem Deferred.append {history : List Event} (deferred : Deferred history) (added : List Event) :
    Deferred (history ++ added) := by
  obtain ⟨moment, first⟩ := deferred
  refine ⟨moment, ?_⟩
  rw [List.head?_append, first]
  rfl

/-- New records of one service leave the order as it is: the service before it is ready
by now. -/
theorem Passed.grows {count index : Nat} {start world : World}
    (passed : Passed timeline services count start) (grown : Grows index start world)
    (reached : index ≤ count ∨ services.length ≤ count) :
    Passed timeline services count world := by
  obtain ⟨added, own, starts⟩ := grown.own
  have history (other : Nat) : ∃ more, world.history other = start.history other ++ more := by
    by_cases same : other = index
    · exact ⟨added, by rw [same, own]⟩
    · exact ⟨[], by rw [grown.others other same, List.append_nil]⟩
  have before {other : Nat} (undeferred : ¬Deferred (world.history other)) :
      ¬Deferred (start.history other) := by
    intro deferred
    obtain ⟨more, same⟩ := history other
    rw [same] at undeferred
    exact undeferred (deferred.append more)
  constructor
  · intro other undeferred service marker next listed gate first
    obtain ⟨more, same⟩ := history other
    rw [same]
    by_cases here : other + 1 = index
    · rw [here, own, children_append] at first
      cases spawned : (children (start.history index)).head? with
      | some earlier =>
          rw [List.head?_append, spawned] at first
          cases first
          apply ReadyBy.mono _ (Nat.le_refl _)
          exact passed.ordered other (before undeferred) service marker next listed gate
            (by rw [here, spawned])
      | none =>
          have unspawned := List.head?_eq_none_iff.mp spawned
          rw [unspawned, List.nil_append] at first
          have inside := List.mem_of_mem_head? first
          have position : other < count := by
            have inside := (List.getElem?_eq_some_iff.mp listed).1
            omega
          apply (passed.ready other position (before undeferred) service marker listed gate).mono
          exact starts next inside
    · rw [grown.others (other + 1) here] at first
      apply ReadyBy.mono _ (Nat.le_refl _)
      exact passed.ordered other (before undeferred) service marker next listed gate first
  · intro other earlier undeferred service marker listed gate
    obtain ⟨more, same⟩ := history other
    rw [same]
    exact (passed.ready other earlier (before undeferred) service marker listed gate).mono
      grown.later

theorem passed_zero (moment : Nat) : Passed timeline services 0 (World.booted moment) := by
  constructor
  · intro index undeferred service marker next listed gate first
    cases first
  · intro index impossible
    omega

/-- Before `start_services` gets to a service, nothing is recorded of it. -/
structure Opening (timeline : Timeline) (services : List Service) (count : Nat) (world : World) :
    Prop where
  passed : Passed timeline services count world
  fresh : ∀ other, count ≤ other → world.history other = []

theorem start_services_passed (moment : Nat) :
    Meets plan (fun world => world = World.booted moment) (startServices timeline services)
      (fun _ => Passed timeline services services.length)
      (fun _ => Ordered timeline services) (Ordered timeline services) := by
  have loop : Meets plan (Opening timeline services 0) (startServices timeline services)
      (fun _ => Opening timeline services (0 + services.length))
      (fun _ => Ordered timeline services) (Ordered timeline services) := by
    apply Meets.each_forward
    intro index service listed world ⟨passed, fresh⟩
    rw [Nat.zero_add] at passed fresh ⊢
    have grown := @start_service_grows timeline index world service plan world
      (Grows.refl index world)
    have kept := passed.grows grown (Or.inl (Nat.le_refl index))
    cases ran : (startService timeline index service).run plan world with
    | mk outcome after =>
        rw [ran] at grown kept
        cases outcome with
        | killed => exact kept.ordered
        | err error => exact kept.ordered
        | ok running =>
            refine ⟨⟨kept.ordered, ?_⟩, ?_⟩
            · intro other earlier undeferred same marker listed' gate
              by_cases last : other = index
              · subst last
                rw [listed] at listed'
                cases listed'
                exact start_service_ready (fresh other (Nat.le_refl _)) gate ran undeferred
              · exact kept.ready other (by omega) undeferred same marker listed' gate
            · intro other beyond
              rw [grown.others other (by omega)]
              exact fresh other (by omega)
  intro world booted
  have ended := loop world ⟨booted ▸ passed_zero moment, fun other _ => booted ▸ rfl⟩
  rw [Nat.zero_add] at ended
  cases ran : (startServices timeline services).run plan world with
  | mk outcome after =>
      rw [ran] at ended
      cases outcome with
      | ok running => exact ended.passed
      | err error => exact ended
      | killed => exact ended

theorem visits_passed (items : List RunningService) :
    Preserves (Passed timeline services services.length)
      (Proc.each (superviseService timeline) 0 items) := by
  intro plan world passed
  apply each_preserves 0 items _ world passed
  intro offset running listed world passed
  exact passed.grows (supervise_service_grows running plan world (Grows.refl _ world))
    (Or.inr (Nat.le_refl _))

theorem supervise_until_passed (ticks visits : Nat) (running : List RunningService) :
    Preserves (Passed timeline services services.length)
      (superviseUntil timeline ticks visits running) := by
  unfold superviseUntil supervise
  apply Preserves.bind
  · apply Preserves.iterate
    intro entries
    unfold superviseTick
    apply Preserves.bind (visits_passed entries)
    intro visited
    apply Preserves.bind
    · intro plan world passed
      exact passed.grows (sleep_grows second plan world (Grows.refl 0 world))
        (Or.inr (Nat.le_refl _))
    · intro slept
      exact Preserves.ret visited
  · intro later
    apply Preserves.bind (visits_passed _)
    intro visited
    exact Preserves.ret _

/-- In every run, a service that `start_services` does not defer is ready before the
service after it is first started. -/
theorem ready_services_first (timeline : Timeline) (plan : Plan Nat) (services : List Service)
    (moment ticks visits index : Nat) :
    let world := ((runServices timeline services ticks visits).run plan (World.booted moment)).2
    ¬Deferred (world.history index) → ReadyFirst timeline services index world := by
  intro world
  have ordered : Ordered timeline services world := by
    have started : Meets plan _ _ _ _ _ :=
      @start_services_passed timeline plan services moment
    have result := started (World.booted moment) rfl
    change Ordered timeline services
      ((runServices timeline services ticks visits).run plan (World.booted moment)).2
    unfold runServices
    rw [Proc.run_bind]
    cases ran : (startServices timeline services).run plan (World.booted moment) with
    | mk outcome after =>
        rw [ran] at result
        cases outcome with
        | ok running =>
            exact (supervise_until_passed ticks visits running plan after result).ordered
        | err error => exact result
        | killed => exact result
  exact ordered index

end Runs

/-- The first service is ready two polls after its start. -/
def waitingServices : List Service :=
  [{ name := "containerd", command := "/usr/bin/containerd", readyWhen := some "/run/ready" },
   { name := "kubelet", command := "/usr/bin/kubelet" }]

def waitingTimeline : Timeline :=
  ⟨fun moment _ => decide (300000000 ≤ moment), fun _ => none, fun _ => 0⟩

theorem ready_services_first_sample :
    ¬Deferred (((runServices waitingTimeline waitingServices 0 0).run Plan.allDone
        (World.booted 0)).2.history 0) ∧
      ReadyFirst waitingTimeline waitingServices 0
        ((runServices waitingTimeline waitingServices 0 0).run Plan.allDone
          (World.booted 0)).2 := by
  have undeferred : ¬Deferred (((runServices waitingTimeline waitingServices 0 0).run Plan.allDone
      (World.booted 0)).2.history 0) := by
    rintro ⟨moment, first⟩
    cases first
  exact ⟨undeferred,
    ready_services_first waitingTimeline Plan.allDone waitingServices 0 0 0 0 undeferred⟩

/-- A gated service with a readiness marker, and one after it. -/
def sampleServices : List Service :=
  [{ name := "kubelet", command := "/usr/bin/kubelet", readyWhen := some "/run/ready",
     startWhen := some "/run/start" },
   { name := "agent", command := "/usr/bin/agent" }]

/-- A timeline on which no marker appears. -/
def sampleTimeline : Timeline := ⟨fun _ _ => false, fun _ => none, fun _ => 0⟩

theorem ready_order_skipped :
    ¬∀ timeline plan services moment ticks visits index,
      ReadyFirst timeline services index
        ((runServices timeline services ticks visits).run plan (World.booted moment)).2 := by
  intro orders
  obtain ⟨child, first, -⟩ := orders sampleTimeline Plan.allDone sampleServices 0 0 0 0 _ _
    (Service.childAt { name := "agent", command := "/usr/bin/agent" } 1) rfl rfl rfl
  cases first

end NodeOs.Initd.ReadyOrder
