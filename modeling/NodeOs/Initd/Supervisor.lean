import NodeOs.Initd.Lifecycle

/-!
# What the supervisor leaves behind

`start_services` and `supervise` leave a history of every service, whatever the
timeline and the fault plan; the entry of a service says which life it leads.
The supervisor's invariant follows from what histories are.
-/

namespace NodeOs.Initd.Supervise

open NodeOs.Library.FaultPlan

section Calls

variable {timeline : Timeline} {plan : Plan Nat} {index : Nat}

@[simp] theorem note_history (event : Event) (world : World) :
    (world.note timeline index event).history index = world.history index ++ [event] := by
  simp [World.note, World.history]

@[simp] theorem note_now (event : Event) (world : World) :
    (world.note timeline index event).now = timeline.after world.now := rfl

theorem note_history_other {other : Nat} (different : other ≠ index) (event : Event)
    (world : World) : (world.note timeline index event).history other = world.history other := by
  have unequal : (index == other) = false := by
    simpa using fun same : index = other => different same.symm
  simp [World.note, World.history, unequal]

@[simp] theorem pass_history (world : World) (index : Nat) :
    (world.pass timeline).history index = world.history index := rfl

@[simp] theorem pass_now (world : World) :
    (world.pass timeline).now = timeline.after world.now := rfl

/-- The records of one service so far, at one moment. -/
def At (index : Nat) (past : List Event) (moment : Nat) (world : World) : Prop :=
  world.history index = past ∧ world.now = moment

/-- A contract can be shown for the history and the moment of each state alone. -/
theorem meets_of_at {Value : Type} {process : Init Value} {pre : World → Prop}
    {returned : Value → World → Prop} {failed : InitError → World → Prop} {crashed : World → Prop}
    (inner : ∀ start, pre start →
      Meets plan (At index (start.history index) start.now) process returned failed crashed) :
    Meets plan pre process returned failed crashed :=
  fun world holds => inner world holds world ⟨rfl, rfl⟩

theorem path_exists_meets (record : Nat → Bool → Event) (path : String) (past : List Event)
    (moment : Nat) :
    Meets plan (At index past moment) (pathExists timeline index record path)
      (fun present world => At index (past ++ [record moment present])
        (timeline.after moment) world ∧
        (present = true → timeline.present moment path = true))
      (fun _ _ => False)
      (fun world => world.history index = past ++ [record moment false]) := by
  intro world ⟨held, here⟩
  unfold pathExists metadata
  simp only [Proc.run_bind, Proc.run_attempt, Proc.run_observe, Proc.run_step, here]
  cases plan moment with
  | done =>
      by_cases present : timeline.present moment path = true
      · simp [present, At, held, here, Except.isOk, Except.toBool]
      · simp [present, At, held, here, Except.isOk, Except.toBool]
  | fails extent => simp [At, held, here, Except.isOk, Except.toBool]
  | killed extent => simp [held]

theorem spawn_service_meets (service : Service) (past : List Event) (moment : Nat) :
    Meets plan (At index past moment) (spawnService timeline index service)
      (fun child world => child = service.childAt moment ∧
        world.history index = past ++ [.spawned (service.childAt moment)])
      (fun error world => error = .start service.name ∧
        world.history index = past ++ [.refused moment])
      (fun world => world.history index = past ++ [.refused moment]) := by
  intro world ⟨held, here⟩
  unfold spawnService
  simp only [Proc.run_bind, Proc.run_observe, Proc.run_step, here]
  cases plan moment with
  | done => simp [held]
  | fails extent => simp [held]
  | killed extent => simp [held]

theorem try_wait_meets (child : Child) (past : List Event) (moment : Nat) :
    Meets plan (At index past moment) (tryWait timeline index child)
      (fun answer world => match answer with
        | some status => timeline.exitedBy child moment = some status ∧
            At index (past ++ [.exited moment status]) (timeline.after moment) world
        | none => world.history index = past)
      (fun error world => error = .wait ∧ world.history index = past)
      (fun world => world.history index = past) := by
  intro world ⟨held, here⟩
  unfold tryWait
  simp only [Proc.run_bind, Proc.run_observe, Proc.run_step, here]
  cases plan moment with
  | done =>
      cases gone : timeline.exitedBy child moment with
      | some status => simp [At, held, here]
      | none => simp [held]
  | fails extent => simp [held]
  | killed extent => simp [held]

theorem sleep_keeps (duration other : Nat) :
    Keeps (World.history other) (sleep timeline duration) := by
  unfold sleep
  apply Keeps.bind (Keeps.observe _)
  intro now
  apply Keeps.ignore
  apply Keeps.step
  · intro world
    rfl
  · intro extent world
    rfl

theorem path_exists_keeps (record : Nat → Bool → Event) (path : String) {other : Nat}
    (different : other ≠ index) :
    Keeps (World.history other) (pathExists timeline index record path) := by
  unfold pathExists
  apply Keeps.bind
  · apply Keeps.attempt
    unfold metadata
    apply Keeps.bind (Keeps.observe _)
    intro now
    apply Keeps.step
    · intro world
      split
      · exact note_history_other different _ world
      · exact note_history_other different _ world
    · intro extent world
      exact note_history_other different _ world
  · intro answer
    exact Keeps.ret _

theorem spawn_service_keeps (service : Service) {other : Nat} (different : other ≠ index) :
    Keeps (World.history other) (spawnService timeline index service) := by
  unfold spawnService
  apply Keeps.bind (Keeps.observe _)
  intro now
  apply Keeps.step
  · intro world
    exact note_history_other different _ world
  · intro extent world
    exact note_history_other different _ world

theorem try_wait_keeps (child : Child) {other : Nat} (different : other ≠ index) :
    Keeps (World.history other) (tryWait timeline index child) := by
  unfold tryWait
  apply Keeps.bind (Keeps.observe _)
  intro now
  apply Keeps.step
  · intro world
    split
    · exact note_history_other different _ world
    · rfl
  · intro extent world
    rfl

theorem poll_ready_keeps (marker : String) (deadline : Nat) {other : Nat}
    (different : other ≠ index) (polls : Nat) :
    Keeps (World.history other) (pollReady timeline index marker deadline polls) := by
  induction polls with
  | zero => exact Keeps.ret ()
  | succ polls ih =>
      unfold pollReady
      apply Keeps.bind (path_exists_keeps _ _ different)
      intro ready
      split
      · exact Keeps.ret ()
      · apply Keeps.bind (Keeps.observe _)
        intro now
        split
        · exact Keeps.ret ()
        · apply Keeps.bind (sleep_keeps _ _)
          intro slept
          exact ih

theorem start_now_keeps (service : Service) {other : Nat} (different : other ≠ index) :
    Keeps (World.history other) (startNow timeline index service) := by
  unfold startNow
  apply Keeps.bind (spawn_service_keeps service different)
  intro child
  cases service.readyWhen with
  | none => exact Keeps.ret _
  | some marker =>
      apply Keeps.bind
      · unfold awaitReady
        apply Keeps.bind (Keeps.observe _)
        intro now
        split
        · exact Keeps.raise _
        · exact poll_ready_keeps marker _ different _
      · intro ready
        exact Keeps.ret _

theorem start_service_keeps (service : Service) {other : Nat} (different : other ≠ index) :
    Keeps (World.history other) (startService timeline index service) := by
  unfold startService
  apply Keeps.bind
  · unfold deferred
    cases service.startWhen with
    | none => exact Keeps.ret _
    | some marker =>
        apply Keeps.bind (path_exists_keeps _ _ different)
        intro present
        exact Keeps.ret _
  · intro waits
    split
    · exact Keeps.ret _
    · exact start_now_keeps service different

theorem supervise_service_keeps (running : RunningService) {other : Nat}
    (different : other ≠ index) :
    Keeps (World.history other) (superviseService timeline index running) := by
  unfold superviseService
  cases running.child with
  | none =>
      unfold startDeferred
      apply Keeps.bind
      · unfold markerReady
        cases running.spec.startWhen with
        | none => exact Keeps.ret _
        | some marker => exact path_exists_keeps _ _ different
      · intro ready
        split
        · apply Keeps.bind (Keeps.attempt (spawn_service_keeps _ different))
          intro spawned
          cases spawned <;> exact Keeps.ret _
        · exact Keeps.ret _
  | some child =>
      unfold watchChild
      apply Keeps.bind (try_wait_keeps child different)
      intro status
      cases status with
      | none => exact Keeps.ret _
      | some status =>
          unfold afterExit
          cases running.spec.restart with
          | never => exact Keeps.raise _
          | always =>
              apply Keeps.bind (spawn_service_keeps _ different)
              intro child
              exact Keeps.ret _

end Calls

section Visits

variable {timeline : Timeline} {plan : Plan Nat} {services : List Service}

def Life.of : Option Child → Life
  | none => .waiting
  | some child => .running child

/-- The entry of a service fits what was recorded of it. -/
structure Tracked (timeline : Timeline) (services : List Service) (index : Nat)
    (running : RunningService) (history : List Event) : Prop where
  listed : services[index]? = some running.spec
  life : History timeline running.spec history (Life.of running.child)
  gated : running.child = none → running.spec.startWhen.isSome = true

structure Unstarted (services : List Service) (index : Nat) (service : Service)
    (history : List Event) : Prop where
  listed : services[index]? = some service
  fresh : history = []

/-- What is left when the machine stops. -/
def Cut (timeline : Timeline) (services : List Service) (index : Nat) (history : List Event) :
    Prop :=
  ∀ service, services[index]? = some service → ∃ life, History timeline service history life

/-- What is left by an error. The bail over an exit leaves no exit of a service
to be restarted without its start. -/
def Broken (timeline : Timeline) (services : List Service) (error : InitError) (index : Nat)
    (history : List Event) : Prop :=
  ∀ service, services[index]? = some service →
    ∃ life, History timeline service history life ∧
      ∀ name, error = .exited name → service.restart = .always → Restarted history

theorem life_of_ne_over (child : Option Child) : Life.of child ≠ .over := by
  cases child <;> simp [Life.of]

theorem Tracked.broken {index : Nat} {running : RunningService} {history : List Event}
    (tracked : Tracked timeline services index running history) (error : InitError) :
    Broken timeline services error index history := by
  intro service listed
  rw [tracked.listed] at listed
  cases listed
  exact ⟨_, tracked.life, fun _ _ _ => history_restarted tracked.life (life_of_ne_over _)⟩

theorem Broken.cut {error : InitError} {index : Nat} {history : List Event}
    (broken : Broken timeline services error index history) :
    Cut timeline services index history := by
  intro service listed
  obtain ⟨life, held, _⟩ := broken service listed
  exact ⟨life, held⟩

theorem Unstarted.broken {index : Nat} {service : Service} {history : List Event}
    (unstarted : Unstarted services index service history) (error : InitError) :
    Broken timeline services error index history := by
  intro other listed
  rw [unstarted.fresh]
  exact ⟨.waiting, .fresh, fun _ _ _ => restarted_nil⟩

theorem cut_of_history {index : Nat} {history : List Event} {service : Service} {life : Life}
    (listed : services[index]? = some service) (held : History timeline service history life) :
    Cut timeline services index history := by
  intro other same
  rw [listed] at same
  cases same
  exact ⟨life, held⟩

/-- An error that is no bail, or one over a service that is not to be restarted. -/
theorem broken_of_history {error : InitError} {index : Nat} {history : List Event}
    {service : Service} {life : Life} (listed : services[index]? = some service)
    (held : History timeline service history life)
    (excused : service.restart = .never ∨ ∀ name, error ≠ .exited name) :
    Broken timeline services error index history := by
  intro other same
  rw [listed] at same
  cases same
  refine ⟨life, held, fun name bail policy => ?_⟩
  cases excused with
  | inl never => simp [policy] at never
  | inr unrelated => exact absurd bail (unrelated name)

def Runs (timeline : Timeline) (service : Service) (child : Child) (index : Nat) (world : World) :
    Prop :=
  History timeline service (world.history index) (.running child)

theorem sleep_meets {invariant : World → Prop} (duration : Nat)
    (timeless : ∀ world moment, invariant world → invariant { world with now := moment }) :
    Meets plan invariant (sleep timeline duration) (fun _ => invariant) (fun _ _ => False)
      invariant := by
  intro world holds
  unfold sleep
  simp only [Proc.run_bind, Proc.run_observe, Proc.run_ignore, Proc.run_step]
  cases plan world.now <;> exact timeless world _ holds

theorem poll_ready_meets {index : Nat} {service : Service} {child : Child} (marker : String)
    (deadline polls : Nat) :
    Meets plan (Runs timeline service child index)
      (pollReady timeline index marker deadline polls)
      (fun _ => Runs timeline service child index) (fun _ _ => False)
      (Runs timeline service child index) := by
  have polled : Meets plan (Runs timeline service child index)
      (pathExists timeline index .polled marker)
      (fun _ => Runs timeline service child index) (fun _ _ => False)
      (Runs timeline service child index) := by
    apply meets_of_at
    intro start runs
    apply (path_exists_meets .polled marker _ _).weaken (fun _ here => here)
    · intro present world ⟨⟨held, _⟩, _⟩
      unfold Runs
      rw [held]
      exact .polled _ present runs
    · intro error world impossible
      exact impossible
    · intro world held
      unfold Runs
      rw [held]
      exact .polled _ false runs
  induction polls with
  | zero => exact Meets.ret fun _ holds => holds
  | succ polls ih =>
      unfold pollReady
      apply Meets.bind polled
      intro ready
      split
      · exact Meets.ret fun _ holds => holds
      · apply Meets.observing
        intro now
        split
        · exact Meets.ret fun _ holds => holds
        · apply Meets.bind (sleep_meets _ fun _ _ runs => runs)
          intro slept
          exact ih

theorem await_ready_meets {index : Nat} {service : Service} {child : Child} (marker : String)
    (timeoutSecs : Nat) :
    Meets plan (Runs timeline service child index)
      (awaitReady timeline index marker timeoutSecs)
      (fun _ => Runs timeline service child index)
      (fun error world => error = .instantOverflow ∧ Runs timeline service child index world)
      (Runs timeline service child index) := by
  unfold awaitReady
  apply Meets.observing
  intro now
  split
  · exact Meets.raise fun world runs => ⟨rfl, runs⟩
  · apply (poll_ready_meets _ _ _).weaken (fun _ runs => runs) (fun _ _ runs => runs)
    · intro error world impossible
      exact impossible.elim
    · intro world runs
      exact runs

/-- A spawn after a past that allows both its outcomes. -/
theorem spawn_service_tracks {index : Nat} {service : Service} {past : List Event} {moment : Nat}
    {life : Life} (listed : services[index]? = some service)
    (opening : History timeline service (past ++ [.spawned (service.childAt moment)])
      (.running (service.childAt moment)))
    (refused : History timeline service (past ++ [.refused moment]) life) :
    Meets plan (At index past moment) (spawnService timeline index service)
      (fun child world => Runs timeline service child index world)
      (fun error world => Broken timeline services error index (world.history index))
      (fun world => Cut timeline services index (world.history index)) := by
  apply (spawn_service_meets service past moment).weaken (fun _ here => here)
  · intro child world ⟨same, held⟩
    rw [same]
    unfold Runs
    rwa [held]
  · intro error world ⟨failure, held⟩
    rw [held]
    exact broken_of_history listed refused (Or.inr (by simp [failure]))
  · intro world held
    rw [held]
    exact cut_of_history listed refused

theorem start_now_meets {index : Nat} {service : Service} {past : List Event} {moment : Nat}
    (listed : services[index]? = some service)
    (opening : History timeline service (past ++ [.spawned (service.childAt moment)])
      (.running (service.childAt moment)))
    (refused : ∃ life, History timeline service (past ++ [.refused moment]) life) :
    Meets plan (At index past moment) (startNow timeline index service)
      (fun running world => Tracked timeline services index running (world.history index))
      (fun error world => Broken timeline services error index (world.history index))
      (fun world => Cut timeline services index (world.history index)) := by
  obtain ⟨life, refused⟩ := refused
  unfold startNow
  apply Meets.bind (spawn_service_tracks listed opening refused)
  intro child
  cases service.readyWhen with
  | none =>
      apply Meets.ret
      intro world runs
      exact ⟨listed, runs, by simp⟩
  | some marker =>
      have awaited : Meets plan (Runs timeline service child index)
          (awaitReady timeline index marker service.readyTimeoutSecs)
          (fun _ => Runs timeline service child index)
          (fun error world => Broken timeline services error index (world.history index))
          (fun world => Cut timeline services index (world.history index)) := by
        apply (await_ready_meets marker _).weaken (fun _ runs => runs) (fun _ _ runs => runs)
        · intro error world ⟨overflow, runs⟩
          exact broken_of_history listed runs (Or.inr (by simp [overflow]))
        · intro world runs
          exact cut_of_history listed runs
      apply Meets.bind awaited
      intro ready
      apply Meets.ret
      intro world runs
      exact ⟨listed, runs, by simp⟩

/-- A check of the start marker of a service that waits. -/
theorem check_marker_meets {index : Nat} {service : Service} {past : List Event} {moment : Nat}
    {marker : String} (listed : services[index]? = some service)
    (waits : History timeline service past .waiting) (gated : service.startWhen = some marker) :
    Meets plan (At index past moment) (pathExists timeline index .checked marker)
      (fun present world => At index (past ++ [.checked moment present])
        (timeline.after moment) world ∧
        (present = true → timeline.present moment marker = true))
      (fun error world => Broken timeline services error index (world.history index))
      (fun world => Cut timeline services index (world.history index)) := by
  apply (path_exists_meets .checked marker past moment).weaken (fun _ here => here)
    (fun _ _ result => result)
  · intro error world impossible
    exact impossible.elim
  · intro world held
    rw [held]
    exact cut_of_history listed (.absent _ waits gated)

theorem start_service_meets (index : Nat) (service : Service) :
    Meets plan (fun world => Unstarted services index service (world.history index))
      (startService timeline index service)
      (fun running world => Tracked timeline services index running (world.history index))
      (fun error world => Broken timeline services error index (world.history index))
      (fun world => Cut timeline services index (world.history index)) := by
  apply meets_of_at
  intro start ⟨listed, fresh⟩
  rw [fresh]
  unfold startService deferred
  cases gate : service.startWhen with
  | none => exact start_now_meets listed (.started _ gate) ⟨.over, .unstarted _ gate⟩
  | some marker =>
      have answered (present : Bool) : Meets plan
          (fun world => At index [.checked start.now present] (timeline.after start.now) world ∧
            (present = true → timeline.present start.now marker = true))
          (pure (!present) : Init Bool)
          (fun waits world => At index [.checked start.now (!waits)]
            (timeline.after start.now) world ∧
            (waits = false → timeline.present start.now marker = true))
          (fun error world => Broken timeline services error index (world.history index))
          (fun world => Cut timeline services index (world.history index)) := by
        apply Meets.ret
        intro world ⟨here, seen⟩
        simpa using And.intro here seen
      apply Meets.bind (Meets.bind (check_marker_meets listed .fresh gate) answered)
      intro waits
      cases waits with
      | true =>
          apply Meets.ret
          intro world ⟨⟨held, _⟩, _⟩
          rw [held]
          exact ⟨listed, .absent _ .fresh gate, by simp [gate]⟩
      | false =>
          intro world ⟨here, seen⟩
          exact start_now_meets listed (.opened .fresh gate (seen rfl))
            ⟨.waiting, .unopened .fresh gate (seen rfl)⟩ world here

/-- What is known after an attempt to start a service that waits. -/
def Attempted (timeline : Timeline) (running : RunningService) (index : Nat) :
    Except InitError Child → World → Prop
  | .ok child, world => Runs timeline running.spec child index world
  | .error _, world => History timeline running.spec (world.history index) .waiting

theorem start_deferred_meets (index : Nat) (running : RunningService)
    (waiting : running.child = none) :
    Meets plan (fun world => Tracked timeline services index running (world.history index))
      (startDeferred timeline index running)
      (fun running world => Tracked timeline services index running (world.history index))
      (fun error world => Broken timeline services error index (world.history index))
      (fun world => Cut timeline services index (world.history index)) := by
  apply meets_of_at
  intro start tracked
  obtain ⟨listed, waits, gated⟩ := tracked
  rw [waiting] at waits
  obtain ⟨marker, gate⟩ := Option.isSome_iff_exists.mp (gated waiting)
  unfold startDeferred markerReady
  simp only [gate]
  apply Meets.bind (check_marker_meets listed waits gate)
  intro present
  have entry (history : List Event) (still : History timeline running.spec history .waiting) :
      Tracked timeline services index running history :=
    ⟨listed, by rwa [waiting], gated⟩
  cases present with
  | false =>
      apply Meets.ret
      intro world ⟨⟨held, _⟩, _⟩
      rw [held]
      exact entry _ (.absent _ waits gate)
  | true =>
      apply meets_of_at
      intro later ⟨⟨held, now⟩, seen⟩
      rw [held, now]
      have attempted : Meets plan
          (At index (start.history index ++ [.checked start.now true])
            (timeline.after start.now))
          (Proc.attempt (spawnService timeline index running.spec))
          (Attempted timeline running index)
          (fun error world => Broken timeline services error index (world.history index))
          (fun world => Cut timeline services index (world.history index)) := by
        apply Meets.attempt
        apply (spawn_service_meets running.spec _ _).weaken (fun _ here => here)
        · intro child world ⟨same, held⟩
          rw [same]
          simp only [Attempted, Runs]
          rw [held]
          simpa using History.opened waits gate (seen rfl)
        · intro error world ⟨_, held⟩
          simp only [Attempted]
          rw [held]
          simpa using History.unopened waits gate (seen rfl)
        · intro world held
          rw [held]
          refine cut_of_history listed (?_ : History timeline running.spec _ .waiting)
          simpa using History.unopened waits gate (seen rfl)
      apply Meets.bind attempted
      intro spawned
      cases spawned with
      | ok child =>
          apply Meets.ret
          intro world runs
          exact ⟨listed, runs, by simp⟩
      | error failure =>
          apply Meets.ret
          intro world still
          exact entry _ still

theorem watch_child_meets (index : Nat) (running : RunningService) (child : Child)
    (alive : running.child = some child) :
    Meets plan (fun world => Tracked timeline services index running (world.history index))
      (watchChild timeline index running child)
      (fun running world => Tracked timeline services index running (world.history index))
      (fun error world => Broken timeline services error index (world.history index))
      (fun world => Cut timeline services index (world.history index)) := by
  apply meets_of_at
  intro start tracked
  obtain ⟨listed, runs, gated⟩ := tracked
  rw [alive] at runs
  have waited : Meets plan (At index (start.history index) start.now)
      (tryWait timeline index child)
      (fun answer world => match answer with
        | some status => timeline.exitedBy child start.now = some status ∧
            At index (start.history index ++ [.exited start.now status])
              (timeline.after start.now) world
        | none => world.history index = start.history index)
      (fun error world => Broken timeline services error index (world.history index))
      (fun world => Cut timeline services index (world.history index)) := by
    apply (try_wait_meets child _ _).weaken (fun _ here => here) (fun _ _ result => result)
    · intro error world ⟨failure, held⟩
      rw [held]
      exact broken_of_history listed runs (Or.inr (by simp [failure]))
    · intro world held
      rw [held]
      exact cut_of_history listed runs
  unfold watchChild
  apply Meets.bind waited
  intro answer
  cases answer with
  | none =>
      apply Meets.ret
      intro world held
      rw [held]
      exact ⟨listed, by rwa [alive], gated⟩
  | some status =>
      apply meets_of_at
      intro later ⟨gone, held, now⟩
      rw [held, now]
      unfold afterExit
      cases policy : running.spec.restart with
      | never =>
          apply Meets.raise
          intro world ⟨held, _⟩
          rw [held]
          exact broken_of_history listed (.ended runs gone policy) (Or.inl policy)
      | always =>
          have opening : History timeline running.spec
              ((start.history index ++ [.exited start.now status]) ++
                [.spawned (running.spec.childAt (timeline.after start.now))])
              (.running (running.spec.childAt (timeline.after start.now))) := by
            simpa using History.restarted runs gone policy
          have refused : History timeline running.spec
              ((start.history index ++ [.exited start.now status]) ++
                [.refused (timeline.after start.now)]) .over := by
            simpa using History.unrestarted runs gone policy
          apply Meets.bind (spawn_service_tracks listed opening refused)
          intro child
          apply Meets.ret
          intro world runs
          exact ⟨listed, runs, by simp⟩

theorem supervise_service_meets (index : Nat) (running : RunningService) :
    Meets plan (fun world => Tracked timeline services index running (world.history index))
      (superviseService timeline index running)
      (fun running world => Tracked timeline services index running (world.history index))
      (fun error world => Broken timeline services error index (world.history index))
      (fun world => Cut timeline services index (world.history index)) := by
  unfold superviseService
  cases state : running.child with
  | none => exact start_deferred_meets index running state
  | some child => exact watch_child_meets index running child state

end Visits

section Runs

variable {timeline : Timeline} {plan : Plan Nat} {services : List Service}

/-- Every service has an entry that fits what was recorded of it. -/
def AllTracked (timeline : Timeline) (services : List Service) (running : List RunningService)
    (world : World) : Prop :=
  running.length = services.length ∧
    Held (Tracked timeline services) World.history 0 running world

def AllBroken (timeline : Timeline) (services : List Service) (error : InitError)
    (world : World) : Prop :=
  ∀ index < services.length, Broken timeline services error index (world.history index)

def AllCut (timeline : Timeline) (services : List Service) (world : World) : Prop :=
  ∀ index < services.length, Cut timeline services index (world.history index)

theorem AllTracked.entry {running : List RunningService} {world : World}
    (tracked : AllTracked timeline services running world) {index : Nat} {entry : RunningService}
    (listed : running[index]? = some entry) :
    Tracked timeline services index entry (world.history index) := by
  have held := tracked.2 index entry listed
  rwa [Nat.zero_add] at held

theorem AllTracked.broken {running : List RunningService} {world : World}
    (tracked : AllTracked timeline services running world) (error : InitError) :
    AllBroken timeline services error world := by
  intro index inside
  rw [← tracked.1] at inside
  exact (tracked.entry (List.getElem?_eq_getElem inside)).broken error

theorem AllBroken.cut {error : InitError} {world : World}
    (broken : AllBroken timeline services error world) : AllCut timeline services world :=
  fun index inside => (broken index inside).cut

theorem start_services_meets (moment : Nat) :
    Meets plan (fun world => world = World.booted moment)
      (startServices timeline services) (AllTracked timeline services)
      (AllBroken timeline services) (AllCut timeline services) := by
  have loop : Meets plan (Held (Unstarted services) World.history 0 services)
      (startServices timeline services) (AllTracked timeline services)
      (fun error world => ∀ offset < services.length,
        Broken timeline services error (0 + offset) (world.history (0 + offset)))
      (fun world => ∀ offset < services.length,
        Cut timeline services (0 + offset) (world.history (0 + offset))) := by
    apply Meets.each
    · exact start_service_meets
    · intro index service other different
      exact start_service_keeps service different
    · intro index service history unstarted
      exact ⟨unstarted.broken, (unstarted.broken .wait).cut⟩
    · intro index running history tracked
      exact ⟨tracked.broken, (tracked.broken .wait).cut⟩
  apply loop.weaken
  · intro world fresh index service listed
    rw [fresh, Nat.zero_add]
    exact ⟨listed, rfl⟩
  · intro running world tracked
    exact tracked
  · intro error world broken index inside
    simpa using broken index inside
  · intro world cut index inside
    simpa using cut index inside

/-- The inner loop of `supervise` over the first entries. -/
theorem visit_services_meets (timeline : Timeline) (plan : Plan Nat) (services : List Service)
    (first rest : List RunningService) :
    Meets plan (AllTracked timeline services (first ++ rest))
      (Proc.each (superviseService timeline) 0 first)
      (fun visited => AllTracked timeline services (visited ++ rest))
      (AllBroken timeline services) (AllCut timeline services) := by
  have frame (index : Nat) (running : RunningService) (other : Nat) (different : other ≠ index) :
      Keeps (World.history other) (superviseService timeline index running) :=
    supervise_service_keeps running different
  have loop : Meets plan (Held (Tracked timeline services) World.history 0 first)
      (Proc.each (superviseService timeline) 0 first)
      (fun visited world => visited.length = first.length ∧
        Held (Tracked timeline services) World.history 0 visited world)
      (fun error world => ∀ offset < first.length,
        Broken timeline services error (0 + offset) (world.history (0 + offset)))
      (fun world => ∀ offset < first.length,
        Cut timeline services (0 + offset) (world.history (0 + offset))) := by
    apply Meets.each supervise_service_meets frame
    · intro index running history tracked
      exact ⟨tracked.broken, (tracked.broken .wait).cut⟩
    · intro index running history tracked
      exact ⟨tracked.broken, (tracked.broken .wait).cut⟩
  intro world tracked
  have ready : Held (Tracked timeline services) World.history 0 first world := by
    intro index running listed
    apply tracked.2
    rw [List.getElem?_append_left (List.getElem?_eq_some_iff.mp listed).1]
    exact listed
  -- The entries behind the first ones keep their records.
  have kept (offset : Nat) :
      ((Proc.each (superviseService timeline) 0 first).run plan world).2.history
        (first.length + offset) = world.history (first.length + offset) :=
    Keeps.each frame (Or.inr (by omega)) plan world
  have behind (offset : Nat) (running : RunningService) (listed : rest[offset]? = some running) :
      Tracked timeline services (first.length + offset) running
        (world.history (first.length + offset)) := by
    apply tracked.entry
    rw [List.getElem?_append_right (by omega), Nat.add_sub_cancel_left]
    exact listed
  have length := tracked.1
  rw [List.length_append] at length
  have all {fits : Nat → List Event → Prop} {after : World}
      (same : ∀ offset, after.history (first.length + offset) =
        world.history (first.length + offset))
      (visited : ∀ offset < first.length, fits (0 + offset) (after.history (0 + offset)))
      (others : ∀ index running history, Tracked timeline services index running history →
        fits index history) :
      ∀ index < services.length, fits index (after.history index) := by
    intro index inside
    by_cases early : index < first.length
    · simpa using visited index early
    · have position : first.length + (index - first.length) = index := by omega
      have exists_entry : index - first.length < rest.length := by omega
      have tracked := behind _ _ (List.getElem?_eq_getElem exists_entry)
      rw [← same, position] at tracked
      exact others _ _ _ tracked
  have looped := loop world ready
  cases ran : (Proc.each (superviseService timeline) 0 first).run plan world with
  | mk outcome after =>
      rw [ran] at looped kept
      cases outcome with
      | ok visited =>
          refine ⟨by simp [looped.1, length], ?_⟩
          intro index running listed
          rw [Nat.zero_add]
          by_cases early : index < visited.length
          · rw [List.getElem?_append_left early] at listed
            simpa using looped.2 index running listed
          · rw [List.getElem?_append_right (by omega), looped.1] at listed
            have tracked := behind _ running listed
            rw [← kept, show first.length + (index - first.length) = index by omega] at tracked
            exact tracked
      | err error => exact all kept looped fun _ _ _ tracked => tracked.broken error
      | killed => exact all kept looped fun _ _ _ tracked => (tracked.broken .wait).cut

theorem supervise_tick_meets (running : List RunningService) :
    Meets plan (AllTracked timeline services running) (superviseTick timeline running)
      (AllTracked timeline services) (AllBroken timeline services) (AllCut timeline services) := by
  have visits := visit_services_meets timeline plan services running []
  simp only [List.append_nil] at visits
  unfold superviseTick
  apply Meets.bind visits
  intro visited
  have slept : Meets plan (AllTracked timeline services visited) (sleep timeline second)
      (fun _ => AllTracked timeline services visited) (AllBroken timeline services)
      (AllCut timeline services) := by
    apply (sleep_meets second fun _ _ tracked => tracked).weaken (fun _ tracked => tracked)
      (fun _ _ tracked => tracked)
    · intro error world impossible
      exact impossible.elim
    · intro world tracked
      exact (tracked.broken .wait).cut
  apply Meets.bind slept
  intro awake
  exact Meets.ret fun _ tracked => tracked

theorem supervise_until_meets (ticks visits : Nat) (running : List RunningService) :
    Meets plan (AllTracked timeline services running)
      (superviseUntil timeline ticks visits running)
      (AllTracked timeline services) (AllBroken timeline services) (AllCut timeline services) := by
  unfold superviseUntil supervise
  apply Meets.bind (Meets.iterate supervise_tick_meets ticks running)
  intro later
  have partly := visit_services_meets timeline plan services (later.take visits)
    (later.drop visits)
  rw [List.take_append_drop] at partly
  apply Meets.bind partly
  intro visited
  exact Meets.ret fun _ tracked => tracked

theorem run_services_meets (ticks visits moment : Nat) :
    Meets plan (fun world => world = World.booted moment)
      (runServices timeline services ticks visits)
      (AllTracked timeline services) (AllBroken timeline services) (AllCut timeline services) := by
  unfold runServices
  apply Meets.bind (start_services_meets moment)
  intro running
  exact supervise_until_meets ticks visits running

/-- Whatever the outcome, what was recorded of a service is a history. -/
theorem run_services_history (timeline : Timeline) (plan : Plan Nat) (ticks visits moment : Nat)
    {index : Nat} {service : Service} (listed : services[index]? = some service) :
    ∃ life, History timeline service
      (((runServices timeline services ticks visits).run plan
        (World.booted moment)).2.history index)
      life := by
  have met : Meets plan _ _ (AllTracked timeline services) _ _ :=
    run_services_meets ticks visits moment
  have inside := (List.getElem?_eq_some_iff.mp listed).1
  have result := met (World.booted moment) rfl
  cases ran : (runServices timeline services ticks visits).run plan (World.booted moment) with
  | mk outcome after =>
      rw [ran] at result
      cases outcome with
      | ok running => exact (result.broken .wait).cut index inside service listed
      | err error => exact result.cut index inside service listed
      | killed => exact result index inside service listed

/-- The supervisor's invariant, of the outcome of a run and the world it leaves. -/
structure SupervisorInvariant (timeline : Timeline) (services : List Service)
    (ran : Outcome InitError (List RunningService) × World) : Prop where
  one_live : ∀ (index : Nat) (service : Service) (moment : Nat),
    services[index]? = some service →
      (liveChildren timeline moment (ran.2.history index)).length ≤ 1
  first_checked : ∀ (index : Nat) (service : Service) (marker : String),
    services[index]? = some service → service.startWhen = some marker →
      children (ran.2.history index) ≠ [] →
        FirstStartChecked timeline marker (ran.2.history index)
  balanced : ∀ (running : List RunningService) (index : Nat), ran.1 = .ok running →
    children (ran.2.history index) ≠ [] → index < services.length →
      (children (ran.2.history index)).length = exits (ran.2.history index) + 1 ∧
        Restarted (ran.2.history index)
  waiting_unstarted : ∀ (running : List RunningService) (index : Nat) (entry : RunningService),
    ran.1 = .ok running → running[index]? = some entry → entry.child = none →
      children (ran.2.history index) = []

end Runs

end NodeOs.Initd.Supervise
