import NodeOs.Noded.BearerToken

/-!
# The audit log

Over any run of the daemon the log is a function of the requests that were made,
allowed or not, and of the moments at which the server started. A request that
is denied leaves its event and its 403, and nothing else.
-/

namespace NodeOs.Noded.AuditLog

open NodeOs.Library NodeOs.Library.FaultPlan NodeOs.Library.FaultPlan.Proc
open NodeOs.Library.Machine (run_cons)
open NodeOs.Noded.FileSystem NodeOs.Noded.Enrollment NodeOs.Noded.Bootstrap
open NodeOs.Noded.Reconcile NodeOs.Noded.Node
open NodeOs.Noded.RenewalLoop (LoopStep LoopState keySource)
open NodeOs.Noded.Authorization NodeOs.Noded.Pkcs11 NodeOs.Noded.BearerToken

section Audit

variable (policy : AuthorizationConfig)

/-- What the middleware logs of a request. -/
def auditEvent (requestId : UInt64) (request : Request) : AuditEvent :=
  let (allowed, reason) :=
    judge (requiredRole request.method request.path) (granted policy request)
  { requestId := requestId.toNat
    subject := request.subject.getD "<none>"
    method := request.method
    resource := request.path
    required := requiredRole request.method request.path
    granted := granted policy request
    decision := if allowed then "allow" else "deny"
    reason := reason }

/-- What an action has the middleware log when `requestId` is the next number. -/
def auditOf (requestId : UInt64) : Action → List AuditEvent
  | .request request _ => [auditEvent policy requestId request]
  | _ => []

/-- The number after an action: a server that starts counts from 1. -/
def nextNumber (requestId : UInt64) : Action → UInt64
  | .listen _ => 1
  | .request _ _ => requestId + 1
  | _ => requestId

/-- What a run has the middleware log, from a number on. -/
def auditTrail : UInt64 → List Action → List AuditEvent
  | _, [] => []
  | requestId, action :: actions =>
      auditOf policy requestId action ++ auditTrail (nextNumber requestId action) actions

theorem authorize_logs {State : Type} (next : Handler State) (request : Request)
    (server : Server State) :
    (authorize policy next request server).2.audit =
        server.audit ++ [auditEvent policy server.nextRequestId request] ∧
      (authorize policy next request server).2.nextRequestId = server.nextRequestId + 1 := by
  unfold authorize
  cases allowed : (judge (requiredRole request.method request.path) (granted policy request)).1 <;>
    simp [auditEvent, allowed]

theorem audit_event_allow_iff (requestId : UInt64) (request : Request) :
    (auditEvent policy requestId request).decision = "allow" ↔ Allowed policy request := by
  rw [← judge_allowed_iff]
  cases allowed : (judge (requiredRole request.method request.path) (granted policy request)).1 <;>
    simp [auditEvent, allowed]

end Audit

section Requests

variable {environment : Environment} {config : Config} {state next : State} {request : Request}
  {plan : Plan ApplyStep}

/-- What a request does: it is logged, and then turned down or handled. -/
structure Requested (environment : Environment) (config : Config) (request : Request)
    (plan : Plan ApplyStep) (requestId : UInt64) (identity : Identity) (state next : State) :
    Prop where
  logged : next.audit = state.audit ++ [auditEvent config.authorization requestId request]
  phase : next.phase = .serving identity (requestId + 1) ∨ next.phase = .down
  denied : ¬Allowed config.authorization request →
    next.device = state.device ∧ next.answers = state.answers ++ [forbidden]
  up : ¬Allowed config.authorization request → next.phase = .serving identity (requestId + 1)
  handled : Allowed config.authorization request → next.device = state.device.setDisk
    ((handle environment config request).run plan state.device.disk).2

theorem request_taken
    (taken : Node.step environment config state (.request request plan) = some next) :
    ∃ identity requestId, state.phase = .serving identity requestId ∧
      Requested environment config request plan requestId identity state next := by
  simp only [Node.step] at taken
  split at taken
  · rename_i identity requestId phase
    rw [← Option.some.inj taken]
    refine ⟨identity, requestId, phase, ?_⟩
    obtain ⟨audit, number⟩ := authorize_logs config.authorization
      (handler environment config plan) request
      ⟨requestId, state.audit, ⟨state.device.disk, some forbidden⟩⟩
    by_cases allowed : Allowed config.authorization request
    · obtain ⟨_, passed⟩ := authorize_allowed config.authorization request allowed
        (handler environment config plan)
        ⟨requestId, state.audit, ⟨state.device.disk, some forbidden⟩⟩
      unfold handler at passed
      simp only [State.request, audit, number]
      rw [show (authorize config.authorization (handler environment config plan) request
        ⟨requestId, state.audit, ⟨state.device.disk, some forbidden⟩⟩).2.handler = _ from passed]
      cases ran : (handle environment config request).run plan state.device.disk with
      | mk outcome disk =>
          cases outcome with
          | ok response =>
              exact ⟨rfl, Or.inl rfl, fun denied => absurd allowed denied,
                fun denied => absurd allowed denied, fun _ => by rw [ran]⟩
          | err error =>
              exact ⟨rfl, Or.inr rfl, fun denied => absurd allowed denied,
                fun denied => absurd allowed denied, fun _ => by rw [ran]⟩
          | killed =>
              exact ⟨rfl, Or.inr rfl, fun denied => absurd allowed denied,
                fun denied => absurd allowed denied, fun _ => by rw [ran]⟩
    · obtain ⟨answer, kept⟩ := authorize_denied config.authorization request allowed
        (handler environment config plan)
        ⟨requestId, state.audit, ⟨state.device.disk, some forbidden⟩⟩
      simp only [State.request, audit, number]
      rw [kept, answer]
      exact ⟨rfl, Or.inl rfl, fun _ => ⟨rfl, rfl⟩, fun _ => rfl,
        fun passes => absurd passes allowed⟩
  · cases taken

/-- A server that is up will give the next request this number. -/
def CountsFrom (requestId : UInt64) (phase : Phase) : Prop :=
  ∀ identity number, phase = .serving identity number → number = requestId

theorem boot_counts (draws : Draws) (now : Option Nat) (plan : Plan BootStep)
    (requestId : UInt64) :
    CountsFrom requestId (state.boot environment config draws now plan).phase ∧
      (state.boot environment config draws now plan).audit = state.audit := by
  unfold State.boot CountsFrom
  cases ran : (beginRun environment config draws now).run plan state.device with
  | mk outcome device =>
      cases outcome with
      | err error => simp
      | killed => simp
      | ok phase =>
          obtain ⟨tpm, -, ends⟩ := begin_run_ok (congrArg Prod.fst ran)
          refine ⟨?_, rfl⟩
          rcases ends with ⟨rfl, -⟩ | rfl | rfl <;> simp

theorem after_bootstrap_counts (tpm : Option TpmIdentity) (failures : Nat)
    (outcome : Outcome Error Unit) (requestId : UInt64) :
    CountsFrom requestId (afterBootstrap tpm failures outcome) := by
  intro identity number
  cases outcome with
  | ok value => simp [afterBootstrap]
  | killed => simp [afterBootstrap]
  | err error =>
      simp only [afterBootstrap]
      split <;> simp

theorem after_reenroll_counts (tpm : Option TpmIdentity) (failures : Nat)
    (outcome : Outcome Error Unit) (requestId : UInt64) :
    CountsFrom requestId (afterReenroll tpm failures outcome) := by
  intro identity number
  cases outcome with
  | ok value => simp [afterReenroll]
  | killed => simp [afterReenroll]
  | err error =>
      simp only [afterReenroll]
      split <;> simp

theorem tick_counts (server : EstServer) (fresh : KeyPair) (now : Option Nat)
    (plan : Plan LoopStep) {identity : Identity} {resume : Identity → Phase} {requestId : UInt64}
    (resumed : ∀ identity, CountsFrom requestId (resume identity)) :
    CountsFrom requestId
        (state.tick environment.pki config server fresh now plan identity resume).phase ∧
      (state.tick environment.pki config server fresh now plan identity resume).audit =
        state.audit := by
  unfold State.tick
  cases ran : (RenewalLoop.tick environment.pki server fresh now config identity.tpm).run
      plan ⟨state.device.world, identity.cert.current⟩ with
  | mk outcome after =>
      cases outcome with
      | killed => exact ⟨by simp [CountsFrom, State.setWorld], rfl⟩
      | ok report => exact ⟨resumed _, rfl⟩
      | err error => exact ⟨resumed _, rfl⟩

theorem load_counts (plan : Plan LoadStep) (tpm : Option TpmIdentity) (requestId : UInt64) :
    CountsFrom requestId (state.load environment.pki config plan tpm).phase ∧
      (state.load environment.pki config plan tpm).audit = state.audit := by
  unfold State.load CountsFrom
  cases ran : (loadIdentity environment.pki config tpm).run plan state.device.world with
  | mk outcome world => cases outcome <;> exact ⟨by simp [State.setWorld], rfl⟩

theorem listen_counts (plan : Plan ListenStep) (identity : Identity) :
    CountsFrom 1 (state.listen environment config plan identity).phase ∧
      (state.listen environment config plan identity).audit = state.audit := by
  unfold State.listen CountsFrom
  cases ran : (Node.listen environment config).run plan state.device.disk with
  | mk outcome disk => cases outcome <;> exact ⟨by simp [State.setWorld], rfl⟩

/-- What one step logs, and how it counts. -/
theorem step_logs {action : Action} {requestId : UInt64}
    (counts : CountsFrom requestId state.phase)
    (taken : Node.step environment config state action = some next) :
    CountsFrom (nextNumber requestId action) next.phase ∧
      next.audit = state.audit ++ auditOf config.authorization requestId action := by
  have quiet {logged : List AuditEvent} (same : logged = state.audit) :
      logged = state.audit ++ [] := same.trans (List.append_nil _).symm
  cases action with
  | request request plan =>
      obtain ⟨identity, number, phase, does⟩ := request_taken taken
      obtain rfl := counts identity number phase
      refine ⟨fun other later same => ?_, does.logged⟩
      rcases does.phase with up | down
      · cases up.symm.trans same
        rfl
      · cases down.symm.trans same
  | tick server fresh now plan =>
      simp only [Node.step] at taken
      split at taken
      · rw [← Option.some.inj taken]
        exact (tick_counts server fresh now plan (by simp [CountsFrom])).imp_right quiet
      · rename_i identity number phase
        rw [← Option.some.inj taken]
        obtain rfl := counts identity number phase
        exact (tick_counts server fresh now plan (by simp [CountsFrom, nextNumber])).imp_right quiet
      · cases taken
  | listen plan =>
      simp only [Node.step] at taken
      split at taken
      · rw [← Option.some.inj taken]
        exact (listen_counts plan _).imp_right quiet
      · cases taken
  | boot draws now plan =>
      simp only [Node.step] at taken
      split at taken
      · rw [← Option.some.inj taken]
        exact (boot_counts draws now plan requestId).imp_right quiet
      · cases taken
  | bootstrap server fresh plan =>
      simp only [Node.step] at taken
      split at taken
      · rw [← Option.some.inj taken]
        exact ⟨after_bootstrap_counts _ _ _ _, quiet rfl⟩
      · cases taken
  | reenroll server fresh plan =>
      simp only [Node.step] at taken
      split at taken
      · rw [← Option.some.inj taken]
        exact ⟨after_reenroll_counts _ _ _ _, quiet rfl⟩
      · cases taken
  | load plan =>
      simp only [Node.step] at taken
      split at taken
      · rw [← Option.some.inj taken]
        exact (load_counts plan _ _).imp_right quiet
      · cases taken
  | crash =>
      rw [← Option.some.inj taken]
      exact ⟨by simp [CountsFrom], quiet rfl⟩

theorem run_logs {actions : List Action} {start final : State} {requestId : UInt64}
    (counts : CountsFrom requestId start.phase)
    (reached : Machine.run (Node.step environment config) start actions = some final) :
    final.audit = start.audit ++ auditTrail config.authorization requestId actions := by
  induction actions generalizing start requestId with
  | nil =>
      rw [← Option.some.inj reached]
      simp [auditTrail]
  | cons action actions ih =>
      cases taken : Node.step environment config start action with
      | none => simp [Machine.run, taken] at reached
      | some next =>
          rw [run_cons actions taken] at reached
          obtain ⟨later, logged⟩ := step_logs counts taken
          rw [ih later reached, logged, List.append_assoc]
          rfl

end Requests

section Trail

variable {environment : Environment} {config : Config}

/-- The request is one of the run, and was logged under this number. -/
theorem mem_audit_trail {policy : AuthorizationConfig} {event : AuditEvent} {requestId : UInt64}
    {actions : List Action} (logged : event ∈ auditTrail policy requestId actions) :
    ∃ request plan number, Action.request request plan ∈ actions ∧
      event = auditEvent policy number request := by
  induction actions generalizing requestId with
  | nil => cases logged
  | cons action actions ih =>
      rw [auditTrail, List.mem_append] at logged
      rcases logged with now | later
      · cases action with
        | request request plan =>
            exact ⟨request, plan, requestId, by simp, List.mem_singleton.mp now⟩
        | boot | bootstrap | reenroll | load | listen | tick | crash => cases now
      · obtain ⟨request, plan, number, member, same⟩ := ih later
        exact ⟨request, plan, number, List.mem_cons_of_mem _ member, same⟩

theorem audit_trail_mem {policy : AuthorizationConfig} {request : Request}
    {plan : Plan ApplyStep} (requestId : UInt64) {actions : List Action}
    (taken : Action.request request plan ∈ actions) :
    ∃ number, auditEvent policy number request ∈ auditTrail policy requestId actions := by
  induction actions generalizing requestId with
  | nil => cases taken
  | cons action actions ih =>
      rcases List.mem_cons.mp taken with rfl | later
      · exact ⟨requestId, by simp [auditTrail, auditOf]⟩
      · obtain ⟨number, member⟩ := ih (nextNumber requestId action) later
        exact ⟨number, List.mem_append_right _ member⟩

end Trail

section Denied

variable {environment : Environment} {config : Config} {state other next : State}

/-- The middleware does not turn the action down. -/
def admitted (policy : AuthorizationConfig) : Action → Bool
  | .request request _ => (judge (requiredRole request.method request.path)
      (granted policy request)).1
  | _ => true

/-- The same phase, up to the number of the next request. -/
inductive SamePhase : Phase → Phase → Prop where
  | same (phase : Phase) : SamePhase phase phase
  | serving (identity : Identity) (number requestId : UInt64) :
      SamePhase (.serving identity number) (.serving identity requestId)

theorem SamePhase.eq_of_idle {phase later : Phase} (alike : SamePhase phase later)
    (idle : ∀ identity number, phase ≠ .serving identity number) : later = phase := by
  cases alike with
  | same => rfl
  | serving identity number requestId => exact absurd rfl (idle identity number)

theorem SamePhase.of_serving {identity : Identity} {number : UInt64} {later : Phase}
    (alike : SamePhase (.serving identity number) later) :
    ∃ requestId, later = .serving identity requestId := by
  cases alike with
  | same => exact ⟨number, rfl⟩
  | serving identity number requestId => exact ⟨requestId, rfl⟩

/-- `other` is what `state` would be without some requests that were denied. -/
structure Twin (state other : State) : Prop where
  device : other.device = state.device
  phase : SamePhase state.phase other.phase
  answers : other.answers.Sublist state.answers

theorem Twin.setWorld (twin : Twin state other) (world : World) (phase : Phase) :
    Twin (state.setWorld world phase) (other.setWorld world phase) where
  device := by simp [State.setWorld, twin.device]
  phase := .same phase
  answers := twin.answers

theorem Twin.boot (twin : Twin state other) (draws : Draws) (now : Option Nat)
    (plan : Plan BootStep) :
    Twin (state.boot environment config draws now plan)
      (other.boot environment config draws now plan) := by
  unfold State.boot
  rw [twin.device]
  cases (beginRun environment config draws now).run plan state.device with
  | mk outcome device => cases outcome <;> exact ⟨rfl, .same _, twin.answers⟩

theorem Twin.bootstrap (twin : Twin state other) (server : BootstrapServer) (fresh : KeyPair)
    (plan : Plan EnrollStep) (tpm : Option TpmIdentity) (failures : Nat) :
    Twin (state.bootstrap environment.pki config server fresh plan tpm failures)
      (other.bootstrap environment.pki config server fresh plan tpm failures) := by
  simp only [State.bootstrap, twin.device]
  exact twin.setWorld _ _

theorem Twin.reenroll (twin : Twin state other) (server : EstServer) (fresh : KeyPair)
    (plan : Plan EnrollStep) (tpm : Option TpmIdentity) (failures : Nat) :
    Twin (state.reenroll environment.pki config server fresh plan tpm failures)
      (other.reenroll environment.pki config server fresh plan tpm failures) := by
  simp only [State.reenroll, twin.device]
  exact twin.setWorld _ _

theorem Twin.load (twin : Twin state other) (plan : Plan LoadStep) (tpm : Option TpmIdentity) :
    Twin (state.load environment.pki config plan tpm)
      (other.load environment.pki config plan tpm) := by
  unfold State.load
  rw [twin.device]
  cases (loadIdentity environment.pki config tpm).run plan state.device.world with
  | mk outcome world => cases outcome <;> exact twin.setWorld _ _

theorem Twin.listen (twin : Twin state other) (plan : Plan ListenStep) (identity : Identity) :
    Twin (state.listen environment config plan identity)
      (other.listen environment config plan identity) := by
  unfold State.listen
  rw [twin.device]
  cases (Node.listen environment config).run plan state.device.disk with
  | mk outcome disk => cases outcome <;> exact twin.setWorld _ _

theorem Twin.tick (twin : Twin state other) (server : EstServer) (fresh : KeyPair)
    (now : Option Nat) (plan : Plan LoopStep) (identity : Identity)
    {resume later : Identity → Phase} (same : ∀ identity, SamePhase (resume identity)
      (later identity)) :
    Twin (state.tick environment.pki config server fresh now plan identity resume)
      (other.tick environment.pki config server fresh now plan identity later) := by
  unfold State.tick
  rw [twin.device]
  cases (RenewalLoop.tick environment.pki server fresh now config identity.tpm).run
      plan ⟨state.device.world, identity.cert.current⟩ with
  | mk outcome after =>
      cases outcome with
      | killed => exact twin.setWorld _ _
      | ok report => exact ⟨by simp [State.setWorld, twin.device], same _, twin.answers⟩
      | err error => exact ⟨by simp [State.setWorld, twin.device], same _, twin.answers⟩

/-- What a request that is let through does does not depend on its number. -/
theorem Twin.request (twin : Twin state other) {request : Request} (plan : Plan ApplyStep)
    (identity : Identity) (number requestId : UInt64)
    (allowed : Allowed config.authorization request) :
    Twin (state.request environment config request plan identity number)
      (other.request environment config request plan identity requestId) := by
  have result (audit : List AuditEvent) (number : UInt64) :=
    authorize_allowed config.authorization request allowed (handler environment config plan)
      ⟨number, audit, ⟨state.device.disk, some forbidden⟩⟩
  obtain ⟨answer, passed⟩ := result state.audit number
  obtain ⟨answer', passed'⟩ := result other.audit requestId
  simp only [State.request, twin.device, passed, passed', answer, answer']
  cases (handler environment config plan request ⟨state.device.disk, some forbidden⟩).2.answer with
  | none => exact ⟨rfl, .same _, twin.answers⟩
  | some response => exact ⟨rfl, .serving _ _ _, twin.answers.append (.refl _)⟩

/-- An action that is let through does the same without the requests that were
not. -/
theorem step_twin {action : Action} (twin : Twin state other)
    (admits : admitted config.authorization action = true)
    (taken : Node.step environment config state action = some next) :
    ∃ later, Node.step environment config other action = some later ∧ Twin next later := by
  have phase := twin.phase
  cases action with
  | crash =>
      rw [← Option.some.inj taken]
      exact ⟨_, rfl, twin.device, .same _, twin.answers⟩
  | request request plan =>
      have allowed := (judge_allowed_iff config.authorization request).mp admits
      simp only [Node.step] at taken ⊢
      split at taken
      · rename_i identity number here
        rw [here] at phase
        obtain ⟨requestId, there⟩ := phase.of_serving
        rw [there, ← Option.some.inj taken]
        exact ⟨_, rfl, twin.request plan _ _ _ allowed⟩
      · cases taken
  | boot draws now plan =>
      simp only [Node.step] at taken ⊢
      split at taken
      · rename_i here
        rw [here] at phase
        rw [phase.eq_of_idle (by simp), ← Option.some.inj taken]
        exact ⟨_, rfl, twin.boot draws now plan⟩
      · cases taken
  | bootstrap server fresh plan =>
      simp only [Node.step] at taken ⊢
      split at taken
      · rename_i tpm failures here
        rw [here] at phase
        rw [phase.eq_of_idle (by simp), ← Option.some.inj taken]
        exact ⟨_, rfl, twin.bootstrap server fresh plan tpm failures⟩
      · cases taken
  | reenroll server fresh plan =>
      simp only [Node.step] at taken ⊢
      split at taken
      · rename_i tpm failures here
        rw [here] at phase
        rw [phase.eq_of_idle (by simp), ← Option.some.inj taken]
        exact ⟨_, rfl, twin.reenroll server fresh plan tpm failures⟩
      · cases taken
  | load plan =>
      simp only [Node.step] at taken ⊢
      split at taken
      · rename_i tpm here
        rw [here] at phase
        rw [phase.eq_of_idle (by simp), ← Option.some.inj taken]
        exact ⟨_, rfl, twin.load plan tpm⟩
      · cases taken
  | listen plan =>
      simp only [Node.step] at taken ⊢
      split at taken
      · rename_i identity here
        rw [here] at phase
        rw [phase.eq_of_idle (by simp), ← Option.some.inj taken]
        exact ⟨_, rfl, twin.listen plan identity⟩
      · cases taken
  | tick server fresh now plan =>
      simp only [Node.step] at taken ⊢
      split at taken
      · rename_i identity here
        rw [here] at phase
        rw [phase.eq_of_idle (by simp), ← Option.some.inj taken]
        exact ⟨_, rfl, twin.tick server fresh now plan identity fun _ => .same _⟩
      · rename_i identity number here
        rw [here] at phase
        obtain ⟨requestId, there⟩ := phase.of_serving
        rw [there, ← Option.some.inj taken]
        exact ⟨_, rfl, twin.tick server fresh now plan identity fun _ => .serving _ _ _⟩
      · cases taken

/-- A denied request leaves nothing but its audit event and its 403. -/
theorem denied_twin {request : Request} {plan : Plan ApplyStep} (twin : Twin state other)
    (denied : ¬Allowed config.authorization request)
    (taken : Node.step environment config state (.request request plan) = some next) :
    Twin next other := by
  obtain ⟨identity, number, here, does⟩ := request_taken taken
  obtain ⟨device, answers⟩ := does.denied denied
  have phase := twin.phase
  rw [here] at phase
  obtain ⟨requestId, there⟩ := phase.of_serving
  refine ⟨twin.device.trans device.symm, ?_, ?_⟩
  · rw [there, does.up denied]
    exact .serving _ _ _
  · rw [answers]
    exact twin.answers.trans (List.sublist_append_left _ _)

theorem run_twin {actions : List Action} {final : State} (twin : Twin state other)
    (reached : Machine.run (Node.step environment config) state actions = some final) :
    ∃ ending, Machine.run (Node.step environment config) other
        (actions.filter (admitted config.authorization)) = some ending ∧ Twin final ending := by
  induction actions generalizing state other with
  | nil =>
      rw [← Option.some.inj reached]
      exact ⟨other, rfl, twin⟩
  | cons action actions ih =>
      cases taken : Node.step environment config state action with
      | none => simp [Machine.run, taken] at reached
      | some next =>
          rw [run_cons actions taken] at reached
          cases admits : admitted config.authorization action with
          | true =>
              obtain ⟨later, followed, twins⟩ := step_twin twin admits taken
              rw [List.filter_cons_of_pos admits, run_cons _ followed]
              exact ih twins reached
          | false =>
              rw [List.filter_cons_of_neg (by simp [admits])]
              cases action with
              | request request plan =>
                  have denied : ¬Allowed config.authorization request := by
                    intro allowed
                    have passes : admitted config.authorization (.request request plan) = true :=
                      (judge_allowed_iff ..).mpr allowed
                    cases admits.symm.trans passes
                  exact ih (denied_twin twin denied taken) reached
              | boot | bootstrap | reenroll | load | listen | tick | crash => cases admits

end Denied

section Runs

variable (environment : Environment) (config : Config) {start final : State}
  {actions : List Action}

/-- Without the requests that were denied, a run ends with the same device and
in the same phase, and has given the other answers. -/
theorem denied_requests_invisible
    (reached : Machine.run (Node.step environment config) start actions = some final) :
    ∃ ending, Machine.run (Node.step environment config) start
        (actions.filter (admitted config.authorization)) = some ending ∧
      ending.device = final.device ∧ SamePhase final.phase ending.phase ∧
      ending.answers.Sublist final.answers := by
  obtain ⟨ending, followed, twin⟩ := run_twin ⟨rfl, .same _, .refl _⟩ reached
  exact ⟨ending, followed, twin.device, twin.phase, twin.answers⟩

end Runs

section Sample

/-- One subject that may look, and one that may configure. -/
def auditedConfig : Config :=
  { testConfig with authorization := ⟨[⟨.viewer, ["monitor"]⟩, ⟨.operator, ["admin"]⟩]⟩ }

def servingNode : State where
  device := ⟨[], ⟨Disk.empty, []⟩⟩
  phase := .serving ⟨none, ⟨auditedConfig.certFile, keySource auditedConfig none, ⟨[], []⟩⟩, []⟩ 1
  audit := []
  answers := []

/-- `PUT /v1/config` of a subject. -/
def putRequest (name : String) : Request := ⟨.put, "/v1/config", some ⟨some name⟩, []⟩

def auditedActions : List Action :=
  [.request (putRequest "monitor") Plan.allDone, .request (putRequest "admin") Plan.allDone]

theorem denied_requests_invisible_sample :
    ∃ final ending, Machine.run (Node.step fixtureEnvironment auditedConfig) servingNode
        auditedActions = some final ∧
      Machine.run (Node.step fixtureEnvironment auditedConfig) servingNode
        [.request (putRequest "admin") Plan.allDone] = some ending ∧
      ending.device = final.device := by
  obtain ⟨final, reached⟩ : ∃ final, Machine.run (Node.step fixtureEnvironment auditedConfig)
      servingNode auditedActions = some final := ⟨_, rfl⟩
  obtain ⟨ending, followed, device, -, -⟩ :=
    denied_requests_invisible fixtureEnvironment auditedConfig reached
  exact ⟨final, ending, reached, followed, device⟩

end Sample

end NodeOs.Noded.AuditLog
