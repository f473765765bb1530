import NodeOs.Noded.AuditLog
import NodeOs.Noded.BearerToken

/-!
# Who can change the workload's configuration

The node intent and the files rendered from it change only by a request of an
operator that is in the audit log, or by the start of a server that renders such
an intent again.
-/

namespace NodeOs.Noded.Mediation

open NodeOs.Library NodeOs.Library.FaultPlan NodeOs.Library.FaultPlan.Proc
open NodeOs.Library.Machine (run_preserves_past)
open NodeOs.Noded.FileSystem NodeOs.Noded.WriteAtomic NodeOs.Noded.Enrollment
open NodeOs.Noded.Bootstrap NodeOs.Noded.Node NodeOs.Noded.Footprint NodeOs.Noded.AuditLog
open NodeOs.Noded.Reconcile NodeOs.Noded.Authorization NodeOs.Noded.Workload
open NodeOs.Noded.Pkcs11 NodeOs.Noded.BearerToken

section Workload

/-- What a profile renders from an intent. -/
def rendered : Profile → NodeIntent → List Write
  | .k8s, intent => renderings intent
  | .kvm, _ => []

theorem rendered_target {profile : Profile} {intent : NodeIntent} {write : Write}
    (member : write ∈ rendered profile intent) : write.target ≠ .nodeIntent := by
  cases profile with
  | k8s => exact renderings_target intent write member
  | kvm => cases member

theorem kvm_put_config_performs {json : IntentJson} {fromPem : FromPem} {intent : NodeIntent}
    {serialized : Bytes} (valid : intent.validate fromPem = .ok ())
    (encoded : json.toVecPretty intent = .ok serialized) :
    Performs (putConfig json .kvm fromPem intent) [⟨.nodeIntent, serialized⟩]
      fun response => response.status = 200 := by
  rw [putConfig, valid, encoded]
  show Performs _ ([⟨.nodeIntent, serialized⟩] ++ ([] ++ [])) _
  refine .bind (.attempt (.write _ _)) ?_ ?_
  · rintro _ ⟨value, rfl, -⟩
    have idle : Performs (reconcile .kvm fromPem (some intent)) [] fun _ => True := .ret ()
    refine .bind (.attempt idle) ?_ ?_
    · rintro _ ⟨value, rfl, -⟩
      exact .ret _
    · rintro (error | value) bad
      · exact ⟨_, rfl, by simp⟩
      · exact absurd ⟨value, rfl, trivial⟩ bad
  · rintro (error | value) bad
    · exact ⟨_, rfl, by simp⟩
    · exact absurd ⟨value, rfl, trivial⟩ bad

theorem profile_put_config_performs {json : IntentJson} {fromPem : FromPem}
    {intent : NodeIntent} {serialized : Bytes} (profile : Profile)
    (valid : intent.validate fromPem = .ok ())
    (encoded : json.toVecPretty intent = .ok serialized) :
    Performs (putConfig json profile fromPem intent)
      (⟨.nodeIntent, serialized⟩ :: rendered profile intent) fun response =>
        response.status = 200 := by
  cases profile with
  | k8s => exact put_config_performs valid encoded
  | kvm => exact kvm_put_config_performs valid encoded

variable {environment : Environment} {config : Config}

/-- All that a handler can do to the four files: a beginning of the writes of a
valid intent that came as the body of `PUT /v1/config`. -/
theorem handle_cells (request : Request) (plan : Plan ApplyStep) (disk : Disk) :
    cells ((handle environment config request).run plan disk).2 = cells disk ∨
      ∃ intent serialized count, request.method = .put ∧ request.path = "/v1/config" ∧
        environment.extract request = .ok intent ∧
        intent.validate environment.pki.fromPem = .ok () ∧
        environment.json.toVecPretty intent = .ok serialized ∧
        cells ((handle environment config request).run plan disk).2 = applyWrites
          ((⟨.nodeIntent, serialized⟩ :: rendered config.profile intent).take count)
          (cells disk) := by
  unfold handle
  split
  · rename_i route
    cases extracted : environment.extract request with
    | error rejection => exact Or.inl rfl
    | ok intent =>
        simp only
        cases checked : intent.validate environment.pki.fromPem with
        | error err =>
            obtain ⟨response, same, -⟩ := put_config_refused environment.json config.profile
              environment.pki.fromPem intent (Or.inl ⟨err, checked⟩)
            rw [same]
            exact Or.inl rfl
        | ok passed =>
            cases encoded : environment.json.toVecPretty intent with
            | error err =>
                obtain ⟨response, same, -⟩ := put_config_refused environment.json config.profile
                  environment.pki.fromPem intent (Or.inr ⟨err, encoded⟩)
                rw [same]
                exact Or.inl rfl
            | ok serialized =>
                obtain ⟨count, -, after, -⟩ :=
                  profile_put_config_performs config.profile checked encoded plan disk
                exact Or.inr ⟨intent, serialized, count, route.1, route.2, rfl, checked, encoded,
                  after⟩
  · exact Or.inl rfl

theorem listen_disk (plan : Plan ListenStep) (disk : Disk) :
    ((Node.listen environment config).run plan disk).2 =
      ((bootReconcile environment.json config.profile environment.pki.fromPem).run
        (plan.at .workload) disk).2 := by
  unfold Node.listen
  rw [run_bind, run_relabel]
  cases (bootReconcile environment.json config.profile environment.pki.fromPem).run
      (plan.at .workload) disk with
  | mk outcome after =>
      cases outcome with
      | ok value => exact run_check_state _ _ _ _
      | err error => rfl
      | killed => rfl

/-- All that the start of the server can do to them: a beginning of the
renderings of the valid intent that is persisted. -/
theorem listen_cells (plan : Plan ListenStep) (disk : Disk) :
    cells ((Node.listen environment config).run plan disk).2 = cells disk ∨
      ∃ intent count, persisted environment.json (cells disk) = some intent ∧
        intent.validate environment.pki.fromPem = .ok () ∧
        cells ((Node.listen environment config).run plan disk).2 =
          applyWrites ((rendered config.profile intent).take count) (cells disk) := by
  rw [listen_disk]
  cases config.profile with
  | kvm =>
      have kept : Preserves (fun later => cells later = cells disk)
          (bootReconcile environment.json .kvm environment.pki.fromPem) := by
        unfold bootReconcile
        refine .bind ?_ fun found => .bind (.attempt (.ret _)) fun _ => .ret _
        intro plan later same
        rwa [(load_node_intent_result _ _ _).1]
      exact Or.inl (kept _ _ rfl)
  | k8s =>
      obtain ⟨desired, count, source, after⟩ := (boot_reconcile_result environment.json
        environment.pki.fromPem (plan.at .workload) disk).files
      rcases boot_writes_cases environment.pki.fromPem desired with
        none | ⟨intent, rfl, valid, same⟩
      · rw [none, List.take_nil] at after
        exact Or.inl after
      · rw [same] at after
        exact Or.inr ⟨intent, count, source intent rfl, valid, after⟩

end Workload

section Provenance

variable {environment : Environment} {config : Config} {initial : Cells} {past : List Action}
  {state next : State} {action : Action}

/-- The files of the node's identity stand apart from the workload's. -/
structure WorkloadApart (config : Config) : Prop where
  identity : ∀ written ∈ [config.certFile, config.keyFile, config.clientCa],
    ∀ target ∈ workloadTargets .k8s, target.path ≠ written ∧ written.tempPath ≠ some target.path
  pin : ∀ cfg ∈ config.tpm, ∀ target ∈ workloadTargets .k8s, target.path ≠ cfg.pinFile

/-- The subject of the request is bound to a role that may configure the node. -/
def ByOperator (policy : AuthorizationConfig) (request : Request) : Prop :=
  ∃ name role, request.subject = some name ∧ Binds policy role name ∧
    Role.operator.level ≤ role.level

/-- An operator's request has brought the valid intent, and is in the log. -/
def Ordered (environment : Environment) (config : Config) (past : List Action)
    (audit : List AuditEvent) (intent : NodeIntent) : Prop :=
  ∃ request plan number, Action.request request plan ∈ past ∧
    request.method = .put ∧ request.path = "/v1/config" ∧
    ByOperator config.authorization request ∧
    auditEvent config.authorization number request ∈ audit ∧
    environment.extract request = .ok intent ∧
    intent.validate environment.pki.fromPem = .ok ()

/-- What may be written after the actions of `past`. -/
def Granted (environment : Environment) (config : Config) (initial : Cells) (past : List Action)
    (audit : List AuditEvent) (write : Write) : Prop :=
  if write.target = .nodeIntent then
    ∃ intent, Ordered environment config past audit intent ∧
      environment.json.toVecPretty intent = .ok write.data
  else
    ∃ intent, (Ordered environment config past audit intent ∨
        persisted environment.json initial = some intent) ∧
      intent.validate environment.pki.fromPem = .ok () ∧ write ∈ rendered config.profile intent

/-- Every file is as it was at first, or holds what was granted. -/
def Mediated (environment : Environment) (config : Config) (initial : Cells) (past : List Action)
    (state : State) : Prop :=
  ∀ target, cells state.device.disk target = initial target ∨
    ∃ data, cells state.device.disk target = some data ∧
      Granted environment config initial past state.audit ⟨target, data⟩

theorem by_operator_of_allowed {policy : AuthorizationConfig} {request : Request}
    (put : request.method = .put) (path : request.path = "/v1/config")
    (allowed : Allowed policy request) : ByOperator policy request := by
  rcases allowed with ⟨get, -⟩ | ⟨name, role, subject, bound, enough⟩
  · cases put.symm.trans get
  · refine ⟨name, role, subject, bound, ?_⟩
    simpa [requirement, put, path] using enough

theorem Ordered.later {audit : List AuditEvent} {intent : NodeIntent}
    (ordered : Ordered environment config past audit intent) (more : List Action)
    (events : List AuditEvent) :
    Ordered environment config (past ++ more) (audit ++ events) intent := by
  obtain ⟨request, plan, number, taken, put, path, operator, logged, extracted, valid⟩ := ordered
  exact ⟨request, plan, number, List.mem_append_left _ taken, put, path, operator,
    List.mem_append_left _ logged, extracted, valid⟩

theorem Granted.later {audit : List AuditEvent} {write : Write}
    (granted : Granted environment config initial past audit write) (more : List Action)
    (events : List AuditEvent) :
    Granted environment config initial (past ++ more) (audit ++ events) write := by
  unfold Granted at granted ⊢
  split
  · rename_i intended
    rw [if_pos intended] at granted
    obtain ⟨intent, ordered, encoded⟩ := granted
    exact ⟨intent, ordered.later more events, encoded⟩
  · rename_i other
    rw [if_neg other] at granted
    obtain ⟨intent, source, rest⟩ := granted
    exact ⟨intent, source.imp_left fun ordered => ordered.later more events, rest⟩

theorem mediated_of_writes {writes : List Write} {events : List AuditEvent}
    (mediated : Mediated environment config initial past state)
    (audit : next.audit = state.audit ++ events)
    (after : cells next.device.disk = applyWrites writes (cells state.device.disk))
    (granted : ∀ write ∈ writes,
      Granted environment config initial (past ++ [action]) next.audit write) :
    Mediated environment config initial (past ++ [action]) next := by
  intro target
  rw [after]
  rcases apply_writes_mem writes (cells state.device.disk) target with
    kept | ⟨write, member, rfl, data⟩
  · rw [kept]
    apply (mediated target).imp_right
    rintro ⟨data, held, source⟩
    rw [audit]
    exact ⟨data, held, source.later [action] events⟩
  · exact Or.inr ⟨write.data, data, granted write member⟩

theorem mediated_of_kept {events : List AuditEvent}
    (mediated : Mediated environment config initial past state)
    (audit : next.audit = state.audit ++ events)
    (kept : cells next.device.disk = cells state.device.disk) :
    Mediated environment config initial (past ++ [action]) next :=
  mediated_of_writes mediated audit (show _ = applyWrites [] _ from kept) (by simp)

theorem target_listed (target : Target) : target ∈ workloadTargets .k8s := by
  cases target <;> decide

theorem cells_put {disk : Disk} {path : Path} (file : Option File)
    (apart : ∀ target ∈ workloadTargets .k8s, target.path ≠ path) :
    cells (disk.put path file) = cells disk := by
  funext target
  unfold cells Disk.content
  rw [Disk.put_files, Function.update_of_ne (apart target (target_listed target))]

theorem write_atomic_keeps_cells {written : Path}
    (apart : ∀ target ∈ workloadTargets .k8s,
      target.path ≠ written ∧ written.tempPath ≠ some target.path)
    (data : Bytes) (isPrivate : Bool) (before : Cells) :
    Preserves (fun disk => cells disk = before) (writeAtomic written data isPrivate) := by
  intro plan disk same
  rw [← same]
  funext target
  obtain ⟨other, temp⟩ := apart target (target_listed target)
  apply Disk.content_congr
  rw [(write_atomic_result written data isPrivate plan disk).files]
  exact apply_elsewhere _ other temp

theorem open_node_key_keeps_cells (apart : WorkloadApart config) (draws : Draws)
    (before : Cells) :
    Preserves (fun device : Device => cells device.disk = before)
      (openNodeKey environment.provider draws config) := by
  refine @open_node_key_preserves (fun disk => cells disk = before) _ _ _ ?_ ?_
  · intro cfg configured disk made _ same
    exact same
  · intro cfg configured
    refine ⟨fun disk parent made _ _ same => same, fun disk file same => ?_⟩
    rw [cells_put _ (apart.pin cfg configured)]
    exact same

theorem reenroll_keeps_cells (apart : WorkloadApart config) (server : EstServer)
    (fresh : KeyPair) (tpm : Option TpmIdentity) (before : Cells) :
    Preserves (onDisk fun disk => cells disk = before)
      (reenroll environment.pki server fresh config tpm) := by
  apply reenroll_preserves
  · intro certificate pem _ _
    exact write_atomic_keeps_cells (apart.identity _ (by simp)) _ _ _
  · intro _
    exact write_atomic_keeps_cells (apart.identity _ (by simp)) _ _ _

theorem bootstrap_enroll_keeps_cells (apart : WorkloadApart config) (server : BootstrapServer)
    (fresh : KeyPair) (tpm : Option TpmIdentity) (before : Cells) :
    Preserves (onDisk fun disk => cells disk = before)
      (bootstrapEnroll environment.pki server fresh config tpm) := by
  apply bootstrap_enroll_preserves
  · intro certificate pem _ _
    exact write_atomic_keeps_cells (apart.identity _ (by simp)) _ _ _
  · intro _
    exact write_atomic_keeps_cells (apart.identity _ (by simp)) _ _ _
  · intro pem
    exact write_atomic_keeps_cells (apart.identity _ (by simp)) _ _ _

/-- A step that is neither a request nor the start of the server. -/
theorem step_keeps_cells (apart : WorkloadApart config)
    (noRequest : ∀ request plan, action ≠ .request request plan)
    (noListen : ∀ plan, action ≠ .listen plan)
    (taken : Node.step environment config state action = some next) :
    cells next.device.disk = cells state.device.disk := by
  have does := step_does taken
  cases action with
  | request request plan => exact absurd rfl (noRequest request plan)
  | listen plan => exact absurd rfl (noListen plan)
  | boot draws now plan =>
      obtain ⟨-, device, -⟩ := does
      rw [device]
      exact open_node_key_keeps_cells apart draws _ plan state.device rfl
  | bootstrap server fresh plan =>
      obtain ⟨tpm, failures, -, device, -⟩ := does
      rw [device]
      exact bootstrap_enroll_keeps_cells apart server fresh tpm _ plan state.device.world rfl
  | reenroll server fresh plan =>
      obtain ⟨tpm, failures, -, device, -⟩ := does
      rw [device]
      exact reenroll_keeps_cells apart server fresh tpm _ plan state.device.world rfl
  | tick server fresh now plan =>
      obtain ⟨identity, -, device, -⟩ := does
      rw [device]
      exact tick_preserves now (reenroll_keeps_cells apart server fresh identity.tpm _) plan _ rfl
  | load plan =>
      obtain ⟨tpm, -, device, -⟩ := does
      rw [device]
  | crash =>
      obtain ⟨device, -⟩ := does
      rw [device]

theorem request_mediated {request : Request} {plan : Plan ApplyStep}
    (mediated : Mediated environment config initial past state)
    (taken : Node.step environment config state (.request request plan) = some next) :
    Mediated environment config initial (past ++ [.request request plan]) next := by
  obtain ⟨identity, number, -, does⟩ := request_taken taken
  by_cases allowed : Allowed config.authorization request
  · have device := does.handled allowed
    have written : next.device.disk =
        ((handle environment config request).run plan state.device.disk).2 := by
      rw [device]
      rfl
    rcases handle_cells request plan state.device.disk with
      kept | ⟨intent, serialized, count, put, path, extracted, valid, encoded, after⟩
    · exact mediated_of_kept mediated does.logged (by rw [written, kept])
    · have ordered : Ordered environment config (past ++ [.request request plan]) next.audit
          intent := by
        refine ⟨request, plan, number, by simp, put, path, ?_, ?_, extracted, valid⟩
        · exact by_operator_of_allowed put path allowed
        · rw [does.logged]
          simp
      refine mediated_of_writes mediated does.logged (by rw [written, after]) fun write member => ?_
      rcases List.mem_cons.mp (List.mem_of_mem_take member) with rfl | inside
      · unfold Granted
        rw [if_pos rfl]
        exact ⟨intent, ordered, encoded⟩
      · unfold Granted
        rw [if_neg (rendered_target inside)]
        exact ⟨intent, Or.inl ordered, valid, inside⟩
  · obtain ⟨device, -⟩ := does.denied allowed
    exact mediated_of_kept mediated does.logged (by rw [device])

/-- The intent that is persisted was ordered, or was there at first. -/
theorem persisted_source {intent : NodeIntent} (roundTrip : environment.json.RoundTrip)
    (mediated : Mediated environment config initial past state)
    (found : persisted environment.json (cells state.device.disk) = some intent) :
    Ordered environment config past state.audit intent ∨
      persisted environment.json initial = some intent := by
  rcases mediated .nodeIntent with kept | ⟨data, held, granted⟩
  · right
    unfold persisted at found ⊢
    rwa [kept] at found
  · left
    unfold Granted at granted
    rw [if_pos rfl] at granted
    obtain ⟨other, ordered, encoded⟩ := granted
    unfold persisted at found
    rw [held, Option.bind_some, roundTrip other data encoded] at found
    rwa [← Option.some.inj found]

theorem listen_mediated {plan : Plan ListenStep} (roundTrip : environment.json.RoundTrip)
    (mediated : Mediated environment config initial past state)
    (taken : Node.step environment config state (.listen plan) = some next)
    (audit : next.audit = state.audit ++ []) :
    Mediated environment config initial (past ++ [.listen plan]) next := by
  obtain ⟨identity, -, device, -⟩ := step_does taken
  have written : next.device.disk =
      ((Node.listen environment config).run plan state.device.disk).2 := by
    rw [device]
    rfl
  rcases listen_cells plan state.device.disk with kept | ⟨intent, count, found, valid, after⟩
  · exact mediated_of_kept mediated audit (by rw [written, kept])
  · refine mediated_of_writes mediated audit (by rw [written, after]) fun write member => ?_
    have inside := List.mem_of_mem_take member
    unfold Granted
    rw [if_neg (rendered_target inside)]
    refine ⟨intent, ?_, valid, inside⟩
    rw [audit]
    exact (persisted_source roundTrip mediated found).imp_left fun ordered => ordered.later _ _

theorem exists_counts (phase : Phase) : ∃ requestId, CountsFrom requestId phase := by
  cases phase with
  | serving identity number =>
      refine ⟨number, fun other later same => ?_⟩
      cases same
      rfl
  | down | bootstrapping | renewing | loading | reconciling => exact ⟨1, by simp [CountsFrom]⟩

theorem step_mediated (apart : WorkloadApart config) (roundTrip : environment.json.RoundTrip)
    (mediated : Mediated environment config initial past state)
    (taken : Node.step environment config state action = some next) :
    Mediated environment config initial (past ++ [action]) next := by
  obtain ⟨requestId, counts⟩ := exists_counts state.phase
  obtain ⟨-, logged⟩ := step_logs counts taken
  cases action with
  | request request plan => exact request_mediated mediated taken
  | listen plan => exact listen_mediated roundTrip mediated taken logged
  | boot | bootstrap | reenroll | load | tick | crash =>
      exact mediated_of_kept mediated logged
        (step_keeps_cells apart (by simp) (by simp) taken)

end Provenance

section Sample

theorem audited_config_apart : WorkloadApart auditedConfig where
  identity := by decide
  pin := by simp [auditedConfig, testConfig]

end Sample

end NodeOs.Noded.Mediation
