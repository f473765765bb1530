import NodeOs.Noded.Node

/-!
# Which files a process touches

A write touches its path, the temporary name beside it, and the directories
around it. What the writes of a process preserve, the process preserves: there
is one lemma for each process, for any invariant of the disk.
-/

namespace NodeOs.Noded.Footprint

open NodeOs.Library.FaultPlan NodeOs.Library.FaultPlan.Proc
open NodeOs.Noded.FileSystem NodeOs.Noded.WriteAtomic NodeOs.Noded.Enrollment
open NodeOs.Noded.Bootstrap NodeOs.Noded.RenewalLoop NodeOs.Noded.ServedIdentity
open NodeOs.Noded.Pkcs11 NodeOs.Noded.TokenProvisioning NodeOs.Noded.Reconcile
open NodeOs.Noded.Workload NodeOs.Noded.Node NodeOs.Noded.Authorization

/-- What stands at a path. -/
def entry (path : Path) (disk : Disk) : Option File × Bool := (disk.files path, disk.dirs path)

/-- A write to `written` cannot be seen at `path`. -/
structure Spares (written path : Path) : Prop where
  other : path ≠ written
  temp : written.tempPath ≠ some path
  dirs : ∀ parent ∈ written.parent, path ∉ parent.enclosing

instance (written path : Path) : Decidable (Spares written path) :=
  decidable_of_iff (path ≠ written ∧ written.tempPath ≠ some path ∧
      ∀ parent ∈ written.parent, path ∉ parent.enclosing)
    ⟨fun ⟨other, temp, dirs⟩ => ⟨other, temp, dirs⟩, fun spares =>
      ⟨spares.other, spares.temp, spares.dirs⟩⟩

/-- None of the files is another one, its temporary file, or a directory around
it. -/
def Separate (paths : List Path) : Prop :=
  paths.Pairwise fun first second => Spares first second ∧ Spares second first

instance (paths : List Path) : Decidable (Separate paths) :=
  inferInstanceAs (Decidable (paths.Pairwise _))

theorem make_dirs_keeps_existing {disk : Disk} {path : Path} (made : List Path)
    (there : entryExists disk path = true) : entryExists (disk.makeDirs made) path = true := by
  unfold entryExists at there ⊢
  cases Bool.or_eq_true_iff.mp there with
  | inl filed => simp [filed]
  | inr dir => simp [Disk.makeDirs, dir]

theorem put_keeps_existing {disk : Disk} {path : Path} (other : Path) (file : File)
    (there : entryExists disk path = true) :
    entryExists (disk.put other (some file)) path = true := by
  unfold entryExists at there ⊢
  rw [Disk.put_files, Function.update_apply]
  split
  · rfl
  · exact there

theorem make_dirs_entry {disk : Disk} {path : Path} {made : List Path} (outside : path ∉ made) :
    entry path (disk.makeDirs made) = entry path disk := by
  simp [entry, Disk.makeDirs, outside]

theorem put_entry {disk : Disk} {path other : Path} (file : Option File) (apart : path ≠ other) :
    entry path (disk.put other file) = entry path disk := by
  simp [entry, Disk.put, apart]

section WriteAtomic

variable {written path : Path} {data : Bytes} {isPrivate : Bool}

theorem entry_exists_congr {before after : Disk} (same : entry path after = entry path before) :
    entryExists after path = entryExists before path := by
  unfold entry at same
  unfold entryExists
  rw [(Prod.mk.inj same).1, (Prod.mk.inj same).2]

theorem entry_content {before after : Disk} (same : entry path after = entry path before) :
    after.content path = before.content path :=
  Disk.content_congr (Prod.mk.inj same).1

theorem write_atomic_keeps_dirs (outside : ∀ parent ∈ written.parent, path ∉ parent.enclosing)
    (data : Bytes) (isPrivate : Bool) :
    Keeps (fun disk => disk.dirs path) (writeAtomic written data isPrivate) := by
  intro plan disk
  have dirs := write_atomic_dirs written data isPrivate plan disk
  apply Bool.eq_iff_iff.mpr
  constructor
  · intro there
    cases dirs.2 path there with
    | inl old => exact old
    | inr made =>
        obtain ⟨parent, parented, inside⟩ := made
        exact absurd inside (outside parent parented)
  · exact dirs.1 path

theorem write_atomic_keeps (spares : Spares written path) (data : Bytes) (isPrivate : Bool) :
    Keeps (entry path) (writeAtomic written data isPrivate) := by
  intro plan disk
  have files := (write_atomic_result written data isPrivate plan disk).files
  unfold entry
  rw [files, apply_elsewhere _ spares.other spares.temp]
  exact Prod.ext rfl (write_atomic_keeps_dirs spares.dirs data isPrivate plan disk)

/-- Only the rename of a temporary file removes anything. -/
theorem write_atomic_keeps_existing (noTemp : written.tempPath ≠ some path) (data : Bytes)
    (isPrivate : Bool) :
    Preserves (fun disk => entryExists disk path = true) (writeAtomic written data isPrivate) := by
  intro plan disk there
  have files := (write_atomic_result written data isPrivate plan disk).files
  have dirs := (write_atomic_dirs written data isPrivate plan disk).1 path
  have kept : (disk.files path).isSome = true →
      (((writeAtomic written data isPrivate).run plan disk).2.files path).isSome = true := by
    intro filed
    rw [files]
    by_cases own : path = written
    · cases moved : progress written data plan with
      | untouched => exact filed
      | staged bytes => rw [own, apply_unreplaced (by simp), ← own, filed]
      | replaced =>
          obtain ⟨temp, staged⟩ := progress_has_temp (by rw [moved]; simp)
          rw [own, replaced_at_path staged]
          rfl
    · rw [apply_elsewhere _ own noTemp, filed]
  unfold entryExists at there ⊢
  cases Bool.or_eq_true_iff.mp there with
  | inl filed => rw [kept filed, Bool.true_or]
  | inr dir => rw [dirs dir, Bool.or_true]

end WriteAtomic

section Enrollment

variable {invariant : Disk → Prop} {pki : Pki} {fresh : KeyPair} {config : Config}

/-- The invariant of a disk as one of the world around it. -/
def onDisk (invariant : Disk → Prop) (world : World) : Prop := invariant world.disk

theorem write_file_preserves {path : Path} {data : Bytes} {isPrivate : Bool}
    (place : WriteStep → EnrollStep) (message : String)
    (writes : Preserves invariant (writeAtomic path data isPrivate)) :
    Preserves (onDisk invariant) (writeFile place message path data isPrivate) :=
  .mapError (.focus (fun _ holds => holds) (fun _ _ _ holds => holds) (.relabel writes))

theorem keeps_disk_preserves {Value : Type} {process : Enroll Value}
    (kept : Keeps World.disk process) : Preserves (onDisk invariant) process :=
  .of_keeps kept fun _ _ same holds => by rwa [onDisk, same]

/-- The server has certified a key. -/
def Certified (server : EstServer) (key : PublicKey) (certificate : Certificate) : Prop :=
  ∃ request, request.csr.publicKey = key ∧ server request = .issued certificate

theorem encode_cert_ok_iff (certificate : Certificate) (pem : String) :
    encodeCert pki certificate = .ok pem ↔ pki.toPem certificate = .ok pem :=
  map_error_ok_iff _ _ _

theorem write_cert_only_preserves {certificate : Certificate}
    (cert : ∀ pem, pki.toPem certificate = .ok pem →
      Preserves invariant (writeAtomic config.certFile (asBytes pem) false)) :
    Preserves (onDisk invariant) (writeCertOnly pki config certificate) := by
  unfold writeCertOnly
  refine Preserves.bind_ok (Preserves.ofExcept _) ?_
  intro plan world pem returned
  have encoded := (encode_cert_ok_iff certificate pem).mp ((run_ofExcept_ok_iff ..).mp returned)
  exact write_file_preserves _ _ (cert pem encoded)

theorem write_identity_preserves {certificate : Certificate} {keyPem : String}
    (cert : ∀ pem, pki.toPem certificate = .ok pem →
      Preserves invariant (writeAtomic config.certFile (asBytes pem) false))
    (key : Preserves invariant (writeAtomic config.keyFile (asBytes keyPem) true)) :
    Preserves (onDisk invariant) (writeIdentity pki config certificate keyPem) := by
  unfold writeIdentity
  refine Preserves.bind_ok (Preserves.ofExcept _) ?_
  intro plan world pem returned
  have encoded := (encode_cert_ok_iff certificate pem).mp ((run_ofExcept_ok_iff ..).mp returned)
  exact .bind (write_file_preserves _ _ (cert pem encoded)) fun _ => write_file_preserves _ _ key

theorem write_client_ca_preserves (caCerts : List Certificate)
    (ca : ∀ pem, Preserves invariant (writeAtomic config.clientCa (asBytes pem) false)) :
    Preserves (onDisk invariant) (writeClientCa pki config caCerts) :=
  .bind (.ofExcept _) fun pem => write_file_preserves _ _ (ca pem)

theorem cert_chain_keeps (path : Path) : Keeps World.disk (certChainFromPem pki path) := by
  apply Keeps.bind (read_file_keeps _ _ _)
  intro pem
  cases pki.certs pem with
  | error err => exact .raise _
  | ok chain =>
      cases chain with
      | nil => exact .raise _
      | cons leaf more => exact .ret _

theorem request_with_tpm_keeps (server : EstServer) (tpm : TpmIdentity) :
    Keeps World.disk (requestWithTpm pki server config tpm) :=
  .bind (cert_chain_keeps _) fun _ =>
  .bind (build_est_config_keeps _ _) fun _ =>
  .bind (new_client_keeps _) fun _ =>
  .bind (generate_node_csr_tpm_keeps _ _) fun _ =>
  .bind (simple_reenroll_keeps_disk _ _ _) fun _ => .ofExcept _

theorem request_with_tpm_certified {server : EstServer} {tpm : TpmIdentity}
    {plan : Plan EnrollStep} {world : World} {certificate : Certificate}
    (returned : ((requestWithTpm pki server config tpm).run plan world).1 = .ok certificate) :
    Certified server tpm.publicKey certificate := by
  simp only [requestWithTpm, run_bind_ok_iff, generateNodeCsrTpm, run_check_ok_iff, run_pure,
    Outcome.ok.injEq, run_simple_reenroll_ok_iff, run_ofExcept_ok_iff, issued_cert_ok_iff]
      at returned
  obtain ⟨chain, _, client, _, opened, _, csr, ⟨_, _, same⟩, response, ⟨_, answer⟩, issued⟩ :=
    returned
  refine ⟨⟨opened, csr⟩, ?_, answer.trans issued⟩
  rw [← same]
  rfl

theorem request_certified {server : EstServer} {plan : Plan EnrollStep} {world : World}
    {certificate : Certificate} {keyPem : String}
    (returned : ((requestWithKeyFile server fresh config).run plan world).1 =
      .ok (certificate, keyPem)) :
    Certified server fresh.publicKey certificate ∧ fresh.pem = keyPem := by
  have ⟨found, same⟩ := (request_ok_iff plan world server fresh config certificate keyPem).mp
    returned
  obtain ⟨-, request, asked, answer⟩ := (issued_eq_some_iff ..).mp found
  exact ⟨⟨request, request_for_public_key asked, answer⟩, same⟩

/-- The key that a call of the enrollment client has certified. -/
def enrolledKey (fresh : KeyPair) : Option TpmIdentity → PublicKey
  | some tpm => tpm.publicKey
  | none => fresh.publicKey

theorem reenroll_preserves {server : EstServer} {tpm : Option TpmIdentity}
    (cert : ∀ certificate pem, Certified server (enrolledKey fresh tpm) certificate →
      pki.toPem certificate = .ok pem →
        Preserves invariant (writeAtomic config.certFile (asBytes pem) false))
    (key : tpm = none →
      Preserves invariant (writeAtomic config.keyFile (asBytes fresh.pem) true)) :
    Preserves (onDisk invariant) (reenroll pki server fresh config tpm) := by
  cases tpm with
  | some identity =>
      apply Preserves.bind_ok (keeps_disk_preserves (request_with_tpm_keeps server identity))
      intro plan world certificate returned
      apply write_cert_only_preserves
      intro pem
      exact cert certificate pem (request_with_tpm_certified returned)
  | none =>
      apply Preserves.bind_ok (keeps_disk_preserves (request_keeps_disk server fresh config))
      intro plan world value returned
      obtain ⟨certificate, keyPem⟩ := value
      have ⟨certified, same⟩ := request_certified returned
      apply write_identity_preserves
      · intro pem
        exact cert certificate pem certified
      · rw [← same]
        exact key rfl

theorem bootstrap_enroll_preserves {server : BootstrapServer} {tpm : Option TpmIdentity}
    (cert : ∀ certificate pem, Certified server.simpleenroll (enrolledKey fresh tpm) certificate →
      pki.toPem certificate = .ok pem →
        Preserves invariant (writeAtomic config.certFile (asBytes pem) false))
    (key : tpm = none →
      Preserves invariant (writeAtomic config.keyFile (asBytes fresh.pem) true))
    (ca : ∀ pem, Preserves invariant (writeAtomic config.clientCa (asBytes pem) false)) :
    Preserves (onDisk invariant) (bootstrapEnroll pki server fresh config tpm) := by
  apply Preserves.bind (keeps_disk_preserves (open_bootstrap_keeps server config))
  intro value
  obtain ⟨client, caCerts⟩ := value
  apply Preserves.bind _ fun _ => write_client_ca_preserves caCerts ca
  cases tpm with
  | some identity =>
      apply Preserves.bind_ok (keeps_disk_preserves
        (request_identity_tpm_keeps server config identity client))
      intro plan world certificate returned
      have ⟨_, _, issued⟩ := (request_identity_tpm_ok_iff ..).mp returned
      apply write_cert_only_preserves
      intro pem
      exact cert certificate pem ⟨_, rfl, issued⟩
  | none =>
      apply Preserves.bind_ok (keeps_disk_preserves
        (request_identity_keeps server config fresh client))
      intro plan world value returned
      obtain ⟨certificate, keyPem⟩ := value
      have ⟨_, _, issued, same⟩ := (request_identity_ok_iff ..).mp returned
      apply write_identity_preserves
      · intro pem
        exact cert certificate pem ⟨_, rfl, issued⟩
      · rw [← same]
        exact key rfl

end Enrollment

section Workload

variable {invariant : Disk → Prop} {profile : Profile}

/-- The files a profile writes. -/
def workloadTargets : Profile → List Target
  | .k8s => [.nodeIntent, .clusterCa, .kubeletConfig, .bootstrapKubeconfig]
  | .kvm => [.nodeIntent]

def TargetsPreserve (invariant : Disk → Prop) (profile : Profile) : Prop :=
  ∀ target ∈ workloadTargets profile, ∀ data,
    Preserves invariant (writeAtomic target.path data target.isPrivate)

theorem write_target_preserves (targets : TargetsPreserve invariant profile) (target : Target)
    (listed : target ∈ workloadTargets profile) (data : Bytes) :
    Preserves invariant (writeTarget target data) :=
  .relabel (targets target listed data)

theorem reconcile_preserves (targets : TargetsPreserve invariant profile) (fromPem : FromPem)
    (desired : Option NodeIntent) : Preserves invariant (reconcile profile fromPem desired) := by
  cases profile with
  | kvm => exact .ret ()
  | k8s =>
      cases desired with
      | none => exact .ret ()
      | some intent =>
          exact .bind (.ofExcept _) fun _ =>
            .bind (.mapError (write_target_preserves targets .clusterCa (by decide) _)) fun _ =>
            .bind (.mapError (write_target_preserves targets .kubeletConfig (by decide) _)) fun _ =>
            .mapError (write_target_preserves targets .bootstrapKubeconfig (by decide) _)

theorem node_intent_listed (profile : Profile) : .nodeIntent ∈ workloadTargets profile := by
  cases profile <;> decide

theorem put_config_preserves (targets : TargetsPreserve invariant profile) (json : IntentJson)
    (fromPem : FromPem) (intent : NodeIntent) :
    Preserves invariant (putConfig json profile fromPem intent) := by
  unfold putConfig
  cases intent.validate fromPem with
  | error err => exact .ret _
  | ok passed =>
      cases json.toVecPretty intent with
      | error err => exact .ret _
      | ok serialized =>
          refine .bind (.attempt (write_target_preserves targets .nodeIntent
            (node_intent_listed profile) serialized)) fun persisted => ?_
          cases persisted with
          | error err => exact .ret _
          | ok value =>
              refine .bind (.attempt (reconcile_preserves targets fromPem (some intent)))
                fun applied => ?_
              cases applied <;> exact .ret _

theorem boot_reconcile_preserves (targets : TargetsPreserve invariant profile) (json : IntentJson)
    (fromPem : FromPem) : Preserves invariant (bootReconcile json profile fromPem) := by
  have loads : Preserves invariant (loadNodeIntent json) := by
    intro plan disk holds
    rwa [(load_node_intent_result json plan disk).1]
  exact .bind loads fun persisted =>
    .bind (.attempt (reconcile_preserves targets fromPem persisted)) fun _ => .ret _

theorem listen_preserves {environment : Environment} {config : Config}
    (targets : TargetsPreserve invariant config.profile) :
    Preserves invariant (Node.listen environment config) :=
  .bind (.relabel (boot_reconcile_preserves targets _ _)) fun _ => .check _ _

theorem handle_preserves {environment : Environment} {config : Config}
    (targets : TargetsPreserve invariant config.profile) (request : Request) :
    Preserves invariant (handle environment config request) := by
  unfold handle
  split
  · cases environment.extract request with
    | error rejection => exact .ret _
    | ok intent => exact put_config_preserves targets _ _ _
  · exact .ret _

end Workload

section Renewal

variable {invariant : Disk → Prop} {pki : Pki}

theorem reload_keeps_world (pki : Pki) (certPath : Path) (source : KeySource) :
    Keeps LoopState.world (reload pki certPath source) := by
  have built : Keeps LoopState.world (buildCertifiedKey pki certPath source) := by
    intro plan state
    exact congrArg LoopState.world (build_certified_key_keeps pki certPath source plan state)
  exact .bind built fun _ => .step (fun _ => rfl) fun _ _ => rfl

/-- The reload after a re-enrollment leaves the world alone. -/
theorem renew_world (server : EstServer) (fresh : KeyPair) (config : Config)
    (tpm : Option TpmIdentity) (plan : Plan LoopStep) (state : LoopState) :
    ((renew pki server fresh config tpm).run plan state).2.world =
      ((reenroll pki server fresh config tpm).run (plan.at .enroll) state.world).2 := by
  rw [renew, run_bind, run_attempt, run_focus, run_relabel]
  cases ran : (reenroll pki server fresh config tpm).run (plan.at .enroll) state.world with
  | mk outcome after =>
      cases outcome with
      | err error => rfl
      | killed => rfl
      | ok value =>
          have kept := (reload_keeps_world pki config.certFile
            (keySource config tpm)).attempt plan (setWorld after state)
          simp only [run_bind]
          cases loaded : (attempt (reload pki config.certFile (keySource config tpm))).run plan
              (setWorld after state) with
          | mk answer later =>
              rw [loaded] at kept
              cases answer with
              | err error => exact kept
              | killed => exact kept
              | ok result => cases result <;> exact kept

/-- A tick preserves what its re-enrollment preserves. -/
theorem tick_preserves {server : EstServer} {fresh : KeyPair} {config : Config}
    {tpm : Option TpmIdentity} (now : Option Nat)
    (enrolls : Preserves (onDisk invariant) (reenroll pki server fresh config tpm)) :
    Preserves (fun state => onDisk invariant state.world)
      (RenewalLoop.tick pki server fresh now config tpm) := by
  have reads : Preserves (fun state => onDisk invariant state.world)
      (certNeedsRenewal pki config.certFile now) :=
    .of_keeps (cert_needs_renewal_keeps pki config.certFile now) fun before after same holds => by
      rwa [show after = before from same]
  have reloads : Preserves (fun state : LoopState => onDisk invariant state.world)
      (reload pki config.certFile (keySource config tpm)) :=
    .of_keeps (reload_keeps_world _ _ _) fun before after same holds => by rwa [same]
  have renews : Preserves (fun state => onDisk invariant state.world)
      (renew pki server fresh config tpm) := by
    refine .bind (.attempt (.focus (fun _ holds => holds) (fun _ _ _ holds => holds)
      (.relabel enrolls))) fun enrolled => ?_
    cases enrolled with
    | error err => exact .ret _
    | ok value =>
        refine .bind (.attempt reloads) fun loaded => ?_
        cases loaded <;> exact .ret _
  refine .bind (.attempt reads) fun due => ?_
  cases due with
  | error err => exact .ret _
  | ok answer =>
      cases answer with
      | true => exact renews
      | false => exact .ret _

end Renewal

section Token

variable {invariant : Disk → Prop} {cfg : TpmPkcs11Config}

/-- What the PIN file's writes preserve. -/
structure PinPreserves (invariant : Disk → Prop) (cfg : TpmPkcs11Config) : Prop where
  dirs : ∀ disk parent made, cfg.pinFile.parent = some parent →
    (∀ dir ∈ made, dir ∈ parent.enclosing) → invariant disk → invariant (disk.makeDirs made)
  file : ∀ disk file, invariant disk → invariant (disk.put cfg.pinFile (some file))

/-- The invariant of a disk as one of the state in which the token is opened. -/
def besideToken (invariant : Disk → Prop) (state : OpenState) : Prop := invariant state.disk

theorem call_preserves {inside : OpenState → Prop} {label : OpenStep} {error : Error}
    {effect : OpenState → Option OpenState}
    (taken : ∀ state after, inside state → effect state = some after → inside after) :
    Preserves inside (call label error effect) := by
  apply Preserves.step
  · intro state holds
    cases effected : effect state with
    | none => exact holds
    | some after => exact taken state after holds effected
  · intro extent state holds
    by_cases unbegun : extent = 0
    · rwa [if_pos unbegun]
    · rw [if_neg unbegun]
      cases effected : effect state with
      | none => exact holds
      | some after => exact taken state after holds effected

theorem query_preserves {inside : OpenState → Prop} {Value : Type} (label : OpenStep)
    (error : Error) (answer : OpenState → Option Value) :
    Preserves inside (query label error answer) :=
  .of_keeps (query_keeps label error answer) fun before after same holds => by
    rwa [show after = before from same]

/-- A call on a slot leaves the disk alone. -/
theorem slot_call_preserves (label : OpenStep) (error : Error) (index : Nat)
    (change : Slot → Option Slot) :
    Preserves (besideToken invariant) (call label error (onSlot index change)) := by
  apply call_preserves
  intro state after holds changed
  obtain ⟨slot, new, -, -, rfl⟩ := (on_slot_eq_some_iff ..).mp changed
  exact holds

theorem fill_file_preserves (pin : PinPreserves invariant cfg) {state : OpenState}
    (content : Bytes) (holds : besideToken invariant state) :
    besideToken invariant (fillFile cfg.pinFile content state) := by
  unfold besideToken fillFile
  cases there : state.disk.files cfg.pinFile with
  | some file => exact pin.file _ _ holds
  | none =>
      have same : state.disk.put cfg.pinFile none = state.disk := by
        rw [← there]
        simp [Disk.put]
      simp only [Option.map_none, same]
      exact holds

theorem write_pin_preserves (pinned : PinPreserves invariant cfg) (pin : String) :
    Preserves (besideToken invariant) (writePin cfg.pinFile pin) := by
  have made : Preserves (besideToken invariant) (makePinDir cfg.pinFile) := by
    unfold makePinDir
    cases parented : cfg.pinFile.parent with
    | none => exact .ret ()
    | some parent =>
        apply Preserves.step
        · intro state holds
          exact pinned.dirs _ _ _ parented (fun _ inside => inside) holds
        · intro extent state holds
          exact pinned.dirs _ _ _ parented (fun _ => List.mem_of_mem_take) holds
  have created : Preserves (besideToken invariant) (createPin cfg.pinFile) := by
    apply call_preserves
    intro state after holds truncated
    unfold truncateFile at truncated
    split at truncated
    · cases truncated
    · rw [← Option.some.inj truncated]
      exact pinned.file _ _ holds
  have synced : Preserves (besideToken invariant)
      (ignore (check .syncPin [osError]) : Open Unit) := by
    intro plan state holds
    rwa [sync_pin_state]
  exact .bind made fun _ => .bind created fun _ =>
    .bind (.step (fun _ => fill_file_preserves pinned _) fun _ _ => fill_file_preserves pinned _)
      fun _ => synced

theorem set_user_pin_preserves (slot : Nat) (soPin userPin : String) :
    Preserves (besideToken invariant) (setUserPin slot soPin userPin) :=
  .bind (.check _ _) fun _ => .bind (slot_call_preserves _ _ _ _) fun _ =>
    .bind (slot_call_preserves _ _ _ _) fun _ => .check _ _

theorem provision_token_preserves (pinned : PinPreserves invariant cfg) (draws : Draws) :
    Preserves (besideToken invariant) (provisionToken cfg draws) := by
  have found : Preserves (besideToken invariant) (findSlot cfg) :=
    .of_keeps find_slot_keeps fun before after same holds => by
      rwa [show after = before from same]
  exact .bind found fun _ => .bind (slot_call_preserves _ _ _ _) fun _ =>
    .bind (set_user_pin_preserves _ _ _) fun _ =>
    .bind (write_pin_preserves pinned _) fun _ => .ret _

theorem file_exists_keeps (label : OpenStep) (path : Path) : Keeps id (fileExists label path) := by
  refine Keeps.bind (Keeps.attempt (Keeps.check _ _)) fun checked => ?_
  cases checked with
  | error err => exact .ret _
  | ok value => exact .observe _

theorem open_identity_preserves (pinned : PinPreserves invariant cfg) (provider : Provider)
    (draws : Draws) :
    Preserves (besideToken invariant) (openIdentity provider draws cfg) := by
  have keyed (slot : Nat) : Preserves (besideToken invariant)
      (ensureKey slot cfg.keyLabel draws.newKey) := by
    refine .bind (query_preserves _ _ _) fun found => ?_
    cases found with
    | some key => exact .ret _
    | none => exact .bind (slot_call_preserves _ _ _ _) fun _ => .ret _
  have obtained : Preserves (besideToken invariant) (obtainPin draws cfg) := by
    refine .bind (.of_keeps (file_exists_keeps _ _) fun before after same holds => by
      rwa [show after = before from same]) fun provisioned => ?_
    cases provisioned with
    | true => exact .bind (query_preserves _ _ _) fun _ => .ret _
    | false => exact provision_token_preserves pinned draws
  exact .bind obtained fun _ => .bind (query_preserves _ _ _) fun slot =>
    .bind (keyed slot) fun _ => .ret _

/-- Opening the node's key adds the directories of the store, and what opening
the token leaves. -/
theorem open_node_key_preserves {config : Config} (provider : Provider) (draws : Draws)
    (stored : ∀ cfg, config.tpm = some cfg → ∀ disk made,
      (∀ dir ∈ made, dir ∈ cfg.store.enclosing) → invariant disk → invariant (disk.makeDirs made))
    (pinned : ∀ cfg, config.tpm = some cfg → PinPreserves invariant cfg) :
    Preserves (fun device => invariant device.disk) (openNodeKey provider draws config) := by
  unfold openNodeKey
  cases configured : config.tpm with
  | none => exact .ret _
  | some cfg =>
      have made : Preserves (fun device => invariant device.disk) (createStore cfg) := by
        apply Preserves.step
        · intro device holds
          exact stored cfg configured _ _ (fun _ inside => inside) holds
        · intro extent device holds
          exact stored cfg configured _ _ (fun _ => List.mem_of_mem_take) holds
      exact .bind made fun _ => .bind (.mapError (.focus (fun _ holds => holds)
        (fun _ _ _ holds => holds)
        (.relabel (open_identity_preserves (pinned cfg configured) provider draws)))) fun _ =>
        .ret _

end Token

end NodeOs.Noded.Footprint
