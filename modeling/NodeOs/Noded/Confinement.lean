import NodeOs.Noded.BearerToken
import NodeOs.Noded.BootstrapPair

/-!
# What the daemon leaves on the disk

Every write of a run of the daemon is one of a few: the files of its identity, those
of its workload, the PIN of its token and the directories around them. An invariant of
the disk that each of them preserves holds after every run. Two follow: no other entry
of the disk ever changes, and what is secret can be read by its owner alone.
-/

namespace NodeOs.Noded.Confinement

open NodeOs.Library NodeOs.Library.FaultPlan NodeOs.Library.FaultPlan.Proc
open NodeOs.Noded.FileSystem NodeOs.Noded.WriteAtomic NodeOs.Noded.Enrollment
open NodeOs.Noded.Bootstrap NodeOs.Noded.ServedIdentity
open NodeOs.Noded.RenewalLoop hiding State
open NodeOs.Noded.Pkcs11 NodeOs.Noded.TokenProvisioning NodeOs.Noded.Reconcile
open NodeOs.Noded.Workload NodeOs.Noded.Node NodeOs.Noded.Footprint

section Token

variable {invariant : Disk → Prop} {cfg : TpmPkcs11Config}

/-- What the writes of the PIN file preserve, with the mode it has. -/
structure PinWritesPreserve (invariant : Disk → Prop) (cfg : TpmPkcs11Config) : Prop where
  dirs : ∀ disk parent made, cfg.pinFile.parent = some parent →
    (∀ dir ∈ made, dir ∈ parent.enclosing) → invariant disk → invariant (disk.makeDirs made)
  file : ∀ disk content, invariant disk → invariant (disk.put cfg.pinFile
    (some ⟨content, ((disk.files cfg.pinFile).map File.mode).getD 0o600⟩))

theorem filled_preserves (pinned : PinWritesPreserve invariant cfg) {state : OpenState}
    (content : Bytes) (holds : besideToken invariant state) :
    besideToken invariant (fillFile cfg.pinFile content state) := by
  unfold besideToken fillFile
  cases there : state.disk.files cfg.pinFile with
  | none =>
      have same : state.disk.put cfg.pinFile none = state.disk := by
        rw [← there]
        simp [Disk.put]
      simp only [Option.map_none, same]
      exact holds
  | some file =>
      have filled := pinned.file state.disk content holds
      rwa [there] at filled

theorem pin_written_preserves (pinned : PinWritesPreserve invariant cfg) (pin : String) :
    Preserves (besideToken invariant) (writePin cfg.pinFile pin) := by
  have made : Preserves (besideToken invariant) (makePinDir cfg.pinFile) := by
    unfold makePinDir
    cases parented : cfg.pinFile.parent with
    | none => exact .ret ()
    | some parent =>
        apply Preserves.step
        · intro state holds
          exact pinned.dirs _ _ _ parented (fun _ inside => inside) holds
        · intro extent state holds
          exact pinned.dirs _ _ _ parented (fun _ => List.mem_of_mem_take) holds
  have created : Preserves (besideToken invariant) (createPin cfg.pinFile) := by
    apply call_preserves
    intro state after holds truncated
    unfold truncateFile at truncated
    split at truncated
    · cases truncated
    · rw [← Option.some.inj truncated]
      exact pinned.file state.disk [] holds
  have synced : Preserves (besideToken invariant)
      (ignore (check .syncPin [osError]) : Open Unit) := by
    intro plan state holds
    rwa [sync_pin_state]
  exact .bind made fun _ => .bind created fun _ =>
    .bind (.step (fun _ => filled_preserves pinned _) fun _ _ => filled_preserves pinned _)
      fun _ => synced

theorem opened_preserves (pinned : PinWritesPreserve invariant cfg) (provider : Provider)
    (draws : Draws) : Preserves (besideToken invariant) (openIdentity provider draws cfg) := by
  have found : Preserves (besideToken invariant) (findSlot cfg) :=
    .of_keeps find_slot_keeps fun before after same holds => by
      rwa [show after = before from same]
  have provisioned : Preserves (besideToken invariant) (provisionToken cfg draws) :=
    .bind found fun _ => .bind (slot_call_preserves _ _ _ _) fun _ =>
      .bind (set_user_pin_preserves _ _ _) fun _ =>
      .bind (pin_written_preserves pinned _) fun _ => .ret _
  have keyed (slot : Nat) : Preserves (besideToken invariant)
      (ensureKey slot cfg.keyLabel draws.newKey) := by
    refine .bind (query_preserves _ _ _) fun found => ?_
    cases found with
    | some key => exact .ret _
    | none => exact .bind (slot_call_preserves _ _ _ _) fun _ => .ret _
  have obtained : Preserves (besideToken invariant) (obtainPin draws cfg) := by
    refine .bind (.of_keeps (file_exists_keeps _ _) fun before after same holds => by
      rwa [show after = before from same]) fun there => ?_
    cases there with
    | true => exact .bind (query_preserves _ _ _) fun _ => .ret _
    | false => exact provisioned
  exact .bind obtained fun _ => .bind (query_preserves _ _ _) fun slot =>
    .bind (keyed slot) fun _ => .ret _

end Token

/-- The server hands out this text as the bundle of a bootstrap. -/
def Delivers (pki : Pki) (config : Config) (server : BootstrapServer) (data : Bytes) : Prop :=
  ∃ caPem pem,
    let answer :=
      server.cacerts (estClientConfig config (.bearer config.enrollment.est.bearerToken) caPem)
    answer ≠ [] ∧ encodeBundle pki answer = .ok pem ∧ data = asBytes pem

/-- What every write of the daemon preserves, if the bundles it is given are all of a kind.
The key file is written only by a node whose key is not in the token. -/
structure WritesPreserve (bundle : Bytes → Prop) (invariant : Disk → Prop) (config : Config) :
    Prop where
  store : ∀ cfg, config.tpm = some cfg → ∀ disk made,
    (∀ dir ∈ made, dir ∈ cfg.store.enclosing) → invariant disk → invariant (disk.makeDirs made)
  pin : ∀ cfg, config.tpm = some cfg → PinWritesPreserve invariant cfg
  cert : ∀ data, Preserves invariant (writeAtomic config.certFile data false)
  key : config.tpm = none → ∀ data, Preserves invariant (writeAtomic config.keyFile data true)
  clientCa : ∀ data, bundle data → Preserves invariant (writeAtomic config.clientCa data false)
  targets : TargetsPreserve invariant config.profile

/-- The bundles of an action are of the kind. -/
def BundlesOf (pki : Pki) (config : Config) (bundle : Bytes → Prop) (action : Action) : Prop :=
  ∀ server fresh plan, action = .bootstrap server fresh plan →
    ∀ data, Delivers pki config server data → bundle data

/-- The key the daemon holds is of the configured kind. -/
def KeyKind (config : Config) (phase : Phase) : Prop :=
  ∀ tpm, phase.key = some tpm → (tpm = none ↔ config.tpm = none)

/-- An invariant of the disk, as one of the whole state. -/
structure Holds (invariant : Disk → Prop) (config : Config) (state : State) : Prop where
  disk : invariant state.device.disk
  kind : KeyKind config state.phase

section Runs

variable {bundle : Bytes → Prop} {invariant : Disk → Prop} {environment : Environment}
  {config : Config} {state next : State} {action : Action}

theorem kind_of_ends {phase : Phase} {tpm : Option TpmIdentity}
    (kind : tpm = none ↔ config.tpm = none)
    (ends : phase = .down ∨ phase.key = some tpm) : KeyKind config phase := by
  intro other held
  rcases ends with down | settled
  · rw [down] at held
    cases held
  · rw [settled] at held
    rwa [← Option.some.inj held]

theorem node_key_preserves (writes : WritesPreserve bundle invariant config) (provider : Provider)
    (draws : Draws) :
    Preserves (fun device => invariant device.disk) (openNodeKey provider draws config) := by
  unfold openNodeKey
  cases configured : config.tpm with
  | none => exact .ret _
  | some cfg =>
      have made : Preserves (fun device => invariant device.disk) (createStore cfg) := by
        apply Preserves.step
        · intro device holds
          exact writes.store cfg configured _ _ (fun _ inside => inside) holds
        · intro extent device holds
          exact writes.store cfg configured _ _ (fun _ => List.mem_of_mem_take) holds
      exact .bind made fun _ => .bind (.mapError (.focus (fun _ holds => holds)
        (fun _ _ _ holds => holds)
        (.relabel (opened_preserves (writes.pin cfg configured) provider draws)))) fun _ =>
        .ret _

theorem renewed_preserves (writes : WritesPreserve bundle invariant config) (pki : Pki)
    (server : EstServer) (fresh : KeyPair) {tpm : Option TpmIdentity}
    (kind : tpm = none ↔ config.tpm = none) :
    Preserves (onDisk invariant) (reenroll pki server fresh config tpm) :=
  reenroll_preserves (fun _ _ _ _ => writes.cert _) fun software =>
    writes.key (kind.mp software) _

theorem identity_enrolled_preserves (writes : WritesPreserve bundle invariant config) (pki : Pki)
    (server : BootstrapServer) (fresh : KeyPair) (client : EstClientConfig)
    {tpm : Option TpmIdentity} (kind : tpm = none ↔ config.tpm = none) :
    Preserves (onDisk invariant) (enrollIdentity pki server fresh config client tpm) := by
  cases tpm with
  | some identity =>
      exact .bind (keeps_disk_preserves (request_identity_tpm_keeps server config identity client))
        fun _ => write_cert_only_preserves fun _ _ => writes.cert _
  | none =>
      exact .bind (keeps_disk_preserves (request_identity_keeps server config fresh client))
        fun _ => write_identity_preserves (fun _ _ => writes.cert _) (writes.key (kind.mp rfl) _)

/-- The bundle a bootstrap writes is the one the server has handed out. -/
theorem bootstrapped_preserves (writes : WritesPreserve bundle invariant config) (pki : Pki)
    (server : BootstrapServer) (fresh : KeyPair) {tpm : Option TpmIdentity}
    (kind : tpm = none ↔ config.tpm = none)
    (bundles : ∀ data, Delivers pki config server data → bundle data) :
    Preserves (onDisk invariant) (bootstrapEnroll pki server fresh config tpm) := by
  apply Preserves.bind_ok (keeps_disk_preserves (open_bootstrap_keeps server config))
  intro plan world value opened
  obtain ⟨client, caCerts⟩ := value
  obtain ⟨-, -, -, -, -, caPem, -, rfl, rfl, filled⟩ := (open_bootstrap_ok_iff ..).mp opened
  apply Preserves.bind (identity_enrolled_preserves writes pki server fresh _ kind)
  intro _
  unfold writeClientCa
  refine Preserves.bind_ok (.ofExcept _) ?_
  intro plan world pem returned
  have encoded := (run_ofExcept_ok_iff ..).mp returned
  exact write_file_preserves _ _ (writes.clientCa _ (bundles _ ⟨caPem, pem, filled, encoded, rfl⟩))

/-- Whatever a step does, what all writes preserve is preserved. -/
theorem step_preserves (writes : WritesPreserve bundle invariant config)
    (holds : Holds invariant config state)
    (bundles : BundlesOf environment.pki config bundle action)
    (taken : Node.step environment config state action = some next) :
    Holds invariant config next := by
  have does := step_does taken
  cases action with
  | boot draws now plan =>
      obtain ⟨-, device, ends⟩ := does
      refine ⟨?_, ?_⟩
      · rw [device]
        exact node_key_preserves writes _ draws plan state.device holds.disk
      · rcases ends with down | ⟨tpm, opened, settled | ⟨bootstrapping, -⟩⟩
        · rw [down]
          exact fun tpm held => by cases held
        · exact kind_of_ends (BearerToken.open_node_key_kind opened) (.inr settled.key)
        · rw [bootstrapping]
          exact kind_of_ends (BearerToken.open_node_key_kind opened) (.inr rfl)
  | bootstrap server fresh plan =>
      obtain ⟨tpm, failures, phase, device, ends⟩ := does
      have kind := holds.kind tpm (by rw [phase]; rfl)
      refine ⟨?_, kind_of_ends kind ends⟩
      rw [device]
      exact bootstrapped_preserves writes _ server fresh kind (bundles server fresh plan rfl) plan
        state.device.world holds.disk
  | reenroll server fresh plan =>
      obtain ⟨tpm, failures, phase, device, ends⟩ := does
      have kind := holds.kind tpm (by rw [phase]; rfl)
      refine ⟨?_, kind_of_ends kind (ends.imp_right Settled.key)⟩
      rw [device]
      exact renewed_preserves writes _ server fresh kind plan state.device.world holds.disk
  | load plan =>
      obtain ⟨tpm, phase, device, ends⟩ := does
      have kind := holds.kind tpm (by rw [phase]; rfl)
      refine ⟨?_, kind_of_ends kind (ends.imp_right Settled.key)⟩
      rw [device]
      exact holds.disk
  | listen plan =>
      obtain ⟨identity, phase, device, ends⟩ := does
      have kind := holds.kind identity.tpm (by rw [phase]; rfl)
      refine ⟨?_, kind_of_ends kind (ends.imp_right Settled.key)⟩
      rw [device]
      exact listen_preserves writes.targets plan state.device.disk holds.disk
  | tick server fresh now plan =>
      obtain ⟨identity, phase, device, ends⟩ := does
      have kind := holds.kind identity.tpm phase
      refine ⟨?_, kind_of_ends kind (ends.imp_right Settled.key)⟩
      rw [device]
      exact tick_preserves now (renewed_preserves writes _ server fresh kind) plan _ holds.disk
  | request request plan =>
      obtain ⟨identity, number, phase, device, ends⟩ := does
      have kind := holds.kind identity.tpm (by rw [phase]; rfl)
      refine ⟨?_, kind_of_ends kind (ends.imp_right Settled.key)⟩
      rcases device with kept | written
      · rw [kept]
        exact holds.disk
      · rw [written]
        exact handle_preserves writes.targets request plan state.device.disk holds.disk
  | crash =>
      obtain ⟨device, down⟩ := does
      refine ⟨?_, ?_⟩
      · rw [device]
        exact holds.disk
      · rw [down]
        exact fun tpm held => by cases held

theorem run_preserves (writes : WritesPreserve bundle invariant config) {start final : State}
    {actions : List Action} (holds : Holds invariant config start)
    (bundles : ∀ action ∈ actions, BundlesOf environment.pki config bundle action)
    (reached : Machine.run (Node.step environment config) start actions = some final) :
    Holds invariant config final := by
  have guarded : Machine.Guarded (Node.step environment config)
      (fun _ action => BundlesOf environment.pki config bundle action) start actions :=
    Machine.guarded_of_actions fun _ => bundles
  exact Machine.run_preserves
    (fun _ _ _ held delivered taken => step_preserves writes held delivered taken) holds guarded
    reached

end Runs

section Frame

variable {config : Config} {path : Path}

/-- The files the daemon writes under a temporary name first. -/
def replaced (config : Config) : List Path :=
  config.certFile :: config.clientCa :: (if config.tpm.isSome then [] else [config.keyFile]) ++
    (workloadTargets config.profile).map Target.path

/-- No write of the daemon can be seen at the path. -/
structure Outside (config : Config) (path : Path) : Prop where
  files : ∀ written ∈ replaced config, Spares written path
  token : ∀ cfg ∈ config.tpm, path ≠ cfg.pinFile ∧ path ∉ cfg.store.enclosing ∧
    ∀ parent ∈ cfg.pinFile.parent, path ∉ parent.enclosing

theorem outside_write {written : Path} {before : Option File × Bool} (spares : Spares written path)
    (data : Bytes) (isPrivate : Bool) :
    Preserves (fun disk => entry path disk = before) (writeAtomic written data isPrivate) :=
  .of_keeps (write_atomic_keeps spares data isPrivate) fun _ _ same held => same.trans held

theorem outside_writes (outside : Outside config path) (before : Option File × Bool) :
    WritesPreserve (fun _ => True) (fun disk => entry path disk = before) config where
  store cfg configured disk made inside same := by
    have away := (outside.token cfg configured).2.1
    rw [make_dirs_entry fun listed => away (inside path listed), same]
  pin cfg configured :=
    { dirs := fun disk parent made parented inside same => by
        have away := (outside.token cfg configured).2.2 parent parented
        rw [make_dirs_entry fun listed => away (inside path listed), same]
      file := fun disk content same => by
        rw [put_entry _ (outside.token cfg configured).1, same] }
  cert data := outside_write (outside.files _ (by simp [replaced])) data false
  key software data := outside_write (outside.files _ (by simp [replaced, software])) data true
  clientCa data _ := outside_write (outside.files _ (by simp [replaced])) data false
  targets target listed data := by
    have own : target.path ∈ replaced config := by
      rw [replaced]
      exact List.mem_append_right _ (List.mem_map_of_mem listed)
    exact outside_write (outside.files _ own) data target.isPrivate

end Frame

section Secrets

variable {config : Config}

/-- The files that are replaced under a temporary name only their owner can read. -/
def privateFiles (config : Config) : List Path :=
  (if config.tpm.isSome then [] else [config.keyFile]) ++
    ((workloadTargets config.profile).filter Target.isPrivate).map Target.path

def publicFiles (config : Config) : List Path :=
  config.certFile :: config.clientCa ::
    ((workloadTargets config.profile).filter (!Target.isPrivate ·)).map Target.path

/-- Where the node key, the PIN, the bootstrap token and the intent that carries it can be,
also when a write of them was cut. -/
def secretPaths (config : Config) : List Path :=
  privateFiles config ++ (privateFiles config).filterMap Path.tempPath ++
    config.tpm.toList.map TpmPkcs11Config.pinFile

/-- No public file is written at the path of a secret. -/
def PublicApart (config : Config) : Prop :=
  ∀ written ∈ publicFiles config, written ∉ secretPaths config ∧
    ∀ temp ∈ written.tempPath, temp ∉ secretPaths config

/-- Whatever stands at these paths can be read by its owner alone. -/
def OwnerOnly (paths : List Path) (disk : Disk) : Prop :=
  ∀ path ∈ paths, ∀ file, disk.files path = some file → file.mode = 0o600

theorem own_temp {written temp : Path} (own : written ∈ privateFiles config)
    (staged : written.tempPath = some temp) : temp ∈ secretPaths config := by
  rw [secretPaths, List.append_assoc]
  exact List.mem_append_right _ (List.mem_append_left _ (List.mem_filterMap.mpr ⟨_, own, staged⟩))

/-- A private write makes its temporary file for the owner alone, or takes over one that
was so before; the rename keeps the mode. -/
theorem private_write {written : Path} (own : written ∈ privateFiles config) (data : Bytes) :
    Preserves (OwnerOnly (secretPaths config)) (writeAtomic written data true) := by
  intro plan disk held path listed file there
  rw [(write_atomic_result written data true plan disk).files] at there
  have mode {temp : Path} (staged : written.tempPath = some temp) :
      tempMode disk temp true = 0o600 := by
    unfold tempMode
    cases old : disk.files temp with
    | none => rfl
    | some other => exact held temp (own_temp own staged) other old
  cases staged : written.tempPath with
  | none =>
      have same : (progress written data plan).apply written data true disk path =
          disk.files path := by
        unfold Progress.apply
        rw [staged]
        cases progress written data plan <;> rfl
      rw [same] at there
      exact held path listed file there
  | some temp =>
      unfold Progress.apply at there
      rw [staged] at there
      cases moved : progress written data plan with
      | untouched =>
          rw [moved] at there
          exact held path listed file there
      | staged bytes =>
          simp only [moved, Function.update_apply] at there
          split at there
          · rw [← Option.some.inj there]
            exact mode staged
          · exact held path listed file there
      | replaced =>
          simp only [moved, Function.update_apply] at there
          split at there
          · cases there
          split at there
          · rw [← Option.some.inj there]
            exact mode staged
          · exact held path listed file there

theorem public_write {written : Path} (apart : PublicApart config)
    (own : written ∈ publicFiles config) (data : Bytes) :
    Preserves (OwnerOnly (secretPaths config)) (writeAtomic written data false) := by
  intro plan disk held path listed file there
  obtain ⟨notSecret, tempNotSecret⟩ := apart written own
  rw [(write_atomic_result written data false plan disk).files] at there
  refine held path listed file ?_
  rw [← there, apply_elsewhere]
  · rintro rfl
    exact notSecret listed
  · intro staged
    exact tempNotSecret path staged listed

theorem make_dirs_owner_only {paths made : List Path} {disk : Disk}
    (held : OwnerOnly paths disk) : OwnerOnly paths (disk.makeDirs made) := by
  intro path listed file there
  rw [Disk.make_dirs_files] at there
  exact held path listed file there

theorem pin_owner_only {cfg : TpmPkcs11Config} (configured : config.tpm = some cfg) :
    PinWritesPreserve (OwnerOnly (secretPaths config)) cfg where
  dirs _ _ _ _ _ := make_dirs_owner_only
  file disk content held path listed file there := by
    have secret : cfg.pinFile ∈ secretPaths config := by
      rw [secretPaths, configured]
      simp
    rw [Disk.put_files, Function.update_apply] at there
    split at there
    · rw [← Option.some.inj there]
      cases old : disk.files cfg.pinFile with
      | none => rfl
      | some other => exact held _ secret other old
    · exact held path listed file there

theorem secret_writes (apart : PublicApart config) :
    WritesPreserve (fun _ => True) (OwnerOnly (secretPaths config)) config where
  store _ _ _ _ _ := make_dirs_owner_only
  pin _ configured := pin_owner_only configured
  cert data := public_write apart (by simp [publicFiles]) data
  key software data := private_write (by simp [privateFiles, software]) data
  clientCa data _ := public_write apart (by simp [publicFiles]) data
  targets target listed data := by
    cases secret : target.isPrivate with
    | true =>
        refine private_write (List.mem_append_right _ ?_) data
        exact List.mem_map_of_mem (List.mem_filter.mpr ⟨listed, secret⟩)
    | false =>
        refine public_write apart ?_ data
        refine List.mem_cons_of_mem _ (List.mem_cons_of_mem _ ?_)
        exact List.mem_map_of_mem (List.mem_filter.mpr ⟨listed, by rw [secret]; rfl⟩)

/-- However a run goes and wherever it is cut, no secret file can be read by others. -/
theorem secrets_owner_only (environment : Environment) (config : Config)
    (apart : PublicApart config) {start final : State} {actions : List Action}
    (down : start.phase = .down) (initially : OwnerOnly (secretPaths config) start.device.disk)
    (reached : Machine.run (Node.step environment config) start actions = some final) :
    OwnerOnly (secretPaths config) final.device.disk := by
  have kind : KeyKind config start.phase := by
    rw [down]
    exact fun tpm held => by cases held
  exact (run_preserves (secret_writes apart) ⟨initially, kind⟩
    (fun _ _ _ _ _ _ _ _ => trivial) reached).disk

end Secrets

section Sample

open NodeOs.Noded.BootstrapPair NodeOs.Noded.IdentityPair NodeOs.Noded.TokenProvisioning

theorem secrets_owner_only_sample :
    OwnerOnly (secretPaths testConfig) (bootstrapped Plan.allDone).device.disk := by
  refine secrets_owner_only keyEnvironment testConfig ?_ rfl ?_ (first_boot_run Plan.allDone)
  · unfold PublicApart
    decide
  · have modes : ∀ path ∈ secretPaths testConfig,
        ((keyOnlyDisk.files path).map File.mode).getD 0o600 = 0o600 := by decide
    intro path listed file there
    have mode := modes path listed
    rw [show keyOnlyNode.device.disk = keyOnlyDisk from rfl] at there
    rwa [there] at mode

end Sample

end NodeOs.Noded.Confinement
