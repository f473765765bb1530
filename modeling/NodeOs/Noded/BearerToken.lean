import NodeOs.Noded.Footprint

/-!
# The bootstrap token after enrollment

`bootstrap_enroll` is the only reader of the token, and `run` calls it only when
the node's PKI is not found. As long as no file of the PKI is removed, and the
file system says that it is there, two nodes that differ in the token alone
behave alike.
-/

namespace NodeOs.Noded.BearerToken

open NodeOs.Library.FaultPlan NodeOs.Library.Machine
open NodeOs.Noded.FileSystem NodeOs.Noded.WriteAtomic NodeOs.Noded.Enrollment
open NodeOs.Noded.Bootstrap NodeOs.Noded.Node NodeOs.Noded.Footprint NodeOs.Noded.Reconcile
open NodeOs.Noded.IdentityPair NodeOs.Noded.TokenProvisioning

def withToken (token : String) (config : Config) : Config :=
  { config with
    enrollment :=
      { config.enrollment with est := { config.enrollment.est with bearerToken := token } } }

/-- The two configurations are the same but for the token. -/
def OnlyTokenDiffers (config other : Config) : Prop :=
  withToken other.enrollment.est.bearerToken config = other

/-- The files that count as the node's PKI. -/
def pkiFiles (config : Config) : List Path :=
  config.certFile :: config.clientCa :: if config.tpm.isSome then [] else [config.keyFile]

/-- The files an enrolled node replaces. -/
def replacedFiles (config : Config) : List Path :=
  (config.certFile :: if config.tpm.isSome then [] else [config.keyFile]) ++
    (workloadTargets config.profile).map Target.path

/-- No file of the PKI stands at the temporary name of a file that is
replaced. -/
def TempsApart (config : Config) : Prop :=
  ∀ written ∈ replacedFiles config, ∀ path ∈ pkiFiles config, written.tempPath ≠ some path

instance (config : Config) : Decidable (TempsApart config) :=
  inferInstanceAs (Decidable (∀ _ ∈ _, _))

/-- Every boot is told whether the files of the PKI exist. -/
def BootsAnswered (config : Config) (_ : State) (action : Action) : Prop :=
  ∀ draws now plan, action = .boot draws now plan → StatsAnswered config plan

/-- The node has its PKI, and is not going to bootstrap. -/
structure Enrolled (config : Config) (state : State) : Prop where
  present : PkiPresent config state.device.disk
  settled : ∀ tpm failures, state.phase ≠ .bootstrapping tpm failures
  key : ∀ tpm, state.phase.key = some tpm → (tpm = none ↔ config.tpm = none)

section Presence

variable {config : Config} {disk : Disk}

theorem pki_present_iff :
    PkiPresent config disk ↔ ∀ path ∈ pkiFiles config, entryExists disk path = true := by
  unfold pkiFiles
  cases software : config.tpm with
  | some cfg =>
      constructor
      · intro present
        simp [present.cert, present.clientCa]
      · intro there
        exact ⟨there _ (by simp), by simp [software], there _ (by simp)⟩
  | none =>
      constructor
      · intro present
        simp [present.cert, present.key software, present.clientCa]
      · intro there
        exact ⟨there _ (by simp), fun _ => there _ (by simp), there _ (by simp)⟩

theorem write_keeps_pki {written : Path}
    (apart : ∀ path ∈ pkiFiles config, written.tempPath ≠ some path) (data : Bytes)
    (isPrivate : Bool) : Preserves (PkiPresent config) (writeAtomic written data isPrivate) := by
  intro plan disk present
  rw [pki_present_iff] at present ⊢
  intro path listed
  exact write_atomic_keeps_existing (apart path listed) data isPrivate plan disk
    (present path listed)

theorem make_dirs_keeps_pki (made : List Path) (present : PkiPresent config disk) :
    PkiPresent config (disk.makeDirs made) := by
  constructor
  · exact make_dirs_keeps_existing made present.cert
  · intro software
    exact make_dirs_keeps_existing made (present.key software)
  · exact make_dirs_keeps_existing made present.clientCa

theorem put_keeps_pki (path : Path) (file : File) (present : PkiPresent config disk) :
    PkiPresent config (disk.put path (some file)) := by
  constructor
  · exact put_keeps_existing path file present.cert
  · intro software
    exact put_keeps_existing path file (present.key software)
  · exact put_keeps_existing path file present.clientCa

theorem pin_keeps_pki (cfg : TpmPkcs11Config) : PinPreserves (PkiPresent config) cfg where
  dirs _ _ made _ _ := make_dirs_keeps_pki made
  file _ file := put_keeps_pki cfg.pinFile file

theorem cert_apart (apart : TempsApart config) :
    ∀ path ∈ pkiFiles config, config.certFile.tempPath ≠ some path :=
  apart _ (by simp [replacedFiles])

theorem key_apart (apart : TempsApart config) (software : config.tpm = none) :
    ∀ path ∈ pkiFiles config, config.keyFile.tempPath ≠ some path :=
  apart _ (by simp [replacedFiles, software])

theorem targets_keep_pki (apart : TempsApart config) :
    TargetsPreserve (PkiPresent config) config.profile := by
  intro target listed data
  apply write_keeps_pki
  apply apart
  unfold replacedFiles
  exact List.mem_append_right _ (List.mem_map_of_mem listed)

theorem reenroll_keeps_pki (apart : TempsApart config) (pki : Pki) (server : EstServer)
    (fresh : KeyPair) {tpm : Option TpmIdentity} (kind : tpm = none ↔ config.tpm = none) :
    Preserves (onDisk (PkiPresent config)) (reenroll pki server fresh config tpm) := by
  apply reenroll_preserves
  · intro certificate pem _ _
    exact write_keeps_pki (cert_apart apart) _ _
  · intro software
    exact write_keeps_pki (key_apart apart (kind.mp software)) _ _

end Presence

section Runs

variable {environment : Environment} {config : Config} {state next : State} {action : Action}

theorem open_node_key_kind {provider : Pkcs11.Provider} {draws : Pkcs11.Draws}
    {plan : Plan BootStep} {device : Device} {tpm : Option TpmIdentity}
    (opened : ((openNodeKey provider draws config).run plan device).1 = .ok tpm) :
    tpm = none ↔ config.tpm = none := by
  unfold openNodeKey at opened
  cases configured : config.tpm with
  | none =>
      simp only [configured, Proc.run_pure, Outcome.ok.injEq] at opened
      simp [← opened]
  | some cfg =>
      simp only [configured, Proc.run_bind_ok_iff, Proc.run_pure, Outcome.ok.injEq] at opened
      obtain ⟨_, _, identity, _, rfl⟩ := opened
      simp

theorem enrolled_of_settled {tpm : Option TpmIdentity} (enrolled : Enrolled config state)
    (present : PkiPresent config next.device.disk) (held : state.phase.key = some tpm)
    (ends : next.phase = .down ∨ Settled next.phase tpm) : Enrolled config next := by
  rcases ends with down | settled
  · exact ⟨present, by simp [down], by simp [down, Phase.key]⟩
  · refine ⟨present, settled.enrolled, fun other same => ?_⟩
    rw [settled.key, Option.some.injEq] at same
    rw [← same]
    exact enrolled.key tpm held

/-- The PKI stays, and with it the way past the bootstrap. -/
theorem step_keeps_enrolled (apart : TempsApart config) (enrolled : Enrolled config state)
    (answered : BootsAnswered config state action)
    (taken : Node.step environment config state action = some next) : Enrolled config next := by
  have does := step_does taken
  have present := enrolled.present
  cases action with
  | boot draws now plan =>
      obtain ⟨-, device, ends⟩ := does
      have stays : PkiPresent config next.device.disk := by
        rw [device]
        exact open_node_key_preserves _ draws (fun _ _ _ made _ => make_dirs_keeps_pki made)
          (fun cfg _ => pin_keeps_pki cfg) plan state.device present
      rcases ends with down | ⟨tpm, opened, settled | ⟨-, missing⟩⟩
      · exact ⟨stays, by simp [down], by simp [down, Phase.key]⟩
      · refine ⟨stays, settled.enrolled, fun other same => ?_⟩
        rw [settled.key, Option.some.injEq] at same
        rw [← same]
        exact open_node_key_kind opened
      · rw [← device] at missing
        exact absurd missing (node_pki_present_false stays (answered draws now plan rfl))
  | bootstrap server fresh plan =>
      obtain ⟨tpm, failures, phase, -⟩ := does
      exact absurd phase (enrolled.settled tpm failures)
  | reenroll server fresh plan =>
      obtain ⟨tpm, failures, phase, device, ends⟩ := does
      have held : state.phase.key = some tpm := by rw [phase]; rfl
      apply enrolled_of_settled enrolled _ held ends
      rw [device]
      exact reenroll_keeps_pki apart _ server fresh (enrolled.key tpm held) plan _ present
  | load plan =>
      obtain ⟨tpm, phase, device, ends⟩ := does
      apply enrolled_of_settled enrolled _ (by rw [phase]; rfl) ends
      rw [device]
      exact present
  | listen plan =>
      obtain ⟨identity, phase, device, ends⟩ := does
      apply enrolled_of_settled enrolled _ (by rw [phase]; rfl) ends
      rw [device]
      exact listen_preserves (targets_keep_pki apart) plan _ present
  | tick server fresh now plan =>
      obtain ⟨identity, held, device, ends⟩ := does
      apply enrolled_of_settled enrolled _ held ends
      rw [device]
      exact tick_preserves now (reenroll_keeps_pki apart _ server fresh
        (enrolled.key identity.tpm held)) plan ⟨state.device.world, identity.cert.current⟩ present
  | request request plan =>
      obtain ⟨identity, number, phase, device, ends⟩ := does
      apply enrolled_of_settled enrolled _ (by rw [phase]; rfl) ends
      rcases device with same | handled
      · rw [same]
        exact present
      · rw [handled]
        exact handle_preserves (targets_keep_pki apart) request plan _ present
  | crash =>
      obtain ⟨device, down⟩ := does
      refine ⟨?_, by simp [down], by simp [down, Phase.key]⟩
      rw [device]
      exact present

/-- Outside a bootstrap no step reads the token. -/
theorem step_with_token (environment : Environment) (config : Config) (token : String)
    (action : Action) (settled : ∀ tpm failures, state.phase ≠ .bootstrapping tpm failures) :
    Node.step environment (withToken token config) state action =
      Node.step environment config state action := by
  cases action with
  | boot draws now plan => rfl
  | bootstrap server fresh plan =>
      cases phase : state.phase with
      | bootstrapping tpm failures => exact absurd phase (settled tpm failures)
      | _ => simp only [Node.step, phase]
  | reenroll server fresh plan => rfl
  | load plan => rfl
  | listen plan => rfl
  | tick server fresh now plan => rfl
  | request request plan => rfl
  | crash => rfl

/-- From a node that has its PKI, the runs under two configurations that differ
in the token alone are the same, as long as no boot is left in the dark about
the files. -/
theorem bearer_token_unused (environment : Environment) (config other : Config)
    (differ : OnlyTokenDiffers config other) (apart : TempsApart config) (start : State)
    (actions : List Action) (down : start.phase = .down)
    (present : PkiPresent config start.device.disk)
    (answered : Guarded (Node.step environment config) (BootsAnswered config) start actions) :
    run (Node.step environment other) start actions =
      run (Node.step environment config) start actions := by
  have enrolled : Enrolled config start := ⟨present, by simp [down], by simp [down, Phase.key]⟩
  rw [← differ]
  apply run_congr _ _ enrolled answered
  · intro state action enrolled _
    exact step_with_token environment config _ action enrolled.settled
  · intro state action next enrolled answered taken
    exact step_keeps_enrolled apart enrolled answered taken

end Runs

section Sample

/-- The fixtures' libraries, on a node without a token. -/
def fixtureEnvironment : Environment where
  pki := fixturePki
  json := fixtureJson
  provider := firstToken
  extract _ := .ok Workload.sampleIntent
  otherRoutes nodeId _ := ⟨200, nodeId⟩

def enrolledNode : State where
  device := ⟨[], ⟨nodeDisk, []⟩⟩
  phase := .down
  audit := []
  answers := []

/-- The test configuration after the token has been replaced. -/
def otherConfig : Config := withToken "next-token" testConfig

theorem other_config_accepted : Accepted otherConfig where
  ipv6 := rfl
  nodeId := test_config_accepted.nodeId
  https := test_config_accepted.https
  bearerToken := by decide
  caCertFile := test_config_accepted.caCertFile

theorem enrolled_node_present : PkiPresent testConfig enrolledNode.device.disk where
  cert := by decide
  key _ := by decide
  clientCa := by decide

theorem bearer_token_unused_sample :
    let actions : List Action :=
      [ .boot firstDraws (some 0) Plan.allDone, .load Plan.allDone, .listen Plan.allDone,
        .tick fixtureServer serverKeyPair (some 0) Plan.allDone, .crash,
        .boot firstDraws (some 0) Plan.allDone ]
    OnlyTokenDiffers testConfig otherConfig ∧ TempsApart testConfig ∧
      run (Node.step fixtureEnvironment otherConfig) enrolledNode actions =
        run (Node.step fixtureEnvironment testConfig) enrolledNode actions := by
  refine ⟨rfl, by decide, ?_⟩
  apply bearer_token_unused fixtureEnvironment testConfig otherConfig rfl (by decide) enrolledNode
    _ rfl enrolled_node_present
  apply guarded_of_actions
  intro state action listed draws now plan same
  rw [same] at listed
  simp at listed
  obtain ⟨-, -, rfl⟩ := listed
  exact ⟨by simp [Plan.allDone], by simp [Plan.allDone], by simp [Plan.allDone]⟩

/-- The file system does not answer for the certificate file. -/
def unansweredPlan : Plan BootStep := fun label =>
  if label = .statCert then .fails 0 else .done

/-- The connection breaks after the first request. -/
def brokenPlan : Plan EnrollStep := fun label =>
  if label = .getCaCerts then .fails 1 else .done

theorem unanswered_boot_bootstraps (config : Config) (software : config.tpm = none)
    (state : State) (down : state.phase = .down) :
    Node.step fixtureEnvironment config state (.boot firstDraws (some 0) unansweredPlan) =
      some { state with phase := .bootstrapping none 0 } := by
  apply boot_of_missing firstDraws (some 0) software down
  have key : ((keyPresent config).run unansweredPlan state.device).1 =
      .ok (entryExists state.device.disk config.keyFile) := by
    unfold keyPresent
    rw [software]
    exact congrArg Prod.fst (path_exists_run .statKey config.keyFile)
  exact node_pki_missing key (congrArg Prod.fst (path_exists_run .statCert config.certFile))

theorem broken_bootstrap_sends (config : Config) (caPem : Bytes) (state : State)
    (phase : state.phase = .bootstrapping none 0) (server : BootstrapServer)
    (trusted : state.device.disk.content config.enrollment.est.caCertFile = some caPem) :
    ∃ next, Node.step fixtureEnvironment config state (.bootstrap server serverKeyPair brokenPlan) =
        some next ∧
      next.device.world.sent = state.device.world.sent ++ [.cacerts
        (estClientConfig config (.bearer config.enrollment.est.bearerToken) caPem)] := by
  have taken : Node.step fixtureEnvironment config state
      (.bootstrap server serverKeyPair brokenPlan) = some (state.bootstrap fixturePki config server
        serverKeyPair brokenPlan none 0) := by simp only [Node.step, phase]; rfl
  refine ⟨_, taken, ?_⟩
  have built := (build_est_config_ok_iff brokenPlan state.device.world config
    (.bearer config.enrollment.est.bearerToken) _).mpr ⟨rfl, rfl, rfl, caPem, trusted, rfl⟩
  have same : ((buildEstConfig config (.bearer config.enrollment.est.bearerToken)).run brokenPlan
      state.device.world).2 = state.device.world :=
    (build_est_config_keeps config _ : Keeps id _) brokenPlan state.device.world
  have opened : ((openBootstrap server config).run brokenPlan state.device.world).2.sent =
      state.device.world.sent ++ [.cacerts
        (estClientConfig config (.bearer config.enrollment.est.bearerToken) caPem)] := by
    rw [openBootstrap, Proc.run_bind_of_ok _ _ built, same]
    rfl
  have stopped (value : EstClientConfig × List Certificate) :
      ((openBootstrap server config).run brokenPlan state.device.world).1 ≠ .ok value := by
    intro returned
    obtain ⟨_, _, _, _, fetched, _⟩ := (open_bootstrap_ok_iff ..).mp returned
    cases fetched
  have ends := (Proc.run_bind_of_not_ok brokenPlan state.device.world (fun fetched => do
    enrollIdentity fixturePki server serverKeyPair config fetched.1 none
    writeClientCa fixturePki config fetched.2) stopped).1
  rw [← opened, ← ends]
  rfl

/-- Both configurations are accepted, and the node has its PKI; yet a boot that
is not told so sends the token. -/
theorem unanswered_boot_sends_token :
    (∃ formats, parseConfig formats "test" true = .ok testConfig ∧
        parseConfig formats "other" true = .ok otherConfig) ∧
      OnlyTokenDiffers testConfig otherConfig ∧
      PkiPresent testConfig enrolledNode.device.disk ∧ enrolledNode.phase = .down ∧
      ∃ actions final final', run (Node.step fixtureEnvironment testConfig) enrolledNode actions =
          some final ∧
        run (Node.step fixtureEnvironment otherConfig) enrolledNode actions = some final' ∧
        final.device.world.sent ≠ final'.device.world.sent := by
  let formats : ConfigFormats :=
    ⟨fun data => if data = "test" then .ok testConfig else .ok otherConfig, fun _ => .error ""⟩
  refine ⟨⟨formats, parse_config_accepts rfl test_config_accepted,
    parse_config_accepts rfl other_config_accepted⟩, rfl, enrolled_node_present, rfl, ?_⟩
  have ⟨_, _, trusted, _⟩ := node_disk_content
  let server : BootstrapServer := ⟨fun _ => [], fixtureServer⟩
  have runs (config : Config) (software : config.tpm = none)
      (same : config.enrollment.est.caCertFile = testConfig.enrollment.est.caCertFile) :
      ∃ final, run (Node.step fixtureEnvironment config) enrolledNode
          [.boot firstDraws (some 0) unansweredPlan, .bootstrap server serverKeyPair brokenPlan] =
            some final ∧
        final.device.world.sent = [.cacerts (estClientConfig config
          (.bearer config.enrollment.est.bearerToken) (asBytes serverPem))] := by
    have booted := unanswered_boot_bootstraps config software enrolledNode rfl
    obtain ⟨final, taken, sent⟩ := broken_bootstrap_sends config (asBytes serverPem)
      { enrolledNode with phase := .bootstrapping none 0 } rfl server (by rw [same]; exact trusted)
    exact ⟨final, by rw [run_cons _ booted, run_cons _ taken]; rfl, sent⟩
  obtain ⟨final, reached, sent⟩ := runs testConfig rfl rfl
  obtain ⟨final', reached', sent'⟩ := runs otherConfig rfl rfl
  refine ⟨_, final, final', reached, reached', ?_⟩
  rw [sent, sent']
  intro same
  have auths := congrArg EstClientConfig.auth (EstCall.cacerts.inj (List.cons.inj same).1)
  exact absurd (Auth.bearer.inj auths) (by decide)

end Sample

end NodeOs.Noded.BearerToken
