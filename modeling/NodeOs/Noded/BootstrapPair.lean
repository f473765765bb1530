import NodeOs.Noded.Footprint

/-!
# The certificate and the key across bootstraps

`run` takes a node for enrolled when three files exist. A bootstrap writes them
one after the other with material from a fresh key, so what it leaves when it is
cut depends on which of them are left from before: behind an old key and an old
CA bundle the new certificate alone makes the node look enrolled.
-/

namespace NodeOs.Noded.BootstrapPair

open NodeOs.Library.FaultPlan NodeOs.Library.Machine
open NodeOs.Noded.FileSystem NodeOs.Noded.WriteAtomic NodeOs.Noded.Enrollment
open NodeOs.Noded.Bootstrap NodeOs.Noded.Node NodeOs.Noded.Footprint NodeOs.Noded.Reconcile
open NodeOs.Noded.IdentityPair NodeOs.Noded.TokenProvisioning

/-- The files a node with a key file writes. -/
def writtenFiles (config : Config) : List Path :=
  config.certFile :: config.keyFile :: config.clientCa ::
    (workloadTargets config.profile).map Target.path

/-- Of the certificate and the key, whichever exists stems from one
enrollment. -/
def FromOneEnrollment (pki : Pki) (config : Config) (disk : Disk) : Prop :=
  ∃ key,
    (entryExists disk config.certFile = true →
      (disk.content config.certFile).bind pki.certified = some key) ∧
    (entryExists disk config.keyFile = true →
      (disk.content config.keyFile).bind pki.signing = some key)

/-- If all three files exist, certificate and key match. -/
def Sound (pki : Pki) (config : Config) (disk : Disk) : Prop :=
  PkiPresent config disk → ∃ key, MatchingPair pki config disk.content key

/-- A new certificate does not come without its key. -/
def ReplacesBoth (config : Config) (certPem keyPem : Bytes) (plan : Plan EnrollStep) : Prop :=
  progress config.certFile certPem (plan.at .writeCert) = .replaced →
    bothWritten config certPem keyPem plan

/-- A bootstrap replaces certificate and key, or neither, or finds one of the
other two files missing. -/
def BootstrapWhole (pki : Pki) (config : Config) (server : BootstrapServer) (fresh : KeyPair)
    (plan : Plan EnrollStep) (disk : Disk) : Prop :=
  ∀ certificate caCerts certPem,
    bootstrapIssued server fresh.publicKey config plan disk = some (certificate, caCerts) →
      pki.toPem certificate = .ok certPem →
        ReplacesBoth config (asBytes certPem) (asBytes fresh.pem) plan ∨
          entryExists disk config.keyFile = false ∨ entryExists disk config.clientCa = false

def ReenrollWhole (pki : Pki) (config : Config) (server : EstServer) (fresh : KeyPair)
    (plan : Plan EnrollStep) (disk : Disk) : Prop :=
  ∀ certPem, issuedPem pki server fresh config plan disk = some certPem →
    ReplacesBoth config (asBytes certPem) (asBytes fresh.pem) plan

/-- The condition on a step. -/
def EnrollsWhole (pki : Pki) (config : Config) (state : State) : Action → Prop
  | .bootstrap server fresh plan =>
      BootstrapWhole pki config server fresh plan state.device.disk
  | .reenroll server fresh plan =>
      ReenrollWhole pki config server fresh plan state.device.disk
  | .tick server fresh now plan =>
      ∀ served, RenewalLoop.Due pki plan ⟨state.device.world, served⟩ config.certFile now →
        ReenrollWhole pki config server fresh (plan.at .enroll) state.device.disk
  | _ => True

/-- The EST server certifies the key in the request. -/
def Certifies (server : EstServer) : Prop :=
  ∀ request certificate, server request = .issued certificate →
    certificate.publicKey = request.csr.publicKey

/-- What is assumed of the EST server and of a generated key. -/
def Trusted (pki : Pki) : Action → Prop
  | .bootstrap server fresh _ => Certifies server.simpleenroll ∧ pki.Generates fresh
  | .reenroll server fresh _ => Certifies server ∧ pki.Generates fresh
  | .tick server fresh _ _ => Certifies server ∧ pki.Generates fresh
  | _ => True

section Files

variable {config : Config}

/-- The three files, and that nothing written beside them touches them. -/
structure Apart (config : Config) : Prop where
  certKey : Spares config.certFile config.keyFile
  certCa : Spares config.certFile config.clientCa
  keyCert : Spares config.keyFile config.certFile
  keyCa : Spares config.keyFile config.clientCa
  caCert : Spares config.clientCa config.certFile
  caKey : Spares config.clientCa config.keyFile
  workload : ∀ target ∈ workloadTargets config.profile,
    ∀ path ∈ [config.certFile, config.keyFile, config.clientCa], Spares target.path path

theorem apart_of_separate (separate : Separate (writtenFiles config)) : Apart config := by
  unfold Separate writtenFiles at separate
  simp only [List.pairwise_cons] at separate
  obtain ⟨cert, key, ca, -⟩ := separate
  have listed (target : Target) (inside : target ∈ workloadTargets config.profile) :
      target.path ∈ (workloadTargets config.profile).map Target.path := List.mem_map_of_mem inside
  constructor
  · exact (cert _ (by simp)).1
  · exact (cert _ (by simp)).1
  · exact (cert _ (by simp)).2
  · exact (key _ (by simp)).1
  · exact (cert _ (by simp)).2
  · exact (key _ (by simp)).2
  · intro target inside path among
    simp only [List.mem_cons, List.not_mem_nil, or_false] at among
    rcases among with rfl | rfl | rfl
    · exact (cert _ (by simp [listed target inside])).2
    · exact (key _ (by simp [listed target inside])).2
    · exact (ca _ (listed target inside)).2

variable {disk after : Disk}

theorem entry_exists_eq (disk : Disk) (path : Path) :
    entryExists disk path = ((disk.content path).isSome || disk.dirs path) := by
  simp [entryExists, Disk.content]

/-- The three paths are the same directories, or none. -/
def SameDirs (config : Config) (before after : Disk) : Prop :=
  ∀ path ∈ [config.certFile, config.keyFile, config.clientCa], after.dirs path = before.dirs path

theorem present_of_same (dirs : SameDirs config disk after)
    (same : ∀ path ∈ [config.certFile, config.keyFile, config.clientCa],
      after.content path = disk.content path) (present : PkiPresent config after) :
    PkiPresent config disk := by
  have stays (path : Path) (among : path ∈ [config.certFile, config.keyFile, config.clientCa]) :
      entryExists disk path = entryExists after path := by
    rw [entry_exists_eq, entry_exists_eq, same path among, dirs path among]
  constructor
  · rw [stays _ (by simp)]
    exact present.cert
  · intro software
    rw [stays _ (by simp)]
    exact present.key software
  · rw [stays _ (by simp)]
    exact present.clientCa

theorem sound_of_same {pki : Pki} (dirs : SameDirs config disk after)
    (same : ∀ path ∈ [config.certFile, config.keyFile, config.clientCa],
      after.content path = disk.content path) (sound : Sound pki config disk) :
    Sound pki config after := by
  intro present
  obtain ⟨key, pair⟩ := sound (present_of_same dirs same present)
  refine ⟨key, ?_⟩
  rw [MatchingPair, same _ (by simp), same _ (by simp)]
  exact pair

theorem own_dirs {path : Path} : ∀ parent ∈ path.parent, path ∉ parent.enclosing :=
  fun _ parented => not_enclosing parented

/-- The writes of an enrollment make none of the three paths a directory. -/
theorem writes_keep_dirs (apart : Apart config) {written : Path}
    (known : written ∈ [config.certFile, config.keyFile, config.clientCa]) (disk : Disk)
    (data : Bytes) (isPrivate : Bool) :
    Preserves (SameDirs config disk) (writeAtomic written data isPrivate) := by
  have outside (path : Path)
      (among : path ∈ [config.certFile, config.keyFile, config.clientCa]) :
      ∀ parent ∈ written.parent, path ∉ parent.enclosing := by
    simp only [List.mem_cons, List.not_mem_nil, or_false] at known among
    rcases known with rfl | rfl | rfl <;> rcases among with rfl | rfl | rfl
    · exact own_dirs
    · exact apart.certKey.dirs
    · exact apart.certCa.dirs
    · exact apart.keyCert.dirs
    · exact own_dirs
    · exact apart.keyCa.dirs
    · exact apart.caCert.dirs
    · exact apart.caKey.dirs
    · exact own_dirs
  intro plan before same path among
  exact (write_atomic_keeps_dirs (outside path among) data isPrivate plan before).trans
    (same path among)

/-- Where every replaced certificate comes with its key, the pair is kept. -/
theorem keeps_pair_of_both {certPem keyPem : Bytes} {plan : Plan EnrollStep} (apart : Apart config)
    (both : ReplacesBoth config certPem keyPem plan) : KeepsPair config certPem keyPem plan := by
  unfold KeepsPair
  cases moved : progress config.certFile certPem (plan.at .writeCert) with
  | untouched => trivial
  | staged bytes => exact apart.certKey.temp
  | replaced => exact ⟨both moved, apart.keyCert.other, apart.keyCert.temp⟩

/-- An enrollment that does not get to replace the key leaves key and bundle
alone, and the certificate too if it does not replace that either. -/
theorem half_written_files {certPem keyPem : Bytes} {plan : Plan EnrollStep} (apart : Apart config)
    (before : Path → Option Bytes) (half : ¬bothWritten config certPem keyPem plan) :
    let after := identityContent config certPem keyPem plan before
    after config.keyFile = before config.keyFile ∧ after config.clientCa = before config.clientCa ∧
      (progress config.certFile certPem (plan.at .writeCert) ≠ .replaced →
        after config.certFile = before config.certFile) := by
  intro after
  let written := (progress config.certFile certPem (plan.at .writeCert)).content config.certFile
    certPem before
  have key : written config.keyFile = before config.keyFile :=
    content_elsewhere _ _ _ apart.certKey.other apart.certKey.temp
  have ca : written config.clientCa = before config.clientCa :=
    content_elsewhere _ _ _ apart.certCa.other apart.certCa.temp
  by_cases goesOn : certWritten config certPem plan
  · have content : after = (progress config.keyFile keyPem (plan.at .writeKey)).content
        config.keyFile keyPem written := if_pos goesOn
    have kept : progress config.keyFile keyPem (plan.at .writeKey) ≠ .replaced :=
      fun replaced => half ⟨goesOn, replaced⟩
    rw [content]
    refine ⟨?_, ?_, fun unreplaced => absurd goesOn.1 unreplaced⟩
    · rw [content_unreplaced _ _ kept, key]
    · rw [content_elsewhere _ _ _ apart.keyCa.other apart.keyCa.temp, ca]
  · have content : after = written := if_neg goesOn
    rw [content]
    exact ⟨key, ca, fun unreplaced => content_unreplaced _ _ unreplaced⟩

/-- The bundle is written beside the pair. -/
theorem bootstrapped_pair (pki : Pki) (apart : Apart config) (certPem keyPem : Bytes)
    (caCerts : List Certificate) (plan : Plan EnrollStep) (before : Path → Option Bytes) :
    let pair := identityContent config certPem keyPem plan before
    let after := bootstrappedContent pki config certPem keyPem caCerts plan before
    (after config.certFile = pair config.certFile ∧ after config.keyFile = pair config.keyFile) ∧
      (¬bothWritten config certPem keyPem plan → after = pair) := by
  intro pair after
  by_cases whole : bothWritten config certPem keyPem plan ∧ survivesSync (plan.at .writeKey) = true
  · refine ⟨?_, fun half => absurd whole.1 half⟩
    have content : after = _ := if_pos whole
    rw [content]
    cases encodeBundle pki caCerts with
    | error err => exact ⟨rfl, rfl⟩
    | ok caPem =>
        exact ⟨content_elsewhere _ _ _ apart.caCert.other apart.caCert.temp,
          content_elsewhere _ _ _ apart.caKey.other apart.caKey.temp⟩
  · have content : after = pair := if_neg whole
    rw [content]
    exact ⟨⟨rfl, rfl⟩, fun _ => rfl⟩

end Files

section Enrolling

variable {pki : Pki} {config : Config} {fresh : KeyPair} {plan : Plan EnrollStep} {world : World}

theorem bootstrap_issued_content {server : BootstrapServer} {certificate : Certificate}
    {caCerts : List Certificate} {certPem : String}
    (found : bootstrapIssued server fresh.publicKey config plan world.disk =
      some (certificate, caCerts))
    (encoded : pki.toPem certificate = .ok certPem) :
    ((bootstrapEnroll pki server fresh config none).run plan world).2.disk.content =
      bootstrappedContent pki config (asBytes certPem) (asBytes fresh.pem) caCerts plan
        world.disk.content := by
  obtain ⟨later, sameDisk, run⟩ := bootstrap_issued_run pki found
  rw [run, ← sameDisk]
  exact write_all_content fresh.pem caCerts encoded

/-- What a bootstrap makes of the files, by the certificate it obtains. -/
theorem bootstrap_leaves (pki : Pki) (config : Config) (server : BootstrapServer) (fresh : KeyPair)
    (plan : Plan EnrollStep) (world : World) :
    let after := ((bootstrapEnroll pki server fresh config none).run plan world).2.disk
    after.content = world.disk.content ∨ ∃ certificate caCerts certPem,
      bootstrapIssued server fresh.publicKey config plan world.disk =
          some (certificate, caCerts) ∧
        pki.toPem certificate = .ok certPem ∧
        after.content = bootstrappedContent pki config (asBytes certPem) (asBytes fresh.pem)
          caCerts plan world.disk.content := by
  intro after
  cases found : bootstrapIssued server fresh.publicKey config plan world.disk with
  | none => exact Or.inl (congrArg Disk.content (bootstrap_not_issued_run pki found).1)
  | some issued =>
      obtain ⟨certificate, caCerts⟩ := issued
      cases encoded : pki.toPem certificate with
      | error err =>
          obtain ⟨later, sameDisk, run⟩ := bootstrap_issued_run pki found
          left
          simp only [after]
          rw [run, Proc.run_bind, write_identity_unencoded encoded]
          exact congrArg Disk.content sameDisk
      | ok certPem =>
          right
          exact ⟨certificate, caCerts, certPem, rfl, encoded,
            bootstrap_issued_content found encoded⟩

theorem bootstrap_keeps_dirs (apart : Apart config) (server : BootstrapServer)
    (tpm : Option TpmIdentity) (disk : Disk) :
    Preserves (onDisk (SameDirs config disk)) (bootstrapEnroll pki server fresh config tpm) := by
  apply bootstrap_enroll_preserves
  · intro certificate pem _ _
    exact writes_keep_dirs apart (by simp) disk _ _
  · intro _
    exact writes_keep_dirs apart (by simp) disk _ _
  · intro pem
    exact writes_keep_dirs apart (by simp) disk _ _

theorem reenroll_keeps_dirs (apart : Apart config) (server : EstServer)
    (tpm : Option TpmIdentity) (disk : Disk) :
    Preserves (onDisk (SameDirs config disk)) (reenroll pki server fresh config tpm) := by
  apply reenroll_preserves
  · intro certificate pem _ _
    exact writes_keep_dirs apart (by simp) disk _ _
  · intro _
    exact writes_keep_dirs apart (by simp) disk _ _

/-- What follows of the files from what is said of their writes. -/
theorem identity_sound {before after : Disk} {certPem keyPem : Bytes} {key : PublicKey}
    (apart : Apart config) (dirs : SameDirs config before after)
    (newCert : pki.certified certPem = some key) (newKey : pki.signing keyPem = some key)
    (pair : after.content config.certFile =
        identityContent config certPem keyPem plan before.content config.certFile ∧
      after.content config.keyFile =
        identityContent config certPem keyPem plan before.content config.keyFile)
    (bundle : ¬bothWritten config certPem keyPem plan →
      after.content = identityContent config certPem keyPem plan before.content)
    (whole : ReplacesBoth config certPem keyPem plan ∨
      entryExists before config.keyFile = false ∨ entryExists before config.clientCa = false)
    (sound : Sound pki config before) (software : config.tpm = none) : Sound pki config after := by
  by_cases both : bothWritten config certPem keyPem plan
  · -- The pair is new, whatever became of the bundle.
    intro _
    have kept := keeps_pair_of_both apart fun _ => both
    have matched := both_written_pair before.content newCert newKey both kept
    refine ⟨key, ?_⟩
    rw [MatchingPair, pair.1, pair.2]
    exact matched
  · obtain ⟨keyKept, caKept, certKept⟩ := half_written_files apart before.content both
    have content := bundle both
    by_cases replaced : progress config.certFile certPem (plan.at .writeCert) = .replaced
    · -- The new certificate stands alone, so that the node does not look enrolled.
      intro present
      exfalso
      have keyThere := present.key software
      have caThere := present.clientCa
      rw [entry_exists_eq, content, keyKept, dirs _ (by simp), ← entry_exists_eq] at keyThere
      rw [entry_exists_eq, content, caKept, dirs _ (by simp), ← entry_exists_eq] at caThere
      rcases whole with follows | noKey | noCa
      · exact both (follows replaced)
      · rw [keyThere] at noKey
        cases noKey
      · rw [caThere] at noCa
        cases noCa
    · apply sound_of_same dirs _ sound
      intro path among
      simp only [List.mem_cons, List.not_mem_nil, or_false] at among
      rw [content]
      rcases among with rfl | rfl | rfl
      · exact certKept replaced
      · exact keyKept
      · exact caKept

/-- A bootstrap that is whole leaves the files sound. -/
theorem bootstrap_keeps_sound {server : BootstrapServer} (encodes : pki.Encodes)
    (apart : Apart config) (software : config.tpm = none)
    (certifies : Certifies server.simpleenroll) (generates : pki.Generates fresh)
    (whole : BootstrapWhole pki config server fresh plan world.disk)
    (sound : Sound pki config world.disk) :
    Sound pki config ((bootstrapEnroll pki server fresh config none).run plan world).2.disk := by
  have dirs : SameDirs config world.disk
      ((bootstrapEnroll pki server fresh config none).run plan world).2.disk :=
    bootstrap_keeps_dirs apart server none world.disk plan world fun _ _ => rfl
  rcases bootstrap_leaves pki config server fresh plan world with
    same | ⟨certificate, caCerts, certPem, found, encoded, content⟩
  · exact sound_of_same dirs (fun path _ => congrFun same path) sound
  · obtain ⟨pair, bundle⟩ := bootstrapped_pair pki apart (asBytes certPem) (asBytes fresh.pem)
      caCerts plan world.disk.content
    obtain ⟨-, caPem, -, -, -, answer⟩ := (bootstrap_issued_eq_some_iff ..).mp found
    have newCert : pki.certified (asBytes certPem) = some fresh.publicKey := by
      rw [encodes.certified certificate certPem encoded, certifies _ certificate answer]
      rfl
    rw [← content] at pair bundle
    exact identity_sound apart dirs newCert generates.signing pair bundle
      (whole certificate caCerts certPem found encoded) sound software

theorem reenroll_keeps_sound {server : EstServer} (encodes : pki.Encodes) (apart : Apart config)
    (software : config.tpm = none) (certifies : Certifies server) (generates : pki.Generates fresh)
    (whole : ReenrollWhole pki config server fresh plan world.disk)
    (sound : Sound pki config world.disk) :
    Sound pki config ((reenroll pki server fresh config none).run plan world).2.disk := by
  have dirs : SameDirs config world.disk
      ((reenroll pki server fresh config none).run plan world).2.disk :=
    reenroll_keeps_dirs apart server none world.disk plan world fun _ _ => rfl
  have content := (reenroll_result pki server fresh config plan world).content
  unfold reenrolledContent at content
  cases found : issuedPem pki server fresh config plan world.disk with
  | none =>
      rw [found] at content
      exact sound_of_same dirs (fun path _ => congrFun content path) sound
  | some certPem =>
      rw [found] at content
      have newCert := (issued_pem_certifies encodes certifies found).1
      exact identity_sound apart dirs newCert generates.signing
        ⟨congrFun content _, congrFun content _⟩ (fun _ => content)
        (Or.inl (whole certPem found)) sound software

end Enrolling

section Runs

variable {environment : Environment} {config : Config} {state next : State} {action : Action}

theorem targets_keep_sound (pki : Pki) (apart : Apart config) :
    TargetsPreserve (Sound pki config) config.profile := by
  intro target listed data plan disk sound
  have kept (path : Path)
      (among : path ∈ [config.certFile, config.keyFile, config.clientCa]) :=
    write_atomic_keeps (apart.workload target listed path among) data target.isPrivate plan disk
  apply sound_of_same _ _ sound
  · intro path among
    exact (Prod.mk.inj (kept path among)).2
  · intro path among
    exact entry_content (kept path among)

/-- The tick renews under the plan of its re-enrollment, or not at all. -/
theorem tick_keeps_sound {pki : Pki} {server : EstServer} {fresh : KeyPair} {now : Option Nat}
    {plan : Plan RenewalLoop.LoopStep} (loop : RenewalLoop.LoopState) (encodes : pki.Encodes)
    (apart : Apart config) (software : config.tpm = none) (certifies : Certifies server)
    (generates : pki.Generates fresh)
    (whole : RenewalLoop.Due pki plan loop config.certFile now →
      ReenrollWhole pki config server fresh (plan.at .enroll) loop.world.disk)
    (sound : Sound pki config loop.world.disk) :
    Sound pki config
      ((RenewalLoop.tick pki server fresh now config none).run plan loop).2.world.disk := by
  by_cases due : RenewalLoop.Due pki plan loop config.certFile now
  · rw [RenewalLoop.tick_of_due pki server fresh config none due, renew_world]
    exact reenroll_keeps_sound encodes apart software certifies generates (whole due) sound
  · rw [(RenewalLoop.tick_of_not_due pki server fresh config none due).2]
    exact sound

/-- The files are sound, and the daemon has no token. -/
structure SoundNode (pki : Pki) (config : Config) (state : State) : Prop where
  files : Sound pki config state.device.disk
  software : ∀ tpm, state.phase.key = some tpm → tpm = none

theorem software_of_settled {tpm : Option TpmIdentity} (software : tpm = none)
    (ends : next.phase = .down ∨ Settled next.phase tpm) :
    ∀ other, next.phase.key = some other → other = none := by
  intro other held
  rcases ends with down | settled
  · rw [down] at held
    cases held
  · rw [settled.key, Option.some.injEq] at held
    rw [← held, software]

theorem step_keeps_sound (encodes : environment.pki.Encodes) (apart : Apart config)
    (software : config.tpm = none) (sound : SoundNode environment.pki config state)
    (trusted : Trusted environment.pki action)
    (whole : EnrollsWhole environment.pki config state action)
    (taken : Node.step environment config state action = some next) :
    SoundNode environment.pki config next := by
  have does := step_does taken
  have files := sound.files
  cases action with
  | boot draws now plan =>
      obtain ⟨-, device, ends⟩ := does
      have idle : openNodeKey environment.provider draws config = pure none := by
        unfold openNodeKey
        rw [software]
      rw [idle] at device ends
      refine ⟨by rw [device]; exact files, fun tpm held => ?_⟩
      rcases ends with down | ⟨opened, returned, settled | ⟨phase, -⟩⟩
      · rw [down] at held
        cases held
      · rw [settled.key, Option.some.injEq] at held
        rw [← held]
        exact (Outcome.ok.inj returned).symm
      · rw [phase] at held
        rw [← Option.some.inj held]
        exact (Outcome.ok.inj returned).symm
  | bootstrap server fresh plan =>
      obtain ⟨tpm, failures, phase, device, ends⟩ := does
      have none_held : tpm = none := sound.software tpm (by rw [phase]; rfl)
      subst none_held
      refine ⟨?_, fun tpm held => ?_⟩
      · rw [device]
        exact bootstrap_keeps_sound encodes apart software trusted.1 trusted.2 whole files
      · rcases ends with down | key
        · rw [down] at held
          cases held
        · rw [key, Option.some.injEq] at held
          exact held.symm
  | reenroll server fresh plan =>
      obtain ⟨tpm, failures, phase, device, ends⟩ := does
      have none_held : tpm = none := sound.software tpm (by rw [phase]; rfl)
      subst none_held
      refine ⟨?_, software_of_settled rfl ends⟩
      rw [device]
      exact reenroll_keeps_sound encodes apart software trusted.1 trusted.2 whole files
  | load plan =>
      obtain ⟨tpm, phase, device, ends⟩ := does
      refine ⟨?_, software_of_settled (sound.software tpm (by rw [phase]; rfl)) ends⟩
      rw [device]
      exact files
  | listen plan =>
      obtain ⟨identity, phase, device, ends⟩ := does
      refine ⟨?_, software_of_settled (sound.software _ (by rw [phase]; rfl)) ends⟩
      rw [device]
      exact listen_preserves (targets_keep_sound _ apart) plan _ files
  | tick server fresh now plan =>
      obtain ⟨identity, held, device, ends⟩ := does
      have none_held := sound.software _ held
      refine ⟨?_, software_of_settled none_held ends⟩
      rw [device, none_held]
      exact tick_keeps_sound ⟨state.device.world, identity.cert.current⟩ encodes apart software
        trusted.1 trusted.2 (whole _) files
  | request request plan =>
      obtain ⟨identity, number, phase, device, ends⟩ := does
      refine ⟨?_, software_of_settled (sound.software _ (by rw [phase]; rfl)) ends⟩
      rcases device with same | handled
      · rw [same]
        exact files
      · rw [handled]
        exact handle_preserves (targets_keep_sound _ apart) request plan _ files
  | crash =>
      obtain ⟨device, down⟩ := does
      refine ⟨?_, by simp [down, Phase.key]⟩
      rw [device]
      exact files

theorem sound_of_one_enrollment {pki : Pki} {disk : Disk} (software : config.tpm = none)
    (origin : FromOneEnrollment pki config disk) : Sound pki config disk := by
  intro present
  obtain ⟨key, cert, signs⟩ := origin
  exact ⟨key, cert present.cert, signs (present.key software)⟩

/-- However bootstraps fail, are retried and are cut: as long as every enrollment
is whole, a node whose files are all found has a matching pair. -/
theorem bootstrap_pair_matches (environment : Environment) (encodes : environment.pki.Encodes)
    (config : Config) (software : config.tpm = none) (separate : Separate (writtenFiles config))
    (start final : State) (down : start.phase = .down)
    (origin : FromOneEnrollment environment.pki config start.device.disk) (actions : List Action)
    (trusted : ∀ action ∈ actions, Trusted environment.pki action)
    (whole : Guarded (Node.step environment config) (EnrollsWhole environment.pki config) start
      actions)
    (reached : run (Node.step environment config) start actions = some final)
    (plan : Plan BootStep)
    (found : ((nodePkiPresent config).run plan final.device).1 = .ok true) :
    ∃ key, MatchingPair environment.pki config final.device.disk.content key := by
  have apart := apart_of_separate separate
  have initial : SoundNode environment.pki config start :=
    ⟨sound_of_one_enrollment software origin, by simp [down, Phase.key]⟩
  have guarded := guarded_and whole (guarded_of_actions fun _ action => trusted action)
  have sound : SoundNode environment.pki config final :=
    run_preserves (fun _ _ _ sound met taken =>
      step_keeps_sound encodes apart software sound met.2 met.1 taken) initial guarded reached
  exact sound.files (node_pki_present_true found)

end Runs

section Sample

/-- The fixtures' libraries, on a node without a token. -/
def keyEnvironment : Environment where
  pki := fixturePki
  json := fixtureJson
  provider := firstToken
  extract _ := .ok Workload.sampleIntent
  otherRoutes nodeId _ := ⟨200, nodeId⟩

/-- The certificate is lost, while its key and the bundle are still there. -/
def keyOnlyDisk : Disk where
  files := Function.update nodeDisk.files testConfig.certFile none
  dirs := fun _ => false

def keyOnlyNode : State where
  device := ⟨[], ⟨keyOnlyDisk, []⟩⟩
  phase := .down
  audit := []
  answers := []

def bootstrapServer : BootstrapServer := ⟨fun _ => [nodeCertificate], fixtureServer⟩

/-- The machine stops before the key's temporary file is opened. -/
def cutPlan : Plan EnrollStep := fun label =>
  if label = .writeKey .openTemp then .killed 0 else .done

theorem key_only_disk_content {path : Path} (other : path ≠ testConfig.certFile) :
    keyOnlyDisk.content path = nodeDisk.content path := by
  simp [Disk.content, keyOnlyDisk, other]

theorem key_only_cert_missing : entryExists keyOnlyDisk testConfig.certFile = false := by
  simp [entryExists, keyOnlyDisk]

theorem key_only_key : keyOnlyDisk.content testConfig.keyFile = some (asBytes nodeKeyPem) := by
  rw [key_only_disk_content (by decide)]
  exact node_disk_content.2.1

theorem key_only_origin : FromOneEnrollment fixturePki testConfig keyOnlyDisk := by
  refine ⟨nodeCertificate.publicKey, fun there => ?_, fun _ => ?_⟩
  · rw [key_only_cert_missing] at there
    cases there
  · rw [key_only_key, Option.bind_some]
    exact fixture_signing_node rfl

theorem key_only_boot :
    Node.step keyEnvironment testConfig keyOnlyNode (.boot firstDraws (some 0) Plan.allDone) =
      some { keyOnlyNode with phase := .bootstrapping none 0 } := by
  apply boot_of_missing firstDraws (some 0) rfl rfl
  have key : ((keyPresent testConfig).run Plan.allDone keyOnlyNode.device).1 =
      .ok (entryExists keyOnlyNode.device.disk testConfig.keyFile) :=
    congrArg Prod.fst (path_exists_run .statKey testConfig.keyFile)
  apply node_pki_missing key
  rw [path_exists_run]
  exact congrArg Outcome.ok key_only_cert_missing

theorem bootstrap_server_issues {request : EstRequest}
    (known : request.csr.publicKey = serverCertificate.publicKey) :
    bootstrapServer.simpleenroll request = .issued serverCertificate :=
  fixture_server_issues known

/-- The server issues a certificate for the fresh key. -/
theorem key_only_issued (plan : Plan EnrollStep)
    (reached : ∀ label ∈ bootstrapSteps, plan label = .done) :
    bootstrapIssued bootstrapServer serverKeyPair.publicKey testConfig plan keyOnlyDisk =
      some (serverCertificate, [nodeCertificate]) := by
  have trusted : keyOnlyDisk.content testConfig.enrollment.est.caCertFile =
      some (asBytes serverPem) := by
    rw [key_only_disk_content (by decide)]
    exact node_disk_content.2.2.1
  exact (bootstrap_issued_eq_some_iff ..).mpr
    ⟨reached, _, trusted, rfl, by simp, bootstrap_server_issues rfl⟩

theorem server_trusted : Certifies bootstrapServer.simpleenroll ∧
    fixturePki.Generates serverKeyPair :=
  ⟨fixture_server_certifies, server_key_pair_generates⟩

theorem cut_files :
    let after := ((bootstrapEnroll fixturePki bootstrapServer serverKeyPair testConfig none).run
      cutPlan ⟨keyOnlyDisk, []⟩).2.disk
    after.content testConfig.certFile = some (asBytes serverPem) ∧
      after.content testConfig.keyFile = some (asBytes nodeKeyPem) ∧
      after.content testConfig.clientCa = nodeDisk.content testConfig.clientCa := by
  intro after
  have apart : Apart testConfig := apart_of_separate (by decide)
  have content : after.content = _ :=
    bootstrap_issued_content (key_only_issued cutPlan (by decide)) server_to_pem
  have half : ¬bothWritten testConfig (asBytes serverPem) (asBytes serverKeyPair.pem) cutPlan := by
    intro both
    have stuck : progress testConfig.keyFile (asBytes serverKeyPair.pem)
        (cutPlan.at .writeKey) = .untouched := rfl
    rw [bothWritten, stuck] at both
    cases both.2
  have same := (bootstrapped_pair fixturePki apart (asBytes serverPem) (asBytes serverKeyPair.pem)
    [nodeCertificate] cutPlan keyOnlyDisk.content).2 half
  obtain ⟨key, ca, -⟩ := half_written_files apart keyOnlyDisk.content half
  rw [content, same, key, ca]
  refine ⟨?_, key_only_key, key_only_disk_content (by decide)⟩
  have moved : progress testConfig.certFile (asBytes serverPem) (cutPlan.at .writeCert) =
      .replaced := rfl
  have written : certWritten testConfig (asBytes serverPem) cutPlan := ⟨moved, rfl⟩
  have stuck : progress testConfig.keyFile (asBytes serverKeyPair.pem) (cutPlan.at .writeKey) =
      .untouched := rfl
  rw [identityContent, if_pos written, stuck, moved]
  have temp : testConfig.certFile.tempPath =
      some (.ofNames ["etc", "nodeos", "pki", ".server.crt.tmp"]) := rfl
  simp only [Progress.content, temp]
  rw [Function.update_of_ne (by decide), Function.update_self]

theorem exists_of_content {disk : Disk} {path : Path} {bytes : Bytes}
    (there : disk.content path = some bytes) : entryExists disk path = true := by
  rw [entry_exists_eq, there]
  rfl

/-- The node after a bootstrap under the plan. -/
def bootstrapped (plan : Plan EnrollStep) : State :=
  State.bootstrap fixturePki testConfig bootstrapServer serverKeyPair plan none 0
    { keyOnlyNode with phase := .bootstrapping none 0 }

theorem bootstrapped_disk (plan : Plan EnrollStep) :
    (bootstrapped plan).device.disk =
      ((bootstrapEnroll fixturePki bootstrapServer serverKeyPair testConfig none).run plan
        ⟨keyOnlyDisk, []⟩).2.disk := rfl

/-- A boot, and the bootstrap it begins. -/
def firstBoot (plan : Plan EnrollStep) : List Action :=
  [.boot firstDraws (some 0) Plan.allDone, .bootstrap bootstrapServer serverKeyPair plan]

theorem first_boot_trusted (plan : Plan EnrollStep) :
    ∀ action ∈ firstBoot plan, Trusted fixturePki action := by
  intro action listed
  simp only [firstBoot, List.mem_cons, List.not_mem_nil, or_false] at listed
  rcases listed with rfl | rfl
  · trivial
  · exact server_trusted

theorem first_boot_run (plan : Plan EnrollStep) :
    run (Node.step keyEnvironment testConfig) keyOnlyNode (firstBoot plan) =
      some (bootstrapped plan) := by
  rw [firstBoot, run_cons _ key_only_boot]
  rfl

/-- Whether it is cut or not, the bootstrap leaves the bundle where it was. -/
theorem bootstrapped_ca (plan : Plan EnrollStep) :
    entryExists (bootstrapped plan).device.disk testConfig.clientCa = true := by
  rw [bootstrapped_disk]
  have stays : Preserves (onDisk fun disk => entryExists disk testConfig.clientCa = true)
      (bootstrapEnroll fixturePki bootstrapServer serverKeyPair testConfig none) :=
    bootstrap_enroll_preserves (fun _ _ _ _ => write_atomic_keeps_existing (by decide) _ _)
      (fun _ => write_atomic_keeps_existing (by decide) _ _)
      fun _ => write_atomic_keeps_existing (by decide) _ _
  apply stays plan ⟨keyOnlyDisk, []⟩
  apply exists_of_content
  rw [key_only_disk_content (by decide)]
  exact node_disk_content.2.2.2

theorem bootstrap_pair_matches_sample :
    run (Node.step keyEnvironment testConfig) keyOnlyNode (firstBoot Plan.allDone) =
        some (bootstrapped Plan.allDone) ∧
      ((nodePkiPresent testConfig).run Plan.allDone (bootstrapped Plan.allDone).device).1 =
        .ok true ∧
      ∃ key, MatchingPair fixturePki testConfig (bootstrapped Plan.allDone).device.disk.content
        key := by
  have apart : Apart testConfig := apart_of_separate (by decide)
  have both (certPem : Bytes) :
      bothWritten testConfig certPem (asBytes serverKeyPair.pem) Plan.allDone :=
    ⟨⟨rfl, rfl⟩, rfl⟩
  have content : (bootstrapped Plan.allDone).device.disk.content =
      bootstrappedContent fixturePki testConfig (asBytes serverPem) (asBytes serverKeyPair.pem)
        [nodeCertificate] Plan.allDone keyOnlyDisk.content := by
    rw [bootstrapped_disk]
    exact bootstrap_issued_content (key_only_issued Plan.allDone (fun _ _ => rfl)) server_to_pem
  have pair := (bootstrapped_pair fixturePki apart (asBytes serverPem)
    (asBytes serverKeyPair.pem) [nodeCertificate] Plan.allDone keyOnlyDisk.content).1
  have files := both_written_files keyOnlyDisk.content (both (asBytes serverPem))
    (keeps_pair_of_both apart fun _ => both _)
  have found : ((nodePkiPresent testConfig).run Plan.allDone
      (bootstrapped Plan.allDone).device).1 = .ok true := by
    have cert := pair.1.trans files.1
    have key := pair.2.trans files.2
    rw [← content] at cert key
    apply node_pki_found
    exact ⟨exists_of_content cert, fun _ => exists_of_content key, bootstrapped_ca _⟩
  refine ⟨first_boot_run _, found, ?_⟩
  refine bootstrap_pair_matches keyEnvironment fixture_pki_encodes testConfig rfl (by decide)
    keyOnlyNode (bootstrapped Plan.allDone) rfl key_only_origin (firstBoot Plan.allDone)
    (first_boot_trusted _) ?_ (first_boot_run _) Plan.allDone found
  refine guarded_cons trivial key_only_boot ⟨?_, fun _ _ => trivial⟩
  intro certificate caCerts certPem _ _
  exact Or.inl fun _ => both (asBytes certPem)

/-- The key and the bundle are left from an earlier enrollment; the machine stops
between the new certificate and the new key; and the next boot takes the node
for enrolled. -/
theorem cut_bootstrap_mismatches :
    FromOneEnrollment fixturePki testConfig keyOnlyNode.device.disk ∧
      (∀ action ∈ firstBoot cutPlan, Trusted fixturePki action) ∧
      run (Node.step keyEnvironment testConfig) keyOnlyNode (firstBoot cutPlan) =
        some (bootstrapped cutPlan) ∧
      ((nodePkiPresent testConfig).run Plan.allDone (bootstrapped cutPlan).device).1 = .ok true ∧
      ¬∃ key, MatchingPair fixturePki testConfig (bootstrapped cutPlan).device.disk.content
        key := by
  obtain ⟨cert, key, -⟩ := cut_files
  rw [← bootstrapped_disk] at cert key
  refine ⟨key_only_origin, first_boot_trusted _, first_boot_run _, ?_, ?_⟩
  · apply node_pki_found
    exact ⟨exists_of_content cert, fun _ => exists_of_content key, bootstrapped_ca _⟩
  · rintro ⟨found, certifies, signs⟩
    rw [cert, Option.bind_some, fixture_certified_server rfl server_pem_ne] at certifies
    rw [key, Option.bind_some, fixture_signing_node rfl, ← certifies] at signs
    exact absurd (Option.some.inj signs) (by decide)

end Sample

end NodeOs.Noded.BootstrapPair
