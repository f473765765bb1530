import NodeOs.Noded.RenewalLoop

/-!
# The identity the server serves

`new` and `reload` install whatever `build_certified_key` returns. It returns a
pair as soon as every file can be read and parsed: an empty certificate file
gives an empty chain, and the key is never compared with the leaf.
-/

namespace NodeOs.Noded.ServedIdentity

open NodeOs.Library.FaultPlan NodeOs.Library.FaultPlan.Proc
open NodeOs.Noded.FileSystem NodeOs.Noded.RenewalLoop NodeOs.Noded.IdentityPair

/-- A handshake can be completed: there is a leaf, and it certifies the key. -/
def Usable (certified : CertifiedKey) : Prop :=
  certified.chain.head?.map Certificate.publicKey = some certified.key

instance (certified : CertifiedKey) : Decidable (Usable certified) :=
  inferInstanceAs (Decidable (_ = _))

structure ReloadableCert where
  certPath : Path
  keySource : KeySource
  current : CertifiedKey
  deriving DecidableEq, Repr

def ReloadableCert.new (pki : Pki) (certPath : Path) (source : KeySource) :
    Loop ReloadableCert := do
  let certified ← buildCertifiedKey pki certPath source
  pure ⟨certPath, source, certified⟩

/-- A poisoned lock yields no certificate. -/
def resolve : Loop (Option CertifiedKey) := do
  match ← attempt (check .lock ["reloadable certificate lock poisoned"]) with
  | .ok () => observe fun state => some state.served
  | .error _ => pure none

/-- The steps that have to succeed before a pair is built. -/
def loadSteps : KeySource → List LoopStep
  | .file _ => [.openCert, .openKey, .provider]
  | .tpm _ => [.openCert]

/-- The chain a certificate file holds, if it parses. -/
def chainAt (pki : Pki) (state : LoopState) (certPath : Path) : Option (List Certificate) :=
  (state.content certPath).bind fun pem => (pki.certs pem).toOption

/-- The public key that belongs to the signing key of a source. -/
def signingKey (pki : Pki) (state : LoopState) : KeySource → Option PublicKey
  | .file keyPath => (state.content keyPath).bind pki.signing
  | .tpm key => some key

section Loading

variable (pki : Pki) (plan : Plan LoopStep) (state : LoopState)

theorem load_certs_keeps (path : Path) : Keeps id (loadCerts pki path) :=
  .bind (open_file_keeps _ _ _) fun _ => .ofExcept _

theorem load_key_keeps (path : Path) : Keeps id (loadKey pki path) := by
  apply Keeps.bind (open_file_keeps _ _ _)
  intro pem
  apply Keeps.bind (Keeps.ofExcept _)
  intro found
  cases found with
  | none => exact .raise _
  | some key => exact .ret _

theorem build_certified_key_keeps (certPath : Path) (source : KeySource) :
    Keeps id (buildCertifiedKey pki certPath source) := by
  apply Keeps.bind (load_certs_keeps pki certPath).mapError
  intro chain
  cases source with
  | tpm key => exact .ret _
  | file keyPath =>
      exact .bind (load_key_keeps pki keyPath).mapError fun _ =>
        .bind (.check _ _) fun _ => .bind (.ofExcept _) fun _ => .ret _

theorem to_option_eq_some_iff {Fault Value : Type} (result : Except Fault Value) (value : Value) :
    result.toOption = some value ↔ result = .ok value := by
  cases result <;> simp [Except.toOption]

theorem load_certs_ok_iff (path : Path) (chain : List Certificate) :
    ((loadCerts pki path).run plan state).1 = .ok chain ↔
      plan .openCert = .done ∧ chainAt pki state path = some chain := by
  simp only [loadCerts, run_bind_ok_iff, open_file_ok_iff, run_ofExcept_ok_iff,
    map_error_ok_iff, chainAt, Option.bind_eq_some_iff, to_option_eq_some_iff, and_assoc,
    exists_and_left]

/-- The key file holds a private key with this public key. -/
theorem signing_eq_some_iff (pem : Bytes) (key : PublicKey) :
    pki.signing pem = some key ↔
      ∃ found, pki.privateKey pem = .ok (some found) ∧ pki.loadPrivateKey found = .ok key := by
  unfold Pki.signing
  cases pki.privateKey pem with
  | error err => simp
  | ok answer => cases answer <;> simp [to_option_eq_some_iff]

theorem load_key_ok_iff (path : Path) (key : PrivateKey) :
    ((loadKey pki path).run plan state).1 = .ok key ↔
      plan .openKey = .done ∧ ∃ pem, state.content path = some pem ∧
        pki.privateKey pem = .ok (some key) := by
  simp only [loadKey, run_bind_ok_iff, open_file_ok_iff, run_ofExcept_ok_iff, map_error_ok_iff]
  constructor
  · rintro ⟨pem, ⟨opened, there⟩, answer, parsed, found⟩
    cases answer with
    | none => simp at found
    | some other =>
        simp only [run_pure, Outcome.ok.injEq] at found
        exact ⟨opened, pem, there, by rw [parsed, found]⟩
  · rintro ⟨opened, pem, there, parsed⟩
    exact ⟨pem, ⟨opened, there⟩, some key, parsed, rfl⟩

/-- A pair is built whenever every step succeeds and both sources parse. -/
theorem build_certified_key_ok_iff (certPath : Path) (source : KeySource)
    (certified : CertifiedKey) :
    ((buildCertifiedKey pki certPath source).run plan state).1 = .ok certified ↔
      (∀ label ∈ loadSteps source, plan label = .done) ∧
        chainAt pki state certPath = some certified.chain ∧
          signingKey pki state source = some certified.key := by
  have chainKept : ((loadCerts pki certPath).run plan state).2 = state :=
    load_certs_keeps pki certPath plan state
  obtain ⟨chain, key⟩ := certified
  cases source with
  | tpm token =>
      simp only [buildCertifiedKey, run_bind_ok_iff, run_mapError_ok_iff, load_certs_ok_iff,
        run_pure, loadSteps, signingKey]
      simp [and_assoc]
  | file keyPath =>
      have keyKept : ((loadKey pki keyPath).run plan state).2 = state :=
        load_key_keeps pki keyPath plan state
      simp only [buildCertifiedKey, run_bind_ok_iff, run_mapError_ok_iff, run_mapError_state,
        load_certs_ok_iff, load_key_ok_iff, chainKept, keyKept, run_check_ok_iff,
        run_check_state, run_ofExcept_ok_iff, map_error_ok_iff, run_pure, loadSteps, signingKey,
        Option.bind_eq_some_iff, signing_eq_some_iff]
      constructor
      · rintro ⟨loaded, ⟨opened, there⟩, found, ⟨read, pem, present, parsed⟩, -, provided, signing,
          signs, same⟩
        simp only [Outcome.ok.injEq, CertifiedKey.mk.injEq] at same
        obtain ⟨rfl, rfl⟩ := same
        exact ⟨by simp [opened, read, provided], there, pem, present, found, parsed, signs⟩
      · rintro ⟨steps, there, pem, present, found, parsed, signs⟩
        simp only [List.forall_mem_cons] at steps
        obtain ⟨opened, read, provided, -⟩ := steps
        exact ⟨chain, ⟨opened, there⟩, found, ⟨read, pem, present, parsed⟩, (), provided, key,
          signs, rfl⟩

theorem new_ok_iff (certPath : Path) (source : KeySource) (cert : ReloadableCert) :
    ((ReloadableCert.new pki certPath source).run plan state).1 = .ok cert ↔
      ((buildCertifiedKey pki certPath source).run plan state).1 = .ok cert.current ∧
        cert = ⟨certPath, source, cert.current⟩ := by
  simp only [ReloadableCert.new, run_bind_ok_iff, run_pure, Outcome.ok.injEq]
  constructor
  · rintro ⟨certified, built, rfl⟩
    exact ⟨built, rfl⟩
  · rintro ⟨built, same⟩
    exact ⟨cert.current, built, same.symm⟩

/-- A reload that returns serves the pair it built. -/
theorem reload_ok {certPath : Path} {source : KeySource}
    (returned : ((reload pki certPath source).run plan state).1 = .ok ()) :
    ((buildCertifiedKey pki certPath source).run plan state).1 =
      .ok ((reload pki certPath source).run plan state).2.served := by
  have kept : ((buildCertifiedKey pki certPath source).run plan state).2 = state :=
    build_certified_key_keeps pki certPath source plan state
  obtain ⟨certified, built, locked⟩ := (run_bind_ok_iff plan state _ _ ()).mp returned
  rw [built, reload, run_bind_of_ok _ _ built, run_step]
  rw [run_step] at locked
  cases held : plan .lock with
  | done => rfl
  | fails extent => simp [held] at locked
  | killed extent => simp [held] at locked

/-- A reload that does not return changes nothing. -/
theorem reload_not_ok {certPath : Path} {source : KeySource}
    (failed : ((reload pki certPath source).run plan state).1 ≠ .ok ()) :
    ((reload pki certPath source).run plan state).2 = state := by
  have kept : ((buildCertifiedKey pki certPath source).run plan state).2 = state :=
    build_certified_key_keeps pki certPath source plan state
  rw [reload, run_bind] at failed ⊢
  cases built : (buildCertifiedKey pki certPath source).run plan state with
  | mk outcome after =>
      rw [built] at kept
      obtain rfl : after = state := kept
      rw [built] at failed
      cases outcome with
      | err error => rfl
      | killed => rfl
      | ok certified =>
          simp only [run_step] at failed ⊢
          cases held : plan .lock with
          | done => simp [held] at failed
          | fails extent => rfl
          | killed extent => rfl

end Loading

/-- What the server expects of loading its identity: at the start, at a reload,
and of a reload that fails. -/
structure LoadContract (pki : Pki) (plan : Plan LoopStep) (state : LoopState) (certPath : Path)
    (source : KeySource) : Prop where
  newUsable : ∀ cert, ((ReloadableCert.new pki certPath source).run plan state).1 = .ok cert →
    Usable cert.current
  reloadUsable : ((reload pki certPath source).run plan state).1 = .ok () →
    Usable ((reload pki certPath source).run plan state).2.served
  failedReload : ∀ error reading,
    ((reload pki certPath source).run plan state).1 = .err error →
      (resolve.run reading ((reload pki certPath source).run plan state).2).1 =
        (resolve.run reading state).1

/-- Loading meets its contract exactly when the pair it would build is usable: it
checks that the files can be read and parsed, and nothing else. -/
theorem load_contract_iff (pki : Pki) (plan : Plan LoopStep) (state : LoopState) (certPath : Path)
    (source : KeySource) :
    LoadContract pki plan state certPath source ↔
      ((∀ label ∈ loadSteps source, plan label = .done) →
        ∀ chain key, chainAt pki state certPath = some chain →
          signingKey pki state source = some key → Usable ⟨chain, key⟩) := by
  constructor
  · intro contract loaded chain key there signs
    have built := (build_certified_key_ok_iff pki plan state certPath source ⟨chain, key⟩).mpr
      ⟨loaded, there, signs⟩
    exact contract.newUsable ⟨certPath, source, ⟨chain, key⟩⟩
      ((new_ok_iff pki plan state certPath source _).mpr ⟨built, rfl⟩)
  · intro usable
    have builtUsable (certified : CertifiedKey)
        (built : ((buildCertifiedKey pki certPath source).run plan state).1 = .ok certified) :
        Usable certified := by
      obtain ⟨loaded, there, signs⟩ :=
        (build_certified_key_ok_iff pki plan state certPath source certified).mp built
      exact usable loaded certified.chain certified.key there signs
    constructor
    · intro cert returned
      exact builtUsable _ ((new_ok_iff pki plan state certPath source cert).mp returned).1
    · intro returned
      exact builtUsable _ (reload_ok pki plan state returned)
    · intro error reading failed
      rw [reload_not_ok pki plan state (by rw [failed]; simp)]

/-- A node whose renewal was cut between the certificate and the key. -/
def halfRenewed : LoopState where
  world := ⟨nodeDisk.put testConfig.certFile (some ⟨asBytes serverPem, 0o644⟩), []⟩
  served := ⟨[nodeCertificate], nodeCertificate.publicKey⟩

theorem other_key_loads :
    ¬LoadContract fixturePki Plan.allDone halfRenewed testConfig.certFile
      (.file testConfig.keyFile) := by
  intro contract
  have certThere : halfRenewed.content testConfig.certFile = some (asBytes serverPem) := by
    simp [LoopState.content, halfRenewed, Disk.content]
  have keyThere : halfRenewed.content testConfig.keyFile = some (asBytes nodeKeyPem) := by
    have apart : testConfig.keyFile ≠ testConfig.certFile := by decide
    have same : halfRenewed.world.disk.files testConfig.keyFile =
        nodeDisk.files testConfig.keyFile := by simp [halfRenewed, apart]
    rw [LoopState.content, Disk.content_congr same]
    exact node_disk_content.2.1
  have chain : chainAt fixturePki halfRenewed testConfig.certFile = some [serverCertificate] := by
    rw [chainAt, certThere, Option.bind_some, fixture_certs_server rfl server_pem_ne]
    rfl
  have key : signingKey fixturePki halfRenewed (.file testConfig.keyFile) =
      some nodeCertificate.publicKey := by
    rw [signingKey, keyThere, Option.bind_some, fixture_signing_node rfl]
  have built := (build_certified_key_ok_iff fixturePki Plan.allDone halfRenewed testConfig.certFile
    (.file testConfig.keyFile) ⟨[serverCertificate], nodeCertificate.publicKey⟩).mpr
      ⟨fun _ _ => rfl, chain, key⟩
  have usable := contract.newUsable ⟨_, _, _⟩
    ((new_ok_iff fixturePki Plan.allDone halfRenewed _ _ _).mpr ⟨built, rfl⟩)
  exact absurd usable (by decide)

end NodeOs.Noded.ServedIdentity
