import NodeOs.Noded.Enrollment

/-!
# The certificate and the key across a re-enrollment

`write_identity` replaces two files, each of them atomically. Between the two
replacements the new certificate stands beside the old key, and nothing undoes
the first write when the second one fails. The theorem says for which plans the
pair survives.
-/

namespace NodeOs.Noded.IdentityPair

open NodeOs.Library.FaultPlan
open NodeOs.Noded.FileSystem NodeOs.Noded.WriteAtomic NodeOs.Noded.Enrollment

/-- The certificate file certifies `key`, and the key file holds its private
half. -/
def MatchingPair (pki : Pki) (config : Config) (content : Path → Option Bytes)
    (key : PublicKey) : Prop :=
  (content config.certFile).bind pki.certified = some key ∧
    (content config.keyFile).bind pki.signing = some key

def SamePair (config : Config) (before after : Path → Option Bytes) : Prop :=
  after config.certFile = before config.certFile ∧ after config.keyFile = before config.keyFile

/-- The pair is the old one or the new one, and the CA bundle is untouched. -/
structure FilesWhole (pki : Pki) (config : Config) (new : PublicKey)
    (before after : Path → Option Bytes) : Prop where
  pair : ∃ key, MatchingPair pki config after key
  oldOrNew : SamePair config before after ∨ MatchingPair pki config after new
  clientCa : after config.clientCa = before config.clientCa

/-- Renewal has been all or nothing, and an error means nothing. -/
structure AllOrNothing (pki : Pki) (config : Config) (fresh : KeyPair) (before : Disk)
    (result : Outcome Error Unit × World) : Prop where
  files : FilesWhole pki config fresh.publicKey before.content result.2.disk.content
  existing : ∀ error, result.1 = .err error →
    SamePair config before.content result.2.disk.content

/-- The writes end before the certificate is replaced, or not before the key
is; and no configured file is in the place of a temporary one. -/
def EndsWhole (config : Config) (certPem keyPem : Bytes) (plan : Plan EnrollStep)
    (before : Path → Option Bytes) : Prop :=
  match progress config.certFile certPem (plan.at .writeCert) with
  | .untouched => True
  | .staged bytes =>
      config.certFile.tempPath ≠ some config.keyFile ∧
        (config.certFile.tempPath = some config.clientCa → before config.clientCa = some bytes)
  | .replaced =>
      bothWritten config certPem keyPem plan ∧
        config.keyFile.tempPath ≠ some config.certFile ∧
        (config.certFile.tempPath = some config.clientCa ∨
          config.keyFile.tempPath = some config.clientCa → before config.clientCa = none)

/-- The setting of a rotation: an old pair, a new one, and three different
paths. -/
structure Rotation (pki : Pki) (config : Config) (before : Path → Option Bytes)
    (old new : PublicKey) (certPem keyPem : Bytes) : Prop where
  certNotKey : config.certFile ≠ config.keyFile
  certNotCa : config.certFile ≠ config.clientCa
  keyNotCa : config.keyFile ≠ config.clientCa
  oldPair : MatchingPair pki config before old
  different : new ≠ old
  newCert : pki.certified certPem = some new
  newKey : pki.signing keyPem = some new
  certNoKey : ∀ count, pki.signing (certPem.take count) = none
  keyNoCert : ∀ count, pki.certified (keyPem.take count) = none

section Rotation

variable {pki : Pki} {config : Config} {plan : Plan EnrollStep} {before : Path → Option Bytes}
  {old new : PublicKey} {certPem keyPem : Bytes}

theorem identity_content_untouched
    (moved : progress config.certFile certPem (plan.at .writeCert) = .untouched) :
    identityContent config certPem keyPem plan before = before := by
  simp [identityContent, certWritten, moved, Progress.content]

theorem identity_content_staged {bytes : Bytes} {temp : Path}
    (staged : config.certFile.tempPath = some temp)
    (moved : progress config.certFile certPem (plan.at .writeCert) = .staged bytes) :
    identityContent config certPem keyPem plan before =
      Function.update before temp (some bytes) := by
  simp [identityContent, certWritten, moved, Progress.content, staged]

/-- The content with the certificate in place and the key as it was. -/
def certReplaced (config : Config) (certPem : Bytes) (certTemp : Path)
    (before : Path → Option Bytes) : Path → Option Bytes :=
  Function.update (Function.update before config.certFile (some certPem)) certTemp none

/-- The certificate is new; of the key there is at most a temporary file. -/
theorem identity_content_half {certTemp : Path}
    (staged : config.certFile.tempPath = some certTemp)
    (moved : progress config.certFile certPem (plan.at .writeCert) = .replaced)
    (half : ¬bothWritten config certPem keyPem plan) :
    identityContent config certPem keyPem plan before =
        certReplaced config certPem certTemp before ∨
      ∃ keyTemp count, config.keyFile.tempPath = some keyTemp ∧
        identityContent config certPem keyPem plan before =
          Function.update (certReplaced config certPem certTemp before) keyTemp
            (some (keyPem.take count)) := by
  by_cases written : certWritten config certPem plan
  · cases keyMoved : progress config.keyFile keyPem (plan.at .writeKey) with
    | untouched =>
        left
        simp [identityContent, written, moved, keyMoved, Progress.content, staged, certReplaced]
    | staged bytes =>
        right
        obtain ⟨keyTemp, keyStaged⟩ := progress_has_temp (by rw [keyMoved]; simp)
        obtain ⟨count, rfl⟩ := staged_is_beginning keyMoved
        refine ⟨keyTemp, count, keyStaged, ?_⟩
        simp [identityContent, written, moved, keyMoved, Progress.content, staged, keyStaged,
          certReplaced]
    | replaced => exact absurd ⟨written, keyMoved⟩ half
  · left
    simp [identityContent, written, moved, Progress.content, staged, certReplaced]

theorem cert_replaced_key {certTemp : Path}
    (rotation : Rotation pki config before old new certPem keyPem) {key : PublicKey}
    (signs : (certReplaced config certPem certTemp before config.keyFile).bind pki.signing =
      some key) : key = old := by
  by_cases overTemp : config.keyFile = certTemp
  · simp [certReplaced, overTemp] at signs
  · simp only [certReplaced, Function.update_of_ne overTemp,
      Function.update_of_ne rotation.certNotKey.symm, rotation.oldPair.2, Option.some.injEq]
        at signs
    exact signs.symm

theorem cert_replaced_cert {certTemp : Path} (before : Path → Option Bytes)
    (staged : config.certFile.tempPath = some certTemp)
    (newCert : pki.certified certPem = some new) :
    (certReplaced config certPem certTemp before config.certFile).bind pki.certified =
      some new := by
  have apart : config.certFile ≠ certTemp := (Path.temp_path_ne _ _ staged).symm
  simp [certReplaced, Function.update_of_ne apart, newCert]

theorem half_written_no_pair (rotation : Rotation pki config before old new certPem keyPem)
    (moved : progress config.certFile certPem (plan.at .writeCert) = .replaced)
    (half : ¬bothWritten config certPem keyPem plan) (key : PublicKey) :
    ¬MatchingPair pki config (identityContent config certPem keyPem plan before) key := by
  obtain ⟨certTemp, staged⟩ := progress_has_temp (by rw [moved]; simp)
  have certifies := cert_replaced_cert before staged rotation.newCert
  rintro ⟨cert, signs⟩
  rcases identity_content_half staged moved half with content | ⟨keyTemp, count, keyStaged, content⟩
  · rw [content] at cert signs
    have isOld := cert_replaced_key rotation signs
    rw [certifies, Option.some.injEq, isOld] at cert
    exact rotation.different cert
  · rw [content] at cert signs
    have apart : config.keyFile ≠ keyTemp := (Path.temp_path_ne _ _ keyStaged).symm
    rw [Function.update_of_ne apart] at signs
    have isOld := cert_replaced_key rotation signs
    by_cases overCert : config.certFile = keyTemp
    · rw [← overCert, Function.update_self, Option.bind_some, rotation.keyNoCert] at cert
      cases cert
    · rw [Function.update_of_ne overCert, certifies, Option.some.injEq, isOld] at cert
      exact rotation.different cert

/-- Both files are new. -/
theorem identity_content_both {certTemp keyTemp : Path}
    (certStaged : config.certFile.tempPath = some certTemp)
    (keyStaged : config.keyFile.tempPath = some keyTemp)
    (whole : bothWritten config certPem keyPem plan) :
    identityContent config certPem keyPem plan before =
      Function.update (Function.update (certReplaced config certPem certTemp before)
        config.keyFile (some keyPem)) keyTemp none := by
  obtain ⟨written, replaced⟩ := whole
  simp [identityContent, written, written.1, replaced, Progress.content, certStaged, keyStaged,
    certReplaced]

/-- The part of a whole ending that concerns the pair alone. -/
def KeepsPair (config : Config) (certPem keyPem : Bytes) (plan : Plan EnrollStep) : Prop :=
  match progress config.certFile certPem (plan.at .writeCert) with
  | .untouched => True
  | .staged _ => config.certFile.tempPath ≠ some config.keyFile
  | .replaced =>
      bothWritten config certPem keyPem plan ∧ config.certFile ≠ config.keyFile ∧
        config.keyFile.tempPath ≠ some config.certFile

theorem ends_whole_keeps_pair (certNotKey : config.certFile ≠ config.keyFile)
    (whole : EndsWhole config certPem keyPem plan before) :
    KeepsPair config certPem keyPem plan := by
  cases moved : progress config.certFile certPem (plan.at .writeCert) with
  | untouched => simp [KeepsPair, moved]
  | staged bytes =>
      rw [EndsWhole, moved] at whole
      simpa [KeepsPair, moved] using whole.1
  | replaced =>
      rw [EndsWhole, moved] at whole
      simpa [KeepsPair, moved] using ⟨whole.1, certNotKey, whole.2.1⟩

/-- Both files are new, and neither write has removed the other's file. -/
theorem both_written_files (before : Path → Option Bytes)
    (whole : bothWritten config certPem keyPem plan) (kept : KeepsPair config certPem keyPem plan) :
    identityContent config certPem keyPem plan before config.certFile = some certPem ∧
      identityContent config certPem keyPem plan before config.keyFile = some keyPem := by
  rw [KeepsPair, whole.1.1] at kept
  obtain ⟨-, certNotKey, apart⟩ := kept
  obtain ⟨certTemp, certStaged⟩ := progress_has_temp (by rw [whole.1.1]; simp)
  obtain ⟨keyTemp, keyStaged⟩ := progress_has_temp (by rw [whole.2]; simp)
  have certUntouched : config.certFile ≠ certTemp := (Path.temp_path_ne _ _ certStaged).symm
  have keyKept : config.keyFile ≠ keyTemp := (Path.temp_path_ne _ _ keyStaged).symm
  have certKept : config.certFile ≠ keyTemp := by
    rintro rfl
    exact apart keyStaged
  rw [identity_content_both certStaged keyStaged whole]
  refine ⟨?_, ?_⟩
  · rw [Function.update_of_ne certKept, Function.update_of_ne certNotKey, certReplaced,
      Function.update_of_ne certUntouched, Function.update_self]
  · rw [Function.update_of_ne keyKept, Function.update_self]

theorem both_written_pair (before : Path → Option Bytes)
    (newCert : pki.certified certPem = some new) (newKey : pki.signing keyPem = some new)
    (whole : bothWritten config certPem keyPem plan) (kept : KeepsPair config certPem keyPem plan) :
    MatchingPair pki config (identityContent config certPem keyPem plan before) new := by
  obtain ⟨cert, key⟩ := both_written_files before whole kept
  refine ⟨?_, ?_⟩
  · rw [cert, Option.bind_some, newCert]
  · rw [key, Option.bind_some, newKey]

/-- The rename of the key's temporary file takes the certificate away. -/
theorem both_written_no_pair (whole : bothWritten config certPem keyPem plan)
    (same : config.keyFile.tempPath = some config.certFile) (key : PublicKey) :
    ¬MatchingPair pki config (identityContent config certPem keyPem plan before) key := by
  obtain ⟨certTemp, certStaged⟩ := progress_has_temp (by rw [whole.1.1]; simp)
  rintro ⟨cert, -⟩
  rw [identity_content_both certStaged same whole, Function.update_self] at cert
  cases cert

theorem both_written_ca (rotation : Rotation pki config before old new certPem keyPem)
    (whole : bothWritten config certPem keyPem plan) :
    identityContent config certPem keyPem plan before config.clientCa =
      if config.certFile.tempPath = some config.clientCa ∨
        config.keyFile.tempPath = some config.clientCa then none
      else before config.clientCa := by
  obtain ⟨certTemp, certStaged⟩ := progress_has_temp (by rw [whole.1.1]; simp)
  obtain ⟨keyTemp, keyStaged⟩ := progress_has_temp (by rw [whole.2]; simp)
  rw [identity_content_both certStaged keyStaged whole, certStaged, keyStaged]
  by_cases overKey : config.clientCa = keyTemp
  · simp [overKey]
  by_cases overCert : config.clientCa = certTemp
  · rw [Function.update_of_ne overKey, Function.update_of_ne rotation.keyNotCa.symm, certReplaced,
      overCert, Function.update_self, if_pos (Or.inl rfl)]
  · simp [certReplaced, overKey, overCert, Ne.symm overKey, Ne.symm overCert,
      rotation.keyNotCa.symm, rotation.certNotCa.symm]

/-- Without the key's replacement the pair stays as it was. -/
theorem kept_same_pair (kept : KeepsPair config certPem keyPem plan)
    (half : ¬bothWritten config certPem keyPem plan) :
    SamePair config before (identityContent config certPem keyPem plan before) := by
  cases moved : progress config.certFile certPem (plan.at .writeCert) with
  | untouched =>
      rw [identity_content_untouched moved]
      exact ⟨rfl, rfl⟩
  | staged bytes =>
      rw [KeepsPair, moved] at kept
      obtain ⟨temp, staged⟩ := progress_has_temp (by rw [moved]; simp)
      have certKept : config.certFile ≠ temp := (Path.temp_path_ne _ _ staged).symm
      have keyKept : config.keyFile ≠ temp := by
        rintro rfl
        exact kept staged
      rw [identity_content_staged staged moved]
      exact ⟨Function.update_of_ne certKept .., Function.update_of_ne keyKept ..⟩
  | replaced =>
      rw [KeepsPair, moved] at kept
      exact absurd kept.1 half

/-- A beginning of the certificate in the temporary file is harmless unless a
configured file stands there. -/
theorem staged_files_whole_iff (rotation : Rotation pki config before old new certPem keyPem)
    {bytes : Bytes} (moved : progress config.certFile certPem (plan.at .writeCert) =
      .staged bytes) :
    FilesWhole pki config new before (identityContent config certPem keyPem plan before) ↔
      EndsWhole config certPem keyPem plan before := by
  obtain ⟨temp, staged⟩ := progress_has_temp (by rw [moved]; simp)
  obtain ⟨count, beginning⟩ := staged_is_beginning moved
  have half : ¬bothWritten config certPem keyPem plan := by
    rintro ⟨⟨replaced, -⟩, -⟩
    simp [moved] at replaced
  constructor
  · intro files
    rw [identity_content_staged staged moved] at files
    rw [EndsWhole, moved]
    refine ⟨fun overKey => ?_, fun overCa => ?_⟩
    · obtain ⟨key, -, signs⟩ := files.pair
      rw [staged] at overKey
      rw [← Option.some.inj overKey, Function.update_self, Option.bind_some, beginning,
        rotation.certNoKey] at signs
      cases signs
    · have kept := files.clientCa
      rw [staged] at overCa
      rw [← Option.some.inj overCa, Function.update_self] at kept
      rw [← Option.some.inj overCa, kept]
  · intro whole
    have same : SamePair config before (identityContent config certPem keyPem plan before) :=
      kept_same_pair (ends_whole_keeps_pair rotation.certNotKey whole) half
    refine ⟨⟨old, ?_⟩, Or.inl same, ?_⟩
    · rw [MatchingPair, same.1, same.2]
      exact rotation.oldPair
    · rw [EndsWhole, moved] at whole
      rw [identity_content_staged staged moved]
      by_cases overCa : config.clientCa = temp
      · rw [overCa, Function.update_self, ← overCa, whole.2 (by rw [staged, overCa])]
      · rw [Function.update_of_ne overCa]

theorem replaced_files_whole_iff (rotation : Rotation pki config before old new certPem keyPem)
    (moved : progress config.certFile certPem (plan.at .writeCert) = .replaced) :
    FilesWhole pki config new before (identityContent config certPem keyPem plan before) ↔
      EndsWhole config certPem keyPem plan before := by
  rw [EndsWhole, moved]
  constructor
  · rintro ⟨⟨key, pair⟩, -, ca⟩
    have whole : bothWritten config certPem keyPem plan := by
      by_contra half
      exact half_written_no_pair rotation moved half key pair
    refine ⟨whole, fun same => both_written_no_pair whole same key pair, fun overCa => ?_⟩
    rw [both_written_ca rotation whole, if_pos overCa] at ca
    exact ca.symm
  · rintro ⟨whole, apart, ca⟩
    have kept : KeepsPair config certPem keyPem plan := by
      rw [KeepsPair, moved]
      exact ⟨whole, rotation.certNotKey, apart⟩
    have pair := both_written_pair before rotation.newCert rotation.newKey whole kept
    refine ⟨⟨new, pair⟩, Or.inr pair, ?_⟩
    rw [both_written_ca rotation whole]
    split
    · rename_i overCa
      exact (ca overCa).symm
    · rfl

theorem files_whole_iff (rotation : Rotation pki config before old new certPem keyPem) :
    FilesWhole pki config new before (identityContent config certPem keyPem plan before) ↔
      EndsWhole config certPem keyPem plan before := by
  cases moved : progress config.certFile certPem (plan.at .writeCert) with
  | untouched =>
      rw [identity_content_untouched moved, EndsWhole, moved, iff_true]
      exact ⟨⟨old, rotation.oldPair⟩, Or.inl ⟨rfl, rfl⟩, rfl⟩
  | staged bytes => exact staged_files_whole_iff rotation moved
  | replaced => exact replaced_files_whole_iff rotation moved

end Rotation

/-- What a renewal starts from, and what is assumed of the libraries and of the
EST server: it certifies the key in the request, and a generated key is new. -/
structure Renewal (pki : Pki) (server : EstServer) (fresh : KeyPair) (config : Config)
    (before : Path → Option Bytes) (old : PublicKey) : Prop where
  encodes : pki.Encodes
  generates : pki.Generates fresh
  certifies : ∀ request certificate, server request = .issued certificate →
    certificate.publicKey = request.csr.publicKey
  different : fresh.publicKey ≠ old
  certNotKey : config.certFile ≠ config.keyFile
  certNotCa : config.certFile ≠ config.clientCa
  keyNotCa : config.keyFile ≠ config.clientCa
  oldPair : MatchingPair pki config before old

section Renewal

variable {pki : Pki} {server : EstServer} {fresh : KeyPair} {config : Config}
  {plan : Plan EnrollStep} {world : World} {old : PublicKey} {certPem : String}

/-- A certificate that is issued certifies the key that was generated. -/
theorem issued_pem_certifies {disk : Disk} (encodes : pki.Encodes)
    (certifies : ∀ request certificate, server request = .issued certificate →
      certificate.publicKey = request.csr.publicKey)
    (found : issuedPem pki server fresh config plan disk = some certPem) :
    pki.certified (asBytes certPem) = some fresh.publicKey ∧
      ∀ count, pki.signing ((asBytes certPem).take count) = none := by
  simp only [issuedPem, Option.bind_eq_bind, Option.bind_eq_some_iff] at found
  obtain ⟨certificate, answered, encoded⟩ := found
  have text : pki.toPem certificate = .ok certPem := by
    cases written : pki.toPem certificate with
    | error err => simp [written, Except.toOption] at encoded
    | ok text => simpa [written, Except.toOption] using encoded
  obtain ⟨-, request, asked, answer⟩ := (issued_eq_some_iff ..).mp answered
  refine ⟨?_, fun count => encodes.noKey certificate certPem count text⟩
  rw [encodes.certified certificate certPem text, certifies request certificate answer,
    request_for_public_key asked]

theorem Renewal.rotation {disk : Disk}
    (renewal : Renewal pki server fresh config disk.content old)
    (found : issuedPem pki server fresh config plan disk = some certPem) :
    Rotation pki config disk.content old fresh.publicKey (asBytes certPem)
      (asBytes fresh.pem) where
  certNotKey := renewal.certNotKey
  certNotCa := renewal.certNotCa
  keyNotCa := renewal.keyNotCa
  oldPair := renewal.oldPair
  different := renewal.different
  newCert := (issued_pem_certifies renewal.encodes renewal.certifies found).1
  newKey := renewal.generates.signing
  certNoKey := (issued_pem_certifies renewal.encodes renewal.certifies found).2
  keyNoCert := renewal.generates.noCertificate

/-- A re-enrollment is all or nothing exactly when its writes end whole. -/
theorem reenroll_all_or_nothing_iff (plan : Plan EnrollStep) (world : World)
    (renewal : Renewal pki server fresh config world.disk.content old) :
    AllOrNothing pki config fresh world.disk
        ((reenroll pki server fresh config none).run plan world) ↔
      ∀ certPem, issuedPem pki server fresh config plan world.disk = some certPem →
        EndsWhole config (asBytes certPem) (asBytes fresh.pem) plan world.disk.content := by
  have result := reenroll_result pki server fresh config plan world
  have content := result.content
  cases found : issuedPem pki server fresh config plan world.disk with
  | none =>
      rw [reenrolledContent, found] at content
      have same : SamePair config world.disk.content
          ((reenroll pki server fresh config none).run plan world).2.disk.content := by
        rw [content]
        exact ⟨rfl, rfl⟩
      refine ⟨by simp, fun _ => ⟨⟨⟨old, ?_⟩, Or.inl same, by rw [content]⟩, fun _ _ => same⟩⟩
      rw [content]
      exact renewal.oldPair
  | some certPem =>
      rw [reenrolledContent, found] at content
      have rotation := renewal.rotation found
      simp only [Option.some.injEq, forall_eq']
      constructor
      · rintro ⟨files, -⟩
        rw [content] at files
        exact (files_whole_iff rotation).mp files
      · intro whole
        refine ⟨by rw [content]; exact (files_whole_iff rotation).mpr whole, fun error answer => ?_⟩
        rw [content]
        exact kept_same_pair (ends_whole_keeps_pair renewal.certNotKey whole)
          (result.failed error certPem answer found)

end Renewal

/-- The disk of a node that holds the identity in `tests/fixtures`. -/
def nodeDisk : Disk where
  files := fun path =>
    if path = testConfig.certFile then some ⟨asBytes nodePem, 0o644⟩
    else if path = testConfig.keyFile then some ⟨asBytes nodeKeyPem, 0o600⟩
    else if path = testConfig.enrollment.est.caCertFile then some ⟨asBytes serverPem, 0o644⟩
    else if path = testConfig.clientCa then some ⟨asBytes serverPem, 0o644⟩
    else none
  dirs := fun _ => true

/-- A server that knows one key to certify. -/
def fixtureServer : EstServer := fun request =>
  if request.csr.publicKey = serverCertificate.publicKey then .issued serverCertificate
  else .pending 60

section Sample

theorem fixture_server_issues {request : EstRequest}
    (known : request.csr.publicKey = serverCertificate.publicKey) :
    fixtureServer request = .issued serverCertificate :=
  if_pos known

theorem fixture_server_certifies (request : EstRequest) (certificate : Certificate)
    (answer : fixtureServer request = .issued certificate) :
    certificate.publicKey = request.csr.publicKey := by
  simp only [fixtureServer] at answer
  split at answer
  · rename_i known
    rw [← EnrollmentResponse.issued.inj answer, known]
  · cases answer

theorem node_disk_content :
    nodeDisk.content testConfig.certFile = some (asBytes nodePem) ∧
      nodeDisk.content testConfig.keyFile = some (asBytes nodeKeyPem) ∧
      nodeDisk.content testConfig.enrollment.est.caCertFile = some (asBytes serverPem) ∧
      nodeDisk.content testConfig.clientCa = some (asBytes serverPem) := by
  have keyNotCert : testConfig.keyFile ≠ testConfig.certFile := by decide
  have caNotCert : testConfig.enrollment.est.caCertFile ≠ testConfig.certFile := by decide
  have caNotKey : testConfig.enrollment.est.caCertFile ≠ testConfig.keyFile := by decide
  have clientNotCert : testConfig.clientCa ≠ testConfig.certFile := by decide
  have clientNotKey : testConfig.clientCa ≠ testConfig.keyFile := by decide
  simp [Disk.content, nodeDisk, keyNotCert, caNotCert, caNotKey, clientNotCert, clientNotKey]

theorem node_disk_pair :
    MatchingPair fixturePki testConfig nodeDisk.content nodeCertificate.publicKey := by
  obtain ⟨cert, key, -⟩ := node_disk_content
  refine ⟨Option.bind_eq_some_iff.mpr ⟨_, cert, ?_⟩, Option.bind_eq_some_iff.mpr ⟨_, key, ?_⟩⟩
  · exact fixture_certified_node rfl
  · exact fixture_signing_node rfl

theorem node_renewal :
    Renewal fixturePki fixtureServer serverKeyPair testConfig nodeDisk.content
      nodeCertificate.publicKey where
  encodes := fixture_pki_encodes
  generates := server_key_pair_generates
  certifies := fixture_server_certifies
  different := by decide
  certNotKey := by decide
  certNotCa := by decide
  keyNotCa := by decide
  oldPair := node_disk_pair

theorem reenroll_all_or_nothing_iff_sample :
    Renewal fixturePki fixtureServer serverKeyPair testConfig nodeDisk.content
        nodeCertificate.publicKey ∧
      (AllOrNothing fixturePki testConfig serverKeyPair nodeDisk
          ((reenroll fixturePki fixtureServer serverKeyPair testConfig none).run Plan.allDone
            ⟨nodeDisk, []⟩) ↔
        ∀ certPem, issuedPem fixturePki fixtureServer serverKeyPair testConfig Plan.allDone
            nodeDisk = some certPem →
          EndsWhole testConfig (asBytes certPem) (asBytes serverKeyPair.pem) Plan.allDone
            nodeDisk.content) :=
  ⟨node_renewal, reenroll_all_or_nothing_iff Plan.allDone ⟨nodeDisk, []⟩ node_renewal⟩

/-- Where no step before the writes fails, the fixture server's certificate is
the one to be written. -/
theorem issued_pem_sample {plan : Plan EnrollStep}
    (reached : ∀ label ∈ requestSteps, plan label = .done) :
    issuedPem fixturePki fixtureServer serverKeyPair testConfig plan nodeDisk = some serverPem := by
  obtain ⟨cert, key, ca, -⟩ := node_disk_content
  have answered : issued fixtureServer serverKeyPair testConfig plan nodeDisk =
      some serverCertificate := by
    have asked : requestFor serverKeyPair testConfig nodeDisk = some
        ⟨estClientConfig testConfig (.clientCert (asBytes nodePem) (asBytes nodeKeyPem))
          (asBytes serverPem), csrFor testConfig.nodeId serverKeyPair.publicKey⟩ := by
      simp only [requestFor, cert, key, ca, Option.bind_eq_bind, Option.bind_some]
    exact (issued_eq_some_iff ..).mpr ⟨reached, _, asked, fixture_server_issues rfl⟩
  simp only [issuedPem, answered, Option.bind_eq_bind, Option.bind_some, server_to_pem]
  rfl

/-- The certificate is written, and then the key's temporary file cannot be
opened. -/
def tornPlan : Plan EnrollStep := fun label =>
  if label = .writeKey .openTemp then .fails 0 else .done

theorem reenroll_torn :
    Renewal fixturePki fixtureServer serverKeyPair testConfig nodeDisk.content
        nodeCertificate.publicKey ∧
      ¬AllOrNothing fixturePki testConfig serverKeyPair nodeDisk
        ((reenroll fixturePki fixtureServer serverKeyPair testConfig none).run tornPlan
          ⟨nodeDisk, []⟩) := by
  refine ⟨node_renewal, fun outcome => ?_⟩
  have found := issued_pem_sample (by decide : ∀ label ∈ requestSteps, tornPlan label = .done)
  have content := (reenroll_result fixturePki fixtureServer serverKeyPair testConfig tornPlan
    ⟨nodeDisk, []⟩).content
  simp only [reenrolledContent, found] at content
  obtain ⟨key, pair⟩ := outcome.files.pair
  rw [content] at pair
  have rotation := node_renewal.rotation found
  have moved : progress testConfig.certFile (asBytes serverPem) (tornPlan.at .writeCert) =
      .replaced := rfl
  refine half_written_no_pair rotation moved ?_ key pair
  rintro ⟨-, keyMoved⟩
  have stuck : progress testConfig.keyFile (asBytes serverKeyPair.pem) (tornPlan.at .writeKey) =
      .untouched := rfl
  rw [stuck] at keyMoved
  cases keyMoved

end Sample

end NodeOs.Noded.IdentityPair
