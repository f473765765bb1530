import NodeOs.Noded.IdentityPair

/-!
# EST bootstrap enrollment

`bootstrap_enroll` fetches the CA bundle, obtains a certificate with the bearer
token, and writes certificate, key and bundle in this order. Whether a node has
been bootstrapped is later judged by the existence of the three files alone.
-/

namespace NodeOs.Noded.Bootstrap

open NodeOs.Library.FaultPlan NodeOs.Library.FaultPlan.Proc
open NodeOs.Noded.FileSystem NodeOs.Noded.WriteAtomic NodeOs.Noded.Enrollment
open NodeOs.Noded.IdentityPair

/-- What the EST server answers to the two requests of a bootstrap. -/
structure BootstrapServer where
  cacerts : EstClientConfig → List Certificate
  simpleenroll : EstServer

def getCaCerts (server : BootstrapServer) (client : EstClientConfig) :
    Enroll (List Certificate) := do
  let send (world : World) : World := { world with sent := world.sent ++ [.cacerts client] }
  let caCerts ← step .getCaCerts [s!"EST cacerts failed: {libraryError}"]
    (fun extent world => if extent = 0 then world else send world)
    (fun world => (.ok (server.cacerts client), send world))
  if caCerts.isEmpty then raise ["EST cacerts returned no certificates"] else pure caCerts

def simpleEnroll (server : BootstrapServer) (client : EstClientConfig) (csr : Csr) :
    Enroll EnrollmentResponse :=
  let send (world : World) : World :=
    { world with sent := world.sent ++ [.simpleEnroll ⟨client, csr⟩] }
  step .request [s!"EST simpleenroll failed: {libraryError}"]
    (fun extent world => if extent = 0 then world else send world)
    (fun world => (.ok (server.simpleenroll ⟨client, csr⟩), send world))

/-- The part before the CSR. -/
def openBootstrap (server : BootstrapServer) (config : Config) :
    Enroll (EstClientConfig × List Certificate) := do
  let client ← buildEstConfig config (.bearer config.enrollment.est.bearerToken)
  let client ← newClient client
  let caCerts ← getCaCerts server client
  pure (client, caCerts)

/-- The certificate for a generated key, with the key's PEM text. -/
def requestIdentity (server : BootstrapServer) (fresh : KeyPair) (config : Config)
    (client : EstClientConfig) : Enroll (Certificate × String) := do
  let (csr, keyPem) ← generateNodeCsr config.nodeId fresh
  let response ← simpleEnroll server client csr
  let certificate ← ofExcept (issuedCert response "enrollment")
  pure (certificate, keyPem)

/-- The certificate for the key in the token. -/
def requestIdentityTpm (server : BootstrapServer) (config : Config) (tpm : TpmIdentity)
    (client : EstClientConfig) : Enroll Certificate := do
  let csr ← generateNodeCsrTpm config.nodeId tpm
  let response ← simpleEnroll server client csr
  ofExcept (issuedCert response "enrollment")

def enrollIdentity (pki : Pki) (server : BootstrapServer) (fresh : KeyPair) (config : Config)
    (client : EstClientConfig) : Option TpmIdentity → Enroll Unit
  | some tpm => do
      let certificate ← requestIdentityTpm server config tpm client
      writeCertOnly pki config certificate
  | none => do
      let (certificate, keyPem) ← requestIdentity server fresh config client
      writeIdentity pki config certificate keyPem

/-- The PEM texts of the bundle, one after the other. -/
def encodeBundle (pki : Pki) : List Certificate → Except Error String
  | [] => .ok ""
  | certificate :: more => do
      let pem ← (pki.toPem certificate).mapError fun err => [s!"encode CA certificate PEM: {err}"]
      let rest ← encodeBundle pki more
      .ok (pem ++ rest)

def writeClientCa (pki : Pki) (config : Config) (caCerts : List Certificate) : Enroll Unit := do
  let clientCaPem ← ofExcept (encodeBundle pki caCerts)
  writeFile .writeCa "write client CA bundle" config.clientCa (asBytes clientCaPem) false

def bootstrapEnroll (pki : Pki) (server : BootstrapServer) (fresh : KeyPair) (config : Config)
    (tpm : Option TpmIdentity) : Enroll Unit := do
  let (client, caCerts) ← openBootstrap server config
  enrollIdentity pki server fresh config client tpm
  writeClientCa pki config caCerts

/-- The steps that have to succeed before anything is written. -/
def bootstrapSteps : List EnrollStep :=
  [.readEstCa, .parseServerUrl, .buildConfig, .newClient, .getCaCerts, .generateCsr, .request]

/-- The certificate and the CA bundle that the environment lets a call obtain for
a key, if any. -/
def bootstrapIssued (server : BootstrapServer) (key : PublicKey) (config : Config)
    (plan : Plan EnrollStep) (disk : Disk) : Option (Certificate × List Certificate) :=
  if ∀ label ∈ bootstrapSteps, plan label = .done then do
    let caPem ← disk.content config.enrollment.est.caCertFile
    let client := estClientConfig config (.bearer config.enrollment.est.bearerToken) caPem
    if server.cacerts client = [] then none
    else match server.simpleenroll ⟨client, csrFor config.nodeId key⟩ with
      | .issued certificate => some (certificate, server.cacerts client)
      | .pending _ => none
  else none

section Running

variable (plan : Plan EnrollStep) (world : World) (server : BootstrapServer) (config : Config)

theorem get_ca_certs_keeps (client : EstClientConfig) :
    Keeps World.disk (getCaCerts server client) := by
  unfold getCaCerts
  apply Keeps.bind
  · apply Keeps.step
    · intro world
      rfl
    · intro extent world
      by_cases unsent : extent = 0 <;> simp [unsent]
  · intro caCerts
    cases caCerts with
    | nil => exact .raise _
    | cons certificate more => exact .ret _

theorem get_ca_certs_ok_iff (client : EstClientConfig) (caCerts : List Certificate) :
    ((getCaCerts server client).run plan world).1 = .ok caCerts ↔
      plan .getCaCerts = .done ∧ server.cacerts client = caCerts ∧ caCerts ≠ [] := by
  unfold getCaCerts
  rw [run_bind, run_step]
  cases plan .getCaCerts with
  | fails extent => simp
  | killed extent => simp
  | done =>
      simp only [true_and]
      cases server.cacerts client with
      | nil =>
          simp only [List.isEmpty_nil, if_true, run_raise]
          constructor
          · intro answer
            cases answer
          · intro answer
            exact absurd answer.1.symm answer.2
      | cons certificate more =>
          simp only [List.isEmpty_cons, Bool.false_eq_true, if_false, run_pure, Outcome.ok.injEq]
          constructor
          · intro same
            exact ⟨same, by simp [← same]⟩
          · intro answer
            exact answer.1

theorem simple_enroll_keeps (client : EstClientConfig) (csr : Csr) :
    Keeps World.disk (simpleEnroll server client csr) := by
  apply Keeps.step
  · intro world
    rfl
  · intro extent world
    by_cases unsent : extent = 0 <;> simp [unsent]

theorem simple_enroll_ok_iff (client : EstClientConfig) (csr : Csr)
    (response : EnrollmentResponse) :
    ((simpleEnroll server client csr).run plan world).1 = .ok response ↔
      plan .request = .done ∧ server.simpleenroll ⟨client, csr⟩ = response := by
  rw [simpleEnroll, run_step]
  cases plan .request <;> simp

theorem open_bootstrap_keeps : Keeps World.disk (openBootstrap server config) :=
  .bind (build_est_config_keeps _ _) fun _ =>
  .bind (new_client_keeps _) fun _ =>
  .bind (get_ca_certs_keeps _ _) fun _ => .ret _

theorem open_bootstrap_ok_iff (client : EstClientConfig) (caCerts : List Certificate) :
    ((openBootstrap server config).run plan world).1 = .ok (client, caCerts) ↔
      plan .readEstCa = .done ∧ plan .parseServerUrl = .done ∧ plan .buildConfig = .done ∧
        plan .newClient = .done ∧ plan .getCaCerts = .done ∧
        ∃ caPem, world.disk.content config.enrollment.est.caCertFile = some caPem ∧
          estClientConfig config (.bearer config.enrollment.est.bearerToken) caPem = client ∧
            server.cacerts client = caCerts ∧ caCerts ≠ [] := by
  have built (auth : Auth) : ((buildEstConfig config auth).run plan world).2 = world :=
    (build_est_config_keeps config auth : Keeps id _) plan world
  have opened (client : EstClientConfig) : ((newClient client).run plan world).2 = world :=
    (new_client_keeps client : Keeps id _) plan world
  simp only [openBootstrap, run_bind_ok_iff, built, opened, build_est_config_ok_iff,
    new_client_ok_iff, get_ca_certs_ok_iff, run_pure, Outcome.ok.injEq, Prod.mk.injEq]
  constructor
  · rintro ⟨_, ⟨read, parsed, built, caPem, there, rfl⟩, _, ⟨created, rfl⟩, _,
      ⟨fetched, answer, filled⟩, rfl, rfl⟩
    exact ⟨read, parsed, built, created, fetched, caPem, there, rfl, answer, filled⟩
  · rintro ⟨read, parsed, built, created, fetched, caPem, there, rfl, answer, filled⟩
    exact ⟨_, ⟨read, parsed, built, caPem, there, rfl⟩, _, ⟨created, rfl⟩, _,
      ⟨fetched, answer, filled⟩, rfl, rfl⟩

theorem request_identity_keeps (fresh : KeyPair) (client : EstClientConfig) :
    Keeps World.disk (requestIdentity server fresh config client) :=
  .bind (generate_node_csr_keeps _ _) fun _ =>
  .bind (simple_enroll_keeps _ _ _) fun _ => .bind (.ofExcept _) fun _ => .ret _

theorem request_identity_ok_iff (fresh : KeyPair) (client : EstClientConfig)
    (certificate : Certificate) (keyPem : String) :
    ((requestIdentity server fresh config client).run plan world).1 =
        .ok (certificate, keyPem) ↔
      plan .generateCsr = .done ∧ plan .request = .done ∧
        server.simpleenroll ⟨client, csrFor config.nodeId fresh.publicKey⟩ =
          .issued certificate ∧ fresh.pem = keyPem := by
  simp only [requestIdentity, run_bind_ok_iff, generate_node_csr_ok_iff, simple_enroll_ok_iff,
    run_ofExcept_ok_iff, issued_cert_ok_iff, run_pure, Outcome.ok.injEq, Prod.mk.injEq]
  constructor
  · rintro ⟨_, ⟨generated, rfl⟩, _, ⟨sent, answer⟩, _, issued, rfl, rfl⟩
    exact ⟨generated, sent, answer.trans issued, rfl⟩
  · rintro ⟨generated, sent, answer, rfl⟩
    exact ⟨_, ⟨generated, rfl⟩, _, ⟨sent, rfl⟩, certificate, answer, rfl, rfl⟩

theorem generate_node_csr_tpm_keeps (nodeId : String) (tpm : TpmIdentity) :
    Keeps World.disk (generateNodeCsrTpm nodeId tpm) :=
  .bind (.check _ _) fun _ => .ret _

theorem request_identity_tpm_keeps (tpm : TpmIdentity) (client : EstClientConfig) :
    Keeps World.disk (requestIdentityTpm server config tpm client) :=
  .bind (generate_node_csr_tpm_keeps _ _) fun _ =>
  .bind (simple_enroll_keeps _ _ _) fun _ => .ofExcept _

theorem request_identity_tpm_ok_iff (tpm : TpmIdentity) (client : EstClientConfig)
    (certificate : Certificate) :
    ((requestIdentityTpm server config tpm client).run plan world).1 = .ok certificate ↔
      plan .generateCsr = .done ∧ plan .request = .done ∧
        server.simpleenroll ⟨client, csrFor config.nodeId tpm.publicKey⟩ =
          .issued certificate := by
  simp only [requestIdentityTpm, generateNodeCsrTpm, run_bind_ok_iff, run_check_ok_iff,
    simple_enroll_ok_iff, run_ofExcept_ok_iff, issued_cert_ok_iff, run_pure, Outcome.ok.injEq]
  constructor
  · rintro ⟨_, ⟨_, generated, rfl⟩, _, ⟨sent, answer⟩, issued⟩
    exact ⟨generated, sent, answer.trans issued⟩
  · rintro ⟨generated, sent, answer⟩
    exact ⟨_, ⟨(), generated, rfl⟩, _, ⟨sent, rfl⟩, answer⟩

theorem bootstrap_issued_eq_some_iff (key : PublicKey) (disk : Disk) (certificate : Certificate)
    (caCerts : List Certificate) :
    bootstrapIssued server key config plan disk = some (certificate, caCerts) ↔
      (∀ label ∈ bootstrapSteps, plan label = .done) ∧
        ∃ caPem, disk.content config.enrollment.est.caCertFile = some caPem ∧
          server.cacerts (estClientConfig config (.bearer config.enrollment.est.bearerToken)
            caPem) = caCerts ∧ caCerts ≠ [] ∧
          server.simpleenroll ⟨estClientConfig config (.bearer config.enrollment.est.bearerToken)
            caPem, csrFor config.nodeId key⟩ = .issued certificate := by
  unfold bootstrapIssued
  by_cases reached : ∀ label ∈ bootstrapSteps, plan label = .done
  · rw [if_pos reached, and_iff_right reached]
    simp only [Option.bind_eq_bind, Option.bind_eq_some_iff]
    apply exists_congr
    intro caPem
    apply and_congr_right
    intro there
    by_cases nothing : server.cacerts (estClientConfig config
        (.bearer config.enrollment.est.bearerToken) caPem) = []
    · simp only [nothing, if_true, reduceCtorEq, false_iff]
      rintro ⟨same, filled, -⟩
      exact filled same.symm
    · simp only [nothing, if_false]
      cases server.simpleenroll ⟨estClientConfig config
          (.bearer config.enrollment.est.bearerToken) caPem, csrFor config.nodeId key⟩ with
      | pending retryAfter => simp
      | issued other =>
          simp only [Option.some.injEq, Prod.mk.injEq, EnrollmentResponse.issued.injEq]
          constructor
          · rintro ⟨rfl, rfl⟩
            exact ⟨rfl, nothing, rfl⟩
          · rintro ⟨rfl, -, rfl⟩
            exact ⟨rfl, rfl⟩
  · rw [if_neg reached]
    simp [reached]

end Running

/-- What the three writes of a bootstrap with a key file make of the files. -/
def bootstrappedContent (pki : Pki) (config : Config) (certPem keyPem : Bytes)
    (caCerts : List Certificate) (plan : Plan EnrollStep) (before : Path → Option Bytes) :
    Path → Option Bytes :=
  let pair := identityContent config certPem keyPem plan before
  if bothWritten config certPem keyPem plan ∧ survivesSync (plan.at .writeKey) = true then
    match encodeBundle pki caCerts with
    | .ok caPem =>
        (progress config.clientCa (asBytes caPem) (plan.at .writeCa)).content config.clientCa
          (asBytes caPem) pair
    | .error _ => pair
  else pair

section Result

variable {pki : Pki} {server : BootstrapServer} {fresh : KeyPair} {config : Config}
  {plan : Plan EnrollStep} {world : World}

/-- What a call has behind it that obtains a certificate. -/
theorem bootstrap_issued_opened {key : PublicKey} {certificate : Certificate}
    {caCerts : List Certificate}
    (found : bootstrapIssued server key config plan world.disk = some (certificate, caCerts)) :
    ∃ client, ((openBootstrap server config).run plan world).1 = .ok (client, caCerts) ∧
      plan .generateCsr = .done ∧ plan .request = .done ∧
      server.simpleenroll ⟨client, csrFor config.nodeId key⟩ = .issued certificate := by
  obtain ⟨reached, caPem, there, bundle, filled, answer⟩ :=
    (bootstrap_issued_eq_some_iff ..).mp found
  simp only [bootstrapSteps, List.forall_mem_cons] at reached
  obtain ⟨read, parsed, built, created, fetched, generated, sent, -⟩ := reached
  have opened := (open_bootstrap_ok_iff plan world server config _ caCerts).mpr
    ⟨read, parsed, built, created, fetched, caPem, there, rfl, bundle, filled⟩
  exact ⟨_, opened, generated, sent, answer⟩

/-- A call that obtains a certificate goes on to write it, and then the
bundle. -/
theorem bootstrap_issued_run (pki : Pki) {certificate : Certificate} {caCerts : List Certificate}
    (found : bootstrapIssued server fresh.publicKey config plan world.disk =
      some (certificate, caCerts)) :
    ∃ later : World, later.disk = world.disk ∧
      (bootstrapEnroll pki server fresh config none).run plan world =
        (do
          writeIdentity pki config certificate fresh.pem
          writeClientCa pki config caCerts : Enroll Unit).run plan later := by
  obtain ⟨client, opened, generated, sent, answer⟩ := bootstrap_issued_opened found
  have openKept := open_bootstrap_keeps server config plan world
  have requested := (request_identity_ok_iff plan
    ((openBootstrap server config).run plan world).2 server config fresh client certificate
    fresh.pem).mpr ⟨generated, sent, answer, rfl⟩
  have requestKept := request_identity_keeps server config fresh client plan
    ((openBootstrap server config).run plan world).2
  refine ⟨_, requestKept.trans openKept, ?_⟩
  rw [bootstrapEnroll, run_bind_of_ok _ _ opened]
  simp only [enrollIdentity]
  rw [run_bind_assoc, run_bind_of_ok _ _ requested]

/-- The same with the key in a token, for which the certificate alone is
written. -/
theorem bootstrap_issued_run_tpm (pki : Pki) {tpm : TpmIdentity} {certificate : Certificate}
    {caCerts : List Certificate}
    (found : bootstrapIssued server tpm.publicKey config plan world.disk =
      some (certificate, caCerts)) :
    ∃ later : World, later.disk = world.disk ∧
      (bootstrapEnroll pki server fresh config (some tpm)).run plan world =
        (do
          writeCertOnly pki config certificate
          writeClientCa pki config caCerts : Enroll Unit).run plan later := by
  obtain ⟨client, opened, generated, sent, answer⟩ := bootstrap_issued_opened found
  have openKept := open_bootstrap_keeps server config plan world
  have requested := (request_identity_tpm_ok_iff plan
    ((openBootstrap server config).run plan world).2 server config tpm client certificate).mpr
      ⟨generated, sent, answer⟩
  have requestKept := request_identity_tpm_keeps server config tpm client plan
    ((openBootstrap server config).run plan world).2
  refine ⟨_, requestKept.trans openKept, ?_⟩
  rw [bootstrapEnroll, run_bind_of_ok _ _ opened]
  simp only [enrollIdentity]
  rw [run_bind_assoc, run_bind_of_ok _ _ requested]

/-- A call that obtains none leaves the disk alone. -/
theorem bootstrap_not_issued_run (pki : Pki)
    (nothing : bootstrapIssued server fresh.publicKey config plan world.disk = none) :
    ((bootstrapEnroll pki server fresh config none).run plan world).2.disk = world.disk ∧
      ∀ value, ((bootstrapEnroll pki server fresh config none).run plan world).1 ≠ .ok value := by
  have openKept := open_bootstrap_keeps server config plan world
  rw [bootstrapEnroll]
  by_cases opened : ∃ value, ((openBootstrap server config).run plan world).1 = .ok value
  · obtain ⟨⟨client, caCerts⟩, opened⟩ := opened
    rw [run_bind_of_ok _ _ opened]
    have requestKept := request_identity_keeps server config fresh client plan
      ((openBootstrap server config).run plan world).2
    have stopped (value : Certificate × String) :
        ((requestIdentity server fresh config client).run plan
          ((openBootstrap server config).run plan world).2).1 ≠ .ok value := by
      intro requested
      obtain ⟨certificate, keyPem⟩ := value
      obtain ⟨read, parsed, built, created, fetched, caPem, there, rfl, bundle, filled⟩ :=
        (open_bootstrap_ok_iff ..).mp opened
      obtain ⟨generated, sent, answer, -⟩ := (request_identity_ok_iff ..).mp requested
      have found := (bootstrap_issued_eq_some_iff plan server config fresh.publicKey world.disk
        certificate caCerts).mpr ⟨by simp [bootstrapSteps, *], caPem, there, bundle, filled, answer⟩
      simp [nothing] at found
    simp only [enrollIdentity]
    rw [run_bind_assoc]
    have ending := run_bind_of_not_ok plan _ (fun (certificate, keyPem) => do
      writeIdentity pki config certificate keyPem
      writeClientCa pki config caCerts) stopped
    exact ⟨(congrArg World.disk ending.1).trans (requestKept.trans openKept), ending.2⟩
  · have ending := run_bind_of_not_ok plan world (fun (client, caCerts) => do
      enrollIdentity pki server fresh config client none
      writeClientCa pki config caCerts) fun value answer => opened ⟨value, answer⟩
    exact ⟨(congrArg World.disk ending.1).trans openKept, ending.2⟩

theorem write_cert_only_run {certificate : Certificate} {certPem : String}
    (encoded : pki.toPem certificate = .ok certPem) (plan : Plan EnrollStep) (world : World) :
    (writeCertOnly pki config certificate).run plan world =
      (writeFile .writeCert "write node certificate" config.certFile (asBytes certPem) false).run
        plan world := by
  have found : encodeCert pki certificate = .ok certPem := by
    simp [encodeCert, encoded, Except.mapError]
  rw [writeCertOnly, found]
  rfl

/-- Where the write of the certificate is cut, its progress is all that shows. -/
theorem bootstrap_cut_content_tpm {tpm : TpmIdentity} {certificate : Certificate}
    {caCerts : List Certificate} {certPem : String}
    (found : bootstrapIssued server tpm.publicKey config plan world.disk =
      some (certificate, caCerts))
    (encoded : pki.toPem certificate = .ok certPem)
    (cut : progress config.certFile (asBytes certPem) (plan.at .writeCert) = .replaced →
      survivesSync (plan.at .writeCert) = false) :
    ((bootstrapEnroll pki server fresh config (some tpm)).run plan world).2.disk.content =
      (progress config.certFile (asBytes certPem) (plan.at .writeCert)).content config.certFile
        (asBytes certPem) world.disk.content := by
  obtain ⟨later, sameDisk, ran⟩ :
      ∃ later : World, later.disk = world.disk ∧
        (bootstrapEnroll pki server fresh config (some tpm)).run plan world = _ :=
    bootstrap_issued_run_tpm pki found
  have stopped (value : Unit) :
      ((writeCertOnly pki config certificate).run plan later).1 ≠ .ok value := by
    rw [write_cert_only_run encoded]
    intro returned
    obtain ⟨replaced, survived⟩ := (write_file_ok_iff ..).mp returned
    rw [cut replaced] at survived
    cases survived
  rw [ran, (run_bind_of_not_ok _ _ _ stopped).1, write_cert_only_run encoded, write_file_content,
    sameDisk]

theorem write_client_ca_content (caCerts : List Certificate) :
    ((writeClientCa pki config caCerts).run plan world).2.disk.content =
      match encodeBundle pki caCerts with
      | .ok caPem =>
          (progress config.clientCa (asBytes caPem) (plan.at .writeCa)).content config.clientCa
            (asBytes caPem) world.disk.content
      | .error _ => world.disk.content := by
  unfold writeClientCa
  cases encodeBundle pki caCerts with
  | error err => rfl
  | ok caPem => exact write_file_content ..

theorem write_all_content {certificate : Certificate} {certPem : String} (keyPem : String)
    (caCerts : List Certificate) (encoded : pki.toPem certificate = .ok certPem) :
    ((do
        writeIdentity pki config certificate keyPem
        writeClientCa pki config caCerts : Enroll Unit).run plan world).2.disk.content =
      bootstrappedContent pki config (asBytes certPem) (asBytes keyPem) caCerts plan
        world.disk.content := by
  have pair : ((writeIdentity pki config certificate keyPem).run plan world).2.disk.content =
      identityContent config (asBytes certPem) (asBytes keyPem) plan world.disk.content :=
    write_identity_content keyPem encoded
  have returns (value : Unit) :
      ((writeIdentity pki config certificate keyPem).run plan world).1 = .ok value ↔
        bothWritten config (asBytes certPem) (asBytes keyPem) plan ∧
          survivesSync (plan.at .writeKey) = true := by
    rw [write_identity_ok_iff keyPem encoded, bothWritten, and_assoc]
  by_cases whole : bothWritten config (asBytes certPem) (asBytes keyPem) plan ∧
      survivesSync (plan.at .writeKey) = true
  · rw [run_bind_of_ok _ _ ((returns ()).mpr whole), write_client_ca_content, pair,
      bootstrappedContent, if_pos whole]
  · rw [(run_bind_of_not_ok _ _ _ fun value answer => whole ((returns value).mp answer)).1, pair,
      bootstrappedContent, if_neg whole]

end Result

end NodeOs.Noded.Bootstrap
