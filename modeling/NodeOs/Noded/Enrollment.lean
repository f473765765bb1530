import NodeOs.Noded.Config
import NodeOs.Noded.Pki
import NodeOs.Noded.WriteAtomic

/-!
# EST re-enrollment

`reenroll` as a process over the disk and the requests sent to the EST server.
The server's answers, the key pair a call generates and the PEM libraries are
parameters. A kill or an error at any step is a matter of the fault plan.
-/

namespace NodeOs.Noded.Enrollment

open NodeOs.Library.FaultPlan NodeOs.Library.FaultPlan.Proc
open NodeOs.Noded.FileSystem NodeOs.Noded.WriteAtomic

/-- What a library says when it fails. -/
def libraryError : String := "library error"

inductive Auth where
  | bearer (token : String)
  | clientCert (certPem keyPem : Bytes)
  | clientResolver (chain : List Certificate) (key : PublicKey)
  deriving DecidableEq, Repr

structure EstClientConfig where
  serverUrl : String
  trust : List Bytes
  auth : Auth
  caLabel : Option String
  deriving DecidableEq, Repr

/-- A certificate signing request, with the key that signed it. -/
structure Csr where
  commonName : String
  sanDns : String
  keyUsage : List String
  extendedKeyUsage : List String
  publicKey : PublicKey
  deriving DecidableEq, Repr

structure EstRequest where
  client : EstClientConfig
  csr : Csr
  deriving DecidableEq, Repr

inductive EnrollmentResponse where
  | issued (certificate : Certificate)
  | pending (retryAfter : Nat)
  deriving DecidableEq, Repr

/-- A TPM-resident key: its private half cannot be read. -/
structure TpmIdentity where
  publicKey : PublicKey
  deriving DecidableEq, Repr

/-- A request as it reaches the EST server. -/
inductive EstCall where
  | cacerts (client : EstClientConfig)
  | simpleEnroll (request : EstRequest)
  | simpleReenroll (request : EstRequest)
  deriving DecidableEq, Repr

structure World where
  disk : Disk
  sent : List EstCall

def World.setDisk (disk : Disk) (world : World) : World := { world with disk := disk }

@[simp] theorem set_disk_disk (disk : Disk) (world : World) : (world.setDisk disk).disk = disk :=
  rfl

inductive EnrollStep where
  | readCert
  | readKey
  | readEstCa
  | parseServerUrl
  | buildConfig
  | newClient
  | getCaCerts
  | generateCsr
  | request
  | writeCert (step : WriteStep)
  | writeKey (step : WriteStep)
  | writeCa (step : WriteStep)
  deriving DecidableEq, Repr

abbrev Enroll := Proc EnrollStep Error World

/-- `std::fs::read` with its context. -/
def readFile (label : EnrollStep) (message : String) (path : Path) : Enroll Bytes :=
  step label [message, osError] (fun _ world => world) fun world =>
    match world.disk.content path with
    | some data => (.ok data, world)
    | none => (.err [message, osError], world)

def writeFile (place : WriteStep → EnrollStep) (message : String) (path : Path) (data : Bytes)
    (isPrivate : Bool) : Enroll Unit :=
  mapError (context message)
    (focus World.disk World.setDisk (relabel place (writeAtomic path data isPrivate)))

def csrFor (nodeId : String) (publicKey : PublicKey) : Csr where
  commonName := nodeId
  sanDns := nodeId
  keyUsage := ["digitalSignature", "keyAgreement"]
  extendedKeyUsage := ["serverAuth", "clientAuth"]
  publicKey := publicKey

def estClientConfig (config : Config) (auth : Auth) (caPem : Bytes) : EstClientConfig where
  serverUrl := config.enrollment.est.serverUrl
  trust := [caPem]
  auth := auth
  caLabel := config.enrollment.est.label.filter fun label => !label.isEmpty

def buildEstConfig (config : Config) (auth : Auth) : Enroll EstClientConfig := do
  let est := config.enrollment.est
  let caPem ← readFile .readEstCa s!"read EST CA {est.caCertFile.display}" est.caCertFile
  check .parseServerUrl [s!"parse EST serverUrl {est.serverUrl}", libraryError]
  check .buildConfig [s!"build EST client config: {libraryError}"]
  pure (estClientConfig config auth caPem)

def newClient (client : EstClientConfig) : Enroll EstClientConfig := do
  check .newClient [s!"create EST client: {libraryError}"]
  pure client

def generateNodeCsr (nodeId : String) (fresh : KeyPair) : Enroll (Csr × String) := do
  check .generateCsr [s!"generate CSR: {libraryError}"]
  pure (csrFor nodeId fresh.publicKey, fresh.pem)

def generateNodeCsrTpm (nodeId : String) (tpm : TpmIdentity) : Enroll Csr := do
  check .generateCsr [s!"generate TPM CSR: {libraryError}"]
  pure (csrFor nodeId tpm.publicKey)

abbrev EstServer := EstRequest → EnrollmentResponse

/-- A broken-off request may or may not have reached the server. -/
def simpleReenroll (server : EstServer) (client : EstClientConfig) (csr : Csr) :
    Enroll EnrollmentResponse :=
  let send (world : World) : World :=
    { world with sent := world.sent ++ [.simpleReenroll ⟨client, csr⟩] }
  step .request [s!"EST simplereenroll failed: {libraryError}"]
    (fun extent world => if extent = 0 then world else send world)
    (fun world => (.ok (server ⟨client, csr⟩), send world))

def issuedCert (response : EnrollmentResponse) (op : String) : Except Error Certificate :=
  match response with
  | .issued certificate => .ok certificate
  | .pending retryAfter =>
      .error [s!"EST {op} pending manual approval; retry after {retryAfter}s"]

def encodeCert (pki : Pki) (certificate : Certificate) : Except Error String :=
  (pki.toPem certificate).mapError fun err => [s!"encode node certificate PEM: {err}"]

def writeCertOnly (pki : Pki) (config : Config) (certificate : Certificate) : Enroll Unit := do
  let certPem ← ofExcept (encodeCert pki certificate)
  writeFile .writeCert "write node certificate" config.certFile (asBytes certPem) false

def writeIdentity (pki : Pki) (config : Config) (certificate : Certificate) (keyPem : String) :
    Enroll Unit := do
  let certPem ← ofExcept (encodeCert pki certificate)
  writeFile .writeCert "write node certificate" config.certFile (asBytes certPem) false
  writeFile .writeKey "write node key" config.keyFile (asBytes keyPem) true

/-- `cert_chain_from_pem`: the chain a token-backed client presents. -/
def certChainFromPem (pki : Pki) (path : Path) : Enroll (List Certificate) := do
  let pem ← readFile .readCert s!"open certificate {path.display}" path
  match pki.certs pem with
  | .error err => raise [s!"parse certificates {path.display}", err]
  | .ok [] => raise [s!"no certificates in {path.display}"]
  | .ok chain => pure chain

/-- The part of `reenroll` before anything is written, with a key file. -/
def requestWithKeyFile (server : EstServer) (fresh : KeyPair) (config : Config) :
    Enroll (Certificate × String) := do
  let certPem ← readFile .readCert s!"read node certificate {config.certFile.display}"
    config.certFile
  let keyPem ← readFile .readKey s!"read node key {config.keyFile.display}" config.keyFile
  let client ← buildEstConfig config (.clientCert certPem keyPem)
  let client ← newClient client
  let (csr, keyPem) ← generateNodeCsr config.nodeId fresh
  let response ← simpleReenroll server client csr
  let certificate ← ofExcept (issuedCert response "re-enrollment")
  pure (certificate, keyPem)

/-- The same part with a TPM-resident key. -/
def requestWithTpm (pki : Pki) (server : EstServer) (config : Config) (tpm : TpmIdentity) :
    Enroll Certificate := do
  let chain ← certChainFromPem pki config.certFile
  let client ← buildEstConfig config (.clientResolver chain tpm.publicKey)
  let client ← newClient client
  let csr ← generateNodeCsrTpm config.nodeId tpm
  let response ← simpleReenroll server client csr
  ofExcept (issuedCert response "re-enrollment")

def reenroll (pki : Pki) (server : EstServer) (fresh : KeyPair) (config : Config) :
    Option TpmIdentity → Enroll Unit
  | some tpm => do
      let certificate ← requestWithTpm pki server config tpm
      writeCertOnly pki config certificate
  | none => do
      let (certificate, keyPem) ← requestWithKeyFile server fresh config
      writeIdentity pki config certificate keyPem

/-- The steps that have to succeed before a certificate can be written. -/
def requestSteps : List EnrollStep :=
  [.readCert, .readKey, .readEstCa, .parseServerUrl, .buildConfig, .newClient, .generateCsr,
    .request]

/-- The request a call makes of what is on the disk. -/
def requestFor (fresh : KeyPair) (config : Config) (disk : Disk) : Option EstRequest := do
  let certPem ← disk.content config.certFile
  let keyPem ← disk.content config.keyFile
  let caPem ← disk.content config.enrollment.est.caCertFile
  some ⟨estClientConfig config (.clientCert certPem keyPem) caPem,
    csrFor config.nodeId fresh.publicKey⟩

/-- The certificate the environment lets a call obtain, if any. -/
def issued (server : EstServer) (fresh : KeyPair) (config : Config) (plan : Plan EnrollStep)
    (disk : Disk) : Option Certificate :=
  if ∀ label ∈ requestSteps, plan label = .done then do
    let request ← requestFor fresh config disk
    match server request with
    | .issued certificate => some certificate
    | .pending _ => none
  else none

section Running

variable (plan : Plan EnrollStep) (world : World)

@[simp] theorem run_read_file_ok_iff (label : EnrollStep) (message : String) (path : Path)
    (data : Bytes) :
    ((readFile label message path).run plan world).1 = .ok data ↔
      plan label = .done ∧ world.disk.content path = some data := by
  rw [readFile, run_step]
  cases plan label with
  | done => cases world.disk.content path <;> simp
  | fails extent => simp
  | killed extent => simp

@[simp] theorem run_read_file_state (label : EnrollStep) (message : String) (path : Path) :
    ((readFile label message path).run plan world).2 = world := by
  rw [readFile, run_step]
  cases plan label with
  | done => cases world.disk.content path <;> rfl
  | fails extent => rfl
  | killed extent => rfl

theorem run_simple_reenroll_ok_iff (server : EstServer) (client : EstClientConfig)
    (csr : Csr) (response : EnrollmentResponse) :
    ((simpleReenroll server client csr).run plan world).1 = .ok response ↔
      plan .request = .done ∧ server ⟨client, csr⟩ = response := by
  rw [simpleReenroll, run_step]
  cases plan .request <;> simp

end Running

section Frames

variable {Part : Type} {view : World → Part}

theorem read_file_keeps (label : EnrollStep) (message : String) (path : Path) :
    Keeps view (readFile label message path) :=
  fun plan world => congrArg view (run_read_file_state plan world label message path)

theorem build_est_config_keeps (config : Config) (auth : Auth) :
    Keeps view (buildEstConfig config auth) :=
  .bind (read_file_keeps _ _ _) fun _ =>
    .bind (.check _ _) fun _ => .bind (.check _ _) fun _ => .ret _

theorem new_client_keeps (client : EstClientConfig) : Keeps view (newClient client) :=
  .bind (.check _ _) fun _ => .ret _

theorem generate_node_csr_keeps (nodeId : String) (fresh : KeyPair) :
    Keeps view (generateNodeCsr nodeId fresh) :=
  .bind (.check _ _) fun _ => .ret _

/-- A request is recorded, and nothing else. -/
theorem simple_reenroll_keeps_disk (server : EstServer) (client : EstClientConfig) (csr : Csr) :
    Keeps World.disk (simpleReenroll server client csr) :=
  .step (fun _ => rfl) fun extent world => by
    by_cases unsent : extent = 0 <;> simp [unsent]

/-- Nothing before the writes touches the disk. -/
theorem request_keeps_disk (server : EstServer) (fresh : KeyPair) (config : Config) :
    Keeps World.disk (requestWithKeyFile server fresh config) :=
  .bind (read_file_keeps _ _ _) fun _ =>
  .bind (read_file_keeps _ _ _) fun _ =>
  .bind (build_est_config_keeps _ _) fun _ =>
  .bind (new_client_keeps _) fun _ =>
  .bind (generate_node_csr_keeps _ _) fun _ =>
  .bind (simple_reenroll_keeps_disk _ _ _) fun _ =>
  .bind (.ofExcept _) fun _ => .ret _

end Frames

section Answers

variable (plan : Plan EnrollStep) (world : World)

theorem build_est_config_ok_iff (config : Config) (auth : Auth) (client : EstClientConfig) :
    ((buildEstConfig config auth).run plan world).1 = .ok client ↔
      plan .readEstCa = .done ∧ plan .parseServerUrl = .done ∧ plan .buildConfig = .done ∧
        ∃ caPem, world.disk.content config.enrollment.est.caCertFile = some caPem ∧
          client = estClientConfig config auth caPem := by
  simp only [buildEstConfig, run_bind_ok_iff, run_read_file_ok_iff, run_read_file_state,
    run_check_ok_iff, run_check_state, run_pure, Outcome.ok.injEq, exists_const]
  constructor
  · rintro ⟨caPem, ⟨readDone, present⟩, parsed, built, rfl⟩
    exact ⟨readDone, parsed, built, caPem, present, rfl⟩
  · rintro ⟨readDone, parsed, built, caPem, present, rfl⟩
    exact ⟨caPem, ⟨readDone, present⟩, parsed, built, rfl⟩

theorem new_client_ok_iff (client opened : EstClientConfig) :
    ((newClient client).run plan world).1 = .ok opened ↔
      plan .newClient = .done ∧ client = opened := by
  simp [newClient, run_bind_ok_iff]

theorem generate_node_csr_ok_iff (nodeId : String) (fresh : KeyPair) (value : Csr × String) :
    ((generateNodeCsr nodeId fresh).run plan world).1 = .ok value ↔
      plan .generateCsr = .done ∧ (csrFor nodeId fresh.publicKey, fresh.pem) = value := by
  simp [generateNodeCsr, run_bind_ok_iff]

theorem issued_cert_ok_iff (response : EnrollmentResponse) (op : String)
    (certificate : Certificate) :
    issuedCert response op = .ok certificate ↔ response = .issued certificate := by
  cases response <;> simp [issuedCert]

/-- The request is for the fresh key. -/
theorem request_for_public_key {fresh : KeyPair} {config : Config} {disk : Disk}
    {request : EstRequest} (asked : requestFor fresh config disk = some request) :
    request.csr.publicKey = fresh.publicKey := by
  simp only [requestFor, Option.bind_eq_bind, Option.bind_eq_some_iff, Option.some.injEq] at asked
  obtain ⟨_, _, _, _, _, _, rfl⟩ := asked
  rfl

theorem issued_eq_some_iff (server : EstServer) (fresh : KeyPair) (config : Config) (disk : Disk)
    (certificate : Certificate) :
    issued server fresh config plan disk = some certificate ↔
      (∀ label ∈ requestSteps, plan label = .done) ∧
        ∃ request, requestFor fresh config disk = some request ∧
          server request = .issued certificate := by
  by_cases reached : ∀ label ∈ requestSteps, plan label = .done
  · rw [issued, if_pos reached, and_iff_right reached]
    simp only [Option.bind_eq_bind, Option.bind_eq_some_iff]
    refine exists_congr fun request => and_congr_right fun _ => ?_
    cases server request <;> simp
  · rw [issued, if_neg reached]
    simp [reached]

theorem request_ok_iff (server : EstServer) (fresh : KeyPair) (config : Config)
    (certificate : Certificate) (keyPem : String) :
    ((requestWithKeyFile server fresh config).run plan world).1 = .ok (certificate, keyPem) ↔
      issued server fresh config plan world.disk = some certificate ∧ fresh.pem = keyPem := by
  have built (auth : Auth) : ((buildEstConfig config auth).run plan world).2 = world :=
    (build_est_config_keeps config auth : Keeps id _) plan world
  have opened (client : EstClientConfig) : ((newClient client).run plan world).2 = world :=
    (new_client_keeps client : Keeps id _) plan world
  have generated : ((generateNodeCsr config.nodeId fresh).run plan world).2 = world :=
    (generate_node_csr_keeps config.nodeId fresh : Keeps id _) plan world
  simp only [requestWithKeyFile, run_bind_ok_iff, run_read_file_ok_iff, run_read_file_state,
    built, opened, generated, build_est_config_ok_iff, new_client_ok_iff,
    generate_node_csr_ok_iff, run_simple_reenroll_ok_iff, run_ofExcept_ok_iff,
    issued_cert_ok_iff, run_pure, Outcome.ok.injEq, Prod.mk.injEq, issued_eq_some_iff]
  constructor
  · rintro ⟨certPem, ⟨readCert, certThere⟩, oldKeyPem, ⟨readKey, keyThere⟩, client,
      ⟨readCa, parsed, builtDone, caPem, caThere, rfl⟩, _, ⟨newDone, rfl⟩, _, ⟨csrDone, rfl⟩,
      response, ⟨sent, answer⟩, _, issuedHere, rfl, rfl⟩
    refine ⟨⟨by simp [requestSteps, *], _, ?_, answer.trans issuedHere⟩, rfl⟩
    simp [requestFor, certThere, keyThere, caThere]
  · rintro ⟨⟨reached, request, asked, answer⟩, rfl⟩
    simp only [requestSteps, List.forall_mem_cons] at reached
    obtain ⟨readCert, readKey, readCa, parsed, builtDone, newDone, csrDone, sent, -⟩ := reached
    simp only [requestFor, Option.bind_eq_bind, Option.bind_eq_some_iff, Option.some.injEq] at asked
    obtain ⟨certPem, certThere, oldKeyPem, keyThere, caPem, caThere, rfl⟩ := asked
    exact ⟨certPem, ⟨readCert, certThere⟩, oldKeyPem, ⟨readKey, keyThere⟩, _,
      ⟨readCa, parsed, builtDone, caPem, caThere, rfl⟩, _, ⟨newDone, rfl⟩, _, ⟨csrDone, rfl⟩, _,
      ⟨sent, rfl⟩, certificate, answer, rfl, rfl⟩

end Answers

section Writes

variable {plan : Plan EnrollStep} {world : World}

theorem write_file_ok_iff (place : WriteStep → EnrollStep) (message : String) (path : Path)
    (data : Bytes) (isPrivate : Bool) (value : Unit) :
    ((writeFile place message path data isPrivate).run plan world).1 = .ok value ↔
      progress path data (plan.at place) = .replaced ∧ survivesSync (plan.at place) = true := by
  have written := write_atomic_result path data isPrivate (plan.at place) world.disk
  rw [writeFile, run_mapError]
  simp only [run_focus, run_relabel]
  cases ran : ((writeAtomic path data isPrivate).run (plan.at place) world.disk).1 with
  | ok value => simp [← written.returned, ran]
  | err error => simp [← written.returned, ran]
  | killed => simp [← written.returned, ran]

theorem write_file_content (place : WriteStep → EnrollStep) (message : String) (path : Path)
    (data : Bytes) (isPrivate : Bool) :
    ((writeFile place message path data isPrivate).run plan world).2.disk.content =
      (progress path data (plan.at place)).content path data world.disk.content := by
  rw [← write_atomic_content path data isPrivate, writeFile, run_mapError]
  simp only [run_focus, run_relabel]
  cases ((writeAtomic path data isPrivate).run (plan.at place) world.disk).1 <;> rfl

/-- An error means that the file was not replaced. -/
theorem write_file_failed {place : WriteStep → EnrollStep} {message : String} {path : Path}
    {data : Bytes} {isPrivate : Bool} {error : Error}
    (answer : ((writeFile place message path data isPrivate).run plan world).1 = .err error) :
    progress path data (plan.at place) ≠ .replaced := by
  have written := write_atomic_result path data isPrivate (plan.at place) world.disk
  rw [writeFile, run_mapError] at answer
  simp only [run_focus, run_relabel] at answer
  cases ran : ((writeAtomic path data isPrivate).run (plan.at place) world.disk).1 with
  | ok value => simp [ran] at answer
  | err inner => exact written.failed inner ran
  | killed => simp [ran] at answer

end Writes

/-- The certificate file has its new content, and the process goes on to the
key file. -/
def certWritten (config : Config) (certPem : Bytes) (plan : Plan EnrollStep) : Prop :=
  progress config.certFile certPem (plan.at .writeCert) = .replaced ∧
    survivesSync (plan.at .writeCert) = true

instance (config : Config) (certPem : Bytes) (plan : Plan EnrollStep) :
    Decidable (certWritten config certPem plan) :=
  inferInstanceAs (Decidable (_ ∧ _))

/-- What the two writes of `write_identity` make of the files. -/
def identityContent (config : Config) (certPem keyPem : Bytes) (plan : Plan EnrollStep)
    (before : Path → Option Bytes) : Path → Option Bytes :=
  let written := (progress config.certFile certPem (plan.at .writeCert)).content config.certFile
    certPem before
  if certWritten config certPem plan then
    (progress config.keyFile keyPem (plan.at .writeKey)).content config.keyFile keyPem written
  else written

/-- The PEM text of the new certificate, if the call gets that far. -/
def issuedPem (pki : Pki) (server : EstServer) (fresh : KeyPair) (config : Config)
    (plan : Plan EnrollStep) (disk : Disk) : Option String := do
  let certificate ← issued server fresh config plan disk
  (pki.toPem certificate).toOption

section Result

variable {pki : Pki} {server : EstServer} {fresh : KeyPair} {config : Config}
  {plan : Plan EnrollStep} {world : World}

theorem write_identity_run {certificate : Certificate} {certPem : String} (keyPem : String)
    (encoded : pki.toPem certificate = .ok certPem) :
    (writeIdentity pki config certificate keyPem).run plan world =
      (do
        writeFile .writeCert "write node certificate" config.certFile (asBytes certPem) false
        writeFile .writeKey "write node key" config.keyFile (asBytes keyPem) true :
          Enroll Unit).run plan world := by
  have ready : encodeCert pki certificate = .ok certPem := by
    simp [encodeCert, encoded, Except.mapError]
  rw [writeIdentity, ready]
  rfl

theorem write_identity_content {certificate : Certificate} {certPem : String} (keyPem : String)
    (encoded : pki.toPem certificate = .ok certPem) :
    ((writeIdentity pki config certificate keyPem).run plan world).2.disk.content =
      identityContent config (asBytes certPem) (asBytes keyPem) plan world.disk.content := by
  rw [write_identity_run _ encoded]
  by_cases written : certWritten config (asBytes certPem) plan
  · rw [run_bind_of_ok _ _ ((write_file_ok_iff _ _ _ _ _ ()).mpr written), write_file_content,
      write_file_content, identityContent, if_pos written]
  · rw [(run_bind_of_not_ok _ _ _ fun value answer => written
      ((write_file_ok_iff _ _ _ _ _ value).mp answer)).1, write_file_content, identityContent,
      if_neg written]

theorem write_identity_ok_iff {certificate : Certificate} {certPem : String} (keyPem : String)
    (encoded : pki.toPem certificate = .ok certPem) (value : Unit) :
    ((writeIdentity pki config certificate keyPem).run plan world).1 = .ok value ↔
      certWritten config (asBytes certPem) plan ∧
        progress config.keyFile (asBytes keyPem) (plan.at .writeKey) = .replaced ∧
          survivesSync (plan.at .writeKey) = true := by
  simp only [write_identity_run _ encoded, run_bind_ok_iff, write_file_ok_iff, certWritten]
  exact ⟨fun ⟨_, both⟩ => both, fun both => ⟨(), both⟩⟩

theorem write_identity_failed {certificate : Certificate} {certPem keyPem : String} {error : Error}
    (encoded : pki.toPem certificate = .ok certPem)
    (answer : ((writeIdentity pki config certificate keyPem).run plan world).1 = .err error) :
    ¬(certWritten config (asBytes certPem) plan ∧
      progress config.keyFile (asBytes keyPem) (plan.at .writeKey) = .replaced) := by
  rintro ⟨written, replaced⟩
  rw [write_identity_run _ encoded,
    run_bind_of_ok _ _ ((write_file_ok_iff _ _ _ _ _ ()).mpr written)] at answer
  exact write_file_failed answer replaced

theorem write_identity_unencoded {certificate : Certificate} {keyPem err : String}
    (encoded : pki.toPem certificate = .error err) :
    (writeIdentity pki config certificate keyPem).run plan world =
      (.err [s!"encode node certificate PEM: {err}"], world) := by
  have broken : encodeCert pki certificate = .error [s!"encode node certificate PEM: {err}"] := by
    simp [encodeCert, encoded, Except.mapError]
  rw [writeIdentity, broken]
  rfl

/-- A call that obtains a certificate goes on to write it. -/
theorem reenroll_issued (pki : Pki) {certificate : Certificate}
    (found : issued server fresh config plan world.disk = some certificate) :
    ∃ later : World, later.disk = world.disk ∧
      (reenroll pki server fresh config none).run plan world =
        (writeIdentity pki config certificate fresh.pem).run plan later := by
  have returned := (request_ok_iff plan world server fresh config certificate fresh.pem).mpr
    ⟨found, rfl⟩
  refine ⟨_, request_keeps_disk server fresh config plan world, ?_⟩
  rw [reenroll, run_bind_of_ok _ _ returned]

theorem reenroll_not_issued (pki : Pki)
    (none_found : issued server fresh config plan world.disk = none) :
    ((reenroll pki server fresh config none).run plan world).2.disk = world.disk ∧
      ∀ value, ((reenroll pki server fresh config none).run plan world).1 ≠ .ok value := by
  have stopped := run_bind_of_not_ok plan world
    (fun (certificate, keyPem) => writeIdentity pki config certificate keyPem)
    (fun value answer => by
      obtain ⟨certificate, keyPem⟩ := value
      have found := ((request_ok_iff plan world server fresh config certificate keyPem).mp answer).1
      simp [none_found] at found)
  exact ⟨(congrArg World.disk stopped.1).trans (request_keeps_disk server fresh config plan world),
    stopped.2⟩

/-- The files after a re-enrollment with a key file. -/
def reenrolledContent (pki : Pki) (server : EstServer) (fresh : KeyPair) (config : Config)
    (plan : Plan EnrollStep) (disk : Disk) : Path → Option Bytes :=
  match issuedPem pki server fresh config plan disk with
  | none => disk.content
  | some certPem => identityContent config (asBytes certPem) (asBytes fresh.pem) plan disk.content

/-- Both files have their new content. -/
def bothWritten (config : Config) (certPem keyPem : Bytes) (plan : Plan EnrollStep) : Prop :=
  certWritten config certPem plan ∧
    progress config.keyFile keyPem (plan.at .writeKey) = .replaced

instance (config : Config) (certPem keyPem : Bytes) (plan : Plan EnrollStep) :
    Decidable (bothWritten config certPem keyPem plan) :=
  inferInstanceAs (Decidable (_ ∧ _))

/-- What a caller of `reenroll` may rely on. -/
structure ReenrollResult (pki : Pki) (server : EstServer) (fresh : KeyPair) (config : Config)
    (plan : Plan EnrollStep) (disk : Disk) (result : Outcome Error Unit × World) : Prop where
  content : result.2.disk.content = reenrolledContent pki server fresh config plan disk
  returned : result.1 = .ok () ↔ ∃ certPem,
    issuedPem pki server fresh config plan disk = some certPem ∧
      bothWritten config (asBytes certPem) (asBytes fresh.pem) plan ∧
        survivesSync (plan.at .writeKey) = true
  failed : ∀ error certPem, result.1 = .err error →
    issuedPem pki server fresh config plan disk = some certPem →
      ¬bothWritten config (asBytes certPem) (asBytes fresh.pem) plan

theorem reenroll_result (pki : Pki) (server : EstServer) (fresh : KeyPair) (config : Config)
    (plan : Plan EnrollStep) (world : World) :
    ReenrollResult pki server fresh config plan world.disk
      ((reenroll pki server fresh config none).run plan world) := by
  cases found : issued server fresh config plan world.disk with
  | none =>
      have noPem : issuedPem pki server fresh config plan world.disk = none := by
        simp [issuedPem, found]
      obtain ⟨disk, stopped⟩ := reenroll_not_issued pki found
      exact
        { content := by rw [disk, reenrolledContent, noPem]
          returned := by simp [noPem, stopped]
          failed := by simp [noPem] }
  | some certificate =>
      obtain ⟨later, sameDisk, run⟩ := reenroll_issued pki found
      rw [run, ← sameDisk]
      rw [← sameDisk] at found
      cases encoded : pki.toPem certificate with
      | error err =>
          have noPem : issuedPem pki server fresh config plan later.disk = none := by
            simp [issuedPem, found, encoded, Except.toOption]
          rw [write_identity_unencoded encoded]
          exact
            { content := by rw [reenrolledContent, noPem]
              returned := by simp [noPem]
              failed := by simp [noPem] }
      | ok certPem =>
          have pem : issuedPem pki server fresh config plan later.disk = some certPem := by
            simp [issuedPem, found, encoded, Except.toOption]
          exact
            { content := by rw [write_identity_content _ encoded, reenrolledContent, pem]
              returned := by
                rw [write_identity_ok_iff _ encoded, pem]
                simp [bothWritten, and_assoc]
              failed := by
                intro error other answer same
                cases pem.symm.trans same
                exact write_identity_failed encoded answer }

end Result

end NodeOs.Noded.Enrollment
