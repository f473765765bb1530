import NodeOs.Library.Machine
import NodeOs.Noded.IdentityPair

/-!
# The live renewal loop

Each tick looks at the expiry of the certificate on disk, and at nothing else.
A renewal that leaves the new certificate beside the old key, and a reload that
fails, are both seen again only when the certificate on disk is due once more.
-/

namespace NodeOs.Noded.RenewalLoop

open NodeOs.Library.FaultPlan NodeOs.Library.FaultPlan.Proc NodeOs.Library.Machine
open NodeOs.Noded.FileSystem NodeOs.Noded.WriteAtomic NodeOs.Noded.Enrollment
open NodeOs.Noded.IdentityPair

/-- What the server presents: the chain, and the key it signs handshakes
with. -/
structure CertifiedKey where
  chain : List Certificate
  key : PublicKey
  deriving DecidableEq, Repr

inductive KeySource where
  | file (path : Path)
  | tpm (key : PublicKey)
  deriving DecidableEq, Repr

structure LoopState where
  world : World
  served : CertifiedKey

def LoopState.content (state : LoopState) : Path → Option Bytes := state.world.disk.content

inductive LoopStep where
  | readExpiry
  | enroll (step : EnrollStep)
  | openCert
  | openKey
  | provider
  | lock
  deriving DecidableEq, Repr

abbrev Loop := Proc LoopStep Error LoopState

def openFile (label : LoopStep) (error : Error) (path : Path) : Loop Bytes :=
  step label error (fun _ state => state) fun state =>
    match state.content path with
    | some data => (.ok data, state)
    | none => (.err error, state)

/-- Times count nanoseconds, and so does a third of a lifetime. -/
def needsRenewal (notBefore notAfter now : Nat) : Bool :=
  if notAfter ≤ now then true
  else decide (notAfter - now < (notAfter - notBefore) / 3)

/-- `now` is absent when the clock stands before the epoch. -/
def certNeedsRenewal (pki : Pki) (certPath : Path) (now : Option Nat) : Loop Bool := do
  let pem ← openFile .readExpiry [s!"read node certificate {certPath.display}", osError] certPath
  let certificate ← ofExcept ((pki.fromPem pem).mapError fun err =>
    [s!"parse node certificate {certPath.display}: {err}"])
  match now with
  | none => raise ["system clock before Unix epoch", libraryError]
  | some now => pure (needsRenewal certificate.notBefore certificate.notAfter now)

def loadCerts (pki : Pki) (path : Path) : Loop (List Certificate) := do
  let pem ← openFile .openCert [osError] path
  ofExcept ((pki.certs pem).mapError fun err => [err])

def loadKey (pki : Pki) (path : Path) : Loop PrivateKey := do
  let pem ← openFile .openKey [osError] path
  match ← ofExcept ((pki.privateKey pem).mapError fun err => [err]) with
  | some key => pure key
  | none => raise [s!"no private key found in {path.display}"]

/-- Nothing here compares the key with the certificate. -/
def buildCertifiedKey (pki : Pki) (certPath : Path) (source : KeySource) : Loop CertifiedKey := do
  let chain ← mapError (context "load server certificate") (loadCerts pki certPath)
  match source with
  | .file keyPath =>
      let key ← mapError (context "load server private key") (loadKey pki keyPath)
      check .provider ["no rustls crypto provider installed"]
      let signing ← ofExcept ((pki.loadPrivateKey key).mapError fun err =>
        [s!"load signing key: {err}"])
      pure ⟨chain, signing⟩
  | .tpm key => pure ⟨chain, key⟩

def reload (pki : Pki) (certPath : Path) (source : KeySource) : Loop Unit := do
  let certified ← buildCertifiedKey pki certPath source
  step .lock ["reloadable certificate lock poisoned"] (fun _ state => state) fun state =>
    (.ok (), { state with served := certified })

/-- How a tick ends: one constructor for each line the loop logs, and one for
silence. -/
inductive Report where
  | notDue
  | expiryUnknown (error : Error)
  | reenrollFailed (error : Error)
  | reloadFailed (error : Error)
  | rotated
  deriving DecidableEq, Repr

/-- The tick has called `reenroll`. -/
def Report.attempted : Report → Bool
  | .notDue => false
  | .expiryUnknown _ => false
  | .reenrollFailed _ => true
  | .reloadFailed _ => true
  | .rotated => true

def setWorld (world : World) (state : LoopState) : LoopState := { state with world := world }

def keySource (config : Config) : Option TpmIdentity → KeySource
  | some tpm => .tpm tpm.publicKey
  | none => .file config.keyFile

/-- What a tick does when the certificate is due. -/
def renew (pki : Pki) (server : EstServer) (fresh : KeyPair) (config : Config)
    (tpm : Option TpmIdentity) : Loop Report := do
  match ← attempt (focus LoopState.world setWorld
    (relabel .enroll (reenroll pki server fresh config tpm))) with
  | .error err => pure (.reenrollFailed err)
  | .ok () =>
      match ← attempt (reload pki config.certFile (keySource config tpm)) with
      | .ok () => pure .rotated
      | .error err => pure (.reloadFailed err)

/-- The body of `renewal_loop` after the sleep. -/
def tick (pki : Pki) (server : EstServer) (fresh : KeyPair) (now : Option Nat) (config : Config)
    (tpm : Option TpmIdentity) : Loop Report := do
  match ← attempt (certNeedsRenewal pki config.certFile now) with
  | .ok true => renew pki server fresh config tpm
  | .ok false => pure .notDue
  | .error err => pure (.expiryUnknown err)

section Running

theorem map_error_ok_iff {Fault Value : Type} (change : Fault → Error) (result : Except Fault Value)
    (value : Value) : result.mapError change = .ok value ↔ result = .ok value := by
  cases result <;> simp [Except.mapError]

variable (pki : Pki) (plan : Plan LoopStep) (state : LoopState)

theorem open_file_keeps (label : LoopStep) (error : Error) (path : Path) :
    Keeps id (openFile label error path) :=
  .step (fun state => by cases state.content path <;> rfl) fun _ _ => rfl

theorem open_file_ok_iff (label : LoopStep) (error : Error) (path : Path) (data : Bytes) :
    ((openFile label error path).run plan state).1 = .ok data ↔
      plan label = .done ∧ state.content path = some data := by
  rw [openFile, run_step]
  cases plan label with
  | done => cases state.content path <;> simp
  | fails extent => simp
  | killed extent => simp

theorem cert_needs_renewal_keeps (certPath : Path) (now : Option Nat) :
    Keeps id (certNeedsRenewal pki certPath now) :=
  .bind (open_file_keeps _ _ _) fun _ => .bind (.ofExcept _) fun _ => by
    cases now with
    | none => exact .raise _
    | some now => exact .ret _

/-- The certificate on disk can be read and is in its renewal window. -/
def Due (certPath : Path) (now : Option Nat) : Prop :=
  plan .readExpiry = .done ∧ ∃ pem certificate time, state.content certPath = some pem ∧
    pki.fromPem pem = .ok certificate ∧ now = some time ∧
    needsRenewal certificate.notBefore certificate.notAfter time = true

theorem cert_needs_renewal_ok_iff (certPath : Path) (now : Option Nat) :
    ((certNeedsRenewal pki certPath now).run plan state).1 = .ok true ↔
      Due pki plan state certPath now := by
  have kept (label : LoopStep) (error : Error) (path : Path) :
      ((openFile label error path).run plan state).2 = state :=
    open_file_keeps label error path plan state
  have parsed (result : Except Error Certificate) :
      ((ofExcept result : Loop Certificate).run plan state).2 = state :=
    (Keeps.ofExcept result : Keeps id _) plan state
  simp only [certNeedsRenewal, run_bind_ok_iff, open_file_ok_iff, kept, run_ofExcept_ok_iff, parsed,
    map_error_ok_iff, Due]
  constructor
  · rintro ⟨pem, ⟨read, present⟩, certificate, decoded, answer⟩
    cases now with
    | none => simp at answer
    | some time =>
        exact ⟨read, pem, certificate, time, present, decoded, rfl, by simpa using answer⟩
  · rintro ⟨read, pem, certificate, time, present, decoded, rfl, due⟩
    exact ⟨pem, ⟨read, present⟩, certificate, decoded, by simp [due]⟩

/-- The chain is the one on disk. -/
def Loads (certPath : Path) (certified : CertifiedKey) : Prop :=
  (state.content certPath).map pki.certs = some (.ok certified.chain)

theorem open_file_meets (label : LoopStep) (error : Error) (path : Path) (before : LoopState) :
    Meets plan (fun state => state = before) (openFile label error path)
      (fun data after => after = before ∧ before.content path = some data)
      (fun _ after => after = before) (fun _ => True) := by
  refine .step ?_ (fun _ _ same => same) fun _ _ _ => trivial
  rintro after rfl
  cases present : after.content path with
  | none => exact rfl
  | some data => exact ⟨rfl, rfl⟩

theorem load_certs_meets (path : Path) (before : LoopState) :
    Meets plan (fun state => state = before) (loadCerts pki path)
      (fun chain after => after = before ∧ (before.content path).map pki.certs = some (.ok chain))
      (fun _ after => after = before) (fun _ => True) := by
  refine .bind (open_file_meets plan _ _ path before) fun pem => .given fun present => ?_
  cases parsed : pki.certs pem with
  | error err => exact .raise fun _ same => same
  | ok chain => exact .ret fun _ same => ⟨same, by rw [present, Option.map_some, parsed]⟩

theorem load_key_meets (path : Path) (before : LoopState) :
    Meets plan (fun state => state = before) (loadKey pki path)
      (fun _ after => after = before) (fun _ after => after = before) (fun _ => True) := by
  refine .bind (open_file_meets plan _ _ path before) fun pem => .given fun _ => ?_
  cases parsed : pki.privateKey pem with
  | error err => exact .raise fun _ same => same
  | ok found =>
      cases found with
      | none => exact .raise fun _ same => same
      | some key => exact .ret fun _ same => same

theorem build_certified_key_meets (certPath keyPath : Path) (before : LoopState) :
    Meets plan (fun state => state = before) (buildCertifiedKey pki certPath (.file keyPath))
      (fun certified after => after = before ∧ Loads pki before certPath certified)
      (fun _ after => after = before) (fun _ => True) := by
  have signing (signs : Except Error PublicKey) :
      Meets plan (fun after => after = before) (ofExcept signs : Loop PublicKey)
        (fun _ after => after = before) (fun _ after => after = before) (fun _ => True) := by
    cases signs <;> exact fun after same => same
  refine .bind (.mapError (load_certs_meets pki plan certPath before)) fun chain =>
    .given fun loads => ?_
  refine .bind (.mapError (load_key_meets pki plan keyPath before)) fun key => ?_
  have provided : Meets plan (fun after => after = before)
      (check .provider ["no rustls crypto provider installed"] : Loop Unit)
      (fun _ after => after = before) (fun _ after => after = before) (fun _ => True) :=
    .check (fun _ same => same) (fun _ same => same) fun _ _ => trivial
  refine .bind provided fun _ => ?_
  exact .bind (signing _) fun _ => .ret fun after same => ⟨same, loads⟩

/-- A reload either serves the chain on disk or changes nothing. -/
theorem reload_meets (certPath keyPath : Path) (before : LoopState) :
    Meets plan (fun state => state = before) (reload pki certPath (.file keyPath))
      (fun _ after => after.world = before.world ∧ Loads pki after certPath after.served)
      (fun _ after => after = before) (fun _ => True) := by
  refine .bind (build_certified_key_meets pki plan certPath keyPath before) fun certified => ?_
  refine .step ?_ (fun _ _ middle => middle.1) fun _ _ _ => trivial
  rintro _ ⟨rfl, loads⟩
  exact ⟨rfl, loads⟩

theorem cert_needs_renewal_run {plan : Plan LoopStep} {state : LoopState} {certPath : Path}
    {pem : Bytes} {certificate : Certificate} (time : Nat) (read : plan .readExpiry = .done)
    (present : state.content certPath = some pem) (decoded : pki.fromPem pem = .ok certificate) :
    (certNeedsRenewal pki certPath (some time)).run plan state =
      (.ok (needsRenewal certificate.notBefore certificate.notAfter time), state) := by
  simp only [certNeedsRenewal, openFile, run_bind, run_step, read, present, decoded]
  rfl

/-- Well before the expiry a tick does nothing. -/
theorem tick_of_early (plan : Plan LoopStep) {state : LoopState} {config : Config} {pem : Bytes}
    {certificate : Certificate} {time : Nat} (server : EstServer) (fresh : KeyPair)
    (tpm : Option TpmIdentity) (read : plan .readExpiry = .done)
    (present : state.content config.certFile = some pem)
    (decoded : pki.fromPem pem = .ok certificate)
    (early : needsRenewal certificate.notBefore certificate.notAfter time = false) :
    (tick pki server fresh (some time) config tpm).run plan state = (.ok .notDue, state) := by
  rw [tick, run_bind, run_attempt, cert_needs_renewal_run pki time read present decoded, early]
  rfl

/-- A tick that finds the certificate due renews it. -/
theorem tick_of_due {plan : Plan LoopStep} {state : LoopState} {now : Option Nat}
    (server : EstServer) (fresh : KeyPair) (config : Config) (tpm : Option TpmIdentity)
    (due : Due pki plan state config.certFile now) :
    (tick pki server fresh now config tpm).run plan state =
      (renew pki server fresh config tpm).run plan state := by
  have answer := (cert_needs_renewal_ok_iff pki plan state config.certFile now).mpr due
  have kept : ((certNeedsRenewal pki config.certFile now).run plan state).2 = state :=
    cert_needs_renewal_keeps pki config.certFile now plan state
  rw [tick, run_bind, run_attempt]
  cases ran : (certNeedsRenewal pki config.certFile now).run plan state with
  | mk outcome later =>
      rw [ran] at answer kept
      obtain rfl : outcome = .ok true := answer
      obtain rfl : later = state := kept
      rfl

/-- A tick that does not find it due attempts nothing and changes nothing. -/
theorem tick_of_not_due {plan : Plan LoopStep} {state : LoopState} {now : Option Nat}
    (server : EstServer) (fresh : KeyPair) (config : Config) (tpm : Option TpmIdentity)
    (notDue : ¬Due pki plan state config.certFile now) :
    (((tick pki server fresh now config tpm).run plan state).1 = .killed ∨
        ∃ report, ((tick pki server fresh now config tpm).run plan state).1 = .ok report ∧
          report.attempted = false) ∧
      ((tick pki server fresh now config tpm).run plan state).2 = state := by
  have answer := (cert_needs_renewal_ok_iff pki plan state config.certFile now).not.mpr notDue
  have kept : ((certNeedsRenewal pki config.certFile now).run plan state).2 = state :=
    cert_needs_renewal_keeps pki config.certFile now plan state
  rw [tick, run_bind, run_attempt]
  cases ran : (certNeedsRenewal pki config.certFile now).run plan state with
  | mk outcome later =>
      rw [ran] at answer kept
      obtain rfl : later = state := kept
      cases outcome with
      | killed => exact ⟨Or.inl rfl, rfl⟩
      | err error => exact ⟨Or.inr ⟨.expiryUnknown error, rfl, rfl⟩, rfl⟩
      | ok due =>
          cases due with
          | true => exact absurd rfl answer
          | false => exact ⟨Or.inr ⟨.notDue, rfl, rfl⟩, rfl⟩

end Running

/-- The server presents the certificate on disk, and the pair on disk
matches. -/
structure InSync (pki : Pki) (config : Config) (state : LoopState) : Prop where
  served : Loads pki state config.certFile state.served
  pair : ∃ key, MatchingPair pki config state.content key

/-- What befalls one tick, with what is assumed of the EST server and of the key
generation. -/
structure Tick (pki : Pki) where
  server : EstServer
  fresh : KeyPair
  now : Option Nat
  plan : Plan LoopStep
  certifies : ∀ request certificate, server request = .issued certificate →
    certificate.publicKey = request.csr.publicKey
  generates : pki.Generates fresh

section Renewing

variable {pki : Pki} (config : Config) (environment : Tick pki)

def Tick.process : Loop Report :=
  tick pki environment.server environment.fresh environment.now config none

def Tick.enrollPlan : Plan EnrollStep := environment.plan.at .enroll

/-- The certificate the tick would write. -/
def Tick.issuedPem (disk : Disk) : Option String :=
  Enrollment.issuedPem pki environment.server environment.fresh config environment.enrollPlan disk

def Tick.bothWritten (certPem : String) : Prop :=
  Enrollment.bothWritten config (asBytes certPem) (asBytes environment.fresh.pem)
    environment.enrollPlan

/-- The writes of the tick's renewal, if there are any, keep the pair whole. -/
def Tick.KeepsPair (disk : Disk) : Prop :=
  ∀ certPem, environment.issuedPem config disk = some certPem →
    IdentityPair.KeepsPair config (asBytes certPem) (asBytes environment.fresh.pem)
      environment.enrollPlan

/-- The state after a renewal, by its report. -/
def RenewEnds (before after : LoopState) : Report → Prop
  | .reenrollFailed _ =>
      after.served = before.served ∧
        after.content = reenrolledContent pki environment.server environment.fresh config
          environment.enrollPlan before.world.disk ∧
        ∀ certPem, environment.issuedPem config before.world.disk = some certPem →
          ¬environment.bothWritten config certPem
  | .rotated =>
      Loads pki after config.certFile after.served ∧
        after.content = reenrolledContent pki environment.server environment.fresh config
          environment.enrollPlan before.world.disk ∧
        ∃ certPem, environment.issuedPem config before.world.disk = some certPem ∧
          environment.bothWritten config certPem
  | .reloadFailed _ => True
  | _ => False

theorem renew_meets (before : LoopState) :
    Meets environment.plan (fun state => state = before)
      (renew pki environment.server environment.fresh config none)
      (fun report after => RenewEnds config environment before after report)
      (fun _ _ => False) (fun _ => True) := by
  rintro before rfl
  have result := reenroll_result pki environment.server environment.fresh config
    environment.enrollPlan before.world
  rw [renew, run_bind, run_attempt, run_focus, run_relabel]
  cases ran : (reenroll pki environment.server environment.fresh config none).run
      (environment.plan.at .enroll) before.world with
  | mk outcome later =>
      rw [Tick.enrollPlan, ran] at result
      cases outcome with
      | killed => trivial
      | err error => exact ⟨rfl, result.content, fun certPem => result.failed error certPem rfl⟩
      | ok value =>
          have reloaded := reload_meets pki environment.plan config.certFile config.keyFile
            (setWorld later before) _ rfl
          obtain ⟨certPem, issued, whole, -⟩ := result.returned.mp rfl
          simp only [run_bind, run_attempt, keySource]
          cases loaded : (reload pki config.certFile (.file config.keyFile)).run environment.plan
              (setWorld later before) with
          | mk answer after =>
              rw [loaded] at reloaded
              cases answer with
              | killed => trivial
              | err error => trivial
              | ok value =>
                  obtain ⟨world, loads⟩ := reloaded
                  refine ⟨loads, ?_, certPem, issued, whole⟩
                  rw [LoopState.content, world]
                  exact result.content

/-- `unsettled` remembers a renewal that left something to be done. -/
structure State where
  loop : LoopState
  unsettled : Prop

def unsettledAfter (before kept : Prop) : Report → Prop
  | .notDue => before
  | .expiryUnknown _ => before
  | .reenrollFailed _ => before ∨ ¬kept
  | .reloadFailed _ => True
  | .rotated => ¬kept

def step (state : State) (environment : Tick pki) : Option State :=
  match (environment.process config).run environment.plan state.loop with
  | (.ok report, after) =>
      some ⟨after, unsettledAfter state.unsettled
        (environment.KeepsPair config state.loop.world.disk) report⟩
  | _ => none

def Tick.Due (state : LoopState) : Prop :=
  RenewalLoop.Due pki environment.plan state config.certFile environment.now

/-- What is left to be done is done only by a renewal, so the certificate on disk
has to be due again. -/
def FindsDue (state : State) (environment : Tick pki) : Prop :=
  state.unsettled → environment.Due config state.loop

/-- The tick attempts a re-enrollment, and with it perhaps a reload. -/
def Attempts (state : LoopState) : Prop :=
  ∀ report, ((environment.process config).run environment.plan state).1 = .ok report →
    report.attempted = true

variable {config} {environment}

theorem due_attempts {state : LoopState} (due : environment.Due config state) :
    Attempts config environment state := by
  intro report answer
  rw [Tick.process, tick_of_due pki environment.server environment.fresh config none due] at answer
  have ends := renew_meets config environment state state rfl
  cases ran : (renew pki environment.server environment.fresh config none).run environment.plan
      state with
  | mk outcome after =>
      rw [ran] at answer ends
      obtain rfl : outcome = .ok report := answer
      cases report with
      | notDue => exact ends.elim
      | expiryUnknown error => exact ends.elim
      | _ => rfl

/-- Whatever the loop does not remember as unsettled is in step. -/
def Settled (pki : Pki) (config : Config) (state : State) : Prop :=
  ¬state.unsettled → InSync pki config state.loop

/-- A renewal that failed with the pair whole has left the pair alone. -/
theorem failed_in_sync {before after : LoopState} {error : Error}
    (ends : RenewEnds config environment before after (.reenrollFailed error))
    (kept : environment.KeepsPair config before.world.disk)
    (sync : InSync pki config before) : InSync pki config after := by
  obtain ⟨served, content, failed⟩ := ends
  have same : SamePair config before.content after.content := by
    rw [content, reenrolledContent]
    cases found : Enrollment.issuedPem pki environment.server environment.fresh config
        environment.enrollPlan before.world.disk with
    | none => exact ⟨rfl, rfl⟩
    | some certPem => exact kept_same_pair (kept certPem found) (failed certPem found)
  refine ⟨?_, ?_⟩
  · rw [Loads, same.1, served]
    exact sync.served
  · obtain ⟨key, pair⟩ := sync.pair
    exact ⟨key, by rwa [MatchingPair, same.1, same.2]⟩

theorem rotated_in_sync {before after : LoopState} (encodes : pki.Encodes)
    (ends : RenewEnds config environment before after .rotated)
    (kept : environment.KeepsPair config before.world.disk) :
    InSync pki config after := by
  obtain ⟨loads, content, certPem, issued, whole⟩ := ends
  have newCert := (issued_pem_certifies encodes environment.certifies issued).1
  refine ⟨loads, environment.fresh.publicKey, ?_⟩
  rw [Tick.issuedPem] at issued
  rw [content, reenrolledContent, issued]
  exact both_written_pair _ newCert environment.generates.signing whole (kept certPem issued)

theorem step_preserves_settled {state next : State} (encodes : pki.Encodes)
    (settled : Settled pki config state) (taken : step config state environment = some next) :
    Settled pki config next := by
  rw [step] at taken
  cases ran : (environment.process config).run environment.plan state.loop with
  | mk outcome after =>
  rw [ran] at taken
  cases outcome with
  | err error => cases taken
  | killed => cases taken
  | ok report =>
  obtain rfl := Option.some.inj taken
  by_cases due : environment.Due config state.loop
  · have ends := renew_meets config environment state.loop state.loop rfl
    rw [Tick.process, tick_of_due pki _ _ _ _ due] at ran
    rw [ran] at ends
    cases report with
    | notDue => exact ends.elim
    | expiryUnknown error => exact ends.elim
    | reloadFailed error => exact fun calm => absurd trivial calm
    | rotated => exact fun calm => rotated_in_sync encodes ends (not_not.mp calm)
    | reenrollFailed error =>
        intro calm
        have calm : ¬state.unsettled ∧ environment.KeepsPair config state.loop.world.disk := by
          simpa [unsettledAfter] using calm
        exact failed_in_sync ends calm.2 (settled calm.1)
  · obtain ⟨answer, kept⟩ :=
      tick_of_not_due pki environment.server environment.fresh config none due
    rw [Tick.process] at ran
    rw [ran] at answer kept
    obtain rfl : after = state.loop := kept
    rcases answer with killed | ⟨_, same, idle⟩
    · cases killed
    · obtain rfl := Outcome.ok.inj same
      cases report with
      | notDue => exact settled
      | expiryUnknown error => exact settled
      | _ => cases idle

/-- A reload that cannot open the certificate file loses the rotation. -/
theorem lost_reload {loop : LoopState} {unsettled : Prop} {certPem : String} {extent : Nat}
    (due : environment.Due config loop)
    (issued : environment.issuedPem config loop.world.disk = some certPem)
    (whole : environment.bothWritten config certPem)
    (synced : survivesSync (environment.enrollPlan.at .writeKey) = true)
    (unopened : environment.plan .openCert = .fails extent) :
    ∃ later, step config ⟨loop, unsettled⟩ environment = some ⟨setWorld later loop, True⟩ ∧
      later.disk.content = reenrolledContent pki environment.server environment.fresh config
        environment.enrollPlan loop.world.disk := by
  have result := reenroll_result pki environment.server environment.fresh config
    environment.enrollPlan loop.world
  have returned := result.returned.mpr ⟨certPem, issued, whole, synced⟩
  refine ⟨_, ?_, result.content⟩
  rw [step, Tick.process, tick_of_due pki _ _ _ _ due, renew, run_bind, run_attempt, run_focus,
    run_relabel]
  cases ran : (reenroll pki environment.server environment.fresh config none).run
      environment.enrollPlan loop.world with
  | mk outcome later =>
      rw [ran] at returned
      obtain rfl : outcome = .ok () := returned
      have same : (reenroll pki environment.server environment.fresh config none).run
          (environment.plan.at .enroll) loop.world = (.ok (), later) := ran
      simp only [same, run_bind, run_attempt, reload, buildCertifiedKey, run_mapError, loadCerts,
        openFile, run_step, unopened]
      rfl

end Renewing

section Sample

/-- A server that presents the identity on its disk. -/
def nodeLoop : LoopState where
  world := ⟨nodeDisk, []⟩
  served := ⟨[nodeCertificate], nodeCertificate.publicKey⟩

/-- Every step succeeds, but the certificate file cannot be opened for the
reload. -/
def unopenedPlan : Plan LoopStep := fun label =>
  if label = .openCert then .fails 0 else .done

def tickAt (now : Nat) (plan : Plan LoopStep) : Tick fixturePki where
  server := fixtureServer
  fresh := serverKeyPair
  now := some now
  plan := plan
  certifies := fixture_server_certifies
  generates := server_key_pair_generates

/-- Within the last third of the fixtures' lifetime. -/
def lateTime : Nat := 50000000000 * 10 ^ 9

def earlyTime : Nat := 1767225600 * 10 ^ 9

theorem node_loop_in_sync : InSync fixturePki testConfig nodeLoop where
  served := Option.map_eq_some_iff.mpr ⟨_, node_disk_content.1, fixture_certs_node rfl⟩
  pair := ⟨_, node_disk_pair⟩

theorem node_loop_due (plan : Plan LoopStep) (read : plan .readExpiry = .done) :
    (tickAt lateTime plan).Due testConfig nodeLoop :=
  ⟨read, _, nodeCertificate, lateTime, node_disk_content.1, fixture_from_pem rfl, rfl, by decide⟩

/-- The state after a renewal whose reload was lost. -/
theorem unopened_step : ∃ final,
    step testConfig ⟨nodeLoop, False⟩ (tickAt lateTime unopenedPlan) = some final ∧
      final.loop.served = nodeLoop.served ∧
        final.loop.content testConfig.certFile = some (asBytes serverPem) := by
  have reached : ∀ label ∈ requestSteps,
      (tickAt lateTime unopenedPlan).enrollPlan label = .done := by decide
  have issued : (tickAt lateTime unopenedPlan).issuedPem testConfig nodeLoop.world.disk =
      some serverPem := issued_pem_sample reached
  have whole : (tickAt lateTime unopenedPlan).bothWritten testConfig serverPem :=
    ⟨⟨rfl, rfl⟩, rfl⟩
  have kept : KeepsPair testConfig (asBytes serverPem) (asBytes serverKeyPair.pem)
      (tickAt lateTime unopenedPlan).enrollPlan := by
    rw [KeepsPair, whole.1.1]
    exact ⟨whole, by decide, by decide⟩
  obtain ⟨later, taken, content⟩ := lost_reload
    (node_loop_due unopenedPlan rfl) issued whole rfl rfl
  refine ⟨_, taken, rfl, ?_⟩
  rw [LoopState.content, setWorld, content, reenrolledContent]
  rw [Tick.issuedPem] at issued
  rw [issued]
  exact (both_written_files _ whole kept).1

theorem server_loop_out_of_sync {final : LoopState} (served : final.served = nodeLoop.served)
    (content : final.content testConfig.certFile = some (asBytes serverPem)) :
    ¬InSync fixturePki testConfig final := by
  intro sync
  have loads := sync.served
  rw [Loads, content, Option.map_some, fixture_certs_server rfl server_pem_ne, served] at loads
  exact absurd (Except.ok.inj (Option.some.inj loads)) (by decide)

end Sample

end NodeOs.Noded.RenewalLoop
