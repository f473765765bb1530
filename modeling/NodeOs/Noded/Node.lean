import NodeOs.Library.Machine
import NodeOs.Noded.Bootstrap
import NodeOs.Noded.Reconcile
import NodeOs.Noded.ServedIdentity
import NodeOs.Noded.TokenProvisioning

/-!
# `noded` from boot to boot

The whole daemon as a machine. An action is a stretch of `run`, one call of the
enrollment client, one tick of the renewal loop or one request, each with the
plan that says how it goes. A kill in any of them, and a fatal error, bring the
daemon down; the token and the disk are what the next boot finds.
-/

namespace NodeOs.Noded.Node

open NodeOs.Library.FaultPlan NodeOs.Library.FaultPlan.Proc
open NodeOs.Noded.FileSystem NodeOs.Noded.WriteAtomic NodeOs.Noded.Enrollment
open NodeOs.Noded.Bootstrap NodeOs.Noded.RenewalLoop NodeOs.Noded.ServedIdentity
open NodeOs.Noded.Pkcs11 NodeOs.Noded.Reconcile NodeOs.Noded.Authorization
open NodeOs.Noded.Workload

/-- What is not under the daemon's control: the libraries, the slot the PKCS#11
provider opens, the JSON extractor, and the other two handlers, which know the
node's name and nothing else of the configuration. -/
structure Environment where
  pki : Pki
  json : IntentJson
  provider : Provider
  extract : Request → Except Response NodeIntent
  otherRoutes : String → Request → Response

/-- What survives a crash, and the requests the EST server has seen. -/
structure Device where
  slots : List Slot
  world : World

namespace Device

def disk (device : Device) : Disk := device.world.disk

def setDisk (disk : Disk) (device : Device) : Device :=
  { device with world := device.world.setDisk disk }

def openState (device : Device) : OpenState := ⟨device.slots, device.disk⟩

def setOpenState (opened : OpenState) (device : Device) : Device :=
  ⟨opened.slots, device.world.setDisk opened.disk⟩

end Device

/-- The view of code that loads an identity before anything is served. -/
def unserved (world : World) : LoopState := ⟨world, ⟨[], []⟩⟩

inductive BootStep where
  | createStore
  | opening (step : OpenStep)
  | statKey
  | statCert
  | statCa
  | expiry (step : LoopStep)
  deriving DecidableEq, Repr

abbrev Boot := Proc BootStep Error Device

/-- The part of `main` that prepares the store of `tpm2-pkcs11`. -/
def createStore (cfg : TpmPkcs11Config) : Boot Unit :=
  step .createStore [s!"create PKCS#11 store {cfg.store.display}", osError]
    (fun extent device =>
      device.setDisk (device.disk.makeDirs (cfg.store.enclosing.take extent)))
    (fun device => (.ok (), device.setDisk (device.disk.makeDirs cfg.store.enclosing)))

def openNodeKey (provider : Provider) (draws : Draws) (config : Config) :
    Boot (Option TpmIdentity) :=
  match config.tpm with
  | none => pure none
  | some cfg => do
      createStore cfg
      let identity ← mapError (context "open TPM-resident node key")
        (focus Device.openState Device.setOpenState
          (relabel .opening (openIdentity provider draws cfg)))
      pure (some identity)

/-- A file or a directory stands at the path. -/
def entryExists (disk : Disk) (path : Path) : Bool := (disk.files path).isSome || disk.dirs path

/-- `Path::exists` takes an error for absence. -/
def pathExists (label : BootStep) (path : Path) : Boot Bool := do
  match ← attempt (check label [osError]) with
  | .ok () => observe fun device => entryExists device.disk path
  | .error _ => pure false

def keyPresent (config : Config) : Boot Bool :=
  if config.tpm.isSome then pure true else pathExists .statKey config.keyFile

def nodePkiPresent (config : Config) : Boot Bool := do
  let keyPresent ← keyPresent config
  let certPresent ← pathExists .statCert config.certFile
  if certPresent && keyPresent then pathExists .statCa config.clientCa else pure false

/-- The pair the server presents, and the certificates it accepts clients
under. -/
structure Identity where
  tpm : Option TpmIdentity
  cert : ReloadableCert
  clientRoots : List Certificate
  deriving DecidableEq, Repr

/-- How far `run` has come. `failures` counts the attempts of a loop that have
failed; `nextRequestId` is the counter of the authorization middleware. -/
inductive Phase where
  | down
  | bootstrapping (tpm : Option TpmIdentity) (failures : Nat)
  | renewing (tpm : Option TpmIdentity) (failures : Nat)
  | loading (tpm : Option TpmIdentity)
  | reconciling (identity : Identity)
  | serving (identity : Identity) (nextRequestId : UInt64)
  deriving DecidableEq, Repr

/-- An expiry that cannot be evaluated does not keep the node from starting. -/
def checkExpiry (pki : Pki) (config : Config) (now : Option Nat) (tpm : Option TpmIdentity) :
    Boot Phase := do
  match ← attempt (focus (fun device => unserved device.world)
      (fun state device => { device with world := state.world })
      (relabel .expiry (certNeedsRenewal pki config.certFile now))) with
  | .ok true => pure (.renewing tpm 0)
  | .ok false => pure (.loading tpm)
  | .error _ => pure (.loading tpm)

/-- From the start of the process to the first EST request. -/
def beginRun (environment : Environment) (config : Config) (draws : Draws) (now : Option Nat) :
    Boot Phase := do
  let tpm ← openNodeKey environment.provider draws config
  let present ← nodePkiPresent config
  if present then checkExpiry environment.pki config now tpm
  else pure (.bootstrapping tpm 0)

def bootstrapAttempts : Nat := 30

def reenrollAttempts : Nat := 6

/-- The end of one turn of the bootstrap loop. -/
def afterBootstrap (tpm : Option TpmIdentity) (failures : Nat) : Outcome Error Unit → Phase
  | .ok () => .loading tpm
  | .err _ =>
      if failures + 1 < bootstrapAttempts then .bootstrapping tpm (failures + 1) else .down
  | .killed => .down

/-- The end of one turn of the re-enrollment loop, which never gives up the
node. -/
def afterReenroll (tpm : Option TpmIdentity) (failures : Nat) : Outcome Error Unit → Phase
  | .ok () => .loading tpm
  | .err _ =>
      if failures + 1 < reenrollAttempts then .renewing tpm (failures + 1) else .loading tpm
  | .killed => .down

inductive LoadStep where
  | identity (step : LoopStep)
  | clientCa (step : LoopStep)
  | addRoots
  | buildVerifier
  deriving DecidableEq, Repr

abbrev Load := Proc LoadStep Error World

def loading {Value : Type} (place : LoopStep → LoadStep) (process : Loop Value) : Load Value :=
  focus unserved (fun state _ => state.world) (relabel place process)

def loadClientRoots (pki : Pki) (path : Path) : Load (List Certificate) := do
  let roots ← loading .clientCa (loadCerts pki path)
  check .addRoots [s!"invalid client CA certificate: {libraryError}"]
  if roots.isEmpty then raise ["client CA bundle contains no certificates"] else pure roots

def buildServerConfig (pki : Pki) (config : Config) : Load (List Certificate) := do
  let roots ← mapError (context "load client CA") (loadClientRoots pki config.clientCa)
  check .buildVerifier ["build client cert verifier", libraryError]
  pure roots

def loadMessage : Option TpmIdentity → String
  | some _ => "load node server certificate (TPM)"
  | none => "load node server certificate"

def loadIdentity (pki : Pki) (config : Config) (tpm : Option TpmIdentity) : Load Identity := do
  let cert ← mapError (context (loadMessage tpm))
    (loading .identity (ReloadableCert.new pki config.certFile (keySource config tpm)))
  let roots ← mapError (context "build TLS config") (buildServerConfig pki config)
  pure ⟨tpm, cert, roots⟩

inductive ListenStep where
  | workload (step : ApplyStep)
  | bind
  deriving DecidableEq, Repr

/-- The boot reconciliation is best effort. -/
def listen (environment : Environment) (config : Config) : Proc ListenStep Error Disk Unit := do
  let _ ← relabel .workload
    (bootReconcile environment.json config.profile environment.pki.fromPem)
  check .bind ["bind", osError]

/-- The handlers behind the middleware. -/
def handle (environment : Environment) (config : Config) (request : Request) : Apply Response :=
  if request.method = .put ∧ request.path = "/v1/config" then
    match environment.extract request with
    | .ok intent => putConfig environment.json config.profile environment.pki.fromPem intent
    | .error rejection => pure rejection
  else pure (environment.otherRoutes config.nodeId request)

/-- A handler that is killed sends nothing: the answer is absent. -/
structure Handled where
  disk : Disk
  answer : Option Response

def handler (environment : Environment) (config : Config) (plan : Plan ApplyStep) :
    Handler Handled := fun request handled =>
  match (handle environment config request).run plan handled.disk with
  | (.ok response, disk) => (response, ⟨disk, some response⟩)
  | (_, disk) => (forbidden, ⟨disk, none⟩)

/-- `audit` and `answers` record what the middleware has logged and sent. -/
structure State where
  device : Device
  phase : Phase
  audit : List AuditEvent
  answers : List Response

inductive Action where
  | boot (draws : Draws) (now : Option Nat) (plan : Plan BootStep)
  | bootstrap (server : BootstrapServer) (fresh : KeyPair) (plan : Plan EnrollStep)
  | reenroll (server : EstServer) (fresh : KeyPair) (plan : Plan EnrollStep)
  | load (plan : Plan LoadStep)
  | listen (plan : Plan ListenStep)
  | tick (server : EstServer) (fresh : KeyPair) (now : Option Nat) (plan : Plan LoopStep)
  | request (request : Request) (plan : Plan ApplyStep)
  | crash

def State.setWorld (state : State) (world : World) (phase : Phase) : State :=
  { state with device := { state.device with world := world }, phase := phase }

def State.boot (environment : Environment) (config : Config) (draws : Draws) (now : Option Nat)
    (plan : Plan BootStep) (state : State) : State :=
  match (beginRun environment config draws now).run plan state.device with
  | (.ok phase, device) => { state with device := device, phase := phase }
  | (_, device) => { state with device := device, phase := .down }

def State.bootstrap (pki : Pki) (config : Config) (server : BootstrapServer) (fresh : KeyPair)
    (plan : Plan EnrollStep) (tpm : Option TpmIdentity) (failures : Nat) (state : State) : State :=
  let (outcome, world) :=
    (bootstrapEnroll pki server fresh config tpm).run plan state.device.world
  state.setWorld world (afterBootstrap tpm failures outcome)

def State.reenroll (pki : Pki) (config : Config) (server : EstServer) (fresh : KeyPair)
    (plan : Plan EnrollStep) (tpm : Option TpmIdentity) (failures : Nat) (state : State) : State :=
  let (outcome, world) :=
    (Enrollment.reenroll pki server fresh config tpm).run plan state.device.world
  state.setWorld world (afterReenroll tpm failures outcome)

def State.load (pki : Pki) (config : Config) (plan : Plan LoadStep) (tpm : Option TpmIdentity)
    (state : State) : State :=
  match (loadIdentity pki config tpm).run plan state.device.world with
  | (.ok identity, world) => state.setWorld world (.reconciling identity)
  | (_, world) => state.setWorld world .down

def State.listen (environment : Environment) (config : Config) (plan : Plan ListenStep)
    (identity : Identity) (state : State) : State :=
  match (Node.listen environment config).run plan state.device.disk with
  | (.ok (), disk) => state.setWorld (state.device.world.setDisk disk) (.serving identity 1)
  | (_, disk) => state.setWorld (state.device.world.setDisk disk) .down

/-- A tick leaves the phase to `resume`, which is given the identity served
afterwards. -/
def State.tick (pki : Pki) (config : Config) (server : EstServer) (fresh : KeyPair)
    (now : Option Nat) (plan : Plan LoopStep) (identity : Identity) (resume : Identity → Phase)
    (state : State) : State :=
  match (RenewalLoop.tick pki server fresh now config identity.tpm).run plan
      ⟨state.device.world, identity.cert.current⟩ with
  | (.killed, after) => state.setWorld after.world .down
  | (_, after) =>
      state.setWorld after.world
        (resume { identity with cert := { identity.cert with current := after.served } })

def State.request (environment : Environment) (config : Config) (request : Request)
    (plan : Plan ApplyStep) (identity : Identity) (nextRequestId : UInt64) (state : State) :
    State :=
  let (response, server) := authorize config.authorization (handler environment config plan)
    request ⟨nextRequestId, state.audit, ⟨state.device.disk, some forbidden⟩⟩
  let device := state.device.setDisk server.handler.disk
  match server.handler.answer with
  | some _ =>
      { device := device
        phase := .serving identity server.nextRequestId
        audit := server.audit
        answers := state.answers ++ [response] }
  | none => { state with device := device, phase := .down, audit := server.audit }

def step (environment : Environment) (config : Config) (state : State) : Action → Option State
  | .boot draws now plan =>
      match state.phase with
      | .down => some (state.boot environment config draws now plan)
      | _ => none
  | .bootstrap server fresh plan =>
      match state.phase with
      | .bootstrapping tpm failures =>
          some (state.bootstrap environment.pki config server fresh plan tpm failures)
      | _ => none
  | .reenroll server fresh plan =>
      match state.phase with
      | .renewing tpm failures =>
          some (state.reenroll environment.pki config server fresh plan tpm failures)
      | _ => none
  | .load plan =>
      match state.phase with
      | .loading tpm => some (state.load environment.pki config plan tpm)
      | _ => none
  | .listen plan =>
      match state.phase with
      | .reconciling identity => some (state.listen environment config plan identity)
      | _ => none
  | .tick server fresh now plan =>
      match state.phase with
      | .reconciling identity =>
          some (state.tick environment.pki config server fresh now plan identity .reconciling)
      | .serving identity nextRequestId =>
          some (state.tick environment.pki config server fresh now plan identity fun identity =>
            .serving identity nextRequestId)
      | _ => none
  | .request request plan =>
      match state.phase with
      | .serving identity nextRequestId =>
          some (state.request environment config request plan identity nextRequestId)
      | _ => none
  | .crash => some { state with phase := .down }

/-- The node key of a daemon that is up. -/
def Phase.key : Phase → Option (Option TpmIdentity)
  | .down => none
  | .bootstrapping tpm _ => some tpm
  | .renewing tpm _ => some tpm
  | .loading tpm => some tpm
  | .reconciling identity => some identity.tpm
  | .serving identity _ => some identity.tpm

section Boot

variable {environment : Environment} {config : Config} {draws : Draws} {now : Option Nat}
  {plan : Plan BootStep} {device : Device} {tpm : Option TpmIdentity} {phase : Phase}

theorem path_exists_keeps (label : BootStep) (path : Path) : Keeps id (pathExists label path) := by
  refine Keeps.bind (Keeps.attempt (Keeps.check _ _)) fun checked => ?_
  cases checked with
  | error err => exact .ret _
  | ok value => exact .observe _

theorem key_present_keeps (config : Config) : Keeps id (keyPresent config) := by
  unfold keyPresent
  split
  · exact .ret _
  · exact path_exists_keeps _ _

theorem node_pki_present_keeps (config : Config) : Keeps id (nodePkiPresent config) := by
  refine Keeps.bind (key_present_keeps config) fun key => ?_
  refine Keeps.bind (path_exists_keeps _ _) fun cert => ?_
  split
  · exact path_exists_keeps _ _
  · exact .ret _

theorem path_exists_run (label : BootStep) (path : Path) :
    (pathExists label path).run plan device =
      match plan label with
      | .done => (.ok (entryExists device.disk path), device)
      | .fails _ => (.ok false, device)
      | .killed _ => (.killed, device) := by
  rw [pathExists, run_bind, run_attempt, run_check]
  cases plan label <;> rfl

/-- The files that count as the node's PKI are there. -/
structure PkiPresent (config : Config) (disk : Disk) : Prop where
  cert : entryExists disk config.certFile = true
  key : config.tpm = none → entryExists disk config.keyFile = true
  clientCa : entryExists disk config.clientCa = true

/-- The file system answers whether the node's PKI is there. -/
structure StatsAnswered (config : Config) (plan : Plan BootStep) : Prop where
  cert : ∀ extent, plan .statCert ≠ .fails extent
  key : config.tpm = none → ∀ extent, plan .statKey ≠ .fails extent
  clientCa : ∀ extent, plan .statCa ≠ .fails extent

theorem path_exists_true {label : BootStep} {path : Path}
    (returned : ((pathExists label path).run plan device).1 = .ok true) :
    entryExists device.disk path = true := by
  rw [path_exists_run] at returned
  cases fate : plan label with
  | done => simpa [fate] using returned
  | fails extent => simp [fate] at returned
  | killed extent => simp [fate] at returned

theorem path_exists_false {label : BootStep} {path : Path}
    (there : entryExists device.disk path = true)
    (answered : ∀ extent, plan label ≠ .fails extent) :
    ((pathExists label path).run plan device).1 ≠ .ok false := by
  rw [path_exists_run]
  cases fate : plan label with
  | done => simp [there]
  | fails extent => exact absurd fate (answered extent)
  | killed extent => simp

/-- A certificate that is not found settles the matter. -/
theorem node_pki_missing {found : Bool}
    (key : ((keyPresent config).run plan device).1 = .ok found)
    (cert : ((pathExists .statCert config.certFile).run plan device).1 = .ok false) :
    ((nodePkiPresent config).run plan device).1 = .ok false := by
  have keyKept : ((keyPresent config).run plan device).2 = device :=
    key_present_keeps config plan device
  rw [nodePkiPresent, run_bind_of_ok _ _ key, keyKept, run_bind_of_ok _ _ cert]
  rfl

theorem key_present_true (returned : ((keyPresent config).run plan device).1 = .ok true)
    (software : config.tpm = none) : entryExists device.disk config.keyFile = true := by
  unfold keyPresent at returned
  rw [software] at returned
  exact path_exists_true returned

theorem key_present_false
    (there : config.tpm = none → entryExists device.disk config.keyFile = true)
    (answered : config.tpm = none → ∀ extent, plan .statKey ≠ .fails extent) :
    ((keyPresent config).run plan device).1 ≠ .ok false := by
  unfold keyPresent
  cases software : config.tpm with
  | some cfg => simp
  | none => exact path_exists_false (there software) (answered software)

/-- The key, the certificate and the bundle are asked for in this order. -/
theorem node_pki_present_answered {answer : Bool}
    (returned : ((nodePkiPresent config).run plan device).1 = .ok answer) :
    ∃ key cert, ((keyPresent config).run plan device).1 = .ok key ∧
      ((pathExists .statCert config.certFile).run plan device).1 = .ok cert ∧
      ((if cert && key then pathExists .statCa config.clientCa else pure false).run plan
        device).1 = .ok answer := by
  have keyKept : ((keyPresent config).run plan device).2 = device :=
    key_present_keeps config plan device
  have certKept : ((pathExists .statCert config.certFile).run plan device).2 = device :=
    path_exists_keeps _ _ plan device
  obtain ⟨key, keyFound, rest⟩ := (run_bind_ok_iff ..).mp returned
  rw [keyKept] at rest
  obtain ⟨cert, certFound, answered⟩ := (run_bind_ok_iff ..).mp rest
  rw [certKept] at answered
  exact ⟨key, cert, keyFound, certFound, answered⟩

/-- Where the node's PKI is found, it is there. -/
theorem node_pki_present_true
    (returned : ((nodePkiPresent config).run plan device).1 = .ok true) :
    PkiPresent config device.disk := by
  obtain ⟨key, cert, keyFound, certFound, answer⟩ := node_pki_present_answered returned
  cases cert with
  | false => cases answer
  | true =>
      cases key with
      | false => cases answer
      | true =>
          exact ⟨path_exists_true certFound, key_present_true keyFound, path_exists_true answer⟩

/-- Where it is there, it is found, unless the file system does not answer. -/
theorem node_pki_present_false (present : PkiPresent config device.disk)
    (answered : StatsAnswered config plan) :
    ((nodePkiPresent config).run plan device).1 ≠ .ok false := by
  intro returned
  obtain ⟨key, cert, keyFound, certFound, answer⟩ := node_pki_present_answered returned
  cases key with
  | false => exact key_present_false present.key answered.key keyFound
  | true =>
      cases cert with
      | false => exact path_exists_false present.cert answered.cert certFound
      | true => exact path_exists_false present.clientCa answered.clientCa answer

theorem node_pki_found (present : PkiPresent config device.disk) :
    ((nodePkiPresent config).run .allDone device).1 = .ok true := by
  have found (label : BootStep) {path : Path} (there : entryExists device.disk path = true) :
      (pathExists label path).run .allDone device = (.ok true, device) := by
    rw [path_exists_run, there]
    rfl
  have key : (keyPresent config).run .allDone device = (.ok true, device) := by
    unfold keyPresent
    cases software : config.tpm with
    | some cfg => rfl
    | none => exact found _ (present.key software)
  rw [nodePkiPresent, run_bind, key]
  simp only
  rw [run_bind, found _ present.cert]
  exact congrArg Prod.fst (found _ present.clientCa)

theorem check_expiry_keeps (pki : Pki) (config : Config) (now : Option Nat)
    (tpm : Option TpmIdentity) : Keeps id (checkExpiry pki config now tpm) := by
  have read : Keeps id (focus (fun device => unserved device.world)
      (fun state device => { device with world := state.world })
      (relabel .expiry (certNeedsRenewal pki config.certFile now)) : Boot Bool) := by
    intro plan device
    have kept := cert_needs_renewal_keeps pki config.certFile now (plan.at .expiry)
      (unserved device.world)
    have world := congrArg LoopState.world kept
    rw [run_focus, run_relabel]
    unfold id at world ⊢
    rw [world]
    rfl
  refine Keeps.bind (Keeps.attempt read) fun due => ?_
  cases due with
  | error err => exact .ret _
  | ok answer => cases answer <;> exact .ret _

theorem check_expiry_ok {pki : Pki}
    (returned : ((checkExpiry pki config now tpm).run plan device).1 = .ok phase) :
    phase = .renewing tpm 0 ∨ phase = .loading tpm := by
  obtain ⟨due, -, answer⟩ := (run_bind_ok_iff ..).mp returned
  cases due with
  | error err => exact Or.inr (Outcome.ok.inj answer).symm
  | ok renew =>
      cases renew with
      | true => exact Or.inl (Outcome.ok.inj answer).symm
      | false => exact Or.inr (Outcome.ok.inj answer).symm

/-- A boot that gets on has opened the node's key, and bootstraps only if the
node's PKI was not found. -/
theorem begin_run_ok
    (returned : ((beginRun environment config draws now).run plan device).1 = .ok phase) :
    ∃ tpm, ((openNodeKey environment.provider draws config).run plan device).1 = .ok tpm ∧
      ((phase = .bootstrapping tpm 0 ∧ ((nodePkiPresent config).run plan
          ((openNodeKey environment.provider draws config).run plan device).2).1 = .ok false) ∨
        phase = .renewing tpm 0 ∨ phase = .loading tpm) := by
  obtain ⟨tpm, opened, rest⟩ := (run_bind_ok_iff ..).mp returned
  obtain ⟨present, found, answer⟩ := (run_bind_ok_iff ..).mp rest
  refine ⟨tpm, opened, ?_⟩
  cases present with
  | false => exact Or.inl ⟨(Outcome.ok.inj answer).symm, found⟩
  | true => exact Or.inr (check_expiry_ok answer)

/-- What a boot leaves on the device is what opening the node's key left. -/
theorem begin_run_device :
    ((beginRun environment config draws now).run plan device).2 =
      ((openNodeKey environment.provider draws config).run plan device).2 := by
  have rest (tpm : Option TpmIdentity) : Keeps id (do
      let present ← nodePkiPresent config
      if present then checkExpiry environment.pki config now tpm
      else pure (.bootstrapping tpm 0) : Boot Phase) := by
    refine Keeps.bind (node_pki_present_keeps config) fun present => ?_
    cases present with
    | true => exact check_expiry_keeps _ _ _ _
    | false => exact .ret _
  unfold beginRun
  rw [run_bind]
  cases ran : (openNodeKey environment.provider draws config).run plan device with
  | mk outcome after =>
      cases outcome with
      | ok tpm => exact rest tpm plan after
      | err error => rfl
      | killed => rfl

end Boot

section Steps

variable {environment : Environment} {config : Config} {state next : State} {action : Action}

theorem after_bootstrap_key (tpm : Option TpmIdentity) (failures : Nat)
    (outcome : Outcome Error Unit) :
    afterBootstrap tpm failures outcome = .down ∨
      (afterBootstrap tpm failures outcome).key = some tpm := by
  cases outcome with
  | ok value => exact Or.inr rfl
  | killed => exact Or.inl rfl
  | err error =>
      simp only [afterBootstrap]
      split
      · exact Or.inr rfl
      · exact Or.inl rfl

theorem after_reenroll_key (tpm : Option TpmIdentity) (failures : Nat)
    (outcome : Outcome Error Unit) :
    afterReenroll tpm failures outcome = .down ∨
      (afterReenroll tpm failures outcome).key = some tpm := by
  cases outcome with
  | ok value => exact Or.inr rfl
  | killed => exact Or.inl rfl
  | err error =>
      simp only [afterReenroll]
      split <;> exact Or.inr rfl

/-- After a re-enrollment nothing bootstraps. -/
theorem after_reenroll_phase (tpm : Option TpmIdentity) (failures count : Nat)
    (other : Option TpmIdentity) (outcome : Outcome Error Unit) :
    afterReenroll tpm failures outcome ≠ .bootstrapping other count := by
  cases outcome with
  | ok value => simp [afterReenroll]
  | killed => simp [afterReenroll]
  | err error =>
      simp only [afterReenroll]
      split <;> simp

/-- The daemon is up with this key, and is not bootstrapping. -/
structure Settled (phase : Phase) (tpm : Option TpmIdentity) : Prop where
  key : phase.key = some tpm
  enrolled : ∀ other failures, phase ≠ .bootstrapping other failures

/-- All that a step can do to the device and to the phase. -/
def Does (environment : Environment) (config : Config) (state next : State) : Action → Prop
  | .boot draws _ plan =>
      let opened := (openNodeKey environment.provider draws config).run plan state.device
      state.phase = .down ∧ next.device = opened.2 ∧
        (next.phase = .down ∨ ∃ tpm, opened.1 = .ok tpm ∧
          (Settled next.phase tpm ∨ (next.phase = .bootstrapping tpm 0 ∧
            ((nodePkiPresent config).run plan opened.2).1 = .ok false)))
  | .bootstrap server fresh plan => ∃ tpm failures,
      let called :=
        (bootstrapEnroll environment.pki server fresh config tpm).run plan state.device.world
      state.phase = .bootstrapping tpm failures ∧
        next.device = { state.device with world := called.2 } ∧
        (next.phase = .down ∨ next.phase.key = some tpm)
  | .reenroll server fresh plan => ∃ tpm failures,
      let called :=
        (Enrollment.reenroll environment.pki server fresh config tpm).run plan state.device.world
      state.phase = .renewing tpm failures ∧
        next.device = { state.device with world := called.2 } ∧
        (next.phase = .down ∨ Settled next.phase tpm)
  | .load _ => ∃ tpm, state.phase = .loading tpm ∧ next.device = state.device ∧
      (next.phase = .down ∨ Settled next.phase tpm)
  | .listen plan => ∃ identity, state.phase = .reconciling identity ∧
      next.device = state.device.setDisk
        ((Node.listen environment config).run plan state.device.disk).2 ∧
      (next.phase = .down ∨ Settled next.phase identity.tpm)
  | .tick server fresh now plan => ∃ identity : Identity,
      let ticked := (RenewalLoop.tick environment.pki server fresh now config identity.tpm).run
        plan ⟨state.device.world, identity.cert.current⟩
      state.phase.key = some identity.tpm ∧
        next.device = { state.device with world := ticked.2.world } ∧
        (next.phase = .down ∨ Settled next.phase identity.tpm)
  | .request request plan => ∃ identity nextRequestId,
      state.phase = .serving identity nextRequestId ∧
        (next.device = state.device ∨ next.device = state.device.setDisk
          ((handle environment config request).run plan state.device.disk).2) ∧
        (next.phase = .down ∨ Settled next.phase identity.tpm)
  | .crash => next.device = state.device ∧ next.phase = .down

theorem load_does {plan : Plan LoadStep} {tpm : Option TpmIdentity} :
    (state.load environment.pki config plan tpm).device = state.device ∧
      ((state.load environment.pki config plan tpm).phase = .down ∨
        Settled (state.load environment.pki config plan tpm).phase tpm) := by
  have loads {Value : Type} (place : LoopStep → LoadStep) {process : Loop Value}
      (kept : Keeps id process) : Keeps id (loading place process) := by
    intro plan world
    have same := kept (plan.at place) (unserved world)
    exact congrArg LoopState.world same
  have roots : Keeps id (loadClientRoots environment.pki config.clientCa) := by
    refine Keeps.bind (loads _ (load_certs_keeps _ _)) fun roots => ?_
    refine Keeps.bind (Keeps.check _ _) fun _ => ?_
    split
    · exact .raise _
    · exact .ret _
  have kept : Keeps id (loadIdentity environment.pki config tpm) := by
    refine Keeps.bind (Keeps.mapError (loads _ ?_)) fun cert => ?_
    · exact .bind (build_certified_key_keeps _ _ _) fun _ => .ret _
    · exact .bind (Keeps.mapError (.bind (Keeps.mapError roots) fun _ =>
        .bind (.check _ _) fun _ => .ret _)) fun _ => .ret _
  have same := kept plan state.device.world
  have built (identity : Identity)
      (returned : ((loadIdentity environment.pki config tpm).run plan state.device.world).1 =
        .ok identity) : identity.tpm = tpm := by
    obtain ⟨cert, -, rest⟩ := (run_bind_ok_iff ..).mp returned
    obtain ⟨roots, -, answer⟩ := (run_bind_ok_iff ..).mp rest
    rw [← Outcome.ok.inj answer]
  unfold State.load
  cases ran : (loadIdentity environment.pki config tpm).run plan state.device.world with
  | mk outcome world =>
      rw [ran] at same built
      obtain rfl : world = state.device.world := same
      cases outcome with
      | ok identity =>
          exact ⟨rfl, Or.inr ⟨congrArg some (built identity rfl), by simp [State.setWorld]⟩⟩
      | err error => exact ⟨rfl, Or.inl rfl⟩
      | killed => exact ⟨rfl, Or.inl rfl⟩

theorem tick_does {server : EstServer} {fresh : KeyPair} {now : Option Nat} {plan : Plan LoopStep}
    {identity : Identity} {resume : Identity → Phase}
    (resumed : ∀ identity, Settled (resume identity) identity.tpm) :
    (state.tick environment.pki config server fresh now plan identity resume).device =
        { state.device with
          world := ((RenewalLoop.tick environment.pki server fresh now config identity.tpm).run
            plan ⟨state.device.world, identity.cert.current⟩).2.world } ∧
      ((state.tick environment.pki config server fresh now plan identity resume).phase = .down ∨
        Settled (state.tick environment.pki config server fresh now plan identity resume).phase
          identity.tpm) := by
  unfold State.tick
  cases ran : (RenewalLoop.tick environment.pki server fresh now config identity.tpm).run
      plan ⟨state.device.world, identity.cert.current⟩ with
  | mk outcome after =>
      cases outcome with
      | killed => exact ⟨rfl, Or.inl rfl⟩
      | ok report => exact ⟨rfl, Or.inr (resumed _)⟩
      | err error => exact ⟨rfl, Or.inr (resumed _)⟩

theorem request_does {request : Request} {plan : Plan ApplyStep} {identity : Identity}
    {nextRequestId : UInt64} :
    let after := state.request environment config request plan identity nextRequestId
    (after.device = state.device ∨ after.device = state.device.setDisk
        ((handle environment config request).run plan state.device.disk).2) ∧
      (after.phase = .down ∨ Settled after.phase identity.tpm) := by
  intro after
  have settled (number : UInt64) : Settled (.serving identity number) identity.tpm :=
    ⟨rfl, by simp⟩
  by_cases allowed : Allowed config.authorization request
  · have ⟨_, passed⟩ := authorize_allowed config.authorization request allowed
      (handler environment config plan)
      ⟨nextRequestId, state.audit, ⟨state.device.disk, some forbidden⟩⟩
    unfold handler at passed
    simp only [after, State.request]
    rw [show (authorize config.authorization (handler environment config plan) request
      ⟨nextRequestId, state.audit, ⟨state.device.disk, some forbidden⟩⟩).2.handler = _ from passed]
    cases ran : (handle environment config request).run plan state.device.disk with
    | mk outcome disk =>
        cases outcome with
        | ok response => exact ⟨Or.inr rfl, Or.inr (settled _)⟩
        | err error => exact ⟨Or.inr rfl, Or.inl rfl⟩
        | killed => exact ⟨Or.inr rfl, Or.inl rfl⟩
  · have ⟨_, kept⟩ := authorize_denied config.authorization request allowed
      (handler environment config plan)
      ⟨nextRequestId, state.audit, ⟨state.device.disk, some forbidden⟩⟩
    simp only [after, State.request]
    rw [kept]
    exact ⟨Or.inl rfl, Or.inr (settled _)⟩

theorem boot_does {draws : Draws} {now : Option Nat} {plan : Plan BootStep} :
    let opened := (openNodeKey environment.provider draws config).run plan state.device
    let after := state.boot environment config draws now plan
    after.device = opened.2 ∧ (after.phase = .down ∨ ∃ tpm, opened.1 = .ok tpm ∧
      (Settled after.phase tpm ∨ (after.phase = .bootstrapping tpm 0 ∧
        ((nodePkiPresent config).run plan opened.2).1 = .ok false))) := by
  intro opened after
  have device : ((beginRun environment config draws now).run plan state.device).2 = opened.2 :=
    begin_run_device
  have returned (phase : Phase)
      (answer : ((beginRun environment config draws now).run plan state.device).1 = .ok phase) :=
    begin_run_ok answer
  simp only [after, State.boot]
  cases ran : (beginRun environment config draws now).run plan state.device with
  | mk outcome later =>
      rw [ran] at device returned
      cases outcome with
      | err error => exact ⟨device, Or.inl rfl⟩
      | killed => exact ⟨device, Or.inl rfl⟩
      | ok phase =>
          obtain ⟨tpm, answer, ends⟩ := returned phase rfl
          refine ⟨device, Or.inr ⟨tpm, answer, ?_⟩⟩
          rcases ends with missing | rfl | rfl
          · exact Or.inr missing
          · exact Or.inl ⟨rfl, by simp⟩
          · exact Or.inl ⟨rfl, by simp⟩

/-- A boot on a node without a token that does not find the node's PKI. -/
theorem boot_of_missing (draws : Draws) (now : Option Nat) {plan : Plan BootStep}
    (software : config.tpm = none) (down : state.phase = .down)
    (missing : ((nodePkiPresent config).run plan state.device).1 = .ok false) :
    Node.step environment config state (.boot draws now plan) =
      some { state with phase := .bootstrapping none 0 } := by
  have kept : ((nodePkiPresent config).run plan state.device).2 = state.device :=
    node_pki_present_keeps config plan state.device
  have idle : openNodeKey environment.provider draws config = pure none := by
    unfold openNodeKey
    rw [software]
  have begun : (beginRun environment config draws now).run plan state.device =
      (.ok (.bootstrapping none 0), state.device) := by
    unfold beginRun
    rw [idle, run_bind, run_pure]
    simp only
    rw [run_bind_of_ok _ _ missing, kept]
    rfl
  simp only [Node.step, down, State.boot, begun]

/-- A step that is possible does what is said of its action. -/
theorem step_does (taken : Node.step environment config state action = some next) :
    Does environment config state next action := by
  cases action with
  | boot draws now plan =>
      simp only [Node.step] at taken
      split at taken
      · rw [← Option.some.inj taken]
        exact ⟨‹_›, boot_does⟩
      · cases taken
  | bootstrap server fresh plan =>
      simp only [Node.step] at taken
      split at taken
      · rename_i tpm failures phase
        rw [← Option.some.inj taken]
        exact ⟨tpm, failures, phase, rfl, after_bootstrap_key _ _ _⟩
      · cases taken
  | reenroll server fresh plan =>
      simp only [Node.step] at taken
      split at taken
      · rename_i tpm failures phase
        rw [← Option.some.inj taken]
        refine ⟨tpm, failures, phase, rfl, ?_⟩
        apply (after_reenroll_key tpm failures _).imp_right
        intro key
        exact ⟨key, fun other count => after_reenroll_phase _ _ _ _ _⟩
      · cases taken
  | load plan =>
      simp only [Node.step] at taken
      split at taken
      · rename_i tpm phase
        rw [← Option.some.inj taken]
        exact ⟨tpm, phase, load_does⟩
      · cases taken
  | listen plan =>
      simp only [Node.step] at taken
      split at taken
      · rename_i identity phase
        rw [← Option.some.inj taken]
        refine ⟨identity, phase, ?_⟩
        unfold State.listen
        cases ran : (Node.listen environment config).run plan state.device.disk with
        | mk outcome disk =>
            cases outcome with
            | ok value => exact ⟨rfl, Or.inr ⟨rfl, by simp [State.setWorld]⟩⟩
            | err error => exact ⟨rfl, Or.inl rfl⟩
            | killed => exact ⟨rfl, Or.inl rfl⟩
      · cases taken
  | tick server fresh now plan =>
      simp only [Node.step] at taken
      split at taken
      · rename_i identity phase
        rw [← Option.some.inj taken]
        exact ⟨identity, by rw [phase]; rfl, tick_does fun _ => ⟨rfl, by simp⟩⟩
      · rename_i identity number phase
        rw [← Option.some.inj taken]
        exact ⟨identity, by rw [phase]; rfl, tick_does fun _ => ⟨rfl, by simp⟩⟩
      · cases taken
  | request request plan =>
      simp only [Node.step] at taken
      split at taken
      · rename_i identity number phase
        rw [← Option.some.inj taken]
        exact ⟨identity, number, phase, request_does⟩
      · cases taken
  | crash =>
      rw [← Option.some.inj taken]
      exact ⟨rfl, rfl⟩

end Steps

end NodeOs.Noded.Node
