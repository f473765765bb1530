import NodeOs.Noded.Confinement

/-!
# Whom the management API trusts

The certificates that clients are verified under are read from the bundle file when the
server is started. Only a bootstrap writes this file, with what the EST server hands
out for it; a renewal, a request and a reconciliation leave it alone.
-/

namespace NodeOs.Noded.TrustAnchor

open NodeOs.Library NodeOs.Library.FaultPlan NodeOs.Library.FaultPlan.Proc
open NodeOs.Noded.FileSystem NodeOs.Noded.WriteAtomic NodeOs.Noded.Enrollment
open NodeOs.Noded.Bootstrap NodeOs.Noded.ServedIdentity NodeOs.Noded.Pkcs11
open NodeOs.Noded.RenewalLoop hiding State
open NodeOs.Noded.Reconcile NodeOs.Noded.Authorization
open NodeOs.Noded.Node NodeOs.Noded.Footprint NodeOs.Noded.Confinement

/-- The certificates that clients are verified under. -/
def clientRoots : Phase → Option (List Certificate)
  | .reconciling identity => some identity.clientRoots
  | .serving identity _ => some identity.clientRoots
  | _ => none

/-- The certificates are all those of this bundle. -/
def ReadFrom (pki : Pki) (bundle : Option Bytes) (roots : List Certificate) : Prop :=
  roots ≠ [] ∧ ∃ bytes, bundle = some bytes ∧ pki.certs bytes = .ok roots

/-- No file the daemon writes stands in the way of the bundle. -/
structure BundleApart (config : Config) : Prop where
  cert : Spares config.certFile config.clientCa
  key : config.tpm = none → Spares config.keyFile config.clientCa
  targets : ∀ target ∈ workloadTargets config.profile, Spares target.path config.clientCa
  pin : ∀ cfg ∈ config.tpm, config.clientCa ≠ cfg.pinFile

section Writes

variable {config : Config} {bundle : Bytes → Prop} {allowed : Option Bytes → Prop}

theorem spared_write {written : Path} (spares : Spares written config.clientCa) (data : Bytes)
    (isPrivate : Bool) :
    Preserves (fun disk => allowed (disk.content config.clientCa))
      (writeAtomic written data isPrivate) :=
  .of_keeps (write_atomic_keeps spares data isPrivate) fun _ _ same held => by
    rwa [entry_content same]

theorem bundle_write {data : Bytes} (accepted : allowed (some data)) :
    Preserves (fun disk => allowed (disk.content config.clientCa))
      (writeAtomic config.clientCa data false) := by
  intro plan disk held
  show allowed _
  rw [write_atomic_content]
  unfold Progress.content
  cases staged : config.clientCa.tempPath with
  | none => cases progress config.clientCa data plan <;> exact held
  | some temp =>
      have apart := Path.temp_path_ne config.clientCa temp staged
      cases progress config.clientCa data plan with
      | untouched => exact held
      | staged bytes =>
          simp only [Function.update_of_ne apart.symm]
          exact held
      | replaced =>
          simp only [Function.update_of_ne apart.symm, Function.update_self]
          exact accepted

theorem bundle_writes (allowed : Option Bytes → Prop) (apart : BundleApart config)
    (accepted : ∀ data, bundle data → allowed (some data)) :
    WritesPreserve bundle (fun disk => allowed (disk.content config.clientCa)) config where
  store _ _ disk made _ held := held
  pin cfg configured :=
    { dirs := fun disk parent made parented inside held => held
      file := fun disk content held => by
        have other := apart.pin cfg configured
        have same : (disk.put cfg.pinFile (some ⟨content,
            ((disk.files cfg.pinFile).map File.mode).getD 0o600⟩)).content config.clientCa =
              disk.content config.clientCa := by
          simp [Disk.content, Function.update_of_ne other]
        rwa [same] }
  cert data := spared_write apart.cert data false
  key software data := spared_write (apart.key software) data true
  clientCa data given := bundle_write (accepted data given)
  targets target listed data := spared_write (apart.targets target listed) data target.isPrivate

end Writes

section Roots

variable {environment : Environment} {config : Config} {state next : State} {action : Action}

theorem new_keeps_world (pki : Pki) (path : Path) (source : KeySource) :
    Keeps id (loading .identity (ReloadableCert.new pki path source)) := by
  have kept : Keeps id (ReloadableCert.new pki path source) :=
    .bind (build_certified_key_keeps pki path source) fun _ => .ret _
  intro plan world
  have same := kept (plan.at .identity) (unserved world)
  exact congrArg LoopState.world same

theorem load_client_roots_read {pki : Pki} {path : Path} {plan : Plan LoadStep} {world : World}
    {roots : List Certificate}
    (loaded : ((loadClientRoots pki path).run plan world).1 = .ok roots) :
    ReadFrom pki (world.disk.content path) roots := by
  obtain ⟨found, read, rest⟩ := (run_bind_ok_iff ..).mp loaded
  obtain ⟨-, -, answer⟩ := (run_bind_ok_iff ..).mp rest
  have chain : chainAt pki (unserved world) path = some found :=
    ((load_certs_ok_iff ..).mp read).2
  obtain ⟨bytes, held, parsed⟩ := Option.bind_eq_some_iff.mp chain
  cases found with
  | nil => cases answer
  | cons first more =>
      obtain rfl : first :: more = roots := Outcome.ok.inj answer
      exact ⟨by simp, bytes, held, (to_option_eq_some_iff ..).mp parsed⟩

theorem load_reads {pki : Pki} {plan : Plan LoadStep} {tpm : Option TpmIdentity} {world : World}
    {identity : Identity}
    (loaded : ((loadIdentity pki config tpm).run plan world).1 = .ok identity) :
    ReadFrom pki (world.disk.content config.clientCa) identity.clientRoots := by
  obtain ⟨cert, -, rest⟩ := (run_bind_ok_iff ..).mp loaded
  obtain ⟨roots, built, answer⟩ := (run_bind_ok_iff ..).mp rest
  have same : ((mapError (context (loadMessage tpm)) (loading .identity
      (ReloadableCert.new pki config.certFile (keySource config tpm)))).run plan world).2 = world :=
    (new_keeps_world pki config.certFile (keySource config tpm)).mapError plan world
  rw [same] at built
  obtain ⟨found, read, later⟩ := (run_bind_ok_iff ..).mp ((run_mapError_ok_iff ..).mp built)
  obtain ⟨-, -, ends⟩ := (run_bind_ok_iff ..).mp later
  obtain rfl : found = roots := Outcome.ok.inj ends
  obtain rfl : ⟨tpm, cert, found⟩ = identity := Outcome.ok.inj answer
  exact load_client_roots_read ((run_mapError_ok_iff ..).mp read)

theorem boot_roots (draws : Draws) (now : Option Nat) (plan : Plan BootStep) :
    clientRoots (state.boot environment config draws now plan).phase = none := by
  have returned (phase : Phase)
      (answer : ((beginRun environment config draws now).run plan state.device).1 = .ok phase) :
      clientRoots phase = none := by
    obtain ⟨tpm, -, ⟨rfl, -⟩ | rfl | rfl⟩ := begin_run_ok answer <;> rfl
  unfold State.boot
  cases ran : (beginRun environment config draws now).run plan state.device with
  | mk outcome device =>
      rw [ran] at returned
      cases outcome with
      | ok phase => exact returned phase rfl
      | err error => rfl
      | killed => rfl

theorem after_bootstrap_roots (tpm : Option TpmIdentity) (failures : Nat)
    (outcome : Outcome Error Unit) : clientRoots (afterBootstrap tpm failures outcome) = none := by
  cases outcome with
  | ok value => rfl
  | killed => rfl
  | err error =>
      unfold afterBootstrap
      simp only
      split <;> rfl

theorem after_reenroll_roots (tpm : Option TpmIdentity) (failures : Nat)
    (outcome : Outcome Error Unit) : clientRoots (afterReenroll tpm failures outcome) = none := by
  cases outcome with
  | ok value => rfl
  | killed => rfl
  | err error =>
      unfold afterReenroll
      simp only
      split <;> rfl

theorem load_roots {plan : Plan LoadStep} {tpm : Option TpmIdentity} {roots : List Certificate}
    (up : clientRoots (state.load environment.pki config plan tpm).phase = some roots) :
    ReadFrom environment.pki (state.device.disk.content config.clientCa) roots := by
  unfold State.load at up
  cases ran : (loadIdentity environment.pki config tpm).run plan state.device.world with
  | mk outcome world =>
      rw [ran] at up
      cases outcome with
      | err error => cases up
      | killed => cases up
      | ok identity =>
          obtain rfl : identity.clientRoots = roots := Option.some.inj up
          exact load_reads (congrArg Prod.fst ran)

theorem listen_roots {plan : Plan ListenStep} {identity : Identity} {roots : List Certificate}
    (up : clientRoots (state.listen environment config plan identity).phase = some roots) :
    identity.clientRoots = roots := by
  unfold State.listen at up
  cases ran : (Node.listen environment config).run plan state.device.disk with
  | mk outcome disk =>
      rw [ran] at up
      cases outcome with
      | err error => cases up
      | killed => cases up
      | ok value => exact Option.some.inj up

theorem tick_roots {server : EstServer} {fresh : KeyPair} {now : Option Nat}
    {plan : Plan LoopStep} {identity : Identity} {resume : Identity → Phase}
    {roots : List Certificate}
    (resumed : ∀ other : Identity, clientRoots (resume other) = some other.clientRoots)
    (up : clientRoots (state.tick environment.pki config server fresh now plan identity
      resume).phase = some roots) : identity.clientRoots = roots := by
  unfold State.tick at up
  cases ran : (RenewalLoop.tick environment.pki server fresh now config identity.tpm).run plan
      ⟨state.device.world, identity.cert.current⟩ with
  | mk outcome after =>
      rw [ran] at up
      cases outcome with
      | killed => cases up
      | ok report =>
          have same := (resumed _).symm.trans up
          exact Option.some.inj same
      | err error =>
          have same := (resumed _).symm.trans up
          exact Option.some.inj same

theorem request_roots {request : Request} {plan : Plan ApplyStep} {identity : Identity}
    {number : UInt64} {roots : List Certificate}
    (up : clientRoots (state.request environment config request plan identity number).phase =
      some roots) : identity.clientRoots = roots := by
  unfold State.request at up
  simp only at up
  split at up
  · exact Option.some.inj up
  · cases up

/-- Where the server is up after a step, it trusts whom it trusted before, or has just read
the bundle; and the step was no bootstrap. -/
theorem step_roots (taken : Node.step environment config state action = some next)
    {roots : List Certificate} (up : clientRoots next.phase = some roots) :
    (∀ server fresh plan, action ≠ .bootstrap server fresh plan) ∧
      (clientRoots state.phase = some roots ∨
        ReadFrom environment.pki (state.device.disk.content config.clientCa) roots) := by
  cases action with
  | boot draws now plan =>
      simp only [Node.step] at taken
      split at taken
      · rw [← Option.some.inj taken, boot_roots] at up
        cases up
      · cases taken
  | bootstrap server fresh plan =>
      simp only [Node.step] at taken
      split at taken
      · rename_i tpm failures phase
        have shut : clientRoots next.phase = none := by
          rw [← Option.some.inj taken]
          exact after_bootstrap_roots _ _ _
        rw [shut] at up
        cases up
      · cases taken
  | reenroll server fresh plan =>
      simp only [Node.step] at taken
      split at taken
      · rename_i tpm failures phase
        have shut : clientRoots next.phase = none := by
          rw [← Option.some.inj taken]
          exact after_reenroll_roots _ _ _
        rw [shut] at up
        cases up
      · cases taken
  | load plan =>
      simp only [Node.step] at taken
      split at taken
      · rw [← Option.some.inj taken] at up
        exact ⟨by simp, .inr (load_roots up)⟩
      · cases taken
  | listen plan =>
      simp only [Node.step] at taken
      split at taken
      · rename_i identity phase
        rw [← Option.some.inj taken] at up
        exact ⟨by simp, .inl (by rw [phase, ← listen_roots up]; rfl)⟩
      · cases taken
  | tick server fresh now plan =>
      simp only [Node.step] at taken
      split at taken
      · rename_i identity phase
        rw [← Option.some.inj taken] at up
        exact ⟨by simp, .inl (by rw [phase, ← tick_roots (fun _ => rfl) up]; rfl)⟩
      · rename_i identity number phase
        rw [← Option.some.inj taken] at up
        exact ⟨by simp, .inl (by rw [phase, ← tick_roots (fun _ => rfl) up]; rfl)⟩
      · cases taken
  | request request plan =>
      simp only [Node.step] at taken
      split at taken
      · rename_i identity number phase
        rw [← Option.some.inj taken] at up
        exact ⟨by simp, .inl (by rw [phase, ← request_roots up]; rfl)⟩
      · cases taken
  | crash =>
      rw [← Option.some.inj taken] at up
      cases up

end Roots

section Runs

variable {environment : Environment} {config : Config} {initial : Option Bytes}
  {past : List Action} {state next : State} {action : Action}

/-- The text is the bundle of one of these bootstraps. -/
def Bootstrapped (pki : Pki) (config : Config) (actions : List Action) (data : Bytes) : Prop :=
  ∃ server fresh plan, .bootstrap server fresh plan ∈ actions ∧ Delivers pki config server data

/-- The bundle is the one that was there at first or one that a bootstrap was given, and
where the server is up it trusts exactly the certificates of the bundle. -/
structure Anchored (environment : Environment) (config : Config) (initial : Option Bytes)
    (past : List Action) (state : State) : Prop where
  kind : KeyKind config state.phase
  bundle : state.device.disk.content config.clientCa = initial ∨
    ∃ data, state.device.disk.content config.clientCa = some data ∧
      Bootstrapped environment.pki config past data
  served : ∀ roots, clientRoots state.phase = some roots →
    ReadFrom environment.pki (state.device.disk.content config.clientCa) roots

theorem Bootstrapped.later {pki : Pki} {data : Bytes} (given : Bootstrapped pki config past data)
    (action : Action) : Bootstrapped pki config (past ++ [action]) data := by
  obtain ⟨server, fresh, plan, inside, delivers⟩ := given
  exact ⟨server, fresh, plan, List.mem_append_left _ inside, delivers⟩

/-- A step that is no bootstrap leaves the bundle as it is. -/
theorem step_keeps_bundle (apart : BundleApart config) (kind : KeyKind config state.phase)
    (other : ∀ server fresh plan, action ≠ .bootstrap server fresh plan)
    (taken : Node.step environment config state action = some next) :
    next.device.disk.content config.clientCa = state.device.disk.content config.clientCa := by
  have writes : WritesPreserve (fun _ => False) (fun disk => disk.content config.clientCa =
      state.device.disk.content config.clientCa) config :=
    bundle_writes (fun content => content = state.device.disk.content config.clientCa) apart
      fun _ never => never.elim
  have kept := step_preserves writes ⟨rfl, kind⟩
    (fun server fresh plan same => absurd same (other server fresh plan)) taken
  exact kept.disk

theorem step_anchored (apart : BundleApart config)
    (anchored : Anchored environment config initial past state)
    (taken : Node.step environment config state action = some next) :
    Anchored environment config initial (past ++ [action]) next := by
  have writes : WritesPreserve (Bootstrapped environment.pki config (past ++ [action]))
      (fun disk => disk.content config.clientCa = initial ∨
        ∃ data, disk.content config.clientCa = some data ∧
          Bootstrapped environment.pki config (past ++ [action]) data) config :=
    bundle_writes (fun content => content = initial ∨ ∃ data, content = some data ∧
      Bootstrapped environment.pki config (past ++ [action]) data) apart
      fun data given => .inr ⟨data, rfl, given⟩
  have before : state.device.disk.content config.clientCa = initial ∨
      ∃ data, state.device.disk.content config.clientCa = some data ∧
        Bootstrapped environment.pki config (past ++ [action]) data := by
    rcases anchored.bundle with first | ⟨data, held, given⟩
    · exact .inl first
    · exact .inr ⟨data, held, given.later action⟩
  have after := step_preserves writes ⟨before, anchored.kind⟩
    (fun server fresh plan same data delivers =>
      ⟨server, fresh, plan, by simp [same], delivers⟩) taken
  refine ⟨after.kind, after.disk, fun roots up => ?_⟩
  obtain ⟨other, trusted⟩ := step_roots taken up
  rw [step_keeps_bundle apart anchored.kind other taken]
  rcases trusted with kept | read
  · exact anchored.served roots kept
  · exact read

end Runs

section Sample

open NodeOs.Noded.BootstrapPair NodeOs.Noded.IdentityPair NodeOs.Noded.TokenProvisioning

end Sample

end NodeOs.Noded.TrustAnchor
