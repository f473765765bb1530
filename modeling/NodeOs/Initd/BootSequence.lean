import NodeOs.Initd.DiskFrames
import NodeOs.Initd.Interfaces
import NodeOs.Initd.Mounts
import NodeOs.Initd.Supervise

/-!
# PID 1 from its configuration on

`main` makes directories, mounts filesystems and disks, makes the root
read-only, brings the interfaces up, and then starts and supervises the
services. Whatever fails on the way, nothing is done for a service before all
of the file tree is as configured.
-/

namespace NodeOs.Initd.BootSequence

open NodeOs.Library.FaultPlan NodeOs.Library.FaultPlan.Proc NodeOs.Initd.DiskTools
open NodeOs.Initd.Disks NodeOs.Initd.DiskFrames NodeOs.Initd.Interfaces NodeOs.Initd.Mounts
open NodeOs.Initd.Supervise (Service RunningService InitError World Timeline runServices)

/-- The service that is supervised when none is configured. -/
def defaultService : Service where
  name := "noded"
  command := "/usr/bin/noded"
  args := ["/etc/nodeos/noded.yaml"]
  restart := .always

/-- `Config`, with the defaults of its missing fields. -/
structure InitConfig where
  requiredDirs : List String := ["/run", "/tmp", "/var/lib/nodeos", "/var/log"]
  mounts : List Mount := []
  disks : List Disk := []
  interfaces : List String := []
  services : List Service := [defaultService]

/-- What PID 1 finds around it: the tools and the TPM, the kernel's network
devices, and what happens over time. -/
structure Surroundings where
  platform : Platform
  boot : Boot
  resolve : Resolve
  timeline : Timeline

structure System where
  tree : Tree
  machine : Machine
  network : Network
  world : World

inductive BootStep where
  | tree (step : TreeStep)
  | disk (step : Nat × DiskStep)
  | interface (step : Nat × InterfaceStep)
  | service (moment : Nat)
  deriving DecidableEq, Repr

abbrev PidOne := Proc BootStep Error System

section Source

def onTree {Value : Type} (process : OnTree Value) : PidOne Value :=
  focus System.tree (fun tree system => { system with tree := tree }) (relabel .tree process)

def onDisks {Value : Type} (process : Proc (Nat × DiskStep) Error Machine Value) : PidOne Value :=
  focus System.machine (fun machine system => { system with machine := machine })
    (relabel .disk process)

def onNetwork {Value : Type} (process : Proc (Nat × InterfaceStep) Error Network Value) :
    PidOne Value :=
  focus System.network (fun network system => { system with network := network })
    (relabel .interface process)

def onServices {Value : Type} (process : Proc Nat InitError World Value) : PidOne Value :=
  mapError (fun error => [error.message])
    (focus System.world (fun world system => { system with world := world })
      (relabel .service process))

variable (around : Surroundings) (config : InitConfig)

/-- The services, as far as some passes of the supervisor. -/
def serve (ticks visits : Nat) : PidOne (List RunningService) := do
  onNetwork (bringUpInterfaces around.resolve config.interfaces)
  onServices (runServices around.timeline config.services ticks visits)

/-- `main` after the configuration has been read. -/
def main (ticks visits : Nat) : PidOne (List RunningService) := do
  onTree (createRequiredDirs config.requiredDirs)
  onTree (applyMounts config.mounts)
  onDisks (applyDisks around.platform around.boot config.disks)
  onTree remountRootReadonly
  serve around config ticks visits

end Source

section Disks

variable {platform : Platform} {boot : Boot}

/-- Where the filesystem of a disk is found. -/
def sourceOf (disk : Disk) : Source :=
  match disk.encrypt with
  | some luks => .mapper luks.name
  | none => .device disk.device

/-- The mount that the configuration asks for. -/
structure MountedFor (disk : Disk) (mounted : Mounted) : Prop where
  source : mounted.source = sourceOf disk
  target : mounted.target = disk.target
  fstype : mounted.fstype = disk.fstype
  flags : mountFlags disk.flags = .ok mounted.flags

theorem open_disk_keeps_mounts (draw : Draw) (disk : Disk) :
    Keeps Machine.mounts (openDisk platform boot draw disk) := by
  have kept (fixed : List Mounted) :
      Preserves (fun machine => machine.mounts = fixed) (openDisk platform boot draw disk) := by
    unfold openDisk
    cases encrypted : disk.encrypt with
    | none =>
        apply EnduresPlain.open_plain
        exact ⟨fun _ _ _ holds => holds, fun _ _ holds => holds⟩
    | some luks =>
        apply Endures.open_encrypted
        constructor
        · intro _ _ _ holds
          exact holds
        · rintro machine other ⟨-, -, -, same, -⟩ holds
          rw [same, holds]
        · intro _ _ holds
          exact holds
        · intro _ holds
          exact holds
        · intro _ _ _ _ _ holds
          exact holds
        · intro _ _ holds
          exact holds
  exact fun plan machine => kept machine.mounts plan machine rfl

theorem open_disk_source {draw : Draw} {disk : Disk} {plan : Plan DiskStep} {machine : Machine}
    {source : Source}
    (opened : ((openDisk platform boot draw disk).run plan machine).1 = .ok source) :
    source = sourceOf disk := by
  unfold openDisk at opened
  unfold sourceOf
  cases encrypted : disk.encrypt with
  | none =>
      rw [encrypted] at opened
      obtain ⟨_, -, answer⟩ := (run_bind_ok_iff ..).mp opened
      exact (Outcome.ok.inj answer).symm
  | some luks =>
      rw [encrypted] at opened
      obtain ⟨_, -, rest⟩ := (run_bind_ok_iff ..).mp opened
      obtain ⟨_, -, answer⟩ := (run_bind_ok_iff ..).mp rest
      exact (Outcome.ok.inj answer).symm

theorem mount_disk_appends (disk : Disk) :
    Appends Machine.mounts MountedFor [disk] (mountDisk platform disk (sourceOf disk)) := by
  have quiet {Value : Type} {process : Disks Value} (kept : Keeps Machine.mounts process) :
      Appends Machine.mounts MountedFor ([] : List Disk) process := .of_keeps kept
  refine Appends.bind (quiet (.check _ _)) fun _ =>
    Appends.bind_ok (quiet (.ofExcept _)) fun plan machine flags made => ?_
  refine Appends.mapError (.bind (quiet (.ofExcept _)) fun _ => .bind (quiet (.ofExcept _)) fun _ =>
    .bind (quiet (.ofExcept _)) fun _ => .act fun before after taken => ?_)
  obtain ⟨filesystem, -, allowed⟩ := Option.bind_eq_some_iff.mp taken
  simp only [Option.ite_none_right_eq_some, Option.some.injEq] at allowed
  rw [← allowed.2]
  exact ⟨_, ⟨rfl, rfl, rfl, (run_ofExcept_ok_iff ..).mp made⟩, rfl⟩

theorem apply_disks_appends (disks : List Disk) :
    Appends Machine.mounts MountedFor disks (applyDisks platform boot disks) := by
  have visited (index : Nat) (disk : Disk) :
      Appends Machine.mounts MountedFor [disk] (visit platform boot index disk) := by
    have opening : Appends Machine.mounts MountedFor ([] : List Disk)
        (openDisk platform boot (boot.draws index) disk) :=
      .of_keeps (open_disk_keeps_mounts _ _)
    refine Appends.relabel (Appends.bind_ok opening fun plan machine source opened => ?_)
    rw [open_disk_source opened]
    exact mount_disk_appends disk
  have looped := Appends.bind (Appends.each visited 0 disks) fun _ : List Unit =>
    (Appends.of_keeps (.ret ()) : Appends Machine.mounts MountedFor []
      (pure () : Proc (Nat × DiskStep) Error Machine Unit))
  rwa [List.append_nil] at looped

end Disks

section Order

variable {around : Surroundings} {config : InitConfig} {start system : System}
  {plan : Plan BootStep}

/-- The file tree is as the configuration asks. -/
structure SetUp (config : InitConfig) (start system : System) : Prop where
  directories : system.tree.directories =
    start.tree.directories ++ config.requiredDirs ++ config.mounts.map Mount.target
  mounts : Whole Asked config.mounts start.tree.mounted system.tree.mounted
  disks : Whole MountedFor config.disks start.machine.mounts system.machine.mounts
  root : system.tree.readOnly = true

/-- Nothing is mounted but what is configured, in its order, and each part of
the boot follows the one before it. -/
structure InOrder (config : InitConfig) (start system : System) : Prop where
  mounts : Begun Asked config.mounts start.tree.mounted system.tree.mounted
  disks : Begun MountedFor config.disks start.machine.mounts system.machine.mounts
  disksLater : system.machine ≠ start.machine →
    Whole Asked config.mounts start.tree.mounted system.tree.mounted
  rootLater : system.tree.readOnly ≠ start.tree.readOnly →
    Whole MountedFor config.disks start.machine.mounts system.machine.mounts
  networkLater : system.network ≠ start.network → SetUp config start system
  servicesLater : system.world ≠ start.world → SetUp config start system

theorem SetUp.inOrder (done : SetUp config start system) : InOrder config start system where
  mounts := done.mounts.begun
  disks := done.disks.begun
  disksLater _ := done.mounts
  rootLater _ := done.disks
  networkLater _ := done
  servicesLater _ := done

/-- While the mounts are applied. -/
theorem in_order_of_mounting (tree : Tree)
    (mounts : Begun Asked config.mounts start.tree.mounted tree.mounted)
    (root : tree.readOnly = start.tree.readOnly) :
    InOrder config start { start with tree := tree } where
  mounts := mounts
  disks := begun_refl _ _ _
  disksLater changed := absurd rfl changed
  rootLater changed := absurd root changed
  networkLater changed := absurd rfl changed
  servicesLater changed := absurd rfl changed

/-- While the disks are applied. -/
theorem in_order_of_disks (tree : Tree) (machine : Machine)
    (mounts : Whole Asked config.mounts start.tree.mounted tree.mounted)
    (root : tree.readOnly = start.tree.readOnly)
    (disks : Begun MountedFor config.disks start.machine.mounts machine.mounts) :
    InOrder config start { start with tree := tree, machine := machine } where
  mounts := mounts.begun
  disks := disks
  disksLater _ := mounts
  rootLater changed := absurd root changed
  networkLater changed := absurd rfl changed
  servicesLater changed := absurd rfl changed

/-- Serving leaves the file tree alone. -/
theorem serve_keeps (ticks visits : Nat) :
    Keeps (fun system => (system.tree, system.machine)) (serve around config ticks visits) := by
  refine .bind (fun _ _ => rfl) fun _ => ?_
  exact .mapError fun _ _ => rfl

/-- The root is remounted once the disks are there. -/
theorem remount_in_order (tree : Tree) (machine : Machine) (ticks visits : Nat)
    (directories : tree.directories =
      start.tree.directories ++ config.requiredDirs ++ config.mounts.map Mount.target)
    (mounts : Whole Asked config.mounts start.tree.mounted tree.mounted)
    (disks : Whole MountedFor config.disks start.machine.mounts machine.mounts) :
    InOrder config start ((do
      onTree remountRootReadonly
      serve around config ticks visits : PidOne (List RunningService)).run plan
        { start with tree := tree, machine := machine }).2 := by
  obtain ⟨sameDirectories, sameMounted⟩ := Prod.mk.inj (remount_keeps (plan.at .tree) tree)
  rw [← sameMounted] at mounts
  apply run_bind_holds
  · intro value returned
    have kept := @serve_keeps around config ticks visits plan
      ((onTree remountRootReadonly).run plan { start with tree := tree, machine := machine }).2
    obtain ⟨sameTree, sameMachine⟩ := Prod.mk.inj kept
    have tree' : System.tree _ = (remountRootReadonly.run (plan.at .tree) tree).2 := sameTree
    have machine' : System.machine _ = machine := sameMachine
    apply SetUp.inOrder
    constructor
    · rw [tree', sameDirectories, directories]
    · rw [tree']
      exact mounts
    · rw [machine']
      exact disks
    · rw [tree']
      exact remount_ok returned
  · intro _
    constructor
    · exact mounts.begun
    · exact disks.begun
    · exact fun _ => mounts
    · exact fun _ => disks
    · exact fun changed => absurd rfl changed
    · exact fun changed => absurd rfl changed

/-- The disks are applied once the mounts are there. -/
theorem disks_in_order (tree : Tree) (ticks visits : Nat)
    (directories : tree.directories =
      start.tree.directories ++ config.requiredDirs ++ config.mounts.map Mount.target)
    (mounts : Whole Asked config.mounts start.tree.mounted tree.mounted)
    (root : tree.readOnly = start.tree.readOnly) :
    InOrder config start ((do
      onDisks (applyDisks around.platform around.boot config.disks)
      onTree remountRootReadonly
      serve around config ticks visits : PidOne (List RunningService)).run plan
        { start with tree := tree }).2 := by
  have appends : Appends Machine.mounts MountedFor config.disks
    (applyDisks around.platform around.boot config.disks) := apply_disks_appends config.disks
  apply run_bind_holds
  · intro value applied
    exact remount_in_order tree _ ticks visits directories mounts (appends.whole applied)
  · intro _
    exact in_order_of_disks tree _ mounts root (appends.begun _ _)

theorem forall2_eq {Item Entry : Type} {entry : Item → Entry} {items : List Item}
    {entries : List Entry}
    (same : List.Forall₂ (fun item found => found = entry item) items entries) :
    entries = items.map entry := by
  induction same with
  | nil => rfl
  | cons here later ih => rw [here, ih, List.map_cons]

/-- The mounts are applied once the directories are there. -/
theorem mounts_in_order (tree : Tree) (ticks visits : Nat)
    (directories : tree.directories = start.tree.directories ++ config.requiredDirs)
    (mounted : tree.mounted = start.tree.mounted) (root : tree.readOnly = start.tree.readOnly) :
    InOrder config start ((do
      onTree (applyMounts config.mounts)
      onDisks (applyDisks around.platform around.boot config.disks)
      onTree remountRootReadonly
      serve around config ticks visits : PidOne (List RunningService)).run plan
        { start with tree := tree }).2 := by
  have appends := apply_mounts_appends config.mounts
  have kept := (apply_mounts_keeps_read_only config.mounts (plan.at .tree) tree).trans root
  apply run_bind_holds
  · intro value applied
    obtain ⟨made, appended, targets⟩ := (apply_mounts_directories config.mounts).whole applied
    have mounts := appends.whole applied
    rw [mounted] at mounts
    refine disks_in_order _ ticks visits ?_ mounts kept
    exact appended.trans (by rw [directories, forall2_eq targets])
  · intro _
    have mounts := appends.begun (plan.at .tree) tree
    rw [mounted] at mounts
    exact in_order_of_mounting _ mounts kept

end Order

end NodeOs.Initd.BootSequence
