import NodeOs.Initd.DiskWipe
import NodeOs.Initd.TpmCalls

/-!
# A call for one encrypted disk

What a call leaves that has provisioned a blank device, and how a call unlocks a
device that carries a header.
-/

namespace NodeOs.Initd.DiskVisits

open NodeOs.Library.FaultPlan NodeOs.Library.FaultPlan.Proc
open NodeOs.Initd.DiskTools NodeOs.Initd.Disks NodeOs.Initd.DiskCalls NodeOs.Initd.TpmCalls

variable {platform : Platform} {boot : Boot} {draw : Draw} {disk : Disk} {luks : Luks}
  {plan : Plan DiskStep} {guard : Guard}

section Logs

variable {Value : Type} {tools : List Tool} {process : Disks Value}

theorem grows_of_starts (starts : Starts tools process) (plan : Plan DiskStep) (machine : Machine) :
    ∃ events, (process.run plan machine).2.log = machine.log ++ events ∧
      ∀ event ∈ events, event.tool ∈ tools := by
  apply starts (fun log => ∃ events, log = machine.log ++ events ∧
    ∀ event ∈ events, event.tool ∈ tools)
  · rintro _ event listed ⟨events, rfl, known⟩
    refine ⟨events ++ [event], List.append_assoc _ _ _, ?_⟩
    intro other present
    rcases List.mem_append.mp present with earlier | last
    · exact known other earlier
    · rw [List.mem_singleton.mp last]
      exact listed
  · exact ⟨[], (List.append_nil _).symm, by simp⟩

theorem logged_of_starts (starts : Starts tools process) (plan : Plan DiskStep)
    (machine : Machine) {event : Event} (logged : event ∈ machine.log) :
    event ∈ (process.run plan machine).2.log := by
  obtain ⟨events, grown, -⟩ := grows_of_starts starts plan machine
  rw [grown]
  exact List.mem_append_left _ logged

end Logs

section Examination

/-- An examination changes only the log and makes sure of the device mapper. -/
theorem examine_run (luks : Luks) {machine : Machine} {answer : Bool}
    (examined : Examined platform disk plan machine answer) :
    ∃ events, (examine platform disk luks).run plan machine =
        (.ok answer, { machine with dmControl := true, log := machine.log ++ events }) ∧
      ∀ event ∈ events, event.tool ∈ examineTools := by
  have returned : ((examine platform disk luks).run plan machine).1 = .ok answer :=
    (examine_ok_iff answer).mpr examined
  have kept : Keeps (fun machine : Machine => { machine with dmControl := true, log := [] })
      (examine platform disk luks) := examine_keeps ⟨fun _ _ => rfl, fun _ => rfl⟩
  have same := kept plan machine
  have control : ((examine platform disk luks).run plan machine).2.dmControl = true := by
    have tail : Keeps Machine.dmControl (logPcrs luks.pcrs >>= fun _ => isLuks disk.device) :=
      .bind (log_pcrs_keeps (fun _ _ => rfl) _) fun _ => is_luks_keeps (fun _ _ => rfl) _
    exact (Keeps.after (fun _ => tail) _ plan machine).trans
      (ensure_dm_control_there examined.control)
  obtain ⟨events, grown, known⟩ :=
    grows_of_starts (examine_starts platform disk luks) plan machine
  refine ⟨events, ?_, known⟩
  cases ran : (examine platform disk luks).run plan machine with
  | mk outcome after =>
      rw [ran] at returned same control grown
      cases after
      simp_all

end Examination

section Provisioning

variable {machine : Machine} {key : Key}

theorem tpm_getrandom_run (draw : Draw) (machine : Machine) (ran : Ran plan .getRandom)
    (secured : plan .chmodKey = .done) :
    ∃ log, (tpmGetrandom draw).run plan machine =
      (.ok (), { machine with keyFile := some draw.key, log := log }) := by
  have drawn : ∃ log, (runTool .getRandom "/usr/bin/tpm2_getrandom" ["32", "-o", luksKeyfile]
      fun machine => some { machine with keyFile := some draw.key }).run plan machine =
        (.ok (), { machine with keyFile := some draw.key, log := log }) :=
    run_tool_logged { machine with keyFile := some draw.key } ran rfl
  obtain ⟨log, drawn⟩ := drawn
  refine ⟨log, ?_⟩
  rw [tpmGetrandom, run_bind, drawn]
  simp only [setPrivatePerms, run_check, secured]

theorem luks_format_run (machine : Machine) {device : String} (file : machine.keyFile = some key)
    (free : machine.inUse device = false) (ran : Ran plan .luksFormat) :
    (luksFormat device).run plan machine = (.ok (), { machine.fill device (.luks key none) with
      log := machine.log ++ ranEvents .luksFormat (luksFormatArgs device) machine.keyFile }) :=
  run_tool_exact (machine.fill device (.luks key none)) ran
    ((Machine.luks_formatted_eq_some_iff _).mpr ⟨key, file, free, rfl⟩)

theorem luks_format_ok {device : String}
    (returned : ((luksFormat device).run plan machine).1 = .ok ()) :
    Ran plan .luksFormat ∧ machine.inUse device = false := by
  obtain ⟨ran, taken⟩ := (run_tool_ok_iff _).mp returned
  obtain ⟨_, taken⟩ := Option.isSome_iff_exists.mp taken
  obtain ⟨_, -, free, -⟩ := (Machine.luks_formatted_eq_some_iff _).mp taken
  exact ⟨ran, free⟩

theorem luks_open_run (machine : Machine) {device name : String} {inner : Option Filesystem}
    (header : machine.contents device = .luks key inner) (file : machine.keyFile = some key)
    (control : machine.dmControl = true) (free : machine.inUse device = false)
    (unnamed : machine.mapped.lookup name = none) (ran : Ran plan .luksOpen) :
    (luksOpen device name).run plan machine = (.ok (), { machine with
      mapped := machine.mapped ++ [(name, device)]
      log := machine.log ++
        ranEvents .luksOpen (luksOpenArgs device name) machine.keyFile }) :=
  run_tool_exact { machine with mapped := machine.mapped ++ [(name, device)] } ran
    ((Machine.luks_opened_eq_some_iff _ _).mpr
      ⟨key, inner, header, file, control, free, unnamed, rfl⟩)

theorem luks_open_ok {device name : String}
    (returned : ((luksOpen device name).run plan machine).1 = .ok ()) :
    Ran plan .luksOpen ∧ machine.dmControl = true ∧ machine.inUse device = false ∧
      machine.mapped.lookup name = none ∧
      ∃ key inner, machine.contents device = .luks key inner ∧ machine.keyFile = some key := by
  obtain ⟨ran, taken⟩ := (run_tool_ok_iff _).mp returned
  obtain ⟨_, taken⟩ := Option.isSome_iff_exists.mp taken
  obtain ⟨key, inner, header, file, control, free, unnamed, -⟩ :=
    (Machine.luks_opened_eq_some_iff _ _).mp taken
  exact ⟨ran, control, free, unnamed, key, inner, header, file⟩

/-- A `mkfs` on a volume that is still empty. -/
theorem format_target_run (platform : Platform) (draw : Draw) (luks : Luks) (machine : Machine)
    {device : String} (commanded : disk.mkfs ≠ [])
    (mapped : machine.mapped.lookup luks.name = some device)
    (header : machine.contents device = .luks key none) (ran : Ran plan .mkfs) :
    ∃ log, (formatTarget platform draw disk (.mapper luks.name)).run plan machine =
      (.ok (), { machine.fill device (.luks key (madeBy platform draw disk))
        with log := log }) := by
  cases command : disk.mkfs with
  | nil => exact absurd command commanded
  | cons program args =>
      have taken (before : Machine) (same : before.mapped = machine.mapped)
          (contents : before.contents = machine.contents) :
          before.formatted (.mapper luks.name) (madeBy platform draw disk) =
            some (before.fill device (.luks key (madeBy platform draw disk))) := by
        cases made : madeBy platform draw disk with
        | some made =>
            apply (Machine.formatted_mapper_eq_some_iff _ _).mpr
            exact ⟨device, key, none, same ▸ mapped, contents ▸ header, rfl⟩
        | none =>
            rw [Machine.formatted_nothing, Machine.fill, contents, ← header,
              Function.update_eq_self, ← contents]
      unfold formatTarget
      rw [command]
      exact ⟨_, tried_exact (machine.fill device (.luks key (madeBy platform draw disk))) _ _ ran
        (taken (machine.attempt .mkfs _ true) rfl rfl)⟩

theorem format_target_ok {source : Source}
    (returned : ((formatTarget platform draw disk source).run plan machine).1 = .ok ()) :
    disk.mkfs ≠ [] ∧ Ran plan .mkfs := by
  unfold formatTarget at returned
  cases command : disk.mkfs with
  | nil => simp [command] at returned
  | cons program args =>
      rw [command] at returned
      exact ⟨List.cons_ne_nil _ _, ((tried_ok_iff ..).mp returned).1⟩

/-- How the provisioning of a disk succeeds. -/
structure ProvisionDone (boot : Boot) (disk : Disk) (luks : Luks) (plan : Plan DiskStep)
    (machine : Machine) : Prop where
  drawn : Ran plan .getRandom
  secured : plan .chmodKey = .done
  formatted : Ran plan .luksFormat
  free : machine.inUse disk.device = false
  opened : Ran plan .luksOpen
  control : machine.dmControl = true
  unnamed : machine.mapped.lookup luks.name = none
  stored : StoreDone boot plan machine luks.tpmNvIndex luks.pcrs
  commanded : disk.mkfs ≠ []
  made : Ran plan .mkfs

/-- The event of a disk's `luksFormat`, with the key that it used. -/
def formatEvent (disk : Disk) (key : Key) : Event :=
  .tried .luksFormat (luksFormatArgs disk.device) (some key) true

/-- What a successful provisioning leaves. -/
structure ProvisionLeaves (draw : Draw) (disk : Disk) (luks : Luks) (guard : Guard)
    (volume : Option Filesystem) (machine next : Machine) : Prop where
  contents : next.contents =
    Function.update machine.contents disk.device (.luks draw.key volume)
  nv : next.nv = Function.update machine.nv luks.tpmNvIndex (some ⟨guard, some draw.key⟩)
  control : next.dmControl = machine.dmControl
  mapped : next.mapped = machine.mapped ++ [(luks.name, disk.device)]
  mounts : next.mounts = machine.mounts
  logged : formatEvent disk draw.key ∈ next.log

/-- A provisioning up to the header. -/
theorem provision_heads (platform : Platform) (boot : Boot) (draw : Draw) (luks : Luks)
    (machine : Machine) (drawn : Ran plan .getRandom)
    (secured : plan .chmodKey = .done) (formatted : Ran plan .luksFormat)
    (free : machine.inUse disk.device = false) :
    ∃ log, formatEvent disk draw.key ∈ log ∧
      (provision platform boot draw disk luks).run plan machine =
        (fillVolume platform boot draw disk luks).run plan
          { machine.fill disk.device (.luks draw.key none) with
            keyFile := some draw.key, log := log } := by
  obtain ⟨log, drawing⟩ := tpm_getrandom_run draw machine drawn secured
  have heading := luks_format_run { machine with keyFile := some draw.key, log := log } rfl free
    formatted
  refine ⟨log ++ ranEvents .luksFormat (luksFormatArgs disk.device) (some draw.key), ?_, ?_⟩
  · simp [formatEvent, ranEvents]
  · rw [provision, run_bind, drawing]
    dsimp only
    rw [run_bind, heading]
    rfl

/-- The rest of a provisioning, up to the key. -/
theorem fill_volume_stores (platform : Platform) (draw : Draw) (machine : Machine)
    {inner : Option Filesystem} (header : machine.contents disk.device = .luks key inner)
    (file : machine.keyFile = some key)
    (control : machine.dmControl = true) (free : machine.inUse disk.device = false)
    (unnamed : machine.mapped.lookup luks.name = none) (opened : Ran plan .luksOpen)
    (stored : StoreDone boot plan machine luks.tpmNvIndex luks.pcrs)
    (guarded : guardOf boot luks.pcrs = some guard) :
    ∃ next, (fillVolume platform boot draw disk luks).run plan machine =
        (formatTarget platform draw disk (.mapper luks.name)).run plan next ∧
      next.nv = Function.update machine.nv luks.tpmNvIndex (some ⟨guard, some key⟩) ∧
      outside next = outside { machine with
        mapped := machine.mapped ++ [(luks.name, disk.device)] } := by
  have opening := luks_open_run machine header file control free unnamed opened
  obtain ⟨next, storing, nv, same⟩ := tpm_nv_store_run { machine with
      mapped := machine.mapped ++ [(luks.name, disk.device)]
      log := machine.log ++
        ranEvents .luksOpen (luksOpenArgs disk.device luks.name) machine.keyFile }
    ⟨stored.survived, stored.cleared, stored.known, stored.ran, stored.closed⟩ guarded file
  refine ⟨next, ?_, nv, same⟩
  rw [fillVolume, run_bind, opening]
  dsimp only
  rw [run_bind, storing]

theorem lookup_appended {name device : String} {mapped : List (String × String)}
    (unnamed : mapped.lookup name = none) :
    (mapped ++ [(name, device)]).lookup name = some device := by
  simp [List.lookup_append, unnamed]

theorem provision_run (platform : Platform) (draw : Draw)
    (done : ProvisionDone boot disk luks plan machine)
    (guarded : guardOf boot luks.pcrs = some guard) :
    ∃ next, (provision platform boot draw disk luks).run plan machine = (.ok (), next) ∧
      ProvisionLeaves draw disk luks guard (madeBy platform draw disk) machine next := by
  obtain ⟨log, logged, heading⟩ := provision_heads platform boot draw luks machine done.drawn
    done.secured done.formatted done.free
  let headed : Machine := { machine.fill disk.device (.luks draw.key none) with
    keyFile := some draw.key, log := log }
  have header : headed.contents disk.device = .luks draw.key none := Function.update_self ..
  have store := done.stored
  obtain ⟨filled, filling, nv, same⟩ := fill_volume_stores platform draw headed header rfl
    done.control done.free done.unnamed done.opened
    ⟨store.survived, store.cleared, store.known, store.ran, store.closed⟩ guarded
  simp only [outside, Prod.mk.injEq] at same
  obtain ⟨contents, control, mapped, mounts⟩ := same
  obtain ⟨finalLog, formatting⟩ := format_target_run platform draw luks filled done.commanded
    (mapped.symm ▸ lookup_appended done.unnamed) (contents.symm ▸ header) done.made
  have run := heading.trans (filling.trans formatting)
  refine ⟨_, run, ?_, nv, control, mapped, mounts, ?_⟩
  · rw [Machine.fill, contents]
    exact Function.update_idem ..
  · have kept := logged_of_starts (fill_volume_starts platform boot draw disk luks) plan headed
      logged
    rw [filling.trans formatting] at kept
    exact kept

theorem provision_ok
    (returned : ((provision platform boot draw disk luks).run plan machine).1 = .ok ()) :
    ProvisionDone boot disk luks plan machine := by
  obtain ⟨_, drawing, rest⟩ := (run_bind_ok_iff ..).mp returned
  obtain ⟨drawn, secured⟩ := (DiskWipe.tpm_getrandom_ok_iff _).mp drawing
  obtain ⟨log, draws⟩ := tpm_getrandom_run draw machine drawn secured
  rw [draws] at rest
  obtain ⟨_, formatting, rest⟩ := (run_bind_ok_iff ..).mp rest
  obtain ⟨formatted, free⟩ := luks_format_ok formatting
  rw [luks_format_run _ rfl free formatted] at rest
  obtain ⟨_, opening, rest⟩ := (run_bind_ok_iff ..).mp rest
  obtain ⟨opened, control, -, unnamed, key, inner, header, file⟩ := luks_open_ok opening
  rw [luks_open_run _ header file control free unnamed opened] at rest
  obtain ⟨_, storing, formatting⟩ := (run_bind_ok_iff ..).mp rest
  have stored := tpm_nv_store_ok storing
  obtain ⟨commanded, made⟩ := format_target_ok formatting
  exact ⟨drawn, secured, formatted, free, opened, control, unnamed,
    ⟨stored.survived, stored.cleared, stored.known, stored.ran, stored.closed⟩, commanded, made⟩

end Provisioning

section Opening

variable {machine : Machine}

theorem remove_key_keeps {Part : Type} {view : Machine → Part} (lasting : Lasting view) :
    Keeps view removeKey := by
  apply Keeps.ignore
  apply Keeps.act
  intro machine next taken
  obtain ⟨key, -, rfl⟩ := Option.map_eq_some_iff.mp taken
  exact lasting _ _ rfl rfl

/-- What lasts of an operation and the removal of the key file. -/
theorem then_remove_key_view {Part : Type} {view : Machine → Part} (lasting : Lasting view)
    (operation : Disks Unit) :
    view ((thenRemoveKey operation).run plan machine).2 = view (operation.run plan machine).2 := by
  unfold thenRemoveKey
  rw [Keeps.after fun _ => .bind (remove_key_keeps lasting) fun _ => .ofExcept _]
  rw [run_attempt_state]

theorem remove_key_ok_iff (value : Unit) :
    (removeKey.run plan machine).1 = .ok value ↔ ∀ extent, plan .removeKey ≠ .killed extent := by
  rw [removeKey, run_ignore, run_act]
  cases plan .removeKey with
  | done => cases machine.keyFile <;> simp
  | fails extent => simp
  | killed extent => simp

theorem then_remove_key_ok_iff (operation : Disks Unit) (value : Unit) :
    ((thenRemoveKey operation).run plan machine).1 = .ok value ↔
      (operation.run plan machine).1 = .ok value ∧ ∀ extent, plan .removeKey ≠ .killed extent := by
  rw [thenRemoveKey, run_attempt_cleanup_ok_iff, remove_key_ok_iff]

theorem lasting_nv : Lasting Machine.nv := fun _ _ _ same => same

theorem ProvisionLeaves.removed {volume : Option Filesystem} {next : Machine}
    (leaves : ProvisionLeaves draw disk luks guard volume machine next) (plan : Plan DiskStep) :
    ProvisionLeaves draw disk luks guard volume machine (removeKey.run plan next).2 := by
  have same : outside (removeKey.run plan next).2 = outside next :=
    remove_key_keeps lasting_outside plan next
  have nv : (removeKey.run plan next).2.nv = next.nv := remove_key_keeps lasting_nv plan next
  simp only [outside, Prod.mk.injEq] at same
  obtain ⟨contents, control, mapped, mounts⟩ := same
  exact ⟨contents.trans leaves.contents, nv.trans leaves.nv, control.trans leaves.control,
    mapped.trans leaves.mapped, mounts.trans leaves.mounts,
    logged_of_starts remove_key_starts plan next leaves.logged⟩

theorem ProvisionLeaves.volume_seen {volume : Option Filesystem} {next : Machine}
    (leaves : ProvisionLeaves draw disk luks guard volume machine next)
    (unnamed : machine.mapped.lookup luks.name = none) :
    next.volume (.mapper luks.name) = volume := by
  unfold Machine.volume
  rw [leaves.mapped]
  simp only [lookup_appended unnamed, Option.bind_some, leaves.contents, Function.update_self]

theorem open_blank_run (draw : Draw) (machine : Machine)
    (examined : Examined platform disk plan machine false)
    (wanted : disk.formatIfEmpty = true)
    (done : ProvisionDone boot disk luks plan { machine with dmControl := true })
    (guarded : guardOf boot luks.pcrs = some guard)
    (runs : ∀ extent, plan .removeKey ≠ .killed extent) :
    ∃ next, (openEncrypted platform boot draw disk luks).run plan machine =
        (.ok (.mapper luks.name), next) ∧
      ProvisionLeaves draw disk luks guard (madeBy platform draw disk)
        { machine with dmControl := true } next := by
  obtain ⟨events, looked, -⟩ := examine_run luks examined
  let ready : Machine := { machine with dmControl := true, log := machine.log ++ events }
  have store := done.stored
  have done' : ProvisionDone boot disk luks plan ready :=
    ⟨done.drawn, done.secured, done.formatted, done.free, done.opened, done.control, done.unnamed,
      ⟨store.survived, store.cleared, store.known, store.ran, store.closed⟩, done.commanded,
      done.made⟩
  obtain ⟨next, ran, leaves⟩ := provision_run platform draw done' guarded
  have removal : (thenRemoveKey (provision platform boot draw disk luks)).run plan ready =
      (.ok (), (removeKey.run plan next).2) := by
    rw [thenRemoveKey, run_attempt_cleanup, ran]
    · rw [ran]
      simp
    · exact (remove_key_ok_iff ()).mpr runs
  refine ⟨(removeKey.run plan next).2, ?_, ?_⟩
  · rw [openEncrypted, run_bind, looked]
    simp only [openVolume, wanted, if_true, Bool.false_eq_true, if_false]
    rw [run_bind, removal]
    rfl
  · have removed := leaves.removed plan
    exact ⟨removed.contents, removed.nv, removed.control, removed.mapped, removed.mounts,
      removed.logged⟩

theorem denied_of_blank {answer : Bool} (blank : machine.contents disk.device = .blank)
    (examined : Examined platform disk plan machine answer) : answer = false := by
  have answered := examined.answer
  rw [blank] at answered
  unfold Answers at answered
  cases fate : plan (.exit .isLuks) with
  | done => simpa [fate, Content.isLuks] using answered
  | fails extent => simpa [fate] using answered
  | killed extent => simp [fate] at answered

theorem open_blank_ok {source : Source} (blank : machine.contents disk.device = .blank)
    (returned : ((openEncrypted platform boot draw disk luks).run plan machine).1 = .ok source) :
    Examined platform disk plan machine false ∧ disk.formatIfEmpty = true ∧
      ProvisionDone boot disk luks plan { machine with dmControl := true } ∧
      ∀ extent, plan .removeKey ≠ .killed extent := by
  obtain ⟨answer, looking, rest⟩ := (run_bind_ok_iff ..).mp returned
  have examined := (examine_ok_iff answer).mp looking
  obtain rfl : answer = false := denied_of_blank blank examined
  obtain ⟨events, looked, -⟩ := examine_run luks examined
  rw [looked] at rest
  obtain ⟨_, opening, -⟩ := (run_bind_ok_iff ..).mp rest
  unfold openVolume at opening
  cases wanted : disk.formatIfEmpty with
  | false => simp [wanted] at opening
  | true =>
      simp only [wanted, if_true, Bool.false_eq_true, if_false] at opening
      obtain ⟨provisioned, runs⟩ := (then_remove_key_ok_iff _ _).mp opening
      have done := provision_ok provisioned
      have store := done.stored
      exact ⟨examined, rfl,
        ⟨done.drawn, done.secured, done.formatted, done.free, done.opened, done.control,
          done.unnamed, ⟨store.survived, store.cleared, store.known, store.ran, store.closed⟩,
          done.commanded, done.made⟩, runs⟩

end Opening

section Mounting

variable {machine : Machine} {source : Source} {flags : Nat} {made : Filesystem}

/-- A filesystem of this kind can be mounted as the configuration says. -/
structure Mounts (platform : Platform) (disk : Disk) (source : Source) (kind : String)
    (flags : Nat) : Prop where
  flagged : mountFlags disk.flags = .ok flags
  source : cString source.path = .ok ()
  target : cString disk.target = .ok ()
  fstype : cString disk.fstype = .ok ()
  mountable : platform.mountable disk.fstype kind = true

def mountedAs (disk : Disk) (source : Source) (flags : Nat) (made : Filesystem) : Mounted :=
  ⟨source, disk.target, disk.fstype, flags, made⟩

theorem mount_disk_ok (returned : ((mountDisk platform disk source).run plan machine).1 = .ok ()) :
    ∃ flags made, Mounts platform disk source made.format.kind flags ∧
      machine.volume source = some made ∧ plan .createTarget = .done ∧ plan .mount = .done := by
  obtain ⟨_, created, rest⟩ := (run_bind_ok_iff ..).mp returned
  obtain ⟨flags, flagging, mounting⟩ := (run_bind_ok_iff ..).mp rest
  rw [run_mapError_ok_iff] at mounting
  obtain ⟨_, path, rest⟩ := (run_bind_ok_iff ..).mp mounting
  obtain ⟨_, target, rest⟩ := (run_bind_ok_iff ..).mp rest
  obtain ⟨_, fstype, acted⟩ := (run_bind_ok_iff ..).mp rest
  simp only [run_check_ok_iff, run_ofExcept_ok_iff] at created flagging path target fstype
  obtain ⟨mounted, taken⟩ := (run_act_ok_iff ..).mp acted
  obtain ⟨next, taken⟩ := Option.isSome_iff_exists.mp taken
  obtain ⟨made, seen, allowed⟩ := Option.bind_eq_some_iff.mp taken
  simp only [Option.ite_none_right_eq_some] at allowed
  simp only [run_ofExcept_state, run_check_state] at seen
  exact ⟨flags, made, ⟨flagging, path, target, fstype, allowed.1⟩, seen, created, mounted⟩

/-- A visit to an encrypted disk whose volume has been opened. -/
theorem apply_encrypted_run {next : Machine} (encrypted : disk.encrypt = some luks)
    (opened : (openEncrypted platform boot draw disk luks).run plan machine = (.ok source, next))
    (mounts : Mounts platform disk source made.format.kind flags)
    (seen : next.volume source = some made) (created : plan .createTarget = .done)
    (mounted : plan .mount = .done) :
    (applyDisk platform boot draw disk).run plan machine =
      (.ok (), { next with mounts := next.mounts ++ [mountedAs disk source flags made] }) := by
  rw [applyDisk, openDisk, encrypted, run_bind, opened]
  exact mount_disk_run created mounted mounts.flagged mounts.source mounts.target mounts.fstype seen
    mounts.mountable

theorem apply_encrypted_ok (encrypted : disk.encrypt = some luks)
    (returned : ((applyDisk platform boot draw disk).run plan machine).1 = .ok ()) :
    ∃ source, ((openEncrypted platform boot draw disk luks).run plan machine).1 = .ok source ∧
      ((mountDisk platform disk source).run plan
        ((openEncrypted platform boot draw disk luks).run plan machine).2).1 = .ok () := by
  rw [applyDisk, openDisk, encrypted] at returned
  obtain ⟨source, opened, mounted⟩ := (run_bind_ok_iff ..).mp returned
  exact ⟨source, opened, mounted⟩

end Mounting

section Unlocking

variable {machine : Machine} {key : Key} {inner : Option Filesystem}

theorem volume_outside {other : Machine} (same : outside other = outside machine)
    (source : Source) : other.volume source = machine.volume source := by
  simp only [outside, Prod.mk.injEq] at same
  unfold Machine.volume
  rw [same.1, same.2.2.1]

/-- Under the mapper name there is what the header's volume holds. -/
theorem luks_open_volume {device name : String} (header : machine.contents device = .luks key inner)
    (returned : ((luksOpen device name).run plan machine).1 = .ok ()) :
    ((luksOpen device name).run plan machine).2.volume (.mapper name) = inner := by
  obtain ⟨ran, control, free, unnamed, other, _, found, file⟩ := luks_open_ok returned
  rw [luks_open_run machine found file control free unnamed ran]
  unfold Machine.volume
  simp only [lookup_appended unnamed, Option.bind_some, header]

theorem unlock_volume (header : machine.contents disk.device = .luks key inner)
    (returned : ((unlock boot disk luks).run plan machine).1 = .ok ()) :
    ((unlock boot disk luks).run plan machine).2.volume (.mapper luks.name) = inner := by
  obtain ⟨_, reading, opening⟩ := (run_bind_ok_iff ..).mp returned
  have same : outside ((tpmNvRead boot luks.tpmNvIndex luks.pcrs).run plan machine).2 =
      outside machine := lasting_outside.tpm_nv_read luks.pcrs plan machine
  have contents : ((tpmNvRead boot luks.tpmNvIndex luks.pcrs).run plan machine).2.contents =
      machine.contents := congrArg Prod.fst same
  have opened := ((then_remove_key_ok_iff _ _).mp opening).1
  rw [unlock, run_bind_of_ok _ _ reading]
  rw [volume_outside (then_remove_key_view lasting_outside _)]
  exact luks_open_volume (contents.symm ▸ header) opened

/-- The key that opens the volume is the one that was read from the index. -/
def ReadThenOpened (disk : Disk) (luks : Luks) (key : Key) (events : List Event) : Prop :=
  ∃ before file between after, events =
      before ++ .tried .nvRead (nvReadArgs luks.tpmNvIndex luks.pcrs) file true :: between ++
        .tried .luksOpen (luksOpenArgs disk.device luks.name) (some key) true :: after ∧
    ∀ event ∈ between, Aside event

theorem ReadThenOpened.inside {events : List Event} (read : ReadThenOpened disk luks key events)
    (front back : List Event) : ReadThenOpened disk luks key (front ++ events ++ back) := by
  obtain ⟨before, file, between, after, rfl, aside⟩ := read
  refine ⟨front ++ before, file, between, after ++ back, ?_, aside⟩
  simp only [List.append_assoc, List.cons_append]

/-- What a call leaves that has unlocked a volume. -/
structure UnlockLeaves (disk : Disk) (luks : Luks) (key : Key) (tools : List Tool)
    (machine next : Machine) : Prop where
  contents : next.contents = machine.contents
  nv : next.nv = machine.nv
  control : next.dmControl = machine.dmControl
  file : next.keyFile = none
  mapped : next.mapped = machine.mapped ++ [(luks.name, disk.device)]
  mounts : next.mounts = machine.mounts
  grown : ∃ events, next.log = machine.log ++ events ∧ (∀ event ∈ events, event.tool ∈ tools) ∧
    ReadThenOpened disk luks key events

theorem unlock_run (machine : Machine) (guarded : guardOf boot luks.pcrs = some guard)
    (stored : machine.nv luks.tpmNvIndex = some ⟨guard, some key⟩)
    (header : machine.contents disk.device = .luks key inner) (control : machine.dmControl = true)
    (free : machine.inUse disk.device = false)
    (unnamed : machine.mapped.lookup luks.name = none) :
    ∃ next, (unlock boot disk luks).run Plan.allDone machine = (.ok (), next) ∧
      UnlockLeaves disk luks key unlockTools machine next := by
  obtain ⟨session, front, back, reading, aside⟩ := read_key_run machine guarded stored
  let read : Machine := { machine with
    session := session, keyFile := some key,
    log := machine.log ++ front ++
      .tried .nvRead (nvReadArgs luks.tpmNvIndex luks.pcrs) machine.keyFile true :: back }
  have ran : Ran Plan.allDone .luksOpen := ⟨rfl, rfl⟩
  have opening := luks_open_run read header rfl control free unnamed ran
  let opened : Machine := { read with
    mapped := machine.mapped ++ [(luks.name, disk.device)]
    log := read.log ++ ranEvents .luksOpen (luksOpenArgs disk.device luks.name) (some key) }
  have run : (unlock boot disk luks).run Plan.allDone machine =
      (.ok (), { opened with keyFile := none }) := by
    rw [unlock, tpmNvRead, run_bind, run_bind, reading]
    dsimp only [setPrivatePerms, run_check, Plan.allDone]
    rw [thenRemoveKey, run_attempt_cleanup, opening]
    · rfl
    · rw [opening]
      simp
    · rw [opening]
      rfl
  obtain ⟨events, grown, known⟩ := grows_of_starts (unlock_starts boot disk luks) Plan.allDone
    machine
  rw [run] at grown
  refine ⟨_, run, rfl, rfl, rfl, rfl, rfl, rfl, events, grown, known, ?_⟩
  refine ⟨front, machine.keyFile, back, [.succeeded .luksOpen], ?_, aside⟩
  have logs : machine.log ++ events = machine.log ++ (front ++
      .tried .nvRead (nvReadArgs luks.tpmNvIndex luks.pcrs) machine.keyFile true :: back ++
        .tried .luksOpen (luksOpenArgs disk.device luks.name) (some key) true ::
          [.succeeded .luksOpen]) := by
    rw [← grown]
    simp [opened, read, ranEvents]
  exact List.append_cancel_left logs

end Unlocking

section Visits

variable {machine : Machine} {key : Key} {inner : Option Filesystem}

/-- Where a boot goes through, the device mapper gets its control node. -/
def ControlPossible (platform : Platform) (machine : Machine) : Prop :=
  machine.dmControl = true ∨ dmMinor platform.misc ≠ none

theorem control_possible_of_ready (ready : ControlReady platform plan machine) :
    ControlPossible platform machine := by
  unfold ControlReady at ready
  cases fate : plan .statControl with
  | done =>
      rw [fate] at ready
      exact ready.imp id fun makes => makes.2.1
  | fails extent =>
      rw [fate] at ready
      exact Or.inr ready.2.1
  | killed extent =>
      rw [fate] at ready
      exact ready.elim

theorem examined_clean (disk : Disk) (machine : Machine)
    (possible : ControlPossible platform machine) :
    Examined platform disk Plan.allDone machine (machine.contents disk.device).isLuks := by
  refine ⟨?_, ⟨?_, ?_⟩, rfl, rfl⟩
  · cases control : machine.dmControl with
    | true => exact Or.inl control
    | false =>
        have known : dmMinor platform.misc ≠ none := by
          simpa [ControlPossible, control] using possible
        exact Or.inr ⟨rfl, known, rfl, rfl, control⟩
  · simp [Plan.allDone]
  · simp [Plan.allDone]

/-- A boot in which nothing fails unlocks a volume whose key is in the index. -/
theorem open_luks_run (draw : Draw) (machine : Machine)
    (possible : ControlPossible platform machine) (guarded : guardOf boot luks.pcrs = some guard)
    (stored : machine.nv luks.tpmNvIndex = some ⟨guard, some key⟩)
    (header : machine.contents disk.device = .luks key inner)
    (free : machine.inUse disk.device = false)
    (unnamed : machine.mapped.lookup luks.name = none) :
    ∃ next, (openEncrypted platform boot draw disk luks).run Plan.allDone machine =
        (.ok (.mapper luks.name), next) ∧
      UnlockLeaves disk luks key (examineTools ++ unlockTools)
        { machine with dmControl := true } next := by
  have examined : Examined platform disk Plan.allDone machine true := by
    have examined := examined_clean disk machine possible
    rwa [header] at examined
  obtain ⟨looked, look, knownLook⟩ := examine_run luks examined
  obtain ⟨next, run, leaves⟩ := unlock_run
    { machine with dmControl := true, log := machine.log ++ looked } guarded stored header rfl free
    unnamed
  obtain ⟨events, grown, known, read⟩ := leaves.grown
  refine ⟨next, ?_, leaves.contents, leaves.nv, leaves.control, leaves.file, leaves.mapped,
    leaves.mounts, looked ++ events ++ [], ?_, ?_, read.inside looked []⟩
  · rw [openEncrypted, run_bind, look]
    dsimp only [openVolume, if_true]
    rw [run_bind]
    simp only [if_true, run]
    rfl
  · rw [grown, List.append_nil]
    exact List.append_assoc ..
  · rw [List.append_nil]
    intro event listed
    rcases List.mem_append.mp listed with early | late
    · exact List.mem_append_left _ (knownLook event early)
    · exact List.mem_append_right _ (known event late)

theorem UnlockLeaves.volume_seen {tools : List Tool} {next : Machine}
    (leaves : UnlockLeaves disk luks key tools machine next)
    (header : machine.contents disk.device = .luks key inner)
    (unnamed : machine.mapped.lookup luks.name = none) :
    next.volume (.mapper luks.name) = inner := by
  unfold Machine.volume
  rw [leaves.mapped]
  simp only [lookup_appended unnamed, Option.bind_some, leaves.contents, header]

/-- A visit that succeeds on a blank device. -/
theorem apply_blank_ok (encrypted : disk.encrypt = some luks)
    (blank : machine.contents disk.device = .blank)
    (returned : ((applyDisk platform boot draw disk).run plan machine).1 = .ok ()) :
    ControlPossible platform machine ∧ machine.mapped.lookup luks.name = none ∧
      ∃ guard made flags next, guardOf boot luks.pcrs = some guard ∧
        madeBy platform draw disk = some made ∧
        Mounts platform disk (.mapper luks.name) made.format.kind flags ∧
        ProvisionLeaves draw disk luks guard (some made) { machine with dmControl := true } next ∧
        ((applyDisk platform boot draw disk).run plan machine) = (.ok (), { next with
          mounts := next.mounts ++ [mountedAs disk (.mapper luks.name) flags made] }) := by
  obtain ⟨source, opened, mounting⟩ := apply_encrypted_ok encrypted returned
  obtain ⟨examined, wanted, done, runs⟩ := open_blank_ok blank opened
  obtain ⟨guard, guarded⟩ := Option.ne_none_iff_exists'.mp done.stored.known
  obtain ⟨next, run, leaves⟩ := open_blank_run draw machine examined wanted done guarded runs
  rw [run] at opened mounting
  cases opened
  obtain ⟨flags, made, mounts, seen, created, mounted⟩ := mount_disk_ok mounting
  have volume : madeBy platform draw disk = some made :=
    (leaves.volume_seen done.unnamed).symm.trans seen
  refine ⟨control_possible_of_ready examined.control, done.unnamed, guard, made, flags, next,
    guarded, volume, mounts, volume ▸ leaves, ?_⟩
  exact apply_encrypted_run encrypted run mounts seen created mounted

end Visits

section Durable

variable {machine : Machine}

/-- What outlives a boot. -/
def durable (machine : Machine) : (String → Content) × (String → Option NvIndex) :=
  (machine.contents, machine.nv)

theorem durable_lasting : Lasting durable := by
  intro machine other same nv
  have contents : other.contents = machine.contents := congrArg Prod.fst same
  exact Prod.ext contents nv

theorem durable_blind : Blind durable := ⟨fun _ _ => rfl, fun _ => rfl⟩

theorem luks_open_keeps (device name : String) : Keeps durable (luksOpen device name) := by
  apply tool_keeps _ _ _ fun _ _ => rfl
  intro machine next taken
  obtain ⟨_, _, -, -, -, -, -, rfl⟩ := (Machine.luks_opened_eq_some_iff _ _).mp taken
  rfl

/-- What a visit leaves is what opening the volume left. -/
theorem apply_disk_durable (encrypted : disk.encrypt = some luks) :
    durable ((applyDisk platform boot draw disk).run plan machine).2 =
      durable ((openEncrypted platform boot draw disk luks).run plan machine).2 := by
  rw [applyDisk, openDisk, encrypted]
  exact Keeps.after (fun source => mount_disk_keeps (fun _ _ => rfl) platform disk source) _ _ _

end Durable

end NodeOs.Initd.DiskVisits
