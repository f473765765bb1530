import NodeOs.Initd.DiskFrames

/-!
# Plain disks are formatted once

`is_formatted` knows the superblock of ext2, ext3 and ext4 only. A volume that
its `mkfs` command formats otherwise counts as blank at every boot.
-/

namespace NodeOs.Initd.PlainDisks

open NodeOs.Library.FaultPlan NodeOs.Library.FaultPlan.Proc
open NodeOs.Initd.DiskTools NodeOs.Initd.Disks NodeOs.Initd.DiskCalls NodeOs.Initd.DiskFrames

/-- Another disk of the list concerns other devices and other paths. -/
structure Apart (disk other : Disk) : Prop where
  device : other.device ≠ disk.device
  mapper : ∀ luks, other.encrypt = some luks → (Source.mapper luks.name).path ≠ disk.device

/-- The device can be opened and read through to its superblock. -/
def Readable (plan : Plan DiskStep) : Prop :=
  plan .findDevice = .done ∧ plan .openDevice = .done ∧ plan .seekDevice = .done ∧
    plan .readSuperblock = .done ∧ plan .endOfDevice = .done

def ReadableAt (disks : List Disk) (disk : Disk) (boot : Boot) : Prop :=
  ∀ index, disks[index]? = some disk → Readable (boot.plan.at fun label => (index, label))

/-- The configuration of the disk can be mounted at all. -/
def Mountable (disk : Disk) : Prop :=
  (∃ flags, mountFlags disk.flags = .ok flags) ∧ cString disk.device = .ok () ∧
    cString disk.target = .ok () ∧ cString disk.fstype = .ok ()

/-- What `is_formatted` looks for. -/
def carriesMagic : Content → Bool
  | .filesystem made => made.format.extMagic
  | _ => false

/-- No mapping of the device mapper covers the device. -/
def Unmapped (device : String) (machine : Machine) : Prop :=
  ∀ entry ∈ machine.mapped, entry.2 ≠ device

/-- Where the device is mounted, `is_formatted` knows its filesystem. -/
structure Settles (device : String) (machine : Machine) : Prop where
  unmapped : Unmapped device machine
  known : ∀ mounted ∈ machine.mounts, mounted.source = .device device →
    machine.contents device = .filesystem mounted.made ∧ mounted.made.format.extMagic = true

/-- The device holds this filesystem, and no `mkfs` has been run on it in this boot. -/
structure Untouched (device : String) (made : Filesystem) (machine : Machine) : Prop where
  unmapped : Unmapped device machine
  holds : machine.contents device = .filesystem made
  unformatted : ∀ event ∈ machine.log, formatsAt device event = false

section Frames

variable {device : String} {machine : Machine}

theorem mem_of_lookup {name device : String} {mapped : List (String × String)}
    (found : mapped.lookup name = some device) : (name, device) ∈ mapped := by
  obtain ⟨before, after, rfl, -⟩ := List.lookup_eq_some_iff.mp found
  exact List.mem_append_right _ List.mem_cons_self

theorem fill_other {other : String} (apart : other ≠ device) (content : Content) :
    (machine.fill other content).contents device = machine.contents device :=
  Function.update_of_ne apart.symm _ _

theorem unmapped_opened {name other : String} (unmapped : Unmapped device machine)
    (apart : other ≠ device) :
    Unmapped device { machine with mapped := machine.mapped ++ [(name, other)] } := by
  intro entry listed
  rcases List.mem_append.mp listed with earlier | last
  · exact unmapped entry earlier
  · rw [List.mem_singleton.mp last]
    exact apart

theorem formats_other {event : Event} {path : String} (apart : path ≠ device)
    (only : ∀ other, formatsAt other event = true → other = path) :
    formatsAt device event = false := by
  cases formats : formatsAt device event with
  | false => rfl
  | true => exact absurd (only device formats).symm apart

theorem settles_endures {disk : Disk} {luks : Luks} (apart : disk.device ≠ device) :
    Endures (Settles device) disk luks where
  noted := fun _ _ _ holds => ⟨holds.unmapped, holds.known⟩
  passing := by
    intro machine other ⟨contents, _, mapped, mounts, _⟩ holds
    refine ⟨?_, ?_⟩
    · rw [Unmapped, mapped]
      exact holds.unmapped
    · rw [mounts, contents]
      exact holds.known
  headed := by
    intro machine key holds
    refine ⟨holds.unmapped, ?_⟩
    rw [fill_other apart]
    exact holds.known
  opened := fun _ holds => ⟨unmapped_opened holds.unmapped apart, holds.known⟩
  filled := by
    intro machine other key made found holds
    refine ⟨holds.unmapped, ?_⟩
    rw [fill_other (holds.unmapped _ (mem_of_lookup found))]
    exact holds.known
  stored := fun _ _ holds => ⟨holds.unmapped, holds.known⟩

theorem untouched_endures {disk : Disk} {luks : Luks} {made : Filesystem}
    (apart : disk.device ≠ device) (path : (Source.mapper luks.name).path ≠ device) :
    Endures (Untouched device made) disk luks where
  noted := by
    intro machine event only holds
    refine ⟨holds.unmapped, holds.holds, ?_⟩
    intro other listed
    rcases List.mem_append.mp listed with earlier | last
    · exact holds.unformatted other earlier
    · rw [List.mem_singleton.mp last]
      exact formats_other path only
  passing := by
    intro machine other ⟨contents, _, mapped, _, log⟩ holds
    refine ⟨?_, ?_, ?_⟩
    · rw [Unmapped, mapped]
      exact holds.unmapped
    · rw [contents]
      exact holds.holds
    · rw [log]
      exact holds.unformatted
  headed := by
    intro machine key holds
    exact ⟨holds.unmapped, (fill_other apart _).trans holds.holds, holds.unformatted⟩
  opened := fun _ holds =>
    ⟨unmapped_opened holds.unmapped apart, holds.holds, holds.unformatted⟩
  filled := by
    intro machine other key made found holds
    have elsewhere := holds.unmapped _ (mem_of_lookup found)
    exact ⟨holds.unmapped, (fill_other elsewhere _).trans holds.holds, holds.unformatted⟩
  stored := fun _ _ holds => ⟨holds.unmapped, holds.holds, holds.unformatted⟩

theorem settles_endures_plain {other : String} (apart : other ≠ device) :
    EnduresPlain (Settles device) other where
  noted := fun _ _ _ holds => ⟨holds.unmapped, holds.known⟩
  filled := by
    intro machine made holds
    refine ⟨holds.unmapped, ?_⟩
    rw [fill_other apart]
    exact holds.known

theorem untouched_endures_plain {other : String} {made : Filesystem} (apart : other ≠ device) :
    EnduresPlain (Untouched device made) other where
  noted := by
    intro machine event only holds
    refine ⟨holds.unmapped, holds.holds, ?_⟩
    intro event listed
    rcases List.mem_append.mp listed with earlier | last
    · exact holds.unformatted event earlier
    · rw [List.mem_singleton.mp last]
      exact formats_other apart only
  filled := by
    intro machine other holds
    exact ⟨holds.unmapped, (fill_other apart _).trans holds.holds, holds.unformatted⟩

end Frames

section Calls

variable {platform : Platform} {boot : Boot} {draw : Draw} {disk : Disk} {plan : Plan DiskStep}
  {machine : Machine}

theorem is_formatted_run (readable : Readable plan) :
    (isFormatted disk.device).run plan machine =
      (.ok (carriesMagic (machine.contents disk.device)), machine) := by
  obtain ⟨found, opened, sought, read, ended⟩ := readable
  simp only [isFormatted, readMagic, run_bind, run_attempt, run_check, found, opened, sought, read,
    ended, run_observe, Prod.mk.injEq, and_true, Outcome.ok.injEq]
  cases machine.contents disk.device <;> rfl

theorem known_magic (holds : Settles disk.device machine)
    (mounted : ∃ mounted ∈ machine.mounts, mounted.source = .device disk.device) :
    carriesMagic (machine.contents disk.device) = true := by
  obtain ⟨record, listed, source⟩ := mounted
  obtain ⟨contents, magic⟩ := holds.known record listed source
  rw [contents]
  exact magic

/-- While the device is not mounted, a `mkfs` on it unsettles nothing. -/
theorem format_disk_settles (holds : Settles disk.device machine)
    (blank : carriesMagic (machine.contents disk.device) = false) :
    Settles disk.device ((formatDisk platform draw disk).run plan machine).2 := by
  let unmounted : Machine → Prop := fun machine => Unmapped disk.device machine ∧
    ∀ mounted ∈ machine.mounts, mounted.source ≠ .device disk.device
  have endures : EnduresPlain unmounted disk.device :=
    ⟨fun _ _ _ holds => holds, fun _ _ holds => holds⟩
  have before : unmounted machine := by
    refine ⟨holds.unmapped, ?_⟩
    intro record listed source
    rw [known_magic holds ⟨record, listed, source⟩] at blank
    cases blank
  obtain ⟨unmapped, none⟩ := endures.format_disk plan machine before
  exact ⟨unmapped, fun record listed source => absurd source (none record listed)⟩

theorem format_if_blank_settles (readable : Readable plan) (holds : Settles disk.device machine) :
    Settles disk.device ((formatIfBlank platform draw disk).run plan machine).2 := by
  unfold formatIfBlank
  cases disk.formatIfEmpty with
  | false => exact holds
  | true =>
      rw [if_pos rfl, run_bind, is_formatted_run readable]
      cases magic : carriesMagic (machine.contents disk.device) with
      | true => exact holds
      | false => exact format_disk_settles holds magic

/-- What a `mkfs` that has succeeded leaves. -/
theorem format_disk_ok {format : Format} (makes : platform.makes disk.mkfs = some format)
    (returned : ((formatDisk platform draw disk).run plan machine).1 = .ok ()) :
    ((formatDisk platform draw disk).run plan machine).2.contents disk.device =
      .filesystem ⟨format, draw.serial⟩ := by
  have made : madeBy platform draw disk = some ⟨format, draw.serial⟩ := by
    rw [madeBy, makes]
    rfl
  unfold formatDisk at returned ⊢
  cases command : disk.mkfs with
  | nil =>
      rw [command] at returned
      cases returned
  | cons program args =>
      rw [command] at returned
      simp only [runMkfs] at returned ⊢
      obtain ⟨_, spawned, exited⟩ := (run_bind_ok_iff _ _ _ _ _).mp returned
      rw [run_bind_of_ok _ _ spawned]
      obtain ⟨next, taken, ended⟩ := wait_ok exited
      rw [ended]
      rw [made] at taken
      obtain ⟨-, rfl⟩ := (Machine.formatted_device_eq_some_iff _ _).mp taken
      exact Function.update_self _ _ _

/-- After a call that has succeeded the filesystem is one that `is_formatted` knows. -/
theorem format_if_blank_ok {format : Format} (readable : Readable plan)
    (wanted : disk.formatIfEmpty = true) (makes : platform.makes disk.mkfs = some format)
    (ext : format.extMagic = true)
    (returned : ((formatIfBlank platform draw disk).run plan machine).1 = .ok ()) :
    carriesMagic (((formatIfBlank platform draw disk).run plan machine).2.contents disk.device) =
      true := by
  unfold formatIfBlank at returned ⊢
  rw [wanted, if_pos rfl] at returned ⊢
  rw [run_bind, is_formatted_run readable] at returned ⊢
  cases magic : carriesMagic (machine.contents disk.device) with
  | true => exact magic
  | false =>
      rw [magic] at returned
      refine (congrArg carriesMagic (format_disk_ok makes returned)).trans ?_
      exact ext

theorem mount_disk_settles {source : Source} (holds : Settles disk.device machine)
    (other : source ≠ .device disk.device ∨ carriesMagic (machine.contents disk.device) = true)
    (on : Disk) :
    Settles disk.device ((mountDisk platform on source).run plan machine).2 := by
  let kept : Machine → Prop := fun machine => Settles disk.device machine ∧
    (source ≠ .device disk.device ∨ carriesMagic (machine.contents disk.device) = true)
  have kept' : Preserves kept (mountDisk platform on source) := by
    apply mount_disk_preserves
    intro machine mounted same seen ⟨settled, known⟩
    refine ⟨⟨settled.unmapped, ?_⟩, known⟩
    intro record listed at'
    rcases List.mem_append.mp listed with earlier | last
    · exact settled.known record earlier at'
    · rw [List.mem_singleton.mp last] at at' ⊢
      have here : source = .device disk.device := same.symm.trans at'
      have magic := known.resolve_left (not_not_intro here)
      rw [here] at seen
      unfold Machine.volume at seen
      cases contents : machine.contents disk.device with
      | blank => simp [contents] at seen
      | luks key inner => simp [contents] at seen
      | filesystem made =>
          rw [contents] at magic
          simp only [contents, Option.some.injEq] at seen
          rw [← seen]
          exact ⟨rfl, magic⟩
  exact (kept' plan machine ⟨holds, other⟩).1

/-- A configuration that cannot be mounted leaves the machine as it is. -/
theorem mount_disk_unmountable (unmountable : ¬Mountable disk) :
    ((mountDisk platform disk (.device disk.device)).run plan machine).2 = machine := by
  rw [mountDisk, run_bind, run_check]
  cases plan .createTarget with
  | fails extent => rfl
  | killed extent => rfl
  | done =>
      cases flagged : mountFlags disk.flags with
      | error error => rfl
      | ok flags =>
          refine (run_mapError_state ..).trans ?_
          cases source : cString disk.device with
          | error error => simp [mountFs, run_bind, Source.path, source]
          | ok value =>
              cases target : cString disk.target with
              | error error => simp [mountFs, run_bind, Source.path, source, target]
              | ok value =>
                  cases fstype : cString disk.fstype with
                  | error error => simp [mountFs, run_bind, Source.path, source, target, fstype]
                  | ok value => exact absurd ⟨⟨flags, flagged⟩, source, target, fstype⟩ unmountable

theorem apply_plain_disk_run (plain : disk.encrypt = none) :
    (applyDisk platform boot draw disk).run plan machine =
      (formatIfBlank platform draw disk >>= fun _ =>
        mountDisk platform disk (.device disk.device)).run plan machine := by
  rw [applyDisk, openDisk, plain, openPlain]
  exact run_bind_assoc _ _ _ _ _

/-- A visit that succeeds has mounted the device. -/
theorem apply_disk_ok_mounted (plain : disk.encrypt = none)
    (returned : ((applyDisk platform boot draw disk).run plan machine).1 = .ok ()) :
    ∃ mounted ∈ ((applyDisk platform boot draw disk).run plan machine).2.mounts,
      mounted.source = .device disk.device := by
  rw [apply_plain_disk_run plain] at returned ⊢
  obtain ⟨_, opened, mounting⟩ := (run_bind_ok_iff _ _ _ _ _).mp returned
  rw [run_bind_of_ok _ _ opened]
  rw [mountDisk] at mounting ⊢
  obtain ⟨_, created, flagging⟩ := (run_bind_ok_iff _ _ _ _ _).mp mounting
  rw [run_bind_of_ok _ _ created]
  obtain ⟨flags, flagged, mapped⟩ := (run_bind_ok_iff _ _ _ _ _).mp flagging
  rw [run_bind_of_ok _ _ flagged, run_mapError_state]
  rw [run_mapError_ok_iff, mountFs] at mapped
  rw [mountFs]
  obtain ⟨_, path, next⟩ := (run_bind_ok_iff _ _ _ _ _).mp mapped
  rw [run_bind_of_ok _ _ path]
  obtain ⟨_, target, next⟩ := (run_bind_ok_iff _ _ _ _ _).mp next
  rw [run_bind_of_ok _ _ target]
  obtain ⟨_, fstype, mounted⟩ := (run_bind_ok_iff _ _ _ _ _).mp next
  rw [run_bind_of_ok _ _ fstype, run_act]
  obtain ⟨done, taken⟩ := (run_act_ok_iff ..).mp mounted
  obtain ⟨after, took⟩ := Option.isSome_iff_exists.mp taken
  rw [done, took]
  obtain ⟨made, -, allowed⟩ := Option.bind_eq_some_iff.mp took
  simp only [Option.ite_none_right_eq_some, Option.some.injEq] at allowed
  rw [← allowed.2]
  exact ⟨_, List.mem_append_right _ (List.mem_singleton_self _), rfl⟩

/-- A visit to the disk itself. -/
theorem apply_disk_settles {format : Format} (plain : disk.encrypt = none)
    (wanted : disk.formatIfEmpty = true) (makes : platform.makes disk.mkfs = some format)
    (known : format.extMagic = true ∨ ¬Mountable disk) (readable : Readable plan)
    (holds : Settles disk.device machine) :
    Settles disk.device ((applyDisk platform boot draw disk).run plan machine).2 := by
  have opened : Settles disk.device ((formatIfBlank platform draw disk).run plan machine).2 :=
    format_if_blank_settles readable holds
  rw [apply_plain_disk_run plain, run_bind]
  cases ran : (formatIfBlank platform draw disk).run plan machine with
  | mk outcome after =>
      rw [ran] at opened
      cases outcome with
      | err error => exact opened
      | killed => exact opened
      | ok value =>
          rcases known with ext | unmountable
          · have magic := format_if_blank_ok readable wanted makes ext (congrArg Prod.fst ran)
            rw [ran] at magic
            exact mount_disk_settles opened (Or.inr magic) disk
          · rw [mount_disk_unmountable unmountable]
            exact opened

/-- A visit to another disk. -/
theorem apply_other_settles {other : Disk} (apart : Apart disk other)
    (holds : Settles disk.device machine) :
    Settles disk.device ((applyDisk platform boot draw other).run plan machine).2 := by
  rw [applyDisk, run_bind]
  have opened : Settles disk.device ((openDisk platform boot draw other).run plan machine).2 := by
    unfold openDisk
    cases other.encrypt with
    | none => exact (settles_endures_plain apart.device).open_plain plan machine holds
    | some luks => exact (settles_endures apart.device).open_encrypted plan machine holds
  have elsewhere (source : Source)
      (returned : ((openDisk platform boot draw other).run plan machine).1 = .ok source) :
      source ≠ .device disk.device := by
    unfold openDisk at returned
    cases encrypted : other.encrypt with
    | none =>
        rw [encrypted] at returned
        obtain ⟨_, -, same⟩ := (run_bind_ok_iff _ _ _ _ _).mp returned
        simp only [run_pure, Outcome.ok.injEq] at same
        rw [← same]
        exact fun equal => apart.device (Source.device.inj equal)
    | some luks =>
        rw [encrypted] at returned
        obtain ⟨_, -, later⟩ := (run_bind_ok_iff _ _ _ _ _).mp returned
        obtain ⟨_, -, same⟩ := (run_bind_ok_iff _ _ _ _ _).mp later
        simp only [run_pure, Outcome.ok.injEq] at same
        rw [← same]
        exact nofun
  cases ran : (openDisk platform boot draw other).run plan machine with
  | mk outcome after =>
      rw [ran] at opened elsewhere
      cases outcome with
      | err error => exact opened
      | killed => exact opened
      | ok source => exact mount_disk_settles opened (Or.inl (elsewhere source rfl)) other

theorem mount_disk_untouched {made : Filesystem} (on : Disk) (source : Source) :
    Preserves (Untouched disk.device made) (mountDisk platform on source) := by
  apply mount_disk_preserves
  intro machine mounted _ _ holds
  exact ⟨holds.unmapped, holds.holds, holds.unformatted⟩

theorem apply_disk_untouched {made : Filesystem} (plain : disk.encrypt = none)
    (ext : made.format.extMagic = true) (readable : Readable plan)
    (holds : Untouched disk.device made machine) :
    Untouched disk.device made ((applyDisk platform boot draw disk).run plan machine).2 := by
  have magic : carriesMagic (machine.contents disk.device) = true := by
    rw [holds.holds]
    exact ext
  have opened : (formatIfBlank platform draw disk).run plan machine = (.ok (), machine) := by
    unfold formatIfBlank
    cases disk.formatIfEmpty with
    | false => rfl
    | true =>
        rw [if_pos rfl, run_bind, is_formatted_run readable, magic]
        rfl
  rw [apply_plain_disk_run plain, run_bind, opened]
  exact mount_disk_untouched disk _ plan machine holds

theorem apply_other_untouched {other : Disk} {made : Filesystem} (apart : Apart disk other) :
    Preserves (Untouched disk.device made) (applyDisk platform boot draw other) := by
  refine .bind ?_ fun source => mount_disk_untouched other source
  unfold openDisk
  cases encrypted : other.encrypt with
  | none => exact (untouched_endures_plain apart.device).open_plain
  | some luks =>
      exact (untouched_endures apart.device (apart.mapper luks encrypted)).open_encrypted

end Calls

section Boots

variable {platform : Platform} {disks : List Disk} {disk : Disk} {boot : Boot} {machine : Machine}

theorem boot_disks_state (platform : Platform) (disks : List Disk) (boot : Boot)
    (machine : Machine) :
    (bootDisks platform disks boot machine).2 =
      ((each (visit platform boot) 0 disks).run boot.plan (powerOn platform machine)).2 :=
  run_bind_pure_state _ _ _ _

/-- Every disk of the list is this one or concerns other devices. -/
def Others (disk : Disk) (disks : List Disk) : Prop :=
  ∀ other ∈ disks, other = disk ∨ Apart disk other

theorem boot_settles {format : Format} (others : Others disk disks) (plain : disk.encrypt = none)
    (wanted : disk.formatIfEmpty = true) (makes : platform.makes disk.mkfs = some format)
    (known : format.extMagic = true ∨ ¬Mountable disk) (readable : ReadableAt disks disk boot) :
    Settles disk.device (bootDisks platform disks boot machine).2 := by
  rw [boot_disks_state]
  apply each_preserves
  · intro index item listed state holds
    rw [Nat.zero_add, visit, run_relabel]
    rcases others item (List.mem_of_getElem? listed) with rfl | apart
    · exact apply_disk_settles plain wanted makes known (readable index listed) holds
    · exact apply_other_settles apart holds
  · exact ⟨nofun, nofun⟩

theorem boot_untouched {made : Filesystem} (others : Others disk disks)
    (plain : disk.encrypt = none) (ext : made.format.extMagic = true)
    (readable : ReadableAt disks disk boot)
    (holds : machine.contents disk.device = .filesystem made) :
    Untouched disk.device made (bootDisks platform disks boot machine).2 := by
  rw [boot_disks_state]
  apply each_preserves
  · intro index item listed state holds
    rw [Nat.zero_add, visit, run_relabel]
    rcases others item (List.mem_of_getElem? listed) with rfl | apart
    · exact apply_disk_untouched plain ext (readable index listed) holds
    · exact apply_other_untouched apart _ _ holds
  · exact ⟨nofun, holds, nofun⟩

/-- The machine after these boots. -/
def afterBoots (platform : Platform) (disks : List Disk) (boots : List Boot) (machine : Machine) :
    Machine :=
  boots.foldl (fun machine boot => (bootDisks platform disks boot machine).2) machine

theorem after_boots_hold {made : Filesystem} {boots : List Boot} (others : Others disk disks)
    (plain : disk.encrypt = none) (ext : made.format.extMagic = true)
    (readable : ∀ boot ∈ boots, ReadableAt disks disk boot)
    (holds : machine.contents disk.device = .filesystem made) :
    (afterBoots platform disks boots machine).contents disk.device = .filesystem made := by
  induction boots generalizing machine with
  | nil => exact holds
  | cons boot later ih =>
      apply ih
      · exact fun other listed => readable other (List.mem_cons_of_mem _ listed)
      · exact (boot_untouched others plain ext (readable boot List.mem_cons_self) holds).holds

/-- Once the disk has been mounted, which is the end of a visit that succeeds, no
later boot formats it, and the filesystem that was mounted is still there. -/
def FormattedOnce (platform : Platform) (disk : Disk) : Prop :=
  ∀ disks machine first between last mounted, disk ∈ disks → Others disk disks →
    (∀ boot ∈ first :: last :: between, ReadableAt disks disk boot) →
    mounted ∈ (bootDisks platform disks first machine).2.mounts →
    mounted.source = .device disk.device →
      let before := afterBoots platform disks between (bootDisks platform disks first machine).2
      let final := (bootDisks platform disks last before).2
      final.contents disk.device = .filesystem mounted.made ∧
        ∀ event ∈ final.log, formatsAt disk.device event = false

theorem formatted_once_of {format : Format} (plain : disk.encrypt = none)
    (wanted : disk.formatIfEmpty = true) (makes : platform.makes disk.mkfs = some format)
    (known : format.extMagic = true ∨ ¬Mountable disk) : FormattedOnce platform disk := by
  intro disks machine first between last mounted _ others readable listed source
  have settled : Settles disk.device (bootDisks platform disks first machine).2 :=
    boot_settles others plain wanted makes known (readable first List.mem_cons_self)
  obtain ⟨holds, ext⟩ := settled.known mounted listed source
  have rest (boot : Boot) (listed : boot ∈ last :: between) : ReadableAt disks disk boot :=
    readable boot (List.mem_cons_of_mem _ listed)
  intro before final
  have later : before.contents disk.device = .filesystem mounted.made :=
    after_boots_hold others plain ext (fun boot listed => rest boot (List.mem_cons_of_mem _ listed))
      holds
  have untouched : Untouched disk.device mounted.made final :=
    boot_untouched others plain ext (rest last List.mem_cons_self) later
  exact ⟨untouched.holds, untouched.unformatted⟩

/-- A boot in which every call succeeds, of a machine whose device shows no magic. -/
theorem clean_boot_formats {format : Format} (boot : Boot) (machine : Machine)
    (plain : disk.encrypt = none)
    (wanted : disk.formatIfEmpty = true) (command : disk.mkfs ≠ [])
    (makes : platform.makes disk.mkfs = some format)
    (mounts : platform.mountable disk.fstype format.kind = true) (mountable : Mountable disk)
    (clean : boot.plan = Plan.allDone)
    (blank : carriesMagic (machine.contents disk.device) = false) :
    let made : Filesystem := ⟨format, (boot.draws 0).serial⟩
    let final := (bootDisks platform [disk] boot machine).2
    final.contents disk.device = .filesystem made ∧
      (∃ mounted ∈ final.mounts, mounted.source = .device disk.device) ∧
      ∃ event ∈ final.log, formatsAt disk.device event = true := by
  obtain ⟨⟨flags, flagged⟩, path, target, fstype⟩ := mountable
  obtain ⟨program, args, listed⟩ := List.exists_cons_of_ne_nil command
  intro made final
  let booted := powerOn platform machine
  let tried := booted.attempt .mkfs (args ++ [disk.device]) true
  let filled := (tried.fill disk.device (.filesystem made)).note (.succeeded .mkfs)
  have taken : Machine.formatted (.device disk.device)
      (madeBy platform (boot.draws 0) disk) tried =
        some (tried.fill disk.device (.filesystem made)) := by
    rw [madeBy, makes]
    exact (Machine.formatted_device_eq_some_iff _ _).mpr ⟨rfl, rfl⟩
  have formatted : (formatIfBlank platform (boot.draws 0) disk).run Plan.allDone booted =
      (.ok (), filled) := by
    have unknown : carriesMagic (booted.contents disk.device) = false := blank
    have readable : Readable Plan.allDone := ⟨rfl, rfl, rfl, rfl, rfl⟩
    rw [formatIfBlank, wanted, if_pos rfl, run_bind, is_formatted_run readable, unknown]
    simp only [formatDisk, listed]
    exact tried_done _ _ ⟨rfl, rfl⟩ taken
  have seen : filled.volume (.device disk.device) = some made := by
    simp [filled, Machine.volume, Machine.note, Machine.fill]
  have run : (applyDisk platform boot (boot.draws 0) disk).run Plan.allDone booted =
      (.ok (), { filled with mounts :=
        filled.mounts ++ [⟨.device disk.device, disk.target, disk.fstype, flags, made⟩] }) := by
    rw [apply_plain_disk_run plain, run_bind, formatted]
    exact mount_disk_run rfl rfl flagged path target fstype seen mounts
  have ended : final = { filled with mounts :=
      filled.mounts ++ [⟨.device disk.device, disk.target, disk.fstype, flags, made⟩] } := by
    have at' : boot.plan.at (fun label => (0, label)) = Plan.allDone := by
      rw [clean]
      rfl
    simp only [final, boot_disks_singleton, visit, run_relabel, at']
    exact congrArg Prod.snd run
  rw [ended]
  refine ⟨Function.update_self _ _ _, ⟨_, List.mem_append_right _ (List.mem_singleton_self _), rfl⟩,
    _, List.mem_append_left _ (List.mem_append_right _ (List.mem_singleton_self _)), ?_⟩
  simp [formatsAt]

end Boots

theorem not_formatted_once (platform : Platform) (disk : Disk) (format : Format)
    (plain : disk.encrypt = none) (wanted : disk.formatIfEmpty = true) (command : disk.mkfs ≠ [])
    (makes : platform.makes disk.mkfs = some format)
    (mounts : platform.mountable disk.fstype format.kind = true) (mountable : Mountable disk)
    (foreign : format.extMagic = false) : ¬FormattedOnce platform disk := by
  intro once
  let boot : Boot := ⟨fun _ => none, fun _ => ⟨⟨List.replicate 32 7, rfl⟩, 0⟩, Plan.allDone⟩
  let machine : Machine :=
    ⟨fun _ => .blank, fun _ => none, true, none, none, none, none, [], [], []⟩
  have others : Others disk [disk] := fun other listed => Or.inl (List.mem_singleton.mp listed)
  have readable (other : Boot) (listed : other ∈ [boot, boot]) : ReadableAt [disk] disk other := by
    intro index _
    have same : other = boot := by simpa using listed
    rw [same]
    exact ⟨rfl, rfl, rfl, rfl, rfl⟩
  obtain ⟨holds, ⟨mounted, listed, source⟩, -⟩ := clean_boot_formats boot machine plain wanted
    command makes mounts mountable rfl rfl
  have unknown : carriesMagic ((bootDisks platform [disk] boot machine).2.contents disk.device) =
      false := by
    rw [holds]
    exact foreign
  obtain ⟨-, -, event, logged, formats⟩ := clean_boot_formats boot _ plain wanted command
    makes mounts mountable rfl unknown
  have untouched := (once [disk] machine boot [] boot mounted (List.mem_singleton_self _) others
    readable listed source).2 event logged
  rw [formats] at untouched
  cases untouched

/-- A plain disk is formatted at most once exactly if `is_formatted` knows what its
`mkfs` makes, or the disk can never be mounted. -/
theorem plain_disk_formatted_once_iff (platform : Platform) (disk : Disk) (format : Format)
    (plain : disk.encrypt = none) (wanted : disk.formatIfEmpty = true) (command : disk.mkfs ≠ [])
    (makes : platform.makes disk.mkfs = some format)
    (mounts : platform.mountable disk.fstype format.kind = true) :
    FormattedOnce platform disk ↔ format.extMagic = true ∨ ¬Mountable disk := by
  constructor
  · intro once
    by_contra unknown
    obtain ⟨foreign, mountable⟩ := not_or.mp unknown
    exact not_formatted_once platform disk format plain wanted command makes mounts
      (not_not.mp mountable) (by simpa using foreign) once
  · exact formatted_once_of plain wanted makes

def xfsDisk : Disk := ⟨"/dev/vdb", "/var/lib/data", "xfs", [], true, ["/sbin/mkfs.xfs"], none⟩

def xfsPlatform : Platform := ⟨true, "", fun _ => some ⟨"xfs", false⟩, fun _ _ => true⟩

theorem xfs_disk_mountable : Mountable xfsDisk := ⟨⟨0, rfl⟩, rfl, rfl, rfl⟩

theorem plain_disk_formatted_once_iff_sample :
    xfsDisk.encrypt = none ∧
      (FormattedOnce xfsPlatform xfsDisk ↔ false = true ∨ ¬Mountable xfsDisk) :=
  ⟨rfl, plain_disk_formatted_once_iff xfsPlatform xfsDisk ⟨"xfs", false⟩ rfl rfl
    (List.cons_ne_nil _ _) rfl rfl⟩

/-- `mkfs.xfs` on a plain disk. -/
theorem plain_disk_formatted_again :
    ¬∀ platform disk format, disk.encrypt = none → disk.formatIfEmpty = true → disk.mkfs ≠ [] →
      platform.makes disk.mkfs = some format →
        platform.mountable disk.fstype format.kind = true → FormattedOnce platform disk := by
  intro once
  exact not_formatted_once xfsPlatform xfsDisk ⟨"xfs", false⟩ rfl rfl (List.cons_ne_nil _ _) rfl rfl
    xfs_disk_mountable rfl
    (once xfsPlatform xfsDisk ⟨"xfs", false⟩ rfl rfl (List.cons_ne_nil _ _) rfl rfl)

end NodeOs.Initd.PlainDisks
