import NodeOs.Initd.DiskVisits

/-!
# Provisioning that is cut short

Once `luksFormat` has written its header, the device is no longer formatted: the
next boot can only unlock it. So a provisioning that is cut after the header
recovers exactly if its key is in the TPM and its volume has a filesystem.
-/

namespace NodeOs.Initd.DiskRecovery

open NodeOs.Library.FaultPlan NodeOs.Library.FaultPlan.Proc
open NodeOs.Initd.DiskTools NodeOs.Initd.Disks NodeOs.Initd.DiskCalls NodeOs.Initd.TpmCalls
open NodeOs.Initd.DiskWipe NodeOs.Initd.DiskVisits

/-- `luksFormat` is reached and takes effect. -/
structure HeaderWritten (platform : Platform) (disk : Disk) (plan : Plan DiskStep)
    (machine : Machine) : Prop where
  starts : FormatStarts platform disk plan machine
  begun : (plan (.exit .luksFormat)).begins = true

/-- What follows the header goes through, and `mkfs` takes effect. -/
structure VolumeFilled (boot : Boot) (luks : Luks) (plan : Plan DiskStep) (machine : Machine) :
    Prop where
  formatted : plan (.exit .luksFormat) = .done
  opened : Ran plan .luksOpen
  stored : StoreDone boot plan machine luks.tpmNvIndex luks.pcrs
  made : Begun plan .mkfs

variable {platform : Platform} {boot : Boot} {draw : Draw} {disk : Disk} {luks : Luks}
  {plan : Plan DiskStep} {machine : Machine} {key : Key} {guard : Guard}

section Filling

theorem tpm_getrandom_keeps : Keeps durable (tpmGetrandom draw) := by
  refine .bind (tool_keeps _ _ _ (fun _ _ => rfl) ?_) fun _ => .check _ _
  intro machine next taken
  rw [← Option.some.inj taken]
  rfl

/-- A `mkfs` that gets to take effect on an empty volume. -/
theorem format_target_made (begun : Begun plan .mkfs) (commanded : disk.mkfs ≠ [])
    (mapped : machine.mapped.lookup luks.name = some disk.device)
    (header : machine.contents disk.device = .luks key none) :
    ((formatTarget platform draw disk (.mapper luks.name)).run plan machine).2.contents
        disk.device = .luks key (madeBy platform draw disk) := by
  obtain ⟨program, args, command⟩ := List.exists_cons_of_ne_nil commanded
  have effective : plan (.spawn .mkfs) = .done ∧ (plan (.exit .mkfs)).begins = true := begun
  unfold formatTarget
  rw [command]
  dsimp only
  rw [runMkfs, tried_view Machine.contents _ _ _ _ _ fun _ _ => rfl, if_pos effective]
  cases madeBy platform draw disk with
  | none =>
      rw [Machine.formatted_nothing]
      exact header
  | some made =>
      have taken (before : Machine) (volumes : before.mapped = machine.mapped)
          (contents : before.contents = machine.contents) :
          before.formatted (.mapper luks.name) (some made) =
            some (before.fill disk.device (.luks key (some made))) :=
        (Machine.formatted_mapper_eq_some_iff _ _).mpr
          ⟨disk.device, key, none, volumes ▸ mapped, contents ▸ header, rfl⟩
      rw [taken (machine.attempt _ _ _) rfl rfl]
      exact Function.update_self ..

theorem format_target_unmade (unmade : ¬Begun plan .mkfs) {source : Source} :
    ((formatTarget platform draw disk source).run plan machine).2.contents = machine.contents := by
  unfold formatTarget
  cases disk.mkfs with
  | nil => rfl
  | cons program args =>
      dsimp only
      rw [runMkfs, tried_view Machine.contents _ _ _ _ _ fun _ _ => rfl]
      exact if_neg unmade

theorem format_target_nv (source : Source) :
    Keeps Machine.nv (formatTarget platform draw disk source) := by
  unfold formatTarget
  cases disk.mkfs with
  | nil => exact .raise _
  | cons program args => exact run_mkfs_keeps (fun _ _ => rfl) (fun _ _ _ => rfl) _ _ _ _ _ _

theorem store_done_congr {other : Machine} {index : String} {pcrs : Option String}
    (done : StoreDone boot plan machine index pcrs) (same : other.nv index = machine.nv index) :
    StoreDone boot plan other index pcrs :=
  ⟨done.survived, same.symm ▸ done.cleared, done.known, done.ran, done.closed⟩

theorem volume_filled_congr {other : Machine} (filled : VolumeFilled boot luks plan machine)
    (same : other.nv = machine.nv) : VolumeFilled boot luks plan other :=
  ⟨filled.formatted, filled.opened, store_done_congr filled.stored (congrFun same _), filled.made⟩

/-- A volume stays empty if something fails before its `mkfs` takes effect. -/
theorem fill_volume_unfilled {device : String}
    (unfilled : ¬(Ran plan .luksOpen ∧ StoreDone boot plan machine luks.tpmNvIndex luks.pcrs ∧
      Begun plan .mkfs)) :
    ((fillVolume platform boot draw disk luks).run plan machine).2.contents device =
      machine.contents device := by
  have kept := luks_open_keeps disk.device luks.name plan machine
  let next := ((luksOpen disk.device luks.name).run plan machine).2
  have contents : next.contents = machine.contents := congrArg Prod.fst kept
  have nv : next.nv = machine.nv := congrArg Prod.snd kept
  unfold fillVolume
  by_cases opened : ((luksOpen disk.device luks.name).run plan machine).1 = .ok ()
  · rw [run_bind_of_ok _ _ opened]
    have same : ((tpmNvStore boot luks.tpmNvIndex luks.pcrs).run plan next).2.contents =
        machine.contents :=
      (congrArg Prod.fst (tpm_nv_store_outside luks.pcrs plan next)).trans contents
    by_cases stored : ((tpmNvStore boot luks.tpmNvIndex luks.pcrs).run plan next).1 = .ok ()
    · have unmade : ¬Begun plan .mkfs := fun begun => unfilled ⟨(luks_open_ok opened).1,
        store_done_congr (tpm_nv_store_ok stored) (congrFun nv.symm _), begun⟩
      rw [run_bind_of_ok _ _ stored, format_target_unmade unmade, same]
    · rw [(run_bind_of_not_ok _ _ _ fun _ => stored).1, same]
  · rw [(run_bind_of_not_ok _ _ _ fun _ => opened).1, contents]

/-- A volume that gets its key stored and its `mkfs`. -/
theorem fill_volume_filled (commanded : disk.mkfs ≠ [])
    (header : machine.contents disk.device = .luks key none) (file : machine.keyFile = some key)
    (control : machine.dmControl = true) (free : machine.inUse disk.device = false)
    (unnamed : machine.mapped.lookup luks.name = none)
    (filled : VolumeFilled boot luks plan machine) (guarded : guardOf boot luks.pcrs = some guard) :
    ((fillVolume platform boot draw disk luks).run plan machine).2.contents disk.device =
        .luks key (madeBy platform draw disk) ∧
      ((fillVolume platform boot draw disk luks).run plan machine).2.nv luks.tpmNvIndex =
        some ⟨guard, some key⟩ := by
  obtain ⟨next, run, nv, same⟩ := fill_volume_stores platform draw machine header file control free
    unnamed filled.opened filled.stored guarded
  simp only [outside, Prod.mk.injEq] at same
  obtain ⟨contents, -, mapped, -⟩ := same
  rw [run]
  constructor
  · exact format_target_made filled.made commanded (mapped.symm ▸ lookup_appended unnamed)
      (contents.symm ▸ header)
  · rw [format_target_nv, nv]
    exact Function.update_self ..

end Filling

section Provisioning

/-- Without the header nothing lasts. -/
theorem provision_unheaded
    (unheaded : ¬(FormatReached plan ∧ (plan (.exit .luksFormat)).begins = true)) :
    ((provision platform boot draw disk luks).run plan machine).2.contents = machine.contents := by
  have kept : ((tpmGetrandom draw).run plan machine).2.contents = machine.contents :=
    congrArg Prod.fst (tpm_getrandom_keeps plan machine)
  unfold provision
  by_cases drawn : ((tpmGetrandom draw).run plan machine).1 = .ok ()
  · rw [run_bind_of_ok _ _ drawn]
    obtain ⟨ran, secured⟩ := (tpm_getrandom_ok_iff _).mp drawn
    have unbegun : ¬Begun plan .luksFormat := fun begun =>
      unheaded ⟨⟨ran, secured, begun.1⟩, begun.2⟩
    have stopped (value : Unit) (next : Machine) :
        ((luksFormat disk.device).run plan next).1 ≠ .ok value :=
      fun returned => unbegun (begun_of_ran (luks_format_ok returned).1)
    rw [(run_bind_of_not_ok _ _ _ fun value => stopped value _).1, luksFormat,
      tool_view Machine.contents _ _ _ _ fun _ _ => rfl]
    exact (if_neg unbegun).trans kept
  · rw [(run_bind_of_not_ok _ _ _ fun _ => drawn).1, kept]

/-- What a provisioning leaves that has written the header. -/
theorem provision_headed (platform : Platform) (boot : Boot) (draw : Draw) (machine : Machine)
    (reached : FormatReached plan)
    (begun : (plan (.exit .luksFormat)).begins = true) (control : machine.dmControl = true)
    (free : machine.inUse disk.device = false)
    (unnamed : machine.mapped.lookup luks.name = none) (commanded : disk.mkfs ≠ []) :
    (¬VolumeFilled boot luks plan machine →
      ((provision platform boot draw disk luks).run plan machine).2.contents disk.device =
        .luks draw.key none) ∧
    (VolumeFilled boot luks plan machine → ∀ guard, guardOf boot luks.pcrs = some guard →
      ((provision platform boot draw disk luks).run plan machine).2.contents disk.device =
          .luks draw.key (madeBy platform draw disk) ∧
        ((provision platform boot draw disk luks).run plan machine).2.nv luks.tpmNvIndex =
          some ⟨guard, some draw.key⟩) := by
  by_cases exited : plan (.exit .luksFormat) = .done
  · obtain ⟨log, -, run⟩ := provision_heads platform boot draw luks machine reached.drawn
      reached.secured ⟨reached.started, exited⟩ free
    rw [run]
    have header : (machine.fill disk.device (.luks draw.key none)).contents disk.device =
      .luks draw.key none := Function.update_self ..
    constructor
    · intro unfilled
      rw [fill_volume_unfilled]
      · exact header
      · rintro ⟨opened, stored, made⟩
        exact unfilled ⟨exited, opened, store_done_congr stored rfl, made⟩
    · intro filled guard guarded
      exact fill_volume_filled commanded header rfl control free unnamed
        (volume_filled_congr filled rfl) guarded
  · refine ⟨fun _ => ?_, fun filled => absurd filled.formatted exited⟩
    obtain ⟨log, drawn⟩ := tpm_getrandom_run draw machine reached.drawn reached.secured
    have stopped (value : Unit) (next : Machine) :
        ((luksFormat disk.device).run plan next).1 ≠ .ok value :=
      fun returned => exited (luks_format_ok returned).1.2
    have effective : plan (.spawn .luksFormat) = .done ∧
      (plan (.exit .luksFormat)).begins = true := ⟨reached.started, begun⟩
    rw [provision, run_bind, drawn]
    dsimp only
    rw [(run_bind_of_not_ok _ _ _ fun value => stopped value _).1, luksFormat,
      tool_view Machine.contents _ _ _ _ fun _ _ => rfl, if_pos effective]
    have taken (before : Machine) (file : before.keyFile = some draw.key)
        (unused : before.inUse disk.device = false) :
        before.luksFormatted disk.device = some (before.fill disk.device (.luks draw.key none)) :=
      (Machine.luks_formatted_eq_some_iff _).mpr ⟨draw.key, file, unused, rfl⟩
    let next : Machine := { machine with keyFile := some draw.key, log := log }
    rw [taken (next.attempt .luksFormat (luksFormatArgs disk.device) true) rfl free]
    exact Function.update_self ..

end Provisioning

section FirstBoot

/-- A call that does not provision, on a device without a header, leaves all as it was. -/
theorem open_encrypted_idle (blank : machine.contents disk.device = .blank)
    (idle : ¬(Examined platform disk plan machine false ∧ disk.formatIfEmpty = true)) :
    durable ((openEncrypted platform boot draw disk luks).run plan machine).2 =
      durable machine := by
  have kept : durable ((examine platform disk luks).run plan machine).2 = durable machine :=
    examine_keeps durable_blind plan machine
  unfold openEncrypted
  by_cases answered : ∃ answer, ((examine platform disk luks).run plan machine).1 = .ok answer
  · obtain ⟨answer, answered⟩ := answered
    have examined := (examine_ok_iff answer).mp answered
    obtain rfl : answer = false := denied_of_blank blank examined
    rw [run_bind_of_ok _ _ answered, run_bind_pure_state]
    cases wanted : disk.formatIfEmpty with
    | true => exact absurd ⟨examined, wanted⟩ idle
    | false =>
        simp only [openVolume, wanted, Bool.false_eq_true, if_false]
        exact kept
  · rw [(run_bind_of_not_ok _ _ _ fun answer returned => answered ⟨answer, returned⟩).1, kept]

theorem open_encrypted_provisions (boot : Boot) (draw : Draw) (luks : Luks)
    (wanted : disk.formatIfEmpty = true)
    (examined : Examined platform disk plan machine false) :
    ∃ log, durable ((openEncrypted platform boot draw disk luks).run plan machine).2 =
      durable ((provision platform boot draw disk luks).run plan
        { machine with dmControl := true, log := log }).2 := by
  obtain ⟨events, look, -⟩ := examine_run luks examined
  refine ⟨machine.log ++ events, ?_⟩
  rw [openEncrypted, run_bind, look]
  dsimp only
  rw [run_bind_pure_state]
  simp only [openVolume, wanted, if_true, Bool.false_eq_true, if_false]
  exact then_remove_key_view durable_lasting _

/-- What the first boot leaves of a blank device. -/
structure FirstLeaves (platform : Platform) (boot : Boot) (draw : Draw) (disk : Disk) (luks : Luks)
    (plan : Plan DiskStep) (machine next : Machine) : Prop where
  unheaded : ¬HeaderWritten platform disk plan machine → next.contents disk.device = .blank
  unfilled : HeaderWritten platform disk plan machine → ¬VolumeFilled boot luks plan machine →
    next.contents disk.device = .luks draw.key none
  filled : HeaderWritten platform disk plan machine → VolumeFilled boot luks plan machine →
    ∀ guard, guardOf boot luks.pcrs = some guard →
      next.contents disk.device = .luks draw.key (madeBy platform draw disk) ∧
        next.nv luks.tpmNvIndex = some ⟨guard, some draw.key⟩

theorem apply_disk_leaves (encrypted : disk.encrypt = some luks)
    (wanted : disk.formatIfEmpty = true) (commanded : disk.mkfs ≠ [])
    (blank : machine.contents disk.device = .blank) (free : machine.inUse disk.device = false)
    (unnamed : machine.mapped.lookup luks.name = none) :
    FirstLeaves platform boot draw disk luks plan machine
      ((applyDisk platform boot draw disk).run plan machine).2 := by
  have same : durable ((applyDisk platform boot draw disk).run plan machine).2 =
      durable ((openEncrypted platform boot draw disk luks).run plan machine).2 :=
    apply_disk_durable encrypted
  by_cases denied : Examined platform disk plan machine false
  · obtain ⟨log, opened⟩ := open_encrypted_provisions boot draw luks wanted denied
    have durably := same.trans opened
    have contents := congrArg Prod.fst durably
    have nv := congrArg Prod.snd durably
    dsimp only [durable] at contents nv
    have headed (written : HeaderWritten platform disk plan machine) :=
      provision_headed platform boot draw { machine with dmControl := true, log := log }
        written.starts.reached written.begun rfl free unnamed commanded
    constructor
    · intro unwritten
      rw [contents, provision_unheaded]
      · exact blank
      · rintro ⟨reached, begun⟩
        exact unwritten ⟨⟨denied, wanted, reached⟩, begun⟩
    · intro written unfilled
      rw [contents]
      exact (headed written).1 fun filled => unfilled (volume_filled_congr filled rfl)
    · intro written filled guard guarded
      rw [contents, nv]
      exact (headed written).2 (volume_filled_congr filled rfl) guard guarded
  · have unwritten : ¬HeaderWritten platform disk plan machine := fun written =>
      denied written.starts.denied
    have contents := congrArg Prod.fst (same.trans (open_encrypted_idle blank fun idle =>
      denied idle.1))
    dsimp only [durable] at contents
    exact ⟨fun _ => contents ▸ blank, fun written => absurd written unwritten,
      fun written => absurd written unwritten⟩

end FirstBoot

section SecondBoot

/-- A boot in which everything succeeds can bring the disk up from blank. -/
structure Workable (platform : Platform) (boot : Boot) (disk : Disk) (luks : Luks) : Prop where
  control : platform.devtmpfsControl = true ∨ dmMinor platform.misc ≠ none
  known : guardOf boot luks.pcrs ≠ none
  mounts : ∃ format flags, platform.makes disk.mkfs = some format ∧
    Mounts platform disk (.mapper luks.name) format.kind flags

/-- The boot has gone through, and the disk's volume is mounted. -/
def VolumeMounted (disk : Disk) (luks : Luks) (result : Outcome Error Unit × Machine) : Prop :=
  result.1 = .ok () ∧ ∃ mounted ∈ result.2.mounts, mounted.source = .mapper luks.name ∧
    mounted.target = disk.target

theorem clean_boot_run (clean : boot.plan = Plan.allDone) (machine : Machine) :
    bootDisks platform [disk] boot machine =
      (applyDisk platform boot (boot.draws 0) disk).run Plan.allDone
        (powerOn platform machine) := by
  have same : boot.plan.at (fun label => (0, label)) = Plan.allDone := by
    rw [clean]
    rfl
  rw [boot_disks_singleton, visit, run_relabel, same]

/-- A visit that has mounted the volume. -/
theorem volume_mounted {next : Machine} {flags : Nat} {made : Filesystem}
    (run : (applyDisk platform boot draw disk).run plan machine = (.ok (), { next with
      mounts := next.mounts ++ [mountedAs disk (.mapper luks.name) flags made] })) :
    VolumeMounted disk luks ((applyDisk platform boot draw disk).run plan machine) := by
  rw [run]
  exact ⟨rfl, _, List.mem_append_right _ (List.mem_singleton_self _), rfl, rfl⟩

theorem clean_boot_blank (encrypted : disk.encrypt = some luks) (wanted : disk.formatIfEmpty = true)
    (commanded : disk.mkfs ≠ []) (clean : boot.plan = Plan.allDone)
    (blank : machine.contents disk.device = .blank) :
    VolumeMounted disk luks (bootDisks platform [disk] boot machine) ↔
      Workable platform boot disk luks := by
  have empty : (powerOn platform machine).contents disk.device = .blank := blank
  rw [clean_boot_run clean]
  constructor
  · rintro ⟨returned, -⟩
    obtain ⟨possible, -, guard, made, flags, -, guarded, filled, mounts, -⟩ :=
      apply_blank_ok encrypted empty returned
    obtain ⟨format, makes, rfl⟩ := Option.map_eq_some_iff.mp filled
    exact ⟨possible, guarded ▸ Option.some_ne_none guard, format, flags, makes, mounts⟩
  · rintro ⟨possible, known, format, flags, makes, mounts⟩
    obtain ⟨guard, guarded⟩ := Option.ne_none_iff_exists'.mp known
    have denied : Examined platform disk Plan.allDone (powerOn platform machine) false := by
      have examined := examined_clean disk (powerOn platform machine) possible
      rwa [empty] at examined
    have store : StoreDone boot Plan.allDone { powerOn platform machine with dmControl := true }
        luks.tpmNvIndex luks.pcrs :=
      ⟨by simp [Survived, Plan.allDone], Or.inr ⟨rfl, rfl⟩, known, fun _ _ => ⟨rfl, rfl⟩,
        fun _ => by simp [Survived, Plan.allDone]⟩
    obtain ⟨next, run, leaves⟩ := open_blank_run (boot.draws 0) (powerOn platform machine) denied
      wanted ⟨⟨rfl, rfl⟩, rfl, ⟨rfl, rfl⟩, rfl, ⟨rfl, rfl⟩, rfl, rfl, store, commanded,
        ⟨rfl, rfl⟩⟩ guarded (by simp [Plan.allDone])
    have seen : next.volume (.mapper luks.name) = some ⟨format, (boot.draws 0).serial⟩ := by
      rw [leaves.volume_seen rfl, madeBy, makes]
      rfl
    exact volume_mounted (apply_encrypted_run encrypted run mounts seen rfl rfl)

/-- With a header on the device, the volume must have a filesystem. -/
theorem clean_boot_header_ok {inner : Option Filesystem} (encrypted : disk.encrypt = some luks)
    (clean : boot.plan = Plan.allDone) (header : machine.contents disk.device = .luks key inner)
    (returned : (bootDisks platform [disk] boot machine).1 = .ok ()) :
    ControlPossible platform (powerOn platform machine) ∧
      ∃ flags made, inner = some made ∧
        Mounts platform disk (.mapper luks.name) made.format.kind flags := by
  rw [clean_boot_run clean] at returned
  obtain ⟨source, opened, mounting⟩ := apply_encrypted_ok encrypted returned
  obtain ⟨answer, answered, rest⟩ := (run_bind_ok_iff ..).mp opened
  have examined := (examine_ok_iff answer).mp answered
  obtain rfl : answer = true := by
    have answers : answer = ((powerOn platform machine).contents disk.device).isLuks :=
      examined.answer
    rw [answers, show (powerOn platform machine).contents disk.device = .luks key inner from header]
    rfl
  obtain ⟨_, unlocked, named⟩ := (run_bind_ok_iff ..).mp rest
  cases named
  have kept : ((examine platform disk luks).run Plan.allDone
      (powerOn platform machine)).2.contents disk.device = .luks key inner := by
    rw [← header]
    exact congrFun (congrArg Prod.fst (examine_keeps durable_blind _ _)) _
  obtain ⟨flags, made, mounts, seen, -, -⟩ := mount_disk_ok mounting
  have volume : inner = some made := by
    rw [← seen, ← unlock_volume kept unlocked, openEncrypted, run_bind_of_ok _ _ answered,
      run_bind_pure_state]
    rfl
  exact ⟨control_possible_of_ready examined.control, flags, made, volume, mounts⟩

theorem clean_boot_filled {draw : Draw} (encrypted : disk.encrypt = some luks)
    (clean : boot.plan = Plan.allDone) (guarded : guardOf boot luks.pcrs = some guard)
    (stored : machine.nv luks.tpmNvIndex = some ⟨guard, some key⟩)
    (header : machine.contents disk.device = .luks key (madeBy platform draw disk)) :
    VolumeMounted disk luks (bootDisks platform [disk] boot machine) ↔
      Workable platform boot disk luks := by
  constructor
  · rintro ⟨returned, -⟩
    obtain ⟨possible, flags, made, filled, mounts⟩ := clean_boot_header_ok encrypted clean header
      returned
    obtain ⟨format, makes, rfl⟩ := Option.map_eq_some_iff.mp filled
    exact ⟨possible, guarded ▸ Option.some_ne_none guard, format, flags, makes, mounts⟩
  · rintro ⟨possible, -, format, flags, makes, mounts⟩
    obtain ⟨next, run, leaves⟩ := open_luks_run (boot.draws 0)
      (powerOn platform machine) possible guarded stored header rfl rfl
    have seen : next.volume (.mapper luks.name) = some ⟨format, draw.serial⟩ := by
      rw [leaves.volume_seen header rfl, madeBy, makes]
      rfl
    rw [clean_boot_run clean]
    exact volume_mounted (apply_encrypted_run encrypted run mounts seen rfl rfl)

end SecondBoot

section Recovery

variable {first second : Boot}

theorem first_boot_leaves (platform : Platform) (first : Boot)
    (encrypted : disk.encrypt = some luks)
    (wanted : disk.formatIfEmpty = true) (commanded : disk.mkfs ≠ [])
    (blank : machine.contents disk.device = .blank) :
    FirstLeaves platform first (first.draws 0) disk luks (first.plan.at fun label => (0, label))
      (powerOn platform machine) (bootDisks platform [disk] first machine).2 := by
  rw [boot_disks_singleton, visit, run_relabel]
  exact apply_disk_leaves encrypted wanted commanded blank rfl rfl

/-- Cut between the header and the filesystem, a disk is never mounted again. -/
theorem not_recovered (encrypted : disk.encrypt = some luks) (wanted : disk.formatIfEmpty = true)
    (commanded : disk.mkfs ≠ []) (blank : machine.contents disk.device = .blank)
    (clean : second.plan = Plan.allDone)
    (written : HeaderWritten platform disk (first.plan.at fun label => (0, label))
      (powerOn platform machine))
    (unfilled : ¬VolumeFilled first luks (first.plan.at fun label => (0, label))
      (powerOn platform machine)) :
    ¬VolumeMounted disk luks
      (bootDisks platform [disk] second (bootDisks platform [disk] first machine).2) := by
  rintro ⟨returned, -⟩
  have header :=
    (first_boot_leaves platform first encrypted wanted commanded blank).unfilled written unfilled
  obtain ⟨-, flags, made, filled, -⟩ := clean_boot_header_ok encrypted clean header returned
  cases filled

theorem guard_of_congr (same : second.pcrs = first.pcrs) (pcrs : Option String) :
    guardOf second pcrs = guardOf first pcrs := by
  cases pcrs with
  | none => rfl
  | some selection => rw [guardOf, guardOf, same]

/-- After a first boot that may be cut anywhere, a boot in which everything
succeeds mounts the volume exactly if it could do so from blank, and a header is
followed by all that leads up to a filesystem. -/
theorem provisioning_recovers_iff (platform : Platform) (disk : Disk) (luks : Luks)
    (first second : Boot) (machine : Machine) (encrypted : disk.encrypt = some luks)
    (wanted : disk.formatIfEmpty = true) (commanded : disk.mkfs ≠ [])
    (blank : machine.contents disk.device = .blank) (clean : second.plan = Plan.allDone)
    (same : second.pcrs = first.pcrs) :
    VolumeMounted disk luks
        (bootDisks platform [disk] second (bootDisks platform [disk] first machine).2) ↔
      Workable platform second disk luks ∧
        (HeaderWritten platform disk (first.plan.at fun label => (0, label))
            (powerOn platform machine) →
          VolumeFilled first luks (first.plan.at fun label => (0, label))
            (powerOn platform machine)) := by
  have leaves := first_boot_leaves platform first encrypted wanted commanded blank
  by_cases written : HeaderWritten platform disk (first.plan.at fun label => (0, label))
    (powerOn platform machine)
  · by_cases filled : VolumeFilled first luks (first.plan.at fun label => (0, label))
      (powerOn platform machine)
    · obtain ⟨guard, guarded⟩ := Option.ne_none_iff_exists'.mp filled.stored.known
      obtain ⟨header, stored⟩ := leaves.filled written filled guard guarded
      rw [clean_boot_filled encrypted clean ((guard_of_congr same _).trans guarded) stored header]
      exact ⟨fun works => ⟨works, fun _ => filled⟩, And.left⟩
    · constructor
      · intro mounted
        exact absurd mounted (not_recovered encrypted wanted commanded blank clean written filled)
      · rintro ⟨-, follows⟩
        exact absurd (follows written) filled
  · rw [clean_boot_blank encrypted wanted commanded clean (leaves.unheaded written)]
    exact ⟨fun works => ⟨works, fun headed => absurd headed written⟩, And.left⟩

def stateLuks : Luks := ⟨"state", "0x01500001", none⟩

def stateDisk : Disk :=
  ⟨"/dev/vda2", "/var/lib/nodeos", "ext4", [], true, ["/sbin/mkfs.ext4"], some stateLuks⟩

def statePlatform : Platform := ⟨true, "", fun _ => some ⟨"ext4", true⟩, fun _ _ => true⟩

def stateBoot (plan : Plan (Nat × DiskStep)) : Boot :=
  ⟨fun _ => none, fun _ => ⟨⟨List.replicate 32 9, rfl⟩, 1⟩, plan⟩

def blankMachine : Machine :=
  ⟨fun _ => .blank, fun _ => none, true, none, none, none, none, [], [], []⟩

/-- The machine stops between `luksFormat` and `cryptsetup open`. -/
def cutAfterHeader : Plan (Nat × DiskStep) := fun label =>
  if label = (0, .spawn .luksOpen) then .killed 0 else .done

theorem provisioning_recovers_iff_sample :
    stateDisk.encrypt = some stateLuks ∧
      (VolumeMounted stateDisk stateLuks (bootDisks statePlatform [stateDisk]
          (stateBoot Plan.allDone)
          (bootDisks statePlatform [stateDisk] (stateBoot cutAfterHeader) blankMachine).2) ↔
        Workable statePlatform (stateBoot Plan.allDone) stateDisk stateLuks ∧
          (HeaderWritten statePlatform stateDisk (cutAfterHeader.at fun label => (0, label))
              (powerOn statePlatform blankMachine) →
            VolumeFilled (stateBoot cutAfterHeader) stateLuks
              (cutAfterHeader.at fun label => (0, label)) (powerOn statePlatform blankMachine))) :=
  ⟨rfl, provisioning_recovers_iff statePlatform stateDisk stateLuks (stateBoot cutAfterHeader)
    (stateBoot Plan.allDone) blankMachine rfl rfl (List.cons_ne_nil _ _) rfl rfl rfl⟩

/-- The power fails after the first `luksFormat`. -/
theorem provisioning_bricks :
    ¬∀ platform disk luks first second machine, disk.encrypt = some luks →
      disk.formatIfEmpty = true → disk.mkfs ≠ [] → machine.contents disk.device = .blank →
        second.plan = Plan.allDone → second.pcrs = first.pcrs →
          Workable platform second disk luks → VolumeMounted disk luks
            (bootDisks platform [disk] second (bootDisks platform [disk] first machine).2) := by
  intro recovers
  have works : Workable statePlatform (stateBoot Plan.allDone) stateDisk stateLuks :=
    ⟨Or.inl rfl, Option.some_ne_none _, ⟨"ext4", true⟩, 0, rfl, rfl, rfl, rfl, rfl, rfl⟩
  have written : HeaderWritten statePlatform stateDisk (cutAfterHeader.at fun label => (0, label))
      (powerOn statePlatform blankMachine) := by
    refine ⟨⟨⟨Or.inl rfl, ⟨?_, ?_⟩, rfl, rfl⟩, rfl, ⟨rfl, rfl⟩, rfl, rfl⟩, rfl⟩
    · simp [cutAfterHeader, Plan.at]
    · simp [cutAfterHeader, Plan.at]
  have unfilled : ¬VolumeFilled (stateBoot cutAfterHeader) stateLuks
      (cutAfterHeader.at fun label => (0, label)) (powerOn statePlatform blankMachine) := by
    rintro ⟨-, ⟨spawned, -⟩, -, -⟩
    cases spawned
  exact not_recovered rfl rfl (List.cons_ne_nil _ _) rfl rfl written unfilled
    (recovers statePlatform stateDisk stateLuks (stateBoot cutAfterHeader)
      (stateBoot Plan.allDone) blankMachine rfl rfl (List.cons_ne_nil _ _) rfl rfl rfl works)

end Recovery

end NodeOs.Initd.DiskRecovery
