import NodeOs.Initd.DiskCalls

/-!
# What a call for one disk leaves alone

A fact about the machine endures a call if it endures each kind of change that
the call can make: to its own device, its own NV index and its own mapping, to
what is gone at power-on, and to the log.
-/

namespace NodeOs.Initd.DiskFrames

open NodeOs.Library.FaultPlan NodeOs.Library.FaultPlan.Proc
open NodeOs.Initd.DiskTools NodeOs.Initd.Disks NodeOs.Initd.DiskCalls

/-- The event is the start of a `mkfs` on this path. -/
def formatsAt (path : String) : Event → Bool
  | .tried .mkfs args _ true => args.getLast? == some path
  | _ => false

/-- What the machine keeps beside its registers and files. -/
def SameVolumes (machine other : Machine) : Prop :=
  other.contents = machine.contents ∧ other.nv = machine.nv ∧ other.mapped = machine.mapped ∧
    other.mounts = machine.mounts ∧ other.log = machine.log

/-- `kept` endures a call for this encrypted disk. -/
structure Endures (kept : Machine → Prop) (disk : Disk) (luks : Luks) : Prop where
  noted : ∀ machine event,
    (∀ path, formatsAt path event = true → path = (Source.mapper luks.name).path) →
      kept machine → kept (machine.note event)
  passing : ∀ machine other, SameVolumes machine other → kept machine → kept other
  headed : ∀ machine key, kept machine → kept (machine.fill disk.device (.luks key none))
  opened : ∀ machine, kept machine →
    kept { machine with mapped := machine.mapped ++ [(luks.name, disk.device)] }
  filled : ∀ machine device key made, machine.mapped.lookup luks.name = some device →
    kept machine → kept (machine.fill device (.luks key (some made)))
  stored : ∀ machine held, kept machine → kept (machine.setNv luks.tpmNvIndex held)

section Rules

variable {kept : Machine → Prop}

theorem run_preserves {tool : Tool} {args : List String} {effect : Machine → Option Machine}
    (error failure : Error)
    (tried : ∀ machine started, kept machine → kept (machine.attempt tool args started))
    (succeeded : ∀ machine, kept machine → kept (machine.note (.succeeded tool)))
    (taken : ∀ machine next, effect machine = some next → kept machine → kept next) :
    Preserves kept (spawn tool error args >>= fun _ => wait tool failure effect) := by
  refine .bind ?_ fun _ => .bind (.act _ _ taken) fun _ plan machine => succeeded machine
  exact .step (fun machine => tried machine true) fun _ machine => tried machine false

/-- The only start it logs is that of a `mkfs` on its target. -/
theorem run_mkfs_preserves {platform : Platform} {draw : Draw} {disk : Disk} {source : Source}
    {command : String} {args : List String}
    (noted : ∀ machine event, (∀ path, formatsAt path event = true → path = source.path) →
      kept machine → kept (machine.note event))
    (filled : ∀ machine next, machine.formatted source (madeBy platform draw disk) = some next →
      kept machine → kept next) :
    Preserves kept (runMkfs platform draw disk source command args) := by
  apply run_preserves
  · intro machine started
    apply noted
    intro path formats
    cases started with
    | false => cases formats
    | true =>
        simp only [formatsAt, List.getLast?_append, List.getLast?_singleton, Option.some_or,
          beq_iff_eq, Option.some.injEq] at formats
        exact formats.symm
  · intro machine
    apply noted
    intro path formats
    cases formats
  · exact filled

end Rules

namespace Endures

variable {kept : Machine → Prop} {disk : Disk} {luks : Luks} {platform : Platform} {boot : Boot}
  {draw : Draw}

/-- A tool other than `mkfs`. -/
theorem tool (endures : Endures kept disk luks) {tool : Tool} {program : String}
    {args : List String} {effect : Machine → Option Machine} (other : tool ≠ .mkfs)
    (taken : ∀ machine next, effect machine = some next → kept machine → kept next) :
    Preserves kept (runTool tool program args effect) := by
  apply run_preserves _ _ _ _ taken
  · intro machine started
    apply endures.noted
    intro path formats
    cases tool <;> first | cases formats | exact absurd rfl other
  · intro machine
    apply endures.noted
    intro path formats
    cases formats

/-- An effect on registers and files only. -/
theorem register (endures : Endures kept disk luks) {effect : Machine → Option Machine}
    (same : ∀ machine next, effect machine = some next → SameVolumes machine next)
    (machine next : Machine) (taken : effect machine = some next) (holds : kept machine) :
    kept next :=
  endures.passing machine next (same machine next taken) holds

theorem ensure_dm_control (endures : Endures kept disk luks) :
    Preserves kept (ensureDmControl platform) :=
  ensure_dm_control_preserves fun machine =>
    endures.passing machine _ ⟨rfl, rfl, rfl, rfl, rfl⟩

theorem is_luks (endures : Endures kept disk luks) (device : String) :
    Preserves kept (isLuks device) := by
  have silent (event : Event) (quiet : event.tool = .isLuks) (machine : Machine) :
      kept machine → kept (machine.note event) := by
    apply endures.noted
    intro path formats
    cases event with
    | succeeded tool => cases formats
    | tried tool args file started =>
        cases quiet
        cases formats
  refine .bind (.step (fun machine => silent _ rfl machine) fun _ machine => silent _ rfl machine)
    fun _ => .bind (.attempt (.bind (.act _ _ ?_) fun _ _ machine => silent _ rfl machine))
      fun _ => .ret _
  intro machine next taken
  simp only [Option.ite_none_right_eq_some, Option.some.injEq] at taken
  rw [taken.2]
  exact id

theorem examine (endures : Endures kept disk luks) :
    Preserves kept (Disks.examine platform disk luks) := by
  have logged : Preserves kept (logPcrs luks.pcrs) := by
    apply Preserves.ignore
    refine endures.tool (by decide) ?_
    intro machine next taken
    rw [Option.some.inj taken]
    exact id
  exact .bind endures.ensure_dm_control fun _ => .bind logged fun _ => endures.is_luks _

theorem flushed (endures : Endures kept disk luks) {tool : Tool} (other : tool ≠ .mkfs)
    (program : String) : Preserves kept (runTool tool program [sessionFile] Machine.flushed) := by
  apply endures.tool other
  apply endures.register
  intro machine next taken
  obtain ⟨-, rfl⟩ := Machine.flushed_eq_some_iff.mp taken
  exact ⟨rfl, rfl, rfl, rfl, rfl⟩

theorem with_policy_session (endures : Endures kept disk luks) (selection : String)
    {operation : Disks Unit} (inner : Preserves kept operation) :
    Preserves kept (withPolicySession boot selection operation) := by
  have started : Preserves kept startPolicy := by
    refine endures.tool (by decide) ?_
    apply endures.register
    intro machine next taken
    rw [← Option.some.inj taken]
    exact ⟨rfl, rfl, rfl, rfl, rfl⟩
  have satisfied : Preserves kept (policyPcr boot selection) := by
    refine endures.tool (by decide) ?_
    apply endures.register
    intro machine next taken
    obtain ⟨session, read, -, -, rfl⟩ := (Machine.extended_eq_some_iff _ _).mp taken
    exact ⟨rfl, rfl, rfl, rfl, rfl⟩
  exact .bind started fun _ => .bind (.attempt (.bind satisfied fun _ => inner)) fun _ =>
    .bind (.ignore (endures.flushed (by decide) _)) fun _ => .ofExcept _

theorem then_remove_key (endures : Endures kept disk luks) {operation : Disks Unit}
    (inner : Preserves kept operation) : Preserves kept (thenRemoveKey operation) := by
  have removed : Preserves kept removeKey := by
    apply Preserves.ignore
    apply Preserves.act
    apply endures.register
    intro machine next taken
    obtain ⟨key, -, rfl⟩ := Option.map_eq_some_iff.mp taken
    exact ⟨rfl, rfl, rfl, rfl, rfl⟩
  exact .bind (.attempt inner) fun _ => .bind removed fun _ => .ofExcept _

theorem luks_open (endures : Endures kept disk luks) :
    Preserves kept (luksOpen disk.device luks.name) := by
  refine endures.tool (by decide) ?_
  intro machine next taken holds
  obtain ⟨key, inner, -, -, -, -, -, rfl⟩ := (Machine.luks_opened_eq_some_iff _ _).mp taken
  exact endures.opened machine holds

theorem unlock (endures : Endures kept disk luks) :
    Preserves kept (Disks.unlock boot disk luks) := by
  have released (pcrs : Option String) : Preserves kept (nvRead luks.tpmNvIndex pcrs) := by
    refine endures.tool (by decide) ?_
    apply endures.register
    intro machine next taken
    obtain ⟨held, key, -, -, -, rfl⟩ := (Machine.nv_released_eq_some_iff _ _).mp taken
    exact ⟨rfl, rfl, rfl, rfl, rfl⟩
  have read : Preserves kept (readKey boot luks.tpmNvIndex luks.pcrs) := by
    cases luks.pcrs with
    | none => exact released none
    | some selection => exact endures.with_policy_session selection (released _)
  exact .bind (.bind read fun _ => .check _ _) fun _ => endures.then_remove_key endures.luks_open

theorem compute_policy (endures : Endures kept disk luks) (selection : String) :
    Preserves kept (computePolicy boot selection) := by
  have read : Preserves kept (pcrRead boot selection) := by
    refine endures.tool (by decide) ?_
    apply endures.register
    intro machine next taken
    obtain ⟨values, -, rfl⟩ := Option.map_eq_some_iff.mp taken
    exact ⟨rfl, rfl, rfl, rfl, rfl⟩
  have started : Preserves kept startTrial := by
    refine endures.tool (by decide) ?_
    apply endures.register
    intro machine next taken
    rw [← Option.some.inj taken]
    exact ⟨rfl, rfl, rfl, rfl, rfl⟩
  have digested : Preserves kept (policyDigest selection) := by
    refine endures.tool (by decide) ?_
    apply endures.register
    intro machine next taken
    obtain ⟨later, extended, rfl⟩ := Option.map_eq_some_iff.mp taken
    obtain ⟨session, read, -, -, rfl⟩ := (Machine.extended_eq_some_iff _ _).mp extended
    exact ⟨rfl, rfl, rfl, rfl, rfl⟩
  exact .bind read fun _ => .bind started fun _ => .bind digested fun _ =>
    endures.flushed (by decide) _

theorem tpm_nv_store (endures : Endures kept disk luks) (pcrs : Option String) :
    Preserves kept (tpmNvStore boot luks.tpmNvIndex pcrs) := by
  have undefined : Preserves kept (nvUndefine luks.tpmNvIndex) := by
    apply Preserves.ignore
    refine endures.tool (by decide) ?_
    intro machine next taken holds
    obtain ⟨-, rfl⟩ := (Machine.nv_undefined_eq_some_iff _).mp taken
    exact endures.stored machine none holds
  have guarded (guard : Guard) (machine next : Machine)
      (taken : machine.nvDefined luks.tpmNvIndex guard = some next) (holds : kept machine) :
      kept next := by
    obtain ⟨-, rfl⟩ := (Machine.nv_defined_eq_some_iff _ _).mp taken
    exact endures.stored machine _ holds
  have defined : Preserves kept (nvDefine luks.tpmNvIndex pcrs) := by
    refine endures.tool (by decide) ?_
    intro machine next taken
    cases pcrs with
    | none => exact guarded _ machine next taken
    | some selection =>
        obtain ⟨digest, -, found⟩ := Option.bind_eq_some_iff.mp taken
        exact guarded _ machine next found
  have written : Preserves kept (nvWrite luks.tpmNvIndex pcrs) := by
    refine endures.tool (by decide) ?_
    intro machine next taken holds
    obtain ⟨held, key, -, -, -, rfl⟩ := (Machine.nv_written_eq_some_iff _ _).mp taken
    exact endures.stored machine _ holds
  refine .bind undefined fun _ => ?_
  cases pcrs with
  | none => exact .bind defined fun _ => written
  | some selection =>
      exact .bind (endures.compute_policy selection) fun _ => .bind defined fun _ =>
        endures.with_policy_session selection written

theorem format_target (endures : Endures kept disk luks) :
    Preserves kept (formatTarget platform draw disk (.mapper luks.name)) := by
  unfold formatTarget
  cases disk.mkfs with
  | nil => exact .raise _
  | cons command args =>
      apply run_mkfs_preserves endures.noted
      intro machine next taken holds
      cases made : madeBy platform draw disk with
      | none =>
          rw [made, Machine.formatted_nothing] at taken
          rwa [← Option.some.inj taken]
      | some filesystem =>
          rw [made] at taken
          obtain ⟨device, key, inner, mapped, -, rfl⟩ :=
            (Machine.formatted_mapper_eq_some_iff _ _).mp taken
          exact endures.filled machine device key _ mapped holds

theorem provision (endures : Endures kept disk luks) :
    Preserves kept (Disks.provision platform boot draw disk luks) := by
  have drawn : Preserves kept (tpmGetrandom draw) := by
    refine .bind (endures.tool (by decide) (endures.register ?_)) fun _ => .check _ _
    intro machine next taken
    rw [← Option.some.inj taken]
    exact ⟨rfl, rfl, rfl, rfl, rfl⟩
  have formatted : Preserves kept (luksFormat disk.device) := by
    refine endures.tool (by decide) ?_
    intro machine next taken holds
    obtain ⟨key, -, -, rfl⟩ := (Machine.luks_formatted_eq_some_iff _).mp taken
    exact endures.headed machine key holds
  exact .bind drawn fun _ => .bind formatted fun _ => .bind endures.luks_open fun _ =>
    .bind (endures.tpm_nv_store _) fun _ => endures.format_target

/-- What endures each change endures the whole call. -/
theorem open_encrypted (endures : Endures kept disk luks) :
    Preserves kept (openEncrypted platform boot draw disk luks) := by
  refine .bind endures.examine fun carriesLuks => .bind ?_ fun _ => .ret _
  unfold openVolume
  cases carriesLuks with
  | true => exact endures.unlock
  | false =>
      cases disk.formatIfEmpty with
      | true => exact endures.then_remove_key endures.provision
      | false => exact .raise _

end Endures

/-- `kept` endures a call for a plain disk on this device. -/
structure EnduresPlain (kept : Machine → Prop) (device : String) : Prop where
  noted : ∀ machine event, (∀ path, formatsAt path event = true → path = device) →
    kept machine → kept (machine.note event)
  filled : ∀ machine made, kept machine → kept (machine.fill device (.filesystem made))

namespace EnduresPlain

variable {kept : Machine → Prop} {platform : Platform} {draw : Draw} {disk : Disk}

theorem format_disk (endures : EnduresPlain kept disk.device) :
    Preserves kept (formatDisk platform draw disk) := by
  unfold formatDisk
  cases disk.mkfs with
  | nil => exact .raise _
  | cons command args =>
      show Preserves kept (runMkfs platform draw disk (.device disk.device) command args)
      apply run_mkfs_preserves
      · exact endures.noted
      · intro machine next taken holds
        cases made : madeBy platform draw disk with
        | none =>
            rw [made, Machine.formatted_nothing] at taken
            rwa [← Option.some.inj taken]
        | some filesystem =>
            rw [made] at taken
            obtain ⟨-, rfl⟩ := (Machine.formatted_device_eq_some_iff _ _).mp taken
            exact endures.filled machine filesystem holds

theorem open_plain (endures : EnduresPlain kept disk.device) :
    Preserves kept (openPlain platform draw disk) := by
  have answered : Preserves kept (isFormatted disk.device) :=
    .of_keeps (is_formatted_keeps disk.device) fun before after same holds => by
      obtain rfl : after = before := same
      exact holds
  refine .bind ?_ fun _ => .ret _
  unfold formatIfBlank
  cases disk.formatIfEmpty with
  | false => exact .ret _
  | true =>
      refine .bind answered fun formatted => ?_
      cases formatted with
      | true => exact .ret _
      | false => exact endures.format_disk

end EnduresPlain

/-- The mount records what could be seen at the source. -/
theorem mount_disk_preserves {kept : Machine → Prop} {platform : Platform} {disk : Disk}
    {source : Source}
    (mounting : ∀ machine mounted, mounted.source = source →
      machine.volume source = some mounted.made → kept machine →
        kept { machine with mounts := machine.mounts ++ [mounted] }) :
    Preserves kept (mountDisk platform disk source) := by
  refine .bind (.check _ _) fun _ => .bind (.ofExcept _) fun flags => .mapError ?_
  refine .bind (.ofExcept _) fun _ => .bind (.ofExcept _) fun _ => .bind (.ofExcept _) fun _ =>
    .act _ _ ?_
  intro machine next taken
  obtain ⟨made, seen, allowed⟩ := Option.bind_eq_some_iff.mp taken
  simp only [Option.ite_none_right_eq_some, Option.some.injEq] at allowed
  rw [← allowed.2]
  exact mounting machine _ rfl seen

end NodeOs.Initd.DiskFrames
