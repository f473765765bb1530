import NodeOs.Initd.DiskRecovery
import NodeOs.Initd.PlainDisks

/-!
# Disks that were provisioned are unlocked

A first boot that goes through seals a key of its own for every disk. Later
boots leave the headers and the keys alone, and one in which nothing fails
unlocks each disk with the key of its own NV index.
-/

namespace NodeOs.Initd.DiskUnlock

open NodeOs.Library.FaultPlan NodeOs.Library.FaultPlan.Proc
open NodeOs.Initd.DiskTools NodeOs.Initd.Disks NodeOs.Initd.DiskCalls NodeOs.Initd.TpmCalls
open NodeOs.Initd.DiskFrames NodeOs.Initd.DiskVisits
open NodeOs.Initd.PlainDisks (afterBoots)

/-- Two disks share neither a device nor a mapper name nor an NV index. -/
structure Distinct (disk other : Disk) : Prop where
  device : disk.device ≠ other.device
  volume : ∀ luks foreign, disk.encrypt = some luks → other.encrypt = some foreign →
    luks.name ≠ foreign.name ∧ luks.tpmNvIndex ≠ foreign.tpmNvIndex

/-- All disks are encrypted, each with a device, a name and an NV index of its own. -/
structure Separate (disks : List Disk) : Prop where
  encrypted : ∀ disk ∈ disks, disk.encrypt ≠ none
  distinct : disks.Pairwise Distinct

theorem Distinct.symm {disk other : Disk} (apart : Distinct disk other) : Distinct other disk where
  device := apart.device.symm
  volume := by
    intro luks foreign here there
    obtain ⟨name, index⟩ := apart.volume foreign luks there here
    exact ⟨name.symm, index.symm⟩

theorem Separate.at {disks : List Disk} {first second : Nat} {disk other : Disk}
    (separate : Separate disks) (here : disks[first]? = some disk)
    (there : disks[second]? = some other) (apart : first ≠ second) : Distinct disk other := by
  obtain ⟨inside, rfl⟩ := List.getElem?_eq_some_iff.mp here
  obtain ⟨within, rfl⟩ := List.getElem?_eq_some_iff.mp there
  have ordered := List.pairwise_iff_getElem.mp separate.distinct
  rcases Nat.lt_or_gt_of_ne apart with before | after
  · exact ordered first second inside within before
  · exact (ordered second first within inside after).symm

theorem Separate.luks {disks : List Disk} {index : Nat} {disk : Disk} (separate : Separate disks)
    (listed : disks[index]? = some disk) : ∃ luks, disk.encrypt = some luks :=
  Option.ne_none_iff_exists'.mp (separate.encrypted disk (List.mem_of_getElem? listed))

/-- What a provisioning settles besides the key. -/
structure Volume where
  guard : Guard
  made : Filesystem
  flags : Nat

/-- How a boot provisions the disk, and how the disk is mounted from then on. -/
structure Settles (platform : Platform) (boot : Boot) (draw : Draw) (disk : Disk) (luks : Luks)
    (volume : Volume) : Prop where
  possible : platform.devtmpfsControl = true ∨ dmMinor platform.misc ≠ none
  guarded : guardOf boot luks.pcrs = some volume.guard
  filled : madeBy platform draw disk = some volume.made
  mounts : Mounts platform disk (.mapper luks.name) volume.made.format.kind volume.flags

/-- The key of the header is in the disk's own NV index. -/
structure Sealed (disk : Disk) (luks : Luks) (key : Key) (volume : Volume) (machine : Machine) :
    Prop where
  contents : machine.contents disk.device = .luks key (some volume.made)
  nv : machine.nv luks.tpmNvIndex = some ⟨volume.guard, some key⟩

def Volume.mounted (volume : Volume) (disk : Disk) (luks : Luks) : Mounted :=
  mountedAs disk (.mapper luks.name) volume.flags volume.made

variable {platform : Platform} {first : Boot} {disks : List Disk} {index : Nat} {disk : Disk}
  {luks : Luks} {machine : Machine}

theorem Settles.unique {boot : Boot} {draw : Draw} {volume other : Volume}
    (settles : Settles platform boot draw disk luks volume)
    (again : Settles platform boot draw disk luks other) : other = volume := by
  have guard := Option.some.inj (again.guarded.symm.trans settles.guarded)
  have made := Option.some.inj (again.filled.symm.trans settles.filled)
  have flags : other.flags = volume.flags := by
    have same := again.mounts.flagged.symm.trans settles.mounts.flagged
    injection same
  cases other
  cases volume
  simp_all

theorem Sealed.congr {key : Key} {volume : Volume} {other : Machine}
    (kept : Sealed disk luks key volume machine) (same : durable other = durable machine) :
    Sealed disk luks key volume other where
  contents := (congrFun (congrArg Prod.fst same) _).trans kept.contents
  nv := (congrFun (congrArg Prod.snd same) _).trans kept.nv

section FirstBoot

/-- The boot's visit to the disk has gone through. -/
def Provisioned (platform : Platform) (boot : Boot) (draw : Draw) (disk : Disk) (luks : Luks)
    (machine : Machine) : Prop :=
  ∃ volume, Settles platform boot draw disk luks volume ∧ Sealed disk luks draw.key volume machine ∧
    formatEvent disk draw.key ∈ machine.log ∧ volume.mounted disk luks ∈ machine.mounts

/-- The first boot has gone through up to this position. -/
structure FirstReached (platform : Platform) (first : Boot) (disks : List Disk) (index : Nat)
    (machine : Machine) : Prop where
  behind : ∀ position disk luks, position < index → disks[position]? = some disk →
    disk.encrypt = some luks →
      Provisioned platform first (first.draws position) disk luks machine
  ahead : ∀ position disk, index ≤ position → disks[position]? = some disk →
    machine.contents disk.device = .blank
  control : machine.dmControl = true →
    platform.devtmpfsControl = true ∨ dmMinor platform.misc ≠ none

theorem logged_endures (event : Event) :
    Endures (fun machine => event ∈ machine.log) disk luks where
  noted := fun _ _ _ holds => List.mem_append_left _ holds
  passing := fun _ _ same holds => same.2.2.2.2 ▸ holds
  headed := fun _ _ holds => holds
  opened := fun _ holds => holds
  filled := fun _ _ _ _ _ holds => holds
  stored := fun _ _ holds => holds

theorem apply_disk_logged {boot : Boot} {draw : Draw} {event : Event}
    (encrypted : disk.encrypt = some luks) :
    Preserves (fun machine => event ∈ machine.log) (applyDisk platform boot draw disk) := by
  unfold applyDisk openDisk
  rw [encrypted]
  exact .bind (logged_endures event).open_encrypted fun source =>
    mount_disk_preserves fun _ _ _ _ holds => holds

theorem first_visit {after : Machine} (separate : Separate disks)
    (listed : disks[index]? = some disk) (reached : FirstReached platform first disks index machine)
    (ran : (visit platform first index disk).run first.plan machine = (.ok (), after)) :
    FirstReached platform first disks (index + 1) after := by
  obtain ⟨luks, encrypted⟩ := separate.luks listed
  let plan := first.plan.at fun label => (index, label)
  have run : (applyDisk platform first (first.draws index) disk).run plan machine =
      (.ok (), after) := ran
  have returned : ((applyDisk platform first (first.draws index) disk).run plan machine).1 =
      .ok () := congrArg Prod.fst run
  obtain ⟨possible, -, guard, made, flags, next, guarded, filled, mounts, leaves, left⟩ :=
    apply_blank_ok encrypted (reached.ahead index disk (Nat.le_refl _) listed) returned
  have control : platform.devtmpfsControl = true ∨ dmMinor platform.misc ≠ none :=
    possible.elim reached.control Or.inr
  have logged (event : Event) (present : event ∈ machine.log) : event ∈ after.log := by
    have kept : event ∈ ((applyDisk platform first (first.draws index) disk).run plan
        machine).2.log := apply_disk_logged encrypted plan machine present
    rwa [run] at kept
  obtain rfl : { next with
      mounts := next.mounts ++ [mountedAs disk (.mapper luks.name) flags made] } = after :=
    congrArg Prod.snd (left.symm.trans run)
  constructor
  · intro position other foreign passed there sealing
    rcases Nat.lt_succ_iff_lt_or_eq.mp passed with earlier | rfl
    · have apart := separate.at there listed (Nat.ne_of_lt earlier)
      obtain ⟨volume, settles, kept, formatted, mounted⟩ :=
        reached.behind position other foreign earlier there sealing
      refine ⟨volume, settles, ⟨?_, ?_⟩, logged _ formatted, List.mem_append_left _ ?_⟩
      · rw [← kept.contents]
        exact (congrFun leaves.contents _).trans (Function.update_of_ne apart.device _ _)
      · rw [← kept.nv]
        exact (congrFun leaves.nv _).trans
          (Function.update_of_ne (apart.volume foreign luks sealing encrypted).2 _ _)
      · exact leaves.mounts ▸ mounted
    · obtain rfl := Option.some.inj (listed.symm.trans there)
      obtain rfl := Option.some.inj (encrypted.symm.trans sealing)
      refine ⟨⟨guard, made, flags⟩, ⟨control, guarded, filled, mounts⟩, ⟨?_, ?_⟩, leaves.logged,
        List.mem_append_right _ (List.mem_singleton_self _)⟩
      · exact (congrFun leaves.contents _).trans (Function.update_self _ _ _)
      · exact (congrFun leaves.nv _).trans (Function.update_self _ _ _)
  · intro position other later there
    have apart := separate.at there listed (Nat.ne_of_gt later)
    rw [← reached.ahead position other (Nat.le_of_succ_le later) there]
    exact (congrFun leaves.contents _).trans (Function.update_of_ne apart.device _ _)
  · exact fun _ => control

theorem first_boot_reached (separate : Separate disks)
    (blank : ∀ disk ∈ disks, machine.contents disk.device = .blank)
    (returned : (bootDisks platform disks first machine).1 = .ok ()) :
    FirstReached platform first disks disks.length (bootDisks platform disks first machine).2 := by
  have start : FirstReached platform first disks 0 (powerOn platform machine) :=
    ⟨fun _ _ _ passed => absurd passed (Nat.not_lt_zero _),
      fun _ disk _ listed => blank disk (List.mem_of_getElem? listed), Or.inl⟩
  have looped : Meets first.plan (FirstReached platform first disks 0)
      (each (visit platform first) 0 disks)
      (fun _ => FirstReached platform first disks (0 + disks.length)) (fun _ _ => True)
      (fun _ => True) := by
    apply Meets.each_forward
    intro index disk listed machine reached
    cases ran : (visit platform first (0 + index) disk).run first.plan machine with
    | mk outcome after =>
        cases outcome with
        | ok value => exact first_visit separate (by rwa [Nat.zero_add]) reached ran
        | err error => trivial
        | killed => trivial
  have ended := looped (powerOn platform machine) start
  rw [Nat.zero_add] at ended
  unfold bootDisks applyDisks at returned ⊢
  obtain ⟨done, finished, -⟩ := (run_bind_ok_iff ..).mp returned
  rw [run_bind_pure_state]
  cases ran : (each (visit platform first) 0 disks).run first.plan (powerOn platform machine) with
  | mk outcome after =>
      rw [ran] at finished ended
      cases finished
      exact ended

end FirstBoot

section Between

/-- Every disk carries a header. -/
def Headed (disks : List Disk) (machine : Machine) : Prop :=
  ∀ disk ∈ disks, (machine.contents disk.device).isLuks = true

/-- Where `isLuks` does not fail on a header, the visit can only unlock. -/
theorem visit_keeps_durable {boot : Boot} {draw : Draw} {plan : Plan DiskStep}
    (encrypted : disk.encrypt = some luks)
    (header : (machine.contents disk.device).isLuks = true)
    (answered : ∀ extent, plan (.exit .isLuks) ≠ .fails extent) :
    durable ((applyDisk platform boot draw disk).run plan machine).2 = durable machine := by
  have examining : Keeps durable (examine platform disk luks) := examine_keeps durable_blind
  rw [apply_disk_durable encrypted, openEncrypted]
  by_cases returned : ∃ answer, ((examine platform disk luks).run plan machine).1 = .ok answer
  · obtain ⟨answer, returned⟩ := returned
    obtain rfl : answer = true := by
      have answers := ((examine_ok_iff answer).mp returned).answer
      unfold Answers at answers
      cases fate : plan (.exit .isLuks) with
      | done => simpa [fate, header] using answers
      | fails extent => exact absurd fate (answered extent)
      | killed extent => simp [fate] at answers
    have unlocking : Keeps durable (unlock boot disk luks) := by
      refine .bind (durable_lasting.tpm_nv_read luks.pcrs) fun _ => ?_
      exact .bind (.attempt (luks_open_keeps _ _)) fun _ =>
        .bind (remove_key_keeps durable_lasting) fun _ => .ofExcept _
    rw [run_bind_of_ok _ _ returned, run_bind_pure_state, openVolume, if_pos rfl, unlocking,
      examining]
  · rw [(run_bind_of_not_ok _ _ _ fun answer stopped => returned ⟨answer, stopped⟩).1, examining]

theorem boot_keeps_durable {boot : Boot} (separate : Separate disks) (headed : Headed disks machine)
    (answered : ∀ index extent, boot.plan (index, .exit .isLuks) ≠ .fails extent) :
    durable (bootDisks platform disks boot machine).2 = durable machine := by
  have visited (index : Nat) (disk : Disk) (listed : disks[index]? = some disk) (other : Machine)
      (same : durable other = durable machine) :
      durable ((visit platform boot (0 + index) disk).run boot.plan other).2 = durable machine := by
    obtain ⟨luks, encrypted⟩ := separate.luks listed
    have header : (other.contents disk.device).isLuks = true := by
      have contents : other.contents = machine.contents := congrArg Prod.fst same
      rw [contents]
      exact headed disk (List.mem_of_getElem? listed)
    rw [← same]
    exact visit_keeps_durable encrypted header (answered (0 + index))
  unfold bootDisks applyDisks
  rw [run_bind_pure_state]
  exact each_preserves 0 disks visited (powerOn platform machine) rfl

theorem boots_keep_durable {boots : List Boot} (separate : Separate disks)
    (headed : Headed disks machine)
    (answered : ∀ boot ∈ boots, ∀ index extent, boot.plan (index, .exit .isLuks) ≠ .fails extent) :
    durable (afterBoots platform disks boots machine) = durable machine := by
  induction boots generalizing machine with
  | nil => rfl
  | cons boot later ih =>
      have kept : durable (bootDisks platform disks boot machine).2 = durable machine :=
        boot_keeps_durable separate headed (answered boot List.mem_cons_self)
      have still : Headed disks (bootDisks platform disks boot machine).2 := by
        intro disk listed
        have contents : (bootDisks platform disks boot machine).2.contents = machine.contents :=
          congrArg Prod.fst kept
        rw [contents]
        exact headed disk listed
      exact (ih still fun other listed => answered other (List.mem_cons_of_mem _ listed)).trans kept

end Between

section LaterBoot

variable {later : Boot} {start : Machine}

/-- A boot in which nothing fails has gone through up to this position. -/
structure LaterReached (platform : Platform) (first : Boot) (disks : List Disk) (start : Machine)
    (index : Nat) (machine : Machine) : Prop where
  kept : durable machine = durable start
  control : machine.dmControl = platform.devtmpfsControl ∨ machine.dmControl = true
  mapped : ∀ entry ∈ machine.mapped, ∃ position disk luks, position < index ∧
    disks[position]? = some disk ∧ disk.encrypt = some luks ∧ entry = (luks.name, disk.device)
  sources : ∀ mounted ∈ machine.mounts, ∃ name, mounted.source = .mapper name
  tools : ∀ event ∈ machine.log, event.tool ∈ examineTools ++ unlockTools
  behind : ∀ position disk luks volume, position < index → disks[position]? = some disk →
    disk.encrypt = some luks →
      Settles platform first (first.draws position) disk luks volume →
        ReadThenOpened disk luks (first.draws position).key machine.log ∧
          volume.mounted disk luks ∈ machine.mounts

theorem LaterReached.free (separate : Separate disks) (listed : disks[index]? = some disk)
    (encrypted : disk.encrypt = some luks)
    (reached : LaterReached platform first disks start index machine) :
    machine.inUse disk.device = false ∧ machine.mapped.lookup luks.name = none := by
  have others (entry : String × String) (present : entry ∈ machine.mapped) :
      entry.2 ≠ disk.device ∧ luks.name ≠ entry.1 := by
    obtain ⟨position, other, foreign, earlier, there, sealing, rfl⟩ := reached.mapped entry present
    have apart := separate.at there listed (Nat.ne_of_lt earlier)
    exact ⟨apart.device, (apart.volume foreign luks sealing encrypted).1.symm⟩
  constructor
  · simp only [Machine.inUse, Bool.or_eq_false_iff, List.any_eq_false, beq_iff_eq]
    constructor
    · exact fun entry present => (others entry present).1
    · intro mounted present
      obtain ⟨name, source⟩ := reached.sources mounted present
      simp [source]
  · rw [List.lookup_eq_none_iff]
    intro entry present
    simpa using (others entry present).2

theorem later_visit {volume : Volume} (separate : Separate disks)
    (clean : later.plan = Plan.allDone) (same : later.pcrs = first.pcrs)
    (listed : disks[index]? = some disk) (encrypted : disk.encrypt = some luks)
    (settles : Settles platform first (first.draws index) disk luks volume)
    (held : Sealed disk luks (first.draws index).key volume start)
    (reached : LaterReached platform first disks start index machine) :
    ∃ after, (visit platform later index disk).run later.plan machine = (.ok (), after) ∧
      LaterReached platform first disks start (index + 1) after := by
  have possible : ControlPossible platform machine := by
    rcases reached.control with unmade | made
    · exact settles.possible.imp unmade.trans id
    · exact Or.inl made
  obtain ⟨free, unnamed⟩ := reached.free separate listed encrypted
  have present := held.congr reached.kept
  have guarded : guardOf later luks.pcrs = some volume.guard :=
    (DiskRecovery.guard_of_congr same _).trans settles.guarded
  obtain ⟨next, run, leaves⟩ := open_luks_run (later.draws index) machine possible guarded
    present.nv present.contents free unnamed
  have seen : next.volume (.mapper luks.name) = some volume.made :=
    leaves.volume_seen present.contents unnamed
  have plan : later.plan.at (fun label => (index, label)) = Plan.allDone := by
    rw [clean]
    rfl
  refine ⟨{ next with mounts := next.mounts ++ [volume.mounted disk luks] }, ?_, ?_⟩
  · rw [visit, run_relabel, plan]
    exact apply_encrypted_run encrypted run settles.mounts seen rfl rfl
  obtain ⟨events, grown, known, read⟩ := leaves.grown
  constructor
  · rw [← reached.kept]
    exact Prod.ext leaves.contents leaves.nv
  · exact Or.inr leaves.control
  · intro entry mapped
    rw [leaves.mapped] at mapped
    rcases List.mem_append.mp mapped with earlier | last
    · obtain ⟨position, other, foreign, before, there⟩ := reached.mapped entry earlier
      exact ⟨position, other, foreign, Nat.lt_succ_of_lt before, there⟩
    · exact ⟨index, disk, luks, Nat.lt_succ_self index, listed, encrypted,
        List.mem_singleton.mp last⟩
  · intro mounted present
    rcases List.mem_append.mp present with earlier | last
    · rw [leaves.mounts] at earlier
      exact reached.sources mounted earlier
    · rw [List.mem_singleton.mp last]
      exact ⟨luks.name, rfl⟩
  · intro event present
    rw [show ({ next with mounts := _ } : Machine).log = machine.log ++ events from grown]
      at present
    rcases List.mem_append.mp present with earlier | last
    · exact reached.tools event earlier
    · exact known event last
  · intro position other foreign found passed there sealing settled
    have log : next.log = [] ++ machine.log ++ events := grown
    rcases Nat.lt_succ_iff_lt_or_eq.mp passed with earlier | rfl
    · obtain ⟨opened, mounted⟩ := reached.behind position other foreign found earlier there sealing
        settled
      refine ⟨?_, List.mem_append_left _ (leaves.mounts ▸ mounted)⟩
      exact log ▸ opened.inside [] events
    · obtain rfl := Option.some.inj (listed.symm.trans there)
      obtain rfl := Option.some.inj (encrypted.symm.trans sealing)
      obtain rfl := settles.unique settled
      refine ⟨?_, List.mem_append_right _ (List.mem_singleton_self _)⟩
      have opened := read.inside machine.log []
      rw [List.append_nil, ← grown] at opened
      exact opened

theorem later_boot_reached (separate : Separate disks) (clean : later.plan = Plan.allDone)
    (same : later.pcrs = first.pcrs)
    (held : ∀ index disk luks, disks[index]? = some disk → disk.encrypt = some luks →
      ∃ volume, Settles platform first (first.draws index) disk luks volume ∧
        Sealed disk luks (first.draws index).key volume machine) :
    (bootDisks platform disks later machine).1 = .ok () ∧
      LaterReached platform first disks (powerOn platform machine) disks.length
        (bootDisks platform disks later machine).2 := by
  have start : LaterReached platform first disks (powerOn platform machine) 0
      (powerOn platform machine) := by
    refine ⟨rfl, Or.inl rfl, ?_, ?_, ?_, ?_⟩
    · simp [powerOn]
    · simp [powerOn]
    · simp [powerOn]
    · exact fun _ _ _ _ passed => absurd passed (Nat.not_lt_zero _)
  have looped : Meets later.plan (LaterReached platform first disks (powerOn platform machine) 0)
      (each (visit platform later) 0 disks)
      (fun _ => LaterReached platform first disks (powerOn platform machine) (0 + disks.length))
      (fun _ _ => False) (fun _ => False) := by
    apply Meets.each_forward
    intro index disk listed before reached
    rw [Nat.zero_add] at reached ⊢
    obtain ⟨luks, encrypted⟩ := separate.luks listed
    obtain ⟨volume, settles, found⟩ := held index disk luks listed encrypted
    have kept : Sealed disk luks (first.draws index).key volume (powerOn platform machine) :=
      ⟨found.contents, found.nv⟩
    obtain ⟨after, run, next⟩ :=
      later_visit separate clean same listed encrypted settles kept reached
    rw [run]
    exact next
  have ended := looped (powerOn platform machine) start
  rw [Nat.zero_add] at ended
  rw [bootDisks, applyDisks, run_bind]
  cases ran : (each (visit platform later) 0 disks).run later.plan (powerOn platform machine) with
  | mk outcome after =>
      rw [ran] at ended
      cases outcome with
      | ok made => exact ⟨rfl, ended⟩
      | err error => exact ended.elim
      | killed => exact ended.elim

end LaterBoot

/-- After a first boot that has gone through, a boot with the same PCR values in
which nothing fails unlocks every disk with the key that it was formatted with,
read from its own NV index, and mounts the filesystem that was made then. In
between there may be any boots in which `isLuks` does not fail. -/
theorem provisioned_disks_unlock (platform : Platform) (disks : List Disk) (machine : Machine)
    (first later : Boot) (between : List Boot) (separate : Separate disks)
    (blank : ∀ disk ∈ disks, machine.contents disk.device = .blank)
    (returned : (bootDisks platform disks first machine).1 = .ok ())
    (answered : ∀ boot ∈ between, ∀ index extent,
      boot.plan (index, .exit .isLuks) ≠ .fails extent)
    (clean : later.plan = Plan.allDone) (same : later.pcrs = first.pcrs) :
    let provisioned := (bootDisks platform disks first machine).2
    let final := bootDisks platform disks later (afterBoots platform disks between provisioned)
    final.1 = .ok () ∧
      (∀ event ∈ final.2.log, event.tool ∉ [Tool.luksFormat, .nvUndefine, .mkfs]) ∧
      ∀ index disk luks, disks[index]? = some disk → disk.encrypt = some luks →
        formatEvent disk (first.draws index).key ∈ provisioned.log ∧
          ReadThenOpened disk luks (first.draws index).key final.2.log ∧
          ∃ mounted ∈ provisioned.mounts, mounted.source = .mapper luks.name ∧
            mounted.target = disk.target ∧
            madeBy platform (first.draws index) disk = some mounted.made ∧
            mounted ∈ final.2.mounts := by
  intro provisioned final
  have reached := first_boot_reached separate blank returned
  have settled (index : Nat) (disk : Disk) (luks : Luks) (listed : disks[index]? = some disk)
      (encrypted : disk.encrypt = some luks) :
      Provisioned platform first (first.draws index) disk luks provisioned :=
    reached.behind index disk luks (List.getElem?_eq_some_iff.mp listed).1 listed encrypted
  have headed : Headed disks provisioned := by
    intro disk listed
    obtain ⟨index, listed⟩ := List.mem_iff_getElem?.mp listed
    obtain ⟨luks, encrypted⟩ := separate.luks listed
    obtain ⟨volume, -, held, -⟩ := settled index disk luks listed encrypted
    rw [held.contents]
    rfl
  have kept : durable (afterBoots platform disks between provisioned) = durable provisioned :=
    boots_keep_durable separate headed answered
  obtain ⟨ended, unlocked⟩ := later_boot_reached separate clean same
    fun index disk luks listed encrypted => by
      obtain ⟨volume, settles, held, -⟩ := settled index disk luks listed encrypted
      exact ⟨volume, settles, held.congr kept⟩
  refine ⟨ended, ?_, ?_⟩
  · have harmless : ∀ tool ∈ examineTools ++ unlockTools,
        tool ∉ [Tool.luksFormat, .nvUndefine, .mkfs] := by decide
    exact fun event present => harmless event.tool (unlocked.tools event present)
  · intro index disk luks listed encrypted
    obtain ⟨volume, settles, -, formatted, mounted⟩ := settled index disk luks listed encrypted
    obtain ⟨opened, again⟩ := unlocked.behind index disk luks volume
      (List.getElem?_eq_some_iff.mp listed).1 listed encrypted settles
    exact ⟨formatted, opened, volume.mounted disk luks, mounted, rfl, rfl, settles.filled, again⟩

def dataLuks : Luks := ⟨"containers", "0x01500002", some "sha256:7"⟩

def dataDisk : Disk :=
  ⟨"/dev/vdb", "/var/lib/containers", "ext4", ["nodev"], true, ["/sbin/mkfs.ext4"], some dataLuks⟩

def nodeDisks : List Disk := [DiskRecovery.stateDisk, dataDisk]

/-- A boot in which nothing fails, with a key of its own for each disk. -/
def nodeBoot : Boot where
  pcrs := fun _ => some [0]
  draws := fun index => ⟨⟨List.replicate 32 (UInt8.ofNat index), rfl⟩, index⟩
  plan := Plan.allDone

theorem node_disks_separate : Separate nodeDisks := by
  refine ⟨by decide, ?_⟩
  rw [nodeDisks, List.pairwise_pair]
  refine ⟨by decide, ?_⟩
  intro luks foreign here there
  cases here
  cases there
  decide

theorem provisioned_disks_unlock_sample :
    (bootDisks DiskRecovery.statePlatform nodeDisks nodeBoot DiskRecovery.blankMachine).1 =
        .ok () ∧
      (bootDisks DiskRecovery.statePlatform nodeDisks nodeBoot
        (bootDisks DiskRecovery.statePlatform nodeDisks nodeBoot
          DiskRecovery.blankMachine).2).1 = .ok () :=
  ⟨rfl, (provisioned_disks_unlock DiskRecovery.statePlatform nodeDisks DiskRecovery.blankMachine
    nodeBoot nodeBoot [] node_disks_separate (fun _ _ => rfl) rfl (by simp) rfl rfl).1⟩

end NodeOs.Initd.DiskUnlock
