import NodeOs.Initd.DiskCalls

/-!
# When an encrypted disk is formatted anew

The decision rests on what `cryptsetup isLuks` answers: a device that holds a
filesystem, and a LUKS device that `isLuks` could not read, are formatted like a
blank one.
-/

namespace NodeOs.Initd.DiskWipe

open NodeOs.Library.FaultPlan NodeOs.Library.FaultPlan.Proc
open NodeOs.Initd.DiskTools NodeOs.Initd.Disks NodeOs.Initd.DiskCalls

/-- The start of a tool that destroys what a volume or an NV index held. -/
def wipes (event : Event) : Bool :=
  event.starts == some .luksFormat || event.starts == some .nvUndefine

/-- Since the log was `base`, nothing has been wiped. -/
def Quiet (base : List Event) (machine : Machine) : Prop :=
  ∃ events, machine.log = base ++ events ∧ ∀ event ∈ events, wipes event = false

def Loud (base : List Event) (machine : Machine) : Prop :=
  ∃ events, machine.log = base ++ events ∧ ∃ event ∈ events, wipes event = true

theorem quiet_start (machine : Machine) : Quiet machine.log machine :=
  ⟨[], (List.append_nil _).symm, by simp⟩

section Runs

variable {Value : Type} {tools : List Tool} {process : Disks Value}

/-- A process that starts no destructive tool wipes nothing. -/
theorem quiet_of_starts (starts : Starts tools process)
    (harmless : .luksFormat ∉ tools ∧ .nvUndefine ∉ tools) (base : List Event) :
    Preserves (Quiet base) process := by
  apply starts fun log => ∃ events, log = base ++ events ∧ ∀ event ∈ events, wipes event = false
  intro log event listed ⟨events, grown, kept⟩
  refine ⟨events ++ [event], by rw [grown, List.append_assoc], ?_⟩
  intro other present
  rcases List.mem_append.mp present with earlier | last
  · exact kept other earlier
  · rw [List.mem_singleton.mp last]
    cases event with
    | succeeded tool => rfl
    | tried tool args keyFile started =>
        cases started with
        | false => rfl
        | true =>
            have format : tool ≠ .luksFormat := fun same => harmless.1 (same ▸ listed)
            have undefine : tool ≠ .nvUndefine := fun same => harmless.2 (same ▸ listed)
            simp [wipes, Event.starts, format, undefine]

/-- Once an event that wipes is in the log, it stays there. -/
theorem loud_of_starts (starts : Starts tools process) (base : List Event) :
    Preserves (Loud base) process := by
  apply starts fun log => ∃ events, log = base ++ events ∧ ∃ event ∈ events, wipes event = true
  intro log event _ ⟨events, grown, found, present, wiping⟩
  refine ⟨events ++ [event], by rw [grown, List.append_assoc], found, ?_, wiping⟩
  exact List.mem_append_left _ present

end Runs

section Calls

variable {platform : Platform} {boot : Boot} {draw : Draw} {disk : Disk} {luks : Luks}
  {plan : Plan DiskStep} {machine : Machine}

/-- `luksFormat` is reached once `isLuks` has denied the header. -/
structure FormatReached (plan : Plan DiskStep) : Prop where
  drawn : Ran plan .getRandom
  secured : plan .chmodKey = .done
  started : plan (.spawn .luksFormat) = .done

theorem tpm_getrandom_ok_iff (value : Unit) :
    ((tpmGetrandom draw).run plan machine).1 = .ok value ↔
      Ran plan .getRandom ∧ plan .chmodKey = .done := by
  simp [tpmGetrandom, run_bind_ok_iff, run_tool_ok_iff, setPrivatePerms]

theorem luks_format_loud {base : List Event} (started : plan (.spawn .luksFormat) = .done)
    (quiet : Quiet base machine) :
    Loud base ((luksFormat disk.device).run plan machine).2 := by
  obtain ⟨events, grown, _⟩ := quiet
  rw [luksFormat, run_tool_spawned started]
  have waits : Starts [.luksFormat] (wait .luksFormat [s!"{cryptsetup} failed: {exitStatus}"]
      (Machine.luksFormatted disk.device)) :=
    .wait (by simp) _ (silent_luks_formatted _)
  apply loud_of_starts waits base
  refine ⟨events ++ [.tried .luksFormat (luksFormatArgs disk.device) machine.keyFile true], ?_,
    _, List.mem_append_right _ (List.mem_singleton_self _), rfl⟩
  rw [← List.append_assoc, ← grown]
  rfl

theorem luks_format_quiet {base : List Event} (unstarted : plan (.spawn .luksFormat) ≠ .done)
    (quiet : Quiet base machine) :
    Quiet base ((luksFormat disk.device >>= fun _ =>
      fillVolume platform boot draw disk luks).run plan machine).2 := by
  have stopped (value : Unit) : ((luksFormat disk.device).run plan machine).1 ≠ .ok value :=
    fun returned => unstarted ((run_tool_ok_iff value).mp returned).1.1
  rw [(run_bind_of_not_ok _ _ _ stopped).1, luksFormat, run_tool_unspawned unstarted]
  obtain ⟨events, grown, kept⟩ := quiet
  refine ⟨events ++ [.tried .luksFormat (luksFormatArgs disk.device) machine.keyFile false], ?_, ?_⟩
  · rw [← List.append_assoc, ← grown]
    rfl
  intro event present
  rcases List.mem_append.mp present with earlier | last
  · exact kept event earlier
  · rw [List.mem_singleton.mp last]
    rfl

theorem provision_wipes {base : List Event} (quiet : Quiet base machine) :
    (FormatReached plan → Loud base ((provision platform boot draw disk luks).run plan machine).2) ∧
      (¬FormatReached plan →
        Quiet base ((provision platform boot draw disk luks).run plan machine).2) := by
  have drawn := quiet_of_starts (tpm_getrandom_starts draw) (by decide) base plan machine quiet
  unfold provision
  constructor
  · intro reached
    have returned : ((tpmGetrandom draw).run plan machine).1 = .ok () :=
      (tpm_getrandom_ok_iff ()).mpr ⟨reached.drawn, reached.secured⟩
    rw [run_bind_of_ok _ _ returned]
    apply Preserves.after (luks_format_loud reached.started drawn)
    intro _
    exact loud_of_starts (fill_volume_starts platform boot draw disk luks) base
  · intro unreached
    by_cases returned : ((tpmGetrandom draw).run plan machine).1 = .ok ()
    · rw [run_bind_of_ok _ _ returned]
      apply luks_format_quiet _ drawn
      intro started
      obtain ⟨ran, secured⟩ := (tpm_getrandom_ok_iff ()).mp returned
      exact unreached ⟨ran, secured, started⟩
    · rw [(run_bind_of_not_ok _ _ _ fun _ => returned).1]
      exact drawn

theorem then_remove_key_after {invariant : Machine → Prop} {operation : Disks Unit}
    (reached : invariant (operation.run plan machine).2)
    (removed : Preserves invariant removeKey) :
    invariant ((thenRemoveKey operation).run plan machine).2 := by
  unfold thenRemoveKey
  refine Preserves.after ?_ fun result => .bind removed fun _ => .ofExcept result
  rw [run_attempt_state]
  exact reached

/-- `isLuks` denies a header, `formatIfEmpty` is set, and `luksFormat` is reached. -/
structure FormatStarts (platform : Platform) (disk : Disk) (plan : Plan DiskStep)
    (machine : Machine) : Prop where
  denied : Examined platform disk plan machine false
  wanted : disk.formatIfEmpty = true
  reached : FormatReached plan

/-- What is done once `isLuks` has answered. -/
theorem open_volume_wipes {base : List Event} (carriesLuks : Bool) (quiet : Quiet base machine) :
    (carriesLuks = false ∧ disk.formatIfEmpty = true ∧ FormatReached plan →
      Loud base ((openVolume platform boot draw disk luks carriesLuks).run plan machine).2) ∧
    (¬(carriesLuks = false ∧ disk.formatIfEmpty = true ∧ FormatReached plan) →
      Quiet base ((openVolume platform boot draw disk luks carriesLuks).run plan machine).2) := by
  unfold openVolume
  cases carriesLuks with
  | true =>
      simp only [Bool.true_eq_false, false_and, false_implies, not_false_iff, true_implies,
        true_and, if_true]
      exact quiet_of_starts (unlock_starts boot disk luks) (by decide) base plan machine quiet
  | false =>
      cases wanted : disk.formatIfEmpty with
      | false => simpa using quiet
      | true =>
          simp only [true_and, Bool.false_eq_true, if_false, if_true]
          constructor
          · intro reached
            apply then_remove_key_after _ (loud_of_starts remove_key_starts base)
            exact (provision_wipes quiet).1 reached
          · intro unreached
            apply then_remove_key_after _ (quiet_of_starts remove_key_starts (by decide) base)
            exact (provision_wipes quiet).2 unreached

/-- The call starts a tool that wipes. -/
def Wipes (platform : Platform) (boot : Boot) (draw : Draw) (disk : Disk) (luks : Luks)
    (plan : Plan DiskStep) (machine : Machine) : Prop :=
  ∃ event ∈ added machine ((openEncrypted platform boot draw disk luks).run plan machine).2,
    wipes event = true

theorem wipes_iff :
    Wipes platform boot draw disk luks plan machine ↔ FormatStarts platform disk plan machine := by
  have looked : Quiet machine.log ((examine platform disk luks).run plan machine).2 :=
    quiet_of_starts (examine_starts platform disk luks) (by decide) _ plan machine
      (quiet_start machine)
  have opened (carriesLuks : Bool)
      (answered : ((examine platform disk luks).run plan machine).1 = .ok carriesLuks) :
      ((openEncrypted platform boot draw disk luks).run plan machine).2 =
        ((openVolume platform boot draw disk luks carriesLuks).run plan
          ((examine platform disk luks).run plan machine).2).2 := by
    rw [openEncrypted, run_bind_of_ok _ _ answered, run_bind_pure_state]
  have loud (noisy : Loud machine.log ((openEncrypted platform boot draw disk luks).run plan
      machine).2) : Wipes platform boot draw disk luks plan machine := by
    obtain ⟨events, grown, wiped⟩ := noisy
    unfold Wipes
    rwa [added_of_append grown]
  have silent (still : Quiet machine.log ((openEncrypted platform boot draw disk luks).run plan
      machine).2) : ¬Wipes platform boot draw disk luks plan machine := by
    obtain ⟨events, grown, kept⟩ := still
    unfold Wipes
    rw [added_of_append grown]
    rintro ⟨event, present, wiping⟩
    rw [kept event present] at wiping
    cases wiping
  constructor
  · intro wiped
    by_contra spared
    apply silent _ wiped
    by_cases returned : ∃ answer, ((examine platform disk luks).run plan machine).1 = .ok answer
    · obtain ⟨answer, answered⟩ := returned
      rw [opened answer answered]
      apply (open_volume_wipes answer looked).2
      rintro ⟨rfl, wanted, reached⟩
      exact spared ⟨(examine_ok_iff false).mp answered, wanted, reached⟩
    · rw [openEncrypted, (run_bind_of_not_ok _ _ _ fun answer answered =>
        returned ⟨answer, answered⟩).1]
      exact looked
  · intro starts
    apply loud
    rw [opened false ((examine_ok_iff false).mpr starts.denied)]
    exact (open_volume_wipes false looked).1 ⟨rfl, starts.wanted, starts.reached⟩

end Calls

section Boots

/-- At this visit an encrypted disk is wiped only if it was blank. -/
def WipesOnlyBlank (platform : Platform) (boot : Boot) (index : Nat) (disk : Disk)
    (machine : Machine) : Prop :=
  ∀ luks, disk.encrypt = some luks →
    Wipes platform boot (boot.draws index) disk luks (boot.plan.at fun label => (index, label))
      machine → machine.contents disk.device = .blank

def BlankOrUnformatted (platform : Platform) (boot : Boot) (index : Nat) (disk : Disk)
    (machine : Machine) : Prop :=
  disk.encrypt ≠ none → machine.contents disk.device = .blank ∨
    ¬FormatStarts platform disk (boot.plan.at fun label => (index, label)) machine

theorem wipes_only_blank_iff (platform : Platform) (boot : Boot) (index : Nat) (disk : Disk)
    (machine : Machine) :
    WipesOnlyBlank platform boot index disk machine ↔
      BlankOrUnformatted platform boot index disk machine := by
  unfold WipesOnlyBlank BlankOrUnformatted
  cases disk.encrypt with
  | none => simp
  | some luks =>
      simp only [Option.some.injEq, forall_eq', wipes_iff, ne_eq, reduceCtorEq, not_false_iff,
        true_implies]
      rw [imp_iff_or_not]

/-- Over any boots, only blank devices are wiped exactly if `luksFormat` is
reached on no other device. -/
theorem disks_spared_iff (platform : Platform) (disks : List Disk) (boots : List Boot)
    (machine : Machine) :
    EveryVisit platform disks (WipesOnlyBlank platform) boots machine ↔
      EveryVisit platform disks (BlankOrUnformatted platform) boots machine := by
  apply every_visit_congr platform disks (fun _ => True) (fun _ => trivial)
  · exact fun boot _ index disk machine _ => wipes_only_blank_iff platform boot index disk machine
  · exact fun _ _ _ _ _ _ _ _ => trivial

/-- A first boot with a data disk that holds an ext4 filesystem. -/
theorem disks_not_spared :
    ¬∀ platform disks boots machine,
      EveryVisit platform disks (WipesOnlyBlank platform) boots machine := by
  intro spared
  let key : Key := ⟨List.replicate 32 7, rfl⟩
  let ext4 : Format := ⟨"ext4", true⟩
  let luks : Luks := ⟨"data", "0x01500001", none⟩
  let disk : Disk :=
    ⟨"/dev/vda", "/data", "ext4", [], true, ["/sbin/mkfs.ext4"], some luks⟩
  let platform : Platform := ⟨true, "", fun _ => some ext4, fun _ _ => true⟩
  let boot : Boot := ⟨fun _ => none, fun _ => ⟨key, 1⟩, Plan.allDone⟩
  let machine : Machine :=
    ⟨fun _ => .filesystem ⟨ext4, 0⟩, fun _ => none, true, none, none, none, none, [], [], []⟩
  have visited := (spared platform [disk] [boot] machine).1.1 luks rfl
  have starts : FormatStarts platform disk (boot.plan.at fun label => (0, label))
      (powerOn platform machine) := by
    refine ⟨⟨Or.inl rfl, ⟨?_, ?_⟩, rfl, rfl⟩, rfl, ⟨rfl, rfl⟩, rfl, rfl⟩
    · exact fun _ => nofun
    · exact fun _ _ => nofun
  cases visited (wipes_iff.mpr starts)

end Boots

end NodeOs.Initd.DiskWipe
