import NodeOs.Initd.TpmCalls

/-!
# The life of the key file

Opening and provisioning a volume end with the removal of the key file. Reading
the key from the TPM does not: where the tool writes the file and then reports an
error, or the mode of the file cannot be set, the key stays behind.
-/

namespace NodeOs.Initd.KeyFile

open NodeOs.Library.FaultPlan NodeOs.Library.FaultPlan.Proc
open NodeOs.Initd.DiskTools NodeOs.Initd.Disks NodeOs.Initd.DiskCalls NodeOs.Initd.TpmCalls

section Calls

variable {platform : Platform} {boot : Boot} {draw : Draw} {disk : Disk} {luks : Luks}
  {plan : Plan DiskStep} {machine : Machine}

/-- The TPM releases the key in the index to the reader, who has come so far. -/
def Releases (boot : Boot) (plan : Plan DiskStep) (machine : Machine) (index : String) :
    Option String → Prop
  | none => ∃ key, machine.nv index = some ⟨.owner, some key⟩
  | some selection => Ran plan .startPolicy ∧ Ran plan .policyPcr ∧
      ∃ values key, boot.pcrs selection = some values ∧
        machine.nv index = some ⟨.policy ⟨selection, values⟩, some key⟩

/-- The reader's session, if it has one, is closed and the machine runs on. -/
def Closes (plan : Plan DiskStep) (pcrs : Option String) : Prop :=
  pcrs ≠ none → Survived plan .flushPolicy

/-- The key is written to the file, and then the read or the chmod fails. -/
structure KeyStranded (boot : Boot) (plan : Plan DiskStep) (machine : Machine) (luks : Luks) :
    Prop where
  released : Releases boot plan machine luks.tpmNvIndex luks.pcrs
  written : Begun plan .nvRead
  survived : Survived plan .nvRead
  closed : Closes plan luks.pcrs
  failed : plan (.exit .nvRead) ≠ .done ∨ ∃ extent, plan .chmodKey = .fails extent

theorem attempt_granted (tool : Tool) (args : List String) (started asOwner : Bool)
    (guard : Guard) :
    (machine.attempt tool args started).grants asOwner guard = machine.grants asOwner guard := by
  cases guard <;> rfl

theorem nv_read_released_iff (index : String) (pcrs : Option String) (args : List String) :
    ((machine.attempt .nvRead args true).nvReleased pcrs.isNone index).isSome = true ↔
      ∃ held key, machine.nv index = some held ∧ held.content = some key ∧
        machine.grants pcrs.isNone held.guard = true := by
  rw [Option.isSome_iff_exists]
  constructor
  · rintro ⟨next, taken⟩
    obtain ⟨held, key, found, content, granted, -⟩ := (Machine.nv_released_eq_some_iff _ _).mp taken
    exact ⟨held, key, found, content, by rwa [attempt_granted] at granted⟩
  · rintro ⟨held, key, found, content, granted⟩
    exact ⟨_, (Machine.nv_released_eq_some_iff _ _).mpr
      ⟨held, key, found, content, by rwa [attempt_granted], rfl⟩⟩

/-- Whether `nvRead` leaves a key file where there was none. -/
theorem nv_read_leaves_iff (absent : machine.keyFile = none) (index : String)
    (pcrs : Option String) :
    ((nvRead index pcrs).run plan machine).2.keyFile ≠ none ↔ Begun plan .nvRead ∧
      ∃ held key, machine.nv index = some held ∧ held.content = some key ∧
        machine.grants pcrs.isNone held.guard = true := by
  have view : ((nvRead index pcrs).run plan machine).2.keyFile = _ :=
    tool_view Machine.keyFile .nvRead _ _ _ fun _ _ => rfl
  rw [view, ← nv_read_released_iff index pcrs (nvReadArgs index pcrs)]
  unfold Begun
  by_cases begun : plan (.spawn .nvRead) = .done ∧ (plan (.exit .nvRead)).begins = true
  · rw [if_pos begun, and_iff_right begun]
    cases taken : (machine.attempt .nvRead (nvReadArgs index pcrs) true).nvReleased pcrs.isNone
        index with
    | none => simpa [Machine.attempt, Machine.note] using absent
    | some next =>
        obtain ⟨held, key, -, -, -, rfl⟩ := (Machine.nv_released_eq_some_iff _ _).mp taken
        simp
  · rw [if_neg begun]
    simp [absent, begun]

theorem start_policy_keeps : Keeps Machine.keyFile startPolicy := by
  apply tool_keeps _ _ _ (fun _ _ => rfl)
  intro machine next taken
  rw [← Option.some.inj taken]

theorem policy_pcr_keeps (selection : String) :
    Keeps Machine.keyFile (policyPcr boot selection) := by
  apply tool_keeps _ _ _ (fun _ _ => rfl)
  intro machine next taken
  obtain ⟨session, read, -, -, rfl⟩ := (Machine.extended_eq_some_iff _ _).mp taken
  rfl

theorem flush_policy_keeps : Keeps Machine.keyFile
    (ignore (runTool .flushPolicy "/usr/bin/tpm2_flushcontext" [sessionFile] Machine.flushed)) := by
  apply Keeps.ignore
  apply tool_keeps _ _ _ (fun _ _ => rfl)
  intro machine next taken
  obtain ⟨-, rfl⟩ := Machine.flushed_eq_some_iff.mp taken
  rfl

theorem cleanup_keeps {Value : Type} (result : Except Error Value) : Keeps Machine.keyFile
    (ignore (runTool .flushPolicy "/usr/bin/tpm2_flushcontext" [sessionFile] Machine.flushed) >>=
      fun _ => ofExcept result) :=
  .bind flush_policy_keeps fun _ => .ofExcept result

/-- The operation runs in a session that satisfies the policy. -/
theorem with_policy_session_entered {selection : String} {values : PcrValues} (machine : Machine)
    (operation : Disks Unit) (started : Ran plan .startPolicy) (satisfied : Ran plan .policyPcr)
    (known : boot.pcrs selection = some values) :
    ∃ next, next.session = some ⟨false, some ⟨selection, values⟩⟩ ∧ next.nv = machine.nv ∧
      next.keyFile = machine.keyFile ∧
      ((withPolicySession boot selection operation).run plan machine).2.keyFile =
        (operation.run plan next).2.keyFile ∧
      (Survived plan .flushPolicy →
        ((withPolicySession boot selection operation).run plan machine).1 =
          (operation.run plan next).1) ∧
      (¬Survived plan .flushPolicy →
        ((withPolicySession boot selection operation).run plan machine).1 = .killed) := by
  obtain ⟨startLog, start⟩ := start_policy_run machine started
  let opened : Machine := { machine with session := some ⟨false, none⟩, log := startLog }
  obtain ⟨policyLog, policy⟩ := policy_pcr_run opened rfl known satisfied
  let next : Machine := { opened with
    session := some ⟨false, some ⟨selection, values⟩⟩, log := policyLog }
  have inner : (policyPcr boot selection >>= fun _ => operation).run plan opened =
      operation.run plan next := by
    rw [run_bind, policy]
  refine ⟨next, rfl, rfl, rfl, ?_, ?_, ?_⟩
  · rw [withPolicySession, run_bind, start]
    refine (Keeps.after cleanup_keeps _ plan opened).trans ?_
    rw [run_attempt_state, inner]
  · intro survived
    rw [withPolicySession, run_bind, start]
    by_cases alive : (operation.run plan next).1 = .killed
    · rw [alive]
      exact run_attempt_cleanup_killed plan opened _ (Or.inl (inner ▸ alive))
    · refine (congrArg Prod.fst (run_attempt_cleanup plan opened _ (inner ▸ alive)
        ((ignore_tool_ok_iff ..).mpr survived))).trans ?_
      rw [inner]
  · intro stopped
    rw [withPolicySession, run_bind, start]
    exact run_attempt_cleanup_killed plan opened _
      (Or.inr ((ignore_tool_killed_iff ..).mpr stopped))

/-- Before that, the key file is not touched. -/
theorem with_policy_session_unentered {selection : String} (operation : Disks Unit)
    (unentered : ¬(Ran plan .startPolicy ∧ Ran plan .policyPcr ∧ boot.pcrs selection ≠ none)) :
    ((withPolicySession boot selection operation).run plan machine).2.keyFile =
      machine.keyFile := by
  by_cases started : (startPolicy.run plan machine).1 = .ok ()
  · rw [withPolicySession, run_bind_of_ok _ _ started]
    refine (Keeps.after cleanup_keeps _ plan _).trans ?_
    have unsatisfied (value : Unit) :
        ((policyPcr boot selection).run plan (startPolicy.run plan machine).2).1 ≠ .ok value := by
      intro satisfied
      obtain ⟨ran, taken⟩ := (run_tool_ok_iff value).mp satisfied
      refine unentered ⟨((run_tool_ok_iff ()).mp started).1, ran, ?_⟩
      intro absent
      cases session : (startPolicy.run plan machine).2.session <;>
        simp [absent, Machine.extended, Machine.attempt, Machine.note, session] at taken
    rw [run_attempt_state, (run_bind_of_not_ok _ _ _ unsatisfied).1, policy_pcr_keeps,
      start_policy_keeps]
  · rw [withPolicySession, (run_bind_of_not_ok _ _ _ fun _ => started).1]
    exact start_policy_keeps plan machine

theorem read_key_leaves_iff (absent : machine.keyFile = none) (index : String)
    (pcrs : Option String) :
    ((readKey boot index pcrs).run plan machine).2.keyFile ≠ none ↔
      Releases boot plan machine index pcrs ∧ Begun plan .nvRead := by
  cases pcrs with
  | none =>
      rw [readKey, nv_read_leaves_iff absent, and_comm]
      apply and_congr_left
      intro _
      constructor
      · rintro ⟨⟨guard, content⟩, key, found, rfl, granted⟩
        cases guard with
        | owner => exact ⟨key, found⟩
        | policy digest => cases granted
      · rintro ⟨key, found⟩
        exact ⟨_, key, found, rfl, rfl⟩
  | some selection =>
      rw [readKey]
      by_cases entered : Ran plan .startPolicy ∧ Ran plan .policyPcr ∧ boot.pcrs selection ≠ none
      · obtain ⟨started, satisfied, known⟩ := entered
        obtain ⟨values, same⟩ := Option.ne_none_iff_exists'.mp known
        obtain ⟨next, session, nv, file, left, -⟩ := with_policy_session_entered machine
          (nvRead index (some selection)) started satisfied same
        rw [left, nv_read_leaves_iff (file.trans absent), and_comm, nv]
        apply and_congr_left
        intro _
        constructor
        · rintro ⟨⟨guard, content⟩, key, found, rfl, granted⟩
          cases guard with
          | owner => cases granted
          | policy digest =>
              have digests : ⟨selection, values⟩ = digest := by
                simpa [Machine.grants, session] using granted
              rw [← digests] at found
              exact ⟨started, satisfied, values, key, same, found⟩
        · rintro ⟨-, -, other, key, known, found⟩
          obtain rfl : values = other := Option.some.inj (same.symm.trans known)
          exact ⟨_, key, found, rfl, by simp [Machine.grants, session]⟩
      · rw [with_policy_session_unentered _ entered]
        constructor
        · exact fun left => absurd absent left
        · rintro ⟨⟨started, satisfied, values, key, known, -⟩, -⟩
          exact absurd ⟨started, satisfied, by simp [known]⟩ entered

/-- The index holds a key that the caller may read. -/
def Readable (machine : Machine) (index : String) (pcrs : Option String) : Prop :=
  ∃ held key, machine.nv index = some held ∧ held.content = some key ∧
    machine.grants pcrs.isNone held.guard = true

/-- A key that the TPM releases is read in a state in which it is readable. -/
theorem read_key_reached {pcrs : Option String} {index : String}
    (released : Releases boot plan machine index pcrs) :
    ∃ before, Readable before index pcrs ∧
      (Closes plan pcrs → ((readKey boot index pcrs).run plan machine).1 =
        ((nvRead index pcrs).run plan before).1) ∧
      (¬Closes plan pcrs → ((readKey boot index pcrs).run plan machine).1 = .killed) := by
  cases pcrs with
  | none =>
      obtain ⟨key, found⟩ := released
      refine ⟨machine, ⟨_, key, found, rfl, rfl⟩, fun _ => rfl, ?_⟩
      exact fun unclosed => absurd (fun some => absurd rfl some) unclosed
  | some selection =>
      obtain ⟨started, satisfied, values, key, known, found⟩ := released
      obtain ⟨next, session, nv, -, -, closed, killed⟩ := with_policy_session_entered machine
        (nvRead index (some selection)) started satisfied known
      refine ⟨next, ⟨_, key, nv ▸ found, rfl, by simp [Machine.grants, session]⟩, ?_, ?_⟩
      · exact fun closes => closed (closes (Option.some_ne_none _))
      · exact fun unclosed => killed fun survived => unclosed fun _ => survived

theorem nv_read_ok_iff {pcrs : Option String} {index : String}
    (readable : Readable machine index pcrs) (value : Unit) :
    ((nvRead index pcrs).run plan machine).1 = .ok value ↔ Ran plan .nvRead := by
  rw [nvRead, run_tool_ok_iff, nv_read_released_iff]
  exact and_iff_left readable

/-- How a read of a released key ends in an error: the mode is set only after a
read that succeeded. -/
theorem tpm_nv_read_err_iff {pcrs : Option String} {index : String}
    (released : Releases boot plan machine index pcrs) (written : Begun plan .nvRead) :
    (∃ error, ((tpmNvRead boot index pcrs).run plan machine).1 = .err error) ↔
      Survived plan .nvRead ∧ Closes plan pcrs ∧
        (plan (.exit .nvRead) ≠ .done ∨ ∃ extent, plan .chmodKey = .fails extent) := by
  obtain ⟨before, readable, closed, unclosed⟩ := read_key_reached released
  have returned : ((nvRead index pcrs).run plan before).1 = .ok () ↔
      plan (.exit .nvRead) = .done := by
    rw [nv_read_ok_iff readable, Ran, and_iff_right written.1]
  have killed : ((nvRead index pcrs).run plan before).1 = .killed ↔ ¬Survived plan .nvRead :=
    run_tool_killed_iff
  rw [tpmNvRead, run_bind]
  by_cases closes : Closes plan pcrs
  · have same := closed closes
    cases ran : (readKey boot index pcrs).run plan machine with
    | mk outcome after =>
        rw [ran] at same
        rw [← same] at returned killed
        cases outcome with
        | ok value =>
            have exited : plan (.exit .nvRead) = .done := returned.mp rfl
            have survived : Survived plan .nvRead := not_not.mp (mt killed.mpr (by simp))
            simp only [setPrivatePerms, run_check]
            cases plan .chmodKey <;> simp [exited, survived, closes]
        | err error =>
            have failed : plan (.exit .nvRead) ≠ .done := mt returned.mpr (by simp)
            have survived : Survived plan .nvRead := not_not.mp (mt killed.mpr (by simp))
            simp [failed, survived, closes]
        | killed =>
            have stopped : ¬Survived plan .nvRead := killed.mp rfl
            simp [stopped]
  · have stopped := unclosed closes
    cases ran : (readKey boot index pcrs).run plan machine with
    | mk outcome after =>
        rw [ran] at stopped
        cases stopped
        simp [closes]

theorem tpm_nv_read_key_file (index : String) (pcrs : Option String) :
    ((tpmNvRead boot index pcrs).run plan machine).2.keyFile =
      ((readKey boot index pcrs).run plan machine).2.keyFile :=
  Keeps.after (fun _ => .check _ _) _ plan machine

/-- The key file is gone, unless the machine has stopped. -/
def KeyGone {Value : Type} (result : Outcome Error Value × Machine) : Prop :=
  result.1 ≠ .killed → result.2.keyFile = none

theorem remove_key_run (machine : Machine) (removes : plan .removeKey = .done) :
    ∃ next, removeKey.run plan machine = (.ok (), next) ∧ next.keyFile = none := by
  rw [removeKey, run_ignore, run_act, removes]
  cases file : machine.keyFile with
  | none => exact ⟨machine, by simp [Fate.begins], file⟩
  | some key => exact ⟨{ machine with keyFile := none }, by simp [Fate.begins], rfl⟩

theorem then_remove_key_gone (removes : plan .removeKey = .done) (operation : Disks Unit) :
    KeyGone ((thenRemoveKey operation).run plan machine) := by
  intro alive
  obtain ⟨next, run, gone⟩ := remove_key_run (operation.run plan machine).2 removes
  have running : (operation.run plan machine).1 ≠ .killed := fun killed =>
    alive (run_attempt_cleanup_killed plan machine _ (Or.inl killed))
  rw [thenRemoveKey, run_attempt_cleanup plan machine _ running (congrArg Prod.fst run), run]
  exact gone

/-- Only a stranded key outlives an unlocking. -/
theorem unlock_gone_iff (removes : plan .removeKey = .done) (absent : machine.keyFile = none) :
    KeyGone ((unlock boot disk luks).run plan machine) ↔ ¬KeyStranded boot plan machine luks := by
  have file : ((tpmNvRead boot luks.tpmNvIndex luks.pcrs).run plan machine).2.keyFile ≠ none ↔
      Releases boot plan machine luks.tpmNvIndex luks.pcrs ∧ Begun plan .nvRead := by
    rw [tpm_nv_read_key_file]
    exact read_key_leaves_iff absent luks.tpmNvIndex luks.pcrs
  rw [unlock, run_bind]
  cases ran : (tpmNvRead boot luks.tpmNvIndex luks.pcrs).run plan machine with
  | mk outcome after =>
      rw [ran] at file
      cases outcome with
      | ok value =>
          apply iff_of_true (then_remove_key_gone removes _)
          intro stranded
          obtain ⟨error, failed⟩ := (tpm_nv_read_err_iff stranded.released stranded.written).mpr
            ⟨stranded.survived, stranded.closed, stranded.failed⟩
          rw [ran] at failed
          cases failed
      | err error =>
          constructor
          · intro gone stranded
            exact file.mpr ⟨stranded.released, stranded.written⟩ (gone (by simp))
          · intro unstranded _
            by_contra left
            obtain ⟨released, written⟩ := file.mp left
            have failed := (tpm_nv_read_err_iff released written).mp ⟨error, by rw [ran]⟩
            exact unstranded ⟨released, written, failed.1, failed.2.1, failed.2.2⟩
      | killed =>
          apply iff_of_true (fun alive => absurd rfl alive)
          intro stranded
          obtain ⟨error, failed⟩ := (tpm_nv_read_err_iff stranded.released stranded.written).mpr
            ⟨stranded.survived, stranded.closed, stranded.failed⟩
          rw [ran] at failed
          cases failed

theorem key_stranded_congr {other : Machine} (same : other.nv = machine.nv) :
    KeyStranded boot plan other luks ↔ KeyStranded boot plan machine luks := by
  have releases : Releases boot plan other luks.tpmNvIndex luks.pcrs ↔
      Releases boot plan machine luks.tpmNvIndex luks.pcrs := by
    cases luks.pcrs <;> simp [Releases, same]
  constructor
  · exact fun stranded => { stranded with released := releases.mp stranded.released }
  · exact fun stranded => { stranded with released := releases.mpr stranded.released }

theorem key_gone_pure_iff {Value : Type} (process : Disks Unit) (answer : Value) :
    KeyGone ((process >>= fun _ => pure answer).run plan machine) ↔
      KeyGone (process.run plan machine) := by
  unfold KeyGone
  rw [run_bind]
  cases process.run plan machine with
  | mk outcome after => cases outcome <;> simp

/-- `isLuks` has answered yes, and the key that is read is stranded. -/
theorem open_encrypted_gone_iff (removes : plan .removeKey = .done)
    (absent : machine.keyFile = none) :
    KeyGone ((openEncrypted platform boot draw disk luks).run plan machine) ↔
      ¬(Examined platform disk plan machine true ∧ KeyStranded boot plan machine luks) := by
  have file : ((examine platform disk luks).run plan machine).2.keyFile = none :=
    (examine_keeps ⟨fun _ _ => rfl, fun _ => rfl⟩ plan machine).trans absent
  have nv : ((examine platform disk luks).run plan machine).2.nv = machine.nv :=
    examine_keeps ⟨fun _ _ => rfl, fun _ => rfl⟩ plan machine
  by_cases returned : ∃ answer, ((examine platform disk luks).run plan machine).1 = .ok answer
  · obtain ⟨answer, answered⟩ := returned
    rw [openEncrypted, run_bind_of_ok _ _ answered, key_gone_pure_iff, openVolume]
    cases answer with
    | true =>
        rw [if_pos rfl, unlock_gone_iff removes file, key_stranded_congr nv,
          and_iff_right ((examine_ok_iff true).mp answered)]
    | false =>
        apply iff_of_true
        · rw [if_neg Bool.false_ne_true]
          cases disk.formatIfEmpty with
          | true => exact then_remove_key_gone removes _
          | false => exact fun _ => file
        · rintro ⟨examined, -⟩
          have other : ((examine platform disk luks).run plan machine).1 = .ok true :=
            (examine_ok_iff true).mpr examined
          rw [answered] at other
          cases other
  · apply iff_of_true
    · intro _
      rw [openEncrypted, (run_bind_of_not_ok _ _ _ fun answer answered =>
        returned ⟨answer, answered⟩).1]
      exact file
    · rintro ⟨examined, -⟩
      exact returned ⟨true, (examine_ok_iff true).mpr examined⟩

/-- A volume that has been opened has no key file left. -/
theorem open_volume_ok_gone (removes : plan .removeKey = .done) (carriesLuks : Bool)
    (returned : ((openVolume platform boot draw disk luks carriesLuks).run plan machine).1 =
      .ok ()) :
    ((openVolume platform boot draw disk luks carriesLuks).run plan machine).2.keyFile = none := by
  unfold openVolume at returned ⊢
  cases carriesLuks with
  | true =>
      rw [if_pos rfl, unlock] at returned ⊢
      obtain ⟨_, read, opened⟩ := (run_bind_ok_iff _ _ _ _ _).mp returned
      rw [run_bind_of_ok _ _ read]
      exact then_remove_key_gone removes _ (by simp [opened])
  | false =>
      rw [if_neg Bool.false_ne_true] at returned ⊢
      cases wanted : disk.formatIfEmpty with
      | true =>
          rw [wanted, if_pos rfl] at returned
          exact then_remove_key_gone removes _ (by simp [returned])
      | false =>
          rw [wanted] at returned
          cases returned

theorem open_plain_keeps : Keeps Machine.keyFile (openPlain platform draw disk) := by
  have answered : Keeps Machine.keyFile (isFormatted disk.device) :=
    fun plan machine => congrArg Machine.keyFile (is_formatted_keeps disk.device plan machine)
  have formatted : Keeps Machine.keyFile (formatIfBlank platform draw disk) := by
    unfold formatIfBlank formatDisk
    cases disk.formatIfEmpty with
    | false => exact .ret _
    | true =>
        refine .bind answered fun formatted => ?_
        cases formatted with
        | true => exact .ret _
        | false =>
            cases disk.mkfs with
            | nil => exact .raise _
            | cons command args =>
                exact run_mkfs_keeps (fun _ _ => rfl) (fun _ _ _ => rfl) _ _ _ _ _ _
  exact .bind formatted fun _ => .ret _

/-- A disk that has been opened leaves no key file, if there was none before. -/
theorem visit_ok_gone {index : Nat} {after : Machine} {labelled : Plan (Nat × DiskStep)}
    (removes : labelled (index, .removeKey) = .done) (absent : machine.keyFile = none)
    (returned : (visit platform boot index disk).run labelled machine = (.ok (), after)) :
    after.keyFile = none := by
  rw [visit, run_relabel, applyDisk] at returned
  obtain ⟨source, opened, mounted⟩ := (run_bind_ok_iff _ _ _ _ _).mp (congrArg Prod.fst returned)
  have mounting : Keeps Machine.keyFile (mountDisk platform disk source) :=
    mount_disk_keeps (fun _ _ => rfl) platform disk source
  have kept := mounting (labelled.at fun label => (index, label))
    ((openDisk platform boot (boot.draws index) disk).run
      (labelled.at fun label => (index, label)) machine).2
  rw [← run_bind_of_ok _ _ opened, returned] at kept
  rw [kept]
  unfold openDisk at opened ⊢
  cases encrypted : disk.encrypt with
  | none => exact (open_plain_keeps _ machine).trans absent
  | some luks =>
      rw [encrypted] at opened
      obtain ⟨answer, answered, filled⟩ := (run_bind_ok_iff _ _ _ _ _).mp opened
      obtain ⟨value, unlocked, -⟩ := (run_bind_ok_iff _ _ _ _ _).mp filled
      refine (congrArg Machine.keyFile (congrArg Prod.snd (run_bind_of_ok _ _ answered))).trans ?_
      rw [run_bind_pure_state]
      exact open_volume_ok_gone removes answer unlocked

end Calls

section Boots

/-- When this call of `openEncrypted` returns, there is no key file. -/
def LeavesNoKey (platform : Platform) (boot : Boot) (index : Nat) (disk : Disk)
    (machine : Machine) : Prop :=
  ∀ luks, disk.encrypt = some luks →
    KeyGone ((openEncrypted platform boot (boot.draws index) disk luks).run
      (boot.plan.at fun label => (index, label)) machine)

/-- The call does not read a key for a LUKS device in a way that strands it. -/
def StrandsNoKey (platform : Platform) (boot : Boot) (index : Nat) (disk : Disk)
    (machine : Machine) : Prop :=
  ∀ luks, disk.encrypt = some luks →
    ¬(Examined platform disk (boot.plan.at fun label => (index, label)) machine true ∧
      KeyStranded boot (boot.plan.at fun label => (index, label)) machine luks)

/-- The key file outlives no call exactly if no call strands it. -/
theorem key_file_gone_iff (platform : Platform) (disks : List Disk) (boots : List Boot)
    (machine : Machine)
    (removes : ∀ boot ∈ boots, ∀ index, boot.plan (index, .removeKey) = .done) :
    EveryVisit platform disks (LeavesNoKey platform) boots machine ↔
      EveryVisit platform disks (StrandsNoKey platform) boots machine := by
  apply every_visit_congr platform disks (fun machine => machine.keyFile = none)
  · exact fun _ => rfl
  · intro boot listed index disk machine absent
    apply forall_congr'
    intro luks
    apply forall_congr'
    intro _
    exact open_encrypted_gone_iff (removes boot listed index) absent
  · intro boot listed index disk machine after absent returned
    exact visit_ok_gone (removes boot listed index) absent returned

def sampleKey : Key := ⟨List.replicate 32 7, rfl⟩

def sampleLuks : Luks := ⟨"data", "0x01500001", none⟩

def sampleDisk : Disk :=
  ⟨"/dev/vda", "/data", "ext4", [], true, ["/sbin/mkfs.ext4"], some sampleLuks⟩

def samplePlatform : Platform := ⟨true, "", fun _ => some ⟨"ext4", true⟩, fun _ _ => true⟩

def sampleBoot : Boot := ⟨fun _ => none, fun _ => ⟨sampleKey, 1⟩, Plan.allDone⟩

/-- A provisioned machine. -/
def sampleMachine : Machine :=
  ⟨fun _ => .luks sampleKey none, fun _ => some ⟨.owner, some sampleKey⟩, true, none, none, none,
    none, [], [], []⟩

theorem key_file_gone_iff_sample :
    (∀ boot ∈ [sampleBoot], ∀ index, boot.plan (index, .removeKey) = .done) ∧
      (EveryVisit samplePlatform [sampleDisk] (LeavesNoKey samplePlatform) [sampleBoot]
          sampleMachine ↔
        EveryVisit samplePlatform [sampleDisk] (StrandsNoKey samplePlatform) [sampleBoot]
          sampleMachine) := by
  have removes : ∀ boot ∈ [sampleBoot], ∀ index, boot.plan (index, .removeKey) = .done := by
    intro boot listed index
    rw [List.mem_singleton.mp listed]
    rfl
  exact ⟨removes, key_file_gone_iff _ _ _ _ removes⟩

/-- The chmod that follows the read of the key fails. -/
theorem key_file_left :
    ¬∀ platform disks boots machine,
      (∀ boot ∈ boots, ∀ index, boot.plan (index, .removeKey) = .done) →
        EveryVisit platform disks (LeavesNoKey platform) boots machine := by
  intro gone
  let boot : Boot := { sampleBoot with
    plan := fun label => if label = (0, .chmodKey) then .fails 0 else .done }
  have removes : ∀ other ∈ [boot], ∀ index, other.plan (index, .removeKey) = .done := by
    intro other listed index
    rw [List.mem_singleton.mp listed]
    simp [boot]
  have visited := (gone samplePlatform [sampleDisk] [boot] sampleMachine removes).1.1
  apply (open_encrypted_gone_iff rfl rfl).mp (visited sampleLuks rfl)
  refine ⟨⟨Or.inl rfl, ⟨?_, ?_⟩, rfl, rfl⟩, ⟨_, rfl⟩, ⟨rfl, rfl⟩, ⟨?_, ?_⟩, ?_, Or.inr ⟨0, rfl⟩⟩
  · exact fun _ => nofun
  · exact fun _ _ => nofun
  · exact fun _ => nofun
  · exact fun _ _ => nofun
  · exact fun some => absurd rfl some

end Boots

end NodeOs.Initd.KeyFile
