import NodeOs.Initd.DiskCalls

/-!
# How a key gets into the TPM

What the calls of `tpm_nv_store` leave where they succeed, and under which plan
they do. A key is stored once a prior index is out of the way, and under the
policy of the present PCR values if the configuration selects any.
-/

namespace NodeOs.Initd.TpmCalls

open NodeOs.Library.FaultPlan NodeOs.Library.FaultPlan.Proc
open NodeOs.Initd.DiskTools NodeOs.Initd.Disks NodeOs.Initd.DiskCalls

/-- Who may read a key that is stored on this boot. -/
def guardOf (boot : Boot) : Option String → Option Guard
  | none => some .owner
  | some selection => (boot.pcrs selection).map fun values => .policy ⟨selection, values⟩

/-- What no call to the TPM changes. -/
def outside (machine : Machine) :
    (String → Content) × Bool × List (String × String) × List Mounted :=
  (machine.contents, machine.dmControl, machine.mapped, machine.mounts)

section Frames

variable {Part : Type} {view : Machine → Part} {boot : Boot} {index : String}

/-- A view that shows neither the log nor the registers and files of a session. -/
def Lasting (view : Machine → Part) : Prop :=
  ∀ machine other, outside other = outside machine → other.nv = machine.nv →
    view other = view machine

namespace Lasting

theorem tool (lasting : Lasting view) (tool : Tool) (program : String) (args : List String)
    {effect : Machine → Option Machine}
    (kept : ∀ machine next, effect machine = some next →
      outside next = outside machine ∧ next.nv = machine.nv) :
    Keeps view (runTool tool program args effect) := by
  apply tool_keeps _ _ _ fun _ _ => lasting _ _ rfl rfl
  intro machine next taken
  obtain ⟨same, nv⟩ := kept machine next taken
  exact lasting machine next same nv

theorem flush (lasting : Lasting view) (tool : Tool) (program : String) (args : List String) :
    Keeps view (runTool tool program args Machine.flushed) := by
  apply lasting.tool
  intro machine next taken
  obtain ⟨-, rfl⟩ := Machine.flushed_eq_some_iff.mp taken
  exact ⟨rfl, rfl⟩

theorem start (lasting : Lasting view) (tool : Tool) (program : String) (args : List String)
    (session : Session) :
    Keeps view (runTool tool program args fun machine =>
      some { machine with session := some session }) := by
  apply lasting.tool
  intro machine next taken
  cases taken
  exact ⟨rfl, rfl⟩

theorem compute_policy (lasting : Lasting view) (selection : String) :
    Keeps view (computePolicy boot selection) := by
  have read : Keeps view (pcrRead boot selection) := by
    apply lasting.tool
    intro machine next taken
    obtain ⟨values, -, rfl⟩ := Option.map_eq_some_iff.mp taken
    exact ⟨rfl, rfl⟩
  have digested : Keeps view (policyDigest selection) := by
    apply lasting.tool
    intro machine next taken
    obtain ⟨later, extended, rfl⟩ := Option.map_eq_some_iff.mp taken
    obtain ⟨session, values, -, -, rfl⟩ := (Machine.extended_eq_some_iff _ _).mp extended
    exact ⟨rfl, rfl⟩
  exact .bind read fun _ => .bind (lasting.start _ _ _ _) fun _ => .bind digested fun _ =>
    lasting.flush _ _ _

theorem with_policy_session (lasting : Lasting view) (selection : String)
    {operation : Disks Unit} (inner : Keeps view operation) :
    Keeps view (withPolicySession boot selection operation) := by
  have satisfied : Keeps view (policyPcr boot selection) := by
    apply lasting.tool
    intro machine next taken
    obtain ⟨session, values, -, -, rfl⟩ := (Machine.extended_eq_some_iff _ _).mp taken
    exact ⟨rfl, rfl⟩
  exact .bind (lasting.start _ _ _ _) fun _ => .bind (.attempt (.bind satisfied fun _ => inner))
    fun _ => .bind (.ignore (lasting.flush _ _ _)) fun _ => .ofExcept _

theorem tpm_nv_read (lasting : Lasting view) (pcrs : Option String) :
    Keeps view (tpmNvRead boot index pcrs) := by
  have released (pcrs : Option String) : Keeps view (nvRead index pcrs) := by
    apply lasting.tool
    intro machine next taken
    obtain ⟨held, key, -, -, -, rfl⟩ := (Machine.nv_released_eq_some_iff _ _).mp taken
    exact ⟨rfl, rfl⟩
  refine .bind ?_ fun _ => .check _ _
  cases pcrs with
  | none => exact released none
  | some selection => exact lasting.with_policy_session selection (released _)

end Lasting

theorem lasting_outside : Lasting outside := fun _ _ same _ => same

/-- A store changes nothing but the TPM. -/
theorem tpm_nv_store_outside (pcrs : Option String) :
    Keeps outside (tpmNvStore boot index pcrs) := by
  have undefined : Keeps outside (nvUndefine index) := by
    apply Keeps.ignore
    apply tool_keeps _ _ _ fun _ _ => rfl
    intro machine next taken
    obtain ⟨-, rfl⟩ := (Machine.nv_undefined_eq_some_iff _).mp taken
    rfl
  have guarded (guard : Guard) (machine next : Machine)
      (taken : machine.nvDefined index guard = some next) : outside next = outside machine := by
    obtain ⟨-, rfl⟩ := (Machine.nv_defined_eq_some_iff _ _).mp taken
    rfl
  have defined (pcrs : Option String) : Keeps outside (nvDefine index pcrs) := by
    apply tool_keeps _ _ _ fun _ _ => rfl
    intro machine next taken
    cases pcrs with
    | none => exact guarded _ machine next taken
    | some selection =>
        obtain ⟨digest, -, found⟩ := Option.bind_eq_some_iff.mp taken
        exact guarded _ machine next found
  have written (pcrs : Option String) : Keeps outside (nvWrite index pcrs) := by
    apply tool_keeps _ _ _ fun _ _ => rfl
    intro machine next taken
    obtain ⟨held, key, -, -, -, rfl⟩ := (Machine.nv_written_eq_some_iff _ _).mp taken
    rfl
  refine .bind undefined fun _ => ?_
  cases pcrs with
  | none => exact .bind (defined none) fun _ => written none
  | some selection =>
      exact .bind (lasting_outside.compute_policy selection) fun _ => .bind (defined _) fun _ =>
        lasting_outside.with_policy_session selection (written _)

end Frames

section Runs

variable {boot : Boot} {plan : Plan DiskStep} {selection index : String} {values : PcrValues}
  {key : Key} {guard : Guard}

theorem pcr_read_run (machine : Machine) (known : boot.pcrs selection = some values)
    (ran : Ran plan .pcrRead) :
    ∃ log, (pcrRead boot selection).run plan machine =
      (.ok (), { machine with pcrFile := some values, log := log }) :=
  run_tool_logged { machine with pcrFile := some values } ran (by rw [known]; rfl)

theorem start_trial_run (machine : Machine) (ran : Ran plan .startTrial) :
    ∃ log, startTrial.run plan machine =
      (.ok (), { machine with session := some ⟨true, none⟩, log := log }) :=
  run_tool_logged { machine with session := some ⟨true, none⟩ } ran rfl

theorem policy_digest_run (machine : Machine) {session : Session}
    (opened : machine.session = some session) (read : machine.pcrFile = some values)
    (ran : Ran plan .policyDigest) :
    ∃ log, (policyDigest selection).run plan machine = (.ok (), { machine with
      session := some { session with digest := some ⟨selection, values⟩ },
      policyFile := some ⟨selection, values⟩, log := log }) := by
  apply run_tool_logged { machine with
    session := some { session with digest := some ⟨selection, values⟩ },
    policyFile := some ⟨selection, values⟩ } ran
  simp [Machine.attempt, Machine.note, Machine.extended, opened, read]

theorem flush_trial_run (machine : Machine) (opened : machine.session ≠ none)
    (ran : Ran plan .flushTrial) :
    ∃ log, flushTrial.run plan machine = (.ok (), { machine with session := none, log := log }) :=
  run_tool_logged { machine with session := none } ran
    (Machine.flushed_eq_some_iff.mpr ⟨opened, rfl⟩)

def policyTools : List Tool := [.pcrRead, .startTrial, .policyDigest, .flushTrial]

theorem compute_policy_run (machine : Machine) (known : boot.pcrs selection = some values)
    (ran : ∀ tool ∈ policyTools, Ran plan tool) :
    ∃ log, (computePolicy boot selection).run plan machine = (.ok (), { machine with
      pcrFile := some values, session := none, policyFile := some ⟨selection, values⟩,
      log := log }) := by
  obtain ⟨looked, read⟩ := pcr_read_run machine known (ran .pcrRead (by decide))
  obtain ⟨started, opened⟩ := start_trial_run { machine with pcrFile := some values, log := looked }
    (ran .startTrial (by decide))
  obtain ⟨computed, digested⟩ := policy_digest_run { machine with
    pcrFile := some values, session := some ⟨true, none⟩, log := started } rfl rfl
    (ran .policyDigest (by decide))
  obtain ⟨log, flushed⟩ := flush_trial_run { machine with
    pcrFile := some values, session := some ⟨true, some ⟨selection, values⟩⟩,
    policyFile := some ⟨selection, values⟩, log := computed } (Option.some_ne_none _)
      (ran .flushTrial (by decide))
  refine ⟨log, ?_⟩
  rw [computePolicy, run_bind, read]
  dsimp only
  rw [run_bind, opened]
  dsimp only
  rw [run_bind, digested]
  exact flushed

theorem start_policy_run (machine : Machine) (ran : Ran plan .startPolicy) :
    ∃ log, startPolicy.run plan machine =
      (.ok (), { machine with session := some ⟨false, none⟩, log := log }) :=
  run_tool_logged { machine with session := some ⟨false, none⟩ } ran rfl

theorem policy_pcr_run (machine : Machine) {session : Session}
    (opened : machine.session = some session) (known : boot.pcrs selection = some values)
    (ran : Ran plan .policyPcr) :
    ∃ log, (policyPcr boot selection).run plan machine = (.ok (), { machine with
      session := some { session with digest := some ⟨selection, values⟩ }, log := log }) :=
  run_tool_logged { machine with
    session := some { session with digest := some ⟨selection, values⟩ } } ran
    ((Machine.extended_eq_some_iff _ _).mpr ⟨session, values, opened, known, rfl⟩)

/-- Whatever becomes of a flush whose error is ignored. -/
theorem flush_policy_run (machine : Machine) (survived : Survived plan .flushPolicy) :
    ∃ session log, (ignore (runTool .flushPolicy "/usr/bin/tpm2_flushcontext" [sessionFile]
        Machine.flushed) : Disks Unit).run plan machine =
      (.ok (), { machine with session := session, log := log }) := by
  have kept : Keeps (fun machine : Machine => { machine with session := none, log := [] })
      (ignore (runTool .flushPolicy "/usr/bin/tpm2_flushcontext"
        [sessionFile] Machine.flushed)) := by
    apply Keeps.ignore
    apply tool_keeps _ _ _ fun _ _ => rfl
    intro machine next taken
    obtain ⟨-, rfl⟩ := Machine.flushed_eq_some_iff.mp taken
    rfl
  have same := kept plan machine
  have returned : ((ignore (runTool .flushPolicy "/usr/bin/tpm2_flushcontext" [sessionFile]
      Machine.flushed) : Disks Unit).run plan machine).1 = .ok () :=
    (ignore_tool_ok_iff ..).mpr survived
  cases ran : (ignore (runTool .flushPolicy "/usr/bin/tpm2_flushcontext" [sessionFile]
      Machine.flushed) : Disks Unit).run plan machine with
  | mk outcome after =>
      rw [ran] at returned same
      refine ⟨after.session, after.log, ?_⟩
      simp only [Machine.mk.injEq] at same returned
      rw [returned]
      cases after
      simp_all

/-- An operation that succeeds in a session that satisfies the policy. -/
theorem with_policy_session_run (machine after : Machine) (operation : Disks Unit)
    (known : boot.pcrs selection = some values) (started : Ran plan .startPolicy)
    (satisfied : Ran plan .policyPcr) (survived : Survived plan .flushPolicy)
    (inner : ∀ log, ∃ later, operation.run plan { machine with
        session := some ⟨false, some ⟨selection, values⟩⟩, log := log } =
      (.ok (), { after with log := later })) :
    ∃ session log, (withPolicySession boot selection operation).run plan machine =
      (.ok (), { after with session := session, log := log }) := by
  obtain ⟨opened, start⟩ := start_policy_run machine started
  obtain ⟨entered, policy⟩ := policy_pcr_run { machine with
    session := some ⟨false, none⟩, log := opened } rfl known satisfied
  obtain ⟨operated, ran⟩ := inner entered
  obtain ⟨session, log, flush⟩ := flush_policy_run { after with log := operated } survived
  refine ⟨session, log, ?_⟩
  have together : (policyPcr boot selection >>= fun _ => operation).run plan { machine with
      session := some ⟨false, none⟩, log := opened } =
        (.ok (), { after with log := operated }) := by
    rw [run_bind, policy]
    exact ran
  rw [withPolicySession, run_bind, start]
  dsimp only
  rw [run_attempt_cleanup, together, flush]
  · rw [together]
    simp
  · rw [together, flush]

theorem nv_define_owner_run (machine : Machine) (free : machine.nv index = none)
    (ran : Ran plan .nvDefine) :
    ∃ log, (nvDefine index none).run plan machine =
      (.ok (), { machine.setNv index (some ⟨.owner, none⟩) with log := log }) :=
  run_tool_logged (machine.setNv index (some ⟨.owner, none⟩)) ran
    ((Machine.nv_defined_eq_some_iff _ _).mpr ⟨free, rfl⟩)

theorem nv_define_policy_run (machine : Machine) (selection : String) {digest : PolicyDigest}
    (free : machine.nv index = none) (computed : machine.policyFile = some digest)
    (ran : Ran plan .nvDefine) :
    ∃ log, (nvDefine index (some selection)).run plan machine =
      (.ok (), { machine.setNv index (some ⟨.policy digest, none⟩) with log := log }) :=
  run_tool_logged (machine.setNv index (some ⟨.policy digest, none⟩)) ran
    (Option.bind_eq_some_iff.mpr
      ⟨digest, computed, (Machine.nv_defined_eq_some_iff _ _).mpr ⟨free, rfl⟩⟩)

theorem nv_write_run (machine : Machine) (pcrs : Option String) {content : Option Key}
    (defined : machine.nv index = some ⟨guard, content⟩) (file : machine.keyFile = some key)
    (granted : machine.grants pcrs.isNone guard = true) (ran : Ran plan .nvWrite) :
    ∃ log, (nvWrite index pcrs).run plan machine =
      (.ok (), { machine.setNv index (some ⟨guard, some key⟩) with log := log }) := by
  apply run_tool_logged (machine.setNv index (some ⟨guard, some key⟩)) ran
  apply (Machine.nv_written_eq_some_iff _ _).mpr
  refine ⟨⟨guard, content⟩, key, defined, file, ?_, rfl⟩
  cases guard <;> exact granted

theorem nv_undefine_nv (plan : Plan DiskStep) (machine : Machine) (index : String) :
    ((nvUndefine index).run plan machine).2.nv =
      if plan (.spawn .nvUndefine) = .done ∧ (plan (.exit .nvUndefine)).begins = true then
        Function.update machine.nv index none
      else machine.nv := by
  rw [nvUndefine, run_ignore_state, tool_view Machine.nv _ _ _ _ fun _ _ => rfl]
  apply ite_congr rfl _ fun _ => rfl
  intro _
  unfold Machine.nvUndefined
  split
  · rename_i absent
    exact (Function.update_eq_self_iff.mpr absent.symm).symm
  · rfl

/-- The prior index is gone, if there was one. -/
theorem nv_undefine_run (machine : Machine) (survived : Survived plan .nvUndefine)
    (cleared : machine.nv index = none ∨ Begun plan .nvUndefine) :
    ∃ log, (nvUndefine index).run plan machine =
      (.ok (), { machine.setNv index none with log := log }) := by
  have kept : Keeps (fun machine : Machine => { machine with nv := fun _ => none, log := [] })
      (nvUndefine index) := by
    apply Keeps.ignore
    apply tool_keeps _ _ _ fun _ _ => rfl
    intro machine next taken
    obtain ⟨-, rfl⟩ := (Machine.nv_undefined_eq_some_iff _).mp taken
    rfl
  have same := kept plan machine
  have returned : ((nvUndefine index).run plan machine).1 = .ok () :=
    (ignore_tool_ok_iff ..).mpr survived
  have undefined : ((nvUndefine index).run plan machine).2.nv =
      Function.update machine.nv index none := by
    rw [nv_undefine_nv]
    rcases cleared with absent | begun
    · rw [Function.update_eq_self_iff.mpr absent.symm, ite_self]
    · exact if_pos begun
  cases ran : (nvUndefine index).run plan machine with
  | mk outcome after =>
      rw [ran] at returned same undefined
      refine ⟨after.log, ?_⟩
      simp only [Machine.mk.injEq] at same returned
      rw [returned]
      cases after
      simp_all [Machine.setNv]

def storeTools : Option String → List Tool
  | none => [.nvDefine, .nvWrite]
  | some _ => policyTools ++ [.nvDefine, .startPolicy, .policyPcr, .nvWrite]

theorem store_key_run (machine : Machine) {pcrs : Option String}
    (guarded : guardOf boot pcrs = some guard) (free : machine.nv index = none)
    (file : machine.keyFile = some key) (ran : ∀ tool ∈ storeTools pcrs, Ran plan tool)
    (closed : pcrs ≠ none → Survived plan .flushPolicy) :
    ∃ next, (storeKey boot index pcrs).run plan machine = (.ok (), next) ∧
      next.nv = Function.update machine.nv index (some ⟨guard, some key⟩) ∧
      outside next = outside machine := by
  cases pcrs with
  | none =>
      cases guarded
      obtain ⟨defined, define⟩ := nv_define_owner_run machine free (ran .nvDefine (by decide))
      obtain ⟨log, write⟩ := nv_write_run { machine.setNv index (some ⟨.owner, none⟩) with
        log := defined } none (Function.update_self ..) file rfl (ran .nvWrite (by decide))
      have run : (storeKey boot index none).run plan machine = (nvWrite index none).run plan
          { machine.setNv index (some ⟨.owner, none⟩) with log := defined } := by
        rw [storeKey, run_bind, define]
      exact ⟨_, run.trans write, Function.update_idem .., rfl⟩
  | some selection =>
      obtain ⟨values, known, rfl⟩ := Option.map_eq_some_iff.mp guarded
      have listed (tool : Tool) (inside : tool ∈ [.nvDefine, .startPolicy, .policyPcr, .nvWrite]) :
          Ran plan tool := ran tool (List.mem_append_right _ inside)
      obtain ⟨computed, digest⟩ := compute_policy_run machine known
        fun tool inside => ran tool (List.mem_append_left _ inside)
      let policy : NvIndex := ⟨.policy ⟨selection, values⟩, none⟩
      let ready : Machine := { machine with
        pcrFile := some values, session := none, policyFile := some ⟨selection, values⟩,
        log := computed }
      obtain ⟨defined, define⟩ := nv_define_policy_run ready selection free rfl
        (listed .nvDefine (by decide))
      let session : Session := ⟨false, some ⟨selection, values⟩⟩
      have written (log : List Event) := nv_write_run
        { ready.setNv index (some policy) with session := some session, log := log }
        (some selection) (Function.update_self ..) file (by simp [Machine.grants, session])
        (listed .nvWrite (by decide))
      obtain ⟨flushed, log, store⟩ := with_policy_session_run
        { ready.setNv index (some policy) with log := defined }
        { (ready.setNv index (some policy)).setNv index (some { policy with content := some key })
          with session := some session }
        (nvWrite index (some selection)) known (listed .startPolicy (by decide))
        (listed .policyPcr (by decide)) (closed (Option.some_ne_none _)) written
      have run : (storeKey boot index (some selection)).run plan machine =
          (withPolicySession boot selection (nvWrite index (some selection))).run plan
            { ready.setNv index (some policy) with log := defined } := by
        rw [storeKey, run_bind, digest]
        dsimp only
        rw [run_bind, define]
      exact ⟨_, run.trans store, Function.update_idem .., rfl⟩

/-- How a store of a key succeeds. -/
structure StoreDone (boot : Boot) (plan : Plan DiskStep) (machine : Machine) (index : String)
    (pcrs : Option String) : Prop where
  survived : Survived plan .nvUndefine
  cleared : machine.nv index = none ∨ Begun plan .nvUndefine
  known : guardOf boot pcrs ≠ none
  ran : ∀ tool ∈ storeTools pcrs, Ran plan tool
  closed : pcrs ≠ none → Survived plan .flushPolicy

theorem tpm_nv_store_run (machine : Machine) {pcrs : Option String}
    (done : StoreDone boot plan machine index pcrs) (guarded : guardOf boot pcrs = some guard)
    (file : machine.keyFile = some key) :
    ∃ next, (tpmNvStore boot index pcrs).run plan machine = (.ok (), next) ∧
      next.nv = Function.update machine.nv index (some ⟨guard, some key⟩) ∧
      outside next = outside machine := by
  obtain ⟨log, undefined⟩ := nv_undefine_run machine done.survived done.cleared
  obtain ⟨next, stored, nv, same⟩ := store_key_run { machine.setNv index none with log := log }
    guarded (Function.update_self ..) file done.ran done.closed
  refine ⟨next, ?_, nv.trans (Function.update_idem ..), same⟩
  rw [tpmNvStore, run_bind, undefined]
  exact stored

/-- The operation of a session that succeeds has succeeded in a session that
satisfies the policy. -/
theorem with_policy_session_ok {machine : Machine} {operation : Disks Unit}
    (returned : ((withPolicySession boot selection operation).run plan machine).1 = .ok ()) :
    Ran plan .startPolicy ∧ Ran plan .policyPcr ∧ Survived plan .flushPolicy ∧
      ∃ values log, boot.pcrs selection = some values ∧ (operation.run plan { machine with
        session := some ⟨false, some ⟨selection, values⟩⟩, log := log }).1 = .ok () := by
  obtain ⟨_, started, rest⟩ := (run_bind_ok_iff ..).mp returned
  obtain ⟨operated, flushed⟩ := (run_attempt_cleanup_ok_iff ..).mp rest
  obtain ⟨_, satisfied, inner⟩ := (run_bind_ok_iff ..).mp operated
  have ranStart := ((run_tool_ok_iff _).mp started).1
  obtain ⟨ranPolicy, taken⟩ := (run_tool_ok_iff _).mp satisfied
  obtain ⟨_, start⟩ := start_policy_run machine ranStart
  obtain ⟨_, taken⟩ := Option.isSome_iff_exists.mp taken
  obtain ⟨_, values, -, known, -⟩ := (Machine.extended_eq_some_iff _ _).mp taken
  refine ⟨ranStart, ranPolicy, (ignore_tool_ok_iff ..).mp flushed, values, ?_⟩
  rw [start] at inner
  obtain ⟨log, policy⟩ := policy_pcr_run { machine with
    session := some ⟨false, none⟩, log := _ } rfl known ranPolicy
  rw [policy] at inner
  exact ⟨log, known, inner⟩

theorem compute_policy_ok {machine : Machine}
    (returned : ((computePolicy boot selection).run plan machine).1 = .ok ()) :
    (∀ tool ∈ policyTools, Ran plan tool) ∧ boot.pcrs selection ≠ none := by
  obtain ⟨_, read, rest⟩ := (run_bind_ok_iff ..).mp returned
  obtain ⟨_, started, rest⟩ := (run_bind_ok_iff ..).mp rest
  obtain ⟨_, digested, flushed⟩ := (run_bind_ok_iff ..).mp rest
  obtain ⟨ranRead, known⟩ := (run_tool_ok_iff _).mp read
  have ranStart := ((run_tool_ok_iff _).mp started).1
  have ranDigest := ((run_tool_ok_iff _).mp digested).1
  have ranFlush := ((run_tool_ok_iff _).mp flushed).1
  constructor
  · intro tool listed
    simp only [policyTools, List.mem_cons, List.not_mem_nil, or_false] at listed
    rcases listed with rfl | rfl | rfl | rfl
    · exact ranRead
    · exact ranStart
    · exact ranDigest
    · exact ranFlush
  · intro absent
    simp [absent] at known

theorem nv_define_ok {machine : Machine} {pcrs : Option String}
    (returned : ((nvDefine index pcrs).run plan machine).1 = .ok ()) :
    Ran plan .nvDefine ∧ machine.nv index = none := by
  obtain ⟨ran, taken⟩ := (run_tool_ok_iff _).mp returned
  refine ⟨ran, ?_⟩
  obtain ⟨next, taken⟩ := Option.isSome_iff_exists.mp taken
  cases pcrs with
  | none => exact ((Machine.nv_defined_eq_some_iff _ _).mp taken).1
  | some selection =>
      obtain ⟨digest, -, defined⟩ := Option.bind_eq_some_iff.mp taken
      exact ((Machine.nv_defined_eq_some_iff _ _).mp defined).1

theorem store_key_ok {machine : Machine} {pcrs : Option String}
    (returned : ((storeKey boot index pcrs).run plan machine).1 = .ok ()) :
    machine.nv index = none ∧ guardOf boot pcrs ≠ none ∧ (∀ tool ∈ storeTools pcrs, Ran plan tool) ∧
      (pcrs ≠ none → Survived plan .flushPolicy) := by
  cases pcrs with
  | none =>
      obtain ⟨_, defined, written⟩ := (run_bind_ok_iff ..).mp returned
      obtain ⟨ranDefine, free⟩ := nv_define_ok defined
      have ranWrite := ((run_tool_ok_iff _).mp written).1
      refine ⟨free, Option.some_ne_none _, ?_, fun selected => absurd rfl selected⟩
      intro tool listed
      simp only [storeTools, List.mem_cons, List.not_mem_nil, or_false] at listed
      rcases listed with rfl | rfl
      · exact ranDefine
      · exact ranWrite
  | some selection =>
      obtain ⟨_, computed, rest⟩ := (run_bind_ok_iff ..).mp returned
      obtain ⟨_, defined, stored⟩ := (run_bind_ok_iff ..).mp rest
      obtain ⟨policy, known⟩ := compute_policy_ok computed
      obtain ⟨ranDefine, free⟩ := nv_define_ok defined
      obtain ⟨started, satisfied, survived, _, _, -, written⟩ := with_policy_session_ok stored
      have ranWrite := ((run_tool_ok_iff _).mp written).1
      refine ⟨?_, ?_, ?_, fun _ => survived⟩
      · rw [← free, Lasting.compute_policy fun _ _ _ nv => nv]
      · simpa [guardOf] using known
      · intro tool listed
        rcases List.mem_append.mp listed with early | late
        · exact policy tool early
        · simp only [List.mem_cons, List.not_mem_nil, or_false] at late
          rcases late with rfl | rfl | rfl | rfl
          · exact ranDefine
          · exact started
          · exact satisfied
          · exact ranWrite

theorem tpm_nv_store_ok {machine : Machine} {pcrs : Option String}
    (returned : ((tpmNvStore boot index pcrs).run plan machine).1 = .ok ()) :
    StoreDone boot plan machine index pcrs := by
  obtain ⟨_, undefined, stored⟩ := (run_bind_ok_iff ..).mp returned
  obtain ⟨free, known, ran, closed⟩ := store_key_ok stored
  refine ⟨(ignore_tool_ok_iff ..).mp undefined, ?_, known, ran, closed⟩
  by_contra uncleared
  rw [nv_undefine_nv] at free
  rw [not_or] at uncleared
  have unbegun : ¬(plan (.spawn .nvUndefine) = .done ∧
    (plan (.exit .nvUndefine)).begins = true) := uncleared.2
  rw [if_neg unbegun] at free
  exact uncleared.1 free

/-- A key that is read was in the index, for whoever has this guard. -/
theorem read_key_ok {machine : Machine} {pcrs : Option String}
    (returned : ((readKey boot index pcrs).run plan machine).1 = .ok ()) :
    ∃ guard key, guardOf boot pcrs = some guard ∧ machine.nv index = some ⟨guard, some key⟩ := by
  have granted {before : Machine}
      (read : ((nvRead index pcrs).run plan before).1 = .ok ()) :
      ∃ held key, before.nv index = some held ∧ held.content = some key ∧
        before.grants pcrs.isNone held.guard = true := by
    obtain ⟨-, taken⟩ := (run_tool_ok_iff _).mp read
    obtain ⟨_, taken⟩ := Option.isSome_iff_exists.mp taken
    obtain ⟨held, key, found, content, granted, -⟩ := (Machine.nv_released_eq_some_iff _ _).mp taken
    refine ⟨held, key, found, content, ?_⟩
    cases guard : held.guard <;> rwa [guard] at granted
  cases pcrs with
  | none =>
      obtain ⟨⟨guard, content⟩, key, found, rfl, owned⟩ := granted returned
      cases guard with
      | owner => exact ⟨.owner, key, rfl, found⟩
      | policy digest => cases owned
  | some selection =>
      obtain ⟨-, -, -, values, _, known, read⟩ := with_policy_session_ok returned
      obtain ⟨⟨guard, content⟩, key, found, rfl, satisfied⟩ := granted read
      cases guard with
      | owner => cases satisfied
      | policy digest =>
          have digests : ⟨selection, values⟩ = digest := by simpa [Machine.grants] using satisfied
          subst digests
          exact ⟨_, key, by simp [guardOf, known], found⟩

theorem nv_read_run (machine : Machine) (pcrs : Option String)
    (stored : machine.nv index = some ⟨guard, some key⟩)
    (granted : machine.grants pcrs.isNone guard = true) (ran : Ran plan .nvRead) :
    (nvRead index pcrs).run plan machine = (.ok (), { machine with
      keyFile := some key
      log := machine.log ++ ranEvents .nvRead (nvReadArgs index pcrs) machine.keyFile }) := by
  apply run_tool_exact { machine with keyFile := some key } ran
  apply (Machine.nv_released_eq_some_iff _ _).mpr
  refine ⟨⟨guard, some key⟩, key, stored, rfl, ?_, rfl⟩
  cases guard <;> exact granted

/-- Neither the key file nor the index is read or written by what the event starts. -/
def Aside (event : Event) : Prop :=
  event.starts ≠ some .nvRead ∧ event.starts ≠ some .getRandom

/-- The key is read from the index. -/
theorem read_key_run (machine : Machine) {pcrs : Option String}
    (guarded : guardOf boot pcrs = some guard)
    (stored : machine.nv index = some ⟨guard, some key⟩) :
    ∃ session front back, (readKey boot index pcrs).run Plan.allDone machine =
        (.ok (), { machine with
          session := session, keyFile := some key,
          log := machine.log ++ front ++
            .tried .nvRead (nvReadArgs index pcrs) machine.keyFile true :: back }) ∧
      ∀ event ∈ back, Aside event := by
  cases pcrs with
  | none =>
      cases guarded
      refine ⟨machine.session, [], [.succeeded .nvRead], ?_, ?_⟩
      · rw [readKey, nv_read_run machine none stored rfl ⟨rfl, rfl⟩, List.append_nil]
        rfl
      · simp [Aside, Event.starts]
  | some selection =>
      obtain ⟨values, known, rfl⟩ := Option.map_eq_some_iff.mp guarded
      let opening := ranEvents .startPolicy ["--policy-session", "-S", sessionFile] machine.keyFile
      let entering := ranEvents .policyPcr ["-S", sessionFile, "-l", selection] machine.keyFile
      let opened : Machine :=
        { machine with session := some ⟨false, none⟩, log := machine.log ++ opening }
      have start : startPolicy.run Plan.allDone machine = (.ok (), opened) :=
        run_tool_exact { machine with session := some ⟨false, none⟩ } ⟨rfl, rfl⟩ rfl
      let session : Session := ⟨false, some ⟨selection, values⟩⟩
      let entered : Machine := { opened with
        session := some session, log := opened.log ++ entering }
      have policy : (policyPcr boot selection).run Plan.allDone opened = (.ok (), entered) :=
        run_tool_exact { opened with session := some session } ⟨rfl, rfl⟩
          ((Machine.extended_eq_some_iff _ _).mpr ⟨_, values, rfl, known, rfl⟩)
      have ran : Ran Plan.allDone .nvRead := ⟨rfl, rfl⟩
      have read := nv_read_run entered (some selection) stored
        (by simp [Machine.grants, entered, session]) ran
      have together : (policyPcr boot selection >>= fun _ => nvRead index (some selection)).run
          Plan.allDone opened = (nvRead index (some selection)).run Plan.allDone entered := by
        rw [run_bind, policy]
      have flush (before : Machine) (held : before.session ≠ none) :
          (ignore (runTool .flushPolicy "/usr/bin/tpm2_flushcontext" [sessionFile]
              Machine.flushed) : Disks Unit).run Plan.allDone before =
            (.ok (), { before with
              session := none
              log := before.log ++ ranEvents .flushPolicy [sessionFile] before.keyFile }) := by
        rw [run_ignore, run_tool_exact { before with session := none } ⟨rfl, rfl⟩
          (Machine.flushed_eq_some_iff.mpr ⟨held, rfl⟩)]
      refine ⟨none, opening ++ entering,
        .succeeded .nvRead :: ranEvents .flushPolicy [sessionFile] (some key), ?_, ?_⟩
      · rw [readKey, withPolicySession, run_bind, start]
        dsimp only
        rw [run_attempt_cleanup, together, read, flush _ (Option.some_ne_none session)]
        · simp [entered, opened, ranEvents]
        · rw [together, read]
          simp
        · rw [together, read, flush _ (Option.some_ne_none session)]
      · simp [Aside, Event.starts, ranEvents]

end Runs

end NodeOs.Initd.TpmCalls
