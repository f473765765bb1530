import NodeOs.Initd.TpmCalls

/-!
# The TPM sessions of the key store

All sessions are kept in one file. The log says whether the session in it has
been started and whether it has been flushed.
-/

namespace NodeOs.Initd.TpmSessions

open NodeOs.Library.FaultPlan NodeOs.Library.FaultPlan.Proc
open NodeOs.Initd.DiskTools NodeOs.Initd.Disks NodeOs.Initd.DiskCalls NodeOs.Initd.TpmCalls

def opens (tool : Tool) : Bool := tool == .startTrial || tool == .startPolicy

def closes (tool : Tool) : Bool := tool == .flushTrial || tool == .flushPolicy

/-- `held`: a session was started and no flush of it tried yet; `leaving`: the
flush was tried; `broken`: a session was started while another was not flushed. -/
inductive Bracket where
  | idle
  | held
  | leaving
  | broken
  deriving DecidableEq, Repr

def Bracket.opened : Bracket → Bracket
  | .idle => .held
  | _ => .broken

def Bracket.next : Bracket → Event → Bracket
  | .broken, _ => .broken
  | bracket, .tried tool args _ started =>
      if opens tool && started && bracket != .idle then .broken
      else if closes tool && args == [sessionFile] && bracket == .held then .leaving
      else bracket
  | bracket, .succeeded tool =>
      if opens tool then bracket.opened
      else if closes tool && bracket == .leaving then .idle
      else bracket

def bracketOf (events : List Event) : Bracket := events.foldl Bracket.next .idle

/-- Every session that the process starts it also tries to flush before it
returns, and it starts none while another is not flushed. -/
def Bracketed (plan : Plan DiskStep) (machine : Machine) (process : Disks Unit) : Prop :=
  let ran := process.run plan machine
  bracketOf (added machine ran.2) ≠ .broken ∧
    (ran.1 ≠ .killed → bracketOf (added machine ran.2) ≠ .held)

/-- The log since `base` leaves the session in this state. -/
def Since (base : List Event) (bracket : Bracket) (machine : Machine) : Prop :=
  ∃ events, machine.log = base ++ events ∧ bracketOf events = bracket

def Settled (base : List Event) (machine : Machine) : Prop :=
  Since base .idle machine ∨ Since base .leaving machine

def Unbroken (base : List Event) (machine : Machine) : Prop :=
  ∃ bracket, bracket ≠ .broken ∧ Since base bracket machine

section Rules

variable {base : List Event} {bracket middle : Bracket} {plan : Plan DiskStep} {machine : Machine}

theorem since_start (machine : Machine) : Since machine.log .idle machine :=
  ⟨[], (List.append_nil _).symm, rfl⟩

theorem since_note {event : Event} (holds : Since base bracket machine) :
    Since base (bracket.next event) (machine.note event) := by
  obtain ⟨events, grown, rfl⟩ := holds
  refine ⟨events ++ [event], ?_, ?_⟩
  · rw [← List.append_assoc, ← grown]
    rfl
  · rw [bracketOf, List.foldl_append]
    rfl

theorem unbroken_of_settled (holds : Settled base machine) : Unbroken base machine := by
  rcases holds with idle | leaving
  · exact ⟨.idle, by decide, idle⟩
  · exact ⟨.leaving, by decide, leaving⟩

/-- What one run of a tool does to the session. -/
theorem tool_meets (bracket middle final : Bracket) {tool : Tool} {program : String}
    {args : List String} {effect : Machine → Option Machine} (silent : Silent effect)
    (tries : ∀ keyFile started, bracket.next (.tried tool args keyFile started) = middle)
    (succeeds : middle.next (.succeeded tool) = final) :
    Meets plan (Since base bracket) (runTool tool program args effect)
      (fun _ => Since base final) (fun _ => Since base middle) (Since base middle) := by
  have tried (machine : Machine) (started : Bool) (holds : Since base bracket machine) :
      Since base middle (machine.attempt tool args started) := by
    rw [← tries machine.keyFile started]
    exact since_note holds
  have spawned (error : Error) : Meets plan (Since base bracket) (spawn tool error args)
      (fun _ => Since base middle) (fun _ => Since base middle) (Since base middle) :=
    Meets.step (fun machine => tried machine true) (fun machine _ => tried machine false)
      fun machine _ => tried machine false
  have kept (error : Error) :
    Preserves (Since base middle) (act (DiskStep.exit tool) error effect) := by
    refine Preserves.of_keeps (Keeps.act _ _ silent) ?_
    intro before after same ⟨events, grown, reached⟩
    exact ⟨events, same.trans grown, reached⟩
  have acted (error : Error) :
    Meets plan (Since base middle) (act (DiskStep.exit tool) error effect)
      (fun _ => Since base middle) (fun _ => Since base middle) (Since base middle) :=
    Meets.of_preserves (kept error) fun machine _ holds _ => kept error plan machine holds
  exact .bind (spawned _) fun _ => .bind (acted _) fun _ _ holds => by
    rw [← succeeds]
    exact since_note holds

/-- A tool that has nothing to do with sessions. -/
theorem other_tools_preserve {Value : Type} {tools : List Tool} {process : Disks Value}
    (starts : Starts tools process)
    (others : ∀ tool ∈ tools, opens tool = false ∧ closes tool = false) :
    Preserves (Since base bracket) process := by
  apply starts fun log => ∃ events, log = base ++ events ∧ bracketOf events = bracket
  intro log event listed ⟨events, grown, reached⟩
  refine ⟨events ++ [event], by rw [grown, List.append_assoc], ?_⟩
  obtain ⟨unopened, unclosed⟩ := others _ listed
  rw [bracketOf, List.foldl_append, ← bracketOf, reached]
  cases bracket <;> cases event <;> simp_all [Bracket.next, Event.tool]

theorem start_policy_meets :
    Meets plan (Since base .idle) startPolicy (fun _ => Since base .held)
      (fun _ => Since base .idle) (Since base .idle) := by
  have silent : Silent fun machine => some { machine with session := some ⟨false, none⟩ } := by
    intro machine next taken
    rw [← Option.some.inj taken]
  apply tool_meets .idle .idle .held silent
  · intro _ started
    cases started <;> rfl
  · rfl

theorem start_trial_meets (plan : Plan DiskStep) :
    Meets plan (Since base .idle) startTrial (fun _ => Since base .held)
      (fun _ => Since base .idle) (Since base .idle) := by
  have silent : Silent fun machine => some { machine with session := some ⟨true, none⟩ } := by
    intro machine next taken
    rw [← Option.some.inj taken]
  apply tool_meets .idle .idle .held silent
  · intro _ started
    cases started <;> rfl
  · rfl

theorem flush_meets {tool : Tool} (flushes : closes tool = true) (others : opens tool = false)
    (program : String) :
    Meets plan (Since base .held) (runTool tool program [sessionFile] Machine.flushed)
      (fun _ => Since base .idle) (fun _ => Since base .leaving) (Since base .leaving) := by
  apply tool_meets .held .leaving .idle silent_flushed
  · intro _ _
    simp [Bracket.next, flushes, others]
  · simp [Bracket.next, flushes, others]

end Rules

section Calls

variable {base : List Event} {plan : Plan DiskStep} {machine : Machine} {boot : Boot}
  {selection index : String}

theorem nv_read_others (pcrs : Option String) : Starts [.nvRead] (nvRead index pcrs) :=
  .tool (by simp) (silent_nv_released _ _)

theorem nv_write_others (pcrs : Option String) : Starts [.nvWrite] (nvWrite index pcrs) :=
  .tool (by simp) (silent_nv_written _ _)

theorem policy_pcr_others : Starts [.policyPcr] (policyPcr boot selection) :=
  .tool (by simp) fun machine next taken => silent_extended _ _ machine next taken

/-- The session of `with_policy_session` is flushed on every way out. -/
theorem with_policy_session_meets {operation : Disks Unit} {tools : List Tool}
    (starts : Starts tools operation)
    (others : ∀ tool ∈ tools, opens tool = false ∧ closes tool = false) :
    Meets plan (Since base .idle) (withPolicySession boot selection operation)
      (fun _ => Settled base) (fun _ => Settled base) (Unbroken base) := by
  have started : Meets plan (Since base .idle) startPolicy (fun _ => Since base .held)
      (fun _ => Settled base) (Unbroken base) :=
    start_policy_meets.weaken (fun _ => id) (fun _ _ => id) (fun _ _ => Or.inl)
      fun _ idle => ⟨.idle, by decide, idle⟩
  have used : Preserves (Since base .held)
      (attempt (policyPcr boot selection >>= fun _ => operation)) :=
    .attempt (.bind (other_tools_preserve policy_pcr_others (by simp [opens, closes]))
      fun _ => other_tools_preserve starts others)
  have held : Meets plan (Since base .held)
      (attempt (policyPcr boot selection >>= fun _ => operation))
      (fun _ => Since base .held) (fun _ => Settled base) (Unbroken base) := by
    intro machine holds
    have after := used plan machine holds
    rw [run_attempt] at after ⊢
    cases ran : (policyPcr boot selection >>= fun _ => operation).run plan machine with
    | mk outcome final =>
        rw [ran] at after
        cases outcome with
        | ok value => exact after
        | err error => exact after
        | killed => exact ⟨.held, by decide, after⟩
  have flushed : Meets plan (Since base .held)
      (ignore (runTool .flushPolicy "/usr/bin/tpm2_flushcontext" [sessionFile] Machine.flushed))
      (fun _ => Settled base) (fun _ => Settled base) (Unbroken base) := by
    apply Meets.ignore
    exact (flush_meets rfl rfl _).weaken (fun _ => id) (fun _ _ => Or.inl) (fun _ _ => Or.inr)
      fun _ leaving => ⟨.leaving, by decide, leaving⟩
  refine .bind started fun _ => .bind held fun result => .bind flushed fun _ => ?_
  cases result with
  | ok value => exact .ret fun _ => id
  | error error => exact .raise fun _ => id

theorem bracketed_of_meets {process : Disks Unit}
    (met : Meets plan (Since machine.log .idle) process (fun _ => Settled machine.log)
      (fun _ => Settled machine.log) (Unbroken machine.log)) :
    Bracketed plan machine process := by
  have ended := met machine (since_start machine)
  have settled (holds : Settled machine.log (process.run plan machine).2) :
      Bracketed plan machine process := by
    unfold Bracketed
    rcases holds with ⟨events, grown, reached⟩ | ⟨events, grown, reached⟩
    · simp [added_of_append grown, reached]
    · simp [added_of_append grown, reached]
  cases ran : process.run plan machine with
  | mk outcome final =>
      rw [ran] at ended settled
      cases outcome with
      | ok value => exact settled ended
      | err error => exact settled ended
      | killed =>
          obtain ⟨bracket, unbroken, events, grown, reached⟩ := ended
          unfold Bracketed
          rw [ran]
          simp [added_of_append grown, reached, unbroken]

theorem tpm_nv_read_bracketed : Bracketed plan machine (tpmNvRead boot index (some selection)) := by
  apply bracketed_of_meets
  apply Meets.bind
  · exact with_policy_session_meets (nv_read_others _) (by simp [opens, closes])
  · intro _
    exact .check (fun _ => id) (fun _ => id) fun _ => unbroken_of_settled

/-- The trial session is started, and the digest of its policy is not computed
although the machine runs on. -/
structure DigestFails (boot : Boot) (selection : String) (plan : Plan DiskStep) : Prop where
  read : Ran plan .pcrRead
  known : boot.pcrs selection ≠ none
  started : Ran plan .startTrial
  survived : Survived plan .policyDigest
  undigested : ¬Ran plan .policyDigest

theorem pcr_read_others : Starts [.pcrRead] (pcrRead boot selection) := by
  apply Starts.tool (by simp)
  intro machine next taken
  obtain ⟨values, -, rfl⟩ := Option.map_eq_some_iff.mp taken
  rfl

theorem silent_policy_digest : Silent fun machine =>
    (machine.extended selection machine.pcrFile).map fun machine =>
      { machine with policyFile := machine.session.bind Session.digest } := by
  intro machine next taken
  obtain ⟨later, extended, rfl⟩ := Option.map_eq_some_iff.mp taken
  exact silent_extended _ _ machine later extended

theorem policy_digest_others : Starts [.policyDigest] (policyDigest selection) :=
  .tool (by simp) silent_policy_digest

/-- What `computePolicy` does up to the start of its session. -/
theorem compute_policy_started {values : PcrValues} (idle : Since base .idle machine)
    (read : Ran plan .pcrRead) (known : boot.pcrs selection = some values)
    (started : Ran plan .startTrial) :
    ∃ next, (computePolicy boot selection).run plan machine =
        (policyDigest selection >>= fun _ => flushTrial).run plan next ∧
      Since base .held next ∧ next.session ≠ none ∧ next.pcrFile ≠ none := by
  obtain ⟨readLog, lookedUp⟩ := pcr_read_run machine known read
  let looked : Machine := { machine with pcrFile := some values, log := readLog }
  obtain ⟨startLog, opened⟩ := start_trial_run looked started
  have still : Since base .idle ((pcrRead boot selection).run plan machine).2 :=
    other_tools_preserve pcr_read_others (by simp [opens, closes]) plan machine idle
  rw [lookedUp] at still
  have held := start_trial_meets plan looked still
  rw [opened] at held
  refine ⟨{ looked with session := some ⟨true, none⟩, log := startLog }, ?_, held, by simp,
    by simp [looked]⟩
  rw [computePolicy, run_bind, lookedUp]
  change (startTrial >>= fun _ =>
    policyDigest selection >>= fun _ => flushTrial).run plan looked = _
  rw [run_bind, opened]

/-- A policy computation that does not come as far leaves no session. -/
theorem compute_policy_unstarted (idle : Since base .idle machine)
    (unstarted : ¬(Ran plan .pcrRead ∧ boot.pcrs selection ≠ none ∧ Ran plan .startTrial)) :
    Since base .idle ((computePolicy boot selection).run plan machine).2 ∧
      ∀ value, ((computePolicy boot selection).run plan machine).1 ≠ .ok value := by
  have still : Since base .idle ((pcrRead boot selection).run plan machine).2 :=
    other_tools_preserve pcr_read_others (by simp [opens, closes]) plan machine idle
  by_cases looked : ((pcrRead boot selection).run plan machine).1 = .ok ()
  · have unopened (value : Unit) :
        (startTrial.run plan ((pcrRead boot selection).run plan machine).2).1 ≠ .ok value := by
      intro opened
      obtain ⟨read, known⟩ := (run_tool_ok_iff ()).mp looked
      refine unstarted ⟨read, ?_, ((run_tool_ok_iff value).mp opened).1⟩
      intro absent
      simp [absent] at known
    have idle' := start_trial_meets plan _ still
    rw [computePolicy, run_bind_of_ok _ _ looked]
    obtain ⟨same, stopped⟩ := run_bind_of_not_ok _ _
      (fun _ => policyDigest selection >>= fun _ => flushTrial) unopened
    refine ⟨?_, stopped⟩
    rw [same]
    cases ran : startTrial.run plan ((pcrRead boot selection).run plan machine).2 with
    | mk outcome final =>
        rw [ran] at idle' unopened
        cases outcome with
        | ok value => exact absurd rfl (unopened value)
        | err error => exact idle'
        | killed => exact idle'
  · obtain ⟨same, stopped⟩ := run_bind_of_not_ok plan machine
      (fun _ => startTrial >>= fun _ => policyDigest selection >>= fun _ => flushTrial)
      fun _ => looked
    refine ⟨?_, stopped⟩
    rw [computePolicy, same]
    exact still

theorem policy_digest_ok_iff (session : machine.session ≠ none) (file : machine.pcrFile ≠ none)
    (value : Unit) :
    ((policyDigest selection).run plan machine).1 = .ok value ↔ Ran plan .policyDigest := by
  obtain ⟨opened, held⟩ := Option.ne_none_iff_exists'.mp session
  obtain ⟨values, read⟩ := Option.ne_none_iff_exists'.mp file
  rw [policyDigest, run_tool_ok_iff]
  simp [Machine.attempt, Machine.note, Machine.extended, held, read]

theorem policy_digest_held (held : Since base .held machine) :
    Since base .held ((policyDigest selection).run plan machine).2 :=
  other_tools_preserve policy_digest_others (by simp [opens, closes]) plan machine held

theorem compute_policy_meets (digests : ¬DigestFails boot selection plan) :
    Meets plan (Since base .idle) (computePolicy boot selection) (fun _ => Since base .idle)
      (fun _ => Settled base) (Unbroken base) := by
  intro machine idle
  by_cases started : Ran plan .pcrRead ∧ boot.pcrs selection ≠ none ∧ Ran plan .startTrial
  · obtain ⟨read, known, trial⟩ := started
    obtain ⟨values, same⟩ := Option.ne_none_iff_exists'.mp known
    obtain ⟨next, run, held, session, file⟩ := compute_policy_started idle read same trial
    rw [run]
    by_cases digested : Ran plan .policyDigest
    · have returned : ((policyDigest selection).run plan next).1 = .ok () :=
        (policy_digest_ok_iff session file ()).mpr digested
      rw [run_bind_of_ok _ _ returned]
      have flushed : Meets plan (Since base .held) flushTrial (fun _ => Since base .idle)
          (fun _ => Settled base) (Unbroken base) :=
        (flush_meets rfl rfl _).weaken (fun _ => id) (fun _ _ => id) (fun _ _ => Or.inr)
          fun _ leaving => ⟨.leaving, by decide, leaving⟩
      exact flushed _ (policy_digest_held held)
    · have killed : ((policyDigest selection).run plan next).1 = .killed := by
        apply run_tool_killed_iff.mpr
        intro survived
        exact digests ⟨read, known, trial, survived, digested⟩
      have after : Since base .held ((policyDigest selection).run plan next).2 :=
        policy_digest_held held
      rw [run_bind]
      cases ran : (policyDigest selection).run plan next with
      | mk outcome final =>
          rw [ran] at killed after
          cases killed
          exact ⟨.held, by decide, after⟩
  · obtain ⟨still, stopped⟩ := compute_policy_unstarted idle started
    cases ran : (computePolicy boot selection).run plan machine with
    | mk outcome final =>
        rw [ran] at still stopped
        cases outcome with
        | ok value => exact absurd rfl (stopped value)
        | err error => exact Or.inl still
        | killed => exact ⟨.idle, by decide, still⟩

theorem compute_policy_leaks (idle : Since base .idle machine)
    (fails : DigestFails boot selection plan) :
    Since base .held ((computePolicy boot selection).run plan machine).2 ∧
      ∃ error, ((computePolicy boot selection).run plan machine).1 = .err error := by
  obtain ⟨values, same⟩ := Option.ne_none_iff_exists'.mp fails.known
  obtain ⟨next, run, held, session, file⟩ :=
    compute_policy_started idle fails.read same fails.started
  have after : Since base .held ((policyDigest selection).run plan next).2 :=
    policy_digest_held held
  have survived : ((policyDigest selection).run plan next).1 ≠ .killed :=
    fun killed => run_tool_killed_iff.mp killed fails.survived
  have failed : ((policyDigest selection).run plan next).1 ≠ .ok () :=
    fun returned => fails.undigested ((policy_digest_ok_iff session file ()).mp returned)
  rw [run, run_bind]
  cases ran : (policyDigest selection).run plan next with
  | mk outcome final =>
      rw [ran] at after failed survived
      cases outcome with
      | ok value => exact absurd rfl failed
      | err error => exact ⟨after, error, rfl⟩
      | killed => exact absurd rfl survived

theorem nv_define_others (pcrs : Option String) : Starts [.nvDefine] (nvDefine index pcrs) := by
  apply Starts.tool (by simp)
  intro machine next taken
  cases pcrs with
  | none => exact silent_nv_defined _ _ machine next taken
  | some selection =>
      obtain ⟨digest, -, found⟩ := Option.bind_eq_some_iff.mp taken
      exact silent_nv_defined _ _ machine next found

theorem nv_undefine_others : Starts [.nvUndefine] (nvUndefine index) :=
  .ignore (.tool (by simp) (silent_nv_undefined _))

theorem other_tools_meet {tools : List Tool} {process : Disks Unit} (starts : Starts tools process)
    (others : ∀ tool ∈ tools, opens tool = false ∧ closes tool = false) :
    Meets plan (Since base .idle) process (fun _ => Since base .idle) (fun _ => Settled base)
      (Unbroken base) := by
  have kept : Preserves (Since base .idle) process := other_tools_preserve starts others
  have met : Meets plan (Since base .idle) process (fun _ => Since base .idle)
      (fun _ => Since base .idle) (Since base .idle) :=
    Meets.of_preserves kept fun machine _ idle _ => kept plan machine idle
  exact met.weaken (fun _ => id) (fun _ _ => id) (fun _ _ => Or.inl)
    fun _ idle => ⟨.idle, by decide, idle⟩

/-- The trial session leaks exactly if it is not used to its end. -/
theorem tpm_nv_store_bracketed_iff :
    Bracketed plan machine (tpmNvStore boot index (some selection)) ↔
      ¬(Survived plan .nvUndefine ∧ DigestFails boot selection plan) := by
  constructor
  · rintro bracketed ⟨cleared, fails⟩
    have undefined : ((nvUndefine index).run plan machine).1 = .ok () :=
      (ignore_tool_ok_iff ..).mpr cleared
    have idle : Since machine.log .idle ((nvUndefine index).run plan machine).2 :=
      other_tools_preserve nv_undefine_others (by simp [opens, closes]) plan machine
        (since_start machine)
    obtain ⟨⟨events, grown, held⟩, error, failed⟩ := compute_policy_leaks idle fails
    have stopped (value : Unit) : ((computePolicy boot selection).run plan
        ((nvUndefine index).run plan machine).2).1 ≠ .ok value := by
      rw [failed]
      simp
    have ended : (tpmNvStore boot index (some selection)).run plan machine =
        (.err error, ((computePolicy boot selection).run plan
          ((nvUndefine index).run plan machine).2).2) := by
      rw [tpmNvStore, run_bind_of_ok _ _ undefined, storeKey, run_bind]
      cases ran : (computePolicy boot selection).run plan
          ((nvUndefine index).run plan machine).2 with
      | mk outcome final =>
          rw [ran] at failed
          cases failed
          rfl
    unfold Bracketed at bracketed
    rw [ended] at bracketed
    exact bracketed.2 (by simp) (by rw [added_of_append grown, held])
  · intro tight
    apply bracketed_of_meets
    have defined : Meets plan (Since machine.log .idle) (nvDefine index (some selection))
        (fun _ => Since machine.log .idle) (fun _ => Settled machine.log) (Unbroken machine.log) :=
      other_tools_meet (nv_define_others _) (by simp [opens, closes])
    have written : Meets plan (Since machine.log .idle)
        (withPolicySession boot selection (nvWrite index (some selection)))
        (fun _ => Settled machine.log) (fun _ => Settled machine.log) (Unbroken machine.log) :=
      with_policy_session_meets (nv_write_others _) (by simp [opens, closes])
    by_cases cleared : Survived plan .nvUndefine
    · have computed : Meets plan (Since machine.log .idle) (computePolicy boot selection)
          (fun _ => Since machine.log .idle) (fun _ => Settled machine.log)
          (Unbroken machine.log) :=
        compute_policy_meets fun fails => tight ⟨cleared, fails⟩
      exact .bind (other_tools_meet nv_undefine_others (by simp [opens, closes])) fun _ =>
        .bind computed fun _ => .bind defined fun _ => written
    · have kept : Meets plan (Since machine.log .idle) (nvUndefine index)
          (fun _ => Since machine.log .idle) (fun _ => Settled machine.log)
          (Unbroken machine.log) :=
        other_tools_meet nv_undefine_others (by simp [opens, closes])
      intro before idle
      have undefined (value : Unit) : ((nvUndefine index).run plan before).1 ≠ .ok value :=
        fun returned => cleared ((ignore_tool_ok_iff ..).mp returned)
      have still := kept before idle
      rw [tpmNvStore, run_bind]
      cases ran : (nvUndefine index).run plan before with
      | mk outcome final =>
          rw [ran] at still undefined
          cases outcome with
          | ok value => exact absurd rfl (undefined value)
          | err error => exact still
          | killed => exact still

end Calls

/-- Both users of sessions: reading a key never leaks one, storing it leaks the
trial session exactly if the digest of the policy cannot be computed. -/
theorem sessions_flushed_iff (plan : Plan DiskStep) (machine : Machine) (boot : Boot)
    (index selection : String) :
    (Bracketed plan machine (tpmNvStore boot index (some selection)) ∧
        Bracketed plan machine (tpmNvRead boot index (some selection))) ↔
      ¬(Survived plan .nvUndefine ∧ DigestFails boot selection plan) := by
  rw [and_iff_left tpm_nv_read_bracketed]
  exact tpm_nv_store_bracketed_iff

/-- `tpm2_policypcr` exits with an error. -/
theorem trial_session_leaks :
    ¬∀ plan machine boot index selection,
      Bracketed plan machine (tpmNvStore boot index (some selection)) ∧
        Bracketed plan machine (tpmNvRead boot index (some selection)) := by
  intro bracketed
  let plan : Plan DiskStep := fun label =>
    if label = .exit .policyDigest then .fails 0 else .done
  let machine : Machine :=
    ⟨fun _ => .blank, fun _ => none, true, none, none, none, none, [], [], []⟩
  let boot : Boot := ⟨fun _ => some [0], fun _ => ⟨⟨List.replicate 32 7, rfl⟩, 1⟩, Plan.allDone⟩
  have closed := (bracketed plan machine boot "0x01500001" "sha256:4,7").1
  apply tpm_nv_store_bracketed_iff.mp closed
  refine ⟨⟨?_, ?_⟩, ⟨rfl, rfl⟩, nofun, ⟨rfl, rfl⟩, ⟨?_, ?_⟩, ?_⟩
  · exact fun _ => nofun
  · exact fun _ _ => nofun
  · exact fun _ => nofun
  · exact fun _ _ => nofun
  · intro ran
    cases ran.2

end NodeOs.Initd.TpmSessions
