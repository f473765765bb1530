import NodeOs.Initd.Disks

/-!
# What the calls of `apply_disks` start and change

For each function: which tools it may start, what it leaves alone, and under
which plan it succeeds.
-/

namespace NodeOs.Initd.DiskCalls

open NodeOs.Library.FaultPlan NodeOs.Library.FaultPlan.Proc
open NodeOs.Initd.DiskTools NodeOs.Initd.Disks

/-- A tool runs to its end. -/
def Ran (plan : Plan DiskStep) (tool : Tool) : Prop :=
  plan (.spawn tool) = .done ∧ plan (.exit tool) = .done

/-- A tool gets so far that it takes effect. -/
def Begun (plan : Plan DiskStep) (tool : Tool) : Prop :=
  plan (.spawn tool) = .done ∧ (plan (.exit tool)).begins = true

/-- The machine does not stop in a tool. -/
def Survived (plan : Plan DiskStep) (tool : Tool) : Prop :=
  (∀ extent, plan (.spawn tool) ≠ .killed extent) ∧
    (plan (.spawn tool) = .done → ∀ extent, plan (.exit tool) ≠ .killed extent)

/-- What a run has added to the log. -/
def added (before after : Machine) : List Event := after.log.drop before.log.length

theorem added_of_append {before after : Machine} {events : List Event}
    (grown : after.log = before.log ++ events) : added before after = events := by
  rw [added, grown, List.drop_left]

section Tools

variable {plan : Plan DiskStep} {machine next : Machine} {tool : Tool} {program : String}
  {args : List String} {effect : Machine → Option Machine}

theorem begun_of_ran (ran : Ran plan tool) : Begun plan tool := by
  refine ⟨ran.1, ?_⟩
  rw [ran.2]
  rfl

theorem spawn_ok_iff (error : Error) (value : Unit) :
    ((spawn tool error args).run plan machine).1 = .ok value ↔ plan (.spawn tool) = .done := by
  rw [spawn, run_step]
  cases plan (.spawn tool) <;> simp

theorem spawn_state (error : Error) :
    ((spawn tool error args).run plan machine).2 =
      machine.attempt tool args (plan (.spawn tool) == .done) := by
  rw [spawn, run_step]
  cases plan (.spawn tool) <;> rfl

theorem wait_run (error : Error) :
    (wait tool error effect).run plan machine =
      (match plan (.exit tool) with
        | .done => if (effect machine).isSome then .ok () else .err error
        | .fails _ => .err error
        | .killed _ => .killed,
      if plan (.exit tool) = .done ∧ (effect machine).isSome = true then
        ((effect machine).getD machine).note (.succeeded tool)
      else if (plan (.exit tool)).begins then (effect machine).getD machine else machine) := by
  rw [wait, run_bind, run_act]
  cases plan (.exit tool) with
  | done => cases effect machine <;> simp [Fate.begins]
  | fails extent => simp
  | killed extent => simp

/-- What a tool that has succeeded leaves. -/
theorem wait_ok {error : Error} {value : Unit}
    (returned : ((wait tool error effect).run plan machine).1 = .ok value) :
    ∃ next, effect machine = some next ∧
      ((wait tool error effect).run plan machine).2 = next.note (.succeeded tool) := by
  rw [wait_run] at returned ⊢
  cases exited : plan (.exit tool) with
  | done =>
      rw [exited] at returned
      cases taken : effect machine with
      | none => simp [taken] at returned
      | some next => exact ⟨next, rfl, by simp⟩
  | fails extent => simp [exited] at returned
  | killed extent => simp [exited] at returned

theorem tried_ok_iff (error failure : Error) (value : Unit) :
    ((spawn tool error args >>= fun _ => wait tool failure effect).run plan machine).1 =
        .ok value ↔
      Ran plan tool ∧ (effect (machine.attempt tool args true)).isSome = true := by
  rw [run_bind_ok_iff, Ran, and_assoc]
  have waited (before : Machine) (error : Error) :
      ((wait tool error effect).run plan before).1 = .ok value ↔
        plan (.exit tool) = .done ∧ (effect before).isSome = true := by
    rw [wait_run]
    cases effect before <;> cases plan (.exit tool) <;> simp
  constructor
  · rintro ⟨_, spawned, exited⟩
    have started := (spawn_ok_iff _ _).mp spawned
    rw [spawn_state, started] at exited
    exact ⟨started, (waited _ _).mp exited⟩
  · rintro ⟨started, done⟩
    refine ⟨(), (spawn_ok_iff _ _).mpr started, ?_⟩
    rw [spawn_state, started]
    exact (waited _ _).mpr done

theorem run_tool_ok_iff (value : Unit) :
    ((runTool tool program args effect).run plan machine).1 = .ok value ↔
      Ran plan tool ∧ (effect (machine.attempt tool args true)).isSome = true :=
  tried_ok_iff ..

theorem tried_unspawned (error failure : Error) (unspawned : plan (.spawn tool) ≠ .done) :
    ((spawn tool error args >>= fun _ => wait tool failure effect).run plan machine).2 =
      machine.attempt tool args false := by
  have stopped (value : Unit) : ((spawn tool error args).run plan machine).1 ≠ .ok value :=
    fun started => unspawned ((spawn_ok_iff _ _).mp started)
  have failed : (plan (.spawn tool) == .done) = false := by
    cases fate : plan (.spawn tool) with
    | done => exact absurd fate unspawned
    | fails extent => rfl
    | killed extent => rfl
  rw [(run_bind_of_not_ok _ _ _ stopped).1, spawn_state, failed]

theorem run_tool_unspawned (unspawned : plan (.spawn tool) ≠ .done) :
    ((runTool tool program args effect).run plan machine).2 = machine.attempt tool args false :=
  tried_unspawned _ _ unspawned

theorem tried_spawned (error failure : Error) (spawned : plan (.spawn tool) = .done) :
    (spawn tool error args >>= fun _ => wait tool failure effect).run plan machine =
      (wait tool failure effect).run plan (machine.attempt tool args true) := by
  have started : ((spawn tool error args).run plan machine).1 = .ok () :=
    (spawn_ok_iff _ _).mpr spawned
  rw [run_bind_of_ok _ _ started, spawn_state, spawned]
  rfl

theorem run_tool_spawned (spawned : plan (.spawn tool) = .done) :
    (runTool tool program args effect).run plan machine =
      (wait tool [s!"{program} failed: {exitStatus}"] effect).run plan
        (machine.attempt tool args true) :=
  tried_spawned _ _ spawned

theorem tried_done (error failure : Error) (ran : Ran plan tool)
    (taken : effect (machine.attempt tool args true) = some next) :
    (spawn tool error args >>= fun _ => wait tool failure effect).run plan machine =
      (.ok (), next.note (.succeeded tool)) := by
  rw [tried_spawned _ _ ran.1, wait_run, ran.2, taken]
  simp

/-- What a tool that runs to its end adds to the log. -/
def ranEvents (tool : Tool) (args : List String) (keyFile : Option Key) : List Event :=
  [.tried tool args keyFile true, .succeeded tool]

/-- A tool whose effect leaves `after`, but for the log. -/
theorem tried_exact (after : Machine) (error failure : Error) (ran : Ran plan tool)
    (taken : effect (machine.attempt tool args true) =
      some { after with log := (machine.attempt tool args true).log }) :
    (spawn tool error args >>= fun _ => wait tool failure effect).run plan machine =
      (.ok (), { after with log := machine.log ++ ranEvents tool args machine.keyFile }) := by
  rw [tried_done _ _ ran taken]
  simp [Machine.attempt, Machine.note, ranEvents]

theorem run_tool_exact (after : Machine) (ran : Ran plan tool)
    (taken : effect (machine.attempt tool args true) =
      some { after with log := (machine.attempt tool args true).log }) :
    (runTool tool program args effect).run plan machine =
      (.ok (), { after with log := machine.log ++ ranEvents tool args machine.keyFile }) :=
  tried_exact after _ _ ran taken

theorem run_tool_logged (after : Machine) (ran : Ran plan tool)
    (taken : effect (machine.attempt tool args true) =
      some { after with log := (machine.attempt tool args true).log }) :
    ∃ log, (runTool tool program args effect).run plan machine =
      (.ok (), { after with log := log }) :=
  ⟨_, run_tool_exact after ran taken⟩

theorem run_tool_killed_iff :
    ((runTool tool program args effect).run plan machine).1 = .killed ↔ ¬Survived plan tool := by
  unfold Survived
  cases spawned : plan (.spawn tool) with
  | done =>
      rw [run_tool_spawned spawned, wait_run]
      cases plan (.exit tool) with
      | done => cases effect (machine.attempt tool args true) <;> simp
      | fails extent => simp
      | killed extent => simp
  | fails extent => simp [runTool, run_bind, spawn, run_step, spawned]
  | killed extent => simp [runTool, run_bind, spawn, run_step, spawned]

end Tools

section Frames

variable {Part : Type} {view : Machine → Part}

theorem spawn_keeps (tool : Tool) (error : Error) (args : List String)
    (noted : ∀ machine event, view (Machine.note event machine) = view machine) :
    Keeps view (spawn tool error args) := by
  intro plan machine
  rw [spawn_state]
  exact noted machine _

theorem wait_keeps (tool : Tool) (error : Error) {effect : Machine → Option Machine}
    (noted : ∀ machine event, view (Machine.note event machine) = view machine)
    (kept : ∀ machine next, effect machine = some next → view next = view machine) :
    Keeps view (wait tool error effect) := by
  apply Keeps.bind (Keeps.act _ _ kept)
  intro _ plan machine
  exact noted machine _

/-- What neither the log nor the effect touches, a tool leaves alone. -/
theorem tool_keeps (tool : Tool) (program : String) (args : List String)
    {effect : Machine → Option Machine}
    (noted : ∀ machine event, view (Machine.note event machine) = view machine)
    (kept : ∀ machine next, effect machine = some next → view next = view machine) :
    Keeps view (runTool tool program args effect) :=
  .bind (spawn_keeps _ _ _ noted) fun _ => wait_keeps _ _ noted kept

/-- A view that the log does not change shows what the tool's effect does. -/
theorem tried_view {plan : Plan DiskStep} {machine : Machine} (view : Machine → Part) (tool : Tool)
    (error failure : Error) (args : List String) (effect : Machine → Option Machine)
    (noted : ∀ machine event, view (Machine.note event machine) = view machine) :
    view ((spawn tool error args >>= fun _ => wait tool failure effect).run plan machine).2 =
      if plan (.spawn tool) = .done ∧ (plan (.exit tool)).begins = true then
        view ((effect (machine.attempt tool args true)).getD (machine.attempt tool args true))
      else view machine := by
  by_cases spawned : plan (.spawn tool) = .done
  · rw [tried_spawned _ _ spawned, wait_run]
    cases plan (.exit tool) with
    | done => cases effect (machine.attempt tool args true) <;> simp [spawned, noted, Fate.begins]
    | fails extent =>
        by_cases begins : (Fate.fails extent).begins = true
        · simp [spawned, begins]
        · simp [spawned, begins, Machine.attempt, noted]
    | killed extent =>
        by_cases begins : (Fate.killed extent).begins = true
        · simp [spawned, begins]
        · simp [spawned, begins, Machine.attempt, noted]
  · rw [tried_unspawned _ _ spawned, if_neg fun begun => spawned begun.1]
    exact noted machine _

theorem tool_view {plan : Plan DiskStep} {machine : Machine} (view : Machine → Part) (tool : Tool)
    (program : String) (args : List String) (effect : Machine → Option Machine)
    (noted : ∀ machine event, view (Machine.note event machine) = view machine) :
    view ((runTool tool program args effect).run plan machine).2 =
      if plan (.spawn tool) = .done ∧ (plan (.exit tool)).begins = true then
        view ((effect (machine.attempt tool args true)).getD (machine.attempt tool args true))
      else view machine :=
  tried_view view tool _ _ args effect noted

theorem is_formatted_keeps (device : String) : Keeps id (isFormatted device) := by
  have magic : Keeps id (readMagic device) := by
    refine .bind (.check _ _) fun _ => .bind (.attempt (.check _ _)) fun ended => ?_
    cases ended with
    | ok value => exact .observe _
    | error error => exact .ret _
  refine .bind (.attempt (.check _ _)) fun found => ?_
  cases found with
  | error error => exact .ret _
  | ok value =>
      refine .bind (.check _ _) fun _ => .bind (.attempt (.check _ _)) fun sought => ?_
      cases sought with
      | error error => exact .ret _
      | ok value => exact magic

theorem run_mkfs_keeps (noted : ∀ machine event, view (Machine.note event machine) = view machine)
    (filled : ∀ machine device content, view (Machine.fill device content machine) = view machine)
    (platform : Platform) (draw : Draw) (disk : Disk) (source : Source) (command : String)
    (args : List String) : Keeps view (runMkfs platform draw disk source command args) := by
  refine .bind (spawn_keeps _ _ _ noted) fun _ => wait_keeps _ _ noted ?_
  intro machine next taken
  rcases Machine.formatted_fills taken with rfl | ⟨device, content, rfl⟩
  · rfl
  · exact filled machine device content

/-- What `ensure_dm_control` can change is the control node. -/
theorem ensure_dm_control_preserves {kept : Machine → Prop} {platform : Platform}
    (made : ∀ machine, kept machine → kept { machine with dmControl := true }) :
    Preserves kept (ensureDmControl platform) := by
  have asked : Preserves kept controlExists := by
    refine .bind (.attempt (.check _ _)) fun answer => ?_
    cases answer with
    | ok value => exact fun _ _ holds => holds
    | error error => exact .ret _
  have minor : Preserves kept (findMinor platform) := by
    unfold findMinor
    cases dmMinor platform.misc with
    | some minor => exact .ret _
    | none => exact .raise _
  have node : Preserves kept (act DiskStep.mknodControl ["mknod", osError] fun machine =>
      if machine.dmControl then none else some { machine with dmControl := true }) := by
    apply Preserves.act
    intro machine next taken
    simp only [Option.ite_none_left_eq_some, Option.some.injEq] at taken
    rw [← taken.2]
    exact made machine
  refine .bind asked fun there => ?_
  cases there with
  | true => exact .ret _
  | false => exact .bind (.check _ _) fun _ => .bind minor fun _ => .bind (.check _ _) fun _ => node

theorem mount_disk_keeps
    (mounting : ∀ machine mounts, view { machine with mounts := mounts } = view machine)
    (platform : Platform) (disk : Disk) (source : Source) :
    Keeps view (mountDisk platform disk source) := by
  have mounted (flags : Nat) :
      Keeps view (mountFs platform source disk.target disk.fstype flags) := by
    refine .bind (.ofExcept _) fun _ => .bind (.ofExcept _) fun _ => .bind (.ofExcept _) fun _ =>
      .act _ _ ?_
    intro machine next taken
    obtain ⟨made, -, allowed⟩ := Option.bind_eq_some_iff.mp taken
    simp only [Option.ite_none_right_eq_some, Option.some.injEq] at allowed
    rw [← allowed.2]
    exact mounting machine _
  exact .bind (.check _ _) fun _ => .bind (.ofExcept _) fun flags => .mapError (mounted flags)

end Frames

/-- The process tries no tools but these. -/
def Starts {Value : Type} (tools : List Tool) (process : Disks Value) : Prop :=
  ∀ inside : List Event → Prop,
    (∀ log event, event.tool ∈ tools → inside log → inside (log ++ [event])) →
      Preserves (fun machine => inside machine.log) process

/-- An effect that starts no tool of its own. -/
def Silent (effect : Machine → Option Machine) : Prop :=
  ∀ machine next, effect machine = some next → next.log = machine.log

namespace Starts

variable {Value Other : Type} {tools : List Tool}

theorem ret (value : Value) : Starts tools (pure value : Disks Value) :=
  fun _ _ => .ret value

theorem raise (error : Error) : Starts tools (Proc.raise error : Disks Value) :=
  fun _ _ => .raise error

theorem ofExcept (result : Except Error Value) :
    Starts tools (Proc.ofExcept result : Disks Value) :=
  fun _ _ => .ofExcept result

theorem observe (view : Machine → Value) : Starts tools (Proc.observe view : Disks Value) :=
  fun _ _ _ _ holds => holds

theorem check (label : DiskStep) (error : Error) : Starts tools (Proc.check label error) :=
  fun _ _ => .check label error

theorem bind {first : Disks Value} {next : Value → Disks Other} (head : Starts tools first)
    (tail : ∀ value, Starts tools (next value)) : Starts tools (first >>= next) :=
  fun inside closed => .bind (head inside closed) fun value => tail value inside closed

theorem attempt {process : Disks Value} (inner : Starts tools process) :
    Starts tools (Proc.attempt process) :=
  fun inside closed => .attempt (inner inside closed)

theorem ignore {process : Disks Value} (inner : Starts tools process) :
    Starts tools (Proc.ignore process) :=
  fun inside closed => .ignore (inner inside closed)

theorem act {effect : Machine → Option Machine} (label : DiskStep) (error : Error)
    (silent : Silent effect) : Starts tools (Proc.act label error effect) := by
  intro inside _
  apply Preserves.act
  intro machine next taken holds
  rw [silent machine next taken]
  exact holds

theorem spawn {tool : Tool} (listed : tool ∈ tools) (error : Error) (args : List String) :
    Starts tools (DiskTools.spawn tool error args) := by
  intro inside closed plan machine holds
  rw [spawn_state]
  exact closed machine.log _ listed holds

theorem wait {tool : Tool} {effect : Machine → Option Machine} (listed : tool ∈ tools)
    (error : Error) (silent : Silent effect) : Starts tools (DiskTools.wait tool error effect) := by
  intro inside closed
  apply Preserves.bind (Starts.act _ _ silent inside closed)
  intro _ plan machine holds
  exact closed machine.log _ listed holds

theorem tool {tool : Tool} {program : String} {args : List String}
    {effect : Machine → Option Machine} (listed : tool ∈ tools) (silent : Silent effect) :
    Starts tools (runTool tool program args effect) :=
  .bind (.spawn listed _ _) fun _ => .wait listed _ silent

theorem weaken {process : Disks Value} {more : List Tool} (inner : Starts tools process)
    (subset : ∀ tool ∈ tools, tool ∈ more) : Starts more process :=
  fun inside closed => inner inside fun log event listed => closed log event (subset _ listed)

end Starts

section Effects

theorem silent_some : Silent some := by
  intro machine next taken
  rw [Option.some.inj taken]

theorem silent_luks_formatted (device : String) : Silent (Machine.luksFormatted device) := by
  intro machine next taken
  obtain ⟨key, -, -, rfl⟩ := (Machine.luks_formatted_eq_some_iff _).mp taken
  rfl

theorem silent_luks_opened (device name : String) : Silent (Machine.luksOpened device name) := by
  intro machine next taken
  obtain ⟨key, inner, -, -, -, -, -, rfl⟩ := (Machine.luks_opened_eq_some_iff _ _).mp taken
  rfl

theorem silent_nv_undefined (index : String) : Silent (Machine.nvUndefined index) := by
  intro machine next taken
  obtain ⟨-, rfl⟩ := (Machine.nv_undefined_eq_some_iff _).mp taken
  rfl

theorem silent_nv_defined (index : String) (guard : Guard) :
    Silent (Machine.nvDefined index guard) := by
  intro machine next taken
  obtain ⟨-, rfl⟩ := (Machine.nv_defined_eq_some_iff _ _).mp taken
  rfl

theorem silent_nv_written (asOwner : Bool) (index : String) :
    Silent (Machine.nvWritten asOwner index) := by
  intro machine next taken
  obtain ⟨held, key, -, -, -, rfl⟩ := (Machine.nv_written_eq_some_iff _ _).mp taken
  rfl

theorem silent_nv_released (asOwner : Bool) (index : String) :
    Silent (Machine.nvReleased asOwner index) := by
  intro machine next taken
  obtain ⟨held, key, -, -, -, rfl⟩ := (Machine.nv_released_eq_some_iff _ _).mp taken
  rfl

theorem silent_extended (selection : String) (values : Option PcrValues) :
    Silent (Machine.extended selection values) := by
  intro machine next taken
  obtain ⟨session, read, -, -, rfl⟩ := (Machine.extended_eq_some_iff _ _).mp taken
  rfl

theorem silent_flushed : Silent Machine.flushed := by
  intro machine next taken
  obtain ⟨-, rfl⟩ := Machine.flushed_eq_some_iff.mp taken
  rfl

theorem silent_formatted (source : Source) (made : Option Filesystem) :
    Silent (Machine.formatted source made) := by
  intro machine next taken
  rcases Machine.formatted_fills taken with rfl | ⟨device, content, rfl⟩ <;> rfl

end Effects

section Started

variable (platform : Platform) (boot : Boot) (draw : Draw) (disk : Disk) (luks : Luks)

theorem ensure_dm_control_starts : Starts [] (ensureDmControl platform) :=
  fun _ _ => ensure_dm_control_preserves fun _ holds => holds

def examineTools : List Tool := [.logPcrs, .isLuks]

theorem examine_starts : Starts examineTools (examine platform disk luks) := by
  have silent : Silent fun machine =>
      if (machine.contents disk.device).isLuks then some machine else none := by
    intro machine next taken
    simp only [Option.ite_none_right_eq_some, Option.some.injEq] at taken
    rw [taken.2]
  have logged : Starts examineTools (logPcrs luks.pcrs) :=
    .ignore (.tool (by decide) silent_some)
  have answered : Starts examineTools (isLuks disk.device) :=
    .bind (.spawn (by decide) _ _) fun _ =>
      .bind (.attempt (.wait (by decide) _ silent)) fun _ => .ret _
  exact .bind ((ensure_dm_control_starts platform).weaken (by simp)) fun _ =>
    .bind logged fun _ => answered

theorem with_policy_session_starts {tools : List Tool} (selection : String)
    {operation : Disks Unit} (listed : ∀ tool ∈ [Tool.startPolicy, .policyPcr, .flushPolicy],
      tool ∈ tools) (inner : Starts tools operation) :
    Starts tools (withPolicySession boot selection operation) := by
  have started : Silent fun machine => some { machine with session := some ⟨false, none⟩ } := by
    intro machine next taken
    rw [← Option.some.inj taken]
  have satisfied : Starts tools (policyPcr boot selection) :=
    .tool (listed _ (by simp)) fun machine next taken => silent_extended _ _ machine next taken
  exact .bind (.tool (listed _ (by simp)) started) fun _ =>
    .bind (.attempt (.bind satisfied fun _ => inner)) fun _ =>
    .bind (.ignore (.tool (listed _ (by simp)) silent_flushed)) fun _ => .ofExcept _

theorem remove_key_starts : Starts [] removeKey := by
  have silent : Silent fun machine =>
      machine.keyFile.map fun _ => { machine with keyFile := none } := by
    intro machine next taken
    obtain ⟨key, -, rfl⟩ := Option.map_eq_some_iff.mp taken
    rfl
  exact .ignore (.act _ _ silent)

theorem then_remove_key_starts {tools : List Tool} {operation : Disks Unit}
    (inner : Starts tools operation) : Starts tools (thenRemoveKey operation) :=
  .bind (.attempt inner) fun _ => .bind (remove_key_starts.weaken (by simp)) fun _ => .ofExcept _

def unlockTools : List Tool := [.startPolicy, .policyPcr, .nvRead, .flushPolicy, .luksOpen]

theorem unlock_starts : Starts unlockTools (unlock boot disk luks) := by
  have released (asOwner : Option String) :
      Starts unlockTools (nvRead luks.tpmNvIndex asOwner) :=
    .tool (by decide) (silent_nv_released _ _)
  have read : Starts unlockTools (readKey boot luks.tpmNvIndex luks.pcrs) := by
    cases luks.pcrs with
    | none => exact released none
    | some selection =>
        exact with_policy_session_starts boot selection (by decide) (released _)
  have opened : Starts unlockTools (luksOpen disk.device luks.name) :=
    .tool (by decide) (silent_luks_opened _ _)
  exact .bind (.bind read fun _ => .check _ _) fun _ => then_remove_key_starts opened

theorem tpm_getrandom_starts : Starts [.getRandom] (tpmGetrandom draw) := by
  have silent : Silent fun machine => some { machine with keyFile := some draw.key } := by
    intro machine next taken
    rw [← Option.some.inj taken]
  exact .bind (.tool (by decide) silent) fun _ => .check _ _

def fillTools : List Tool :=
  [.luksOpen, .nvUndefine, .pcrRead, .startTrial, .policyDigest, .flushTrial, .nvDefine,
    .startPolicy, .policyPcr, .nvWrite, .flushPolicy, .mkfs]

theorem compute_policy_starts (selection : String) :
    Starts fillTools (computePolicy boot selection) := by
  have read : Starts fillTools (pcrRead boot selection) := by
    apply Starts.tool (by decide)
    intro machine next taken
    obtain ⟨values, -, rfl⟩ := Option.map_eq_some_iff.mp taken
    rfl
  have started : Starts fillTools startTrial := by
    apply Starts.tool (by decide)
    intro machine next taken
    rw [← Option.some.inj taken]
  have digested : Starts fillTools (policyDigest selection) := by
    apply Starts.tool (by decide)
    intro machine next taken
    obtain ⟨later, extended, rfl⟩ := Option.map_eq_some_iff.mp taken
    exact silent_extended _ _ machine later extended
  exact .bind read fun _ => .bind started fun _ => .bind digested fun _ =>
    .tool (by decide) silent_flushed

theorem tpm_nv_store_starts (index : String) (pcrs : Option String) :
    Starts fillTools (tpmNvStore boot index pcrs) := by
  have defined : Starts fillTools (nvDefine index pcrs) := by
    apply Starts.tool (by decide)
    intro machine next taken
    cases pcrs with
    | none => exact silent_nv_defined _ _ machine next taken
    | some selection =>
        obtain ⟨digest, -, found⟩ := Option.bind_eq_some_iff.mp taken
        exact silent_nv_defined _ _ machine next found
  have written : Starts fillTools (nvWrite index pcrs) :=
    .tool (by decide) (silent_nv_written _ _)
  have stored : Starts fillTools (storeKey boot index pcrs) := by
    cases pcrs with
    | none => exact .bind defined fun _ => written
    | some selection =>
        exact .bind (compute_policy_starts boot selection) fun _ => .bind defined fun _ =>
          with_policy_session_starts boot selection (by decide) written
  exact .bind (.ignore (.tool (by decide) (silent_nv_undefined _))) fun _ => stored

theorem run_mkfs_starts {tools : List Tool} (listed : .mkfs ∈ tools) (source : Source)
    (command : String) (args : List String) :
    Starts tools (runMkfs platform draw disk source command args) :=
  .bind (.spawn listed _ _) fun _ => .wait listed _ (silent_formatted _ _)

theorem fill_volume_starts : Starts fillTools (fillVolume platform boot draw disk luks) := by
  have formatted : Starts fillTools (formatTarget platform draw disk (.mapper luks.name)) := by
    unfold formatTarget
    cases disk.mkfs with
    | nil => exact .raise _
    | cons command args => exact run_mkfs_starts _ _ _ (by decide) _ _ _
  exact .bind (.tool (by decide) (silent_luks_opened _ _)) fun _ =>
    .bind (tpm_nv_store_starts boot _ _) fun _ => formatted

end Started

/-- A view that shows neither the log nor the control node of the device mapper. -/
structure Blind {Part : Type} (view : Machine → Part) : Prop where
  noted : ∀ machine event, view (Machine.note event machine) = view machine
  made : ∀ machine, view { machine with dmControl := true } = view machine

section Examined

variable {Part : Type} {view : Machine → Part} {platform : Platform} {plan : Plan DiskStep}
  {machine : Machine} {disk : Disk} {luks : Luks}

theorem control_exists_run :
    controlExists.run plan machine =
      match plan .statControl with
      | .done => (.ok machine.dmControl, machine)
      | .fails _ => (.ok false, machine)
      | .killed _ => (.killed, machine) := by
  rw [controlExists, run_bind, run_attempt, run_check]
  cases plan .statControl <;> rfl

/-- `/dev/mapper/control` can be made. -/
def ControlMakes (platform : Platform) (plan : Plan DiskStep) (machine : Machine) : Prop :=
  plan .readMisc = .done ∧ dmMinor platform.misc ≠ none ∧ plan .createMapperDir = .done ∧
    plan .mknodControl = .done ∧ machine.dmControl = false

/-- It is there, or it is not found and can be made. -/
def ControlReady (platform : Platform) (plan : Plan DiskStep) (machine : Machine) : Prop :=
  match plan .statControl with
  | .done => machine.dmControl = true ∨ ControlMakes platform plan machine
  | .fails _ => ControlMakes platform plan machine
  | .killed _ => False

theorem make_control_ok_iff (value : Unit) :
    ((makeControl platform).run plan machine).1 = .ok value ↔
      ControlMakes platform plan machine := by
  simp only [makeControl, run_bind_ok_iff, run_check_ok_iff, run_check_state, run_act_ok_iff]
  unfold findMinor ControlMakes
  cases dmMinor platform.misc with
  | none => simp
  | some minor =>
      cases present : machine.dmControl <;> simp [present]

theorem ensure_dm_control_ok_iff (value : Unit) :
    ((ensureDmControl platform).run plan machine).1 = .ok value ↔
      ControlReady platform plan machine := by
  rw [ensureDmControl, run_bind, control_exists_run]
  unfold ControlReady
  cases plan .statControl with
  | killed extent => simp
  | fails extent => exact make_control_ok_iff value
  | done =>
      cases present : machine.dmControl with
      | true => simp
      | false =>
          simp only [Bool.false_eq_true, if_false, false_or]
          exact make_control_ok_iff value

theorem ensure_dm_control_keeps (blind : Blind view) : Keeps view (ensureDmControl platform) := by
  intro plan machine
  have same : Preserves (fun later => view later = view machine) (ensureDmControl platform) :=
    ensure_dm_control_preserves fun later seen => (blind.made later).trans seen
  exact same plan machine rfl

theorem ensure_dm_control_there (ready : ControlReady platform plan machine) :
    ((ensureDmControl platform).run plan machine).2.dmControl = true := by
  have returned := (ensure_dm_control_ok_iff ()).mpr ready
  rw [ensureDmControl, run_bind, control_exists_run] at returned ⊢
  have made (returned : ((makeControl platform).run plan machine).1 = .ok ()) :
      ((makeControl platform).run plan machine).2.dmControl = true := by
    obtain ⟨read, found, created, node, absent⟩ := (make_control_ok_iff ()).mp returned
    obtain ⟨minor, known⟩ := Option.ne_none_iff_exists'.mp found
    simp [makeControl, run_bind, run_check, read, created, findMinor, known, run_act, node, absent,
      Fate.begins]
  cases fate : plan .statControl with
  | killed extent => simp [fate] at returned
  | fails extent =>
      rw [fate] at returned
      exact made returned
  | done =>
      rw [fate] at returned
      cases present : machine.dmControl with
      | true => simpa using present
      | false =>
          simp only [present] at returned ⊢
          exact made returned

theorem ignore_tool_ok_iff (tool : Tool) (program : String) (args : List String)
    (effect : Machine → Option Machine) (value : Unit) :
    ((ignore (runTool tool program args effect) : Disks Unit).run plan machine).1 = .ok value ↔
      Survived plan tool := by
  have outcome : ((runTool tool program args effect).run plan machine).1 = .killed ↔
      ¬Survived plan tool := run_tool_killed_iff
  rw [run_ignore]
  cases ran : (runTool tool program args effect).run plan machine with
  | mk result after =>
      rw [ran] at outcome
      cases result with
      | ok done => simpa using outcome
      | err error => simpa using outcome
      | killed => simpa using outcome

theorem ignore_tool_killed_iff (tool : Tool) (program : String) (args : List String)
    (effect : Machine → Option Machine) :
    ((ignore (runTool tool program args effect) : Disks Unit).run plan machine).1 = .killed ↔
      ¬Survived plan tool := by
  have alive : ((ignore (runTool tool program args effect) : Disks Unit).run plan machine).1 =
      .ok () ↔ Survived plan tool := ignore_tool_ok_iff ..
  rw [← alive, run_ignore]
  cases (runTool tool program args effect).run plan machine with
  | mk outcome after => cases outcome <;> simp

/-- What `cryptsetup isLuks` can say of a device. -/
def Answers (plan : Plan DiskStep) (content : Content) (carriesLuks : Bool) : Prop :=
  match plan (.exit .isLuks) with
  | .done => carriesLuks = content.isLuks
  | .fails _ => carriesLuks = false
  | .killed _ => False

theorem is_luks_ok_iff (device : String) (answer : Bool) :
    ((isLuks device).run plan machine).1 = .ok answer ↔
      plan (.spawn .isLuks) = .done ∧ Answers plan (machine.contents device) answer := by
  rw [isLuks, run_bind_ok_iff]
  have asked (before : Machine) (same : before.contents device = machine.contents device) :
      (((attempt (wait .isLuks [exitStatus] fun machine =>
          if (machine.contents device).isLuks then some machine else none)) >>= fun answer =>
        (pure answer.isOk : Disks Bool)).run plan before).1 = .ok answer ↔
          Answers plan (machine.contents device) answer := by
    rw [run_bind, run_attempt, wait_run]
    unfold Answers
    cases plan (.exit .isLuks) with
    | done =>
        rw [same]
        cases (machine.contents device).isLuks <;> cases answer <;>
          simp [Except.isOk, Except.toBool]
    | fails extent => cases answer <;> simp [Except.isOk, Except.toBool]
    | killed extent => simp
  constructor
  · rintro ⟨_, spawned, answered⟩
    refine ⟨(spawn_ok_iff _ _).mp spawned, ?_⟩
    rw [spawn_state] at answered
    exact (asked (machine.attempt _ _ _) rfl).mp answered
  · rintro ⟨spawned, answered⟩
    refine ⟨(), (spawn_ok_iff _ _).mpr spawned, ?_⟩
    rw [spawn_state]
    exact (asked (machine.attempt _ _ _) rfl).mpr answered

theorem log_pcrs_keeps (noted : ∀ machine event, view (Machine.note event machine) = view machine)
    (pcrs : Option String) : Keeps view (logPcrs pcrs) := by
  apply Keeps.ignore
  apply tool_keeps _ _ _ noted
  intro machine next taken
  rw [Option.some.inj taken]

theorem is_luks_keeps (noted : ∀ machine event, view (Machine.note event machine) = view machine)
    (device : String) : Keeps view (isLuks device) := by
  have asked : Keeps view (wait .isLuks [exitStatus] fun machine =>
      if (machine.contents device).isLuks then some machine else none) := by
    apply wait_keeps _ _ noted
    intro machine next taken
    simp only [Option.ite_none_right_eq_some, Option.some.injEq] at taken
    rw [taken.2]
  exact .bind (spawn_keeps _ _ _ noted) fun _ => .bind (.attempt asked) fun _ => .ret _

theorem examine_keeps (blind : Blind view) : Keeps view (examine platform disk luks) :=
  .bind (ensure_dm_control_keeps blind) fun _ => .bind (log_pcrs_keeps blind.noted _) fun _ =>
    is_luks_keeps blind.noted _

/-- `isLuks` is reached and gives this answer. -/
structure Examined (platform : Platform) (disk : Disk) (plan : Plan DiskStep) (machine : Machine)
    (carriesLuks : Bool) : Prop where
  control : ControlReady platform plan machine
  logged : Survived plan .logPcrs
  spawned : plan (.spawn .isLuks) = .done
  answer : Answers plan (machine.contents disk.device) carriesLuks

theorem examine_ok_iff (answer : Bool) :
    ((examine platform disk luks).run plan machine).1 = .ok answer ↔
      Examined platform disk plan machine answer := by
  have blind : Blind Machine.contents := ⟨fun _ _ => rfl, fun _ => rfl⟩
  have control : ((ensureDmControl platform).run plan machine).2.contents = machine.contents :=
    ensure_dm_control_keeps blind plan machine
  have logged := log_pcrs_keeps blind.noted luks.pcrs plan
    ((ensureDmControl platform).run plan machine).2
  have survived (before : Machine) (value : Unit) :
      ((logPcrs luks.pcrs).run plan before).1 = .ok value ↔ Survived plan .logPcrs :=
    ignore_tool_ok_iff ..
  simp only [examine, run_bind_ok_iff, ensure_dm_control_ok_iff, survived, is_luks_ok_iff, logged,
    control]
  constructor
  · rintro ⟨_, ready, _, passed, spawned, answered⟩
    exact ⟨ready, passed, spawned, answered⟩
  · rintro ⟨ready, passed, spawned, answered⟩
    exact ⟨(), ready, (), passed, spawned, answered⟩

end Examined

section Visits

variable {platform : Platform} {plan : Plan DiskStep} {disk : Disk}

/-- The mount of a volume that the kernel takes. -/
theorem mount_disk_run {source : Source} {flags : Nat} {made : Filesystem} {machine : Machine}
    (created : plan .createTarget = .done) (mounted : plan .mount = .done)
    (flagged : mountFlags disk.flags = .ok flags) (path : cString source.path = .ok ())
    (target : cString disk.target = .ok ()) (fstype : cString disk.fstype = .ok ())
    (seen : machine.volume source = some made)
    (mountable : platform.mountable disk.fstype made.format.kind = true) :
    (mountDisk platform disk source).run plan machine =
      (.ok (), { machine with
        mounts := machine.mounts ++ [⟨source, disk.target, disk.fstype, flags, made⟩] }) := by
  have done : (mountFs platform source disk.target disk.fstype flags).run plan machine =
      (.ok (), { machine with
        mounts := machine.mounts ++ [⟨source, disk.target, disk.fstype, flags, made⟩] }) := by
    simp [mountFs, run_bind, path, target, fstype, run_act, mounted, seen, mountable, Fate.begins]
  rw [mountDisk, run_bind, run_check, created]
  simp only [flagged, run_bind, run_ofExcept_ok, run_mapError, done]

theorem boot_disks_singleton (boot : Boot) (machine : Machine) :
    bootDisks platform [disk] boot machine =
      (visit platform boot 0 disk).run boot.plan (powerOn platform machine) := by
  rw [bootDisks, applyDisks, run_bind, each, run_bind]
  cases (visit platform boot 0 disk).run boot.plan (powerOn platform machine) with
  | mk outcome after => cases outcome <;> rfl

end Visits

end NodeOs.Initd.DiskCalls
