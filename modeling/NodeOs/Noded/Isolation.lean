import NodeOs.Library.Interleaving
import NodeOs.Noded.Enrollment
import NodeOs.Noded.Reconcile
import NodeOs.Noded.WriteStages

/-!
# Calls of `write_atomic` on different paths

Requests and the renewal loop write their files at the same time. Threads of calls
whose paths and temporary names are apart leave at every moment what the same calls
leave one after the other.
-/

namespace NodeOs.Noded.Isolation

open NodeOs.Library NodeOs.Library.FaultPlan NodeOs.Library.FaultPlan.Proc
open NodeOs.Library.Interleaving (Joint Advance Independent alone)
open NodeOs.Noded.FileSystem NodeOs.Noded.WriteAtomic NodeOs.Noded.WriteStages

/-- Calls that `?` puts one after the other. -/
def runSeries : List Call → Disk → Outcome Error Unit × Disk
  | [], disk => (.ok (), disk)
  | call :: calls, disk =>
      match call.run disk with
      | (.ok (), after) => runSeries calls after
      | (.err error, after) => (.err error, after)
      | (.killed, after) => (.killed, after)

/-- How far a thread is: the calls that have returned, and the current one. -/
structure Place where
  returned : Nat
  stage : Stage

def Place.start : Place := ⟨0, .making 0⟩

/-- The calls of every thread are fixed. A call that has returned well is
followed by the next one. -/
def advance {Thread : Type} (threads : Thread → List Call) :
    Advance Thread Place Disk := fun thread place disk =>
  (threads thread)[place.returned]?.bind fun call =>
    match place.stage with
    | .ended (.ok ()) => some (⟨place.returned + 1, .making 0⟩, disk)
    | stage => (call.advance disk stage).map fun next => (⟨place.returned, next.1⟩, next.2)

def begins {Thread : Type} (start : Disk) : Joint Thread Place Disk :=
  ⟨fun _ => .start, start⟩

/-- The calls of a thread as far as it is, the last one killed where it stands. -/
def executed (calls : List Call) (place : Place) : List Call :=
  calls.take place.returned ++
    (calls[place.returned]?.map (Call.haltedAt place.stage)).toList

def Touches (calls : List Call) (path : Path) : Prop := ∃ call ∈ calls, call.Touches path

/-- No file of one thread is a file of another one. -/
def Isolated {Thread : Type} (threads : Thread → List Call) : Prop :=
  ∀ first second, first ≠ second → ∀ path, Touches (threads first) path →
    ¬Touches (threads second) path

section Locality

variable {Thread : Type} {threads : Thread → List Call}

theorem thread_local (thread : Thread) (place : Place) :
    Local (Touches (threads thread)) (advance threads thread place) := by
  unfold advance
  cases current : (threads thread)[place.returned]? with
  | none => exact .none
  | some call =>
      have listed : call ∈ threads thread := List.mem_of_getElem? current
      have owned : ∀ path, call.Touches path → Touches (threads thread) path :=
        fun path touched => ⟨call, listed, touched⟩
      simp only [Option.bind_some]
      split
      · exact .stay _
      · exact (advance_local call owned place.stage).map _

theorem isolated_independent (isolated : Isolated threads) (first second : Thread)
    (apart : first ≠ second) : Independent (advance threads) first second := by
  intro left right disk
  have here : Local (Touches (threads first)) (advance threads first left) := thread_local _ _
  have there : Local (Touches (threads second)) (advance threads second right) := thread_local _ _
  have disjoint := isolated first second apart
  have reverse := isolated second first apart.symm
  unfold Interleaving.both
  cases moved : advance threads first left disk with
  | none =>
      cases went : advance threads second right disk with
      | none => rfl
      | some two =>
          have stuck := (here.stuck_iff there disjoint went).mpr moved
          simp [stuck]
  | some one =>
      cases went : advance threads second right disk with
      | none =>
          have stuck := (there.stuck_iff here reverse moved).mpr went
          simp [stuck]
      | some two =>
          obtain ⟨last, after, also⟩ := here.comm_of_taken there disjoint moved went
          simp [after, also]

end Locality

section Threads

/-- What a thread has to say at the end: all its calls have returned, or one has
not returned well. -/
def answer (calls : List Call) (place : Place) : Option (Outcome Error Unit) :=
  match calls[place.returned]?, place.stage with
  | none, _ => some (.ok ())
  | some _, .ended (.ok ()) => none
  | some _, .ended outcome => some outcome
  | some _, _ => none

/-- The calls before the current one have returned well. -/
def Reached (calls : List Call) (before : Disk) (place : Place) (disk : Disk) : Prop :=
  ∃ middle, runSeries (calls.take place.returned) before = (.ok (), middle) ∧
    match calls[place.returned]? with
    | some call => Staged call middle place.stage disk
    | none => disk = middle

variable {calls : List Call} {before disk after : Disk} {place next : Place}

theorem run_series_append (first second : List Call) (disk : Disk) :
    runSeries (first ++ second) disk =
      match runSeries first disk with
      | (.ok (), after) => runSeries second after
      | (.err error, after) => (.err error, after)
      | (.killed, after) => (.killed, after) := by
  induction first generalizing disk with
  | nil => rfl
  | cons call first ih =>
      simp only [List.cons_append, runSeries]
      cases call.run disk with
      | mk outcome after =>
          cases outcome with
          | ok value => exact ih after
          | err error => rfl
          | killed => rfl

theorem run_series_single (call : Call) (disk : Disk) : runSeries [call] disk = call.run disk := by
  simp only [runSeries]
  cases call.run disk with
  | mk outcome after => cases outcome <;> rfl

theorem start_reached (calls : List Call) (before : Disk) :
    Reached calls before .start before := by
  refine ⟨before, rfl, ?_⟩
  cases first : calls[Place.start.returned]? with
  | none => rfl
  | some call => exact starts_staged call before

theorem advance_reached {Thread : Type} {threads : Thread → List Call} {thread : Thread}
    (reached : Reached (threads thread) before place disk)
    (taken : advance threads thread place disk = some (next, after)) :
    Reached (threads thread) before next after := by
  obtain ⟨middle, ran, staged⟩ := reached
  cases current : (threads thread)[place.returned]? with
  | none => simp [advance, current] at taken
  | some call =>
      simp only [current] at staged
      simp only [advance, current, Option.bind_some] at taken
      by_cases done : place.stage = .ended (.ok ())
      · rw [done] at taken staged
        obtain ⟨rfl, rfl⟩ := Prod.ext_iff.mp (Option.some.inj taken)
        refine ⟨disk, ?_, ?_⟩
        · simp only [List.take_add_one, current, Option.toList_some, run_series_append, ran,
            run_series_single]
          exact staged
        · cases later : (threads thread)[place.returned + 1]? with
          | none => simp only
          | some following => exact starts_staged following disk
      · have moved : (call.advance disk place.stage).map
            (fun next => (Place.mk place.returned next.1, next.2)) = some (next, after) := by
          revert taken
          split
          · rename_i ended
            exact absurd ended done
          · exact id
        obtain ⟨inner, took, same⟩ := Option.map_eq_some_iff.mp moved
        cases same
        refine ⟨middle, ran, ?_⟩
        simp only [current]
        exact advance_staged staged took

theorem alone_reached {Thread : Type} {threads : Thread → List Call} {thread : Thread} {count : Nat}
    (reached : Reached (threads thread) before place disk)
    (ran : alone (advance threads) thread count place disk = some (next, after)) :
    Reached (threads thread) before next after := by
  induction count generalizing place disk with
  | zero =>
      cases ran
      exact reached
  | succ count ih =>
      obtain ⟨middle, taken, later⟩ := Option.bind_eq_some_iff.mp ran
      exact ih (advance_reached reached taken) later

theorem reached_executed (reached : Reached calls before place disk) :
    (runSeries (executed calls place) before).2 = disk := by
  obtain ⟨middle, ran, staged⟩ := reached
  rw [executed, run_series_append, ran]
  cases current : calls[place.returned]? with
  | none =>
      simp only [current] at staged
      simp [runSeries, staged]
  | some call =>
      simp only [current] at staged
      simp only [Option.map_some, Option.toList_some, run_series_single]
      exact halted_run staged

theorem reached_answer (reached : Reached calls before place disk) {outcome : Outcome Error Unit}
    (answered : answer calls place = some outcome) : runSeries calls before = (outcome, disk) := by
  obtain ⟨middle, ran, staged⟩ := reached
  have whole := run_series_append (calls.take place.returned) (calls.drop place.returned) before
  rw [List.take_append_drop, ran] at whole
  cases current : calls[place.returned]? with
  | none =>
      simp only [current] at staged
      simp only [answer, current, Option.some.injEq] at answered
      rw [whole, List.drop_eq_nil_of_le (List.getElem?_eq_none_iff.mp current), ← answered, staged]
      rfl
  | some call =>
      simp only [current] at staged
      have split : calls.drop place.returned = call :: calls.drop (place.returned + 1) := by
        obtain ⟨inside, same⟩ := List.getElem?_eq_some_iff.mp current
        rw [← same, List.drop_eq_getElem_cons inside]
      cases stage : place.stage with
      | ended final =>
          rw [stage] at staged
          simp only [answer, current, stage] at answered
          rw [whole, split]
          simp only [runSeries, show call.run middle = (final, disk) from staged]
          cases final with
          | ok value => simp at answered
          | err error => rw [← Option.some.inj answered]
          | killed => rw [← Option.some.inj answered]
      | _ => simp [answer, current, stage] at answered

/-- A thread that has not answered is never blocked. -/
theorem reached_advances {Thread : Type} {threads : Thread → List Call} {thread : Thread}
    (reached : Reached (threads thread) before place disk)
    (waiting : answer (threads thread) place = none) (now : Disk) :
    (advance threads thread place now).isSome = true := by
  obtain ⟨middle, -, staged⟩ := reached
  unfold advance
  cases current : (threads thread)[place.returned]? with
  | none => simp [answer, current] at waiting
  | some call =>
      simp only [current] at staged
      simp only [Option.bind_some]
      cases stage : place.stage with
      | ended outcome =>
          cases outcome with
          | ok value => rfl
          | err error => simp [answer, current, stage] at waiting
          | killed => simp [answer, current, stage] at waiting
      | making made =>
          simp only [Option.isSome_map, Call.advance]
          split
          · rfl
          · split <;> rfl
      | opening =>
          simp only [Option.isSome_map, Call.advance]
          split <;> rfl
      | writing count =>
          rw [stage] at staged
          obtain ⟨_, _, -, named, -⟩ := staged
          simp [Call.advance, named]
      | syncing =>
          rw [stage] at staged
          obtain ⟨_, _, -, named, -⟩ := staged
          simp [Call.advance, named]
      | moving =>
          rw [stage] at staged
          obtain ⟨_, _, -, named, -⟩ := staged
          simp [Call.advance, named]
      | openingDir =>
          simp only [Option.isSome_map, Call.advance]
          split <;> rfl
      | syncingDir =>
          simp only [Option.isSome_map, Call.advance]
          split <;> rfl

section Schedules

variable {Thread : Type} [DecidableEq Thread] {threads : Thread → List Call} {start : Disk}
  {schedule order : List Thread} {state : Joint Thread Place Disk}

theorem scheduled_reached (isolated : Isolated threads)
    (reached : Machine.run (Interleaving.step (advance threads)) (begins start) schedule =
      some state)
    (thread : Thread) : ∃ disk, Reached (threads thread) start (state.own thread) disk := by
  obtain ⟨disk, ran⟩ :=
    Interleaving.alone_of_run (isolated_independent isolated) reached thread
  exact ⟨disk, alone_reached (start_reached _ _) ran⟩

/-- The disk of an interleaving, given what each thread does alone. -/
theorem scheduled_disk (isolated : Isolated threads)
    (reached : Machine.run (Interleaving.step (advance threads)) (begins start) schedule =
      some state)
    (distinct : order.Nodup) (covered : ∀ thread ∈ schedule, thread ∈ order)
    {effect : Thread → Place → Disk → Disk}
    (solo : ∀ thread before place after, Reached (threads thread) before place after →
      after = effect thread place before) :
    state.shared =
      order.foldl (fun disk thread => effect thread (state.own thread) disk) start := by
  rw [Interleaving.run_in_turn (isolated_independent isolated) distinct covered] at reached
  have begun : ∀ thread ∈ order,
      (begins start : Joint Thread Place Disk).own thread = (fun _ => Place.start) thread :=
    fun _ _ => rfl
  refine (Interleaving.in_turn_effect (fun thread before after ran => ?_) distinct begun reached).1
  exact solo thread before _ _ (alone_reached (start_reached _ _) ran)

theorem scheduled_answer (isolated : Isolated threads)
    (reached : Machine.run (Interleaving.step (advance threads)) (begins start) schedule =
      some state)
    {thread : Thread} {outcome : Outcome Error Unit}
    (answered : answer (threads thread) (state.own thread) = some outcome) :
    (runSeries (threads thread) start).1 = outcome := by
  obtain ⟨disk, own⟩ := scheduled_reached isolated reached thread
  rw [reached_answer own answered]

theorem finished_disk (isolated : Isolated threads)
    (reached : Machine.run (Interleaving.step (advance threads)) (begins start) schedule =
      some state)
    (distinct : order.Nodup) (covered : ∀ thread ∈ schedule, thread ∈ order)
    (finished : ∀ thread ∈ order, (answer (threads thread) (state.own thread)).isSome = true) :
    state.shared = order.foldl (fun disk thread => (runSeries (threads thread) disk).2) start := by
  have whole : ∀ thread before place after, Reached (threads thread) before place after →
      after = (if (answer (threads thread) place).isSome = true
        then runSeries (threads thread) before
        else runSeries (executed (threads thread) place) before).2 := by
    intro thread before place after own
    split
    · rename_i answered
      obtain ⟨outcome, answered⟩ := Option.isSome_iff_exists.mp answered
      rw [reached_answer own answered]
    · exact (reached_executed own).symm
  rw [scheduled_disk isolated reached distinct covered whole]
  refine List.foldl_ext _ _ _ fun disk thread listed => ?_
  rw [if_pos (finished thread listed)]

end Schedules

/-- Threads of calls whose files are apart, interleaved in any way: at every moment
the disk is the one that the calls leave one thread after the other, in any order,
each thread's last call killed where it stands; no thread is blocked; and each
answers what it answers alone. -/
theorem interleaved_writes_serialize {Thread : Type} [DecidableEq Thread]
    (threads : Thread → List Call) (isolated : Isolated threads) (start : Disk)
    (schedule : List Thread) (state : Joint Thread Place Disk)
    (reached : Machine.run (Interleaving.step (advance threads)) (begins start) schedule =
      some state)
    (order : List Thread) (distinct : order.Nodup)
    (covered : ∀ thread ∈ schedule, thread ∈ order) :
    state.shared = order.foldl
        (fun disk thread => (runSeries
          (executed (threads thread) (state.own thread)) disk).2) start ∧
      (∀ thread, answer (threads thread) (state.own thread) = none →
        (Interleaving.step (advance threads) state thread).isSome = true) ∧
      (∀ thread outcome, answer (threads thread) (state.own thread) = some outcome →
        (runSeries (threads thread) start).1 = outcome) ∧
      ((∀ thread ∈ order, (answer (threads thread) (state.own thread)).isSome = true) →
        state.shared =
          order.foldl (fun disk thread => (runSeries (threads thread) disk).2) start) := by
  refine ⟨?_, fun thread waiting => ?_, fun thread outcome answered => ?_, fun finished => ?_⟩
  · exact scheduled_disk isolated reached distinct covered fun thread before place after own =>
      (reached_executed own).symm
  · obtain ⟨disk, own⟩ := scheduled_reached isolated reached thread
    simpa [Interleaving.step] using reached_advances own waiting state.shared
  · exact scheduled_answer isolated reached answered
  · exact finished_disk isolated reached distinct covered finished

/-- No file belongs to both paths. -/
def NamesApart (first second : Path) : Prop :=
  ∀ file, (first = file ∨ first.tempPath = some file) →
    ¬(second = file ∨ second.tempPath = some file)

theorem names_apart_of_parents {first second one two : Path} (left : first.parent = some one)
    (right : second.parent = some two) (apart : one ≠ two) : NamesApart first second := by
  have inside {path dir file : Path} (parented : path.parent = some dir)
      (named : path = file ∨ path.tempPath = some file) : file.parent = some dir := by
    rcases named with rfl | staged
    · exact parented
    · cases name : path.fileName with
      | none => simp [Path.tempPath, parented, name] at staged
      | some text =>
          rw [Path.temp_path_of_name parented name] at staged
          rw [← Option.some.inj staged]
          rfl
  intro file touched also
  have same := (inside left touched).symm.trans (inside right also)
  exact apart (Option.some.inj same)

/-- A call in `/etc` and one in `/var`. -/
def twoCalls (left : Bool) : List Call :=
  [⟨.ofNames [if left then "etc" else "var", "file"], [1, 2], false, .allDone⟩]

theorem two_calls_isolated : Isolated twoCalls := by
  rintro first second different path ⟨call, listed, touched⟩ ⟨other, member, also⟩
  obtain rfl := List.mem_singleton.mp listed
  obtain rfl := List.mem_singleton.mp member
  refine names_apart_of_parents rfl rfl ?_ path touched also
  cases first <;> cases second <;> first | exact absurd rfl different | decide

theorem interleaved_writes_serialize_sample : ∃ state,
    Machine.run (Interleaving.step (advance twoCalls)) (begins Disk.empty)
        [true, false, false, true, true, false] = some state ∧
      state.shared = [false, true].foldl (fun disk thread =>
        (runSeries (executed (twoCalls thread) (state.own thread)) disk).2) Disk.empty := by
  obtain ⟨state, reached⟩ := Option.isSome_iff_exists.mp
    (rfl : (Machine.run (Interleaving.step (advance twoCalls)) (begins Disk.empty)
      [true, false, false, true, true, false]).isSome = true)
  exact ⟨state, reached,
    (interleaved_writes_serialize twoCalls two_calls_isolated Disk.empty _ state
    reached [false, true] (by decide) (by decide)).1⟩

end Threads

section Daemon

open NodeOs.Noded.Enrollment NodeOs.Noded.Reconcile NodeOs.Noded.Workload
open NodeOs.Noded.Authorization

inductive Writer where
  | request
  | renewal
  deriving DecidableEq

def writeCall (plan : Plan ApplyStep) (write : Write) : Call :=
  ⟨write.target.path, write.data, write.target.isPrivate, plan.at (.write write.target)⟩

/-- What `put_config` writes for an intent it accepts. -/
def requestCalls (plan : Plan ApplyStep) (intent : NodeIntent) (serialized : Bytes) : List Call :=
  (⟨.nodeIntent, serialized⟩ :: renderings intent).map (writeCall plan)

/-- What `write_identity` writes. -/
def renewalCalls (plan : Plan EnrollStep) (config : Config) (certPem keyPem : String) : List Call :=
  [⟨config.certFile, asBytes certPem, false, plan.at .writeCert⟩,
    ⟨config.keyFile, asBytes keyPem, true, plan.at .writeKey⟩]

def writers (request renewal : List Call) : Writer → List Call
  | .request => request
  | .renewal => renewal

/-- Two runs that leave the same disk, and return well or not at the same time. -/
def Alike {Value : Type} (ran : Outcome Error Value × Disk) (good : Value → Prop)
    (series : Outcome Error Unit × Disk) : Prop :=
  ran.2 = series.2 ∧ ((∃ value, ran.1 = .ok value ∧ good value) ↔ series.1 = .ok ())

theorem alike_cons {Step Value : Type} {first : Proc Step Error Disk Unit}
    {rest : Proc Step Error Disk Value} {good : Value → Prop} {plan : Plan Step} {disk : Disk}
    {call : Call} {calls : List Call} {change : Error → Error}
    (same : first.run plan disk = call.run disk)
    (later : ∀ after, Alike (rest.run plan after) good (runSeries calls after)) :
    Alike ((mapError change first >>= fun _ => rest).run plan disk) good
      (runSeries (call :: calls) disk) := by
  rw [run_bind, run_mapError, same, runSeries]
  cases call.run disk with
  | mk outcome after =>
      cases outcome with
      | ok value => exact later after
      | err error => exact ⟨rfl, by simp⟩
      | killed => exact ⟨rfl, by simp⟩

theorem alike_last {Step : Type} {first : Proc Step Error Disk Unit} {plan : Plan Step}
    {disk : Disk} {call : Call} {change : Error → Error}
    (same : first.run plan disk = call.run disk) :
    Alike ((mapError change first).run plan disk) (fun _ => True) (runSeries [call] disk) := by
  rw [run_mapError, same, run_series_single]
  cases call.run disk with
  | mk outcome after => cases outcome <;> exact ⟨rfl, by simp⟩

theorem reconcile_series {fromPem : FromPem} {intent : NodeIntent}
    (valid : intent.validate fromPem = .ok ()) (plan : Plan ApplyStep) (disk : Disk) :
    Alike ((k8sReconcile fromPem (some intent)).run plan disk) (fun _ => True)
      (runSeries ((renderings intent).map (writeCall plan)) disk) := by
  rw [k8sReconcile, valid]
  show Alike ((mapError _ _ >>= fun _ => mapError _ _ >>= fun _ => mapError _ _).run plan disk)
    (fun _ => True) (runSeries [_, _, _] disk)
  exact alike_cons rfl fun _ => alike_cons rfl fun _ => alike_last rfl

/-- A request of an intent it accepts writes its four files, and reports success
exactly if all four writes return. -/
theorem put_config_series {json : IntentJson} {fromPem : FromPem} {intent : NodeIntent}
    {serialized : Bytes} (valid : intent.validate fromPem = .ok ())
    (encoded : json.toVecPretty intent = .ok serialized) (plan : Plan ApplyStep) (disk : Disk) :
    Alike ((putConfig json .k8s fromPem intent).run plan disk)
      (fun response => response.status = 200) (runSeries (requestCalls plan intent serialized) disk)
    := by
  rw [putConfig, valid]
  simp only [encoded]
  have first : (writeTarget .nodeIntent serialized).run plan disk =
      (writeCall plan ⟨.nodeIntent, serialized⟩).run disk := rfl
  rw [requestCalls, List.map_cons, runSeries, run_bind, run_attempt, first]
  cases (writeCall plan ⟨.nodeIntent, serialized⟩).run disk with
  | mk outcome after =>
      cases outcome with
      | err error => exact ⟨rfl, by simp⟩
      | killed => exact ⟨rfl, by simp⟩
      | ok value =>
          have rendered := reconcile_series valid plan after
          simp only [run_bind, run_attempt, reconcile]
          cases ran : (k8sReconcile fromPem (some intent)).run plan after with
          | mk answer final =>
              rw [ran] at rendered
              cases answer with
              | ok value => exact ⟨rendered.1, by simpa using rendered.2⟩
              | err error => exact ⟨rendered.1, by simpa using rendered.2⟩
              | killed => exact ⟨rendered.1, by simpa using rendered.2⟩

theorem write_identity_series {pki : Pki} {config : Config} {certificate : Certificate}
    {certPem : String} (keyPem : String) (encoded : encodeCert pki certificate = .ok certPem)
    (plan : Plan EnrollStep) (world : World) :
    ((writeIdentity pki config certificate keyPem).run plan world).2.disk =
        (runSeries (renewalCalls plan config certPem keyPem) world.disk).2 ∧
      (((writeIdentity pki config certificate keyPem).run plan world).1 = .ok () ↔
        (runSeries (renewalCalls plan config certPem keyPem) world.disk).1 = .ok ()) := by
  simp only [writeIdentity, encoded, run_bind, run_ofExcept_ok, writeFile, run_mapError, run_focus,
    run_relabel, renewalCalls, runSeries, Call.run]
  cases (writeAtomic config.certFile (asBytes certPem) false).run
    (plan.at .writeCert) world.disk with
  | mk outcome after =>
      cases outcome with
      | err error => exact ⟨rfl, by simp⟩
      | killed => exact ⟨rfl, by simp⟩
      | ok value =>
          simp only [set_disk_disk]
          cases (writeAtomic config.keyFile (asBytes keyPem) true).run
            (plan.at .writeKey) after with
          | mk outcome final => cases outcome <;> exact ⟨rfl, by simp⟩

theorem writers_isolated {config : Config}
    (apart : ∀ target : Target, NamesApart target.path config.certFile ∧
      NamesApart target.path config.keyFile)
    (applyPlan : Plan ApplyStep) (enrollPlan : Plan EnrollStep) (intent : NodeIntent)
    (serialized : Bytes) (certPem keyPem : String) :
    Isolated (writers (requestCalls applyPlan intent serialized)
      (renewalCalls enrollPlan config certPem keyPem)) := by
  have disjoint : ∀ file, Touches (requestCalls applyPlan intent serialized) file →
      ¬Touches (renewalCalls enrollPlan config certPem keyPem) file := by
    rintro file ⟨call, listed, touched⟩ ⟨other, member, also⟩
    obtain ⟨write, -, rfl⟩ := List.mem_map.mp listed
    simp only [renewalCalls, List.mem_cons, List.not_mem_nil, or_false] at member
    rcases member with rfl | rfl
    · exact (apart write.target).1 file touched also
    · exact (apart write.target).2 file touched also
  intro first second different file touched also
  cases first with
  | request =>
      cases second with
      | request => exact different rfl
      | renewal => exact disjoint file touched also
  | renewal =>
      cases second with
      | request => exact disjoint file also touched
      | renewal => exact different rfl

/-- No directory can be made. -/
def fullDisk {Step : Type} : Plan Step := fun _ => .fails 0

theorem test_config_apart (target : Target) :
    NamesApart target.path testConfig.certFile ∧ NamesApart target.path testConfig.keyFile := by
  cases target <;>
    exact ⟨names_apart_of_parents rfl rfl (by decide), names_apart_of_parents rfl rfl (by decide)⟩

/-- The writers of the sample configuration on a disk that is full. -/
def sampleWriters : Writer → List Call :=
  writers (requestCalls fullDisk sampleIntent (asBytes (jsonText sampleIntent)))
    (renewalCalls fullDisk testConfig serverPem serverKeyPair.pem)

def sampleState : Joint Writer Place Disk :=
  ⟨Function.update (Function.update (fun _ => .start) .renewal
      ⟨0, .ended (.err ["create directory /etc/nodeos/pki", osError])⟩) .request
    ⟨0, .ended (.err ["create directory /var/lib/nodeos/k8s", osError])⟩, Disk.empty⟩

end Daemon

end NodeOs.Noded.Isolation
