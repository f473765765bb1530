import NodeOs.Noded.WriteAtomic

/-!
# `write_atomic`, call by call of the file system

A call is taken apart down to single directories and bytes. What it has done in a
stage is what the whole function does that is killed there, and a step reads and
writes the path of the call and its temporary file only, so that steps of calls on
other files can come before or after it.
-/

namespace NodeOs.Noded.WriteStages

open NodeOs.Library.FaultPlan NodeOs.Library.FaultPlan.Proc
open NodeOs.Noded.FileSystem NodeOs.Noded.WriteAtomic

/-- One call, with what befalls it. -/
structure Call where
  path : Path
  data : Bytes
  isPrivate : Bool
  plan : Plan WriteStep

def Call.run (call : Call) (disk : Disk) : Outcome Error Unit × Disk :=
  (writeAtomic call.path call.data call.isPrivate).run call.plan disk

def Call.mode (call : Call) : Nat := if call.isPrivate then 0o600 else 0o644

/-- Where a call is: the directories it has made, the bytes it has written. -/
inductive Stage where
  | making (made : Nat)
  | opening
  | writing (count : Nat)
  | syncing
  | moving
  | openingDir
  | syncingDir
  | ended (outcome : Outcome Error Unit)
  deriving DecidableEq

/-- How much of a step takes place that has `whole` parts. -/
def limit (whole : Nat) : Fate → Nat
  | .done => whole
  | .fails extent => min extent whole
  | .killed extent => min extent whole

def follow (next : Stage) : Outcome Error Unit → Stage
  | .ok () => next
  | .err error => .ended (.err error)
  | .killed => .ended .killed

/-- A name stands for its file: no two of the threads share one. A write adds its
byte at the end of what the call has written. -/
def Call.advance (call : Call) (disk : Disk) : Stage → Option (Stage × Disk)
  | .making made =>
      match call.path.parent with
      | none => some
          (.ended (.err [s!"path has no parent directory: {call.path.display}"]), disk)
      | some parent =>
          match (parent.enclosing.take
            (limit parent.enclosing.length (call.plan .createDir)))[made]?
            with
          | some dir => some (.making (made + 1), disk.makeDirs [dir])
          | none => some (follow .opening ((createDirAll parent).run call.plan disk).1, disk)
  | .opening =>
      match call.path.tempPath with
      | none => some (.ended (.err [s!"path has no file name: {call.path.display}"]), disk)
      | some temp =>
          let opened := (openTruncated temp call.mode).run call.plan disk
          some (follow (.writing 0) opened.1, opened.2)
  | .writing count =>
      call.path.tempPath.map fun temp =>
        match (call.data.take (limit call.data.length (call.plan .write)))[count]? with
        | some byte => (.writing (count + 1), disk.put temp
            ((disk.files temp).map fun file => { file with content := file.content ++ [byte] }))
        | none => (follow .syncing ((writeAll temp call.data).run call.plan disk).1, disk)
  | .syncing =>
      call.path.tempPath.map fun temp =>
        (follow .moving ((syncAll temp).run call.plan disk).1, disk)
  | .moving =>
      call.path.tempPath.map fun temp =>
        let renamed := (rename temp call.path).run call.plan disk
        (follow .openingDir renamed.1, renamed.2)
  | .openingDir =>
      match call.plan .openDir with
      | .done => some (.syncingDir, disk)
      | .fails _ => some (.ended (.ok ()), disk)
      | .killed _ => some (.ended .killed, disk)
  | .syncingDir =>
      match call.plan .syncDir with
      | .killed _ => some (.ended .killed, disk)
      | _ => some (.ended (.ok ()), disk)
  | .ended _ => none

/-- The plan under which a call is killed where it is. -/
def Stage.halts (plan : Plan WriteStep) : Stage → Plan WriteStep
  | .making made => Function.update plan .createDir (.killed made)
  | .opening => Function.update plan .openTemp (.killed 0)
  | .writing count => Function.update plan .write (.killed count)
  | .syncing => Function.update plan .fsync (.killed 0)
  | .moving => Function.update plan .rename (.killed 0)
  | .openingDir => Function.update plan .openDir (.killed 0)
  | .syncingDir => Function.update plan .syncDir (.killed 0)
  | .ended _ => plan

def Call.haltedAt (stage : Stage) (call : Call) : Call :=
  { call with plan := stage.halts call.plan }

/-- The path of a call and its temporary name. -/
def Call.Touches (call : Call) (path : Path) : Prop :=
  call.path = path ∨ call.path.tempPath = some path

section Locality

/-- A step that reads and writes some files only, and makes directories. -/
structure Local {Value : Type} (inside : Path → Prop) (move : Disk → Option (Value × Disk)) :
    Prop where
  agree : ∀ left right : Disk, (∀ path, inside path → left.files path = right.files path) →
    (move left = none ∧ move right = none) ∨ ∃ value one two, move left = some (value, one) ∧
      move right = some (value, two) ∧ ∀ path, inside path → one.files path = two.files path
  frame : ∀ disk value after, move disk = some (value, after) →
    ∀ path, ¬inside path → after.files path = disk.files path
  dirs : ∃ made : List Path, ∀ disk value after, move disk = some (value, after) →
    after.dirs = (disk.makeDirs made).dirs

namespace Local

variable {Value Other : Type} {inside outside : Path → Prop}
  {move : Disk → Option (Value × Disk)} {other : Disk → Option (Other × Disk)}

theorem none : Local inside (fun _ => (Option.none : Option (Value × Disk))) where
  agree _ _ _ := Or.inl ⟨rfl, rfl⟩
  frame := by simp
  dirs := ⟨[], by simp⟩

theorem make (value : Value) (made : List Path) :
    Local inside (fun disk => some (value, disk.makeDirs made)) where
  agree left right same := Or.inr ⟨value, _, _, rfl, rfl, same⟩
  frame := by
    rintro disk _ _ taken path -
    cases taken
    rfl
  dirs := by
    refine ⟨made, ?_⟩
    rintro disk _ _ taken
    cases taken
    rfl

theorem stay (value : Value) : Local inside (fun disk => some (value, disk)) where
  agree left right same := Or.inr ⟨value, _, _, rfl, rfl, same⟩
  frame := by
    rintro disk _ _ taken path -
    cases taken
    rfl
  dirs := by
    refine ⟨[], ?_⟩
    rintro disk _ _ taken
    cases taken
    simp [Disk.makeDirs]

theorem put (value : Value) {path : Path} (member : inside path)
    (edit : Option File → Option File) :
    Local inside (fun disk => some (value, disk.put path (edit (disk.files path)))) where
  agree left right same := by
    refine Or.inr ⟨value, _, _, rfl, rfl, fun other present => ?_⟩
    simp only [Disk.put_files, Function.update_apply, same path member, same other present]
  frame := by
    rintro disk _ _ taken other absent
    cases taken
    exact Function.update_of_ne (fun same => absent (by rwa [same])) ..
  dirs := by
    refine ⟨[], ?_⟩
    rintro disk _ _ taken
    cases taken
    simp [Disk.makeDirs, Disk.put]

theorem map (inner : Local inside move) (change : Value → Other) :
    Local inside (fun disk => (move disk).map fun next => (change next.1, next.2)) where
  agree left right same := by
    rcases inner.agree left right same with ⟨one, two⟩ | ⟨value, one, two, first, second, after⟩
    · exact Or.inl (by simp [one, two])
    · exact Or.inr ⟨change value, one, two, by simp [first], by simp [second], after⟩
  frame := by
    rintro disk value after taken
    obtain ⟨next, moved, same⟩ := Option.map_eq_some_iff.mp taken
    cases same
    exact inner.frame disk next.1 next.2 moved
  dirs := by
    obtain ⟨made, grown⟩ := inner.dirs
    refine ⟨made, ?_⟩
    rintro disk value after taken
    obtain ⟨next, moved, same⟩ := Option.map_eq_some_iff.mp taken
    cases same
    exact grown disk next.1 next.2 moved

theorem disk_eq {left right : Disk} (files : left.files = right.files)
    (dirs : left.dirs = right.dirs) : left = right := by
  cases left
  cases right
  simp_all

/-- The directories made by two steps do not depend on their order. -/
theorem dirs_comm (disk : Disk) (one two : List Path) {left right : Disk}
    (first : left.dirs = (disk.makeDirs one).dirs)
    (second : right.dirs = (disk.makeDirs two).dirs) :
    (left.makeDirs two).dirs = (right.makeDirs one).dirs := by
  simp only [Disk.makeDirs] at first second ⊢
  rw [first, second]
  funext path
  rw [Bool.or_assoc, Bool.or_assoc, Bool.or_comm (one.contains path)]

/-- One order of two steps on different files ends as the other one does. -/
theorem comm_of_taken (left : Local inside move) (right : Local outside other)
    (apart : ∀ path, inside path → ¬outside path) {disk one two : Disk} {value : Value}
    {answer : Other} (moved : move disk = some (value, one))
    (went : other disk = some (answer, two)) :
    ∃ last, other one = some (answer, last) ∧ move two = some (value, last) := by
  have seen : ∀ path, outside path → disk.files path = one.files path := fun path present =>
    (left.frame disk value one moved path fun own => apart path own present).symm
  have kept : ∀ path, inside path → disk.files path = two.files path := fun path own =>
    (right.frame disk answer two went path (apart path own)).symm
  rcases right.agree disk one seen with ⟨stuck, -⟩ | ⟨answer', two', last, first, second, after⟩
  · rw [went] at stuck
    cases stuck
  rcases left.agree disk two kept with ⟨stuck, -⟩ | ⟨value', one', last', third, fourth, later⟩
  · rw [moved] at stuck
    cases stuck
  rw [went] at first
  rw [moved] at third
  cases first
  cases third
  refine ⟨last, second, ?_⟩
  rw [fourth]
  obtain ⟨made, grown⟩ := left.dirs
  obtain ⟨also, spread⟩ := right.dirs
  congr 2
  refine disk_eq (funext fun path => ?_) ?_
  · by_cases own : inside path
    · rw [← later path own, right.frame one answer last second path (apart path own)]
    · rw [left.frame two value last' fourth path own]
      by_cases present : outside path
      · exact after path present
      · rw [right.frame one answer last second path present,
          left.frame disk value one moved path own, right.frame disk answer two went path present]
  · rw [grown two value last' fourth, spread one answer last second]
    exact dirs_comm disk also made (spread disk answer two went) (grown disk value one moved)

theorem stuck_iff (left : Local inside move) (right : Local outside other)
    (apart : ∀ path, inside path → ¬outside path) {disk two : Disk} {answer : Other}
    (went : other disk = some (answer, two)) : move two = Option.none ↔ move disk =
    Option.none := by
  have kept : ∀ path, inside path → two.files path = disk.files path := fun path own =>
    right.frame disk answer two went path (apart path own)
  rcases left.agree two disk kept with ⟨stuck, also⟩ | ⟨value, one, last, first, second, -⟩
  · simp [stuck, also]
  · simp [first, second]

end Local

variable {inside : Path → Prop}

theorem rename_local (call : Call) (temp : Path) (owned : inside temp)
    (target : inside call.path) :
    Local inside (fun disk =>
      some (follow .openingDir ((rename temp call.path).run call.plan disk).1,
        ((rename temp call.path).run call.plan disk).2)) := by
  cases plan : call.plan .rename with
  | fails extent => simpa only [rename, run_step, plan] using Local.stay _
  | killed extent => simpa only [rename, run_step, plan] using Local.stay _
  | done =>
      simp only [rename, run_step, plan]
      constructor
      · intro left right same
        refine Or.inr ?_
        rw [same temp owned]
        cases right.files temp with
        | none => exact ⟨_, _, _, rfl, rfl, same⟩
        | some file =>
            refine ⟨_, _, _, rfl, rfl, fun path present => ?_⟩
            simp only [Disk.put_files, Function.update_apply, same path present]
      · rintro disk value after taken path absent
        cases found : disk.files temp with
        | none =>
            rw [found] at taken
            cases taken
            rfl
        | some file =>
            rw [found] at taken
            cases taken
            have other : path ≠ temp := fun same => absent (by rwa [same])
            have another : path ≠ call.path := fun same => absent (by rwa [same])
            simp [other, another]
      · refine ⟨[], ?_⟩
        rintro disk value after taken
        cases found : disk.files temp with
        | none =>
            rw [found] at taken
            cases taken
            simp [Disk.makeDirs]
        | some file =>
            rw [found] at taken
            cases taken
            simp [Disk.makeDirs, Disk.put]

theorem open_local (call : Call) (temp : Path) (owned : inside temp) :
    Local inside (fun disk =>
      some (follow (.writing 0) ((openTruncated temp call.mode).run call.plan disk).1,
        ((openTruncated temp call.mode).run call.plan disk).2)) := by
  cases plan : call.plan .openTemp with
  | fails extent => simpa only [openTruncated, run_step, plan] using Local.stay _
  | killed extent => simpa only [openTruncated, run_step, plan] using Local.stay _
  | done =>
      simpa only [openTruncated, run_step, plan] using Local.put _ owned fun file =>
        some { content := [], mode := (file.map File.mode).getD call.mode }

/-- A call notices nothing but its path and its temporary file. -/
theorem advance_local (call : Call) (owned : ∀ path, call.Touches path → inside path)
    (stage : Stage) : Local inside (fun disk => call.advance disk stage) := by
  have target : inside call.path := owned _ (Or.inl rfl)
  have staged : ∀ temp, call.path.tempPath = some temp → inside temp := fun temp named =>
    owned temp (Or.inr named)
  cases stage with
  | making made =>
      simp only [Call.advance]
      cases call.path.parent with
      | none => exact .stay _
      | some parent =>
          simp only
          cases (parent.enclosing.take
              (limit parent.enclosing.length (call.plan .createDir)))[made]? with
          | some dir => exact .make _ _
          | none =>
              simp only [createDirAll, run_step]
              cases call.plan .createDir <;> exact .stay _
  | opening =>
      simp only [Call.advance]
      cases named : call.path.tempPath with
      | none => exact .stay _
      | some temp => exact open_local call temp (staged temp named)
  | writing count =>
      simp only [Call.advance]
      cases named : call.path.tempPath with
      | none => exact .none
      | some temp =>
          simp only [Option.map_some]
          cases (call.data.take (limit call.data.length (call.plan .write)))[count]? with
          | some byte => exact .put _ (staged temp named) _
          | none =>
              simp only [writeAll, run_step]
              cases call.plan .write <;> exact .stay _
  | syncing =>
      simp only [Call.advance]
      cases call.path.tempPath with
      | none => exact .none
      | some temp =>
          simp only [Option.map_some, syncAll, run_check]
          cases call.plan .fsync <;> exact .stay _
  | moving =>
      simp only [Call.advance]
      cases named : call.path.tempPath with
      | none => exact .none
      | some temp => exact rename_local call temp (staged temp named) target
  | openingDir =>
      simp only [Call.advance]
      cases call.plan .openDir <;> exact .stay _
  | syncingDir =>
      simp only [Call.advance]
      cases call.plan .syncDir <;> exact .stay _
  | ended outcome => exact .none

end Locality

section Stages

/-- What is left of a call when its temporary file is written and synced. -/
def Call.afterSync (call : Call) (temp : Path) : DiskProc Unit := do
  rename temp call.path
  syncParent

def Call.afterWrite (call : Call) (temp : Path) : DiskProc Unit := do
  syncAll temp
  call.afterSync temp

def Call.afterOpen (call : Call) (temp : Path) : DiskProc Unit := do
  writeAll temp call.data
  call.afterWrite temp

def Call.afterDirs (call : Call) (temp : Path) : DiskProc Unit := do
  openTruncated temp call.mode
  call.afterOpen temp

/-- The temporary file of a call in work. -/
def Call.holds (call : Call) (parent temp : Path) (bytes : Bytes) (before : Disk) : Disk :=
  (before.makeDirs parent.enclosing).put temp
    (some ⟨bytes, tempMode before temp call.isPrivate⟩)

def Call.replaced (call : Call) (parent temp : Path) (before : Disk) : Disk :=
  ((before.makeDirs parent.enclosing).put call.path
    (some ⟨call.data, tempMode before temp call.isPrivate⟩)).put temp none

/-- What a call has done in its stage. -/
def Staged (call : Call) (before : Disk) : Stage → Disk → Prop
  | .making made, disk =>
      match call.path.parent with
      | none => disk = before
      | some parent =>
          made ≤ limit parent.enclosing.length (call.plan .createDir) ∧
            disk = before.makeDirs (parent.enclosing.take made)
  | .opening, disk => ∃ parent, call.path.parent = some parent ∧
      call.plan .createDir = .done ∧ disk = before.makeDirs parent.enclosing
  | .writing count, disk => ∃ parent temp, call.path.parent = some parent ∧
      call.path.tempPath = some temp ∧ (∀ step ∈ [.createDir, .openTemp], call.plan step = .done) ∧
      count ≤ limit call.data.length (call.plan .write) ∧
      disk = call.holds parent temp (call.data.take count) before
  | .syncing, disk => ∃ parent temp, call.path.parent = some parent ∧
      call.path.tempPath = some temp ∧
      (∀ step ∈ [.createDir, .openTemp, .write], call.plan step = .done) ∧
      disk = call.holds parent temp call.data before
  | .moving, disk => ∃ parent temp, call.path.parent = some parent ∧
      call.path.tempPath = some temp ∧
      (∀ step ∈ [.createDir, .openTemp, .write, .fsync], call.plan step = .done) ∧
      disk = call.holds parent temp call.data before
  | .openingDir, disk => ∃ parent temp, call.path.parent = some parent ∧
      call.path.tempPath = some temp ∧
      (∀ step ∈ [.createDir, .openTemp, .write, .fsync, .rename], call.plan step = .done) ∧
      disk = call.replaced parent temp before
  | .syncingDir, disk => ∃ parent temp, call.path.parent = some parent ∧
      call.path.tempPath = some temp ∧
      (∀ step ∈ [.createDir, .openTemp, .write, .fsync, .rename, .openDir],
        call.plan step = .done) ∧
      disk = call.replaced parent temp before
  | .ended outcome, disk => call.run before = (outcome, disk)

variable {call : Call} {before : Disk} {parent temp : Path}

theorem run_opening (parented : call.path.parent = some parent)
    (named : call.path.tempPath = some temp) (made : call.plan .createDir = .done) :
    call.run before =
      (call.afterDirs temp).run call.plan (before.makeDirs parent.enclosing) := by
  cases file : call.path.fileName with
  | none => simp [Path.tempPath, parented, file] at named
  | some name =>
      rw [Path.temp_path_of_name parented file] at named
      obtain rfl := Option.some.inj named
      simp only [Call.run, writeAtomic, parented, file, run_bind, run_pure, createDirAll, run_step,
        made]
      rfl

theorem run_writing (parented : call.path.parent = some parent)
    (named : call.path.tempPath = some temp)
    (done : ∀ step ∈ [WriteStep.createDir, .openTemp], call.plan step = .done) :
    call.run before = (call.afterOpen temp).run call.plan
      (call.holds parent temp [] before) := by
  rw [run_opening parented named (done _ (by simp)), Call.afterDirs, run_bind, openTruncated,
    run_step,
    done .openTemp (by simp)]
  rfl

theorem run_syncing (parented : call.path.parent = some parent)
    (named : call.path.tempPath = some temp)
    (done : ∀ step ∈ [WriteStep.createDir, .openTemp, .write], call.plan step = .done) :
    call.run before = (call.afterWrite temp).run call.plan
      (call.holds parent temp call.data before) := by
  rw [run_writing parented named fun step listed => done step (by simp at listed ⊢; tauto),
    Call.afterOpen, run_bind, writeAll, run_step, done .write (by simp)]
  simp [Call.holds, Disk.put]

theorem run_moving (parented : call.path.parent = some parent)
    (named : call.path.tempPath = some temp)
    (done : ∀ step ∈ [WriteStep.createDir, .openTemp, .write, .fsync], call.plan step = .done) :
    call.run before = (call.afterSync temp).run call.plan
      (call.holds parent temp call.data before) := by
  rw [run_syncing parented named fun step listed => done step (by simp at listed ⊢; tauto),
    Call.afterWrite, run_bind, syncAll, run_check, done .fsync (by simp)]

theorem run_opening_dir (parented : call.path.parent = some parent)
    (named : call.path.tempPath = some temp)
    (done : ∀ step ∈ [WriteStep.createDir, .openTemp, .write, .fsync, .rename],
      call.plan step = .done) :
    call.run before = syncParent.run call.plan (call.replaced parent temp before) := by
  have apart := Path.temp_path_ne call.path temp named
  rw [run_moving parented named fun step listed => done step (by simp at listed ⊢; tauto),
    Call.afterSync, run_bind, rename, run_step, done .rename (by simp)]
  simp only [Call.holds, Disk.put_files, Function.update_self]
  congr 1
  simp only [Call.replaced, Disk.put, Function.update_comm apart, Function.update_idem]

variable {stage next : Stage} {disk after : Disk}

theorem starts_staged (call : Call) (before : Disk) : Staged call before (.making 0) before := by
  unfold Staged
  cases call.path.parent with
  | none => rfl
  | some parent => exact ⟨Nat.zero_le _, by simp [Disk.makeDirs]⟩

/-- A call that is killed where it stands has done what it has done by then. -/
theorem halted_run (staged : Staged call before stage disk) :
    ((call.haltedAt stage).run before).2 = disk := by
  have parented (parent : Path) (given : call.path.parent = some parent) :
      (call.haltedAt stage).path.parent = some parent := given
  have named (temp : Path) (given : call.path.tempPath = some temp) :
      (call.haltedAt stage).path.tempPath = some temp := given
  cases stage with
  | making made =>
      unfold Staged at staged
      cases given : call.path.parent with
      | none =>
          rw [given] at staged
          simp [Call.haltedAt, Call.run, writeAtomic, given, run_bind, staged]
      | some parent =>
          rw [given] at staged
          simp [Call.haltedAt, Call.run, writeAtomic, given, run_bind, createDirAll, run_step,
            Stage.halts, staged.2]
  | opening =>
      obtain ⟨parent, given, made, rfl⟩ := staged
      cases file : call.path.fileName with
      | none =>
          simp [Call.haltedAt, Call.run, writeAtomic, given, run_bind, createDirAll, run_step,
            Stage.halts, made, file]
      | some name =>
          have earlier : (call.haltedAt .opening).plan .createDir = .done := by
            simpa [Call.haltedAt, Stage.halts] using made
          rw [run_opening (parented parent given)
            (named _ (Path.temp_path_of_name given file)) earlier]
          simp [Call.haltedAt, Stage.halts, Call.afterDirs, run_bind, openTruncated, run_step]
  | writing count =>
      obtain ⟨parent, temp, given, staged, done, -, rfl⟩ := staged
      have earlier : ∀ step ∈ [.createDir, .openTemp],
          (call.haltedAt (.writing count)).plan step = .done := by
        simpa [Call.haltedAt, Stage.halts] using done
      rw [run_writing (parented parent given) (named temp staged) earlier]
      simp [Call.haltedAt, Stage.halts, Call.afterOpen, run_bind, writeAll, run_step, Call.holds,
        Disk.put]
  | syncing =>
      obtain ⟨parent, temp, given, staged, done, rfl⟩ := staged
      have earlier : ∀ step ∈ [.createDir, .openTemp, .write],
          (call.haltedAt .syncing).plan step = .done := by
        simpa [Call.haltedAt, Stage.halts] using done
      rw [run_syncing (parented parent given) (named temp staged) earlier]
      simp [Call.haltedAt, Stage.halts, Call.afterWrite, run_bind, syncAll, run_check, Call.holds]
  | moving =>
      obtain ⟨parent, temp, given, staged, done, rfl⟩ := staged
      have earlier : ∀ step ∈ [.createDir, .openTemp, .write, .fsync],
          (call.haltedAt .moving).plan step = .done := by
        simpa [Call.haltedAt, Stage.halts] using done
      rw [run_moving (parented parent given) (named temp staged) earlier]
      simp [Call.haltedAt, Stage.halts, Call.afterSync, run_bind, rename, run_step, Call.holds]
  | openingDir =>
      obtain ⟨parent, temp, given, staged, done, rfl⟩ := staged
      have earlier : ∀ step ∈ [.createDir, .openTemp, .write, .fsync, .rename],
          (call.haltedAt .openingDir).plan step = .done := by
        simpa [Call.haltedAt, Stage.halts] using done
      rw [run_opening_dir (parented parent given) (named temp staged) earlier, sync_parent_run]
      rfl
  | syncingDir =>
      obtain ⟨parent, temp, given, staged, done, rfl⟩ := staged
      have earlier : ∀ step ∈ [.createDir, .openTemp, .write, .fsync, .rename],
          (call.haltedAt .syncingDir).plan step = .done := by
        simp only [List.forall_mem_cons] at done
        simpa [Call.haltedAt, Stage.halts] using
          ⟨done.1, done.2.1, done.2.2.1, done.2.2.2.1, done.2.2.2.2.1⟩
      rw [run_opening_dir (parented parent given) (named temp staged) earlier, sync_parent_run]
      rfl
  | ended outcome =>
      have same : call.haltedAt (.ended outcome) = call := rfl
      rw [same, show call.run before = _ from staged]

theorem make_dirs_next {dirs : List Path} {made : Nat} {dir : Path} (next : dirs[made]? = some dir)
    (disk : Disk) :
    (disk.makeDirs (dirs.take made)).makeDirs [dir] = disk.makeDirs (dirs.take (made + 1)) := by
  have split : dirs.take (made + 1) = dirs.take made ++ [dir] := by
    rw [List.take_add_one, next]
    rfl
  refine Local.disk_eq rfl ?_
  rw [split]
  funext path
  simp [Disk.makeDirs, Bool.or_assoc, Bool.decide_or]

/-- The parts of a step that are left. -/
theorem limit_step {Value : Type} {values : List Value} {count : Nat} {value : Value} {fate : Fate}
    (next : (values.take (limit values.length fate))[count]? = some value) :
    count + 1 ≤ limit values.length fate ∧ values[count]? = some value := by
  rw [List.getElem?_take] at next
  split at next
  · rename_i inside
    exact ⟨inside, next⟩
  · cases next

theorem limit_reached {Value : Type} {values : List Value} {count : Nat} {fate : Fate}
    (inside : count ≤ limit values.length fate)
    (stopped : (values.take (limit values.length fate))[count]? = none) :
    count = limit values.length fate := by
  have bound : limit values.length fate ≤ values.length := by
    cases fate <;> simp [limit]
  rw [List.getElem?_eq_none_iff, List.length_take] at stopped
  omega

/-- Making directories and writing bytes end as the whole steps do. -/
theorem making_ends {parent : Path} {made : Nat} (plan : Plan WriteStep)
    (ended : made = limit parent.enclosing.length (plan .createDir)) (before disk : Disk) :
    ((createDirAll parent).run plan before).2 = before.makeDirs (parent.enclosing.take made) ∧
      ((createDirAll parent).run plan disk).1 = ((createDirAll parent).run plan before).1 := by
  rw [createDirAll, run_step, run_step]
  cases fate : plan .createDir with
  | done => simp [ended, fate, limit]
  | fails extent => simp [ended, fate, limit, ← List.take_eq_take_min]
  | killed extent => simp [ended, fate, limit, ← List.take_eq_take_min]

theorem writing_ends (before : Disk) (parent temp : Path) {count : Nat}
    (ended : count = limit call.data.length (call.plan .write)) (disk : Disk) :
    ((writeAll temp call.data).run call.plan (call.holds parent temp [] before)).2 =
        call.holds parent temp (call.data.take count) before ∧
      ((writeAll temp call.data).run call.plan disk).1 =
        ((writeAll temp call.data).run call.plan (call.holds parent temp [] before)).1 := by
  rw [writeAll, run_step, run_step]
  cases fate : call.plan .write with
  | done => simp [ended, fate, limit, Call.holds, Disk.put]
  | fails extent => simp [ended, fate, limit, Call.holds, Disk.put, ← List.take_eq_take_min]
  | killed extent => simp [ended, fate, limit, Call.holds, Disk.put, ← List.take_eq_take_min]

/-- A process that goes on, or ends the call. -/
theorem follow_cases (next : Stage) (outcome : Outcome Error Unit) :
    (outcome = .ok () ∧ follow next outcome = next) ∨
      (outcome ≠ .ok () ∧ follow next outcome = .ended outcome) := by
  cases outcome with
  | ok value => exact Or.inl ⟨rfl, rfl⟩
  | err error => exact Or.inr ⟨by simp, rfl⟩
  | killed => exact Or.inr ⟨by simp, rfl⟩

theorem bind_ends {first rest : DiskProc Unit} {plan : Plan WriteStep}
    (stopped : (first.run plan disk).1 ≠ .ok ()) :
    (first >>= fun _ => rest).run plan disk = first.run plan disk := by
  rw [run_bind]
  cases ran : first.run plan disk with
  | mk outcome after =>
      rw [ran] at stopped
      cases outcome with
      | ok value => exact absurd rfl stopped
      | err error => rfl
      | killed => rfl

theorem returned_done {label : WriteStep} {error : Error} {cut : Nat → Disk → Disk}
    {action : Disk → Outcome Error Unit × Disk} {plan : Plan WriteStep}
    (returned : ((Proc.step label error cut action).run plan disk).1 = .ok ()) :
    plan label = .done := by
  rw [run_step] at returned
  cases fate : plan label with
  | done => rfl
  | fails extent => simp [fate] at returned
  | killed extent => simp [fate] at returned

theorem making_advances {made : Nat} (staged : Staged call before (.making made) disk)
    (taken : call.advance disk (.making made) = some (next, after)) :
    Staged call before next after := by
  unfold Staged at staged
  cases parented : call.path.parent with
  | none =>
      simp only [parented] at staged
      simp only [Call.advance, parented, Option.some.injEq, Prod.mk.injEq] at taken
      obtain ⟨rfl, rfl⟩ := taken
      simp [Staged, Call.run, writeAtomic, parented, run_bind, staged]
  | some parent =>
      simp only [parented] at staged
      obtain ⟨inside, rfl⟩ := staged
      simp only [Call.advance, parented] at taken
      cases found : (parent.enclosing.take
          (limit parent.enclosing.length (call.plan .createDir)))[made]? with
      | some dir =>
          simp only [found, Option.some.injEq, Prod.mk.injEq] at taken
          obtain ⟨rfl, rfl⟩ := taken
          obtain ⟨room, dir⟩ := limit_step found
          simp only [Staged, parented]
          exact ⟨room, make_dirs_next dir before⟩
      | none =>
          have full := limit_reached inside found
          obtain ⟨disks, answers⟩ := making_ends call.plan full before
            (before.makeDirs (parent.enclosing.take made))
          simp only [found, Option.some.injEq, Prod.mk.injEq, answers] at taken
          obtain ⟨rfl, rfl⟩ := taken
          rcases follow_cases .opening ((createDirAll parent).run call.plan before).1 with
            ⟨returned, same⟩ | ⟨stopped, same⟩
          · have done : call.plan .createDir = .done := returned_done returned
            rw [same]
            refine ⟨parent, parented, done, ?_⟩
            rw [full, done, limit, List.take_length]
          · rw [same]
            have whole : call.run before = (createDirAll parent).run call.plan before := by
              simp only [Call.run, writeAtomic, parented, run_bind, run_pure]
              exact bind_ends stopped
            rw [Staged, whole, ← disks]

theorem opening_advances (staged : Staged call before .opening disk)
    (taken : call.advance disk .opening = some (next, after)) : Staged call before next after := by
  obtain ⟨parent, parented, made, rfl⟩ := staged
  cases named : call.path.tempPath with
  | none =>
      have unnamed : call.path.fileName = none := by
        cases file : call.path.fileName with
        | none => rfl
        | some name => simp [Path.temp_path_of_name parented file] at named
      simp only [Call.advance, named, Option.some.injEq, Prod.mk.injEq] at taken
      obtain ⟨rfl, rfl⟩ := taken
      simp [Staged, Call.run, writeAtomic, parented, unnamed, run_bind, createDirAll, run_step,
        made]
  | some temp =>
      simp only [Call.advance, named, Option.some.injEq, Prod.mk.injEq] at taken
      obtain ⟨rfl, rfl⟩ := taken
      rcases follow_cases (.writing 0) ((openTruncated temp call.mode).run call.plan
        (before.makeDirs parent.enclosing)).1 with ⟨returned, same⟩ | ⟨stopped, same⟩
      · have done : call.plan .openTemp = .done := returned_done returned
        rw [same]
        refine ⟨parent, temp, parented, named, by simp [made, done], Nat.zero_le _, ?_⟩
        rw [openTruncated, run_step, done]
        rfl
      · rw [same, Staged, run_opening parented named made, Call.afterDirs, bind_ends stopped]

theorem writing_advances {count : Nat} (staged : Staged call before (.writing count) disk)
    (taken : call.advance disk (.writing count) = some (next, after)) :
    Staged call before next after := by
  obtain ⟨parent, temp, parented, named, done, inside, rfl⟩ := staged
  simp only [Call.advance, named, Option.map_some, Option.some.injEq] at taken
  cases found : (call.data.take (limit call.data.length (call.plan .write)))[count]? with
  | some byte =>
      simp only [found, Prod.mk.injEq] at taken
      obtain ⟨rfl, rfl⟩ := taken
      obtain ⟨room, present⟩ := limit_step found
      refine ⟨parent, temp, parented, named, done, room, ?_⟩
      have longer : call.data.take (count + 1) = call.data.take count ++ [byte] := by
        rw [List.take_add_one, present]
        rfl
      simp [Call.holds, Disk.put, longer]
  | none =>
      have full := limit_reached inside found
      obtain ⟨disks, answers⟩ := writing_ends before parent temp full
        (call.holds parent temp (call.data.take count) before)
      simp only [found, Prod.mk.injEq, answers] at taken
      obtain ⟨rfl, rfl⟩ := taken
      rcases follow_cases .syncing ((writeAll temp call.data).run call.plan
        (call.holds parent temp [] before)).1 with ⟨returned, same⟩ | ⟨stopped, same⟩
      · have last : call.plan .write = .done := returned_done returned
        rw [same]
        refine ⟨parent, temp, parented, named, by simpa [last] using done, ?_⟩
        rw [full, last, limit, List.take_length]
      · rw [same, Staged, run_writing parented named done, Call.afterOpen, bind_ends stopped,
          ← disks]

theorem syncing_advances (staged : Staged call before .syncing disk)
    (taken : call.advance disk .syncing = some (next, after)) : Staged call before next after := by
  obtain ⟨parent, temp, parented, named, done, rfl⟩ := staged
  simp only [Call.advance, named, Option.map_some, Option.some.injEq, Prod.mk.injEq] at taken
  obtain ⟨rfl, rfl⟩ := taken
  rcases follow_cases .moving ((syncAll temp).run call.plan
    (call.holds parent temp call.data before)).1 with ⟨returned, same⟩ | ⟨stopped, same⟩
  · have last : call.plan .fsync = .done := returned_done returned
    rw [same]
    exact ⟨parent, temp, parented, named, by simpa [last] using done, rfl⟩
  · rw [same, Staged, run_syncing parented named done, Call.afterWrite, bind_ends stopped]
    exact Prod.ext rfl (run_check_state ..)

theorem moving_advances (staged : Staged call before .moving disk)
    (taken : call.advance disk .moving = some (next, after)) : Staged call before next after := by
  obtain ⟨parent, temp, parented, named, done, rfl⟩ := staged
  simp only [Call.advance, named, Option.map_some, Option.some.injEq, Prod.mk.injEq] at taken
  obtain ⟨rfl, rfl⟩ := taken
  rcases follow_cases .openingDir ((rename temp call.path).run call.plan
    (call.holds parent temp call.data before)).1 with ⟨returned, same⟩ | ⟨stopped, same⟩
  · have last : call.plan .rename = .done := returned_done returned
    rw [same]
    refine ⟨parent, temp, parented, named, by simpa [last] using done, ?_⟩
    have apart := Path.temp_path_ne call.path temp named
    rw [rename, run_step, last]
    simp only [Call.holds, Disk.put_files, Function.update_self]
    simp only [Call.replaced, Disk.put, Function.update_comm apart, Function.update_idem]
  · rw [same, Staged, run_moving parented named done, Call.afterSync, bind_ends stopped]

theorem syncing_dir_advances (synced : stage = .openingDir ∨ stage = .syncingDir)
    (staged : Staged call before stage disk)
    (taken : call.advance disk stage = some (next, after)) : Staged call before next after := by
  rcases synced with rfl | rfl
  · obtain ⟨parent, temp, parented, named, done, rfl⟩ := staged
    have ran := @run_opening_dir call before parent temp parented named done
    rw [sync_parent_run] at ran
    simp only [Call.advance] at taken
    cases opened : call.plan .openDir with
    | done =>
        rw [opened] at taken
        cases taken
        exact ⟨parent, temp, parented, named, by simpa [opened] using done, rfl⟩
    | fails extent =>
        rw [opened] at taken
        cases taken
        simpa [Staged, survivesSync, opened] using ran
    | killed extent =>
        rw [opened] at taken
        cases taken
        simpa [Staged, survivesSync, opened] using ran
  · obtain ⟨parent, temp, parented, named, done, rfl⟩ := staged
    have ran := @run_opening_dir call before parent temp parented named
      fun step listed => done step (by simp at listed ⊢; tauto)
    have opened : call.plan .openDir = .done := done .openDir (by simp)
    rw [sync_parent_run] at ran
    simp only [Call.advance] at taken
    cases synced : call.plan .syncDir with
    | done =>
        rw [synced] at taken
        cases taken
        simpa [Staged, survivesSync, opened, synced] using ran
    | fails extent =>
        rw [synced] at taken
        cases taken
        simpa [Staged, survivesSync, opened, synced] using ran
    | killed extent =>
        rw [synced] at taken
        cases taken
        simpa [Staged, survivesSync, opened, synced] using ran

/-- One step takes a call from stage to stage. -/
theorem advance_staged (staged : Staged call before stage disk)
    (taken : call.advance disk stage = some (next, after)) : Staged call before next after := by
  cases stage with
  | making made => exact making_advances staged taken
  | opening => exact opening_advances staged taken
  | writing count => exact writing_advances staged taken
  | syncing => exact syncing_advances staged taken
  | moving => exact moving_advances staged taken
  | openingDir => exact syncing_dir_advances (Or.inl rfl) staged taken
  | syncingDir => exact syncing_dir_advances (Or.inr rfl) staged taken
  | ended outcome => cases taken

end Stages

end NodeOs.Noded.WriteStages
