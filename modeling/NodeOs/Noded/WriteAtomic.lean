import NodeOs.Library.FaultPlan
import NodeOs.Noded.FileSystem

/-!
# `write_atomic`

The function is a chain of seven file-system calls. `write_atomic_result` says
once what the chain can leave behind, and what it answers, as a function of the
fault plan; every user of `write_atomic` argues from it. The last section sets
the function against its contract.
-/

namespace NodeOs.Noded.WriteAtomic

open NodeOs.Library.FaultPlan NodeOs.Library.FaultPlan.Proc
open NodeOs.Noded.FileSystem

inductive WriteStep where
  | createDir
  | openTemp
  | write
  | fsync
  | rename
  | openDir
  | syncDir
  deriving DecidableEq, Repr

abbrev DiskProc := Proc WriteStep Error Disk

def createDirAll (dir : Path) : DiskProc Unit :=
  step .createDir [s!"create directory {dir.display}", osError]
    (fun extent disk => disk.makeDirs (dir.enclosing.take extent))
    (fun disk => (.ok (), disk.makeDirs dir.enclosing))

/-- `O_WRONLY | O_CREAT | O_TRUNC`: the mode takes effect only on a new file. -/
def openTruncated (temp : Path) (mode : Nat) : DiskProc Unit :=
  step .openTemp [s!"open temp file {temp.display}", osError] (fun _ disk => disk)
    (fun disk => (.ok (), disk.put temp (some
      { content := [], mode := ((disk.files temp).map File.mode).getD mode })))

/-- `write_all` on the freshly truncated file. Broken off, it leaves the first
`extent` bytes. -/
def writeAll (temp : Path) (data : Bytes) : DiskProc Unit :=
  let fill (bytes : Bytes) (disk : Disk) : Disk :=
    disk.put temp ((disk.files temp).map fun file => { file with content := bytes })
  step .write [s!"write {temp.display}", osError]
    (fun extent => fill (data.take extent)) (fun disk => (.ok (), fill data disk))

def syncAll (temp : Path) : DiskProc Unit :=
  check .fsync [s!"fsync {temp.display}", osError]

def rename (temp path : Path) : DiskProc Unit :=
  let error : Error := [s!"rename {temp.display} -> {path.display}", osError]
  step .rename error (fun _ disk => disk) fun disk =>
    match disk.files temp with
    | none => (.err error, disk)
    | some file => (.ok (), (disk.put path (some file)).put temp none)

/-- The directory fsync is best effort: neither failure is reported. -/
def syncParent : DiskProc Unit := do
  match ← attempt (check .openDir [osError]) with
  | .error _ => pure ()
  | .ok () => ignore (check .syncDir [osError])

def writeAtomic (path : Path) (data : Bytes) (isPrivate : Bool) : DiskProc Unit := do
  let parent ← match path.parent with
    | some parent => pure parent
    | none => raise [s!"path has no parent directory: {path.display}"]
  createDirAll parent
  let fileName ← match path.fileName with
    | some fileName => pure fileName
    | none => raise [s!"path has no file name: {path.display}"]
  let temp := parent.join s!".{fileName}.tmp"
  openTruncated temp (if isPrivate then 0o600 else 0o644)
  writeAll temp data
  syncAll temp
  rename temp path
  syncParent

/-- How far a call gets. `staged` carries what it leaves in the temporary
file. -/
inductive Progress where
  | untouched
  | staged (bytes : Bytes)
  | replaced
  deriving DecidableEq, Repr

/-- The progress of a call is decided by the plan alone, up to the path having
a temporary file at all. -/
def progress (path : Path) (data : Bytes) (plan : Plan WriteStep) : Progress :=
  if path.tempPath = none ∨ plan .createDir ≠ .done ∨ plan .openTemp ≠ .done then .untouched
  else match plan .write with
    | .fails extent => .staged (data.take extent)
    | .killed extent => .staged (data.take extent)
    | .done => if plan .fsync = .done ∧ plan .rename = .done then .replaced else .staged data

/-- The directory fsync cannot fail the call, but the process can be killed in
it, when the replacement has already happened. -/
def survivesSync (plan : Plan WriteStep) : Bool :=
  match plan .openDir with
  | .killed _ => false
  | .fails _ => true
  | .done => match plan .syncDir with
    | .killed _ => false
    | _ => true

def tempMode (disk : Disk) (temp : Path) (isPrivate : Bool) : Nat :=
  ((disk.files temp).map File.mode).getD (if isPrivate then 0o600 else 0o644)

/-- What a call with the given progress does to the files. -/
def Progress.apply (progress : Progress) (path : Path) (data : Bytes) (isPrivate : Bool)
    (disk : Disk) : Path → Option File :=
  match progress, path.tempPath with
  | .staged bytes, some temp =>
      Function.update disk.files temp (some ⟨bytes, tempMode disk temp isPrivate⟩)
  | .replaced, some temp =>
      Function.update
        (Function.update disk.files path (some ⟨data, tempMode disk temp isPrivate⟩)) temp none
  | _, _ => disk.files

theorem sync_parent_run (plan : Plan WriteStep) (disk : Disk) :
    syncParent.run plan disk = (if survivesSync plan then .ok () else .killed, disk) := by
  simp only [syncParent, run_bind, run_attempt, run_check]
  cases opened : plan .openDir with
  | done =>
      simp only [run_ignore, run_check]
      cases synced : plan .syncDir <;> simp [survivesSync, opened, synced]
  | fails extent => simp [survivesSync, opened]
  | killed extent => simp [survivesSync, opened]

/-- Everything a caller may rely on: the files afterwards, and which answers go
with a completed replacement. -/
structure Result (path : Path) (data : Bytes) (isPrivate : Bool) (plan : Plan WriteStep)
    (disk : Disk) (result : Outcome Error Unit × Disk) : Prop where
  files : result.2.files = (progress path data plan).apply path data isPrivate disk
  returned : result.1 = .ok () ↔
    progress path data plan = .replaced ∧ survivesSync plan = true
  failed : ∀ error, result.1 = .err error → progress path data plan ≠ .replaced

section Result

variable {path temp : Path} {data : Bytes} {isPrivate : Bool} {plan : Plan WriteStep}
  {disk : Disk} {result : Outcome Error Unit × Disk}

theorem Result.of_untouched (kept : progress path data plan = .untouched)
    (files : result.2.files = disk.files) (stopped : result.1 ≠ .ok ()) :
    Result path data isPrivate plan disk result where
  files := by rw [files, kept]; rfl
  returned := by simp [kept, stopped]
  failed := by simp [kept]

theorem Result.of_staged (bytes : Bytes) (staged : path.tempPath = some temp)
    (left : progress path data plan = .staged bytes)
    (files : result.2.files =
      Function.update disk.files temp (some ⟨bytes, tempMode disk temp isPrivate⟩))
    (stopped : result.1 ≠ .ok ()) : Result path data isPrivate plan disk result where
  files := by rw [files, left]; simp only [Progress.apply, staged]
  returned := by simp [left, stopped]
  failed := by simp [left]

end Result

theorem write_atomic_result (path : Path) (data : Bytes) (isPrivate : Bool)
    (plan : Plan WriteStep) (disk : Disk) :
    Result path data isPrivate plan disk ((writeAtomic path data isPrivate).run plan disk) := by
  cases parented : path.parent with
  | none =>
      have noTemp : path.tempPath = none := by simp [Path.tempPath, parented]
      have kept : progress path data plan = .untouched := by simp [progress, noTemp]
      simp only [writeAtomic, parented, run_bind, run_raise]
      exact .of_untouched kept rfl (by simp)
  | some dir =>
  simp only [writeAtomic, parented, run_bind, run_pure, createDirAll, run_step]
  cases made : plan .createDir with
  | fails extent => exact .of_untouched (by simp [progress, made]) rfl (by simp)
  | killed extent => exact .of_untouched (by simp [progress, made]) rfl (by simp)
  | done =>
  cases named : path.fileName with
  | none =>
      have noTemp : path.tempPath = none := by simp [Path.tempPath, parented, named]
      simp only [run_bind, run_raise]
      exact .of_untouched (by simp [progress, noTemp]) rfl (by simp)
  | some name =>
  have staged := Path.temp_path_of_name parented named
  have apart := Path.temp_path_ne path _ staged
  simp only [run_bind, run_pure, openTruncated, run_step]
  cases opened : plan .openTemp with
  | fails extent => exact .of_untouched (by simp [progress, opened]) rfl (by simp)
  | killed extent => exact .of_untouched (by simp [progress, opened]) rfl (by simp)
  | done =>
  simp only [writeAll, run_step]
  cases written : plan .write with
  | fails extent =>
      exact .of_staged (data.take extent) staged (by simp [progress, made, opened, written, staged])
        (by simp [tempMode]) (by simp)
  | killed extent =>
      exact .of_staged (data.take extent) staged (by simp [progress, made, opened, written, staged])
        (by simp [tempMode]) (by simp)
  | done =>
  simp only [syncAll, run_check]
  cases synced : plan .fsync with
  | fails extent =>
      exact .of_staged data staged (by simp [progress, made, opened, written, synced, staged])
        (by simp [tempMode]) (by simp)
  | killed extent =>
      exact .of_staged data staged (by simp [progress, made, opened, written, synced, staged])
        (by simp [tempMode]) (by simp)
  | done =>
  simp only [rename, run_step]
  cases renamed : plan .rename with
  | fails extent =>
      exact .of_staged data staged
        (by simp [progress, made, opened, written, synced, renamed, staged])
        (by simp [tempMode]) (by simp)
  | killed extent =>
      exact .of_staged data staged
        (by simp [progress, made, opened, written, synced, renamed, staged])
        (by simp [tempMode]) (by simp)
  | done =>
  -- The temporary file is there: the call has just written it.
  simp only [Disk.put_files, Function.update_self, Option.map_some]
  have replaced : progress path data plan = .replaced := by
    simp [progress, made, opened, written, synced, renamed, staged]
  rw [sync_parent_run]
  refine ⟨?_, ?_, ?_⟩
  · simp [replaced, Progress.apply, staged, tempMode, Function.update_comm apart]
  · cases survivesSync plan <;> simp [replaced]
  · cases survivesSync plan <;> simp

/-- The same, for a reader who looks at contents only. -/
def Progress.content (progress : Progress) (path : Path) (data : Bytes)
    (before : Path → Option Bytes) : Path → Option Bytes :=
  match progress, path.tempPath with
  | .staged bytes, some temp => Function.update before temp (some bytes)
  | .replaced, some temp => Function.update (Function.update before path (some data)) temp none
  | _, _ => before

theorem write_atomic_content (path : Path) (data : Bytes) (isPrivate : Bool)
    (plan : Plan WriteStep) (disk : Disk) :
    ((writeAtomic path data isPrivate).run plan disk).2.content =
      (progress path data plan).content path data disk.content := by
  funext other
  have files := (write_atomic_result path data isPrivate plan disk).files
  simp only [Disk.content, files]
  cases progress path data plan with
  | untouched => rfl
  | staged bytes =>
      cases staged : path.tempPath with
      | none => simp [Progress.apply, Progress.content, staged, Disk.content]
      | some temp =>
          by_cases same : other = temp <;>
            simp [Progress.apply, Progress.content, staged, same, Disk.content]
  | replaced =>
      cases staged : path.tempPath with
      | none => simp [Progress.apply, Progress.content, staged, Disk.content]
      | some temp =>
          simp only [Progress.apply, Progress.content, staged, Function.update_apply]
          split
          · rfl
          split <;> rfl

theorem content_elsewhere (made : Progress) {path other : Path} (data : Bytes)
    (before : Path → Option Bytes) (apart : other ≠ path) (noTemp : path.tempPath ≠ some other) :
    made.content path data before other = before other := by
  unfold Progress.content
  cases staged : path.tempPath with
  | none => cases made <;> rfl
  | some temp =>
      have different : other ≠ temp := by
        intro same
        exact noTemp (by rw [staged, same])
      cases made <;> simp [different, apart]

theorem content_unreplaced {made : Progress} {path : Path} (data : Bytes)
    (before : Path → Option Bytes) (kept : made ≠ .replaced) :
    made.content path data before path = before path := by
  unfold Progress.content
  cases staged : path.tempPath with
  | none => cases made <;> rfl
  | some temp =>
      have apart := Path.temp_path_ne path temp staged
      cases made with
      | untouched => rfl
      | staged bytes => simp [apart.symm]
      | replaced => exact absurd rfl kept

theorem progress_has_temp {path : Path} {data : Bytes} {plan : Plan WriteStep}
    (moved : progress path data plan ≠ .untouched) : ∃ temp, path.tempPath = some temp := by
  apply Option.ne_none_iff_exists'.mp
  intro noTemp
  exact moved (by simp [progress, noTemp])

/-- What is left in the temporary file is a beginning of the data. -/
theorem staged_is_beginning {path : Path} {data bytes : Bytes} {plan : Plan WriteStep}
    (left : progress path data plan = .staged bytes) : ∃ count, bytes = data.take count := by
  simp only [progress] at left
  split at left
  · cases left
  split at left
  · exact ⟨_, (Progress.staged.inj left).symm⟩
  · exact ⟨_, (Progress.staged.inj left).symm⟩
  · split at left
    · cases left
    · exact ⟨data.length, by rw [List.take_length, Progress.staged.inj left]⟩

section Contract

/-- Nothing is granted to the group or to others. -/
def OwnerOnly (mode : Nat) : Prop := mode &&& 0o077 = 0

instance (mode : Nat) : Decidable (OwnerOnly mode) :=
  inferInstanceAs (Decidable (mode &&& 0o077 = 0))

/-- Directories are only added, and only around the path. -/
def DirsGrow (path : Path) (before after : Disk) : Prop :=
  (∀ dir, before.dirs dir = true → after.dirs dir = true) ∧
    ∀ dir, after.dirs dir = true →
      before.dirs dir = true ∨ ∃ parent, path.parent = some parent ∧ dir ∈ parent.enclosing

/-- What a caller of `write_atomic` expects of one call. -/
structure Contract (path : Path) (data : Bytes) (isPrivate : Bool) (before : Disk)
    (result : Outcome Error Unit × Disk) : Prop where
  written : result.1 = .ok () → ∃ file, result.2.files path = some file ∧
    file.content = data ∧ (isPrivate = true → OwnerOnly file.mode)
  cleaned : result.1 = .ok () → ∀ temp, path.tempPath = some temp → result.2.files temp = none
  kept : ∀ error, result.1 = .err error → result.2.files path = before.files path
  otherFiles : ∀ other, other ≠ path → path.tempPath ≠ some other →
    result.2.files other = before.files other
  dirs : DirsGrow path before result.2

/-- No call of the chain fails, and none is the point where the process is
killed. -/
def Undisturbed (plan : Plan WriteStep) : Prop :=
  (∀ call ∈ [WriteStep.createDir, .openTemp, .write, .fsync, .rename], plan call = .done) ∧
    survivesSync plan = true

variable {path : Path} {data : Bytes} {isPrivate : Bool} {plan : Plan WriteStep} {disk : Disk}

theorem dirs_grow_refl (path : Path) (disk : Disk) : DirsGrow path disk disk :=
  ⟨fun _ there => there, fun _ there => Or.inl there⟩

theorem make_dirs_grow {parent : Path} {made : List Path} {before disk : Disk}
    (parented : path.parent = some parent) (around : ∀ dir ∈ made, dir ∈ parent.enclosing)
    (grown : DirsGrow path before disk) : DirsGrow path before (disk.makeDirs made) := by
  constructor
  · intro dir there
    simp [Disk.makeDirs, grown.1 dir there]
  · intro dir there
    simp only [Disk.makeDirs, Bool.or_eq_true, List.contains_iff_mem] at there
    cases there with
    | inl old => exact grown.2 dir old
    | inr new => exact Or.inr ⟨parent, parented, around dir new⟩

/-- Every call but the first leaves the directories as they are. -/
theorem later_calls_keep_dirs (temp path : Path) (mode : Nat) (data : Bytes) :
    Keeps Disk.dirs (do
      openTruncated temp mode
      writeAll temp data
      syncAll temp
      rename temp path
      syncParent) := by
  have opens : Keeps Disk.dirs (openTruncated temp mode) :=
    .step (fun _ => rfl) fun _ _ => rfl
  have writes : Keeps Disk.dirs (writeAll temp data) := by
    unfold writeAll
    exact .step (fun _ => rfl) fun _ _ => rfl
  have renames : Keeps Disk.dirs (rename temp path) := by
    apply Keeps.step
    · intro disk
      cases disk.files temp <;> rfl
    · intro _ _
      rfl
  have syncs : Keeps Disk.dirs syncParent := by
    intro plan disk
    rw [sync_parent_run]
  exact opens.bind fun _ => writes.bind fun _ => (Keeps.check _ _).bind fun _ =>
    renames.bind fun _ => syncs

theorem write_atomic_dirs (path : Path) (data : Bytes) (isPrivate : Bool)
    (plan : Plan WriteStep) (disk : Disk) :
    DirsGrow path disk ((writeAtomic path data isPrivate).run plan disk).2 := by
  have start := dirs_grow_refl path disk
  unfold writeAtomic
  cases parented : path.parent with
  | none => exact start
  | some parent =>
  have partly (count : Nat) : DirsGrow path disk (disk.makeDirs (parent.enclosing.take count)) :=
    make_dirs_grow parented (fun _ => List.mem_of_mem_take) start
  have fully : DirsGrow path disk (disk.makeDirs parent.enclosing) :=
    make_dirs_grow parented (fun _ inside => inside) start
  simp only [run_bind, run_pure, createDirAll, run_step]
  cases plan .createDir with
  | fails extent => exact partly extent
  | killed extent => exact partly extent
  | done =>
  cases path.fileName with
  | none => exact fully
  | some name =>
  have same := later_calls_keep_dirs (parent.join s!".{name}.tmp") path
    (if isPrivate then 0o600 else 0o644) data plan (disk.makeDirs parent.enclosing)
  unfold DirsGrow at fully ⊢
  rw [← same] at fully
  exact fully

theorem replaced_at_path {temp : Path} (staged : path.tempPath = some temp) :
    Progress.replaced.apply path data isPrivate disk path =
      some ⟨data, tempMode disk temp isPrivate⟩ := by
  have apart := Path.temp_path_ne path temp staged
  simp [Progress.apply, staged, Function.update_of_ne apart.symm]

theorem replaced_at_temp {temp : Path} (staged : path.tempPath = some temp) :
    Progress.replaced.apply path data isPrivate disk temp = none := by
  simp [Progress.apply, staged]

theorem apply_elsewhere (made : Progress) {other : Path} (apart : other ≠ path)
    (noTemp : path.tempPath ≠ some other) :
    made.apply path data isPrivate disk other = disk.files other := by
  unfold Progress.apply
  cases staged : path.tempPath with
  | none => cases made <;> rfl
  | some temp =>
      have different : other ≠ temp := by
        intro same
        exact noTemp (by rw [staged, same])
      cases made <;> simp [different, apart]

theorem apply_unreplaced {made : Progress} (kept : made ≠ .replaced) :
    made.apply path data isPrivate disk path = disk.files path := by
  unfold Progress.apply
  cases staged : path.tempPath with
  | none => cases made <;> rfl
  | some temp =>
      have apart := Path.temp_path_ne path temp staged
      cases made with
      | untouched => rfl
      | staged bytes => simp [apart.symm]
      | replaced => exact absurd rfl kept

theorem temp_mode_owner_only {temp : Path}
    (closed : ∀ file, disk.files temp = some file → OwnerOnly file.mode) :
    OwnerOnly (tempMode disk temp true) := by
  unfold tempMode
  cases found : disk.files temp with
  | none => exact (by decide : OwnerOnly 0o600)
  | some file => exact closed file found

theorem undisturbed_replaces {temp : Path} (data : Bytes) (staged : path.tempPath = some temp)
    (undisturbed : Undisturbed plan) : progress path data plan = .replaced := by
  have done := undisturbed.1
  simp only [List.forall_mem_cons, List.not_mem_nil] at done
  simp [progress, staged, done]

theorem replaced_undisturbed (replaced : progress path data plan = .replaced)
    (survives : survivesSync plan = true) : Undisturbed plan := by
  refine ⟨?_, survives⟩
  simp only [progress] at replaced
  split at replaced
  · cases replaced
  split at replaced
  · cases replaced
  · cases replaced
  · split at replaced
    · simp_all
    · cases replaced

/-- An undisturbed call installs the data under the mode of the temporary file. -/
theorem undisturbed_installs {temp : Path} (data : Bytes) (isPrivate : Bool) (disk : Disk)
    (staged : path.tempPath = some temp) (undisturbed : Undisturbed plan) :
    ((writeAtomic path data isPrivate).run plan disk).1 = .ok () ∧
      ((writeAtomic path data isPrivate).run plan disk).2.files path =
        some ⟨data, tempMode disk temp isPrivate⟩ := by
  have result := write_atomic_result path data isPrivate plan disk
  have replaced := undisturbed_replaces data staged undisturbed
  constructor
  · exact result.returned.mpr ⟨replaced, undisturbed.2⟩
  · rw [result.files, replaced, replaced_at_path staged]

/-- The contract is met by every call, but for a private one that finds a
temporary file others may read: opening that file does not change its mode, and
the rename carries the mode to the path. -/
theorem write_atomic_contract_iff (path : Path) (data : Bytes) (isPrivate : Bool)
    (plan : Plan WriteStep) (disk : Disk) :
    Contract path data isPrivate disk ((writeAtomic path data isPrivate).run plan disk) ↔
      (isPrivate = true → Undisturbed plan → ∀ temp file, path.tempPath = some temp →
        disk.files temp = some file → OwnerOnly file.mode) := by
  have result := write_atomic_result path data isPrivate plan disk
  constructor
  · intro contract asked undisturbed temp file staged found
    have ⟨returned, there⟩ := undisturbed_installs data isPrivate disk staged undisturbed
    obtain ⟨installed, same, -, closed⟩ := contract.written returned
    rw [there] at same
    rw [← Option.some.inj same] at closed
    simpa [tempMode, found] using closed asked
  · intro closed
    constructor
    · intro returned
      have ⟨replaced, survives⟩ := result.returned.mp returned
      obtain ⟨temp, staged⟩ : ∃ temp, path.tempPath = some temp :=
        progress_has_temp (by rw [replaced]; simp)
      rw [result.files, replaced, replaced_at_path staged]
      refine ⟨_, rfl, rfl, fun asked => ?_⟩
      rw [asked]
      exact temp_mode_owner_only fun file found =>
        closed asked (replaced_undisturbed replaced survives) temp file staged found
    · intro returned temp staged
      rw [result.files, (result.returned.mp returned).1, replaced_at_temp staged]
    · intro error failed
      rw [result.files, apply_unreplaced (result.failed error failed)]
    · intro other apart noTemp
      rw [result.files, apply_elsewhere _ apart noTemp]
    · exact write_atomic_dirs path data isPrivate plan disk

/-- A directory that holds a temporary file of the node's key which others may
read. -/
def staleTemp : Disk :=
  Disk.empty.put (.ofNames ["etc", "nodeos", "pki", ".server.key.tmp"])
    (some { content := [], mode := 0o644 })

theorem stale_temp_exposes_key :
    ¬ Contract (.ofNames ["etc", "nodeos", "pki", "server.key"]) [45] true staleTemp
      ((writeAtomic (.ofNames ["etc", "nodeos", "pki", "server.key"]) [45] true).run .allDone
        staleTemp) := by
  intro contract
  have staged : (Path.ofNames ["etc", "nodeos", "pki", "server.key"]).tempPath =
      some (.ofNames ["etc", "nodeos", "pki", ".server.key.tmp"]) := rfl
  have undisturbed : Undisturbed .allDone := ⟨fun _ _ => rfl, rfl⟩
  have ⟨returned, there⟩ := undisturbed_installs [45] true staleTemp staged undisturbed
  obtain ⟨installed, same, -, closed⟩ := contract.written returned
  rw [there] at same
  rw [← Option.some.inj same] at closed
  exact absurd (closed rfl) (by decide)

end Contract

end NodeOs.Noded.WriteAtomic
