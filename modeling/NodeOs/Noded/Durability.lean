import Mathlib.Data.List.Infix
import NodeOs.Library.PowerLoss
import NodeOs.Noded.WriteAtomic

/-!
# `write_atomic` and a loss of power

The same calls, on a volume that says what a loss of power may bring back. The
entry of a directory that `create_dir_all` makes is in a directory that is never
synced, and a failed sync of the parent directory is not reported.
-/

namespace NodeOs.Noded.Durability

open NodeOs.Library.FaultPlan NodeOs.Library.FaultPlan.Proc
open NodeOs.Library.PowerLoss
open NodeOs.Noded.FileSystem
open NodeOs.Noded.WriteAtomic (WriteStep)

/-- The root and the working directory are always there. -/
def IsBase (dir : Path) : Prop := dir.innermost = []

instance (dir : Path) : Decidable (IsBase dir) := inferInstanceAs (Decidable (_ = []))

/-- Nothing is, or was, in a directory that is not there. -/
structure FileTree where
  volume : Volume Path File
  based : ∀ dir, IsBase dir → volume dir = ⟨some .dir, []⟩
  rooted : ∀ path parent, path.parent = some parent → ¬IsBase parent →
    (volume parent).current ≠ some .dir → volume path = ⟨none, []⟩

abbrev VolumeProc := Proc WriteStep Error (Volume Path File)

/-- The directories are made from the outermost one on; one that is there is no
error. -/
def makeDirs : List Path → Volume Path File → Option (Volume Path File)
  | [], volume => some volume
  | dir :: dirs, volume =>
      if IsBase dir then makeDirs dirs volume
      else match (volume dir).current with
        | some .dir => makeDirs dirs volume
        | some (.file _ _) => none
        | none =>
            makeDirs dirs (Function.update volume dir ((volume dir).replace (some .dir)))

def createDirAll (dir : Path) : VolumeProc Unit :=
  let error : Error := [s!"create directory {dir.display}", osError]
  step .createDir error
    (fun extent volume => (makeDirs (dir.enclosing.take extent) volume).getD volume)
    fun volume => match makeDirs dir.enclosing volume with
      | some made => (.ok (), made)
      | none => (.err error, volume)

/-- `O_WRONLY | O_CREAT | O_TRUNC`. A file that is there is emptied. -/
def openTruncated (temp : Path) (mode : Nat) : VolumeProc Unit :=
  let error : Error := [s!"open temp file {temp.display}", osError]
  step .openTemp error (fun _ volume => volume) fun volume =>
    match (volume temp).current with
    | some .dir => (.err error, volume)
    | some (.file file _) =>
        (.ok (), Function.update volume temp
          ((volume temp).amend (some (.file { file with content := [] } false))))
    | none =>
        (.ok (), Function.update volume temp
          ((volume temp).replace (some (.file ⟨[], mode⟩ false))))

def fill (temp : Path) (bytes : Bytes) (volume : Volume Path File) : Volume Path File :=
  match (volume temp).current with
  | some (.file file _) => Function.update volume temp
      ((volume temp).amend (some (.file { file with content := bytes } false)))
  | _ => volume

def writeAll (temp : Path) (data : Bytes) : VolumeProc Unit :=
  step .write [s!"write {temp.display}", osError]
    (fun extent => fill temp (data.take extent)) fun volume => (.ok (), fill temp data volume)

def flush (temp : Path) (volume : Volume Path File) : Volume Path File :=
  match (volume temp).current with
  | some (.file file _) => Function.update volume temp
      ((volume temp).amend (some (.file file true)))
  | _ => volume

def syncAll (temp : Path) : VolumeProc Unit :=
  step .fsync [s!"fsync {temp.display}", osError] (fun _ volume => volume)
    fun volume => (.ok (), flush temp volume)

def move (temp path : Path) (volume : Volume Path File) : Option (Volume Path File) :=
  match (volume temp).current with
  | some (.file file synced) =>
      if (volume path).current = some .dir then none
      else some (Function.update
        (Function.update volume path ((volume path).replace (some (.file file synced))))
        temp ((volume temp).replace none))
  | _ => none

def rename (temp path : Path) : VolumeProc Unit :=
  let error : Error := [s!"rename {temp.display} -> {path.display}", osError]
  step .rename error (fun _ volume => volume) fun volume =>
    match move temp path volume with
    | some moved => (.ok (), moved)
    | none => (.err error, volume)

/-- The empty path, the parent of a bare file name, cannot be opened. -/
def Opens (dir : Path) : Prop := dir.absolute = true ∨ dir.innermost ≠ []

instance (dir : Path) : Decidable (Opens dir) := inferInstanceAs (Decidable (_ ∨ _))

def openDir (dir : Path) : VolumeProc Unit :=
  step .openDir [osError] (fun _ volume => volume) fun volume =>
    if Opens dir then (.ok (), volume) else (.err [osError], volume)

/-- The entries of a directory are on the disk as they are now. -/
def settleIn (dir : Path) (volume : Volume Path File) : Volume Path File := fun path =>
  if path.parent = some dir then (volume path).settle else volume path

def syncDir (dir : Path) : VolumeProc Unit :=
  step .syncDir [osError] (fun _ volume => volume) fun volume => (.ok (), settleIn dir volume)

/-- Neither failure is reported. -/
def syncParent (dir : Path) : VolumeProc Unit := do
  match ← attempt (openDir dir) with
  | .error _ => pure ()
  | .ok () => ignore (syncDir dir)

def writeAtomic (path : Path) (data : Bytes) (isPrivate : Bool) : VolumeProc Unit := do
  let parent ← match path.parent with
    | some parent => pure parent
    | none => raise [s!"path has no parent directory: {path.display}"]
  createDirAll parent
  let fileName ← match path.fileName with
    | some fileName => pure fileName
    | none => raise [s!"path has no file name: {path.display}"]
  let temp := parent.join s!".{fileName}.tmp"
  openTruncated temp (if isPrivate then 0o600 else 0o644)
  writeAll temp data
  syncAll temp
  rename temp path
  syncParent parent

section Property

/-- The directories around a path that are entries themselves. -/
def directories (path : Path) : List Path :=
  match path.parent with
  | none => []
  | some parent => parent.enclosing.filter fun dir => ¬IsBase dir

/-- What a path holds after a loss. -/
def readAt (tree : Path → Option (Kept File)) (path : Path) : Option Bytes :=
  if (directories path).all fun dir => tree dir = some .dir then
    match tree path with
    | some (.file file) => some file.content
    | _ => none
  else none

/-- What a path holds now. -/
def present (volume : Volume Path File) (path : Path) : Option Bytes :=
  match (volume path).current with
  | some (.file file _) => some file.content
  | _ => none

/-- A call that returns has its data on the disk, and power that is lost at any of
its calls leaves what was there, or the data. -/
structure Durable (path : Path) (data : Bytes) (isPrivate : Bool) (volume : Volume Path File)
    (plan : Plan WriteStep) : Prop where
  returned : ((writeAtomic path data isPrivate).run plan volume).1 = .ok () →
    ∀ tree, Survives ((writeAtomic path data isPrivate).run plan volume).2 tree →
      readAt tree path = some data
  cut : ∀ call extent,
    ((writeAtomic path data isPrivate).run (Function.update plan call (.killed extent)) volume).1 =
      .killed →
    ∀ tree, Survives ((writeAtomic path data isPrivate).run
        (Function.update plan call (.killed extent)) volume).2 tree →
      readAt tree path = present volume path ∨ readAt tree path = some data

/-- Power that is lost before the call leaves what is there now, or the data. -/
def Settled (path : Path) (data : Bytes) (volume : Volume Path File) : Prop :=
  ∀ tree, Survives volume tree →
    readAt tree path = present volume path ∨ readAt tree path = some data

/-- No call up to the rename is refused, and the process is not killed in the rest. -/
def Completes (path : Path) (volume : Volume Path File) (plan : Plan WriteStep) : Prop :=
  ∃ parent temp, path.parent = some parent ∧ path.tempPath = some temp ∧
    (plan .createDir = .done ∧ (makeDirs parent.enclosing volume).isSome) ∧
    (plan .openTemp = .done ∧ (volume temp).current ≠ some .dir) ∧
    plan .write = .done ∧ plan .fsync = .done ∧
    (plan .rename = .done ∧ (volume path).current ≠ some .dir) ∧
    (∀ extent, plan .openDir ≠ .killed extent) ∧
    (plan .openDir = .done → Opens parent → ∀ extent, plan .syncDir ≠ .killed extent)

/-- The directory of the path is opened and synced. -/
def DirSynced (path : Path) (plan : Plan WriteStep) : Prop :=
  plan .openDir = .done ∧ plan .syncDir = .done ∧ ∃ parent, path.parent = some parent ∧ Opens parent

/-- The data are there, and synced, whatever a loss brings back. -/
def Held (path : Path) (data : Bytes) (volume : Volume Path File) : Prop :=
  ∀ node ∈ (volume path).candidates, ∃ file, node = some (.file file true) ∧ file.content = data

/-- No directory around the path is missing, or was made since its own directory was
synced. -/
def Anchored (path : Path) (volume : Volume Path File) : Prop :=
  ∀ dir ∈ directories path, ∀ node ∈ (volume dir).candidates, node = some .dir

end Property

section Paths

variable {path parent temp dir : Path}

theorem mem_directories (parented : path.parent = some parent) :
    dir ∈ directories path ↔
      dir.absolute = parent.absolute ∧ dir.innermost <:+ parent.innermost ∧ ¬IsBase dir := by
  unfold directories
  simp only [parented, Path.enclosing, List.mem_filter, List.mem_reverse, List.mem_map,
    List.mem_tails, decide_eq_true_eq]
  constructor
  · rintro ⟨⟨inner, suffix, rfl⟩, named⟩
    exact ⟨rfl, suffix, named⟩
  · rintro ⟨absolute, suffix, named⟩
    refine ⟨⟨dir.innermost, suffix, ?_⟩, named⟩
    rw [← absolute]

theorem parent_length (parented : path.parent = some parent) :
    path.innermost.length = parent.innermost.length + 1 := by
  unfold Path.parent at parented
  cases inner : path.innermost with
  | nil => simp [inner] at parented
  | cons first outer =>
      simp only [inner, Option.some.injEq] at parented
      rw [← parented, List.length_cons]

theorem directory_length (parented : path.parent = some parent) (inside : dir ∈ directories path) :
    dir.innermost.length ≤ parent.innermost.length :=
  ((mem_directories parented).mp inside).2.1.length_le

theorem directory_ne (inside : dir ∈ directories path) : dir ≠ path := by
  rintro rfl
  cases parented : dir.parent with
  | none => simp [directories, parented] at inside
  | some parent =>
      have shorter := directory_length parented inside
      rw [parent_length parented] at shorter
      omega

theorem temp_parent (staged : path.tempPath = some temp) : temp.parent = path.parent := by
  cases parented : path.parent with
  | none => simp [Path.tempPath, parented] at staged
  | some parent =>
      cases named : path.fileName with
      | none => simp [Path.tempPath, parented, named] at staged
      | some name =>
          rw [Path.temp_path_of_name parented named] at staged
          cases staged
          rfl

theorem directory_ne_temp (staged : path.tempPath = some temp) (inside : dir ∈ directories path) :
    dir ≠ temp := by
  rintro rfl
  cases parented : path.parent with
  | none => simp [directories, parented] at inside
  | some parent =>
      have shorter := directory_length parented inside
      rw [parent_length ((temp_parent staged).trans parented)] at shorter
      omega

/-- The directory of the path holds none of the directories around it. -/
theorem directory_elsewhere (parented : path.parent = some parent)
    (inside : dir ∈ directories path) : dir.parent ≠ some parent := by
  intro same
  have shorter := directory_length parented inside
  rw [parent_length same] at shorter
  omega

/-- Below a directory that is not there, nothing is or was there. -/
theorem absent_below (tree : FileTree) (inside : dir ∈ directories path)
    (missing : (tree.volume dir).current ≠ some .dir) : tree.volume path = ⟨none, []⟩ := by
  cases parented : path.parent with
  | none => simp [directories, parented] at inside
  | some parent =>
      obtain ⟨absolute, ⟨front, split⟩, named⟩ := (mem_directories parented).mp inside
      induction front generalizing path parent with
      | nil =>
          have same : parent = dir := by
            cases parent
            cases dir
            simp_all
          exact tree.rooted path parent parented (same ▸ named) (same ▸ missing)
      | cons first front ih =>
          have outer : parent.parent = some ⟨parent.absolute, front ++ dir.innermost⟩ := by
            unfold Path.parent
            rw [← split]
            rfl
          have within : dir ∈ directories parent :=
            (mem_directories outer).mpr ⟨absolute, List.suffix_append _ _, named⟩
          have gone := ih within _ outer absolute rfl
          apply tree.rooted path parent parented
          · unfold IsBase
            rw [← split]
            exact List.cons_ne_nil _ _
          · rw [gone]
            exact nofun

theorem not_enclosing (parented : path.parent = some parent) : path ∉ parent.enclosing := by
  intro inside
  simp only [Path.enclosing, List.mem_reverse, List.mem_map, List.mem_tails] at inside
  obtain ⟨inner, suffix, same⟩ := inside
  have shorter := suffix.length_le
  have longer := parent_length parented
  rw [← same] at longer
  simp only at longer
  omega

end Paths

section Calls

variable {path temp : Path} {data : Bytes} {volume state : Volume Path File}

/-- What the making of directories does to an entry. -/
def Grown (before after : Entry File) : Prop :=
  after = before ∨ (before.current = none ∧ after = before.replace (some .dir))

theorem make_dirs_grown {dirs : List Path} {made : Volume Path File}
    (makes : makeDirs dirs volume = some made) (path : Path) :
    Grown (volume path) (made path) ∧ (path ∉ dirs → made path = volume path) := by
  induction dirs generalizing volume with
  | nil =>
      cases makes
      exact ⟨Or.inl rfl, fun _ => rfl⟩
  | cons dir dirs ih =>
      unfold makeDirs at makes
      by_cases base : IsBase dir
      · rw [if_pos base] at makes
        exact ⟨(ih makes).1, fun outside => (ih makes).2 fun inside => outside (by simp [inside])⟩
      · rw [if_neg base] at makes
        cases current : (volume dir).current with
        | none =>
            simp only [current] at makes
            obtain ⟨grown, kept⟩ := ih makes
            by_cases same : path = dir
            · subst same
              rw [Function.update_self] at grown
              refine ⟨Or.inr ⟨current, ?_⟩, fun outside => absurd List.mem_cons_self outside⟩
              rcases grown with grown | ⟨missing, -⟩
              · exact grown
              · cases missing
            · rw [Function.update_of_ne same] at grown kept
              exact ⟨grown, fun outside => kept fun inside => outside (by simp [inside])⟩
        | some node =>
            cases node with
            | file file synced =>
                simp only [current] at makes
                cases makes
            | dir =>
                simp only [current] at makes
                exact ⟨(ih makes).1,
                  fun outside => (ih makes).2 fun inside => outside (by simp [inside])⟩

/-- The path is as it was, and around it directories were made. -/
structure Staged (path : Path) (volume state : Volume Path File) : Prop where
  dirs : ∀ dir ∈ directories path, Grown (volume dir) (state dir)
  same : state path = volume path

/-- And the path may have been replaced. -/
structure Between (path : Path) (data : Bytes) (volume state : Volume Path File) : Prop where
  dirs : ∀ dir ∈ directories path, Grown (volume dir) (state dir)
  entry : ∀ node ∈ (state path).candidates, node ∈ (volume path).candidates ∨
    ∃ file, node = some (.file file true) ∧ file.content = data

theorem Staged.between (staged : Staged path volume state) (data : Bytes) :
    Between path data volume state := by
  refine ⟨staged.dirs, ?_⟩
  intro node candidate
  rw [staged.same] at candidate
  exact Or.inl candidate

theorem Staged.refl (path : Path) (volume : Volume Path File) : Staged path volume volume :=
  ⟨fun _ _ => Or.inl rfl, rfl⟩

theorem staged_of_make_dirs {parent : Path} {dirs : List Path} {made : Volume Path File}
    (parented : path.parent = some parent) (around : ∀ dir ∈ dirs, dir ∈ parent.enclosing)
    (makes : makeDirs dirs volume = some made) : Staged path volume made := by
  constructor
  · intro dir inside
    exact (make_dirs_grown makes dir).1
  · apply (make_dirs_grown makes path).2
    intro inside
    exact not_enclosing parented (around path inside)

/-- The temporary file is neither the path nor a directory around it. -/
theorem Staged.elsewhere (staged : Staged path volume state) (named : path.tempPath = some temp)
    (entry : Entry File) : Staged path volume (Function.update state temp entry) := by
  constructor
  · intro dir inside
    rw [Function.update_of_ne (directory_ne_temp named inside)]
    exact staged.dirs dir inside
  · rw [Function.update_of_ne (Path.temp_path_ne path temp named).symm]
    exact staged.same

theorem Staged.fill (staged : Staged path volume state) (named : path.tempPath = some temp)
    (bytes : Bytes) : Staged path volume (fill temp bytes state) := by
  unfold Durability.fill
  split
  · exact staged.elsewhere named _
  · exact staged

/-- After the rename. -/
structure Renamed (path : Path) (data : Bytes) (volume state : Volume Path File) : Prop where
  dirs : ∀ dir ∈ directories path, Grown (volume dir) (state dir)
  replaced : ∃ file, file.content = data ∧
    state path = (volume path).replace (some (.file file true))

theorem Renamed.between (renamed : Renamed path data volume state) :
    Between path data volume state := by
  obtain ⟨file, content, entry⟩ := renamed.replaced
  refine ⟨renamed.dirs, ?_⟩
  intro node candidate
  rw [entry, Entry.mem_candidates_replace] at candidate
  rcases candidate with rfl | old
  · exact Or.inr ⟨file, rfl, content⟩
  · exact Or.inl old

theorem Staged.move {file : File} (staged : Staged path volume state)
    (named : path.tempPath = some temp)
    (filled : (state temp).current = some (.file file true)) (content : file.content = data)
    (free : (volume path).current ≠ some .dir) :
    ∃ moved, move temp path state = some moved ∧ Renamed path data volume moved := by
  have apart := Path.temp_path_ne path temp named
  have moves : Durability.move temp path state = some (Function.update
      (Function.update state path ((state path).replace (some (.file file true)))) temp
      ((state temp).replace none)) := by
    rw [← staged.same] at free
    unfold Durability.move
    simp only [filled, if_neg free]
  refine ⟨_, moves, ?_, file, content, ?_⟩
  · intro dir inside
    rw [Function.update_of_ne (directory_ne_temp named inside),
      Function.update_of_ne (directory_ne inside)]
    exact staged.dirs dir inside
  · rw [Function.update_of_ne apart.symm, Function.update_self, staged.same]

/-- The sync of the path's directory. -/
theorem Renamed.settle {parent : Path} (renamed : Renamed path data volume state)
    (parented : path.parent = some parent) :
    (∀ dir ∈ directories path, Grown (volume dir) (settleIn parent state dir)) ∧
      ∃ file, file.content = data ∧
        settleIn parent state path = ⟨some (.file file true), []⟩ := by
  obtain ⟨file, content, entry⟩ := renamed.replaced
  refine ⟨?_, file, content, ?_⟩
  · intro dir inside
    unfold settleIn
    rw [if_neg (directory_elsewhere parented inside)]
    exact renamed.dirs dir inside
  · unfold settleIn
    rw [if_pos parented, entry]
    rfl

theorem sync_parent_run (parent : Path) (plan : Plan WriteStep) (state : Volume Path File) :
    (syncParent parent).run plan state =
      match plan .openDir with
      | .killed _ => (.killed, state)
      | .fails _ => (.ok (), state)
      | .done =>
          if Opens parent then
            match plan .syncDir with
            | .done => (.ok (), settleIn parent state)
            | .fails _ => (.ok (), state)
            | .killed _ => (.killed, state)
          else (.ok (), state) := by
  simp only [syncParent, openDir, syncDir, run_bind, run_attempt, run_step]
  cases plan .openDir with
  | killed extent => rfl
  | fails extent => rfl
  | done =>
      by_cases opens : Opens parent
      · simp only [if_pos opens, run_ignore, run_step]
        cases plan .syncDir <;> rfl
      · simp only [if_neg opens, run_pure]

/-- What a call leaves on the volume, and when it returns. -/
structure Result (path : Path) (data : Bytes) (volume : Volume Path File) (plan : Plan WriteStep)
    (result : Outcome Error Unit × Volume Path File) : Prop where
  between : Between path data volume result.2
  returned : result.1 = .ok () ↔ Completes path volume plan
  synced : result.1 = .ok () → DirSynced path plan →
    (∀ dir ∈ directories path, Grown (volume dir) (result.2 dir)) ∧
      ∃ file, file.content = data ∧ result.2 path = ⟨some (.file file true), []⟩
  unsynced : result.1 = .ok () → ¬DirSynced path plan → Renamed path data volume result.2

theorem Result.of_staged {plan : Plan WriteStep} {result : Outcome Error Unit × Volume Path File}
    (staged : Staged path volume result.2) (stopped : result.1 ≠ .ok ())
    (incomplete : ¬Completes path volume plan) : Result path data volume plan result where
  between := staged.between data
  returned := iff_of_false stopped incomplete
  synced := fun returned => absurd returned stopped
  unsynced := fun returned => absurd returned stopped

/-- The end of a call that has renamed its file. -/
theorem Result.of_renamed {parent : Path} {plan : Plan WriteStep}
    (parented : path.parent = some parent) (renamed : Renamed path data volume state)
    (complete : Completes path volume plan ↔ (∀ extent, plan .openDir ≠ .killed extent) ∧
      (plan .openDir = .done → Opens parent → ∀ extent, plan .syncDir ≠ .killed extent)) :
    Result path data volume plan ((syncParent parent).run plan state) := by
  have unopened (other : plan .openDir ≠ .done) : ¬DirSynced path plan :=
    fun synced => other synced.1
  rw [sync_parent_run]
  cases opened : plan .openDir with
  | killed extent =>
      refine ⟨renamed.between, iff_of_false nofun ?_, nofun, nofun⟩
      rw [complete]
      exact fun survives => survives.1 extent opened
  | fails extent =>
      have without := unopened (by rw [opened]; exact nofun)
      refine ⟨renamed.between, iff_of_true rfl ?_, fun _ synced => absurd synced without,
        fun _ _ => renamed⟩
      rw [complete, opened]
      exact ⟨nofun, nofun⟩
  | done =>
      by_cases opens : Opens parent
      · simp only [if_pos opens]
        cases flushed : plan .syncDir with
        | killed extent =>
            refine ⟨renamed.between, iff_of_false nofun ?_, nofun, nofun⟩
            rw [complete]
            exact fun survives => survives.2 opened opens extent flushed
        | fails extent =>
            have without : ¬DirSynced path plan := by
              rintro ⟨-, done, -⟩
              rw [flushed] at done
              cases done
            refine ⟨renamed.between, iff_of_true rfl ?_, fun _ synced => absurd synced without,
              fun _ _ => renamed⟩
            rw [complete, opened, flushed]
            exact ⟨nofun, fun _ _ => nofun⟩
        | done =>
            have settled := renamed.settle parented
            have synced : DirSynced path plan := ⟨opened, flushed, parent, parented, opens⟩
            refine ⟨⟨settled.1, ?_⟩, iff_of_true rfl ?_, fun _ _ => settled,
              fun _ without => absurd synced without⟩
            · obtain ⟨-, file, content, entry⟩ := settled
              intro node candidate
              simp only [entry, Entry.candidates, List.mem_singleton] at candidate
              exact Or.inr ⟨file, candidate, content⟩
            · rw [complete, opened, flushed]
              exact ⟨nofun, fun _ _ => nofun⟩
      · simp only [if_neg opens]
        have without : ¬DirSynced path plan := by
          rintro ⟨-, -, other, same, opens'⟩
          rw [parented] at same
          cases same
          exact opens opens'
        refine ⟨renamed.between, iff_of_true rfl ?_, fun _ synced => absurd synced without,
          fun _ _ => renamed⟩
        rw [complete, opened]
        exact ⟨nofun, fun _ opens' => absurd opens' opens⟩

theorem fill_current {file : File} {synced : Bool} (bytes : Bytes)
    (current : (state temp).current = some (.file file synced)) :
    (fill temp bytes state temp).current = some (.file { file with content := bytes } false) := by
  unfold fill
  simp only [current, Function.update_self, Entry.amend]

theorem flush_current {file : File} {synced : Bool}
    (current : (state temp).current = some (.file file synced)) :
    (flush temp state temp).current = some (.file file true) := by
  unfold flush
  simp only [current, Function.update_self, Entry.amend]

theorem Staged.flush (staged : Staged path volume state) (named : path.tempPath = some temp) :
    Staged path volume (flush temp state) := by
  unfold Durability.flush
  split
  · exact staged.elsewhere named _
  · exact staged

/-- The temporary file is opened unless a directory is in its place. -/
theorem open_truncated_run (plan : Plan WriteStep) (temp : Path) (mode : Nat)
    (done : plan .openTemp = .done) (state : Volume Path File) :
    (state temp).current = some .dir ∧
        ((openTruncated temp mode).run plan state).1 =
          .err [s!"open temp file {temp.display}", osError] ∧
        ((openTruncated temp mode).run plan state).2 = state ∨
      (state temp).current ≠ some .dir ∧ ∃ entry file, entry.current = some (.file file false) ∧
        (openTruncated temp mode).run plan state = (.ok (), Function.update state temp entry) := by
  simp only [openTruncated, run_step, done]
  cases current : (state temp).current with
  | none => exact Or.inr ⟨nofun, _, ⟨[], mode⟩, rfl, rfl⟩
  | some node =>
      cases node with
      | dir => exact Or.inl ⟨rfl, rfl, rfl⟩
      | file file synced => exact Or.inr ⟨nofun, _, { file with content := [] }, rfl, rfl⟩

theorem write_atomic_result (path : Path) (data : Bytes) (isPrivate : Bool)
    (plan : Plan WriteStep) (volume : Volume Path File) :
    Result path data volume plan ((writeAtomic path data isPrivate).run plan volume) := by
  cases parented : path.parent with
  | none =>
      simp only [writeAtomic, parented, run_bind, run_raise]
      refine .of_staged (Staged.refl path volume) (by simp) ?_
      rintro ⟨parent, temp, same, -⟩
      rw [parented] at same
      cases same
  | some parent =>
  have unmade (other : plan .createDir ≠ .done) : ¬Completes path volume plan := by
    rintro ⟨_, _, _, _, ⟨done, -⟩, -⟩
    exact other done
  have partly (extent : Nat) :
      Staged path volume ((makeDirs (parent.enclosing.take extent) volume).getD volume) := by
    cases makes : makeDirs (parent.enclosing.take extent) volume with
    | none => exact Staged.refl path volume
    | some made => exact staged_of_make_dirs parented (fun _ => List.mem_of_mem_take) makes
  simp only [writeAtomic, parented, run_bind, run_pure, createDirAll, run_step]
  cases make : plan .createDir with
  | fails extent => exact .of_staged (partly extent) (by simp) (unmade (by simp [make]))
  | killed extent => exact .of_staged (partly extent) (by simp) (unmade (by simp [make]))
  | done =>
  cases makes : makeDirs parent.enclosing volume with
  | none =>
      refine .of_staged (Staged.refl path volume) (by simp) ?_
      rintro ⟨other, _, same, _, ⟨-, made⟩, -⟩
      rw [parented] at same
      cases same
      rw [makes] at made
      cases made
  | some made =>
  have staged := staged_of_make_dirs parented (fun _ inside => inside) makes
  cases file : path.fileName with
  | none =>
      simp only [run_bind, run_raise]
      refine .of_staged staged (by simp) ?_
      rintro ⟨_, temp, _, same, -⟩
      simp [Path.tempPath, parented, file] at same
  | some name =>
  have named := Path.temp_path_of_name parented file
  simp only [run_bind, run_pure]
  generalize parent.join s!".{name}.tmp" = temp at named
  have unmoved : made temp = volume temp := by
    apply (make_dirs_grown makes temp).2
    exact not_enclosing ((temp_parent named).trans parented)
  -- The call is complete if what is still to come is.
  have complete : Completes path volume plan ↔
      (plan .openTemp = .done ∧ (volume temp).current ≠ some .dir) ∧
      plan .write = .done ∧ plan .fsync = .done ∧
      (plan .rename = .done ∧ (volume path).current ≠ some .dir) ∧
      (∀ extent, plan .openDir ≠ .killed extent) ∧
      (plan .openDir = .done → Opens parent → ∀ extent, plan .syncDir ≠ .killed extent) := by
    constructor
    · rintro ⟨other, temp', same, same', -, rest⟩
      rw [parented] at same
      rw [named] at same'
      cases same
      cases same'
      exact rest
    · intro rest
      exact ⟨parent, temp, parented, named, ⟨make, by rw [makes]; rfl⟩, rest⟩
  cases opened : plan .openTemp with
  | fails extent =>
      simp only [openTruncated, run_step, opened]
      exact .of_staged staged (by simp) (by simp [complete, opened])
  | killed extent =>
      simp only [openTruncated, run_step, opened]
      exact .of_staged staged (by simp) (by simp [complete, opened])
  | done =>
  rcases open_truncated_run plan temp (if isPrivate then 0o600 else 0o644) opened made with
    ⟨dir, refused, same⟩ | ⟨free, entry, contents, current, same⟩
  · rw [unmoved] at dir
    cases ran : (openTruncated temp (if isPrivate then 0o600 else 0o644)).run plan made with
    | mk outcome after =>
        rw [ran] at refused same
        simp only at refused same
        rw [refused, same]
        exact .of_staged staged (by simp) fun all => (complete.mp all).1.2 dir
  rw [same]
  rw [unmoved] at free
  have staged := staged.elsewhere named entry
  have current : (Function.update made temp entry temp).current = some (.file contents false) := by
    rw [Function.update_self, current]
  generalize Function.update made temp entry = state at staged current
  simp only [writeAll, run_step]
  cases write : plan .write with
  | fails extent =>
      exact .of_staged (staged.fill named _) (by simp) (by simp [complete, write])
  | killed extent =>
      exact .of_staged (staged.fill named _) (by simp) (by simp [complete, write])
  | done =>
  have staged := staged.fill named data
  have current := fill_current data current
  generalize fill temp data state = state at staged current
  simp only [syncAll, run_step]
  cases fsync : plan .fsync with
  | fails extent => exact .of_staged staged (by simp) (by simp [complete, fsync])
  | killed extent => exact .of_staged staged (by simp) (by simp [complete, fsync])
  | done =>
  have staged := staged.flush named
  have current := flush_current current
  generalize flush temp state = state at staged current
  simp only [rename, run_step]
  cases renames : plan .rename with
  | fails extent => exact .of_staged staged (by simp) (by simp [complete, renames])
  | killed extent => exact .of_staged staged (by simp) (by simp [complete, renames])
  | done =>
  by_cases taken : (volume path).current = some .dir
  · have refused : move temp path state = none := by
      unfold move
      rw [current, staged.same]
      simp only [if_pos taken]
    rw [refused]
    exact .of_staged staged (by simp) fun all => (complete.mp all).2.2.2.1.2 taken
  · obtain ⟨moved, moves, renamed⟩ := staged.move named current rfl taken
    rw [moves]
    apply Result.of_renamed parented renamed
    rw [complete]
    simp [opened, write, fsync, renames, free, taken]

end Calls

section Survivors

variable {path : Path} {data : Bytes} {volume state : Volume Path File}
  {tree : Path → Option (Kept File)}

theorem read_at_some_iff (bytes : Bytes) :
    readAt tree path = some bytes ↔
      (∀ dir ∈ directories path, tree dir = some .dir) ∧
        ∃ file, tree path = some (.file file) ∧ file.content = bytes := by
  unfold readAt
  by_cases dirs : (directories path).all fun dir => tree dir = some .dir
  · rw [if_pos dirs]
    have all : ∀ dir ∈ directories path, tree dir = some .dir := by simpa using dirs
    cases found : tree path with
    | none => simp
    | some kept =>
        cases kept with
        | dir => simp
        | file file =>
            constructor
            · intro same
              exact ⟨all, file, rfl, Option.some.inj same⟩
            · rintro ⟨-, other, same, rfl⟩
              cases same
              rfl
  · rw [if_neg dirs]
    refine iff_of_false nofun ?_
    rintro ⟨all, -⟩
    exact dirs (by simpa using all)

theorem read_at_missing {dir : Path} (inside : dir ∈ directories path)
    (missing : tree dir ≠ some .dir) : readAt tree path = none := by
  cases read : readAt tree path with
  | none => rfl
  | some bytes => exact absurd (((read_at_some_iff bytes).mp read).1 dir inside) missing

theorem read_at_congr {other : Path → Option (Kept File)}
    (same : ∀ dir ∈ directories path, tree dir = other dir) (here : tree path = other path) :
    readAt tree path = readAt other path := by
  have dirs : ((directories path).all fun dir => tree dir = some .dir) =
      (directories path).all fun dir => other dir = some .dir := by
    rw [Bool.eq_iff_iff, List.all_eq_true, List.all_eq_true]
    constructor
    · intro all dir inside
      rw [← same dir inside]
      exact all dir inside
    · intro all dir inside
      rw [same dir inside]
      exact all dir inside
  unfold readAt
  rw [dirs, here]

theorem Grown.candidate {before after : Entry File} (grown : Grown before after)
    {node : Option (Node File)} (old : node ∈ before.candidates) : node ∈ after.candidates := by
  rcases grown with rfl | ⟨-, rfl⟩
  · exact old
  · exact (Entry.mem_candidates_replace _ _ _).mpr (Or.inr old)

/-- A directory that is lost was not there, or was not synced, before the call. -/
theorem Grown.lost {before after : Entry File} (grown : Grown before after)
    {node : Option (Node File)} (candidate : node ∈ after.candidates) (other : node ≠ some .dir) :
    node ∈ before.candidates := by
  rcases grown with rfl | ⟨-, rfl⟩
  · exact candidate
  · exact ((Entry.mem_candidates_replace _ _ _).mp candidate).resolve_left other

/-- What is left when power is lost in a call, if nothing was open before it. -/
theorem Between.settled (start : FileTree) (between : Between path data start.volume state)
    (settled : Settled path data start.volume) (survives : Survives state tree) :
    readAt tree path = present start.volume path ∨ readAt tree path = some data := by
  by_cases dirs : ∀ dir ∈ directories path, tree dir = some .dir
  · obtain ⟨node, candidate, leaves⟩ := survives path
    rcases between.entry node candidate with old | ⟨file, rfl, content⟩
    · by_cases made : ∃ dir ∈ directories path, (start.volume dir).current ≠ some .dir
      · -- Its directory is new, so the path was not there.
        obtain ⟨dir, inside, missing⟩ := made
        have absent := absent_below start inside missing
        rw [absent] at old
        cases List.mem_singleton.mp old
        left
        have gone : tree path = none := leaves
        unfold readAt present
        rw [gone, absent]
        exact ite_self _
      · have before : Survives start.volume fun other =>
            if other ∈ path :: directories path then tree other
            else intact (start.volume other).current := by
          apply Survives.piecewise _ _ (survives_present start.volume)
          intro other chosen
          rcases List.mem_cons.mp chosen with rfl | inside
          · exact ⟨node, old, leaves⟩
          · have there : (start.volume other).current = some .dir := by
              by_contra missing
              exact made ⟨other, inside, missing⟩
            exact ⟨some .dir, there ▸ Entry.current_mem _, dirs other inside⟩
        have read := settled _ before
        have same : readAt (fun other => if other ∈ path :: directories path then tree other
            else intact (start.volume other).current) path = readAt tree path := by
          apply read_at_congr
          · intro dir inside
            exact if_pos (List.mem_cons_of_mem _ inside)
          · exact if_pos List.mem_cons_self
        rwa [same] at read
    · right
      exact (read_at_some_iff data).mpr ⟨dirs, file, leaves, content⟩
  · -- A directory is lost that could be lost before.
    have lost : ∃ dir ∈ directories path, tree dir ≠ some .dir := by
      by_contra all
      apply dirs
      intro dir inside
      by_contra missing
      exact all ⟨dir, inside, missing⟩
    obtain ⟨dir, inside, missing⟩ := lost
    obtain ⟨node, candidate, leaves⟩ := survives dir
    have other : node ≠ some .dir := by
      rintro rfl
      exact missing leaves
    have old := (between.dirs dir inside).lost candidate other
    have before := (survives_present start.volume).update old leaves
    have gone : readAt (Function.update (fun key => intact (start.volume key).current) dir
        (tree dir)) path = none := by
      apply read_at_missing inside
      rw [Function.update_self]
      exact missing
    rcases settled _ before with same | same
    · left
      rw [read_at_missing inside missing, ← same, gone]
    · rw [gone] at same
      cases same

/-- The data of a returned call are lost with a directory that is not anchored. -/
theorem anchored_of_survivors (grown : ∀ dir ∈ directories path, Grown (volume dir) (state dir))
    (durable : ∀ tree, Survives state tree → readAt tree path = some data) :
    Anchored path volume := by
  intro dir inside node candidate
  by_contra other
  have lost := (survives_present state).update ((grown dir inside).candidate candidate)
    (leaves_intact node)
  have there := ((read_at_some_iff data).mp (durable _ lost)).1 dir inside
  rw [Function.update_self] at there
  apply other
  rw [← leaves_dir_iff, ← there]
  exact leaves_intact node

/-- Where the directory is not synced, the path may come back as it was. -/
theorem held_of_survivors (replaced : ∃ file, file.content = data ∧
      state path = (volume path).replace (some (.file file true)))
    (durable : ∀ tree, Survives state tree → readAt tree path = some data) :
    Held path data volume := by
  obtain ⟨file, -, entry⟩ := replaced
  intro node candidate
  have old : node ∈ (state path).candidates := by
    rw [entry, Entry.mem_candidates_replace]
    exact Or.inr candidate
  have found {left : Option (Kept File)} (leaves : Leaves node left) :
      ∃ other, left = some (.file other) ∧ other.content = data := by
    have read := durable _ ((survives_present state).update old leaves)
    obtain ⟨-, other, same, content⟩ := (read_at_some_iff data).mp read
    rw [Function.update_self] at same
    exact ⟨other, same, content⟩
  cases node with
  | none =>
      obtain ⟨other, same, -⟩ := @found none rfl
      cases same
  | some node =>
      cases node with
      | dir =>
          obtain ⟨other, same, -⟩ := @found (some .dir) rfl
          cases same
      | file content synced =>
          cases synced with
          | true =>
              obtain ⟨other, same, held⟩ := @found (some (.file content)) rfl
              cases same
              exact ⟨_, rfl, held⟩
          | false =>
              -- Unsynced data may come back as any other.
              obtain ⟨other, same, held⟩ :=
                @found (some (.file ⟨0 :: data, 0⟩)) ⟨_, rfl⟩
              cases same
              exact absurd held (List.cons_ne_self _ _)

/-- The root and the working directory hold no file. -/
theorem settled_of_orphan (start : FileTree) (orphan : path.parent = none) :
    Settled path data start.volume := by
  have base : IsBase path := by
    unfold Path.parent at orphan
    unfold IsBase
    cases inner : path.innermost with
    | nil => rfl
    | cons first outer => simp [inner] at orphan
  have entry := start.based path base
  intro tree survives
  obtain ⟨node, candidate, leaves⟩ := survives path
  rw [entry] at candidate
  cases List.mem_singleton.mp candidate
  have found : tree path = some .dir := leaves
  left
  unfold readAt present
  rw [found, entry]
  exact ite_self _

/-- Power that is lost at the first call leaves what was open before it. -/
theorem settled_of_durable {isPrivate : Bool} {plan : Plan WriteStep} (start : FileTree)
    (durable : Durable path data isPrivate start.volume plan) :
    Settled path data start.volume := by
  cases parented : path.parent with
  | none => exact settled_of_orphan start parented
  | some parent =>
      have untouched : (writeAtomic path data isPrivate).run
          (Function.update plan .createDir (.killed 0)) start.volume =
            (.killed, start.volume) := by
        simp only [writeAtomic, parented, run_bind, run_pure, createDirAll, run_step,
          Function.update_self, List.take_zero, makeDirs, Option.getD_some]
      have cut := durable.cut .createDir 0
      rw [untouched] at cut
      exact cut rfl

/-- Directories that are anchored before the call are found after it. -/
theorem Anchored.found (anchored : Anchored path volume)
    (grown : ∀ dir ∈ directories path, Grown (volume dir) (state dir))
    (survives : Survives state tree) : ∀ dir ∈ directories path, tree dir = some .dir := by
  intro dir inside
  obtain ⟨node, candidate, leaves⟩ := survives dir
  have there : node = some .dir := by
    by_contra other
    exact other (anchored dir inside node ((grown dir inside).lost candidate other))
  rw [there] at leaves
  exact leaves

theorem Renamed.held (renamed : Renamed path data volume state) (held : Held path data volume)
    (survives : Survives state tree) :
    ∃ file, tree path = some (.file file) ∧ file.content = data := by
  obtain ⟨file, content, entry⟩ := renamed.replaced
  obtain ⟨node, candidate, leaves⟩ := survives path
  rw [entry, Entry.mem_candidates_replace] at candidate
  rcases candidate with rfl | old
  · exact ⟨file, leaves, content⟩
  · obtain ⟨other, rfl, same⟩ := held node old
    exact ⟨other, leaves, same⟩

end Survivors

/-- `write_atomic` is durable exactly if nothing of the path is open before the call,
and, where the call returns, the directories around the path were there, with
their entries synced, and the sync of its own directory succeeds (or the path
held the data). -/
theorem write_atomic_durable_iff (path : Path) (data : Bytes) (isPrivate : Bool) (start : FileTree)
    (plan : Plan WriteStep) :
    Durable path data isPrivate start.volume plan ↔
      Settled path data start.volume ∧ (Completes path start.volume plan →
        Anchored path start.volume ∧ (DirSynced path plan ∨ Held path data start.volume)) := by
  have result := write_atomic_result path data isPrivate plan start.volume
  constructor
  · intro durable
    refine ⟨settled_of_durable start durable, ?_⟩
    intro complete
    have returned := result.returned.mpr complete
    by_cases synced : DirSynced path plan
    · exact ⟨anchored_of_survivors (result.synced returned synced).1 (durable.returned returned),
        Or.inl synced⟩
    · have renamed := result.unsynced returned synced
      exact ⟨anchored_of_survivors renamed.dirs (durable.returned returned),
        Or.inr (held_of_survivors renamed.replaced (durable.returned returned))⟩
  · rintro ⟨settled, completed⟩
    constructor
    · intro returned tree survives
      obtain ⟨anchored, last⟩ := completed (result.returned.mp returned)
      rw [read_at_some_iff]
      by_cases synced : DirSynced path plan
      · obtain ⟨grown, file, content, entry⟩ := result.synced returned synced
        refine ⟨anchored.found grown survives, file, ?_, content⟩
        obtain ⟨node, candidate, leaves⟩ := survives path
        rw [entry] at candidate
        cases List.mem_singleton.mp candidate
        exact leaves
      · have renamed := result.unsynced returned synced
        exact ⟨anchored.found renamed.dirs survives,
          renamed.held (last.resolve_left synced) survives⟩
    · intro call extent killed tree survives
      exact (write_atomic_result path data isPrivate _ start.volume).between.settled start settled
        survives

/-- A volume with nothing on it. -/
def emptyTree : FileTree where
  volume := fun path => if IsBase path then ⟨some .dir, []⟩ else ⟨none, []⟩
  based := fun _ base => if_pos base
  rooted := by
    intro path parent parented _ _
    apply if_neg
    intro base
    unfold IsBase at base
    simp [Path.parent, base] at parented

/-- The directory of the path is still to be made. -/
def unmadePath : Path := Path.ofNames ["state", "noded.yaml"]

/-- Every call succeeds, and the new directory is lost with the file in it. -/
theorem write_atomic_directory_lost :
    ¬Durable unmadePath [1] false emptyTree.volume Plan.allDone := by
  intro durable
  have result := write_atomic_result unmadePath [1] false Plan.allDone emptyTree.volume
  have complete : Completes unmadePath emptyTree.volume Plan.allDone := by
    refine ⟨Path.ofNames ["state"], Path.ofNames ["state", ".noded.yaml.tmp"], rfl, rfl,
      ⟨rfl, by decide⟩, ⟨rfl, by decide⟩, rfl, rfl, ⟨rfl, by decide⟩, nofun, nofun⟩
  have synced : DirSynced unmadePath Plan.allDone :=
    ⟨rfl, rfl, Path.ofNames ["state"], rfl, Or.inl rfl⟩
  have returned := result.returned.mpr complete
  have anchored := anchored_of_survivors (result.synced returned synced).1
    (durable.returned returned)
  have missing := anchored (Path.ofNames ["state"]) (by decide) none (by decide)
  cases missing

end NodeOs.Noded.Durability
