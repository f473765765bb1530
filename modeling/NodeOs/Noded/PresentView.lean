import NodeOs.Library.Simulation
import NodeOs.Noded.Durability

/-!
# A volume as it is seen now

What a loss of power may bring back is not seen as long as there is none. In the
present view the call on a volume is the call on a disk, unless the volume has a
file where the call needs a directory, or a directory where it needs a file.
-/

namespace NodeOs.Noded.PresentView

open NodeOs.Library.FaultPlan NodeOs.Library.FaultPlan.Proc
open NodeOs.Library.PowerLoss
open NodeOs.Noded.FileSystem NodeOs.Noded.Durability

def seen : Option (Node File) → Option File
  | some (.file file _) => some file
  | _ => none

/-- The disk is the volume as it is seen now. -/
structure Shows (volume : Volume Path File) (disk : Disk) : Prop where
  files : ∀ path, disk.files path = seen (volume path).current
  dirs : ∀ dir, ¬IsBase dir → (disk.dirs dir = true ↔ (volume dir).current = some .dir)

/-- No directory is in the way of the file or of its temporary one. -/
structure Unblocked (path : Path) (volume : Volume Path File) : Prop where
  target : (volume path).current ≠ some .dir
  temp : ∀ temp, path.tempPath = some temp → (volume temp).current ≠ some .dir

/-- The relation that holds all along. -/
def Related (path : Path) (volume : Volume Path File) (disk : Disk) : Prop :=
  Shows volume disk ∧ Unblocked path volume

section Steps

variable {path temp dir : Path} {volume made : Volume Path File} {disk : Disk}

theorem put_self (disk : Disk) (path : Path) : disk.put path (disk.files path) = disk := by
  simp [Disk.put]

/-- A file takes the place of whatever is no directory. -/
theorem Shows.put (shows : Shows volume disk) {entry : Entry File}
    (free : (volume path).current ≠ some .dir) (file : entry.current ≠ some .dir) :
    Shows (Function.update volume path entry) (disk.put path (seen entry.current)) := by
  constructor
  · intro other
    rw [Disk.put_files]
    by_cases same : other = path
    · rw [same, Function.update_self, Function.update_self]
    · rw [Function.update_of_ne same, Function.update_of_ne same]
      exact shows.files other
  · intro dir named
    by_cases same : dir = path
    · subst same
      rw [Function.update_self]
      exact iff_of_false (fun held => free ((shows.dirs dir named).mp held)) file
    · rw [Function.update_of_ne same]
      exact shows.dirs dir named

theorem Unblocked.put (unblocked : Unblocked path volume) {entry : Entry File}
    (file : entry.current ≠ some .dir) (other : Path) :
    Unblocked path (Function.update volume other entry) := by
  have still {held : Path} (free : (volume held).current ≠ some .dir) :
      (Function.update volume other entry held).current ≠ some .dir := by
    by_cases same : held = other
    · rwa [same, Function.update_self]
    · rwa [Function.update_of_ne same]
  exact ⟨still unblocked.target, fun temp staged => still (unblocked.temp temp staged)⟩

theorem Related.put (related : Related path volume disk) {entry : Entry File} {file : Option File}
    {other : Path} (free : (volume other).current ≠ some .dir)
    (filled : entry.current ≠ some .dir) (same : seen entry.current = file) :
    Related path (Function.update volume other entry) (disk.put other file) :=
  ⟨same ▸ related.1.put free filled, related.2.put filled other⟩

theorem make_dirs_cons (disk : Disk) (dir : Path) (dirs : List Path) :
    (disk.makeDirs [dir]).makeDirs dirs = disk.makeDirs (dir :: dirs) := by
  simp only [Disk.makeDirs, List.contains_cons, List.contains_nil, Bool.or_false, Bool.or_assoc]

/-- Making a directory shows nothing new where it is there. -/
theorem Shows.make_present (shows : Shows volume disk)
    (there : IsBase dir ∨ (volume dir).current = some .dir) :
    Shows volume (disk.makeDirs [dir]) := by
  refine ⟨shows.files, ?_⟩
  intro other named
  by_cases same : other = dir
  · subst same
    have present : (volume other).current = some .dir := there.resolve_left named
    simp [Disk.makeDirs, present]
  · simp [Disk.makeDirs, same, shows.dirs other named]

theorem Shows.make_new (shows : Shows volume disk) (missing : (volume dir).current = none) :
    Shows (Function.update volume dir ((volume dir).replace (some .dir)))
      (disk.makeDirs [dir]) := by
  constructor
  · intro other
    rw [Disk.make_dirs_files]
    by_cases same : other = dir
    · rw [same, Function.update_self, shows.files, missing]
      rfl
    · rw [Function.update_of_ne same]
      exact shows.files other
  · intro other named
    by_cases same : other = dir
    · simp [Disk.makeDirs, same, Entry.replace]
    · simp [Disk.makeDirs, same, shows.dirs other named]

theorem Shows.make_dirs {dirs : List Path} (shows : Shows volume disk)
    (makes : makeDirs dirs volume = some made) : Shows made (disk.makeDirs dirs) := by
  induction dirs generalizing volume disk with
  | nil =>
      cases makes
      exact ⟨shows.files, fun dir named => by simpa [Disk.makeDirs] using shows.dirs dir named⟩
  | cons dir dirs ih =>
      rw [← make_dirs_cons]
      unfold Durability.makeDirs at makes
      by_cases base : IsBase dir
      · rw [if_pos base] at makes
        exact ih (shows.make_present (Or.inl base)) makes
      · rw [if_neg base] at makes
        cases current : (volume dir).current with
        | none =>
            simp only [current] at makes
            exact ih (shows.make_new current) makes
        | some node =>
            cases node with
            | file file synced =>
                simp only [current] at makes
                cases makes
            | dir =>
                simp only [current] at makes
                exact ih (shows.make_present (Or.inr current)) makes

/-- What can be made as a whole can be made in part. -/
theorem make_dirs_take {dirs : List Path} (count : Nat) (makes : (makeDirs dirs volume).isSome) :
    (makeDirs (dirs.take count) volume).isSome := by
  induction dirs generalizing volume count with
  | nil => simp [Durability.makeDirs]
  | cons dir dirs ih =>
      cases count with
      | zero => rfl
      | succ count =>
          rw [List.take_succ_cons]
          unfold Durability.makeDirs at makes ⊢
          by_cases base : IsBase dir
          · rw [if_pos base] at makes ⊢
            exact ih count makes
          · rw [if_neg base] at makes ⊢
            cases current : (volume dir).current with
            | none =>
                simp only [current] at makes ⊢
                exact ih count makes
            | some node =>
                cases node with
                | file file synced => simp [current] at makes
                | dir =>
                    simp only [current] at makes ⊢
                    exact ih count makes

theorem Unblocked.make_dirs {parent : Path} {dirs : List Path} (unblocked : Unblocked path volume)
    (parented : path.parent = some parent) (around : ∀ dir ∈ dirs, dir ∈ parent.enclosing)
    (makes : makeDirs dirs volume = some made) : Unblocked path made := by
  have outside {held : Path} (inside : held.parent = some parent) : held ∉ dirs :=
    fun listed => Durability.not_enclosing inside (around held listed)
  constructor
  · rw [(make_dirs_grown makes path).2 (outside parented)]
    exact unblocked.target
  · intro temp staged
    rw [(make_dirs_grown makes temp).2 (outside ((temp_parent staged).trans parented))]
    exact unblocked.temp temp staged

end Steps

section Calls

variable {path temp parent : Path} {volume : Volume Path File} {disk : Disk}

/-- The directories around the path can be made. -/
def Makes (path : Path) (volume : Volume Path File) : Prop :=
  ∀ parent, path.parent = some parent → (makeDirs parent.enclosing volume).isSome

theorem create_dir_all_simulates (parented : path.parent = some parent) :
    Simulates (fun volume disk => Related path volume disk ∧ Makes path volume) (Related path)
      (Durability.createDirAll parent) (WriteAtomic.createDirAll parent) := by
  have reached {dirs : List Path} {volume made : Volume Path File} {disk : Disk}
      (related : Related path volume disk) (around : ∀ dir ∈ dirs, dir ∈ parent.enclosing)
      (makes : makeDirs dirs volume = some made) : Related path made (disk.makeDirs dirs) :=
    ⟨related.1.make_dirs makes, related.2.make_dirs parented around makes⟩
  apply Simulates.step
  · rintro volume disk ⟨related, makes⟩
    obtain ⟨made, making⟩ := Option.isSome_iff_exists.mp (makes parent parented)
    rw [making]
    exact ⟨rfl, reached related (fun dir inside => inside) making⟩
  · rintro extent volume disk ⟨related, makes⟩
    obtain ⟨made, making⟩ :=
      Option.isSome_iff_exists.mp (make_dirs_take extent (makes parent parented))
    rw [making]
    exact reached related (fun dir inside => List.mem_of_mem_take inside) making

theorem open_truncated_simulates (staged : path.tempPath = some temp) (mode : Nat) :
    Simulates (Related path) (Related path) (Durability.openTruncated temp mode)
      (WriteAtomic.openTruncated temp mode) := by
  apply Simulates.step
  · intro volume disk related
    have free := related.2.temp temp staged
    have shown := related.1.files temp
    cases held : (volume temp).current with
    | none =>
        rw [held] at shown
        refine ⟨rfl, ?_⟩
        rw [shown]
        exact related.put free (by simp [Entry.replace]) rfl
    | some node =>
        cases node with
        | dir => exact absurd held free
        | file file synced =>
            rw [held] at shown
            refine ⟨rfl, ?_⟩
            rw [shown]
            exact related.put free (by simp [Entry.amend]) rfl
  · exact fun _ volume disk related => related

theorem fill_related (staged : path.tempPath = some temp) (related : Related path volume disk)
    (bytes : Bytes) :
    Related path (Durability.fill temp bytes volume)
      (disk.put temp ((disk.files temp).map fun file => { file with content := bytes })) := by
  have free := related.2.temp temp staged
  rw [related.1.files temp, Durability.fill]
  cases held : (volume temp).current with
  | none =>
      have put : Related path (Function.update volume temp (volume temp)) (disk.put temp none) :=
        related.put free free (congrArg seen held)
      rwa [Function.update_eq_self] at put
  | some node =>
      cases node with
      | dir => exact absurd held free
      | file file synced => exact related.put free (by simp [Entry.amend]) rfl

theorem write_all_simulates (staged : path.tempPath = some temp) (data : Bytes) :
    Simulates (Related path) (Related path) (Durability.writeAll temp data)
      (WriteAtomic.writeAll temp data) :=
  .step (fun _ _ related => ⟨rfl, fill_related staged related data⟩)
    fun _ _ _ related => fill_related staged related _

theorem sync_all_simulates (staged : path.tempPath = some temp) :
    Simulates (Related path) (Related path) (Durability.syncAll temp)
      (WriteAtomic.syncAll temp) := by
  apply Simulates.step
  · intro volume disk related
    have free := related.2.temp temp staged
    refine ⟨rfl, ?_⟩
    unfold Durability.flush
    cases held : (volume temp).current with
    | none => exact related
    | some node =>
        cases node with
        | dir => exact absurd held free
        | file file synced =>
            have shown : disk.files temp = some file :=
              (related.1.files temp).trans (congrArg seen held)
            have put : Related path (Function.update volume temp
                ((volume temp).amend (some (.file file true)))) (disk.put temp (some file)) :=
              related.put free (by simp [Entry.amend]) rfl
            rwa [← shown, put_self] at put
  · exact fun _ volume disk related => related

theorem rename_simulates (staged : path.tempPath = some temp) :
    Simulates (Related path) (Related path) (Durability.rename temp path)
      (WriteAtomic.rename temp path) := by
  apply Simulates.step
  · intro volume disk related
    have free := related.2.temp temp staged
    have shown := related.1.files temp
    cases held : (volume temp).current with
    | none =>
        have stuck : Durability.move temp path volume = none := by simp [Durability.move, held]
        rw [held] at shown
        rw [stuck, shown]
        exact ⟨rfl, related⟩
    | some node =>
        cases node with
        | dir => exact absurd held free
        | file file synced =>
            have moved : Durability.move temp path volume = some (Function.update
                (Function.update volume path ((volume path).replace (some (.file file synced))))
                temp ((volume temp).replace none)) := by
              simp [Durability.move, held, related.2.target]
            rw [held] at shown
            rw [moved, shown]
            refine ⟨rfl, ?_⟩
            have replaced : Related path (Function.update volume path
                ((volume path).replace (some (.file file synced)))) (disk.put path (some file)) :=
              related.put related.2.target (by simp [Entry.replace]) rfl
            exact replaced.put (replaced.2.temp temp staged) (by simp [Entry.replace]) rfl
  · exact fun _ volume disk related => related

theorem sync_parent_simulates (opens : Opens parent) :
    Simulates (Related path) (Related path) (Durability.syncParent parent)
      WriteAtomic.syncParent := by
  have opened : Simulates (Related path) (Related path) (Durability.openDir parent)
      (check .openDir [osError]) := by
    apply Simulates.step
    · intro volume disk related
      rw [if_pos opens]
      exact ⟨rfl, related⟩
    · exact fun _ volume disk related => related
  have synced : Simulates (Related path) (Related path) (Durability.syncDir parent)
      (check .syncDir [osError]) := by
    have settled {volume : Volume Path File} (other : Path) :
        (settleIn parent volume other).current = (volume other).current := by
      unfold settleIn
      split <;> rfl
    apply Simulates.step
    · rintro volume disk ⟨shows, unblocked⟩
      refine ⟨rfl, ⟨?_, ?_⟩, ?_, ?_⟩
      · intro other
        rw [settled]
        exact shows.files other
      · intro dir named
        rw [settled]
        exact shows.dirs dir named
      · rw [settled]
        exact unblocked.target
      · intro temp staged
        rw [settled]
        exact unblocked.temp temp staged
    · exact fun _ volume disk related => related
  apply Simulates.bind (.attempt opened)
  intro answer
  cases answer with
  | error error => exact .ret (fun _ _ related => related) ()
  | ok value => exact .ignore synced

end Calls

/-- The call on a volume and the call on a disk answer alike, and the volume looks
like the disk afterwards. -/
theorem write_atomic_simulates (path : Path) (data : Bytes) (isPrivate : Bool)
    (opens : ∀ parent, path.parent = some parent → Opens parent) :
    Simulates (fun volume disk => Related path volume disk ∧ Makes path volume) (Related path)
      (Durability.writeAtomic path data isPrivate)
      (WriteAtomic.writeAtomic path data isPrivate) := by
  have weaker (volume : Volume Path File) (disk : Disk)
      (related : Related path volume disk ∧ Makes path volume) : Related path volume disk :=
    related.1
  unfold Durability.writeAtomic WriteAtomic.writeAtomic
  cases parented : path.parent with
  | none => exact .raise weaker _
  | some parent =>
      dsimp only
      rw [bind_ret, bind_ret]
      apply Simulates.bind (create_dir_all_simulates parented)
      intro _
      cases named : path.fileName with
      | none => exact .raise (fun _ _ related => related) _
      | some name =>
          have staged := Path.temp_path_of_name parented named
          dsimp only
          rw [bind_ret, bind_ret]
          exact .bind (open_truncated_simulates staged _) fun _ =>
            .bind (write_all_simulates staged data) fun _ =>
            .bind (sync_all_simulates staged) fun _ => .bind (rename_simulates staged) fun _ =>
            sync_parent_simulates (opens parent parented)

theorem present_shown {volume : Volume Path File} {disk : Disk} (shows : Shows volume disk) :
    present volume = disk.content := by
  funext path
  rw [Disk.content, shows.files path, present]
  cases (volume path).current with
  | none => rfl
  | some node => cases node <;> rfl

def shown (volume : Volume Path File) : Disk where
  files := fun path => seen (volume path).current
  dirs := fun dir => decide ((volume dir).current = some .dir)

theorem shown_shows (volume : Volume Path File) : Shows volume (shown volume) :=
  ⟨fun _ => rfl, fun _ _ => decide_eq_true_iff⟩

/-- What a call leaves to be seen is what its progress says. -/
theorem write_atomic_present {path : Path} (data : Bytes) (isPrivate : Bool)
    (plan : Plan WriteAtomic.WriteStep) {volume : Volume Path File}
    (opens : ∀ parent, path.parent = some parent → Opens parent) (makes : Makes path volume)
    (unblocked : Unblocked path volume) :
    present ((Durability.writeAtomic path data isPrivate).run plan volume).2 =
      (WriteAtomic.progress path data plan).content path data (present volume) := by
  have start := shown_shows volume
  obtain ⟨-, after, -⟩ := write_atomic_simulates path data isPrivate opens plan volume
    (shown volume) ⟨⟨start, unblocked⟩, makes⟩
  rw [present_shown after, present_shown start, WriteAtomic.write_atomic_content]

end NodeOs.Noded.PresentView
