import NodeOs.Initd.DiskVisits
import NodeOs.Library.Appends

/-!
# Directories, mounts and the read-only root

What PID 1 does to the file tree before and after the disks. The kernel's part
is a list of the directories that were asked for and of the mount calls that it
carried out, in their order.
-/

namespace NodeOs.Initd.Mounts

open NodeOs.Library.FaultPlan NodeOs.Library.FaultPlan.Proc NodeOs.Initd.DiskTools
open NodeOs.Initd.Disks

structure Mount where
  source : String
  target : String
  fstype : String
  flags : List String := []
  data : Option String := none
  deriving DecidableEq, Repr

/-- The arguments of a `mount` call. -/
structure MountCall where
  source : String
  target : String
  fstype : String
  flags : Nat
  data : Option String
  deriving DecidableEq, Repr

structure Tree where
  directories : List String
  mounted : List MountCall
  readOnly : Bool
  deriving DecidableEq, Repr

inductive TreeStep where
  | requiredDir (index : Nat)
  | mountTarget (index : Nat)
  | mount (index : Nat)
  | remountRoot
  deriving DecidableEq, Repr

abbrev OnTree := Proc TreeStep Error Tree

def Tree.ensure (path : String) (tree : Tree) : Tree :=
  { tree with directories := tree.directories ++ [path] }

/-- `fs::create_dir_all`, an error of which is put under `message`. -/
def createDirAll (label : TreeStep) (message path : String) : OnTree Unit :=
  act label [message, osError] fun tree => some (tree.ensure path)

def createRequiredDir (index : Nat) (path : String) : OnTree Unit :=
  createDirAll (.requiredDir index) s!"create {path}" path

def createRequiredDirs (paths : List String) : OnTree Unit := do
  let _ ← each createRequiredDir 0 paths
  pure ()

/-- `data.map(CString::new).transpose()`. -/
def dataString : Option String → Except Error Unit
  | some data => cString data
  | none => .ok ()

/-- `mount_fs`, with what the call does to the tree. -/
def mountFs (label : TreeStep) (call : MountCall) (change : Tree → Tree) : OnTree Unit := do
  ofExcept (cString call.source)
  ofExcept (cString call.target)
  ofExcept (cString call.fstype)
  ofExcept (dataString call.data)
  act label ["mount syscall failed", osError] fun tree => some (change tree)

def Tree.mount (call : MountCall) (tree : Tree) : Tree :=
  { tree with mounted := tree.mounted ++ [call] }

def Mount.call (mount : Mount) (flags : Nat) : MountCall :=
  ⟨mount.source, mount.target, mount.fstype, flags, mount.data⟩

def applyMount (index : Nat) (mount : Mount) : OnTree Unit := do
  createDirAll (.mountTarget index) s!"create mount target {mount.target}" mount.target
  let flags ← ofExcept (mountFlags mount.flags)
  mapError (fun error => s!"mount {mount.target}" :: error)
    (mountFs (.mount index) (mount.call flags) (Tree.mount (mount.call flags)))

def applyMounts (mounts : List Mount) : OnTree Unit := do
  let _ ← each applyMount 0 mounts
  pure ()

/-- `MS_REMOUNT | MS_RDONLY` on the root. -/
def remountCall : MountCall := ⟨"none", "/", "none", 32 ||| 1, none⟩

def remountRootReadonly : OnTree Unit :=
  mapError (fun error => "remount root read-only" :: error)
    (mountFs .remountRoot remountCall fun tree => { tree with readOnly := true })

section Flags

/-- The bit of the word that some flag of the list stands for. -/
def HasBit (flags : List String) (bit : Nat) : Prop :=
  ∃ flag ∈ flags, ∃ word, mountFlag flag = .ok word ∧ word.testBit bit = true

theorem mount_flags_cons (flag : String) (more : List String) :
    mountFlags (flag :: more) =
      match mountFlag flag, mountFlags more with
      | .error error, _ => .error error
      | .ok _, .error error => .error error
      | .ok word, .ok rest => .ok (word ||| rest) := by
  rw [mountFlags]
  cases mountFlag flag with
  | error error => rfl
  | ok word => cases mountFlags more <;> rfl

/-- The word has the bits of the flags, and there is one unless a flag is not known. -/
theorem mount_flags_ok {flags : List String} {word : Nat} (made : mountFlags flags = .ok word) :
    (∀ flag ∈ flags, ∃ bits, mountFlag flag = .ok bits) ∧
      ∀ bit, word.testBit bit = true ↔ HasBit flags bit := by
  induction flags generalizing word with
  | nil =>
      cases made
      simp [HasBit]
  | cons flag more ih =>
      rw [mount_flags_cons] at made
      cases known : mountFlag flag with
      | error error => simp [known] at made
      | ok first =>
          cases rest : mountFlags more with
          | error error => simp [known, rest] at made
          | ok second =>
              simp only [known, rest, Except.ok.injEq] at made
              obtain ⟨others, bits⟩ := ih rest
              refine ⟨?_, fun bit => ?_⟩
              · simpa [known] using others
              · rw [← made, Nat.testBit_or, Bool.or_eq_true, bits]
                simp [HasBit, known]

theorem mount_flags_known {flags : List String}
    (known : ∀ flag ∈ flags, ∃ bits, mountFlag flag = .ok bits) :
    ∃ word, mountFlags flags = .ok word := by
  induction flags with
  | nil => exact ⟨0, rfl⟩
  | cons flag more ih =>
      obtain ⟨first, found⟩ := known flag (by simp)
      obtain ⟨rest, made⟩ := ih fun other member => known other (List.mem_cons_of_mem _ member)
      exact ⟨first ||| rest, by rw [mount_flags_cons, found, made]⟩

/-- The first flag that is not known is the one reported. -/
theorem mount_flags_error {flags : List String} {error : Error} :
    mountFlags flags = .error error ↔ ∃ front flag back, flags = front ++ flag :: back ∧
      (∀ known ∈ front, ∃ bits, mountFlag known = .ok bits) ∧ mountFlag flag = .error error := by
  induction flags with
  | nil => simp [mountFlags]
  | cons flag more ih =>
      rw [mount_flags_cons]
      constructor
      · intro failed
        cases known : mountFlag flag with
        | error other =>
            simp only [known, Except.error.injEq] at failed
            exact ⟨[], flag, more, rfl, by simp, by rw [known, failed]⟩
        | ok first =>
            cases rest : mountFlags more with
            | ok second => simp [known, rest] at failed
            | error other =>
                simp only [known, rest, Except.error.injEq] at failed
                obtain ⟨front, unknown, back, rfl, before, same⟩ := ih.mp (by rw [rest, failed])
                exact ⟨flag :: front, unknown, back, rfl, by simpa [known] using before, same⟩
      · rintro ⟨front, unknown, back, split, before, same⟩
        cases front with
        | nil =>
            obtain ⟨rfl, rfl⟩ := List.cons.inj split
            rw [same]
        | cons first front =>
            obtain ⟨rfl, rfl⟩ := List.cons.inj split
            obtain ⟨bits, found⟩ := before flag (by simp)
            have rest := ih.mpr ⟨front, unknown, back, rfl,
              fun other member => before other (List.mem_cons_of_mem _ member), same⟩
            rw [found, rest]

/-- The flags of a mount are a set: the word has exactly their bits, and an
order or a repetition makes no difference to it. -/
theorem mount_flags_exact (flags : List String) :
    (∀ word, mountFlags flags = .ok word ↔
      (∀ flag ∈ flags, ∃ bits, mountFlag flag = .ok bits) ∧
        ∀ bit, word.testBit bit = true ↔ HasBit flags bit) ∧
      (∀ error, mountFlags flags = .error error ↔ ∃ front flag back,
        flags = front ++ flag :: back ∧ (∀ known ∈ front, ∃ bits, mountFlag known = .ok bits) ∧
          mountFlag flag = .error error) ∧
      ∀ other, (∀ flag, flag ∈ other ↔ flag ∈ flags) → ∀ word,
        mountFlags other = .ok word ↔ mountFlags flags = .ok word := by
  have exact (flags : List String) (word : Nat) : mountFlags flags = .ok word ↔
      (∀ flag ∈ flags, ∃ bits, mountFlag flag = .ok bits) ∧
        ∀ bit, word.testBit bit = true ↔ HasBit flags bit := by
    constructor
    · exact mount_flags_ok
    · rintro ⟨known, bits⟩
      obtain ⟨made, found⟩ := mount_flags_known known
      rw [found, Except.ok.injEq]
      apply Nat.eq_of_testBit_eq
      intro bit
      rw [Bool.eq_iff_iff, (mount_flags_ok found).2, bits]
  refine ⟨exact flags, fun error => mount_flags_error, fun other same word => ?_⟩
  rw [exact, exact]
  simp only [HasBit, same]

end Flags

section Runs

theorem create_dir_all_keeps {Part : Type} {view : Tree → Part} (label : TreeStep)
    (message path : String)
    (kept : ∀ tree, view (tree.ensure path) = view tree) :
    Keeps view (createDirAll label message path) := by
  apply Keeps.act
  intro tree next made
  rw [← Option.some.inj made]
  exact kept tree

theorem mount_fs_appends {Item Entry : Type} {view : Tree → List Entry}
    {belongs : Item → Entry → Prop} {item : Item} (label : TreeStep) (call : MountCall)
    (change : Tree → Tree)
    (leaves : ∀ tree, ∃ entry, belongs item entry ∧ view (change tree) = view tree ++ [entry]) :
    Appends view belongs [item] (mountFs label call change) := by
  have mounted : Appends view belongs [item]
      (act label ["mount syscall failed", osError] fun tree => some (change tree)) := by
    apply Appends.act
    intro tree next made
    rw [← Option.some.inj made]
    exact leaves tree
  have string (result : Except Error Unit) : Appends view belongs ([] : List Item)
      (ofExcept result : OnTree Unit) := .of_keeps (.ofExcept result)
  exact .bind (string _) fun _ => .bind (string _) fun _ => .bind (string _) fun _ =>
    .bind (string _) fun _ => mounted

/-- The call that the configuration asks for. -/
def Asked (mount : Mount) (call : MountCall) : Prop :=
  ∃ flags, mountFlags mount.flags = .ok flags ∧ call = mount.call flags

theorem apply_mounts_appends (mounts : List Mount) :
    Appends Tree.mounted Asked mounts (applyMounts mounts) := by
  have visit (index : Nat) (mount : Mount) :
      Appends Tree.mounted Asked [mount] (applyMount index mount) := by
    have target : Appends Tree.mounted Asked [] (createDirAll (.mountTarget index)
        s!"create mount target {mount.target}" mount.target) :=
      .of_keeps (create_dir_all_keeps _ _ _ fun _ => rfl)
    have flagged : Appends Tree.mounted Asked []
        (ofExcept (mountFlags mount.flags) : OnTree Nat) := .of_keeps (.ofExcept _)
    refine Appends.bind target fun _ => Appends.bind_ok flagged fun plan tree flags made => ?_
    apply Appends.mapError
    apply mount_fs_appends
    intro tree
    exact ⟨_, ⟨flags, (run_ofExcept_ok_iff ..).mp made, rfl⟩, rfl⟩
  have looped := Appends.bind (Appends.each visit 0 mounts) fun _ : List Unit =>
    (Appends.of_keeps (.ret ()) : Appends Tree.mounted Asked [] (pure () : OnTree Unit))
  rwa [List.append_nil] at looped

theorem create_required_dirs_appends (paths : List String) :
    Appends Tree.directories Eq paths (createRequiredDirs paths) := by
  have visit (index : Nat) (path : String) :
      Appends Tree.directories Eq [path] (createRequiredDir index path) := by
    unfold createRequiredDir createDirAll
    apply Appends.act
    intro tree next made
    rw [← Option.some.inj made]
    exact ⟨path, rfl, rfl⟩
  have looped := Appends.bind (Appends.each visit 0 paths) fun _ : List Unit =>
    (Appends.of_keeps (.ret ()) : Appends Tree.directories Eq ([] : List String)
      (pure () : OnTree Unit))
  rwa [List.append_nil] at looped

theorem create_required_dirs_keeps (paths : List String) :
    Keeps (fun tree => (tree.mounted, tree.readOnly)) (createRequiredDirs paths) :=
  .bind (.loop (fun _ _ => create_dir_all_keeps _ _ _ fun _ => rfl) 0 paths) fun _ => .ret ()

theorem mount_fs_keeps {Part : Type} {view : Tree → Part} (label : TreeStep) (call : MountCall)
    (change : Tree → Tree) (kept : ∀ tree, view (change tree) = view tree) :
    Keeps view (mountFs label call change) := by
  refine .bind (.ofExcept _) fun _ => .bind (.ofExcept _) fun _ => .bind (.ofExcept _) fun _ =>
    .bind (.ofExcept _) fun _ => .act _ _ fun tree next made => ?_
  rw [← Option.some.inj made]
  exact kept tree

theorem apply_mounts_keeps_read_only (mounts : List Mount) :
    Keeps Tree.readOnly (applyMounts mounts) := by
  have visit (index : Nat) (mount : Mount) : Keeps Tree.readOnly (applyMount index mount) :=
    .bind (create_dir_all_keeps _ _ _ fun _ => rfl) fun _ => .bind (.ofExcept _) fun _ =>
      .mapError (mount_fs_keeps _ _ _ fun _ => rfl)
  exact .bind (.loop visit 0 mounts) fun _ => .ret ()

/-- The targets of the mounts are created first, each before its mount. -/
theorem apply_mounts_directories (mounts : List Mount) :
    Appends Tree.directories (fun mount path => path = mount.target) mounts
      (applyMounts mounts) := by
  have visit (index : Nat) (mount : Mount) :
      Appends Tree.directories (fun mount path => path = mount.target) [mount]
        (applyMount index mount) := by
    have made : Appends Tree.directories (fun (mount : Mount) path => path = mount.target) [mount]
        (createDirAll (.mountTarget index) s!"create mount target {mount.target}"
          mount.target) := by
      unfold createDirAll
      apply Appends.act
      intro tree next made
      rw [← Option.some.inj made]
      exact ⟨mount.target, rfl, rfl⟩
    refine Appends.bind made fun _ => .of_keeps (.bind (.ofExcept _) fun _ => ?_)
    exact .mapError (mount_fs_keeps _ _ _ fun _ => rfl)
  have looped := Appends.bind (Appends.each visit 0 mounts) fun _ : List Unit =>
    (Appends.of_keeps (.ret ()) : Appends Tree.directories
      (fun (mount : Mount) path => path = mount.target) [] (pure () : OnTree Unit))
  rwa [List.append_nil] at looped

theorem remount_keeps : Keeps (fun tree => (tree.directories, tree.mounted))
    remountRootReadonly :=
  .mapError (mount_fs_keeps _ _ _ fun _ => rfl)

theorem mount_fs_ok {label : TreeStep} {call : MountCall} {change : Tree → Tree}
    {plan : Plan TreeStep} {tree : Tree} {value : Unit}
    (returned : ((mountFs label call change).run plan tree).1 = .ok value) :
    ((mountFs label call change).run plan tree).2 = change tree := by
  have string {result : Except Error Unit} {next : Unit → OnTree Unit}
      (passed : ((ofExcept result >>= next).run plan tree).1 = .ok value) :
      (ofExcept result >>= next).run plan tree = (next ()).run plan tree := by
    cases result with
    | error error => cases passed
    | ok answer => rfl
  unfold mountFs at returned ⊢
  have source := string returned
  rw [source] at returned ⊢
  have target := string returned
  rw [target] at returned ⊢
  have fstype := string returned
  rw [fstype] at returned ⊢
  have data := string returned
  rw [data] at returned ⊢
  have done := ((run_act_ok_iff ..).mp returned).1
  rw [run_act, done]
  rfl

theorem remount_ok {plan : Plan TreeStep} {tree : Tree} {value : Unit}
    (returned : (remountRootReadonly.run plan tree).1 = .ok value) :
    (remountRootReadonly.run plan tree).2.readOnly = true := by
  unfold remountRootReadonly at returned ⊢
  rw [run_mapError_ok_iff] at returned
  rw [run_mapError_state, mount_fs_ok returned]

end Runs

end NodeOs.Initd.Mounts
