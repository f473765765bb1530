import Mathlib.Data.List.Basic
import Mathlib.Logic.Function.Basic

/-!
# What a loss of power leaves of a volume

Every name has the entry that is seen now, and the older ones that a loss may
bring back: a change of an entry stays open until the directory that holds it is
synced. Data of a file that is not synced may come back as anything.
-/

namespace NodeOs.Library.PowerLoss

variable {Key Data : Type}

inductive Node (Data : Type) where
  | dir
  | file (data : Data) (synced : Bool)
  deriving DecidableEq, Repr

structure Entry (Data : Type) where
  current : Option (Node Data)
  older : List (Option (Node Data))
  deriving DecidableEq, Repr

abbrev Volume (Key Data : Type) := Key → Entry Data

namespace Entry

def candidates (entry : Entry Data) : List (Option (Node Data)) := entry.current :: entry.older

/-- A change of the directory, not synced yet. -/
def replace (entry : Entry Data) (node : Option (Node Data)) : Entry Data :=
  ⟨node, entry.candidates⟩

/-- The directory has been synced. -/
def settle (entry : Entry Data) : Entry Data := ⟨entry.current, []⟩

/-- A change of the file itself. -/
def amend (entry : Entry Data) (node : Option (Node Data)) : Entry Data := ⟨node, entry.older⟩

@[simp] theorem mem_candidates_replace (entry : Entry Data) (node other : Option (Node Data)) :
    other ∈ (entry.replace node).candidates ↔ other = node ∨ other ∈ entry.candidates := by
  simp [replace, candidates]

@[simp] theorem mem_candidates_settle (entry : Entry Data) (other : Option (Node Data)) :
    other ∈ entry.settle.candidates ↔ other = entry.current := by
  simp [settle, candidates]

theorem current_mem (entry : Entry Data) : entry.current ∈ entry.candidates :=
  List.mem_cons_self

end Entry

/-- What is found after the loss. -/
inductive Kept (Data : Type) where
  | dir
  | file (data : Data)
  deriving DecidableEq, Repr

/-- A node may come back as this. -/
def Leaves : Option (Node Data) → Option (Kept Data) → Prop
  | none, found => found = none
  | some .dir, found => found = some .dir
  | some (.file data true), found => found = some (.file data)
  | some (.file _ false), found => ∃ data, found = some (.file data)

/-- One of the trees that a loss of power may leave. -/
def Survives (volume : Volume Key Data) (tree : Key → Option (Kept Data)) : Prop :=
  ∀ key, ∃ node ∈ (volume key).candidates, Leaves node (tree key)

/-- The data of a node as they are. -/
def intact : Option (Node Data) → Option (Kept Data)
  | none => none
  | some .dir => some .dir
  | some (.file data _) => some (.file data)

theorem leaves_intact (node : Option (Node Data)) : Leaves node (intact node) := by
  cases node with
  | none => rfl
  | some node =>
      cases node with
      | dir => rfl
      | file data synced =>
          cases synced with
          | true => rfl
          | false => exact ⟨data, rfl⟩

theorem leaves_dir_iff (node : Option (Node Data)) :
    Leaves node (some .dir) ↔ node = some .dir := by
  constructor
  · intro leaves
    cases node with
    | none => cases leaves
    | some node =>
        cases node with
        | dir => rfl
        | file data synced =>
            cases synced with
            | true => cases leaves
            | false =>
                obtain ⟨other, same⟩ := leaves
                cases same
  · rintro rfl
    rfl

/-- A loss may leave the present view. -/
theorem survives_present (volume : Volume Key Data) :
    Survives volume fun key => intact (volume key).current :=
  fun key => ⟨(volume key).current, (volume key).current_mem, leaves_intact _⟩

theorem Survives.update [DecidableEq Key] {volume : Volume Key Data}
    {tree : Key → Option (Kept Data)} (survives : Survives volume tree) {key : Key}
    {node : Option (Node Data)} {found : Option (Kept Data)}
    (candidate : node ∈ (volume key).candidates) (leaves : Leaves node found) :
    Survives volume (Function.update tree key found) := by
  intro other
  by_cases same : other = key
  · rw [same, Function.update_self]
    exact ⟨node, candidate, leaves⟩
  · rw [Function.update_of_ne same]
    exact survives other

/-- Two survivors give a third one, piece by piece. -/
theorem Survives.piecewise {volume : Volume Key Data} {tree other : Key → Option (Kept Data)}
    (chosen : Key → Prop) [DecidablePred chosen]
    (inside : ∀ key, chosen key → ∃ node ∈ (volume key).candidates, Leaves node (tree key))
    (outside : Survives volume other) :
    Survives volume fun key => if chosen key then tree key else other key := by
  intro key
  by_cases here : chosen key
  · simp only [if_pos here]
    exact inside key here
  · simp only [if_neg here]
    exact outside key

/-- Everything that is seen, or may be brought back, is allowed. -/
def Within (allowed : Key → Option (Node Data) → Prop) (volume : Volume Key Data) : Prop :=
  ∀ key, ∀ node ∈ (volume key).candidates, allowed key node

theorem Within.current {allowed : Key → Option (Node Data) → Prop} {volume : Volume Key Data}
    (inside : Within allowed volume) (key : Key) : allowed key (volume key).current :=
  inside key _ (volume key).current_mem

/-- A loss leaves what was allowed. -/
theorem Within.left {allowed : Key → Option (Node Data) → Prop} {volume : Volume Key Data}
    {tree : Key → Option (Kept Data)} (inside : Within allowed volume)
    (survives : Survives volume tree) (key : Key) :
    ∃ node, allowed key node ∧ Leaves node (tree key) := by
  obtain ⟨node, candidate, leaves⟩ := survives key
  exact ⟨node, inside key node candidate, leaves⟩

/-- What is found after a loss is there for good. -/
def Kept.node : Kept Data → Node Data
  | .dir => .dir
  | .file data => .file data true

/-- A loss leaves a node as it is, unless its data are not synced. -/
theorem leaves_node {node : Option (Node Data)} {found : Option (Kept Data)}
    (leaves : Leaves node found) (synced : ∀ data, node ≠ some (.file data false)) :
    found.map Kept.node = node := by
  rcases node with _ | (_ | ⟨data, _ | _⟩)
  · rw [show found = none from leaves]
    rfl
  · rw [show found = some .dir from leaves]
    rfl
  · exact absurd rfl (synced data)
  · rw [show found = some (.file data) from leaves]
    rfl

end NodeOs.Library.PowerLoss
