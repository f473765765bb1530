import Mathlib.Data.List.Nodup
import NodeOs.Library.Machine
import NodeOs.Noded.Durability
import NodeOs.Noded.IntentText

/-!
# The workload configuration and losses of power

The calls of a request and of a boot are those of `Reconcile`; here the files are
on a volume that says what a loss of power may bring back. Between two losses the
process may be killed and started again with nothing lost. What is not synced then
stays open until the next loss, also when later calls succeed.
-/

namespace NodeOs.Noded.ConfigDurability

open NodeOs.Library NodeOs.Library.FaultPlan NodeOs.Library.FaultPlan.Proc
open NodeOs.Library.PowerLoss
open NodeOs.Noded.FileSystem NodeOs.Noded.Workload NodeOs.Noded.Durability
open NodeOs.Noded.Authorization NodeOs.Noded.Reconcile
open NodeOs.Noded.IntentText (serdeJson)
open NodeOs.Noded.WriteAtomic (WriteStep)
open NodeOs.Noded.K8sRender (renderKubeletConfig renderBootstrapKubeconfig clusterCaPath)

section Processes

variable {State : Type} (write : Target → Bytes → Proc ApplyStep Error State Unit)

/-- `K8sProfile::reconcile`, over the way a file is written. -/
def k8sReconcileBy (fromPem : FromPem) (desired : Option NodeIntent) :
    Proc ApplyStep Error State Unit :=
  match desired with
  | none => pure ()
  | some intent => do
      ofExcept ((intent.validate fromPem).mapError (context "invalid node intent"))
      mapError (context "write cluster CA") (write .clusterCa (asBytes intent.clusterCa))
      mapError (context "write kubelet config.yaml")
        (write .kubeletConfig (asBytes (renderKubeletConfig intent)))
      mapError (context "write bootstrap-kubeconfig")
        (write .bootstrapKubeconfig (asBytes (renderBootstrapKubeconfig intent)))

def putConfigBy (json : IntentJson) (fromPem : FromPem) (intent : NodeIntent) :
    Proc ApplyStep Error State Response :=
  match intent.validate fromPem with
  | .error err => pure ⟨400, s!"invalid node intent: {alternate err}\n"⟩
  | .ok () =>
      match json.toVecPretty intent with
      | .error err => pure ⟨500, s!"serialize node intent: {err}\n"⟩
      | .ok serialized => do
          match ← attempt (write .nodeIntent serialized) with
          | .error err => pure ⟨500, s!"persist node intent: {alternate err}\n"⟩
          | .ok () =>
              match ← attempt (k8sReconcileBy write fromPem (some intent)) with
              | .error err => pure ⟨500, s!"reconcile workload: {alternate err}\n"⟩
              | .ok () => pure ⟨200, "node intent applied\n"⟩

def loadNodeIntentBy (read : State → Option Bytes) (json : IntentJson) :
    Proc ApplyStep Error State (Option NodeIntent) := do
  let data ← attempt (step .readIntent [osError] (fun _ state => state) fun state =>
    match read state with
    | some data => (.ok data, state)
    | none => (.err [osError], state))
  match data with
  | .error _ => pure none
  | .ok data =>
      match json.fromSlice data with
      | .ok intent => pure (some intent)
      | .error _ => pure none

def bootReconcileBy (read : State → Option Bytes) (json : IntentJson) (fromPem : FromPem) :
    Proc ApplyStep Error State (Option NodeIntent × Except Error Unit) := do
  let persisted ← loadNodeIntentBy read json
  let result ← attempt (k8sReconcileBy write fromPem persisted)
  pure (persisted, result)

/-- On a disk that loses nothing these are the processes of `Reconcile`. -/
theorem put_config_on_disk (json : IntentJson) (fromPem : FromPem) (intent : NodeIntent) :
    putConfigBy writeTarget json fromPem intent = putConfig json .k8s fromPem intent := rfl

theorem boot_reconcile_on_disk (json : IntentJson) (fromPem : FromPem) :
    bootReconcileBy writeTarget (fun disk => disk.content nodeIntentPath) json fromPem =
      bootReconcile json .k8s fromPem := rfl

theorem k8s_reconcile_by_preserves {invariant : State → Prop} (fromPem : FromPem)
    (desired : Option NodeIntent)
    (rendered : ∀ intent, desired = some intent → intent.validate fromPem = .ok () →
      ∀ rendering ∈ renderings intent,
        Preserves invariant (write rendering.target rendering.data)) :
    Preserves invariant (k8sReconcileBy write fromPem desired) := by
  cases desired with
  | none => exact .ret _
  | some intent =>
      cases checked : intent.validate fromPem with
      | error err =>
          rw [k8sReconcileBy, checked]
          exact fun _ _ holds => holds
      | ok passed =>
          have valid := rendered intent rfl checked
          simp only [renderings, List.forall_mem_cons] at valid
          obtain ⟨ca, config, kubeconfig, -⟩ := valid
          rw [k8sReconcileBy]
          exact .bind (.ofExcept _) fun _ => .bind (.mapError ca) fun _ =>
            .bind (.mapError config) fun _ => .mapError kubeconfig

theorem put_config_by_preserves {invariant : State → Prop} {json : IntentJson}
    {fromPem : FromPem} {intent : NodeIntent}
    (persisted : ∀ serialized, intent.validate fromPem = .ok () →
      json.toVecPretty intent = .ok serialized → Preserves invariant (write .nodeIntent serialized))
    (rendered : intent.validate fromPem = .ok () →
      ∀ rendering ∈ renderings intent,
        Preserves invariant (write rendering.target rendering.data)) :
    Preserves invariant (putConfigBy write json fromPem intent) := by
  rw [putConfigBy]
  cases checked : intent.validate fromPem with
  | error err => exact .ret _
  | ok passed =>
  cases encoded : json.toVecPretty intent with
  | error err => exact .ret _
  | ok serialized =>
      refine .bind (.attempt (persisted serialized checked encoded)) ?_
      rintro (error | done)
      · exact .ret _
      · refine .bind (.attempt (k8s_reconcile_by_preserves write fromPem (some intent) ?_)) ?_
        · rintro other same valid
          cases same
          exact rendered valid
        · rintro (error | done)
          · exact .ret _
          · exact .ret _

/-- A request that is answered 200 has gone through all its writes. -/
theorem put_config_by_answered {json : IntentJson} {fromPem : FromPem} {intent : NodeIntent}
    {plan : Plan ApplyStep} {state : State}
    (answered : statusOf ((putConfigBy write json fromPem intent).run plan state).1 = some 200) :
    ∃ serialized, intent.validate fromPem = .ok () ∧ json.toVecPretty intent = .ok serialized ∧
      ((write .nodeIntent serialized).run plan state).1 = .ok () ∧
      ((putConfigBy write json fromPem intent).run plan state).2 =
        ((k8sReconcileBy write fromPem (some intent)).run plan
          ((write .nodeIntent serialized).run plan state).2).2 := by
  rw [putConfigBy] at answered ⊢
  cases checked : intent.validate fromPem with
  | error err => simp [checked, statusOf] at answered
  | ok passed =>
  cases encoded : json.toVecPretty intent with
  | error err => simp [checked, encoded, statusOf] at answered
  | ok serialized =>
      simp only [checked, encoded, run_bind, run_attempt] at answered
      cases written : (write .nodeIntent serialized).run plan state with
      | mk outcome after =>
          rw [written] at answered
          cases outcome with
          | err error => simp [statusOf] at answered
          | killed => simp [statusOf] at answered
          | ok done =>
              refine ⟨serialized, rfl, rfl, by rw [written], ?_⟩
              simp only [run_bind, run_attempt, written]
              cases (k8sReconcileBy write fromPem (some intent)).run plan after with
              | mk outcome final => cases outcome <;> rfl

/-- Loading reads and no more. -/
theorem load_node_intent_by_state (read : State → Option Bytes) (json : IntentJson)
    (plan : Plan ApplyStep) (state : State) :
    ((loadNodeIntentBy read json).run plan state).2 = state := by
  rw [loadNodeIntentBy, run_bind, run_attempt, run_step]
  cases plan .readIntent with
  | fails extent => rfl
  | killed extent => rfl
  | done =>
      cases found : read state with
      | none => rfl
      | some data =>
          simp only
          cases json.fromSlice data <;> rfl

theorem boot_reconcile_by_preserves {invariant : State → Prop} {read : State → Option Bytes}
    {json : IntentJson} {fromPem : FromPem}
    (rendered : ∀ intent, intent.validate fromPem = .ok () → ∀ rendering ∈ renderings intent,
      Preserves invariant (write rendering.target rendering.data)) :
    Preserves invariant (bootReconcileBy write read json fromPem) := by
  refine .bind (fun plan state holds => ?_) fun persisted =>
    .bind (.attempt (k8s_reconcile_by_preserves write fromPem persisted ?_)) fun _ => .ret _
  · rw [load_node_intent_by_state]
    exact holds
  · exact fun intent _ valid => rendered intent valid

end Processes

section Elsewhere

variable {path temp other : Path} {holds : Entry File → Prop} {volume : Volume Path File}

theorem makes_elsewhere {dirs : List Path} {made : Volume Path File}
    (grows : ∀ entry : Entry File, entry.current = none → other ∈ dirs → holds entry →
      holds (entry.replace (some .dir)))
    (makes : makeDirs dirs volume = some made) (held : holds (volume other)) :
    holds (made other) := by
  obtain ⟨grown, kept⟩ := make_dirs_grown makes other
  rcases grown with same | ⟨missing, grown⟩
  · rw [same]
    exact held
  · by_cases inside : other ∈ dirs
    · rw [grown]
      exact grows (volume other) missing inside held
    · rw [kept inside]
      exact held

theorem create_dir_all_elsewhere {parent : Path}
    (grows : ∀ entry : Entry File, entry.current = none → other ∈ parent.enclosing →
      holds entry → holds (entry.replace (some .dir))) :
    Preserves (fun volume => holds (volume other)) (createDirAll parent) := by
  refine .step (fun volume held => ?_) fun extent volume held => ?_
  · cases makes : makeDirs parent.enclosing volume with
    | none => exact held
    | some made => exact makes_elsewhere grows makes held
  · cases makes : makeDirs (parent.enclosing.take extent) volume with
    | none => exact held
    | some made =>
        refine makes_elsewhere (fun entry missing inside => ?_) makes held
        exact grows entry missing (List.mem_of_mem_take inside)

theorem open_elsewhere (apart : other ≠ temp) (mode : Nat) :
    Preserves (fun volume => holds (volume other)) (openTruncated temp mode) := by
  refine .step (fun volume held => ?_) fun _ _ held => held
  cases current : (volume temp).current with
  | none => simpa only [Function.update_of_ne apart] using held
  | some node =>
      cases node with
      | dir => exact held
      | file file synced => simpa only [Function.update_of_ne apart] using held

theorem fill_elsewhere (apart : other ≠ temp) (bytes : Bytes) :
    fill temp bytes volume other = volume other := by
  unfold fill
  rcases (volume temp).current with _ | (_ | ⟨file, synced⟩)
  · rfl
  · rfl
  · exact Function.update_of_ne apart _ _

theorem write_all_elsewhere (apart : other ≠ temp) (data : Bytes) :
    Preserves (fun volume => holds (volume other)) (writeAll temp data) := by
  refine .step (fun volume held => ?_) fun extent volume held => ?_
  · show holds (fill temp data volume other)
    rwa [fill_elsewhere apart]
  · show holds (fill temp (data.take extent) volume other)
    rwa [fill_elsewhere apart]

theorem flush_elsewhere (apart : other ≠ temp) : flush temp volume other = volume other := by
  unfold flush
  rcases (volume temp).current with _ | (_ | ⟨file, synced⟩)
  · rfl
  · rfl
  · exact Function.update_of_ne apart _ _

theorem sync_all_elsewhere (apart : other ≠ temp) :
    Preserves (fun volume => holds (volume other)) (syncAll temp) := by
  refine .step (fun volume held => ?_) fun _ _ held => held
  show holds (flush temp volume other)
  rwa [flush_elsewhere apart]

theorem move_elsewhere {moved : Volume Path File} (apart : other ≠ temp) (notPath : other ≠ path)
    (moves : move temp path volume = some moved) : moved other = volume other := by
  unfold move at moves
  split at moves
  · split at moves
    · cases moves
    · rw [← Option.some.inj moves, Function.update_of_ne apart, Function.update_of_ne notPath]
  · cases moves

theorem rename_elsewhere (apart : other ≠ temp) (notPath : other ≠ path) :
    Preserves (fun volume => holds (volume other)) (rename temp path) := by
  refine .step (fun volume held => ?_) fun _ _ held => held
  cases moves : move temp path volume with
  | none => exact held
  | some moved =>
      show holds (moved other)
      rwa [move_elsewhere apart notPath moves]

theorem sync_parent_elsewhere (settles : ∀ entry, holds entry → holds entry.settle)
    (parent : Path) : Preserves (fun volume => holds (volume other)) (syncParent parent) := by
  refine .bind (.attempt (.step (fun volume held => ?_) fun _ _ held => held)) ?_
  · split <;> exact held
  · rintro (error | done)
    · exact .ret _
    · refine .ignore (.step (fun volume held => ?_) fun _ _ held => held)
      show holds (settleIn parent volume other)
      unfold settleIn
      split
      · exact settles _ held
      · exact held

/-- The calls for a path that has a parent. -/
theorem write_atomic_calls {parent : Path} (parented : path.parent = some parent) (data : Bytes)
    (isPrivate : Bool) : Durability.writeAtomic path data isPrivate = (do
      createDirAll parent
      match path.tempPath with
      | none => raise [s!"path has no file name: {path.display}"]
      | some temp =>
          openTruncated temp (if isPrivate then 0o600 else 0o644)
          writeAll temp data
          syncAll temp
          rename temp path
          syncParent parent) := by
  cases named : path.fileName with
  | none =>
      simp only [Durability.writeAtomic, parented, named, Path.tempPath, Option.bind_eq_bind,
        Option.bind_some, Option.bind_none]
      rfl
  | some name =>
      simp only [Durability.writeAtomic, parented, named, Path.temp_path_of_name parented named]
      rfl

/-- A call does nothing to the entry of another path but sync it, or make a
directory of it. -/
theorem write_atomic_elsewhere (settles : ∀ entry, holds entry → holds entry.settle)
    (grows : ∀ entry : Entry File, ∀ parent, path.parent = some parent → entry.current = none →
      other ∈ parent.enclosing → holds entry → holds (entry.replace (some .dir)))
    (notPath : other ≠ path) (notTemp : path.tempPath ≠ some other) (data : Bytes)
    (isPrivate : Bool) :
    Preserves (fun volume => holds (volume other))
      (Durability.writeAtomic path data isPrivate) := by
  cases parented : path.parent with
  | none =>
      intro plan volume held
      simp only [Durability.writeAtomic, parented, run_bind, run_raise]
      exact held
  | some parent =>
      rw [write_atomic_calls parented]
      refine (create_dir_all_elsewhere fun entry => grows entry parent parented).bind fun _ => ?_
      cases staged : path.tempPath with
      | none => exact .raise _
      | some temp =>
          have apart : other ≠ temp := by
            rintro rfl
            exact notTemp staged
          exact (open_elsewhere apart _).bind fun _ => (write_all_elsewhere apart data).bind
            fun _ => (sync_all_elsewhere apart).bind fun _ =>
              (rename_elsewhere apart notPath).bind fun _ => sync_parent_elsewhere settles parent

end Elsewhere

section Volumes

def lastingWrite (target : Target) (data : Bytes) :
    Proc ApplyStep Error (Volume Path File) Unit :=
  relabel (.write target) (Durability.writeAtomic target.path data target.isPrivate)

def putLasting (fromPem : FromPem) (intent : NodeIntent) :
    Proc ApplyStep Error (Volume Path File) Response :=
  putConfigBy lastingWrite serdeJson fromPem intent

def bootLasting (fromPem : FromPem) :
    Proc ApplyStep Error (Volume Path File) (Option NodeIntent × Except Error Unit) :=
  bootReconcileBy lastingWrite (fun volume => present volume nodeIntentPath) serdeJson fromPem

/-- The volume after a loss of power. What lay in a directory that is lost is lost
with it. -/
def mounted (tree : Path → Option (Kept File)) : Volume Path File := fun path =>
  if (directories path).all fun dir => tree dir = some .dir then ⟨(tree path).map Kept.node, []⟩
  else ⟨none, []⟩

theorem target_directory {target other : Target} {dir : Path}
    (inside : dir ∈ directories target.path) :
    dir ≠ other.path ∧ other.path.tempPath ≠ some dir := by
  have apart : ∀ dir ∈ directories target.path,
      dir ≠ other.path ∧ other.path.tempPath ≠ some dir := by
    cases target <;> cases other <;> decide
  exact apart dir inside

theorem target_not_enclosing {target other : Target} {parent : Path}
    (parented : target.path.parent = some parent) : other.path ∉ parent.enclosing := by
  have apart : ∀ parent ∈ target.path.parent, other.path ∉ parent.enclosing := by
    cases target <;> cases other <;> decide
  exact apart parent parented

/-- What is around a directory of a path is around the path. -/
theorem directories_nested {path dir outer : Path} (inside : dir ∈ directories path)
    (further : outer ∈ directories dir) : outer ∈ directories path := by
  cases parented : path.parent with
  | none => simp [directories, parented] at inside
  | some parent =>
  cases above : dir.parent with
  | none => simp [directories, above] at further
  | some parent' =>
      obtain ⟨absolute, suffix, -⟩ := (mem_directories parented).mp inside
      obtain ⟨absolute', suffix', named⟩ := (mem_directories above).mp further
      have upward : parent'.absolute = dir.absolute ∧ parent'.innermost <:+ dir.innermost := by
        unfold Path.parent at above
        cases inner : dir.innermost with
        | nil => simp [inner] at above
        | cons first rest =>
            simp only [inner, Option.some.injEq] at above
            rw [← above]
            exact ⟨rfl, List.suffix_cons _ _⟩
      refine (mem_directories parented).mpr ⟨?_, ?_, named⟩
      · rw [absolute', upward.1, absolute]
      · exact (suffix'.trans upward.2).trans suffix

theorem lasting_write_within {allowed : Path → Option (Node File) → Prop} {target : Target}
    {data : Bytes}
    (made : ∀ parent, target.path.parent = some parent → ∀ dir ∈ parent.enclosing,
      allowed dir none → allowed dir (some .dir))
    (staged : ∀ temp, target.path.tempPath = some temp → ∀ node, allowed temp node)
    (written : ∀ file : File, file.content = data →
      allowed target.path (some (.file file true))) :
    Preserves (Within allowed) (lastingWrite target data) := by
  refine .relabel ?_
  intro plan volume inside path
  by_cases own : path = target.path
  · subst own
    intro node candidate
    have result := write_atomic_result target.path data target.isPrivate plan volume
    rcases result.between.entry node candidate with old | ⟨file, rfl, content⟩
    · exact inside target.path node old
    · exact written file content
  · by_cases temporary : target.path.tempPath = some path
    · exact fun node _ => staged path temporary node
    · have kept := @write_atomic_elsewhere target.path path
        (fun entry => ∀ node ∈ entry.candidates, allowed path node)
      refine kept ?_ ?_ own temporary data target.isPrivate plan volume (inside path)
      · intro entry held node candidate
        rw [Entry.mem_candidates_settle] at candidate
        rw [candidate]
        exact held _ entry.current_mem
      · intro entry parent parented missing enclosed held node candidate
        rcases (Entry.mem_candidates_replace _ _ _).mp candidate with rfl | old
        · refine made parent parented path enclosed ?_
          rw [← missing]
          exact held _ entry.current_mem
        · exact held node old

theorem present_mounted (tree : Path → Option (Kept File)) (path : Path) :
    present (mounted tree) path = readAt tree path := by
  unfold present mounted readAt
  by_cases dirs : (directories path).all fun dir => tree dir = some .dir
  · rw [if_pos dirs, if_pos dirs]
    rcases tree path with _ | (_ | file) <;> rfl
  · rw [if_neg dirs, if_neg dirs]

theorem mounted_of_dirs {tree : Path → Option (Kept File)} {path : Path}
    (dirs : ∀ dir ∈ directories path, tree dir = some .dir) :
    mounted tree path = ⟨(tree path).map Kept.node, []⟩ :=
  if_pos (by simpa using dirs)

theorem mounted_of_lost {tree : Path → Option (Kept File)} {path dir : Path}
    (inside : dir ∈ directories path) (lost : tree dir ≠ some .dir) :
    mounted tree path = ⟨none, []⟩ := by
  refine if_neg fun dirs => lost ?_
  have all : ∀ dir ∈ directories path, tree dir = some .dir := by simpa using dirs
  exact all dir inside

theorem mounted_candidate {tree : Path → Option (Kept File)} {path : Path}
    {node : Option (Node File)} (candidate : node ∈ (mounted tree path).candidates) :
    node = (mounted tree path).current := by
  have settled : (mounted tree path).older = [] := by
    unfold mounted
    split <;> rfl
  simpa only [Entry.candidates, settled, List.mem_singleton] using candidate

theorem mounted_anchored {tree : Path → Option (Kept File)} {path : Path}
    (dirs : ∀ dir ∈ directories path, tree dir = some .dir) : Anchored path (mounted tree) := by
  intro dir inside node candidate
  rw [mounted_candidate candidate,
    mounted_of_dirs fun outer further => dirs outer (directories_nested inside further),
    dirs dir inside]
  rfl

theorem mounted_synced (tree : Path → Option (Kept File)) (path : Path) (file : File) :
    (mounted tree path).current ≠ some (.file file false) := by
  unfold mounted
  split
  · rcases tree path with _ | (_ | found) <;> simp [Kept.node]
  · simp

end Volumes

section Runs

variable {fromPem : FromPem} {before left : Path → Option (Kept File)}
  {volume : Volume Path File}

/-- The intent of a valid request, or a file rendered from a valid intent. -/
def Brought (fromPem : FromPem) (write : Write) : Prop :=
  ∃ intent, intent.validate fromPem = .ok () ∧
    write ∈ ⟨.nodeIntent, asBytes (jsonText intent)⟩ :: renderings intent

/-- Every file of the configuration is what it was at first, or was brought, and the
directories that were there are there for good. -/
def Traced (fromPem : FromPem) (before : Path → Option (Kept File)) (path : Path)
    (node : Option (Node File)) : Prop :=
  (∀ target : Target, path = target.path → node = (mounted before path).current ∨
    ∃ file, node = some (.file file true) ∧ Brought fromPem ⟨target, file.content⟩) ∧
  ((∃ target : Target, path ∈ directories target.path) →
    (mounted before path).current = some .dir → node = some .dir)

theorem brought_written {write : Write} (brought : Brought fromPem write) :
    Preserves (Within (Traced fromPem before)) (lastingWrite write.target write.data) := by
  apply lasting_write_within
  · intro parent parented dir enclosed old
    refine ⟨fun target same => ?_, fun _ _ => rfl⟩
    exact absurd (same ▸ enclosed) (target_not_enclosing parented)
  · intro temp staged node
    refine ⟨fun target same => ?_, ?_⟩
    · exact absurd (same ▸ staged) (temp_path_not_target write.target target)
    · rintro ⟨target, inside⟩
      exact absurd staged (target_directory inside).2
  · intro file content
    refine ⟨fun target same => ?_, ?_⟩
    · have own := target_path_injective same
      rw [← own]
      exact Or.inr ⟨file, rfl, by rw [content]; exact brought⟩
    · rintro ⟨target, inside⟩
      exact absurd rfl (target_directory inside).1

theorem put_lasting_traced (intent : NodeIntent) :
    Preserves (Within (Traced fromPem before)) (putLasting fromPem intent) := by
  apply put_config_by_preserves
  · intro serialized valid encoded
    have text : asBytes (jsonText intent) = serialized := Except.ok.inj encoded
    have brought : Brought fromPem ⟨.nodeIntent, serialized⟩ := by
      refine ⟨intent, valid, ?_⟩
      rw [text]
      exact List.mem_cons_self
    exact brought_written brought
  · intro valid rendering member
    exact brought_written ⟨intent, valid, List.mem_cons_of_mem _ member⟩

theorem boot_lasting_traced :
    Preserves (Within (Traced fromPem before)) (bootLasting fromPem) := by
  apply boot_reconcile_by_preserves
  intro intent valid rendering member
  exact brought_written ⟨intent, valid, List.mem_cons_of_mem _ member⟩

theorem mounted_traced_first : Within (Traced fromPem before) (mounted before) := by
  intro path node candidate
  rw [mounted_candidate candidate]
  exact ⟨fun _ _ => Or.inl rfl, fun _ there => there⟩

/-- A directory that is there is in directories that are there. -/
theorem mounted_outer {path outer : Path} {kept : Node File}
    (there : (mounted before path).current = some kept) (inside : outer ∈ directories path) :
    (mounted before outer).current = some .dir := by
  have dirs : ∀ dir ∈ directories path, before dir = some .dir := by
    intro dir around
    by_contra missing
    rw [mounted_of_lost around missing] at there
    cases there
  rw [mounted_of_dirs fun dir further => dirs dir (directories_nested inside further),
    dirs outer inside]
  rfl

/-- A directory that was there at first is not lost. -/
theorem directory_left (traced : Within (Traced fromPem before) volume)
    (survives : Survives volume left) {target : Target} {dir : Path}
    (inside : dir ∈ directories target.path)
    (there : (mounted before dir).current = some .dir) : left dir = some .dir := by
  obtain ⟨node, allowed, leaves⟩ := traced.left survives dir
  rw [allowed.2 ⟨target, inside⟩ there] at leaves
  exact leaves

/-- A file whose directory is lost was not there at first. -/
theorem lost_with_directory (traced : Within (Traced fromPem before) volume)
    (survives : Survives volume left) {target : Target} {dir : Path}
    (inside : dir ∈ directories target.path) (lost : left dir ≠ some .dir) :
    (mounted before target.path).current = none := by
  cases there : (mounted before target.path).current with
  | none => rfl
  | some kept =>
      exact absurd (directory_left traced survives inside (mounted_outer there inside)) lost

theorem mounted_traced (traced : Within (Traced fromPem before) volume)
    (survives : Survives volume left) : Within (Traced fromPem before) (mounted left) := by
  intro path node candidate
  rw [mounted_candidate candidate]
  constructor
  · rintro target rfl
    -- With a directory that is lost, the file was not there at first either.
    by_cases dirs : ∀ dir ∈ directories target.path, left dir = some .dir
    · obtain ⟨node, allowed, leaves⟩ := traced.left survives target.path
      rw [mounted_of_dirs dirs]
      rcases allowed.1 target rfl with old | ⟨file, written, brought⟩
      · rw [old] at leaves
        exact Or.inl (leaves_node leaves (mounted_synced before target.path))
      · rw [written] at leaves
        exact Or.inr ⟨file, leaves_node leaves (by simp), brought⟩
    · push Not at dirs
      obtain ⟨dir, inside, lost⟩ := dirs
      rw [mounted_of_lost inside lost, lost_with_directory traced survives inside lost]
      exact Or.inl rfl
  · rintro ⟨target, inside⟩ there
    have around : ∀ outer ∈ directories path, left outer = some .dir := by
      intro outer further
      exact directory_left traced survives (directories_nested inside further)
        (mounted_outer there further)
    rw [mounted_of_dirs around, directory_left traced survives inside there]
    rfl

/-- A request, and whether its intent is there for good. -/
structure Put where
  intent : NodeIntent
  lasting : Bool

/-- `puts` is the history of requests, the latest first. -/
structure Stored where
  volume : Volume Path File
  puts : List Put

inductive Event where
  | put (intent : NodeIntent) (plan : Plan ApplyStep)
  | boot (plan : Plan ApplyStep)
  | powerLoss (left : Path → Option (Kept File))

/-- The request is answered 200, the directory of the intent is synced, and none of the
directories around it was made since its own directory was synced. -/
def Confirmed (plan : Plan ApplyStep) (volume : Volume Path File)
    (outcome : Outcome Error Response) : Prop :=
  statusOf outcome = some 200 ∧ plan (.write .nodeIntent .openDir) = .done ∧
    plan (.write .nodeIntent .syncDir) = .done ∧ Anchored nodeIntentPath volume

instance (path : Path) (volume : Volume Path File) : Decidable (Anchored path volume) :=
  inferInstanceAs (Decidable (∀ dir ∈ directories path, ∀ node ∈ (volume dir).candidates, _))

instance (plan : Plan ApplyStep) (volume : Volume Path File) (outcome : Outcome Error Response) :
    Decidable (Confirmed plan volume outcome) :=
  inferInstanceAs (Decidable (_ ∧ _ ∧ _ ∧ _))

def Event.run (fromPem : FromPem) (event : Event) (stored : Stored) : Stored :=
  match event with
  | .put intent plan =>
      let result := (putLasting fromPem intent).run plan stored.volume
      ⟨result.2, ⟨intent, decide (Confirmed plan stored.volume result.1)⟩ :: stored.puts⟩
  | .boot plan => ⟨((bootLasting fromPem).run plan stored.volume).2, stored.puts⟩
  | .powerLoss left => ⟨mounted left, stored.puts⟩

def step (fromPem : FromPem) (stored : Stored) (event : Event) : Option Stored :=
  some (event.run fromPem stored)

/-- A loss of power leaves one of the trees that it may leave. -/
def Possible (stored : Stored) : Event → Prop
  | .powerLoss left => Survives stored.volume left
  | _ => True

/-- The last intent that is there for good and the valid ones after it. -/
def lastingIntents (fromPem : FromPem) : List Put → List NodeIntent
  | [] => []
  | put :: older =>
      if put.lasting then [put.intent]
      else if put.intent.validate fromPem = .ok () then
        put.intent :: lastingIntents fromPem older
      else lastingIntents fromPem older

/-- The chosen files hold one of their texts, and their directories are there, for
good. -/
def Secured (chosen : Target → Prop) (texts : Target → Bytes → Prop) (path : Path)
    (node : Option (Node File)) : Prop :=
  ∀ target, chosen target →
    (path = target.path → ∃ file, node = some (.file file true) ∧ texts target file.content) ∧
    (path ∈ directories target.path → node = some .dir)

/-- The intent file holds one of the intents. -/
def Recorded (intents : List NodeIntent) : Path → Option (Node File) → Prop :=
  Secured (· = .nodeIntent) fun _ bytes => ∃ intent ∈ intents, bytes = asBytes (jsonText intent)

variable {chosen : Target → Prop} {texts : Target → Bytes → Prop} {target : Target}
  {data : Bytes} {plan : Plan ApplyStep}

theorem secured_written (own : chosen target → texts target data) :
    Preserves (Within (Secured chosen texts)) (lastingWrite target data) := by
  apply lasting_write_within
  · intro parent parented dir enclosed old other listed
    refine ⟨?_, fun _ => rfl⟩
    rintro rfl
    exact absurd enclosed (target_not_enclosing parented)
  · intro temp staged node other listed
    refine ⟨?_, fun inside => ?_⟩
    · rintro rfl
      exact absurd staged (temp_path_not_target target other)
    · exact absurd staged (target_directory inside).2
  · intro file content other listed
    refine ⟨fun same => ?_, fun inside => ?_⟩
    · obtain rfl := target_path_injective same
      exact ⟨file, rfl, content ▸ own listed⟩
    · exact absurd rfl (target_directory inside).1

/-- One more file is secured by a write whose directory is synced. -/
theorem secured_by_write (secured : Within (Secured chosen texts) volume)
    (anchored : Anchored target.path volume) (text : texts target data)
    (opened : plan (.write target .openDir) = .done)
    (synced : plan (.write target .syncDir) = .done)
    (returned : ((lastingWrite target data).run plan volume).1 = .ok ()) :
    Within (Secured (fun other => chosen other ∨ other = target) texts)
      ((lastingWrite target data).run plan volume).2 := by
  have kept := secured_written (fun _ => text) plan volume secured
  have result := write_atomic_result target.path data target.isPrivate (plan.at (.write target))
    volume
  have dirSynced : DirSynced target.path (plan.at (.write target)) := by
    refine ⟨opened, synced, ?_⟩
    cases target <;> exact ⟨_, rfl, .inl rfl⟩
  obtain ⟨grown, file, content, entry⟩ := result.synced returned dirSynced
  intro path node candidate other listed
  rcases listed with listed | rfl
  · exact kept path node candidate other listed
  · refine ⟨?_, fun inside => ?_⟩
    · rintro rfl
      have only : node = some (.file file true) := by
        have alone : node ∈ (Entry.mk (some (Node.file file true)) []).candidates :=
          entry ▸ candidate
        simpa only [Entry.candidates, List.mem_singleton] using alone
      exact ⟨file, only, content ▸ text⟩
    · by_contra missing
      exact missing (anchored path inside node ((grown path inside).lost candidate missing))

/-- Whatever a loss leaves, the chosen files are read as they were secured. -/
theorem secured_left (secured : Within (Secured chosen texts) volume)
    (survives : Survives volume left) (listed : chosen target) :
    (∀ dir ∈ directories target.path, left dir = some .dir) ∧
      ∃ file, left target.path = some (.file file) ∧ texts target file.content := by
  constructor
  · intro dir inside
    obtain ⟨node, allowed, leaves⟩ := secured.left survives dir
    rw [(allowed target listed).2 inside] at leaves
    exact leaves
  · obtain ⟨node, allowed, leaves⟩ := secured.left survives target.path
    obtain ⟨file, written, held⟩ := (allowed target listed).1 rfl
    rw [written] at leaves
    exact ⟨file, leaves, held⟩

theorem secured_read (secured : Within (Secured chosen texts) volume)
    (survives : Survives volume left) (listed : chosen target) :
    ∃ bytes, readAt left target.path = some bytes ∧ texts target bytes := by
  obtain ⟨dirs, file, found, held⟩ := secured_left secured survives listed
  exact ⟨file.content, (read_at_some_iff _).mpr ⟨dirs, file, found, rfl⟩, held⟩

theorem mounted_secured (secured : Within (Secured chosen texts) volume)
    (survives : Survives volume left) : Within (Secured chosen texts) (mounted left) := by
  intro path node candidate target listed
  obtain ⟨dirs, file, found, held⟩ := secured_left secured survives listed
  rw [mounted_candidate candidate]
  refine ⟨?_, fun inside => ?_⟩
  · rintro rfl
    rw [mounted_of_dirs dirs, found]
    exact ⟨file, rfl, held⟩
  · rw [mounted_of_dirs fun outer further => dirs outer (directories_nested inside further),
      dirs path inside]
    rfl

theorem renderings_recorded (intents : List NodeIntent) (intent : NodeIntent) :
    ∀ rendering ∈ renderings intent,
      Preserves (Within (Recorded intents)) (lastingWrite rendering.target rendering.data) :=
  fun rendering member => secured_written fun own =>
    absurd own (renderings_target intent rendering member)

theorem Recorded.more {intents more : List NodeIntent}
    (included : ∀ intent ∈ intents, intent ∈ more) (recorded : Within (Recorded intents) volume) :
    Within (Recorded more) volume := by
  intro path node candidate target listed
  obtain ⟨held, dirs⟩ := recorded path node candidate target listed
  refine ⟨fun same => ?_, dirs⟩
  obtain ⟨file, written, intent, inside, content⟩ := held same
  exact ⟨file, written, intent, included intent inside, content⟩

/-- A confirmed request leaves nothing else to come back. -/
theorem confirmed_recorded {intent : NodeIntent}
    (confirmed : Confirmed plan volume ((putLasting fromPem intent).run plan volume).1) :
    Within (Recorded [intent]) ((putLasting fromPem intent).run plan volume).2 := by
  obtain ⟨answered, opened, synced, anchored⟩ := confirmed
  obtain ⟨serialized, valid, encoded, returned, after⟩ :=
    put_config_by_answered lastingWrite answered
  have text : asBytes (jsonText intent) = serialized := Except.ok.inj encoded
  have nothing : Within (Secured (fun _ => False) fun _ bytes =>
      ∃ other ∈ [intent], bytes = asBytes (jsonText other)) volume :=
    fun _ _ _ _ impossible => impossible.elim
  have around : Anchored (Target.path .nodeIntent) volume := anchored
  have recorded := secured_by_write nothing around
    ⟨intent, List.mem_singleton_self _, text.symm⟩ opened synced returned
  simp only [false_or] at recorded
  show Within (Recorded [intent]) ((putConfigBy lastingWrite serdeJson fromPem intent).run plan
    volume).2
  rw [after]
  exact k8s_reconcile_by_preserves lastingWrite fromPem (some intent)
    (fun other _ _ => renderings_recorded [intent] other) plan _ recorded

theorem put_lasting_recorded {intents : List NodeIntent} {intent : NodeIntent}
    (listed : intent.validate fromPem = .ok () → intent ∈ intents) :
    Preserves (Within (Recorded intents)) (putLasting fromPem intent) := by
  apply put_config_by_preserves
  · intro serialized valid encoded
    exact secured_written fun _ => ⟨intent, listed valid, (Except.ok.inj encoded).symm⟩
  · exact fun _ => renderings_recorded intents intent

theorem boot_lasting_recorded (intents : List NodeIntent) :
    Preserves (Within (Recorded intents)) (bootLasting fromPem) :=
  boot_reconcile_by_preserves lastingWrite fun intent _ => renderings_recorded intents intent

theorem lasting_intents_open (fromPem : FromPem) (intent : NodeIntent) (older : List Put) :
    (intent.validate fromPem = .ok () →
        intent ∈ lastingIntents fromPem (⟨intent, false⟩ :: older)) ∧
      ∀ other ∈ lastingIntents fromPem older,
        other ∈ lastingIntents fromPem (⟨intent, false⟩ :: older) := by
  rw [lastingIntents, if_neg Bool.false_ne_true]
  constructor
  · intro valid
    rw [if_pos valid]
    exact List.mem_cons_self
  · intro other member
    split
    · exact List.mem_cons_of_mem _ member
    · exact member

/-- What every state of a run satisfies. -/
structure Sound (fromPem : FromPem) (before : Path → Option (Kept File)) (stored : Stored) :
    Prop where
  traced : Within (Traced fromPem before) stored.volume
  recorded : (∃ put ∈ stored.puts, put.lasting = true) →
    Within (Recorded (lastingIntents fromPem stored.puts)) stored.volume

theorem put_sound {stored : Stored} (intent : NodeIntent) (plan : Plan ApplyStep)
    (sound : Sound fromPem before stored) :
    Sound fromPem before ((Event.put intent plan).run fromPem stored) := by
  refine ⟨put_lasting_traced intent plan stored.volume sound.traced, ?_⟩
  rintro ⟨put, member, lasting⟩
  by_cases confirmed :
      Confirmed plan stored.volume ((putLasting fromPem intent).run plan stored.volume).1
  · have only : lastingIntents fromPem ((Event.put intent plan).run fromPem stored).puts =
        [intent] := by
      simp only [Event.run, lastingIntents, decide_eq_true confirmed, if_true]
    rw [only]
    exact confirmed_recorded confirmed
  -- Otherwise its intent only joins those that may come back.
  · have older : put ∈ stored.puts := by
      rcases List.mem_cons.mp member with rfl | older
      · exact absurd (of_decide_eq_true lasting) confirmed
      · exact older
    have open' : decide (Confirmed plan stored.volume
        ((putLasting fromPem intent).run plan stored.volume).1) = false :=
      decide_eq_false confirmed
    obtain ⟨own, others⟩ := lasting_intents_open fromPem intent stored.puts
    simp only [Event.run, open']
    refine put_lasting_recorded own plan stored.volume ?_
    exact Recorded.more others (sound.recorded ⟨put, older, lasting⟩)

theorem step_sound {stored next : Stored} {event : Event} (sound : Sound fromPem before stored)
    (possible : Possible stored event) (taken : step fromPem stored event = some next) :
    Sound fromPem before next := by
  rw [← Option.some.inj taken]
  cases event with
  | put intent plan => exact put_sound intent plan sound
  | boot plan =>
      exact ⟨boot_lasting_traced plan stored.volume sound.traced, fun confirmed =>
        boot_lasting_recorded _ plan stored.volume (sound.recorded confirmed)⟩
  | powerLoss left =>
      exact ⟨mounted_traced sound.traced possible, fun confirmed =>
        mounted_secured (sound.recorded confirmed) possible⟩

theorem run_sound {events : List Event} {stored : Stored}
    (possible : Machine.Guarded (step fromPem) Possible ⟨mounted before, []⟩ events)
    (reached : Machine.run (step fromPem) ⟨mounted before, []⟩ events = some stored) :
    Sound fromPem before stored := by
  refine Machine.run_preserves (fun _ _ _ sound => step_sound sound) ?_ possible reached
  exact ⟨mounted_traced_first, fun ⟨_, member, _⟩ => absurd member List.not_mem_nil⟩

theorem load_node_intent_found {intent : NodeIntent} (readable : plan .readIntent = .done)
    (read : present volume nodeIntentPath = some (asBytes (jsonText intent))) :
    (loadNodeIntentBy (fun volume => present volume nodeIntentPath) serdeJson).run plan volume =
      (.ok (some intent), volume) := by
  have parsed : serdeJson.fromSlice (asBytes (jsonText intent)) = .ok intent :=
    IntentText.serde_json_round_trip intent _ rfl
  rw [loadNodeIntentBy, run_bind, run_attempt, run_step, readable]
  simp only [read, parsed]
  rfl

theorem boot_reconciled {intent : NodeIntent}
    (answer : ((bootLasting fromPem).run plan volume).1 = .ok (some intent, .ok ())) :
    ((k8sReconcileBy lastingWrite fromPem (some intent)).run plan volume).1 = .ok () ∧
      ((bootLasting fromPem).run plan volume).2 =
        ((k8sReconcileBy lastingWrite fromPem (some intent)).run plan volume).2 := by
  have unchanged := load_node_intent_by_state
    (fun volume => present volume nodeIntentPath) serdeJson plan volume
  rw [bootLasting, bootReconcileBy, run_bind] at answer ⊢
  cases loaded : (loadNodeIntentBy (fun volume => present volume nodeIntentPath) serdeJson).run
      plan volume with
  | mk outcome after =>
      rw [loaded] at answer unchanged
      obtain rfl : after = volume := unchanged
      cases outcome with
      | err error => cases answer
      | killed => cases answer
      | ok persisted =>
          simp only [run_bind, run_attempt] at answer ⊢
          cases ran : (k8sReconcileBy lastingWrite fromPem persisted).run plan after with
          | mk outcome final =>
              rw [ran] at answer
              cases outcome with
              | killed => cases answer
              | err error => simp at answer
              | ok done =>
                  simp only [run_pure, Outcome.ok.injEq, Prod.mk.injEq] at answer
                  rw [← answer.1, ran]
                  exact ⟨rfl, rfl⟩

theorem rendering_target {intent : NodeIntent} {rendering : Write}
    (member : rendering ∈ renderings intent) : rendering.target = .clusterCa ∨
      rendering.target = .kubeletConfig ∨ rendering.target = .bootstrapKubeconfig := by
  have targets := List.mem_map_of_mem (f := Write.target) member
  simpa only [renderings, List.map_cons, List.map_nil, List.mem_cons, List.not_mem_nil,
    or_false] using targets

theorem rendering_unique {intent : NodeIntent} {first second : Write}
    (one : first ∈ renderings intent) (other : second ∈ renderings intent)
    (same : first.target = second.target) : first = second := by
  have apart : ((renderings intent).map Write.target).Nodup := by
    simp [renderings]
  exact List.inj_on_of_nodup_map apart one other same

/-- One file of a reconciliation, after others. -/
theorem rendering_secured {intent : NodeIntent} {message : String}
    (member : ⟨target, data⟩ ∈ renderings intent)
    (opened : plan (.write target .openDir) = .done)
    (synced : plan (.write target .syncDir) = .done) :
    Meets plan
      (fun volume => Within (Secured chosen fun target bytes => ⟨target, bytes⟩ ∈ renderings intent)
        volume ∧ Anchored clusterCaPath volume)
      (mapError (context message) (lastingWrite target data))
      (fun _ volume => Within (Secured (fun other => chosen other ∨ other = target)
        fun target bytes => ⟨target, bytes⟩ ∈ renderings intent) volume ∧
          Anchored clusterCaPath volume)
      (fun _ _ => True) fun _ => True := by
  intro volume held
  obtain ⟨secured, anchored⟩ := held
  have places : target = .clusterCa ∨ target = .kubeletConfig ∨ target = .bootstrapKubeconfig :=
    rendering_target member
  have around : directories target.path = directories clusterCaPath := by
    rcases places with rfl | rfl | rfl <;> decide
  have after := secured_by_write secured (fun dir inside => anchored dir (around ▸ inside)) member
    opened synced
  rw [run_mapError]
  cases ran : (lastingWrite target data).run plan volume with
  | mk outcome final =>
      rw [ran] at after
      cases outcome with
      | err error => trivial
      | killed => trivial
      | ok done =>
          refine ⟨after rfl, fun dir inside node candidate => ?_⟩
          exact (after rfl dir node candidate target (.inr rfl)).2 (around ▸ inside)

theorem reconcile_secured {intent : NodeIntent}
    (synced : ∀ target, target ≠ .nodeIntent →
      plan (.write target .openDir) = .done ∧ plan (.write target .syncDir) = .done) :
    Meets plan
      (fun volume => Within (Secured (fun _ => False)
        fun target bytes => ⟨target, bytes⟩ ∈ renderings intent) volume ∧
          Anchored clusterCaPath volume)
      (k8sReconcileBy lastingWrite fromPem (some intent))
      (fun _ volume => Within (Secured
        (fun other => ((False ∨ other = .clusterCa) ∨ other = .kubeletConfig) ∨
          other = .bootstrapKubeconfig)
        fun target bytes => ⟨target, bytes⟩ ∈ renderings intent) volume ∧
          Anchored clusterCaPath volume)
      (fun _ _ => True) fun _ => True := by
  have ca := synced .clusterCa nofun
  have config := synced .kubeletConfig nofun
  have kubeconfig := synced .bootstrapKubeconfig nofun
  rw [k8sReconcileBy]
  refine .bind (.of_keeps (.ofExcept _) (fun _ _ holds _ => holds) (fun _ _ _ => trivial)
    fun _ _ => trivial) fun _ => ?_
  refine .bind (rendering_secured (by simp [renderings]) ca.1 ca.2) fun _ => ?_
  refine .bind (rendering_secured (by simp [renderings]) config.1 config.2) fun _ => ?_
  exact rendering_secured (by simp [renderings]) kubeconfig.1 kubeconfig.2

/-- A state volume with its directories, and the file of an intent or none. -/
def stateTree (held : Option NodeIntent) (path : Path) : Option (Kept File) :=
  if path ∈ directories clusterCaPath then some .dir
  else if path = nodeIntentPath then
    held.map fun intent => .file ⟨asBytes (jsonText intent), 0o600⟩
  else none

theorem state_directories :
    ∀ dir ∈ directories nodeIntentPath, dir ∈ directories clusterCaPath := by decide

theorem state_anchored (held : Option NodeIntent) :
    Anchored clusterCaPath (mounted (stateTree held)) :=
  mounted_anchored fun _ inside => if_pos inside

/-- The first request on an empty volume, with no failure. -/
def requested : Stored :=
  (Event.put sampleIntent Plan.allDone).run fixturePki.fromPem ⟨mounted (stateTree none), []⟩

/-- One of the trees that a loss of power may then leave. -/
def requestedTree : Path → Option (Kept File) :=
  fun path => intact (requested.volume path).current

theorem first_request_answered {intent : NodeIntent}
    (valid : intent.validate fromPem = .ok ()) :
    statusOf ((putLasting fromPem intent).run Plan.allDone (mounted (stateTree none))).1 =
      some 200 := by
  simp only [putLasting, putConfigBy, k8sReconcileBy, valid]
  rfl

theorem found_reconciled {intent : NodeIntent} (valid : intent.validate fromPem = .ok ()) :
    ((bootLasting fromPem).run Plan.allDone (mounted (stateTree (some intent)))).1 =
      .ok (some intent, .ok ()) := by
  have held : stateTree (some intent) nodeIntentPath =
      some (.file ⟨asBytes (jsonText intent), 0o600⟩) := by
    rw [stateTree, if_neg (by decide), if_pos rfl, Option.map_some]
  have read : present (mounted (stateTree (some intent))) nodeIntentPath =
      some (asBytes (jsonText intent)) := by
    rw [present_mounted, read_at_some_iff]
    constructor
    · exact fun dir inside => if_pos (state_directories dir inside)
    · exact ⟨⟨asBytes (jsonText intent), 0o600⟩, held, by dsimp only⟩
  rw [bootLasting, bootReconcileBy, run_bind, load_node_intent_found rfl read]
  simp only [k8sReconcileBy, valid]
  rfl

theorem confirmed_lasting {intent : NodeIntent} (puts : List Put)
    (confirmed : Confirmed plan volume ((putLasting fromPem intent).run plan volume).1) :
    ∃ put ∈ ((Event.put intent plan).run fromPem ⟨volume, puts⟩).puts, put.lasting = true :=
  ⟨⟨intent, decide (Confirmed plan volume ((putLasting fromPem intent).run plan volume).1)⟩,
    List.mem_cons_self, decide_eq_true confirmed⟩

theorem requested_lasting : ∃ put ∈ requested.puts, put.lasting = true := by
  have anchored : Anchored nodeIntentPath (mounted (stateTree none)) :=
    fun dir inside => state_anchored none dir (state_directories dir inside)
  have confirmed : Confirmed Plan.allDone (mounted (stateTree none))
      ((putLasting fixturePki.fromPem sampleIntent).run Plan.allDone
        (mounted (stateTree none))).1 :=
    ⟨first_request_answered sample_intent_valid, rfl, rfl, anchored⟩
  rw [requested]
  exact confirmed_lasting [] confirmed

theorem requested_run :
    Machine.run (step fixturePki.fromPem) ⟨mounted (stateTree none), []⟩
      [.put sampleIntent Plan.allDone] = some requested := by
  rw [Machine.run_cons _ rfl]
  rfl

end Runs

end NodeOs.Noded.ConfigDurability
