import NodeOs.Library.Machine
import NodeOs.Noded.Reconcile

/-!
# What stands behind kubelet's start marker

`initd` starts kubelet, and starts it again, whenever the bootstrap kubeconfig
exists. The machine runs requests and boots write by write, so that every state
is one in which `initd` may look. The marker stays on the state volume, so only
its first rendering is written behind a missing marker.
-/

namespace NodeOs.Noded.KubeletGate

open NodeOs.Library.FaultPlan NodeOs.Library.Machine
open NodeOs.Noded NodeOs.Noded.FileSystem NodeOs.Noded.Workload NodeOs.Noded.K8sRender
open NodeOs.Noded.Reconcile

/-- `todo` holds the writes still due: `none` while `noded` is down, the empty
list while it waits for a request. `rendered` records the intents that `noded`
has set out to render. -/
structure State where
  cells : Cells
  todo : Option (List Write)
  rendered : List NodeIntent

inductive Action where
  | put (intent : NodeIntent)
  | write
  | writeFails
  | crash
  | boot (readable : Bool)
  deriving DecidableEq, Repr

def step (json : IntentJson) (fromPem : FromPem) (state : State) : Action → Option State
  | .put intent =>
      if state.todo = some [] then
        match intent.validate fromPem, json.toVecPretty intent with
        | .ok (), .ok serialized =>
            some { state with
              todo := some (⟨.nodeIntent, serialized⟩ :: renderings intent)
              rendered := intent :: state.rendered }
        | _, _ => some state
      else none
  | .write =>
      match state.todo with
      | some (write :: writes) =>
          some { state with cells := write.apply state.cells, todo := some writes }
      | _ => none
  | .writeFails =>
      match state.todo with
      | some (_ :: _) => some { state with todo := some [] }
      | _ => none
  | .crash => if state.todo = none then none else some { state with todo := none }
  | .boot readable =>
      if state.todo = none then
        let desired := if readable then persisted json state.cells else none
        some { state with
          todo := some (bootWrites fromPem desired)
          rendered := desired.toList ++ state.rendered }
      else none

/-- `initd` may start kubelet. -/
def Marked (cells : Cells) : Prop := cells .bootstrapKubeconfig ≠ none

/-- Behind the marker, the three files are the renderings of one intent. -/
def Consistent (state : State) : Prop :=
  Marked state.cells → ∃ intent ∈ state.rendered, Rendered intent state.cells

/-- Where the marker already exists, the write of another file leaves it as it
is, or the rest of the round has nothing left to change. -/
def KeepsMarked (state : State) (action : Action) : Prop :=
  ∀ write writes, action = .write → state.todo = some (write :: writes) →
    write.target = .clusterCa ∨ write.target = .kubeletConfig → Marked state.cells →
      state.cells write.target = some write.data ∨
        ∀ later ∈ writes, state.cells later.target = some later.data

/-- The writes due belong to one intent, and what is not due any more of its
renderings is in place. -/
structure Working (state : State) (intent : NodeIntent) (writes : List Write) : Prop where
  known : intent ∈ state.rendered
  due : ∃ serialized, writes <:+ ⟨.nodeIntent, serialized⟩ :: renderings intent
  inPlace : ∀ write ∈ renderings intent, write ∉ writes →
    state.cells write.target = some write.data

structure Sound (state : State) : Prop where
  consistent : Consistent state
  working : ∀ write writes, state.todo = some (write :: writes) →
    ∃ intent, Working state intent (write :: writes)

section Steps

variable {json : IntentJson} {fromPem : FromPem} {state next : State}

theorem write_target_injective (intent : NodeIntent) {first second : Write}
    (left : first ∈ renderings intent) (right : second ∈ renderings intent)
    (same : first.target = second.target) : first = second := by
  simp only [renderings, List.mem_cons, List.not_mem_nil, or_false] at left right
  rcases left with rfl | rfl | rfl <;> rcases right with rfl | rfl | rfl <;>
    first | rfl | cases same

/-- The next write keeps what is in place, and puts itself in place. -/
theorem working_write {intent : NodeIntent} {write : Write} {writes : List Write}
    (working : Working state intent (write :: writes)) :
    Working { state with cells := write.apply state.cells, todo := some writes } intent writes where
  known := working.known
  due := by
    obtain ⟨serialized, suffix⟩ := working.due
    exact ⟨serialized, (List.suffix_cons write writes).trans suffix⟩
  inPlace := by
    intro other member notDue
    obtain ⟨serialized, suffix⟩ := working.due
    by_cases same : other = write
    · simp [Write.apply, same]
    · have before := working.inPlace other member (by simp [same, notDue])
      have apart : other.target ≠ write.target := by
        intro sameTarget
        rcases List.mem_cons.mp (suffix.subset (List.mem_cons_self ..)) with rfl | inside
        · exact renderings_target intent other member sameTarget
        · exact same (write_target_injective intent member inside sameTarget)
      simpa [Write.apply, Function.update_of_ne apart] using before

/-- The marker is the last write of a round. -/
theorem marker_is_last {intent : NodeIntent} {serialized : Bytes} {write : Write}
    {writes : List Write}
    (suffix : write :: writes <:+ ⟨.nodeIntent, serialized⟩ :: renderings intent)
    (marker : write.target = .bootstrapKubeconfig) : writes = [] := by
  simp only [renderings, List.suffix_cons_iff, List.suffix_nil, List.cons.injEq, reduceCtorEq,
    or_false] at suffix
  rcases suffix with ⟨rfl, -⟩ | ⟨rfl, -⟩ | ⟨rfl, -⟩ | ⟨-, same⟩
  · cases marker
  · cases marker
  · cases marker
  · exact same

theorem marked_write_iff {write : Write} (other : write.target ≠ .bootstrapKubeconfig)
    (cells : Cells) : Marked (write.apply cells) ↔ Marked cells := by
  rw [Marked, Marked, Write.apply, Function.update_of_ne (Ne.symm other)]

theorem rendered_write {intent : NodeIntent} {write : Write} {cells : Cells}
    (other : write.target = .nodeIntent) (rendered : Rendered intent cells) :
    Rendered intent (write.apply cells) := by
  intro rendering member
  have apart : rendering.target ≠ write.target := by
    rw [other]
    exact renderings_target intent rendering member
  rw [Write.apply, Function.update_of_ne apart]
  exact rendered rendering member

theorem write_same {write : Write} {cells : Cells} (held : cells write.target = some write.data) :
    write.apply cells = cells := by
  rw [Write.apply, ← held, Function.update_eq_self]

/-- The write that is the last change of its round leaves the whole round. -/
theorem last_change_rendered {intent : NodeIntent} {write : Write} {writes : List Write}
    (working : Working state intent (write :: writes))
    (rest : ∀ later ∈ writes, state.cells later.target = some later.data) :
    Rendered intent (write.apply state.cells) := by
  intro rendering member
  by_cases due : rendering ∈ writes
  · by_cases same : rendering.target = write.target
    · obtain ⟨serialized, suffix⟩ := working.due
      rcases List.mem_cons.mp (suffix.subset (List.mem_cons_self ..)) with rfl | inside
      · exact absurd same (renderings_target intent rendering member)
      · rw [write_target_injective intent member inside same]
        exact Function.update_self ..
    · exact (Function.update_of_ne same ..).trans (rest rendering due)
  · exact (working_write working).inPlace rendering member due

theorem write_consistent {intent : NodeIntent} {write : Write} {writes : List Write}
    (sound : Sound state) (due : state.todo = some (write :: writes))
    (working : Working state intent (write :: writes)) (kept : KeepsMarked state .write) :
    Consistent { state with cells := write.apply state.cells, todo := some writes } := by
  intro marked
  obtain ⟨serialized, suffix⟩ := working.due
  have other (target : write.target = .clusterCa ∨ write.target = .kubeletConfig)
      (before : Marked state.cells) :
      ∃ held ∈ state.rendered, Rendered held (write.apply state.cells) := by
    rcases kept write writes rfl due target before with held | rest
    · simpa only [write_same held] using sound.consistent before
    · exact ⟨intent, working.known, last_change_rendered working rest⟩
  cases target : write.target with
  | nodeIntent =>
      obtain ⟨held, known, rendered⟩ :=
        sound.consistent ((marked_write_iff (by simp [target]) _).mp marked)
      exact ⟨held, known, rendered_write target rendered⟩
  | bootstrapKubeconfig =>
      obtain rfl := marker_is_last suffix target
      exact ⟨intent, working.known, last_change_rendered working (by simp)⟩
  | clusterCa =>
      exact other (Or.inl target) ((marked_write_iff (by simp [target]) _).mp marked)
  | kubeletConfig =>
      exact other (Or.inr target) ((marked_write_iff (by simp [target]) _).mp marked)

/-- More intents known, other writes due: what the files hold has not changed. -/
theorem consistent_known (todo : Option (List Write)) (more : List NodeIntent)
    (sound : Sound state) :
    Consistent { state with todo := todo, rendered := more ++ state.rendered } := by
  intro marked
  obtain ⟨held, known, rendered⟩ := sound.consistent marked
  exact ⟨held, List.mem_append_right _ known, rendered⟩

/-- A round begins with all its renderings due. -/
theorem round_working {intent : NodeIntent} {writes : List Write} (known : intent ∈ state.rendered)
    (due : ∃ serialized, writes <:+ ⟨.nodeIntent, serialized⟩ :: renderings intent)
    (all : ∀ write ∈ renderings intent, write ∈ writes) : Working state intent writes :=
  ⟨known, due, fun write member absent => absurd (all write member) absent⟩

theorem put_preserves_sound (intent : NodeIntent) (sound : Sound state)
    (taken : step json fromPem state (.put intent) = some next) : Sound next := by
  simp only [step, Option.ite_none_right_eq_some] at taken
  obtain ⟨waiting, taken⟩ := taken
  cases checked : intent.validate fromPem with
  | error err =>
      rw [checked] at taken
      rwa [← Option.some.inj taken]
  | ok passed =>
      cases encoded : json.toVecPretty intent with
      | error err =>
          rw [checked, encoded] at taken
          rwa [← Option.some.inj taken]
      | ok serialized =>
          rw [checked, encoded] at taken
          obtain rfl := Option.some.inj taken
          refine ⟨consistent_known _ [intent] sound, fun write writes due => ⟨intent, ?_⟩⟩
          rw [← Option.some.inj due]
          exact round_working (List.mem_cons_self ..) ⟨serialized, List.suffix_rfl⟩
            fun write member => List.mem_cons_of_mem _ member

theorem boot_preserves_sound (readable : Bool) (sound : Sound state)
    (taken : step json fromPem state (.boot readable) = some next) : Sound next := by
  simp only [step, Option.ite_none_right_eq_some, Option.some.injEq] at taken
  obtain ⟨down, rfl⟩ := taken
  refine ⟨consistent_known _ _ sound, fun write writes due => ?_⟩
  rcases boot_writes_cases fromPem (if readable then persisted json state.cells else none) with
    none | ⟨intent, desired, valid, writes⟩
  · simp [none] at due
  · refine ⟨intent, ?_⟩
    rw [← Option.some.inj due, writes]
    exact round_working (by simp [desired]) ⟨[], List.suffix_cons ..⟩ fun write member => member

theorem step_preserves_sound (action : Action) (sound : Sound state)
    (kept : KeepsMarked state action) (taken : step json fromPem state action = some next) :
    Sound next := by
  cases action with
  | put intent => exact put_preserves_sound intent sound taken
  | boot readable => exact boot_preserves_sound readable sound taken
  | write =>
      cases due : state.todo with
      | none => simp [step, due] at taken
      | some writes =>
          cases writes with
          | nil => simp [step, due] at taken
          | cons write writes =>
              obtain ⟨intent, working⟩ := sound.working write writes due
              simp only [step, due, Option.some.injEq] at taken
              subst taken
              refine ⟨write_consistent sound due working kept, fun _ _ more => ⟨intent, ?_⟩⟩
              rw [← Option.some.inj more]
              exact working_write working
  | writeFails =>
      cases due : state.todo with
      | none => simp [step, due] at taken
      | some writes =>
          cases writes with
          | nil => simp [step, due] at taken
          | cons write writes =>
              simp only [step, due, Option.some.injEq] at taken
              subst taken
              exact ⟨consistent_known _ [] sound, by simp⟩
  | crash =>
      simp only [step, Option.ite_none_left_eq_some, Option.some.injEq] at taken
      obtain ⟨-, rfl⟩ := taken
      exact ⟨consistent_known _ [] sound, by simp⟩

theorem rendering_of_target (intent : NodeIntent) {target : Target} (other : target ≠ .nodeIntent) :
    ∃ write ∈ renderings intent, write.target = target := by
  cases target <;> simp [renderings] at other ⊢

/-- The writes of a round go to different files. -/
theorem later_target_ne {intent : NodeIntent} {write : Write} {writes : List Write}
    (working : Working state intent (write :: writes)) :
    ∀ later ∈ writes, later ∈ renderings intent ∧ later.target ≠ write.target := by
  obtain ⟨serialized, suffix⟩ := working.due
  have round : ((⟨.nodeIntent, serialized⟩ :: renderings intent).map Write.target).Nodup := by
    simp [renderings]
  have apart := round.sublist (suffix.sublist.map Write.target)
  rw [List.map_cons, List.nodup_cons] at apart
  have inside : ∀ later ∈ writes, later ∈ renderings intent := by
    rcases List.suffix_cons_iff.mp suffix with same | within
    · exact fun later member => by rwa [← (List.cons.inj same).2]
    · exact fun later member => within.subset (List.mem_cons_of_mem _ member)
  exact fun later member => ⟨inside later member, fun same =>
    apart.1 (List.mem_map.mpr ⟨later, member, same⟩)⟩

/-- Without the condition: behind the marker now stands neither the intent that
was in force nor the one being rendered. -/
theorem unkept_write_mixes {held intent : NodeIntent} {write : Write} {writes : List Write}
    (working : Working state intent (write :: writes)) (rendered : Rendered held state.cells)
    (other : write.target ≠ .nodeIntent) (changes : state.cells write.target ≠ some write.data)
    (unfinished : ∃ later ∈ writes, state.cells later.target ≠ some later.data) :
    ¬Rendered held (write.apply state.cells) ∧ ¬Rendered intent (write.apply state.cells) := by
  refine ⟨fun still => ?_, fun finished => ?_⟩
  · obtain ⟨rendering, member, same⟩ := rendering_of_target held other
    have before := rendered rendering member
    have after := still rendering member
    rw [same] at before after
    rw [Write.apply, Function.update_self, ← before] at after
    exact changes after.symm
  · obtain ⟨later, member, differs⟩ := unfinished
    obtain ⟨inside, apart⟩ := later_target_ne working later member
    have after := finished later inside
    rw [Write.apply, Function.update_of_ne apart] at after
    exact differs after

theorem put_step {intent : NodeIntent} {serialized : Bytes} (waiting : state.todo = some [])
    (valid : intent.validate fromPem = .ok ())
    (encoded : json.toVecPretty intent = .ok serialized) :
    step json fromPem state (.put intent) = some
      { state with
        todo := some (⟨.nodeIntent, serialized⟩ :: renderings intent)
        rendered := intent :: state.rendered } := by
  simp [step, waiting, valid, encoded]

theorem write_step {write : Write} {writes : List Write}
    (due : state.todo = some (write :: writes)) :
    step json fromPem state .write =
      some { state with cells := write.apply state.cells, todo := some writes } := by
  simp [step, due]

/-- A round that is cut after some of its writes. -/
theorem round_cut (writes : List Write) (count : Nat) (state : State)
    (due : state.todo = some writes) :
    ∃ actions next, run (step json fromPem) state actions = some next ∧
      next.cells = applyWrites (writes.take count) state.cells ∧ next.todo = some [] := by
  induction writes generalizing state count with
  | nil => exact ⟨[], state, rfl, by rw [List.take_nil]; rfl, due⟩
  | cons write writes ih =>
      cases count with
      | zero =>
          exact ⟨[.writeFails], { state with todo := some [] }, by simp [run, step, due], rfl, rfl⟩
      | succ count =>
          let later : State := { state with cells := write.apply state.cells, todo := some writes }
          obtain ⟨actions, next, reached, view, waiting⟩ := ih count later rfl
          refine ⟨.write :: actions, next, ?_, view, waiting⟩
          rw [run_cons actions (write_step due), reached]

/-- Whatever happens to a request, the machine can go the same way. -/
theorem put_config_run (intent : NodeIntent) (plan : Plan ApplyStep) (disk : Disk)
    (waiting : state.todo = some []) (view : state.cells = cells disk) :
    ∃ actions next, run (step json fromPem) state actions = some next ∧
      next.cells = cells ((putConfig json .k8s fromPem intent).run plan disk).2 ∧
        next.todo = some [] := by
  rcases put_config_cells json fromPem intent plan disk with
    ⟨same, -⟩ | ⟨serialized, count, valid, encoded, -, after⟩
  · exact ⟨[], state, rfl, view.trans same.symm, waiting⟩
  · let begun : State :=
      { state with
        todo := some (⟨.nodeIntent, serialized⟩ :: renderings intent)
        rendered := intent :: state.rendered }
    have taken := put_step waiting valid encoded
    obtain ⟨actions, next, reached, written, done⟩ := round_cut _ count begun rfl
    refine ⟨.put intent :: actions, next, by rw [run_cons actions taken, reached], ?_, done⟩
    rw [written, after, ← view]

theorem boot_reconcile_run (plan : Plan ApplyStep) (disk : Disk) (down : state.todo = none)
    (view : state.cells = cells disk) :
    ∃ actions next, run (step json fromPem) state actions = some next ∧
      next.cells = cells ((bootReconcile json .k8s fromPem).run plan disk).2 ∧
        next.todo = some [] := by
  obtain ⟨desired, count, source, after⟩ := (boot_reconcile_result json fromPem plan disk).files
  let begun : State :=
    { state with
      todo := some (bootWrites fromPem desired)
      rendered := desired.toList ++ state.rendered }
  obtain ⟨readable, taken⟩ : ∃ readable, step json fromPem state (.boot readable) = some begun := by
    cases desired with
    | none => exact ⟨false, by simp [step, down, begun]⟩
    | some intent =>
        have found : persisted json state.cells = some intent := by rw [view, source intent rfl]
        exact ⟨true, by simp [step, down, found, begun]⟩
  obtain ⟨actions, next, reached, written, done⟩ := round_cut _ count begun rfl
  refine ⟨.boot readable :: actions, next, by rw [run_cons actions taken, reached], ?_, done⟩
  rw [written, after, ← view]

end Steps

/-- `noded` not started yet, on a volume that holds these files. -/
def powerOn (cells : Cells) : State := ⟨cells, none, []⟩

/-- On a volume without a marker every run that keeps what the marker vouches
for is consistent at its end, and so at each of its steps. -/
theorem kept_run_consistent (json : IntentJson) (fromPem : FromPem) {cells : Cells}
    {actions : List Action} {final : State} (unmarked : ¬Marked cells)
    (kept : Guarded (step json fromPem) KeepsMarked (powerOn cells) actions)
    (reached : run (step json fromPem) (powerOn cells) actions = some final) :
    Consistent final := by
  have initial : Sound (powerOn cells) :=
    ⟨fun marked => absurd marked unmarked, by simp [powerOn]⟩
  have sound : Sound final := by
    refine run_preserves (fun state action next sound kept taken => ?_) initial kept reached
    exact step_preserves_sound action sound kept taken
  exact sound.consistent

section Sample

variable {json : IntentJson} {fromPem : FromPem} {state : State}

theorem unmarked_kept (unmarked : ¬Marked state.cells) (action : Action) :
    KeepsMarked state action :=
  fun _ _ _ _ _ marked => absurd marked unmarked

/-- While the marker does not exist, writing up to it is free. -/
theorem unmarked_writes_kept (writes : List Write) (last : Write)
    (others : ∀ write ∈ writes, write.target ≠ .bootstrapKubeconfig)
    (due : state.todo = some (writes ++ [last])) (unmarked : ¬Marked state.cells) :
    Guarded (step json fromPem) KeepsMarked state (List.replicate (writes.length + 1) .write) := by
  induction writes generalizing state with
  | nil => exact guarded_cons (unmarked_kept unmarked _) (write_step due) trivial
  | cons write writes ih =>
      refine guarded_cons (unmarked_kept unmarked _) (write_step due) (ih ?_ rfl ?_)
      · exact fun other member => others other (List.mem_cons_of_mem _ member)
      · exact (marked_write_iff (others write (List.mem_cons_self ..)) _).not.mpr unmarked

/-- The state after a whole round. -/
def State.configured (intent : NodeIntent) (serialized : Bytes) (state : State) : State :=
  { cells := applyWrites (⟨.nodeIntent, serialized⟩ :: renderings intent) state.cells
    todo := some []
    rendered := intent :: state.rendered }

def putActions (intent : NodeIntent) : List Action :=
  .put intent :: List.replicate 4 .write

variable {intent : NodeIntent} {serialized : Bytes}

theorem put_actions_run (waiting : state.todo = some [])
    (valid : intent.validate fromPem = .ok ())
    (encoded : json.toVecPretty intent = .ok serialized) :
    run (step json fromPem) state (putActions intent) =
      some (state.configured intent serialized) := by
  rw [putActions, run_cons _ (put_step waiting valid encoded), List.replicate,
    run_cons _ (write_step rfl), List.replicate, run_cons _ (write_step rfl), List.replicate,
    run_cons _ (write_step rfl), List.replicate, run_cons _ (write_step rfl)]
  rfl

/-- The first request on a volume without a marker. -/
theorem first_put_kept (unmarked : ¬Marked state.cells) (waiting : state.todo = some [])
    (valid : intent.validate fromPem = .ok ())
    (encoded : json.toVecPretty intent = .ok serialized) :
    Guarded (step json fromPem) KeepsMarked state (putActions intent) := by
  refine guarded_cons (unmarked_kept unmarked _) (put_step waiting valid encoded) ?_
  exact unmarked_writes_kept ((⟨.nodeIntent, serialized⟩ :: renderings intent).take 3) _
    (by simp [renderings]) rfl unmarked

/-- A volume that holds nothing, and `noded` waiting for its first request. -/
def fresh : State := ⟨fun _ => none, some [], []⟩

theorem fresh_boot : step json fromPem (powerOn fun _ => none) (.boot true) = some fresh := rfl

theorem kept_run_consistent_sample :
    Marked (fresh.configured sampleIntent (asBytes (jsonText sampleIntent))).cells ∧
      Consistent (fresh.configured sampleIntent (asBytes (jsonText sampleIntent))) := by
  have valid := sample_intent_valid
  have encoded := fixture_to_vec_pretty (Or.inl (Eq.refl sampleIntent))
  have unmarked : ¬Marked fun _ => none := fun marked => marked rfl
  have putKept : Guarded (step fixtureJson fixturePki.fromPem) KeepsMarked fresh
      (putActions sampleIntent) := first_put_kept unmarked rfl valid encoded
  have kept := guarded_cons (unmarked_kept (by exact unmarked) _) fresh_boot putKept
  refine ⟨by simp [Marked, State.configured, applyWrites, renderings, Write.apply], ?_⟩
  refine kept_run_consistent fixtureJson fixturePki.fromPem unmarked kept ?_
  rw [run_cons _ fresh_boot, put_actions_run rfl valid encoded]

theorem configured_rendered (intent : NodeIntent) (serialized : Bytes) (state : State) :
    Rendered intent (state.configured intent serialized).cells :=
  rendered_of_writes intent _

/-- Two requests that differ in their certificate authority and in their
kubeconfig: when the second is cut between these two files, they mix. -/
theorem cut_put_mixes {first second : NodeIntent} {firstJson secondJson : Bytes}
    (waiting : state.todo = some []) (unrendered : state.rendered = [])
    (validFirst : first.validate fromPem = .ok ()) (validSecond : second.validate fromPem = .ok ())
    (encodedFirst : json.toVecPretty first = .ok firstJson)
    (encodedSecond : json.toVecPretty second = .ok secondJson)
    (authorities : asBytes second.clusterCa ≠ asBytes first.clusterCa)
    (kubeconfigs : asBytes (renderBootstrapKubeconfig second) ≠
      asBytes (renderBootstrapKubeconfig first)) :
    ∃ final, run (step json fromPem) state
        (putActions first ++ [.put second, .write, .write, .crash]) = some final ∧
      Marked final.cells ∧ ¬Consistent final := by
  let begun : State :=
    { state.configured first firstJson with
      todo := some (⟨.nodeIntent, secondJson⟩ :: renderings second)
      rendered := [second, first] }
  let cut : State :=
    { begun with
      cells := (Write.mk .nodeIntent secondJson).apply begun.cells
      todo := some (renderings second) }
  let after : Cells := (Write.mk .clusterCa (asBytes second.clusterCa)).apply cut.cells
  have beginning : Working begun second (⟨.nodeIntent, secondJson⟩ :: renderings second) :=
    round_working (List.mem_cons_self ..) ⟨_, List.suffix_rfl⟩
      fun write member => List.mem_cons_of_mem _ member
  have working : Working cut second (renderings second) := working_write beginning
  have held : Rendered first cut.cells :=
    rendered_write rfl (configured_rendered first firstJson state)
  have authority := held ⟨.clusterCa, asBytes first.clusterCa⟩ (by simp [renderings])
  have server := held ⟨.bootstrapKubeconfig, asBytes (renderBootstrapKubeconfig first)⟩
    (by simp [renderings])
  have marked : Marked after :=
    (marked_write_iff (by simp) _).mpr fun absent => by cases absent.symm.trans server
  obtain ⟨notFirst, notSecond⟩ := unkept_write_mixes working held (by simp)
    (fun same => authorities (Option.some.inj (same.symm.trans authority)))
    ⟨⟨.bootstrapKubeconfig, asBytes (renderBootstrapKubeconfig second)⟩, by simp,
      fun same => kubeconfigs (Option.some.inj (same.symm.trans server))⟩
  refine ⟨⟨after, none, [second, first]⟩, ?_, marked, fun consistent => ?_⟩
  · rw [run_append, put_actions_run waiting validFirst encodedFirst, Option.bind_some,
      run_cons _ (put_step rfl validSecond encodedSecond), run_cons _ (write_step rfl),
      run_cons _ (write_step rfl), State.configured, unrendered]
    rfl
  · obtain ⟨intent, known, rendered⟩ := consistent marked
    rcases List.mem_cons.mp known with rfl | older
    · exact notSecond rendered
    · rw [List.mem_singleton.mp older] at rendered
      exact notFirst rendered

/-- The second request is cut after its second write: its certificate authority
now stands beside the first one's server and token. -/
theorem second_put_mixes :
    ∃ final, run (step fixtureJson fixturePki.fromPem) (powerOn fun _ => none)
        (.boot true :: (putActions sampleIntent ++ [.put otherIntent, .write, .write, .crash])) =
          some final ∧
      Marked final.cells ∧ ¬Consistent final := by
  have valid := sample_intent_valid
  rw [run_cons _ fresh_boot]
  exact cut_put_mixes rfl rfl valid other_intent_validates
    (fixture_to_vec_pretty (Or.inl rfl)) (fixture_to_vec_pretty (Or.inr rfl)) server_pem_ne
    sample_kubeconfig_ne

end Sample

end NodeOs.Noded.KubeletGate
