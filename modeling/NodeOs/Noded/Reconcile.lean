import NodeOs.Noded.Authorization
import NodeOs.Noded.K8sRender
import NodeOs.Noded.WriteAtomic

/-!
# `PUT /v1/config` and the boot reconciliation

Both write node files through `write_atomic`: a request persists its intent and
renders three files from it, a boot renders them from the persisted intent. In
the view of the four files each of these calls is a single cell write that
happens or does not, and a whole request or boot is a run of such writes that
is cut somewhere.
-/

namespace NodeOs.Noded.Reconcile

open NodeOs.Library.FaultPlan NodeOs.Library.FaultPlan.Proc
open NodeOs.Noded.FileSystem NodeOs.Noded.WriteAtomic NodeOs.Noded.Workload
open NodeOs.Noded.K8sRender NodeOs.Noded.Authorization

def nodeIntentPath : Path := .ofNames ["var", "lib", "nodeos", "k8s", "node-intent.json"]

/-- The files a node intent ends up in. -/
inductive Target where
  | nodeIntent
  | clusterCa
  | kubeletConfig
  | bootstrapKubeconfig
  deriving DecidableEq, Repr

def Target.path : Target → Path
  | .nodeIntent => nodeIntentPath
  | .clusterCa => clusterCaPath
  | .kubeletConfig => kubeletConfigPath
  | .bootstrapKubeconfig => bootstrapKubeconfigPath

def Target.isPrivate : Target → Bool
  | .nodeIntent => true
  | .clusterCa => false
  | .kubeletConfig => false
  | .bootstrapKubeconfig => true

/-- `serde_json` on node intents. -/
structure IntentJson where
  toVecPretty : NodeIntent → Except String Bytes
  fromSlice : Bytes → Except String NodeIntent

/-- What is written reads back as the structure it was written from. -/
def IntentJson.RoundTrip (json : IntentJson) : Prop :=
  ∀ intent bytes, json.toVecPretty intent = .ok bytes → json.fromSlice bytes = .ok intent

inductive ApplyStep where
  | readIntent
  | write (target : Target) (step : WriteStep)
  deriving DecidableEq, Repr

abbrev Apply := Proc ApplyStep Error Disk

def writeTarget (target : Target) (data : Bytes) : Apply Unit :=
  relabel (.write target) (writeAtomic target.path data target.isPrivate)

/-- `K8sProfile::reconcile`. -/
def k8sReconcile (fromPem : FromPem) (desired : Option NodeIntent) : Apply Unit :=
  match desired with
  | none => pure ()
  | some intent => do
      ofExcept ((intent.validate fromPem).mapError (context "invalid node intent"))
      mapError (context "write cluster CA")
        (writeTarget .clusterCa (asBytes intent.clusterCa))
      mapError (context "write kubelet config.yaml")
        (writeTarget .kubeletConfig (asBytes (renderKubeletConfig intent)))
      mapError (context "write bootstrap-kubeconfig")
        (writeTarget .bootstrapKubeconfig (asBytes (renderBootstrapKubeconfig intent)))

/-- `WorkloadProfile::reconcile`; the kvm profile renders nothing yet. -/
def reconcile (profile : Profile) (fromPem : FromPem) (desired : Option NodeIntent) :
    Apply Unit :=
  match profile with
  | .k8s => k8sReconcile fromPem desired
  | .kvm => pure ()

/-- An error chain as `{err:#}` prints it. -/
def alternate (error : Error) : String := ": ".intercalate error

def putConfig (json : IntentJson) (profile : Profile) (fromPem : FromPem) (intent : NodeIntent) :
    Apply Response :=
  match intent.validate fromPem with
  | .error err => pure ⟨400, s!"invalid node intent: {alternate err}\n"⟩
  | .ok () =>
      match json.toVecPretty intent with
      | .error err => pure ⟨500, s!"serialize node intent: {err}\n"⟩
      | .ok serialized => do
          match ← attempt (writeTarget .nodeIntent serialized) with
          | .error err => pure ⟨500, s!"persist node intent: {alternate err}\n"⟩
          | .ok () =>
              match ← attempt (reconcile profile fromPem (some intent)) with
              | .error err => pure ⟨500, s!"reconcile workload: {alternate err}\n"⟩
              | .ok () => pure ⟨200, "node intent applied\n"⟩

/-- A file that is absent, cannot be read or does not parse counts as no
intent. -/
def loadNodeIntent (json : IntentJson) : Apply (Option NodeIntent) := do
  let data ← attempt (step .readIntent [osError] (fun _ disk => disk) fun disk =>
    match disk.content nodeIntentPath with
    | some data => (.ok data, disk)
    | none => (.err [osError], disk))
  match data with
  | .error _ => pure none
  | .ok data =>
      match json.fromSlice data with
      | .ok intent => pure (some intent)
      | .error _ => pure none

/-- The part of `run` that brings the workload up: what was loaded, and how the
reconciliation ended. -/
def bootReconcile (json : IntentJson) (profile : Profile) (fromPem : FromPem) :
    Apply (Option NodeIntent × Except Error Unit) := do
  let persisted ← loadNodeIntent json
  let result ← attempt (reconcile profile fromPem persisted)
  pure (persisted, result)

/-- What the four files hold. -/
abbrev Cells := Target → Option Bytes

def cells (disk : Disk) : Cells := fun target => disk.content target.path

structure Write where
  target : Target
  data : Bytes
  deriving DecidableEq, Repr

def Write.apply (write : Write) (cells : Cells) : Cells :=
  Function.update cells write.target (some write.data)

def applyWrites (writes : List Write) (cells : Cells) : Cells :=
  writes.foldl (fun cells write => write.apply cells) cells

/-- The files rendered from an intent, in the order they are written. -/
def renderings (intent : NodeIntent) : List Write :=
  [ ⟨.clusterCa, asBytes intent.clusterCa⟩,
    ⟨.kubeletConfig, asBytes (renderKubeletConfig intent)⟩,
    ⟨.bootstrapKubeconfig, asBytes (renderBootstrapKubeconfig intent)⟩ ]

theorem target_path_injective : Function.Injective Target.path := by
  intro left right same
  revert same
  cases left <;> cases right <;> decide

theorem temp_path_not_target (target other : Target) :
    target.path.tempPath ≠ some other.path := by
  cases target <;> cases other <;> decide

/-- In the view of the four files `write_atomic` is a cell write, done or not
done. -/
theorem write_target_cells (target : Target) (data : Bytes) (plan : Plan ApplyStep) (disk : Disk) :
    cells ((writeTarget target data).run plan disk).2 =
      if progress target.path data (plan.at (.write target)) = .replaced then
        (Write.mk target data).apply (cells disk)
      else cells disk := by
  have content := write_atomic_content target.path data target.isPrivate
    (plan.at (.write target)) disk
  funext other
  have apart := temp_path_not_target target other
  simp only [cells, writeTarget, run_relabel, content]
  cases moved : progress target.path data (plan.at (.write target)) with
  | untouched => simp [Progress.content, cells]
  | staged bytes =>
      obtain ⟨temp, staged⟩ := progress_has_temp (by rw [moved]; simp)
      rw [staged, Ne, Option.some.injEq] at apart
      simp [Progress.content, staged, Function.update_of_ne (Ne.symm apart), cells]
  | replaced =>
      obtain ⟨temp, staged⟩ := progress_has_temp (by rw [moved]; simp)
      rw [staged, Ne, Option.some.injEq] at apart
      simp only [Progress.content, staged, Function.update_of_ne (Ne.symm apart), if_true,
        Write.apply]
      by_cases same : other = target
      · simp [same]
      · rw [Function.update_of_ne (fun paths => same (target_path_injective paths)),
          Function.update_of_ne same]
        rfl

theorem apply_writes_append (first second : List Write) (cells : Cells) :
    applyWrites (first ++ second) cells = applyWrites second (applyWrites first cells) := by
  simp [applyWrites]

/-- However a process ends, it has done a beginning of `writes`; and it has done
them all when it returns a good value. -/
def Performs {Value : Type} (process : Apply Value) (writes : List Write)
    (good : Value → Prop) : Prop :=
  ∀ plan disk, ∃ count, count ≤ writes.length ∧
    cells (process.run plan disk).2 = applyWrites (writes.take count) (cells disk) ∧
      ∀ value, (process.run plan disk).1 = .ok value → good value → count = writes.length

namespace Performs

variable {Value Other : Type} {writes more : List Write} {good : Value → Prop}
  {better : Other → Prop}

theorem ret (value : Value) : Performs (pure value : Apply Value) [] good :=
  fun _ _ => ⟨0, Nat.le_refl _, rfl, fun _ _ _ => rfl⟩

theorem ofExcept (result : Except Error Value) :
    Performs (Proc.ofExcept result : Apply Value) [] good := by
  cases result <;> exact fun _ _ => ⟨0, Nat.le_refl _, rfl, fun _ _ _ => rfl⟩

theorem write (target : Target) (data : Bytes) :
    Performs (writeTarget target data) [⟨target, data⟩] fun _ => True := by
  intro plan disk
  have written := write_atomic_result target.path data target.isPrivate
    (plan.at (.write target)) disk
  have after := write_target_cells target data plan disk
  by_cases replaced : progress target.path data (plan.at (.write target)) = .replaced
  · exact ⟨1, Nat.le_refl _, by rw [after, if_pos replaced]; rfl, fun _ _ _ => rfl⟩
  · refine ⟨0, Nat.zero_le _, by rw [after, if_neg replaced]; rfl, fun value answer _ => ?_⟩
    exact absurd (written.returned.mp answer).1 replaced

theorem mapError {process : Apply Value} (change : Error → Error)
    (inner : Performs process writes good) :
    Performs (Proc.mapError change process) writes good := by
  intro plan disk
  obtain ⟨count, bound, after, full⟩ := inner plan disk
  rw [run_mapError]
  cases ran : process.run plan disk with
  | mk outcome later =>
      rw [ran] at after full
      cases outcome with
      | ok value => exact ⟨count, bound, after, full⟩
      | err error => exact ⟨count, bound, after, by simp⟩
      | killed => exact ⟨count, bound, after, by simp⟩

theorem attempt {process : Apply Value} (inner : Performs process writes good) :
    Performs (Proc.attempt process) writes fun result => ∃ value, result = .ok value ∧
      good value := by
  intro plan disk
  obtain ⟨count, bound, after, full⟩ := inner plan disk
  rw [run_attempt]
  cases ran : process.run plan disk with
  | mk outcome later =>
      rw [ran] at after full
      cases outcome with
      | ok value =>
          refine ⟨count, bound, after, ?_⟩
          rintro _ answer ⟨inside, rfl, fine⟩
          cases answer
          exact full value rfl fine
      | err error =>
          refine ⟨count, bound, after, ?_⟩
          rintro _ answer ⟨inside, rfl, -⟩
          cases answer
      | killed => exact ⟨count, bound, after, by simp⟩

/-- After a good value the process goes on; after a bad one it returns a bad
one. -/
theorem bind {first : Apply Value} {next : Value → Apply Other}
    (head : Performs first writes good)
    (tail : ∀ value, good value → Performs (next value) more better)
    (stop : ∀ value, ¬good value → ∃ other, next value = pure other ∧ ¬better other) :
    Performs (first >>= next) (writes ++ more) better := by
  intro plan disk
  obtain ⟨count, bound, after, full⟩ := head plan disk
  have front : (writes ++ more).take count = writes.take count := by
    rw [List.take_append_of_le_length bound]
  have short : count ≤ (writes ++ more).length := by
    rw [List.length_append]
    omega
  rw [run_bind]
  cases ran : first.run plan disk with
  | mk outcome later =>
      rw [ran] at after full
      cases outcome with
      | err error => exact ⟨count, short, by rw [front]; exact after, by simp⟩
      | killed => exact ⟨count, short, by rw [front]; exact after, by simp⟩
      | ok value =>
          by_cases fine : good value
          · obtain ⟨count', bound', after', full'⟩ := tail value fine plan later
            refine ⟨writes.length + count', ?_, ?_, fun other answer better => ?_⟩
            · rw [List.length_append]
              omega
            · rw [full value rfl fine, List.take_length] at after
              simp only at after
              simp only [List.take_length_add_append, apply_writes_append, after', after]
            · rw [List.length_append, full' other answer better]
          · obtain ⟨other, same, bad⟩ := stop value fine
            simp only [same, run_pure]
            refine ⟨count, short, by rw [front]; exact after, fun answer returned better => ?_⟩
            cases returned
            exact absurd better bad

/-- Plain sequencing. -/
theorem andThen {first : Apply Value} {next : Value → Apply Other}
    (head : Performs first writes fun _ => True)
    (tail : ∀ value, Performs (next value) more better) :
    Performs (first >>= next) (writes ++ more) better :=
  bind head (fun value _ => tail value) fun _ wrong => absurd trivial wrong

end Performs

/-- A valid intent is rendered file by file. -/
theorem k8s_reconcile_performs {fromPem : FromPem} {intent : NodeIntent}
    (valid : intent.validate fromPem = .ok ()) :
    Performs (k8sReconcile fromPem (some intent)) (renderings intent) fun _ => True := by
  rw [k8sReconcile, valid]
  exact .andThen (.ofExcept _) fun _ =>
    .andThen (.mapError _ (.write _ _)) fun _ =>
    .andThen (.mapError _ (.write _ _)) fun _ => .mapError _ (.write _ _)

theorem put_config_performs {json : IntentJson} {fromPem : FromPem} {intent : NodeIntent}
    {serialized : Bytes} (valid : intent.validate fromPem = .ok ())
    (encoded : json.toVecPretty intent = .ok serialized) :
    Performs (putConfig json .k8s fromPem intent)
      (⟨.nodeIntent, serialized⟩ :: renderings intent) fun response => response.status = 200 := by
  rw [putConfig, valid, encoded]
  show Performs _ ([⟨.nodeIntent, serialized⟩] ++ (renderings intent ++ [])) _
  refine .bind (.attempt (.write _ _)) ?_ ?_
  · rintro _ ⟨value, rfl, -⟩
    refine .bind (.attempt (k8s_reconcile_performs valid)) ?_ ?_
    · rintro _ ⟨value, rfl, -⟩
      exact .ret _
    · rintro (error | value) bad
      · exact ⟨_, rfl, by simp⟩
      · exact absurd ⟨value, rfl, trivial⟩ bad
  · rintro (error | value) bad
    · exact ⟨_, rfl, by simp⟩
    · exact absurd ⟨value, rfl, trivial⟩ bad

/-- A request that is turned down before anything is persisted. -/
theorem put_config_refused (json : IntentJson) (profile : Profile) (fromPem : FromPem)
    (intent : NodeIntent)
    (refused : (∃ err, intent.validate fromPem = .error err) ∨
      ∃ err, json.toVecPretty intent = .error err) :
    ∃ response : Response, putConfig json profile fromPem intent = pure response ∧
      response.status ≠ 200 := by
  rw [putConfig]
  cases checked : intent.validate fromPem with
  | error err => exact ⟨_, rfl, by simp⟩
  | ok passed =>
      rcases refused with ⟨err, invalid⟩ | ⟨err, broken⟩
      · simp [checked] at invalid
      · simp only [broken]
        exact ⟨_, rfl, by simp⟩

theorem apply_writes_mem (writes : List Write) (before : Cells) (target : Target) :
    applyWrites writes before target = before target ∨
      ∃ write ∈ writes, write.target = target ∧
        applyWrites writes before target = some write.data := by
  induction writes generalizing before with
  | nil => exact Or.inl rfl
  | cons write writes ih =>
      rcases ih (write.apply before) with kept | ⟨later, member, same, data⟩
      · by_cases own : write.target = target
        · refine Or.inr ⟨write, by simp, own, kept.trans ?_⟩
          rw [Write.apply, own, Function.update_self]
        · exact Or.inl (kept.trans (Function.update_of_ne (Ne.symm own) ..))
      · exact Or.inr ⟨later, List.mem_cons_of_mem _ member, same, data⟩

theorem apply_writes_frame {writes : List Write} {target : Target} (before : Cells)
    (absent : ∀ write ∈ writes, write.target ≠ target) :
    applyWrites writes before target = before target := by
  rcases apply_writes_mem writes before target with kept | ⟨write, member, same, -⟩
  · exact kept
  · exact absurd same (absent write member)

theorem renderings_target (intent : NodeIntent) :
    ∀ write ∈ renderings intent, write.target ≠ .nodeIntent := by
  simp [renderings]

/-- The three rendered files are those of the intent. -/
def Rendered (intent : NodeIntent) (cells : Cells) : Prop :=
  ∀ write ∈ renderings intent, cells write.target = some write.data

theorem rendered_of_writes (intent : NodeIntent) (before : Cells) :
    Rendered intent (applyWrites (renderings intent) before) := by
  simp [Rendered, renderings, applyWrites, Write.apply, Function.update_apply]

/-- The intent a reader of the file gets. -/
def persisted (json : IntentJson) (cells : Cells) : Option NodeIntent :=
  (cells .nodeIntent).bind fun bytes => (json.fromSlice bytes).toOption

/-- Loading changes nothing, and finds only what the file holds. -/
theorem load_node_intent_result (json : IntentJson) (plan : Plan ApplyStep) (disk : Disk) :
    ((loadNodeIntent json).run plan disk).2 = disk ∧
      ∀ intent, ((loadNodeIntent json).run plan disk).1 = .ok (some intent) →
        persisted json (cells disk) = some intent := by
  rw [loadNodeIntent, run_bind, run_attempt, run_step]
  cases plan .readIntent with
  | fails extent => simp
  | killed extent => simp
  | done =>
      cases held : disk.content nodeIntentPath with
      | none => simp
      | some data =>
          have view : cells disk .nodeIntent = some data := held
          cases parsed : json.fromSlice data <;>
            simp [persisted, view, parsed, Except.toOption]

/-- What a boot renders from what it loaded. -/
def bootWrites (fromPem : FromPem) (desired : Option NodeIntent) : List Write :=
  match desired with
  | none => []
  | some intent =>
      match intent.validate fromPem with
      | .error _ => []
      | .ok () => renderings intent

theorem boot_writes_cases (fromPem : FromPem) (desired : Option NodeIntent) :
    bootWrites fromPem desired = [] ∨ ∃ intent, desired = some intent ∧
      intent.validate fromPem = .ok () ∧ bootWrites fromPem desired = renderings intent := by
  cases desired with
  | none => exact Or.inl rfl
  | some intent =>
      cases checked : intent.validate fromPem with
      | error err => exact Or.inl (by rw [bootWrites, checked])
      | ok passed => exact Or.inr ⟨intent, rfl, checked, by rw [bootWrites, checked]⟩

theorem k8s_reconcile_desired_performs (fromPem : FromPem) (desired : Option NodeIntent) :
    Performs (k8sReconcile fromPem desired) (bootWrites fromPem desired) fun _ => True := by
  cases desired with
  | none => exact .ret _
  | some intent =>
      cases checked : intent.validate fromPem with
      | ok passed =>
          rw [bootWrites, checked]
          exact k8s_reconcile_performs checked
      | error err =>
          rw [bootWrites, checked, k8sReconcile, checked]
          exact fun _ _ => ⟨0, Nat.le_refl _, rfl, fun _ _ _ => rfl⟩

theorem k8s_reconcile_ok_valid {fromPem : FromPem} {intent : NodeIntent} (plan : Plan ApplyStep)
    (disk : Disk) (value : Unit)
    (answer : ((k8sReconcile fromPem (some intent)).run plan disk).1 = .ok value) :
    intent.validate fromPem = .ok () := by
  cases checked : intent.validate fromPem with
  | ok passed => rfl
  | error err =>
      rw [k8sReconcile, checked] at answer
      cases answer

/-- Everything a boot can do to the four files. -/
structure BootResult (json : IntentJson) (fromPem : FromPem) (disk : Disk)
    (result : Outcome Error (Option NodeIntent × Except Error Unit) × Disk) : Prop where
  files : ∃ desired count, (∀ intent, desired = some intent →
      persisted json (cells disk) = some intent) ∧
    cells result.2 = applyWrites ((bootWrites fromPem desired).take count) (cells disk)
  reconciled : ∀ intent, result.1 = .ok (some intent, .ok ()) →
    persisted json (cells disk) = some intent ∧ intent.validate fromPem = .ok () ∧
      cells result.2 = applyWrites (renderings intent) (cells disk)

theorem boot_reconcile_result (json : IntentJson) (fromPem : FromPem) (plan : Plan ApplyStep)
    (disk : Disk) :
    BootResult json fromPem disk ((bootReconcile json .k8s fromPem).run plan disk) := by
  obtain ⟨kept, found⟩ := load_node_intent_result json plan disk
  rw [bootReconcile, run_bind]
  cases loaded : (loadNodeIntent json).run plan disk with
  | mk outcome later =>
      rw [loaded] at kept found
      obtain rfl : later = disk := kept
      cases outcome with
      | err error => exact ⟨⟨none, 0, by simp, rfl⟩, by simp⟩
      | killed => exact ⟨⟨none, 0, by simp, rfl⟩, by simp⟩
      | ok desired =>
          obtain ⟨count, -, after, full⟩ :=
            k8s_reconcile_desired_performs fromPem desired plan later
          have source : ∀ intent, desired = some intent →
              persisted json (cells later) = some intent := fun intent same =>
            found intent (by rw [same])
          simp only [run_bind, run_attempt, reconcile]
          cases ran : (k8sReconcile fromPem desired).run plan later with
          | mk answer final =>
              rw [ran] at after full
              cases answer with
              | err error => exact ⟨⟨desired, count, source, after⟩, by simp⟩
              | killed => exact ⟨⟨desired, count, source, after⟩, by simp⟩
              | ok value =>
                  refine ⟨⟨desired, count, source, after⟩, fun intent same => ?_⟩
                  simp only [run_pure, Outcome.ok.injEq, Prod.mk.injEq] at same
                  have valid : intent.validate fromPem = .ok () := by
                    refine k8s_reconcile_ok_valid plan later value ?_
                    rw [← same.1, ran]
                  have all := full value rfl trivial
                  rw [all, List.take_length, same.1, bootWrites, valid] at after
                  exact ⟨source intent same.1, valid, after⟩

section Runs

variable (json : IntentJson) (fromPem : FromPem)

/-- A request or a boot, with what befalls it. A crash is a plan that kills the
process; the next event is then a boot. -/
inductive Event where
  | put (intent : NodeIntent) (plan : Plan ApplyStep)
  | boot (plan : Plan ApplyStep)

/-- A request and the status it was answered with, if it was. -/
structure Attempted where
  intent : NodeIntent
  status : Option Nat

/-- `puts` is the history of requests, the latest first. -/
structure Node where
  disk : Disk
  puts : List Attempted

def statusOf : Outcome Error Response → Option Nat
  | .ok response => some response.status
  | _ => none

def Event.run (event : Event) (node : Node) : Node :=
  match event with
  | .put intent plan =>
      let result := (putConfig json .k8s fromPem intent).run plan node.disk
      ⟨result.2, ⟨intent, statusOf result.1⟩ :: node.puts⟩
  | .boot plan => ⟨((bootReconcile json .k8s fromPem).run plan node.disk).2, node.puts⟩

def runEvents (events : List Event) (node : Node) : Node :=
  events.foldl (fun node event => event.run json fromPem node) node

/-- The last intent answered 200 and the later ones that passed validation. -/
def candidates : List Attempted → List NodeIntent
  | [] => []
  | put :: older =>
      if put.status = some 200 then [put.intent]
      else if put.intent.validate fromPem = .ok () then put.intent :: candidates older
      else candidates older

def Acknowledged (puts : List Attempted) : Prop := ∃ put ∈ puts, put.status = some 200

/-- The persisted intent is a candidate, and every rendered file is as it was at
the start or comes from a valid intent. -/
structure Sound (initial : Disk) (node : Node) : Prop where
  acknowledged : Acknowledged node.puts → ∃ intent ∈ candidates fromPem node.puts,
    ∃ bytes, cells node.disk .nodeIntent = some bytes ∧ json.toVecPretty intent = .ok bytes
  rendered : ∀ target, target ≠ .nodeIntent → cells node.disk target = cells initial target ∨
    ∃ intent, intent.validate fromPem = .ok () ∧ ∃ write ∈ renderings intent,
      write.target = target ∧ cells node.disk target = some write.data

variable {json fromPem} {initial : Disk} {node : Node}

/-- A request in the view of the four files: turned down without a trace, or cut
somewhere in its four writes. -/
theorem put_config_cells (json : IntentJson) (fromPem : FromPem) (intent : NodeIntent)
    (plan : Plan ApplyStep) (disk : Disk) :
    (cells ((putConfig json .k8s fromPem intent).run plan disk).2 = cells disk ∧
        statusOf ((putConfig json .k8s fromPem intent).run plan disk).1 ≠ some 200) ∨
      ∃ serialized count, intent.validate fromPem = .ok () ∧
        json.toVecPretty intent = .ok serialized ∧ 0 < count ∧
        cells ((putConfig json .k8s fromPem intent).run plan disk).2 =
          applyWrites ((⟨.nodeIntent, serialized⟩ :: renderings intent).take count)
            (cells disk) := by
  cases checked : intent.validate fromPem with
  | error err =>
      obtain ⟨response, same, bad⟩ :=
        put_config_refused json .k8s fromPem intent (Or.inl ⟨err, checked⟩)
      rw [same]
      exact Or.inl ⟨rfl, by simpa [statusOf] using bad⟩
  | ok passed =>
  cases encoded : json.toVecPretty intent with
  | error err =>
      obtain ⟨response, same, bad⟩ :=
        put_config_refused json .k8s fromPem intent (Or.inr ⟨err, encoded⟩)
      rw [same]
      exact Or.inl ⟨rfl, by simpa [statusOf] using bad⟩
  | ok serialized =>
      obtain ⟨count, bound, after, full⟩ := put_config_performs checked encoded plan disk
      rcases Nat.eq_zero_or_pos count with rfl | started
      · refine Or.inl ⟨after, fun answered => ?_⟩
        cases outcome : ((putConfig json .k8s fromPem intent).run plan disk).1 with
        | err error => simp [outcome, statusOf] at answered
        | killed => simp [outcome, statusOf] at answered
        | ok response =>
            rw [outcome] at answered
            have all := full response outcome (by simpa [statusOf] using answered)
            simp at all
      · exact Or.inr ⟨serialized, count, rfl, rfl, started, after⟩

theorem first_write_persists {serialized : Bytes} {intent : NodeIntent} {count : Nat}
    (before : Cells) (started : 0 < count) :
    applyWrites ((⟨.nodeIntent, serialized⟩ :: renderings intent).take count) before .nodeIntent =
      some serialized := by
  obtain ⟨rest, rfl⟩ : ∃ rest, count = rest + 1 := ⟨count - 1, by omega⟩
  rw [List.take_succ_cons]
  refine (apply_writes_frame ((Write.mk .nodeIntent serialized).apply before) ?_).trans
    (Function.update_self ..)
  exact fun write member => renderings_target _ write (List.mem_of_mem_take member)

theorem candidates_cons_subset (put : Attempted) (older : List Attempted)
    (unanswered : put.status ≠ some 200) :
    ∀ intent ∈ candidates fromPem older, intent ∈ candidates fromPem (put :: older) := by
  intro intent member
  rw [candidates, if_neg unanswered]
  split
  · exact List.mem_cons_of_mem _ member
  · exact member

theorem candidates_head (put : Attempted) (older : List Attempted)
    (valid : put.intent.validate fromPem = .ok ()) :
    put.intent ∈ candidates fromPem (put :: older) := by
  rw [candidates]
  split <;> simp

/-- Writes of renderings of a valid intent keep the rendered files sound. -/
theorem rendered_sound {intent : NodeIntent} {writes : List Write} {after : Cells}
    (valid : intent.validate fromPem = .ok ())
    (source : ∀ write ∈ writes, write.target ≠ .nodeIntent → write ∈ renderings intent)
    (sound : Sound json fromPem initial node) (same : after = applyWrites writes (cells node.disk))
    (target : Target) (rendered : target ≠ .nodeIntent) :
    after target = cells initial target ∨ ∃ intent, intent.validate fromPem = .ok () ∧
      ∃ write ∈ renderings intent, write.target = target ∧ after target = some write.data := by
  rw [same]
  rcases apply_writes_mem writes (cells node.disk) target with kept | ⟨write, member, own, data⟩
  · rw [kept]
    exact sound.rendered target rendered
  · exact Or.inr ⟨intent, valid, write, source write member (by rwa [own]), own, data⟩

theorem put_preserves_sound (intent : NodeIntent) (plan : Plan ApplyStep)
    (sound : Sound json fromPem initial node) :
    Sound json fromPem initial ((Event.put intent plan).run json fromPem node) := by
  rcases put_config_cells json fromPem intent plan node.disk with
    ⟨same, refused⟩ | ⟨serialized, count, valid, encoded, started, after⟩
  · refine ⟨fun ⟨put, member, answered⟩ => ?_, fun target rendered => ?_⟩
    · rcases List.mem_cons.mp member with rfl | older
      · exact absurd answered refused
      · obtain ⟨held, candidate, bytes, content, encoded⟩ :=
          sound.acknowledged ⟨put, older, answered⟩
        exact ⟨held, candidates_cons_subset _ _ refused held candidate, bytes,
          (congrFun same _).trans content, encoded⟩
    · have kept := congrFun same target
      simp only [Event.run, kept]
      exact sound.rendered target rendered
  · refine ⟨fun _ => ⟨intent, candidates_head _ _ valid, serialized, ?_, encoded⟩, ?_⟩
    · exact (congrFun after _).trans (first_write_persists _ started)
    · refine rendered_sound valid (fun write member other => ?_) sound after
      rcases List.mem_cons.mp (List.mem_of_mem_take member) with rfl | inside
      · exact absurd rfl other
      · exact inside

theorem boot_preserves_sound (plan : Plan ApplyStep) (sound : Sound json fromPem initial node) :
    Sound json fromPem initial ((Event.boot plan).run json fromPem node) := by
  obtain ⟨desired, count, -, after⟩ :=
    (boot_reconcile_result json fromPem plan node.disk).files
  rcases boot_writes_cases fromPem desired with none | ⟨intent, -, valid, writes⟩
  · have same : cells ((bootReconcile json .k8s fromPem).run plan node.disk).2 =
        cells node.disk := by
      rw [after, none, List.take_nil]
      rfl
    refine ⟨fun acknowledged => ?_, fun target rendered => ?_⟩
    · obtain ⟨held, candidate, bytes, content, encoded⟩ := sound.acknowledged acknowledged
      exact ⟨held, candidate, bytes, (congrFun same _).trans content, encoded⟩
    · simp only [Event.run, congrFun same target]
      exact sound.rendered target rendered
  · rw [writes] at after
    refine ⟨fun acknowledged => ?_, ?_⟩
    · obtain ⟨held, candidate, bytes, content, encoded⟩ := sound.acknowledged acknowledged
      have frame := apply_writes_frame (cells node.disk) fun write member =>
        renderings_target intent write (List.mem_of_mem_take (i := count) member)
      exact ⟨held, candidate, bytes, (congrFun after _).trans (frame.trans content), encoded⟩
    · exact rendered_sound valid (fun write member _ => List.mem_of_mem_take member) sound after

theorem run_preserves_sound (events : List Event) (node : Node)
    (sound : Sound json fromPem initial node) :
    Sound json fromPem initial (runEvents json fromPem events node) := by
  induction events generalizing node with
  | nil => exact sound
  | cons event events ih =>
      apply ih
      cases event with
      | put intent plan => exact put_preserves_sound intent plan sound
      | boot plan => exact boot_preserves_sound plan sound

theorem initially_sound (initial : Disk) : Sound json fromPem initial ⟨initial, []⟩ where
  acknowledged := by
    rintro ⟨put, member, -⟩
    cases member
  rendered := fun _ _ => Or.inl rfl

/-- After any history: a boot that reconciles what it loaded leaves exactly its
renderings; the persisted intent is the last one acknowledged or a later valid
one; and no rejected intent reaches a rendered file. -/
theorem node_intent_converges (json : IntentJson) (roundTrip : json.RoundTrip)
    (fromPem : FromPem) (initial : Disk) (events : List Event) :
    let node := runEvents json fromPem events ⟨initial, []⟩
    (∀ plan intent,
        ((bootReconcile json .k8s fromPem).run plan node.disk).1 = .ok (some intent, .ok ()) →
          let after := cells ((bootReconcile json .k8s fromPem).run plan node.disk).2
          persisted json after = some intent ∧ Rendered intent after) ∧
      (Acknowledged node.puts → ∃ intent ∈ candidates fromPem node.puts,
        persisted json (cells node.disk) = some intent) ∧
      (∀ target, target ≠ .nodeIntent → cells node.disk target = cells initial target ∨
        ∃ intent, intent.validate fromPem = .ok () ∧ ∃ write ∈ renderings intent,
          write.target = target ∧ cells node.disk target = some write.data) := by
  intro node
  have sound : Sound json fromPem initial node :=
    run_preserves_sound events ⟨initial, []⟩ (initially_sound initial)
  refine ⟨fun plan intent answer => ?_, fun acknowledged => ?_, sound.rendered⟩
  · obtain ⟨source, -, after⟩ :=
      (boot_reconcile_result json fromPem plan node.disk).reconciled intent answer
    have frame := apply_writes_frame (cells node.disk) (renderings_target intent)
    refine ⟨?_, ?_⟩
    · rw [persisted, after, frame]
      exact source
    · rw [after]
      exact rendered_of_writes intent _
  · obtain ⟨intent, candidate, bytes, content, encoded⟩ := sound.acknowledged acknowledged
    refine ⟨intent, candidate, ?_⟩
    rw [persisted, content, Option.bind_some, roundTrip intent bytes encoded]
    rfl

end Runs

/-- A character in a JSON string, as `serde_json` escapes it. -/
def jsonChar (char : Char) : List Char :=
  if char = '"' then ['\\', '"']
  else if char = '\\' then ['\\', '\\']
  else if char = '\n' then ['\\', 'n']
  else if char = '\r' then ['\\', 'r']
  else if char = '\t' then ['\\', 't']
  else if char = Char.ofNat 8 then ['\\', 'b']
  else if char = Char.ofNat 12 then ['\\', 'f']
  else if char.toNat < 32 then
    "\\u00".toList ++ [Nat.digitChar (char.toNat / 16), Nat.digitChar (char.toNat % 16)]
  else [char]

def jsonString (text : String) : String :=
  "\"" ++ String.ofList (text.toList.flatMap jsonChar) ++ "\""

def jsonList : List String → String
  | [] => "[]"
  | texts => "[\n    " ++ ",\n    ".intercalate (texts.map jsonString) ++ "\n  ]"

/-- The fields after the first. -/
def jsonRest (intent : NodeIntent) : String :=
  ",\n  \"clusterCa\": " ++ jsonString intent.clusterCa ++
    ",\n  \"bootstrapToken\": " ++ jsonString intent.bootstrapToken ++
    ",\n  \"clusterDns\": " ++ jsonList intent.clusterDns ++
    ",\n  \"clusterDomain\": " ++ jsonString intent.clusterDomain ++
    ",\n  \"nodeLabels\": " ++ jsonList intent.nodeLabels ++
    ",\n  \"nodeTaints\": " ++ jsonList intent.nodeTaints ++ "\n\x7d"

/-- The text `serde_json::to_vec_pretty` makes of an intent. -/
def jsonText (intent : NodeIntent) : String :=
  "\x7b\n  \"apiServer\": " ++ (jsonString intent.apiServer ++ jsonRest intent)

/-- `serde_json`, as far as the two sample intents go. -/
def fixtureJson : IntentJson where
  toVecPretty intent :=
    if intent = sampleIntent ∨ intent = otherIntent then .ok (asBytes (jsonText intent))
    else .error "no such fixture"
  fromSlice bytes :=
    if bytes = asBytes (jsonText sampleIntent) then .ok sampleIntent
    else if bytes = asBytes (jsonText otherIntent) then .ok otherIntent
    else .error "no such fixture"

section Sample

theorem as_bytes_json_string (text rest : String) :
    asBytes (jsonString text ++ rest) =
      asBytes "\"" ++ ((text.toList.flatMap jsonChar).flatMap String.utf8EncodeChar ++
        (asBytes "\"" ++ asBytes rest)) := by
  simp [jsonString, asBytes]

theorem as_bytes_json_text (intent : NodeIntent) :
    asBytes (jsonText intent) =
      asBytes "\x7b\n  \"apiServer\": " ++ (asBytes "\"" ++
        ((intent.apiServer.toList.flatMap jsonChar).flatMap String.utf8EncodeChar ++
          (asBytes "\"" ++ asBytes (jsonRest intent)))) :=
  (as_bytes_append _ _).trans (congrArg _ (as_bytes_json_string _ _))

theorem sample_json_ne : asBytes (jsonText otherIntent) ≠ asBytes (jsonText sampleIntent) := by
  intro same
  rw [as_bytes_json_text otherIntent, as_bytes_json_text sampleIntent] at same
  have servers := List.append_inj_left
    (List.append_cancel_left (List.append_cancel_left same)) (by decide)
  exact absurd servers (by decide)

theorem fixture_from_slice_sample {bytes : Bytes} (same : bytes = asBytes (jsonText sampleIntent)) :
    fixtureJson.fromSlice bytes = .ok sampleIntent :=
  if_pos same

theorem fixture_from_slice_other {bytes : Bytes} (same : bytes = asBytes (jsonText otherIntent))
    (other : bytes ≠ asBytes (jsonText sampleIntent)) :
    fixtureJson.fromSlice bytes = .ok otherIntent :=
  (if_neg other).trans (if_pos same)

theorem fixture_to_vec_pretty {intent : NodeIntent}
    (known : intent = sampleIntent ∨ intent = otherIntent) :
    fixtureJson.toVecPretty intent = .ok (asBytes (jsonText intent)) :=
  if_pos known

theorem fixture_json_round_trip : fixtureJson.RoundTrip := by
  intro intent bytes encoded
  by_cases known : intent = sampleIntent ∨ intent = otherIntent
  · rw [fixture_to_vec_pretty known] at encoded
    rcases known with rfl | rfl
    · exact fixture_from_slice_sample (Except.ok.inj encoded).symm
    · exact fixture_from_slice_other (Except.ok.inj encoded).symm
        (by rw [← Except.ok.inj encoded]; exact sample_json_ne)
  · simp [fixtureJson, known] at encoded

/-- One request on an empty disk. -/
def sampleRun : Node :=
  runEvents fixtureJson fixturePki.fromPem [.put sampleIntent Plan.allDone] ⟨Disk.empty, []⟩

theorem node_intent_converges_sample :
    fixtureJson.RoundTrip ∧ (Acknowledged sampleRun.puts →
      ∃ intent ∈ candidates fixturePki.fromPem sampleRun.puts,
        persisted fixtureJson (cells sampleRun.disk) = some intent) := by
  obtain ⟨-, acknowledged, -⟩ := node_intent_converges fixtureJson fixture_json_round_trip
    fixturePki.fromPem Disk.empty [.put sampleIntent Plan.allDone]
  exact ⟨fixture_json_round_trip, acknowledged⟩

end Sample

end NodeOs.Noded.Reconcile
