import Mathlib.Data.List.Induction
import NodeOs.Library.Machine
import NodeOs.Noded.Reconcile

/-!
# Concurrent `PUT /v1/config` requests

Each connection has a task of its own, and no lock is held from the persisted
intent to the last rendering. A request that succeeds is four cell writes; the
scheduler picks whose write comes next. Every request writes the four files in
the same order, so the schedule alone says who writes each file last.
-/

namespace NodeOs.Noded.ConcurrentPut

open NodeOs.Library.FaultPlan NodeOs.Library.Machine
open NodeOs.Noded NodeOs.Noded.FileSystem NodeOs.Noded.Workload NodeOs.Noded.K8sRender
open NodeOs.Noded.Reconcile NodeOs.Noded.Authorization

/-- A request that passes its checks. -/
structure PutRequest (json : IntentJson) (fromPem : FromPem) where
  intent : NodeIntent
  serialized : Bytes
  valid : intent.validate fromPem = .ok ()
  encoded : json.toVecPretty intent = .ok serialized

section Schedules

variable {json : IntentJson} {fromPem : FromPem}

/-- The place of a file in the order of the writes. -/
def turn : Target → Nat
  | .nodeIntent => 0
  | .clusterCa => 1
  | .kubeletConfig => 2
  | .bootstrapKubeconfig => 3

def PutRequest.data (request : PutRequest json fromPem) : Target → Bytes
  | .nodeIntent => request.serialized
  | .clusterCa => asBytes request.intent.clusterCa
  | .kubeletConfig => asBytes (renderKubeletConfig request.intent)
  | .bootstrapKubeconfig => asBytes (renderBootstrapKubeconfig request.intent)

def PutRequest.writes (request : PutRequest json fromPem) : List Write :=
  ⟨.nodeIntent, request.serialized⟩ :: renderings request.intent

/-- `due` holds what each request still has to write. -/
structure State where
  cells : Cells
  due : Nat → List Write

def step (state : State) (request : Nat) : Option State :=
  match state.due request with
  | [] => none
  | write :: writes =>
      some ⟨write.apply state.cells, Function.update state.due request writes⟩

def writesOf (requests : List (PutRequest json fromPem)) (request : Nat) : List Write :=
  (requests[request]?.map PutRequest.writes).getD []

def start (requests : List (PutRequest json fromPem)) (cells : Cells) : State :=
  ⟨cells, writesOf requests⟩

/-- No request is in flight. -/
def Quiet (state : State) : Prop := ∀ request, state.due request = []

/-- The persisted intent and the rendered files are of one intent. -/
def Agreement (json : IntentJson) (cells : Cells) : Prop :=
  ∃ intent, persisted json cells = some intent ∧ Rendered intent cells

/-- The last entry of a schedule, latest entry first, that is the `number`-th
turn of its request. -/
def latestTurn (number : Nat) : List Nat → Option Nat
  | [] => none
  | request :: earlier =>
      if earlier.count request = number then some request else latestTurn number earlier

/-- Who writes the file last. -/
def lastWriter (schedule : List Nat) (target : Target) : Option Nat :=
  latestTurn (turn target) schedule.reverse

theorem last_writer_snoc (schedule : List Nat) (request : Nat) (target : Target) :
    lastWriter (schedule ++ [request]) target =
      if schedule.count request = turn target then some request
      else lastWriter schedule target := by
  simp [lastWriter, latestTurn]

theorem writes_get (request : PutRequest json fromPem) {number : Nat} {write : Write}
    (next : request.writes[number]? = some write) :
    turn write.target = number ∧ write.data = request.data write.target := by
  rcases number with _ | _ | _ | _ | number
  all_goals
    simp only [PutRequest.writes, renderings, List.getElem?_cons_zero, List.getElem?_cons_succ,
      List.getElem?_nil, Option.some.injEq, reduceCtorEq] at next
  all_goals
    subst next
    exact ⟨rfl, rfl⟩

theorem turn_lt (target : Target) : turn target < 4 := by
  cases target <;> decide

theorem turn_injective : Function.Injective turn := by
  intro left right
  cases left <;> cases right <;> decide

theorem step_eq_some {state next : State} {request : Nat} (taken : step state request = some next) :
    ∃ write writes, state.due request = write :: writes ∧
      next = ⟨write.apply state.cells, Function.update state.due request writes⟩ := by
  rw [step] at taken
  cases due : state.due request with
  | nil => simp [due] at taken
  | cons write writes =>
      rw [due] at taken
      exact ⟨write, writes, rfl, (Option.some.inj taken).symm⟩

variable {requests : List (PutRequest json fromPem)} {cells : Cells} {schedule : List Nat}
  {state next final : State}

/-- After a schedule: what is still due, and whom each file is from. -/
structure Tracks (requests : List (PutRequest json fromPem)) (cells : Cells) (schedule : List Nat)
    (state : State) : Prop where
  due : ∀ request, state.due request = (writesOf requests request).drop (schedule.count request)
  files : ∀ target, (lastWriter schedule target = none ∧ state.cells target = cells target) ∨
    ∃ writer request, lastWriter schedule target = some writer ∧
      requests[writer]? = some request ∧ state.cells target = some (request.data target)

theorem start_tracks : Tracks requests cells [] (start requests cells) where
  due _ := rfl
  files _ := Or.inl ⟨rfl, rfl⟩

/-- The write a request is due to make is the one of its next turn. -/
theorem due_write {writer : Nat} {write : Write} {writes : List Write}
    (tracks : Tracks requests cells schedule state) (due : state.due writer = write :: writes) :
    ∃ request, requests[writer]? = some request ∧ schedule.count writer = turn write.target ∧
      write.data = request.data write.target := by
  have place : (writesOf requests writer)[schedule.count writer]? = some write := by
    have front := congrArg List.head? (tracks.due writer)
    rwa [due, List.head?_cons, List.head?_drop, eq_comm] at front
  cases found : requests[writer]? with
  | none => simp [writesOf, found] at place
  | some request =>
      rw [writesOf, found] at place
      obtain ⟨place, data⟩ := writes_get request place
      exact ⟨request, rfl, place.symm, data⟩

theorem step_tracks {writer : Nat} (tracks : Tracks requests cells schedule state)
    (taken : step state writer = some next) :
    Tracks requests cells (schedule ++ [writer]) next := by
  obtain ⟨write, writes, due, rfl⟩ := step_eq_some taken
  obtain ⟨request, found, place, data⟩ := due_write tracks due
  refine ⟨fun other => ?_, fun target => ?_⟩
  · show Function.update state.due writer writes other = _
    by_cases same : other = writer
    · have rest := congrArg List.tail (tracks.due writer)
      rw [due, List.tail_cons, List.tail_drop] at rest
      rw [same, Function.update_self, rest, List.count_append, List.count_singleton_self]
    · rw [Function.update_of_ne same, tracks.due other, List.count_append,
        List.count_singleton, if_neg (by simpa using Ne.symm same), Nat.add_zero]
  · show (_ ∧ write.apply state.cells target = _) ∨
      ∃ _ _, _ ∧ _ ∧ write.apply state.cells target = _
    by_cases own : target = write.target
    · refine Or.inr ⟨writer, request, ?_, found, ?_⟩
      · rw [last_writer_snoc, own, if_pos place]
      · rw [own, Write.apply, Function.update_self, data]
    · have passed : schedule.count writer ≠ turn target := fun same =>
        own (turn_injective (same.symm.trans place))
      rw [last_writer_snoc, if_neg passed, Write.apply, Function.update_of_ne own]
      exact tracks.files target

theorem run_tracks (reached : run step (start requests cells) schedule = some final) :
    Tracks requests cells schedule final := by
  induction schedule using List.reverseRecOn generalizing final with
  | nil =>
      obtain rfl := Option.some.inj reached
      exact start_tracks
  | append_singleton earlier writer ih =>
      rw [run_append, Option.bind_eq_some_iff] at reached
      obtain ⟨middle, before, last⟩ := reached
      rw [run, Option.bind_eq_some_iff] at last
      obtain ⟨after, taken, same⟩ := last
      obtain rfl := Option.some.inj same
      exact step_tracks (ih before) taken

/-- Once nothing is due, every request has taken all its turns. -/
theorem quiet_count (tracks : Tracks requests cells schedule state) (quiet : Quiet state)
    {writer : Nat} (inFlight : writer < requests.length) : 4 ≤ schedule.count writer := by
  have ended := tracks.due writer
  rw [quiet writer, eq_comm, List.drop_eq_nil_iff, writesOf, List.getElem?_eq_getElem inFlight]
    at ended
  exact ended

theorem last_writer_ne_none {writer : Nat} (target : Target)
    (counted : turn target < schedule.count writer) : lastWriter schedule target ≠ none := by
  induction schedule using List.reverseRecOn with
  | nil => simp at counted
  | append_singleton earlier other ih =>
      rw [last_writer_snoc]
      by_cases last : earlier.count other = turn target
      · simp [if_pos last]
      · rw [if_neg last]
        apply ih
        by_cases same : other = writer
        · rw [List.count_append, same, List.count_singleton_self] at counted
          rw [same] at last
          omega
        · rwa [List.count_append, List.count_singleton, if_neg (by simpa using same),
            Nat.add_zero] at counted

/-- When no request is in flight any more, every file is from the request that
wrote it last. -/
theorem quiet_files (tracks : Tracks requests cells schedule state) (quiet : Quiet state)
    (nonempty : requests ≠ []) (target : Target) :
    ∃ writer request, lastWriter schedule target = some writer ∧
      requests[writer]? = some request ∧ state.cells target = some (request.data target) := by
  rcases tracks.files target with ⟨none, -⟩ | written
  · have counted := quiet_count tracks quiet (List.length_pos_iff.mpr nonempty)
    exact absurd none (last_writer_ne_none target (Nat.lt_of_lt_of_le (turn_lt target) counted))
  · exact written

/-- The data of the last writer of the file. -/
def lastData (requests : List (PutRequest json fromPem)) (schedule : List Nat) (target : Target) :
    Option Bytes :=
  ((lastWriter schedule target).bind (requests[·]?)).map (·.data target)

/-- The last request to write each rendered file renders it like the last request
to persist its intent. -/
def SameRenderings (requests : List (PutRequest json fromPem)) (schedule : List Nat) : Prop :=
  ∀ request, (lastWriter schedule .nodeIntent).bind (requests[·]?) = some request →
    ∀ target, target ≠ .nodeIntent → lastData requests schedule target = some (request.data target)

theorem renderings_eq_data (request : PutRequest json fromPem) :
    renderings request.intent =
      [Target.clusterCa, .kubeletConfig, .bootstrapKubeconfig].map fun target =>
        ⟨target, request.data target⟩ := rfl

theorem rendered_iff_data (request : PutRequest json fromPem) (cells : Cells) :
    Rendered request.intent cells ↔
      ∀ target, target ≠ .nodeIntent → cells target = some (request.data target) := by
  rw [Rendered, renderings_eq_data, List.forall_mem_map]
  constructor
  · intro rendered target other
    cases target with
    | nodeIntent => exact absurd rfl other
    | _ => exact rendered _ (by decide)
  · intro same target member
    exact same target (by rintro rfl; simp at member)

theorem quiet_agreement_iff (roundTrip : json.RoundTrip)
    (tracks : Tracks requests cells schedule state) (quiet : Quiet state)
    (nonempty : requests ≠ []) :
    Agreement json state.cells ↔ SameRenderings requests schedule := by
  obtain ⟨persister, request, last, found, held⟩ := quiet_files tracks quiet nonempty .nodeIntent
  have persists : persisted json state.cells = some request.intent := by
    rw [persisted, held, Option.bind_some]
    exact congrArg Except.toOption (roundTrip _ _ request.encoded)
  have latest (target : Target) : lastData requests schedule target = state.cells target := by
    obtain ⟨writer, request, last, found, held⟩ := quiet_files tracks quiet nonempty target
    rw [lastData, last, Option.bind_some, found, held]
    rfl
  have agreed : Agreement json state.cells ↔ Rendered request.intent state.cells := by
    constructor
    · rintro ⟨intent, persisting, rendered⟩
      rw [persists] at persisting
      rwa [Option.some.inj persisting]
    · intro rendered
      exact ⟨_, persists, rendered⟩
  rw [agreed, rendered_iff_data, SameRenderings, last, Option.bind_some, found]
  simp [latest]

/-- However concurrent requests interleave: once all of them have succeeded, the
files agree if and only if the last renderings of the three files are those of
the last persisted intent. -/
theorem concurrent_puts_agree_iff (roundTrip : json.RoundTrip)
    (requests : List (PutRequest json fromPem)) (nonempty : requests ≠ []) (cells : Cells)
    (schedule : List Nat) (final : State)
    (reached : run step (start requests cells) schedule = some final) (quiet : Quiet final) :
    Agreement json final.cells ↔ SameRenderings requests schedule :=
  quiet_agreement_iff roundTrip (run_tracks reached) quiet nonempty

/-- A schedule that gives no request more turns than it needs can be run. -/
theorem schedule_runs (cells : Cells)
    (fits : ∀ writer, schedule.count writer ≤ (writesOf requests writer).length) :
    ∃ final, run step (start requests cells) schedule = some final := by
  induction schedule using List.reverseRecOn with
  | nil => exact ⟨_, rfl⟩
  | append_singleton earlier writer ih =>
      obtain ⟨middle, reached⟩ := ih fun other =>
        Nat.le_trans (by rw [List.count_append]; omega) (fits other)
      have room := fits writer
      rw [List.count_append, List.count_singleton_self] at room
      have due := (run_tracks reached).due writer
      rw [List.drop_eq_getElem_cons (by omega)] at due
      rw [run_append, reached, Option.bind_some, run, step, due]
      exact ⟨_, rfl⟩

theorem full_schedule_quiet (tracks : Tracks requests cells schedule state)
    (full : ∀ writer, schedule.count writer = (writesOf requests writer).length) : Quiet state := by
  intro writer
  rw [tracks.due writer, full writer, List.drop_length]

theorem run_alone (writes : List Write) (writer : Nat) (state : State)
    (due : state.due writer = writes) :
    ∃ next, run step state (List.replicate writes.length writer) = some next ∧
      next.cells = applyWrites writes state.cells := by
  induction writes generalizing state with
  | nil => exact ⟨state, rfl, rfl⟩
  | cons write writes ih =>
      have taken : step state writer =
          some ⟨write.apply state.cells, Function.update state.due writer writes⟩ := by
        rw [step, due]
      obtain ⟨next, reached, after⟩ :=
        ih ⟨write.apply state.cells, Function.update state.due writer writes⟩
          (Function.update_self ..)
      exact ⟨next, by rw [List.length_cons, List.replicate_succ, run_cons _ taken, reached], after⟩

/-- A request that is answered 200 while no other is in flight takes its four
turns. -/
theorem put_config_run (request : PutRequest json fromPem) (plan : Plan ApplyStep) (disk : Disk)
    (response : Response) (applied : response.status = 200)
    (answer : ((putConfig json .k8s fromPem request.intent).run plan disk).1 = .ok response) :
    ∃ next, run step (start [request] (Reconcile.cells disk)) (List.replicate 4 0) = some next ∧
      next.cells =
        Reconcile.cells ((putConfig json .k8s fromPem request.intent).run plan disk).2 := by
  obtain ⟨count, -, after, full⟩ :=
    put_config_performs request.valid request.encoded plan disk
  rw [full response answer applied, List.take_length] at after
  obtain ⟨next, reached, written⟩ :=
    run_alone request.writes 0 (start [request] (Reconcile.cells disk)) rfl
  exact ⟨next, reached, written.trans after.symm⟩

end Schedules

section Sample

def sampleRequest : PutRequest fixtureJson fixturePki.fromPem where
  intent := sampleIntent
  serialized := asBytes (jsonText sampleIntent)
  valid := sample_intent_valid
  encoded := fixture_to_vec_pretty (Or.inl rfl)

def otherRequest : PutRequest fixtureJson fixturePki.fromPem where
  intent := otherIntent
  serialized := asBytes (jsonText otherIntent)
  valid := other_intent_validates
  encoded := fixture_to_vec_pretty (Or.inr rfl)

def bothRequests : List (PutRequest fixtureJson fixturePki.fromPem) := [sampleRequest, otherRequest]

theorem both_full {schedule : List Nat} (first : schedule.count 0 = 4)
    (second : schedule.count 1 = 4) (known : ∀ writer ∈ schedule, writer < 2) (writer : Nat) :
    schedule.count writer = (writesOf bothRequests writer).length := by
  rcases writer with _ | _ | writer
  · exact first
  · exact second
  · exact List.count_eq_zero.mpr fun member => absurd (known _ member) (by omega)

/-- One request after the other. -/
def sequential : List Nat := [0, 0, 0, 0, 1, 1, 1, 1]

/-- The second request goes all the way between the first one's first two
writes. -/
def overtaken : List Nat := [0, 1, 1, 1, 1, 0, 0, 0]

theorem both_run (schedule : List Nat) (first : schedule.count 0 = 4)
    (second : schedule.count 1 = 4) (known : ∀ writer ∈ schedule, writer < 2) (cells : Cells) :
    ∃ final, run step (start bothRequests cells) schedule = some final ∧ Quiet final := by
  have full := both_full first second known
  obtain ⟨final, reached⟩ := schedule_runs cells fun writer => Nat.le_of_eq (full writer)
  exact ⟨final, reached, full_schedule_quiet (run_tracks reached) full⟩

theorem concurrent_puts_agree_iff_sample :
    ∃ final, run step (start bothRequests fun _ => none) sequential = some final ∧
      Agreement fixtureJson final.cells := by
  obtain ⟨final, reached, quiet⟩ :=
    both_run sequential (by decide) (by decide) (by decide) fun _ => none
  refine ⟨final, reached, (concurrent_puts_agree_iff fixture_json_round_trip bothRequests
    (by simp [bothRequests]) _ sequential final reached quiet).mpr
      fun request persists target _ => ?_⟩
  have second (target : Target) : lastWriter sequential target = some 1 := by
    cases target <;> decide
  rw [second, Option.bind_some] at persists
  rw [lastData, second, Option.bind_some, persists]
  rfl

/-- The overtaken request leaves its renderings beside the other one's persisted
intent. -/
theorem overtaken_put_disagrees :
    ∃ final, run step (start bothRequests fun _ => none) overtaken = some final ∧ Quiet final ∧
      ¬Agreement fixtureJson final.cells := by
  obtain ⟨final, reached, quiet⟩ :=
    both_run overtaken (by decide) (by decide) (by decide) fun _ => none
  refine ⟨final, reached, quiet, ?_⟩
  rw [quiet_agreement_iff fixture_json_round_trip (run_tracks reached) quiet
    (by simp [bothRequests])]
  intro same
  have persister : lastWriter overtaken .nodeIntent = some 1 := by decide
  have renderer : lastWriter overtaken .clusterCa = some 0 := by decide
  have authority := same otherRequest (by rw [persister]; rfl) .clusterCa (by decide)
  rw [lastData, renderer] at authority
  exact server_pem_ne (Option.some.inj authority).symm

end Sample

end NodeOs.Noded.ConcurrentPut
