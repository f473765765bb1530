import Mathlib.Data.List.Infix
import NodeOs.Noded.Pkcs11

/-!
# Provisioning that is cut

Two of the ways a first boot can be cut leave a token that no later boot can
open: the token initialised without a PIN file, since the SO PIN is lost, and a
PIN file that is shorter than the PIN.
-/

namespace NodeOs.Noded.TokenProvisioning

open NodeOs.Library.FaultPlan NodeOs.Library.FaultPlan.Proc
open NodeOs.Noded.FileSystem NodeOs.Noded.Pkcs11 NodeOs.Noded.Enrollment

def takesPin (soPin : String) (slot : Slot) : Prop :=
  match slot.token with
  | .uninitialized => True
  | .initialized _ current _ _ => soPin = current

/-- The token that provisioning would initialise takes this SO PIN. -/
def Accepts (slots : List Slot) (soPin : String) : Prop :=
  ∃ index slot, selected slots = some index ∧ slots[index]? = some slot ∧ takesPin soPin slot

/-- The calls before `C_InitToken` succeed. -/
def ModuleOpens (plan : Plan OpenStep) (slots : List Slot) : Prop :=
  (∀ label ∈ [OpenStep.loadModule, .cInitialize, .slotsWithToken], plan label = .done) ∧
    (slotsWithToken slots = [] → plan .allSlots = .done)

/-- The process is not killed in the step. -/
def survives : Fate → Prop
  | .killed _ => False
  | _ => True

/-- `C_InitToken` takes effect, in a call that gets to provisioning. -/
def TakenBy (plan : Plan OpenStep) (state : OpenState) (draws : Draws) : Prop :=
  ModuleOpens plan state.slots ∧ Accepts state.slots (randomPin draws.soPin) ∧
    begun (plan .initToken)

def TokenTaken (draws : Draws) (plan : Plan OpenStep) (state : OpenState) : Prop :=
  survives (plan .statPin) ∧ TakenBy plan state draws

/-- The PIN file is created. -/
def PinCreated (cfg : TpmPkcs11Config) (plan : Plan OpenStep) : Prop :=
  (∀ label ∈ [OpenStep.initToken, .openSession, .loginSo, .initPin, .logout, .createPinDir],
    plan label = .done) ∧ cfg.pinFile.fileName ≠ none ∧ begun (plan .createPin)

/-- What is then in the PIN file. -/
def pinBytes (pin : String) (plan : Plan OpenStep) : Bytes :=
  match plan .createPin, plan .writePin with
  | .done, .done => asBytes pin
  | .done, .fails extent => (asBytes pin).take extent
  | .done, .killed extent => (asBytes pin).take extent
  | _, _ => []

/-- There is no PIN file, and nothing else in its place. -/
def PinMissing (cfg : TpmPkcs11Config) (disk : Disk) : Prop :=
  disk.files cfg.pinFile = none ∧ disk.dirs cfg.pinFile = false

/-- The selected slot holds a token with this SO PIN. -/
def Initialized (slots : List Slot) (soPin : String) : Prop :=
  ∃ index label userPin keys, selected slots = some index ∧
    slots[index]? = some ⟨true, .initialized label soPin userPin keys⟩

/-- The selected slot holds a token with this user PIN. -/
def PinSet (slots : List Slot) (userPin : String) : Prop :=
  ∃ index label soPin keys, selected slots = some index ∧
    slots[index]? = some ⟨true, .initialized label soPin (some userPin) keys⟩

/-- Of the slots with a token the provider opens the first, once that is
initialised. -/
def OpensSelected (provider : Provider) : Prop :=
  ∀ slots index label soPin userPin keys, selected slots = some index →
    slots[index]? = some ⟨true, .initialized label soPin userPin keys⟩ →
      provider.slotFor slots = some index

section Steps

variable {plan : Plan OpenStep} {state : OpenState} {cfg : TpmPkcs11Config}

theorem slot_init_taken {soPin : String} {slot : Slot} (label : String)
    (takes : takesPin soPin slot) :
    Slot.init label soPin slot = some ⟨true, .initialized label soPin none []⟩ := by
  unfold takesPin at takes
  unfold Slot.init
  cases token : slot.token with
  | uninitialized => rfl
  | initialized other current userPin keys =>
      rw [token] at takes
      simp [takes]

theorem slot_init_refused {soPin : String} {slot : Slot} (label : String)
    (refuses : ¬takesPin soPin slot) : Slot.init label soPin slot = none := by
  unfold takesPin at refuses
  unfold Slot.init
  cases token : slot.token with
  | uninitialized => simp [token] at refuses
  | initialized other current userPin keys =>
      rw [token] at refuses
      simp [refuses]

theorem query_keeps {Value : Type} (label : OpenStep) (error : Error)
    (answer : OpenState → Option Value) : Keeps id (query label error answer) := by
  apply Keeps.step
  · intro state
    cases answer state <;> rfl
  · intro _ _
    rfl

theorem query_ok_iff {Value : Type} (label : OpenStep) (error : Error)
    (answer : OpenState → Option Value) (value : Value) :
    ((query label error answer).run plan state).1 = .ok value ↔
      plan label = .done ∧ answer state = some value := by
  rw [query, run_step]
  cases plan label with
  | done => cases answer state <;> simp
  | fails extent => simp
  | killed extent => simp

theorem list_slots_keeps : Keeps id listSlots := by
  apply Keeps.bind (query_keeps _ _ _)
  intro slots
  cases slots with
  | nil =>
      rw [List.isEmpty_nil, if_pos rfl]
      exact query_keeps _ _ _
  | cons slot more => exact .ret _

theorem list_slots_ok_iff (slots : List Nat) :
    (listSlots.run plan state).1 = .ok slots ↔
      plan .slotsWithToken = .done ∧ (slotsWithToken state.slots = [] → plan .allSlots = .done) ∧
        (if slotsWithToken state.slots = [] then allSlots state.slots
          else slotsWithToken state.slots) = slots := by
  have kept : ((query .slotsWithToken [s!"get slots with token: {libraryError}"] fun state =>
      some (slotsWithToken state.slots)).run plan state).2 = state := query_keeps _ _ _ plan state
  simp only [listSlots, run_bind_ok_iff, query_ok_iff, kept, Option.some.injEq]
  constructor
  · rintro ⟨slots, ⟨listed, rfl⟩, answer⟩
    cases withToken : slotsWithToken state.slots with
    | nil =>
        rw [withToken, List.isEmpty_nil, if_pos rfl] at answer
        have ⟨all, same⟩ := (query_ok_iff ..).mp answer
        exact ⟨listed, fun _ => all, Option.some.inj same⟩
    | cons slot more =>
        rw [withToken] at answer
        exact ⟨listed, by simp, Outcome.ok.inj answer⟩
  · rintro ⟨listed, all, rfl⟩
    refine ⟨_, ⟨listed, rfl⟩, ?_⟩
    cases withToken : slotsWithToken state.slots with
    | nil =>
        rw [List.isEmpty_nil, if_pos rfl, if_pos rfl]
        exact (query_ok_iff ..).mpr ⟨all withToken, rfl⟩
    | cons slot more => rfl

theorem select_slot_keeps : Keeps id selectSlot := by
  apply Keeps.bind list_slots_keeps
  intro slots
  cases slots with
  | nil => exact .raise _
  | cons slot more => exact .ret _

theorem select_slot_ok_iff (index : Nat) :
    (selectSlot.run plan state).1 = .ok index ↔
      plan .slotsWithToken = .done ∧ (slotsWithToken state.slots = [] → plan .allSlots = .done) ∧
        selected state.slots = some index := by
  have kept : (listSlots.run plan state).2 = state := list_slots_keeps plan state
  simp only [selectSlot, run_bind_ok_iff, list_slots_ok_iff, kept, selected]
  constructor
  · rintro ⟨slots, ⟨listed, all, same⟩, answer⟩
    refine ⟨listed, all, ?_⟩
    rw [same]
    cases slots with
    | nil => cases answer
    | cons slot more => exact congrArg some (Outcome.ok.inj answer)
  · rintro ⟨listed, all, first⟩
    refine ⟨_, ⟨listed, all, rfl⟩, ?_⟩
    rw [first]
    rfl

theorem find_slot_keeps : Keeps id (findSlot cfg) :=
  .bind (.check _ _) fun _ => .bind (.check _ _) fun _ => select_slot_keeps

theorem find_slot_ok_iff (index : Nat) :
    ((findSlot cfg).run plan state).1 = .ok index ↔
      ModuleOpens plan state.slots ∧ selected state.slots = some index := by
  simp only [findSlot, run_bind_ok_iff, run_check_ok_iff, run_check_state, select_slot_ok_iff,
    ModuleOpens, List.forall_mem_cons, List.not_mem_nil, exists_const]
  constructor
  · rintro ⟨loaded, opened, listed, all, first⟩
    exact ⟨⟨⟨loaded, opened, listed, by simp⟩, all⟩, first⟩
  · rintro ⟨⟨⟨loaded, opened, listed, -⟩, all⟩, first⟩
    exact ⟨loaded, opened, listed, all, first⟩

theorem on_slot_eq_some_iff (index : Nat) (change : Slot → Option Slot) (after : OpenState) :
    onSlot index change state = some after ↔
      ∃ slot new, state.slots[index]? = some slot ∧ change slot = some new ∧
        state.setSlot index new = after := by
  simp only [onSlot, Option.bind_eq_bind, Option.bind_eq_some_iff, Option.some.injEq]
  constructor
  · rintro ⟨slot, there, new, changed, same⟩
    exact ⟨slot, new, there, changed, same⟩
  · rintro ⟨slot, new, there, changed, same⟩
    exact ⟨slot, there, new, changed, same⟩

theorem on_slot_refused {index : Nat} {change : Slot → Option Slot}
    (refused : ∀ slot, state.slots[index]? = some slot → change slot = none) :
    onSlot index change state = none := by
  cases there : state.slots[index]? with
  | none => simp [onSlot, there]
  | some slot => simp [onSlot, there, refused slot there]

theorem set_slot_self {index : Nat} {slot : Slot} (there : state.slots[index]? = some slot) :
    state.setSlot index slot = state := by
  obtain ⟨inside, rfl⟩ := List.getElem?_eq_some_iff.mp there
  simp [OpenState.setSlot]

theorem set_slot_there {index : Nat} {old : Slot} (new : Slot)
    (there : state.slots[index]? = some old) :
    (state.setSlot index new).slots[index]? = some new := by
  have inside := (List.getElem?_eq_some_iff.mp there).1
  simp [OpenState.setSlot, inside]

/-- A token whose SO PIN has been set. -/
def soToken (label soPin : String) (userPin : Option String)
    (keys : List (String × PublicKey)) : Slot :=
  ⟨true, .initialized label soPin userPin keys⟩

theorem login_so_taken {index : Nat} {label soPin : String}
    {userPin : Option String} {keys : List (String × PublicKey)}
    (there : state.slots[index]? = some (soToken label soPin userPin keys)) :
    onSlot index (Slot.loginSo soPin) state = some state :=
  (on_slot_eq_some_iff ..).mpr ⟨_, _, there, if_pos rfl, set_slot_self there⟩

theorem init_pin_taken {index : Nat} {label soPin : String} (pin : String)
    {userPin : Option String} {keys : List (String × PublicKey)}
    (there : state.slots[index]? = some (soToken label soPin userPin keys)) :
    onSlot index (Slot.initPin pin) state =
      some (state.setSlot index (soToken label soPin (some pin) keys)) :=
  (on_slot_eq_some_iff ..).mpr ⟨_, _, there, rfl, rfl⟩

/-- The calls of the session in which the user PIN is set. -/
def sessionSteps : List OpenStep := [.openSession, .loginSo, .initPin, .logout]

theorem set_user_pin_done {index : Nat} {label soPin : String} (userPin : String)
    (there : state.slots[index]? = some (soToken label soPin none []))
    (done : ∀ call ∈ sessionSteps, plan call = .done) :
    (setUserPin index soPin userPin).run plan state =
      (.ok (), state.setSlot index (soToken label soPin (some userPin) [])) := by
  simp only [sessionSteps, List.forall_mem_cons] at done
  obtain ⟨opened, entered, changed, left, -⟩ := done
  simp only [setUserPin, run_bind, run_check, opened, left,
    call_done _ entered (login_so_taken there), call_done _ changed (init_pin_taken userPin there)]

/-- A session that is cut leaves the SO PIN in place. -/
theorem set_user_pin_cut {index : Nat} {label soPin : String} (userPin : String)
    (there : state.slots[index]? = some (soToken label soPin none []))
    (cut : ¬∀ call ∈ sessionSteps, plan call = .done) :
    ((setUserPin index soPin userPin).run plan state).1 ≠ .ok () ∧
      ∃ pin, ((setUserPin index soPin userPin).run plan state).2 =
        state.setSlot index (soToken label soPin pin []) := by
  have same := set_slot_self there
  unfold setUserPin
  rw [run_bind, run_check]
  cases opened : plan .openSession with
  | fails extent => exact ⟨by simp, none, same.symm⟩
  | killed extent => exact ⟨by simp, none, same.symm⟩
  | done =>
  simp only
  by_cases entered : plan .loginSo = .done
  · rw [run_bind, call_done _ entered (login_so_taken there)]
    simp only
    by_cases changed : plan .initPin = .done
    · rw [run_bind, call_done _ changed (init_pin_taken userPin there)]
      simp only [run_check]
      cases left : plan .logout with
      | fails extent => exact ⟨by simp, some userPin, rfl⟩
      | killed extent => exact ⟨by simp, some userPin, rfl⟩
      | done =>
          exfalso
          apply cut
          simp [sessionSteps, opened, entered, changed, left]
    · have ⟨stopped, after⟩ := call_broken [s!"C_InitPIN: {libraryError}"] changed
        (init_pin_taken userPin there)
      have ⟨state_eq, outcome⟩ := run_bind_of_not_ok plan state
        (fun _ => check .logout [s!"logout SO: {libraryError}"]) fun value => stopped
      refine ⟨outcome (), ?_⟩
      rw [state_eq, after]
      split
      · exact ⟨some userPin, rfl⟩
      · exact ⟨none, same.symm⟩
  · have ⟨stopped, after⟩ := call_broken [s!"login SO: {libraryError}"] entered
      (login_so_taken there)
    have ⟨state_eq, outcome⟩ := run_bind_of_not_ok plan state
      (fun _ => do
        call .initPin [s!"C_InitPIN: {libraryError}"] (onSlot index (Slot.initPin userPin))
        check .logout [s!"logout SO: {libraryError}"]) fun value => stopped
    refine ⟨outcome (), none, ?_⟩
    rw [state_eq, after, same]
    split <;> rfl

end Steps

section PinFile

variable (plan : Plan OpenStep) (state : OpenState) {cfg : TpmPkcs11Config}

/-- A file does not stand among the directories around it. -/
theorem not_enclosing {path parent : Path} (parented : path.parent = some parent) :
    path ∉ parent.enclosing := by
  intro member
  unfold Path.parent at parented
  cases around : path.innermost with
  | nil => simp [around] at parented
  | cons last outer =>
      rw [around, Option.some.injEq] at parented
      simp only [Path.enclosing, ← parented, List.mem_reverse, List.mem_map, List.mem_tails]
        at member
      obtain ⟨inner, tail, same⟩ := member
      have length := congrArg (fun path => path.innermost.length) same
      have shorter := tail.length_le
      simp only [around, List.length_cons] at length
      omega

theorem make_dirs_missing {disk : Disk} {parent : Path} {made : List Path}
    (parented : cfg.pinFile.parent = some parent) (around : ∀ dir ∈ made, dir ∈ parent.enclosing)
    (missing : PinMissing cfg disk) : PinMissing cfg (disk.makeDirs made) := by
  constructor
  · exact missing.1
  · have apart : cfg.pinFile ∉ made := fun member => not_enclosing parented (around _ member)
    simp [Disk.makeDirs, missing.2, apart]

/-- Whether the directories can be made or not, the file is still missing. -/
theorem make_pin_dir_missing (missing : PinMissing cfg state.disk) :
    ((makePinDir cfg.pinFile).run plan state).2.slots = state.slots ∧
      PinMissing cfg ((makePinDir cfg.pinFile).run plan state).2.disk := by
  unfold makePinDir
  cases parented : cfg.pinFile.parent with
  | none => exact ⟨rfl, missing⟩
  | some parent =>
      have partly (count : Nat) :
          PinMissing cfg (addDirs (parent.enclosing.take count) state).disk :=
        make_dirs_missing parented (fun _ => List.mem_of_mem_take) missing
      simp only [run_step]
      cases plan .createPinDir with
      | done => exact ⟨rfl, make_dirs_missing parented (fun _ inside => inside) missing⟩
      | fails extent => exact ⟨rfl, partly extent⟩
      | killed extent => exact ⟨rfl, partly extent⟩

theorem make_pin_dir_ok_iff (named : cfg.pinFile.fileName ≠ none) (value : Unit) :
    ((makePinDir cfg.pinFile).run plan state).1 = .ok value ↔ plan .createPinDir = .done := by
  unfold makePinDir
  cases parented : cfg.pinFile.parent with
  | none =>
      exfalso
      apply named
      unfold Path.parent at parented
      unfold Path.fileName
      cases around : cfg.pinFile.innermost with
      | nil => rfl
      | cons last outer => simp [around] at parented
  | some parent =>
      simp only [run_step]
      cases plan .createPinDir <;> simp

theorem filled_content {path : Path} (bytes : Bytes) (there : state.disk.files path ≠ none) :
    (fillFile path bytes state).disk.content path = some bytes := by
  cases found : state.disk.files path with
  | none => exact absurd found there
  | some file => simp [fillFile, Disk.content, found]

theorem empty_file_there (path : Path) : (emptyFile path state).disk.files path ≠ none := by
  simp [emptyFile]

theorem create_pin_uncreated
    (uncreated : ¬(cfg.pinFile.fileName ≠ none ∧ begun (plan .createPin))) :
    ((createPin cfg.pinFile).run plan state).1 ≠ .ok () ∧
      ((createPin cfg.pinFile).run plan state).2 = state := by
  by_cases named : cfg.pinFile.fileName = none
  · exact call_refused _ _ _ (if_pos named)
  · have idle : ¬begun (plan .createPin) := fun created => uncreated ⟨named, created⟩
    have undone : plan .createPin ≠ .done := by
      intro done
      rw [done] at idle
      exact idle trivial
    have taken : truncateFile cfg.pinFile state = some (emptyFile cfg.pinFile state) := if_neg named
    have broken := call_broken [s!"create PIN file {cfg.pinFile.display}", osError] undone taken
    rw [if_neg idle] at broken
    exact broken

theorem create_pin_created (named : cfg.pinFile.fileName ≠ none)
    (created : begun (plan .createPin)) :
    ((createPin cfg.pinFile).run plan state).2 = emptyFile cfg.pinFile state ∧
      (((createPin cfg.pinFile).run plan state).1 = .ok () ↔ plan .createPin = .done) := by
  have taken : truncateFile cfg.pinFile state = some (emptyFile cfg.pinFile state) := if_neg named
  by_cases done : plan .createPin = .done
  · rw [createPin, call_done _ done taken]
    simp [done]
  · have ⟨stopped, after⟩ := call_broken [s!"create PIN file {cfg.pinFile.display}", osError] done
      taken
    rw [if_pos created] at after
    exact ⟨after, by simp [done, createPin, stopped]⟩

/-- A file that is not created stays missing. -/
theorem fill_pin_uncreated (pin : String)
    (uncreated : ¬(cfg.pinFile.fileName ≠ none ∧ begun (plan .createPin))) :
    ((fillPin cfg.pinFile pin).run plan state).1 ≠ .ok () ∧
      ((fillPin cfg.pinFile pin).run plan state).2 = state := by
  have broken : ((createPin cfg.pinFile).run plan state).1 ≠ .ok () ∧
      ((createPin cfg.pinFile).run plan state).2 = state :=
    create_pin_uncreated plan state uncreated
  have ending := run_bind_of_not_ok plan state (fun _ => do
    step .writePin [s!"write PIN file {cfg.pinFile.display}", osError]
      (fun extent => fillFile cfg.pinFile ((asBytes pin).take extent))
      fun state => (.ok (), fillFile cfg.pinFile (asBytes pin) state)
    ignore (check .syncPin [osError])) fun _ => broken.1
  exact ⟨ending.2 (), ending.1.trans broken.2⟩

theorem sync_pin_state (label : OpenStep) (error : Error) :
    ((ignore (check label error) : Open Unit).run plan state).2 = state := by
  rw [run_ignore, run_check]
  cases plan label <;> rfl

theorem fill_pin_created (pin : String) (named : cfg.pinFile.fileName ≠ none)
    (created : begun (plan .createPin)) :
    ((fillPin cfg.pinFile pin).run plan state).2.slots = state.slots ∧
      ((fillPin cfg.pinFile pin).run plan state).2.disk.content cfg.pinFile =
        some (pinBytes pin plan) ∧
      (((fillPin cfg.pinFile pin).run plan state).1 = .ok () →
        pinBytes pin plan = asBytes pin) := by
  have ⟨emptied, returned⟩ := create_pin_created plan state named created
  have there := empty_file_there state cfg.pinFile
  unfold fillPin
  by_cases done : plan .createPin = .done
  · rw [run_bind_of_ok _ _ (returned.mpr done), emptied, run_bind, run_step]
    cases written : plan .writePin with
    | done =>
        simp only [sync_pin_state, pinBytes, done, written]
        exact ⟨rfl, filled_content _ _ there, by simp⟩
    | fails extent =>
        simp only [pinBytes, done, written]
        exact ⟨rfl, filled_content _ _ there, by simp⟩
    | killed extent =>
        simp only [pinBytes, done, written]
        exact ⟨rfl, filled_content _ _ there, by simp⟩
  · have ending := run_bind_of_not_ok plan state (fun _ => do
      step .writePin [s!"write PIN file {cfg.pinFile.display}", osError]
        (fun extent => fillFile cfg.pinFile ((asBytes pin).take extent))
        fun state => (.ok (), fillFile cfg.pinFile (asBytes pin) state)
      ignore (check .syncPin [osError])) fun _ answer => done (returned.mp answer)
    rw [ending.1, emptied]
    refine ⟨rfl, ?_, fun answer => absurd answer (ending.2 ())⟩
    have nothing : pinBytes pin plan = [] := by
      unfold pinBytes
      cases fate : plan .createPin with
      | done => exact absurd fate done
      | fails extent => rfl
      | killed extent => rfl
    rw [nothing]
    simp [emptyFile, Disk.content]

theorem write_pin_uncreated (pin : String) (missing : PinMissing cfg state.disk)
    (uncreated : ¬(plan .createPinDir = .done ∧ cfg.pinFile.fileName ≠ none ∧
      begun (plan .createPin))) :
    ((writePin cfg.pinFile pin).run plan state).1 ≠ .ok () ∧
      ((writePin cfg.pinFile pin).run plan state).2.slots = state.slots ∧
        PinMissing cfg ((writePin cfg.pinFile pin).run plan state).2.disk := by
  have ⟨slots, still⟩ := make_pin_dir_missing plan state missing
  by_cases made : ((makePinDir cfg.pinFile).run plan state).1 = .ok ()
  · have idle : ¬(cfg.pinFile.fileName ≠ none ∧ begun (plan .createPin)) := by
      intro created
      exact uncreated ⟨(make_pin_dir_ok_iff plan state created.1 ()).mp made, created⟩
    have ⟨stopped, same⟩ := fill_pin_uncreated plan
      ((makePinDir cfg.pinFile).run plan state).2 pin idle
    rw [writePin, run_bind_of_ok _ _ made, same]
    exact ⟨stopped, slots, still⟩
  · have ending := run_bind_of_not_ok plan state (fun _ => fillPin cfg.pinFile pin) fun _ => made
    rw [writePin, ending.1]
    exact ⟨ending.2 (), slots, still⟩

theorem write_pin_created (pin : String) (made : plan .createPinDir = .done)
    (named : cfg.pinFile.fileName ≠ none) (created : begun (plan .createPin))
    (missing : PinMissing cfg state.disk) :
    ((writePin cfg.pinFile pin).run plan state).2.slots = state.slots ∧
      ((writePin cfg.pinFile pin).run plan state).2.disk.content cfg.pinFile =
        some (pinBytes pin plan) ∧
      (((writePin cfg.pinFile pin).run plan state).1 = .ok () →
        pinBytes pin plan = asBytes pin) := by
  have ⟨slots, _⟩ := make_pin_dir_missing plan state missing
  have ready := (make_pin_dir_ok_iff plan state named ()).mpr made
  have ⟨same, content, full⟩ := fill_pin_created plan
    ((makePinDir cfg.pinFile).run plan state).2 pin named created
  rw [writePin, run_bind_of_ok _ _ ready]
  exact ⟨same.trans slots, content, full⟩

/-- What a call to `provision_token` leaves when the PIN file is missing. -/
structure Leaves (cfg : TpmPkcs11Config) (draws : Draws) (plan : Plan OpenStep)
    (before after : OpenState) (taken : Prop) : Prop where
  untouched : ¬taken → after.slots = before.slots ∧ PinMissing cfg after.disk
  tokenOnly : taken → ¬PinCreated cfg plan →
    Initialized after.slots (randomPin draws.soPin) ∧ PinMissing cfg after.disk
  pinFile : taken → PinCreated cfg plan →
    PinSet after.slots (randomPin draws.userPin) ∧
      after.disk.content cfg.pinFile = some (pinBytes (randomPin draws.userPin) plan)

/-- The part of `provision_token` after `C_InitToken`. -/
def finishProvisioning (cfg : TpmPkcs11Config) (index : Nat) (draws : Draws) : Open String := do
  setUserPin index (randomPin draws.soPin) (randomPin draws.userPin)
  writePin cfg.pinFile (randomPin draws.userPin)
  pure (randomPin draws.userPin)

theorem pin_created_iff (done : plan .initToken = .done) :
    PinCreated cfg plan ↔ (∀ call ∈ sessionSteps, plan call = .done) ∧
      plan .createPinDir = .done ∧ cfg.pinFile.fileName ≠ none ∧ begun (plan .createPin) := by
  simp only [PinCreated, sessionSteps, List.forall_mem_cons, done, true_and, and_assoc]
  simp

theorem finish_leaves {index : Nat} {label : String} (draws : Draws)
    (chosen : selected state.slots = some index)
    (there : state.slots[index]? = some (soToken label (randomPin draws.soPin) none []))
    (missing : PinMissing cfg state.disk) (done : plan .initToken = .done) :
    Leaves cfg draws plan state ((finishProvisioning cfg index draws).run plan state).2 True ∧
      ∀ pin, ((finishProvisioning cfg index draws).run plan state).1 = .ok pin →
        PinCreated cfg plan ∧ pin = randomPin draws.userPin ∧
          pinBytes (randomPin draws.userPin) plan = asBytes (randomPin draws.userPin) := by
  have initialized (pin : Option String) :
      Initialized (state.setSlot index (soToken label (randomPin draws.soPin) pin [])).slots
        (randomPin draws.soPin) :=
    ⟨index, label, pin, [], selected_set chosen rfl, set_slot_there _ there⟩
  unfold finishProvisioning
  by_cases session : ∀ call ∈ sessionSteps, plan call = .done
  · have pinned : PinSet (state.setSlot index (soToken label (randomPin draws.soPin)
        (some (randomPin draws.userPin)) [])).slots (randomPin draws.userPin) :=
      ⟨index, label, _, [], selected_set chosen rfl, set_slot_there _ there⟩
    rw [run_bind, set_user_pin_done (randomPin draws.userPin) there session]
    simp only
    by_cases created : plan .createPinDir = .done ∧ cfg.pinFile.fileName ≠ none ∧
        begun (plan .createPin)
    · have whole := (pin_created_iff plan done).mpr ⟨session, created⟩
      have ⟨slots, content, full⟩ := write_pin_created plan (state.setSlot index (soToken label
        (randomPin draws.soPin) (some (randomPin draws.userPin)) [])) (randomPin draws.userPin)
        created.1 created.2.1 created.2.2 missing
      refine ⟨⟨fun untaken => absurd trivial untaken, fun _ unwritten =>
        absurd whole unwritten, fun _ _ => ?_⟩, fun pin answer => ?_⟩
      · rw [run_bind_pure_state, slots]
        exact ⟨pinned, content⟩
      · obtain ⟨_, returned, same⟩ := (run_bind_ok_iff ..).mp answer
        exact ⟨whole, (Outcome.ok.inj same).symm, full returned⟩
    · have unwritten : ¬PinCreated cfg plan := fun whole =>
        created ((pin_created_iff plan done).mp whole).2
      have ⟨stopped, slots, still⟩ := write_pin_uncreated plan (state.setSlot index (soToken label
        (randomPin draws.soPin) (some (randomPin draws.userPin)) [])) (randomPin draws.userPin)
        missing created
      have ending := run_bind_of_not_ok plan _ (fun _ =>
        (pure (randomPin draws.userPin) : Open String)) fun _ => stopped
      refine ⟨⟨fun untaken => absurd trivial untaken, fun _ _ => ?_, fun _ whole =>
        absurd whole unwritten⟩, fun pin answer => absurd answer (ending.2 pin)⟩
      rw [ending.1, slots]
      exact ⟨initialized _, still⟩
  · have unwritten : ¬PinCreated cfg plan := fun whole =>
      session ((pin_created_iff plan done).mp whole).1
    obtain ⟨stopped, pin, after⟩ := set_user_pin_cut (randomPin draws.userPin) there session
    have ending := run_bind_of_not_ok plan state (fun _ => do
      writePin cfg.pinFile (randomPin draws.userPin)
      (pure (randomPin draws.userPin) : Open String)) fun _ => stopped
    refine ⟨⟨fun untaken => absurd trivial untaken, fun _ _ => ?_, fun _ whole =>
      absurd whole unwritten⟩, fun pin answer => absurd answer (ending.2 pin)⟩
    rw [ending.1, after]
    exact ⟨initialized pin, missing⟩

theorem init_token_taken {index : Nat} {slot : Slot} {soPin : String} (label : String)
    (there : state.slots[index]? = some slot) (takes : takesPin soPin slot) :
    onSlot index (Slot.init label soPin) state =
      some (state.setSlot index (soToken label soPin none [])) :=
  (on_slot_eq_some_iff ..).mpr ⟨_, _, there, slot_init_taken label takes, rfl⟩

/-- What is promised of a call, by how far its plan lets it get. -/
def Promised (cfg : TpmPkcs11Config) (draws : Draws) (taken : Prop)
    (result : Outcome Error String × OpenState) : Prop :=
  Leaves cfg draws plan state result.2 taken ∧
    ∀ pin, result.1 = .ok pin → taken ∧ PinCreated cfg plan ∧ pin = randomPin draws.userPin ∧
      pinBytes (randomPin draws.userPin) plan = asBytes (randomPin draws.userPin)

theorem promised_of_stopped {draws : Draws} {taken : Prop}
    {result : Outcome Error String × OpenState} (untaken : ¬taken)
    (missing : PinMissing cfg state.disk) (stopped : ∀ pin, result.1 ≠ .ok pin)
    (same : result.2 = state) : Promised plan state cfg draws taken result := by
  constructor
  · rw [same]
    exact ⟨fun _ => ⟨rfl, missing⟩, fun token => absurd token untaken,
      fun token => absurd token untaken⟩
  · intro pin answer
    exact absurd answer (stopped pin)

/-- `C_InitToken` and what follows, in the slot that was found. -/
theorem init_promised {index : Nat} {slot : Slot} (draws : Draws)
    (opens : ModuleOpens plan state.slots)
    (chosen : selected state.slots = some index) (there : state.slots[index]? = some slot)
    (missing : PinMissing cfg state.disk) :
    Promised plan state cfg draws (TakenBy plan state draws)
      ((do
        call .initToken [s!"C_InitToken: {libraryError}"]
          (onSlot index (Slot.init cfg.tokenLabel (randomPin draws.soPin)))
        finishProvisioning cfg index draws : Open String).run plan state) := by
  by_cases takes : takesPin (randomPin draws.soPin) slot
  · have effect := init_token_taken state cfg.tokenLabel there takes
    have accepted : Accepts state.slots (randomPin draws.soPin) :=
      ⟨index, slot, chosen, there, takes⟩
    by_cases done : plan .initToken = .done
    · have taken : TakenBy plan state draws := ⟨opens, accepted, by rw [done]; trivial⟩
      have ⟨leaves, returns⟩ := finish_leaves plan
        (state.setSlot index (soToken cfg.tokenLabel (randomPin draws.soPin) none [])) draws
        (selected_set chosen rfl) (set_slot_there _ there) missing done
      rw [run_bind, call_done _ done effect]
      exact ⟨⟨fun untaken => absurd taken untaken, fun _ => leaves.tokenOnly trivial,
        fun _ => leaves.pinFile trivial⟩, fun pin answer => ⟨taken, returns pin answer⟩⟩
    · have ⟨stopped, after⟩ := call_broken [s!"C_InitToken: {libraryError}"] done effect
      have ending := run_bind_of_not_ok plan state
        (fun _ => finishProvisioning cfg index draws) fun _ => stopped
      by_cases effective : begun (plan .initToken)
      · have taken : TakenBy plan state draws := ⟨opens, accepted, effective⟩
        have unwritten : ¬PinCreated cfg plan := fun whole => done (whole.1 .initToken (by simp))
        refine ⟨⟨fun untaken => absurd taken untaken, fun _ _ => ?_, fun _ whole =>
          absurd whole unwritten⟩, fun pin answer => absurd answer (ending.2 pin)⟩
        rw [ending.1, after, if_pos effective]
        exact ⟨⟨index, _, none, [], selected_set chosen rfl, set_slot_there _ there⟩, missing⟩
      · have untaken : ¬TakenBy plan state draws := fun taken => effective taken.2.2
        rw [if_neg effective] at after
        exact promised_of_stopped plan state untaken missing ending.2 (ending.1.trans after)
  · have untaken : ¬TakenBy plan state draws := by
      intro taken
      obtain ⟨other, found, chosen', there', accepted⟩ := taken.2.1
      rw [chosen, Option.some.injEq] at chosen'
      rw [← chosen', there, Option.some.injEq] at there'
      rw [← there'] at accepted
      exact takes accepted
    have refused : onSlot index (Slot.init cfg.tokenLabel (randomPin draws.soPin)) state =
      none := by
      apply on_slot_refused
      intro found same
      rw [there, Option.some.injEq] at same
      rw [← same]
      exact slot_init_refused cfg.tokenLabel takes
    have stopped := call_refused plan .initToken [s!"C_InitToken: {libraryError}"] refused
    have ending := run_bind_of_not_ok plan state
      (fun _ => finishProvisioning cfg index draws) fun _ => stopped.1
    exact promised_of_stopped plan state untaken missing ending.2 (ending.1.trans stopped.2)

theorem provision_promised (draws : Draws) (missing : PinMissing cfg state.disk) :
    Promised plan state cfg draws (TakenBy plan state draws)
      ((provisionToken cfg draws).run plan state) := by
  have kept : ((findSlot cfg).run plan state).2 = state := find_slot_keeps plan state
  by_cases found : ∃ index, ((findSlot cfg).run plan state).1 = .ok index
  · obtain ⟨index, found⟩ := found
    obtain ⟨opens, chosen⟩ := (find_slot_ok_iff index).mp found
    obtain ⟨slot, there⟩ := selected_there chosen
    have result := init_promised plan state draws opens chosen there missing
    rw [provisionToken, run_bind_of_ok _ _ found, kept]
    exact result
  · have untaken : ¬TakenBy plan state draws := by
      intro taken
      obtain ⟨opens, ⟨index, slot, chosen, -⟩, -⟩ := taken
      exact found ⟨index, (find_slot_ok_iff index).mpr ⟨opens, chosen⟩⟩
    have ending := run_bind_of_not_ok plan state (fun index => do
      call .initToken [s!"C_InitToken: {libraryError}"]
        (onSlot index (Slot.init cfg.tokenLabel (randomPin draws.soPin)))
      finishProvisioning cfg index draws) fun index answer => found ⟨index, answer⟩
    exact promised_of_stopped plan state untaken missing ending.2 (ending.1.trans kept)

end PinFile

section Opening

variable (plan : Plan OpenStep) (state : OpenState) (cfg : TpmPkcs11Config) (provider : Provider)

theorem obtain_pin_missing (draws : Draws) (missing : PinMissing cfg state.disk) :
    (obtainPin draws cfg).run plan state =
      match plan .statPin with
      | .killed _ => (.killed, state)
      | _ => (provisionToken cfg draws).run plan state := by
  simp only [obtainPin, fileExists, run_bind, run_attempt, run_check]
  cases plan .statPin with
  | done =>
      simp only [run_observe, missing.1, missing.2]
      rfl
  | fails extent => rfl
  | killed extent => rfl

theorem open_provider_keeps (pin : String) : Keeps id (openProvider provider pin) :=
  query_keeps _ _ _

theorem add_key_flag {label : String} {key : PublicKey} {slot new : Slot}
    (added : Slot.addKey label key slot = some new) : new.hasToken = slot.hasToken := by
  unfold Slot.addKey at added
  split at added
  · cases added
  · rw [← Option.some.inj added]

theorem add_key_keeps_pin {index : Nat} {label pin : String} {key : PublicKey} {after : OpenState}
    (added : onSlot index (Slot.addKey label key) state = some after)
    (set : PinSet state.slots pin) : PinSet after.slots pin := by
  obtain ⟨slot, new, there, change, rfl⟩ := (on_slot_eq_some_iff ..).mp added
  obtain ⟨other, tokenLabel, soPin, keys, chosen, token⟩ := set
  have still : selected (state.setSlot index new).slots = some other := by
    rw [OpenState.setSlot, selected_set_same there (add_key_flag change), chosen]
  by_cases same : index = other
  · rw [← same, there, Option.some.injEq] at token
    rw [token] at change
    refine ⟨other, tokenLabel, soPin, keys ++ [(label, key)], still, ?_⟩
    rw [← same, set_slot_there new there, ← Option.some.inj change]
  · refine ⟨other, tokenLabel, soPin, keys, still, ?_⟩
    rw [OpenState.setSlot, List.getElem?_set_ne same, token]

/-- Looking for the key, or generating it, does not touch the user PIN. -/
theorem ensure_key_leaves (index : Nat) (label pin : String) (newKey : PublicKey) :
    ((ensureKey index label newKey).run plan state).2.disk = state.disk ∧
      (PinSet state.slots pin →
        PinSet ((ensureKey index label newKey).run plan state).2.slots pin) := by
  have generates : ((call .generateKey [s!"generate token key: {libraryError}"]
        (onSlot index (Slot.addKey label newKey))).run plan state).2.disk = state.disk ∧
      (PinSet state.slots pin → PinSet ((call .generateKey [s!"generate token key: {libraryError}"]
        (onSlot index (Slot.addKey label newKey))).run plan state).2.slots pin) := by
    cases added : onSlot index (Slot.addKey label newKey) state with
    | none =>
        rw [(call_refused plan .generateKey _ added).2]
        exact ⟨rfl, fun set => set⟩
    | some after =>
        have diskSame : after.disk = state.disk := by
          obtain ⟨slot, new, -, -, rfl⟩ := (on_slot_eq_some_iff ..).mp added
          rfl
        by_cases done : plan .generateKey = .done
        · rw [call_done _ done added]
          exact ⟨diskSame, add_key_keeps_pin state added⟩
        · rw [(call_broken _ done added).2]
          split
          · exact ⟨diskSame, add_key_keeps_pin state added⟩
          · exact ⟨rfl, fun set => set⟩
  have kept : ((query .findKey [s!"look up token key: {libraryError}"] fun state =>
      some ((keysIn state.slots index).lookup label)).run plan state).2 = state :=
    query_keeps _ _ _ plan state
  unfold ensureKey
  rw [run_bind]
  cases ran : (query .findKey [s!"look up token key: {libraryError}"] fun state =>
      some ((keysIn state.slots index).lookup label)).run plan state with
  | mk outcome after =>
      rw [ran] at kept
      obtain rfl : after = state := kept
      cases outcome with
      | err error => exact ⟨rfl, fun set => set⟩
      | killed => exact ⟨rfl, fun set => set⟩
      | ok found =>
          cases found with
          | some key => exact ⟨rfl, fun set => set⟩
          | none =>
              simp only [run_bind_pure_state]
              exact generates

theorem open_token_leaves (draws : Draws) (userPin pin : String) :
    ((openToken provider draws cfg userPin).run plan state).2.disk = state.disk ∧
      (PinSet state.slots pin →
        PinSet ((openToken provider draws cfg userPin).run plan state).2.slots pin) := by
  have kept : ((openProvider provider userPin).run plan state).2 = state :=
    open_provider_keeps provider userPin plan state
  unfold openToken
  by_cases opened : ∃ slot, ((openProvider provider userPin).run plan state).1 = .ok slot
  · obtain ⟨slot, opened⟩ := opened
    rw [run_bind_of_ok _ _ opened, kept, run_bind_pure_state]
    exact ensure_key_leaves plan state slot cfg.keyLabel pin draws.newKey
  · have ending := run_bind_of_not_ok plan state (fun slot => do
      let key ← ensureKey slot cfg.keyLabel draws.newKey
      (pure ⟨key⟩ : Open TpmIdentity)) fun slot answer => opened ⟨slot, answer⟩
    rw [ending.1, kept]
    exact ⟨rfl, fun set => set⟩

/-- What a whole call leaves that finds no PIN file. -/
theorem open_leaves (draws : Draws) (missing : PinMissing cfg state.disk) :
    Leaves cfg draws plan state ((openIdentity provider draws cfg).run plan state).2
      (TokenTaken draws plan state) := by
  have ⟨leaves, returns⟩ := provision_promised plan state draws missing
  have obtained := obtain_pin_missing plan state cfg draws missing
  have goes (alive : survives (plan .statPin)) :
      (obtainPin draws cfg).run plan state = (provisionToken cfg draws).run plan state := by
    rw [obtained]
    cases checked : plan .statPin with
    | done => rfl
    | fails extent => rfl
    | killed extent =>
        rw [checked] at alive
        exact alive.elim
  unfold openIdentity
  by_cases alive : survives (plan .statPin)
  · have same : TokenTaken draws plan state = TakenBy plan state draws := by
      simp [TokenTaken, alive]
    rw [same, run_bind, goes alive]
    cases ran : (provisionToken cfg draws).run plan state with
    | mk outcome after =>
        rw [ran] at leaves returns
        cases outcome with
        | err error => exact leaves
        | killed => exact leaves
        | ok pin =>
            obtain ⟨taken, created, -⟩ := returns pin rfl
            have ⟨set, content⟩ := leaves.pinFile taken created
            have ⟨disk, keeps⟩ := open_token_leaves plan after cfg provider draws pin
              (randomPin draws.userPin)
            refine ⟨fun untaken => absurd taken untaken, fun _ unwritten =>
              absurd created unwritten, fun _ _ => ⟨keeps set, ?_⟩⟩
            simp only [Disk.content, disk]
            exact content
  · have untaken : ¬TokenTaken draws plan state := fun taken => alive taken.1
    have stopped : (obtainPin draws cfg).run plan state = (.killed, state) := by
      rw [obtained]
      cases checked : plan .statPin with
      | done => simp [survives, checked] at alive
      | fails extent => simp [survives, checked] at alive
      | killed extent => rfl
    rw [run_bind, stopped]
    exact ⟨fun _ => ⟨rfl, missing⟩, fun taken => absurd taken untaken,
      fun taken => absurd taken untaken⟩

end Opening

section Recovery

variable {state : OpenState} {cfg : TpmPkcs11Config} {provider : Provider}

theorem write_pin_returns (pin : String) (named : cfg.pinFile.fileName ≠ none) :
    ((writePin cfg.pinFile pin).run .allDone state).1 = .ok () := by
  have made := (make_pin_dir_ok_iff .allDone state named ()).mpr rfl
  rw [writePin, run_bind_of_ok _ _ made]
  have created := (create_pin_created .allDone ((makePinDir cfg.pinFile).run .allDone state).2 named
    trivial).2.mpr rfl
  rw [fillPin, run_bind_of_ok _ _ created]
  rfl

/-- Where nothing fails, provisioning needs a file name and a token that takes
the SO PIN. -/
theorem provision_returns_iff (draws : Draws) (missing : PinMissing cfg state.disk) :
    (∃ pin, ((provisionToken cfg draws).run .allDone state).1 = .ok pin) ↔
      cfg.pinFile.fileName ≠ none ∧ Accepts state.slots (randomPin draws.soPin) := by
  constructor
  · rintro ⟨pin, returned⟩
    obtain ⟨taken, created, -⟩ := (provision_promised .allDone state draws missing).2 pin returned
    exact ⟨created.2.1, taken.2.1⟩
  · rintro ⟨named, index, slot, chosen, there, takes⟩
    have opens : ModuleOpens .allDone state.slots := ⟨fun _ _ => rfl, fun _ => rfl⟩
    have found : ((findSlot cfg).run .allDone state).1 = .ok index :=
      (find_slot_ok_iff index).mpr ⟨opens, chosen⟩
    have kept : ((findSlot cfg).run .allDone state).2 = state := find_slot_keeps .allDone state
    have effect := init_token_taken state cfg.tokenLabel there takes
    refine ⟨randomPin draws.userPin, ?_⟩
    rw [provisionToken, run_bind_of_ok _ _ found, kept, run_bind, call_done _ rfl effect]
    simp only
    have session : ∀ call ∈ sessionSteps, (Plan.allDone : Plan OpenStep) call = .done :=
      fun _ _ => rfl
    rw [run_bind, set_user_pin_done _ (set_slot_there _ there) session]
    simp only
    rw [run_bind_of_ok _ _ (write_pin_returns _ named)]
    rfl

/-- A token that is open gives its key, or makes one. -/
theorem open_token_returns_iff (opens : OpensSelected provider) (draws : Draws) {pin : String}
    (userPin : String) (set : PinSet state.slots pin) :
    (∃ identity, ((openToken provider draws cfg userPin).run .allDone state).1 = .ok identity) ↔
      userPin = pin := by
  obtain ⟨index, label, soPin, keys, chosen, there⟩ := set
  have slot := opens _ _ _ _ _ _ chosen there
  have login : logsIn state.slots index userPin = true ↔ userPin = pin := by
    simp only [logsIn, there, beq_iff_eq, Option.some.injEq]
    exact eq_comm
  have entered (found : Nat) : ((openProvider provider userPin).run .allDone state).1 = .ok found ↔
      userPin = pin ∧ index = found := by
    rw [openProvider, query_ok_iff]
    simp [slot, Plan.allDone, login]
  have kept : ((openProvider provider userPin).run .allDone state).2 = state :=
    open_provider_keeps provider userPin .allDone state
  constructor
  · rintro ⟨identity, answer⟩
    obtain ⟨found, opened, -⟩ := (run_bind_ok_iff ..).mp answer
    exact ((entered found).mp opened).1
  · intro same
    have opened := (entered index).mpr ⟨same, rfl⟩
    have added : onSlot index (Slot.addKey cfg.keyLabel draws.newKey) state =
        some (state.setSlot index
          (soToken label soPin (some pin) (keys ++ [(cfg.keyLabel, draws.newKey)]))) :=
      (on_slot_eq_some_iff ..).mpr ⟨_, _, there, rfl, rfl⟩
    rw [openToken, run_bind_of_ok _ _ opened, kept]
    cases held : (keysIn state.slots index).lookup cfg.keyLabel with
    | some key =>
        refine ⟨⟨key⟩, ?_⟩
        simp only [ensureKey, query, run_bind, run_step, Plan.allDone, held, run_pure]
    | none =>
        refine ⟨⟨draws.newKey⟩, ?_⟩
        simp only [ensureKey, query, run_bind, run_step, Plan.allDone, held, run_pure]
        rw [call_done _ rfl added]

/-- A following call in which nothing fails, where the PIN file is missing. -/
theorem open_missing_iff (opens : OpensSelected provider) (draws : Draws)
    (missing : PinMissing cfg state.disk) :
    (∃ identity, ((openIdentity provider draws cfg).run .allDone state).1 = .ok identity) ↔
      cfg.pinFile.fileName ≠ none ∧ Accepts state.slots (randomPin draws.soPin) := by
  have obtained : (obtainPin draws cfg).run .allDone state =
      (provisionToken cfg draws).run .allDone state :=
    obtain_pin_missing .allDone state cfg draws missing
  rw [← provision_returns_iff draws missing, openIdentity]
  constructor
  · rintro ⟨identity, answer⟩
    obtain ⟨pin, returned, -⟩ := (run_bind_ok_iff ..).mp answer
    rw [obtained] at returned
    exact ⟨pin, returned⟩
  · rintro ⟨pin, returned⟩
    obtain ⟨leaves, returns⟩ := provision_promised .allDone state draws missing
    obtain ⟨taken, created, rfl, -⟩ := returns pin returned
    have set := (leaves.pinFile taken created).1
    rw [← obtained] at returned set
    rw [run_bind_of_ok _ _ returned]
    exact (open_token_returns_iff opens draws _ set).mpr rfl

/-- The same where the PIN file is there. -/
theorem open_present_iff (opens : OpensSelected provider) (draws : Draws) {bytes : Bytes}
    {pin : String} (there : state.disk.content cfg.pinFile = some bytes)
    (set : PinSet state.slots pin) :
    (∃ identity, ((openIdentity provider draws cfg).run .allDone state).1 = .ok identity) ↔
      ∃ text, fromUtf8 bytes = some text ∧ trim text = pin := by
  have reads : (obtainPin draws cfg).run .allDone state =
      (readPin cfg.pinFile).run .allDone state := by
    obtain ⟨file, found, -⟩ := Option.map_eq_some_iff.mp there
    simp only [obtainPin, fileExists, run_bind, run_attempt, run_check, Plan.allDone, run_observe,
      found, Option.isSome_some, Bool.true_or, if_true]
  have kept : ((readPin cfg.pinFile).run .allDone state).2 = state := by
    rw [readPin, run_bind_pure_state]
    exact query_keeps _ _ _ .allDone state
  have read (pin : String) : ((readPin cfg.pinFile).run .allDone state).1 = .ok pin ↔
      ∃ text, fromUtf8 bytes = some text ∧ trim text = pin := by
    simp only [readPin, run_bind_ok_iff, query_ok_iff, Plan.allDone, there, Option.bind_some,
      run_pure, true_and, Outcome.ok.injEq]
  have after : ((obtainPin draws cfg).run .allDone state).2 = state := by rw [reads, kept]
  constructor
  · rintro ⟨identity, answer⟩
    obtain ⟨found, returned, entered⟩ := (run_bind_ok_iff ..).mp answer
    rw [after] at entered
    rw [reads] at returned
    have same := (open_token_returns_iff opens draws found set).mp ⟨identity, entered⟩
    rw [← same]
    exact (read found).mp returned
  · intro decoded
    have returned := (read pin).mpr decoded
    rw [← reads] at returned
    rw [openIdentity, run_bind_of_ok _ _ returned, after]
    exact (open_token_returns_iff opens draws pin set).mpr rfl

end Recovery

section Theorem

variable {cfg : TpmPkcs11Config} {provider : Provider}

theorem pin_bytes_front (pin : String) (plan : Plan OpenStep) :
    pinBytes pin plan <+: asBytes pin := by
  unfold pinBytes
  split
  · exact List.prefix_refl _
  · exact List.take_prefix _ _
  · exact List.take_prefix _ _
  · exact List.nil_prefix

/-- A file that holds a beginning of the PIN reads as the PIN only if it holds
all of it. -/
theorem pin_bytes_read_iff (draws : Fin 24 → Fin 62) (plan : Plan OpenStep) :
    (∃ text, fromUtf8 (pinBytes (randomPin draws) plan) = some text ∧
        trim text = randomPin draws) ↔
      pinBytes (randomPin draws) plan = asBytes (randomPin draws) := by
  constructor
  · rintro ⟨text, read, trimmed⟩
    have long := pin_file_length read
    rw [trimmed] at long
    exact (pin_bytes_front _ plan).eq_of_length_le long
  · intro whole
    exact ⟨randomPin draws, by rw [whole, from_utf8_as_bytes], trim_random_pin draws⟩

theorem initialized_accepts_iff {slots : List Slot} {soPin : String} (other : String)
    (token : Initialized slots soPin) : Accepts slots other ↔ other = soPin := by
  obtain ⟨index, label, userPin, keys, chosen, there⟩ := token
  constructor
  · rintro ⟨index', slot, chosen', there', takes⟩
    rw [chosen, Option.some.injEq] at chosen'
    rw [← chosen', there, Option.some.injEq] at there'
    rw [← there'] at takes
    exact takes
  · intro same
    exact ⟨index, _, chosen, there, same⟩

/-- The user PIN of the token that the provider opens is the one in the file. -/
def PinMatches (cfg : TpmPkcs11Config) (provider : Provider) (state : OpenState) : Prop :=
  ∀ bytes, state.disk.content cfg.pinFile = some bytes → ∃ text slot,
    fromUtf8 bytes = some text ∧ provider.slotFor state.slots = some slot ∧
      logsIn state.slots slot (trim text) = true

theorem pin_matches_of_set {state : OpenState} {draws : Fin 24 → Fin 62}
    (opens : OpensSelected provider) (set : PinSet state.slots (randomPin draws))
    (there : state.disk.content cfg.pinFile = some (asBytes (randomPin draws))) :
    PinMatches cfg provider state := by
  obtain ⟨index, label, soPin, keys, chosen, token⟩ := set
  intro bytes found
  rw [there, Option.some.injEq] at found
  refine ⟨randomPin draws, index, by rw [← found, from_utf8_as_bytes],
    opens _ _ _ _ _ _ chosen token, ?_⟩
  simp [logsIn, token, trim_random_pin]

/-- The call was cut after the whole PIN was in the file, or before the token was
touched. The other way out is a second SO PIN that equals the first. -/
def CutHarmlessly (cfg : TpmPkcs11Config) (first second : Draws) (plan : Plan OpenStep)
    (state : OpenState) : Prop :=
  (TokenTaken first plan state ∧ PinCreated cfg plan ∧
      pinBytes (randomPin first.userPin) plan = asBytes (randomPin first.userPin)) ∨
    (TokenTaken first plan state ∧ ¬PinCreated cfg plan ∧ cfg.pinFile.fileName ≠ none ∧
      randomPin second.soPin = randomPin first.soPin) ∨
    (¬TokenTaken first plan state ∧ cfg.pinFile.fileName ≠ none ∧
      Accepts state.slots (randomPin second.soPin))

/-- A call that is cut leaves a node that a following call can open exactly when
it was cut harmlessly. -/
theorem provisioning_recoverable_iff (provider : Provider) (opens : OpensSelected provider)
    (cfg : TpmPkcs11Config) (first second : Draws) (plan : Plan OpenStep) (state : OpenState)
    (missing : PinMissing cfg state.disk) :
    let cut := ((openIdentity provider first cfg).run plan state).2
    ((∃ identity, ((openIdentity provider second cfg).run .allDone cut).1 = .ok identity) ∧
        PinMatches cfg provider cut) ↔
      CutHarmlessly cfg first second plan state := by
  intro cut
  have leaves : Leaves cfg first plan state cut (TokenTaken first plan state) :=
    open_leaves plan state cfg provider first missing
  have noFile (still : PinMissing cfg cut.disk) : PinMatches cfg provider cut := by
    intro bytes there
    simp [Disk.content, still.1] at there
  unfold CutHarmlessly
  by_cases taken : TokenTaken first plan state
  · by_cases created : PinCreated cfg plan
    · obtain ⟨set, there⟩ := leaves.pinFile taken created
      have second_opens := open_present_iff opens second there set
      rw [pin_bytes_read_iff] at second_opens
      simp only [taken, created, not_true, false_and, or_false, true_and]
      rw [second_opens]
      constructor
      · intro both
        exact both.1
      · intro whole
        exact ⟨whole, pin_matches_of_set opens set (by rw [there, whole])⟩
    · obtain ⟨token, still⟩ := leaves.tokenOnly taken created
      simp only [taken, created, not_true, not_false_eq_true, false_and, and_false, false_or,
        or_false, true_and]
      rw [open_missing_iff opens second still, initialized_accepts_iff _ token]
      exact and_iff_left (noFile still)
  · obtain ⟨slots, still⟩ := leaves.untouched taken
    simp only [taken, not_false_eq_true, false_and, false_or, true_and]
    rw [open_missing_iff opens second still, slots]
    exact and_iff_left (noFile still)

/-- The provider opens the slot that provisioning selects. -/
def firstToken : Provider := ⟨selected⟩

theorem first_token_opens : OpensSelected firstToken :=
  fun _ _ _ _ _ _ chosen _ => chosen

/-- A node that has never been started: one token, and no files. -/
def newNode : OpenState := ⟨[⟨true, .uninitialized⟩], Disk.empty⟩

theorem new_node_missing : PinMissing defaultTpm newNode.disk := ⟨rfl, rfl⟩

def firstDraws : Draws := ⟨fun _ => 0, fun _ => 2, []⟩

def secondDraws : Draws := ⟨fun _ => 1, fun _ => 3, []⟩

/-- The process is killed as soon as the token is initialised. -/
def killedAfterInit : Plan OpenStep := fun label =>
  if label = .openSession then .killed 0 else .done

theorem second_so_pin_ne : randomPin secondDraws.soPin ≠ randomPin firstDraws.soPin := by
  intro same
  have chars := congrArg String.toList same
  simp only [randomPin, String.toList_ofList] at chars
  exact absurd chars (by decide)

theorem provisioning_recoverable_iff_sample :
    ((∃ identity, ((openIdentity firstToken secondDraws defaultTpm).run .allDone
          ((openIdentity firstToken firstDraws defaultTpm).run .allDone newNode).2).1 =
            .ok identity) ∧
        PinMatches defaultTpm firstToken
          ((openIdentity firstToken firstDraws defaultTpm).run .allDone newNode).2) ↔
      CutHarmlessly defaultTpm firstDraws secondDraws .allDone newNode :=
  provisioning_recoverable_iff firstToken first_token_opens defaultTpm firstDraws secondDraws
    .allDone newNode new_node_missing

/-- No later call can open the token: its SO PIN is lost. -/
theorem killed_after_init_unrecoverable :
    ¬∃ identity, ((openIdentity firstToken secondDraws defaultTpm).run .allDone
      ((openIdentity firstToken firstDraws defaultTpm).run killedAfterInit newNode).2).1 =
        .ok identity := by
  have accepted : Accepts newNode.slots (randomPin firstDraws.soPin) :=
    ⟨0, ⟨true, .uninitialized⟩, rfl, rfl, trivial⟩
  have taken : TokenTaken firstDraws killedAfterInit newNode :=
    ⟨trivial, ⟨by decide, fun _ => rfl⟩, accepted, trivial⟩
  have unwritten : ¬PinCreated defaultTpm killedAfterInit := by
    intro created
    have opened := created.1 .openSession (by simp)
    cases opened
  obtain ⟨token, still⟩ := (open_leaves killedAfterInit newNode defaultTpm firstToken firstDraws
    new_node_missing).tokenOnly taken unwritten
  intro opened
  have accepts := ((open_missing_iff first_token_opens secondDraws still).mp opened).2
  exact second_so_pin_ne ((initialized_accepts_iff _ token).mp accepts)

end Theorem

end NodeOs.Noded.TokenProvisioning
