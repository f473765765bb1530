import Mathlib.Data.List.Flatten
import NodeOs.Noded.Enrollment

/-!
# The TPM-resident node key

`open` decides by the PIN file alone whether the token has been provisioned.
Provisioning sets a random SO PIN that nobody keeps, and writes the user PIN
into the file only after the token has both.
-/

namespace NodeOs.Noded.Pkcs11

open NodeOs.Library.FaultPlan NodeOs.Library.FaultPlan.Proc
open NodeOs.Noded.FileSystem NodeOs.Noded.Enrollment

/-- `userPin` is absent between `C_InitToken` and `C_InitPIN`. -/
inductive Token where
  | uninitialized
  | initialized (label soPin : String) (userPin : Option String)
      (keys : List (String × PublicKey))
  deriving DecidableEq, Repr

structure Slot where
  hasToken : Bool
  token : Token
  deriving DecidableEq, Repr

/-- What survives a boot: the module's slots, in their fixed order, and the
disk. -/
structure OpenState where
  slots : List Slot
  disk : Disk

/-- The slot that `Pkcs11KeyProvider::new` opens when it is given none. -/
structure Provider where
  slotFor : List Slot → Option Nat

/-- What a call draws at random: two PINs, and the key the token would
generate. -/
structure Draws where
  soPin : Fin 24 → Fin 62
  userPin : Fin 24 → Fin 62
  newKey : PublicKey

inductive OpenStep where
  | statPin
  | readPin
  | loadModule
  | cInitialize
  | slotsWithToken
  | allSlots
  | initToken
  | openSession
  | loginSo
  | initPin
  | logout
  | createPinDir
  | createPin
  | writePin
  | syncPin
  | openProvider
  | findKey
  | generateKey
  deriving DecidableEq, Repr

abbrev Open := Proc OpenStep Error OpenState

/-- A call that changes the state or is refused. -/
def call (label : OpenStep) (error : Error) (effect : OpenState → Option OpenState) : Open Unit :=
  step label error (fun extent state => if extent = 0 then state else (effect state).getD state)
    fun state =>
      match effect state with
      | some after => (.ok (), after)
      | none => (.err error, state)

/-- A call that only answers. -/
def query {Value : Type} (label : OpenStep) (error : Error)
    (answer : OpenState → Option Value) : Open Value :=
  step label error (fun _ state => state) fun state =>
    match answer state with
    | some value => (.ok value, state)
    | none => (.err error, state)

/-- `Path::exists` takes an error for absence. -/
def fileExists (label : OpenStep) (path : Path) : Open Bool := do
  match ← attempt (check label [osError]) with
  | .ok () => observe fun state => (state.disk.files path).isSome || state.disk.dirs path
  | .error _ => pure false

def charset : List Char :=
  "ABCDEFGHIJKLMNOPQRSTUVWXYZabcdefghijklmnopqrstuvwxyz0123456789".toList

theorem charset_length : charset.length = 62 := by decide

def randomPin (draws : Fin 24 → Fin 62) : String :=
  .ofList (List.ofFn fun index => charset.get ((draws index).cast charset_length.symm))

/-- `String::from_utf8`. -/
def fromUtf8 (bytes : Bytes) : Option String :=
  bytes.toByteArray.utf8Decode?.map fun chars => .ofList chars.toList

def readPin (path : Path) : Open String := do
  let pin ← query .readPin [s!"read token PIN {path.display}", osError] fun state =>
    (state.disk.content path).bind fromUtf8
  pure (trim pin)

def allSlots (slots : List Slot) : List Nat := List.range slots.length

def slotsWithToken (slots : List Slot) : List Nat :=
  (allSlots slots).filter fun index => (slots[index]?.map Slot.hasToken).getD false

def listSlots : Open (List Nat) := do
  let slots ← query .slotsWithToken [s!"get slots with token: {libraryError}"] fun state =>
    some (slotsWithToken state.slots)
  if slots.isEmpty then
    query .allSlots [s!"get all slots: {libraryError}"] fun state => some (allSlots state.slots)
  else pure slots

/-- Where provisioning happens: the first slot with a token, or the first
slot. -/
def selectSlot : Open Nat := do
  let slots ← listSlots
  match slots.head? with
  | some slot => pure slot
  | none => raise ["no PKCS#11 slot available to initialize"]

/-- An initialised token accepts only its own SO PIN, and loses its objects. -/
def Slot.init (label soPin : String) (slot : Slot) : Option Slot :=
  match slot.token with
  | .uninitialized => some ⟨true, .initialized label soPin none []⟩
  | .initialized _ current _ _ =>
      if soPin = current then some ⟨true, .initialized label soPin none []⟩ else none

def Slot.loginSo (soPin : String) (slot : Slot) : Option Slot :=
  match slot.token with
  | .uninitialized => none
  | .initialized _ current _ _ => if soPin = current then some slot else none

def Slot.initPin (userPin : String) (slot : Slot) : Option Slot :=
  match slot.token with
  | .uninitialized => none
  | .initialized label soPin _ keys =>
      some { slot with token := .initialized label soPin (some userPin) keys }

def Slot.addKey (label : String) (key : PublicKey) (slot : Slot) : Option Slot :=
  match slot.token with
  | .uninitialized => none
  | .initialized tokenLabel soPin userPin keys =>
      some { slot with token := .initialized tokenLabel soPin userPin (keys ++ [(label, key)]) }

def OpenState.setSlot (state : OpenState) (index : Nat) (slot : Slot) : OpenState :=
  { state with slots := state.slots.set index slot }

def onSlot (index : Nat) (change : Slot → Option Slot) (state : OpenState) : Option OpenState := do
  let slot ← state.slots[index]?
  let slot ← change slot
  some (state.setSlot index slot)

def fillFile (path : Path) (content : Bytes) (state : OpenState) : OpenState :=
  let filled := (state.disk.files path).map fun file => { file with content := content }
  { state with disk := state.disk.put path filled }

/-- The mode takes effect only on a new file. -/
def emptyFile (path : Path) (state : OpenState) : OpenState :=
  let mode := ((state.disk.files path).map File.mode).getD 0o600
  { state with disk := state.disk.put path (some { content := [], mode := mode }) }

/-- `O_CREAT | O_TRUNC` needs a file name. -/
def truncateFile (path : Path) (state : OpenState) : Option OpenState :=
  if path.fileName = none then none else some (emptyFile path state)

def addDirs (made : List Path) (state : OpenState) : OpenState :=
  { state with disk := state.disk.makeDirs made }

def makePinDir (path : Path) : Open Unit :=
  match path.parent with
  | some parent =>
      step .createPinDir [s!"create PIN directory {parent.display}", osError]
        (fun extent => addDirs (parent.enclosing.take extent))
        fun state => (.ok (), addDirs parent.enclosing state)
  | none => pure ()

def createPin (path : Path) : Open Unit :=
  call .createPin [s!"create PIN file {path.display}", osError] (truncateFile path)

/-- The file is emptied, or created, before it is filled. -/
def fillPin (path : Path) (pin : String) : Open Unit := do
  createPin path
  step .writePin [s!"write PIN file {path.display}", osError]
    (fun extent => fillFile path ((asBytes pin).take extent))
    fun state => (.ok (), fillFile path (asBytes pin) state)
  ignore (check .syncPin [osError])

def writePin (path : Path) (pin : String) : Open Unit := do
  makePinDir path
  fillPin path pin

/-- The first half of `provision_token`, before anything is changed. -/
def findSlot (cfg : TpmPkcs11Config) : Open Nat := do
  check .loadModule [s!"load PKCS#11 module {cfg.library.display}: {libraryError}"]
  check .cInitialize [s!"C_Initialize: {libraryError}"]
  selectSlot

/-- The session in which the SO sets the user PIN. -/
def setUserPin (slot : Nat) (soPin userPin : String) : Open Unit := do
  check .openSession [s!"open rw session: {libraryError}"]
  call .loginSo [s!"login SO: {libraryError}"] (onSlot slot (Slot.loginSo soPin))
  call .initPin [s!"C_InitPIN: {libraryError}"] (onSlot slot (Slot.initPin userPin))
  check .logout [s!"logout SO: {libraryError}"]

def provisionToken (cfg : TpmPkcs11Config) (draws : Draws) : Open String := do
  let soPin := randomPin draws.soPin
  let userPin := randomPin draws.userPin
  let slot ← findSlot cfg
  call .initToken [s!"C_InitToken: {libraryError}"] (onSlot slot (Slot.init cfg.tokenLabel soPin))
  setUserPin slot soPin userPin
  writePin cfg.pinFile userPin
  pure userPin

/-- The token in the slot accepts this user PIN. -/
def logsIn (slots : List Slot) (slot : Nat) (pin : String) : Bool :=
  match slots[slot]? with
  | some ⟨_, .initialized _ _ userPin _⟩ => userPin == some pin
  | _ => false

/-- `Pkcs11KeyProvider::new`: the slot in which the user is logged in. -/
def openProvider (provider : Provider) (pin : String) : Open Nat :=
  query .openProvider [s!"open PKCS#11 token: {libraryError}"] fun state => do
    let slot ← provider.slotFor state.slots
    if logsIn state.slots slot pin then some slot else none

def keysIn (slots : List Slot) (slot : Nat) : List (String × PublicKey) :=
  match slots[slot]? with
  | some ⟨_, .initialized _ _ _ keys⟩ => keys
  | _ => []

def ensureKey (slot : Nat) (label : String) (newKey : PublicKey) : Open PublicKey := do
  let found ← query .findKey [s!"look up token key: {libraryError}"] fun state =>
    some ((keysIn state.slots slot).lookup label)
  match found with
  | some key => pure key
  | none =>
      call .generateKey [s!"generate token key: {libraryError}"]
        (onSlot slot (Slot.addKey label newKey))
      pure newKey

def obtainPin (draws : Draws) (cfg : TpmPkcs11Config) : Open String := do
  let provisioned ← fileExists .statPin cfg.pinFile
  if provisioned then readPin cfg.pinFile else provisionToken cfg draws

/-- The part of `open` that needs the PIN. -/
def openToken (provider : Provider) (draws : Draws) (cfg : TpmPkcs11Config) (userPin : String) :
    Open TpmIdentity := do
  let slot ← openProvider provider userPin
  let key ← ensureKey slot cfg.keyLabel draws.newKey
  pure ⟨key⟩

def openIdentity (provider : Provider) (draws : Draws) (cfg : TpmPkcs11Config) :
    Open TpmIdentity := do
  let userPin ← obtainPin draws cfg
  openToken provider draws cfg userPin

section Slots

/-- The slot that provisioning selects. -/
def selected (slots : List Slot) : Option Nat :=
  (if slotsWithToken slots = [] then allSlots slots else slotsWithToken slots).head?

theorem slots_with_token_congr {slots other : List Slot}
    (same : other.map Slot.hasToken = slots.map Slot.hasToken) :
    slotsWithToken other = slotsWithToken slots := by
  have lengths : other.length = slots.length := by
    have := congrArg List.length same
    simpa using this
  have flags (index : Nat) : other[index]?.map Slot.hasToken = slots[index]?.map Slot.hasToken := by
    rw [← List.getElem?_map, ← List.getElem?_map, same]
  simp only [slotsWithToken, allSlots, lengths, flags]

theorem selected_congr {slots other : List Slot}
    (same : other.map Slot.hasToken = slots.map Slot.hasToken) :
    selected other = selected slots := by
  have lengths : other.length = slots.length := by
    have := congrArg List.length same
    simpa using this
  simp only [selected, slots_with_token_congr same, allSlots, lengths]

theorem set_flags {slots : List Slot} {index : Nat} {old new : Slot}
    (there : slots[index]? = some old) (same : new.hasToken = old.hasToken) :
    (slots.set index new).map Slot.hasToken = slots.map Slot.hasToken := by
  apply List.ext_getElem?
  intro other
  simp only [List.getElem?_map, List.getElem?_set]
  by_cases here : index = other
  · have inside : index < slots.length := (List.getElem?_eq_some_iff.mp there).1
    rw [← here, there]
    simp [same, inside]
  · simp [here]

/-- The selected slot stays selected when its token is initialised. -/
theorem selected_set {slots : List Slot} {index : Nat} {new : Slot}
    (chosen : selected slots = some index) (held : new.hasToken = true) :
    selected (slots.set index new) = some index := by
  by_cases bare : slotsWithToken slots = []
  · -- No slot has a token, so the first one was taken and is now the only one with a token.
    rw [selected, if_pos bare, allSlots] at chosen
    cases slots with
    | nil => simp at chosen
    | cons first rest =>
        rw [List.length_cons, List.range_succ_eq_map, List.head?_cons, Option.some.injEq] at chosen
        subst chosen
        have front : slotsWithToken (new :: rest) ≠ [] := by
          simp [slotsWithToken, allSlots, List.range_succ_eq_map, held]
        rw [List.set_cons_zero, selected, if_neg front]
        simp [slotsWithToken, allSlots, List.range_succ_eq_map, held]
  · have chosen' := chosen
    rw [selected, if_neg bare] at chosen'
    have member := List.mem_of_mem_head? (Option.mem_def.mpr chosen')
    simp only [slotsWithToken, List.mem_filter] at member
    cases there : slots[index]? with
    | none => simp [there] at member
    | some old =>
        have flag : old.hasToken = true := by simpa [there] using member.2
        rw [selected_congr (set_flags there (held.trans flag.symm)), chosen]

theorem selected_there {slots : List Slot} {index : Nat} (chosen : selected slots = some index) :
    ∃ slot, slots[index]? = some slot := by
  have inside : index ∈ allSlots slots := by
    unfold selected at chosen
    split at chosen
    · exact List.mem_of_mem_head? chosen
    · exact (List.mem_filter.mp (List.mem_of_mem_head? chosen)).1
  rw [allSlots, List.mem_range] at inside
  exact ⟨slots[index], List.getElem?_eq_getElem inside⟩

/-- A change that leaves a token in its slot does not change the selection. -/
theorem selected_set_same {slots : List Slot} {index : Nat} {old new : Slot}
    (there : slots[index]? = some old) (same : new.hasToken = old.hasToken) :
    selected (slots.set index new) = selected slots :=
  selected_congr (set_flags there same)

end Slots

section Texts

theorem from_utf8_as_bytes (text : String) : fromUtf8 (asBytes text) = some text := by
  have encoded : (asBytes text).toByteArray = text.toList.utf8Encode := rfl
  rw [fromUtf8, encoded, List.utf8Decode?_utf8Encode]
  simp

theorem from_utf8_length {bytes : Bytes} {text : String} (read : fromUtf8 bytes = some text) :
    (asBytes text).length = bytes.length := by
  unfold fromUtf8 at read
  cases decoded : bytes.toByteArray.utf8Decode? with
  | none => simp [decoded] at read
  | some chars =>
      rw [decoded, Option.map_some, Option.some.injEq] at read
      have encoded : chars.toList.utf8Encode = bytes.toByteArray := by
        have inverse := @ByteArray.utf8Encode_get_utf8Decode? bytes.toByteArray (by simp [decoded])
        simpa [decoded] using inverse
      have sizes := congrArg ByteArray.size encoded
      rw [List.size_toByteArray] at sizes
      rw [← read, asBytes, String.toList_ofList, ← sizes]
      simp [List.utf8Encode]

theorem trim_sublist (text : String) : (trim text).toList.Sublist text.toList := by
  unfold trim
  rw [String.toList_ofList]
  apply List.Sublist.trans _ (List.dropWhile_sublist isWhitespace)
  rw [← List.reverse_sublist, List.reverse_reverse]
  exact List.dropWhile_sublist isWhitespace

theorem trim_of_solid {text : String} (solid : ∀ char ∈ text.toList, isWhitespace char = false) :
    trim text = text := by
  have kept (chars : List Char) (all : ∀ char ∈ chars, isWhitespace char = false) :
      chars.dropWhile isWhitespace = chars := by
    cases chars with
    | nil => rfl
    | cons char more => simp [all char (by simp)]
  unfold trim
  rw [kept _ solid, kept _ (by simpa using solid), List.reverse_reverse, String.ofList_toList]

theorem charset_solid : ∀ char ∈ charset, isWhitespace char = false := by decide

theorem trim_random_pin (draws : Fin 24 → Fin 62) : trim (randomPin draws) = randomPin draws := by
  apply trim_of_solid
  intro char member
  rw [randomPin, String.toList_ofList, List.mem_ofFn] at member
  obtain ⟨index, rfl⟩ := member
  exact charset_solid _ (List.get_mem _ _)

/-- A file that reads as a given PIN, after trimming, is no shorter than the
PIN. -/
theorem pin_file_length {bytes : Bytes} {text : String} (read : fromUtf8 bytes = some text) :
    (asBytes (trim text)).length ≤ bytes.length := by
  rw [← from_utf8_length read]
  exact ((trim_sublist text).flatMap String.utf8EncodeChar).length_le

end Texts

section Running

variable {plan : Plan OpenStep} {state : OpenState}

/-- Some effect of the step took place. -/
def begun : Fate → Prop
  | .done => True
  | .fails extent => extent ≠ 0
  | .killed extent => extent ≠ 0

instance : (fate : Fate) → Decidable (begun fate)
  | .done => inferInstanceAs (Decidable True)
  | .fails extent => inferInstanceAs (Decidable (extent ≠ 0))
  | .killed extent => inferInstanceAs (Decidable (extent ≠ 0))

theorem call_done {label : OpenStep} (error : Error) {effect : OpenState → Option OpenState}
    {after : OpenState} (done : plan label = .done) (taken : effect state = some after) :
    (call label error effect).run plan state = (.ok (), after) := by
  rw [call, run_step, done]
  simp only [taken]

theorem call_refused (plan : Plan OpenStep) (label : OpenStep) (error : Error)
    {effect : OpenState → Option OpenState}
    (refused : effect state = none) :
    ((call label error effect).run plan state).1 ≠ .ok () ∧
      ((call label error effect).run plan state).2 = state := by
  rw [call, run_step]
  cases plan label <;> simp [refused]

theorem call_broken {label : OpenStep} (error : Error) {effect : OpenState → Option OpenState}
    {after : OpenState} (broken : plan label ≠ .done) (taken : effect state = some after) :
    ((call label error effect).run plan state).1 ≠ .ok () ∧
      ((call label error effect).run plan state).2 =
        if begun (plan label) then after else state := by
  rw [call, run_step]
  cases fate : plan label with
  | done => exact absurd fate broken
  | fails extent => by_cases unbegun : extent = 0 <;> simp [taken, begun, unbegun]
  | killed extent => by_cases unbegun : extent = 0 <;> simp [taken, begun, unbegun]

end Running

end NodeOs.Noded.Pkcs11
