import NodeOs.Noded.BootstrapPair

/-!
# A node whose key is in the token

Nothing in the configuration ties the certificate to the token: `open` looks
the key up under a label, the enrollment has it certified, and a later boot only
finds that a PIN file and a certificate exist. What ties them is that the key of
an initialised token is found again, and that no boot initialises it twice.
-/

namespace NodeOs.Noded.TpmNode

open NodeOs.Library.FaultPlan NodeOs.Library.FaultPlan.Proc NodeOs.Library.Machine
open NodeOs.Noded.FileSystem NodeOs.Noded.WriteAtomic NodeOs.Noded.Enrollment
open NodeOs.Noded.Bootstrap NodeOs.Noded.Pkcs11 NodeOs.Noded.TokenProvisioning
open NodeOs.Noded.Node NodeOs.Noded.Footprint NodeOs.Noded.Reconcile
open NodeOs.Noded.BootstrapPair NodeOs.Noded.Workload

def slotKeys (slot : Slot) : List (String × PublicKey) :=
  match slot.token with
  | .uninitialized => []
  | .initialized _ _ _ keys => keys

/-- The key that the token holds under a label. -/
def tokenKey (slots : List Slot) (label : String) : Option PublicKey :=
  (selected slots).bind fun index => (keysIn slots index).lookup label

/-- Only the selected slot's token has been initialised. -/
def Lone (slots : List Slot) : Prop :=
  ∀ index slot, slots[index]? = some slot → slot.token ≠ .uninitialized →
    selected slots = some index

/-- None of the tokens has this SO PIN. -/
def Undrawn (slots : List Slot) (soPin : String) : Prop :=
  ∀ slot ∈ slots, slot.token ≠ .uninitialized → ¬takesPin soPin slot

/-- A change to an initialised token in which no key is lost. -/
structure Grows (old new : Slot) : Prop where
  flag : new.hasToken = old.hasToken
  initialized : old.token ≠ .uninitialized
  keys : ∀ label key, (slotKeys old).lookup label = some key →
    (slotKeys new).lookup label = some key

section Slots

variable {slots : List Slot} {index : Nat} {old new : Slot}

theorem keys_in_there (there : slots[index]? = some old) : keysIn slots index = slotKeys old := by
  unfold keysIn slotKeys
  rw [there]
  cases old with
  | mk hasToken token => cases token <;> rfl

theorem token_key_eq_some_iff (label : String) (key : PublicKey) :
    tokenKey slots label = some key ↔
      ∃ index slot, selected slots = some index ∧ slots[index]? = some slot ∧
        (slotKeys slot).lookup label = some key := by
  unfold tokenKey
  rw [Option.bind_eq_some_iff]
  constructor
  · rintro ⟨index, chosen, found⟩
    obtain ⟨slot, there⟩ := selected_there chosen
    rw [keys_in_there there] at found
    exact ⟨index, slot, chosen, there, found⟩
  · rintro ⟨index, slot, chosen, there, found⟩
    rw [← keys_in_there there] at found
    exact ⟨index, chosen, found⟩

theorem getElem_of_set (there : slots[index]? = some old) (other : Nat) {slot : Slot}
    (found : (slots.set index new)[other]? = some slot) :
    (other = index ∧ slot = new) ∨ (other ≠ index ∧ slots[other]? = some slot) := by
  have inside := (List.getElem?_eq_some_iff.mp there).1
  by_cases here : other = index
  · left
    rw [here, List.getElem?_set_self inside] at found
    exact ⟨here, (Option.some.inj found).symm⟩
  · right
    rw [List.getElem?_set_ne (Ne.symm here)] at found
    exact ⟨here, found⟩

theorem grown_lone (lone : Lone slots) (there : slots[index]? = some old) (grows : Grows old new) :
    Lone (slots.set index new) := by
  intro other slot found active
  rw [selected_set_same there grows.flag]
  cases getElem_of_set there other found with
  | inl here =>
      rw [here.1]
      exact lone index old there grows.initialized
  | inr apart => exact lone other slot apart.2 active

theorem grown_token_key (lone : Lone slots) (there : slots[index]? = some old)
    (grows : Grows old new) {label : String} {key : PublicKey}
    (held : tokenKey slots label = some key) :
    tokenKey (slots.set index new) label = some key := by
  rw [token_key_eq_some_iff] at held ⊢
  obtain ⟨chosen, slot, selects, found, looked⟩ := held
  have here : chosen = index :=
    Option.some.inj (selects.symm.trans (lone index old there grows.initialized))
  rw [here, there] at found
  have same : slot = old := (Option.some.inj found).symm
  refine ⟨chosen, new, ?_, ?_, ?_⟩
  · rw [selected_set_same there grows.flag, selects]
  · rw [here]
    exact List.getElem?_set_self (List.getElem?_eq_some_iff.mp there).1
  · apply grows.keys
    rwa [← same]

/-- A token that is initialised is the only one from then on. -/
theorem init_lone (lone : Lone slots) (chosen : selected slots = some index)
    (there : slots[index]? = some old) (held : new.hasToken = true) :
    Lone (slots.set index new) := by
  intro other slot found active
  rw [selected_set chosen held]
  cases getElem_of_set there other found with
  | inl here => rw [here.1]
  | inr apart => rw [← chosen, lone other slot apart.2 active]

theorem blank_token_key (chosen : selected slots = some index) (there : slots[index]? = some old)
    (blank : old.token = .uninitialized) (label : String) : tokenKey slots label = none := by
  unfold tokenKey
  rw [chosen, Option.bind_some, keys_in_there there, slotKeys, blank]
  rfl

theorem init_of_undrawn {label soPin : String} (undrawn : Undrawn slots soPin)
    (there : slots[index]? = some old) (taken : Slot.init label soPin old = some new) :
    old.token = .uninitialized ∧ new.hasToken = true := by
  by_cases blank : old.token = .uninitialized
  · refine ⟨blank, ?_⟩
    unfold Slot.init at taken
    rw [blank] at taken
    rw [← Option.some.inj taken]
  · exfalso
    have refused := slot_init_refused label (undrawn old (List.mem_of_getElem? there) blank)
    rw [refused] at taken
    cases taken

theorem login_so_grows {soPin : String} (taken : Slot.loginSo soPin old = some new) :
    Grows old new := by
  unfold Slot.loginSo at taken
  split at taken
  · cases taken
  · rename_i active
    split at taken
    · rw [← Option.some.inj taken]
      exact ⟨rfl, by simp [active], fun _ _ found => found⟩
    · cases taken

theorem init_pin_grows {userPin : String} (taken : Slot.initPin userPin old = some new) :
    Grows old new := by
  unfold Slot.initPin at taken
  split at taken
  · cases taken
  · rename_i active
    rw [← Option.some.inj taken]
    refine ⟨rfl, by simp [active], fun label key found => ?_⟩
    rw [slotKeys, active] at found
    exact found

theorem add_key_grows {label : String} {key : PublicKey}
    (taken : Slot.addKey label key old = some new) : Grows old new := by
  unfold Slot.addKey at taken
  split at taken
  · cases taken
  · rename_i active
    rw [← Option.some.inj taken]
    refine ⟨rfl, by simp [active], fun other found looked => ?_⟩
    rw [slotKeys, active] at looked
    rw [slotKeys]
    simp [List.lookup_append, looked]

/-- A key that is generated because none was found is the one that is found. -/
theorem added_key (lone : Lone slots) {label : String} {key : PublicKey}
    (there : slots[index]? = some old) (missing : (slotKeys old).lookup label = none)
    (taken : Slot.addKey label key old = some new) :
    tokenKey (slots.set index new) label = some key := by
  have grows := add_key_grows taken
  rw [token_key_eq_some_iff]
  refine ⟨index, new, ?_, ?_, ?_⟩
  · rw [selected_set_same there grows.flag]
    exact lone index old there grows.initialized
  · exact List.getElem?_set_self (List.getElem?_eq_some_iff.mp there).1
  · unfold Slot.addKey at taken
    split at taken
    · cases taken
    · rename_i active
      rw [slotKeys, active] at missing
      rw [← Option.some.inj taken, slotKeys]
      simp [List.lookup_append, missing]

theorem logs_in_selected {pin : String} (lone : Lone slots)
    (enters : logsIn slots index pin = true) :
    selected slots = some index ∧ ∃ slot, slots[index]? = some slot := by
  unfold logsIn at enters
  split at enters
  · rename_i hasToken label soPin userPin keys found
    exact ⟨lone index _ found (by simp), _, found⟩
  · cases enters

end Slots

/-- The token's key is the one of the identity, and its PIN is kept. -/
structure Opened (cfg : TpmPkcs11Config) (key : PublicKey) (slots : List Slot) (disk : Disk) :
    Prop where
  key : tokenKey slots cfg.keyLabel = some key
  pin : entryExists disk cfg.pinFile = true

/-- The certificate certifies the token's key. -/
structure Backed (pki : Pki) (config : Config) (cfg : TpmPkcs11Config) (slots : List Slot)
    (disk : Disk) : Prop where
  pin : entryExists disk cfg.pinFile = true
  pair : ∃ key, tokenKey slots cfg.keyLabel = some key ∧
    (disk.content config.certFile).bind pki.certified = some key

/-- What a node with a token promises of its files: there is no key file, and a
certificate only for the token's key. -/
def IdentityHeld (pki : Pki) (config : Config) (cfg : TpmPkcs11Config) (slots : List Slot)
    (disk : Disk) : Prop :=
  entryExists disk config.keyFile = false ∧
    (entryExists disk config.certFile = true → Backed pki config cfg slots disk)

/-- The files that a node with a token replaces. -/
def replacedFiles (config : Config) : List Path :=
  config.certFile :: config.clientCa :: (workloadTargets config.profile).map Target.path

/-- No temporary file and no directory that is made takes the place of the
certificate, of the key file or of the PIN file. -/
structure Apart (config : Config) (cfg : TpmPkcs11Config) : Prop where
  keyFile : ∀ written ∈ replacedFiles config, Spares written config.keyFile
  certFile : ∀ written ∈ (replacedFiles config).tail, Spares written config.certFile
  pinFile : ∀ written ∈ replacedFiles config, written.tempPath ≠ some cfg.pinFile
  pin : ∀ path ∈ [config.keyFile, config.certFile], path ≠ cfg.pinFile ∧
    ∀ parent ∈ cfg.pinFile.parent, path ∉ parent.enclosing
  store : ∀ path ∈ [config.keyFile, config.certFile], path ∉ cfg.store.enclosing

instance (config : Config) (cfg : TpmPkcs11Config) : Decidable (Apart config cfg) :=
  decidable_of_iff
    ((∀ written ∈ replacedFiles config, Spares written config.keyFile) ∧
      (∀ written ∈ (replacedFiles config).tail, Spares written config.certFile) ∧
      (∀ written ∈ replacedFiles config, written.tempPath ≠ some cfg.pinFile) ∧
      (∀ path ∈ [config.keyFile, config.certFile], path ≠ cfg.pinFile ∧
        ∀ parent ∈ cfg.pinFile.parent, path ∉ parent.enclosing) ∧
      ∀ path ∈ [config.keyFile, config.certFile], path ∉ cfg.store.enclosing)
    ⟨fun ⟨keyFile, certFile, pinFile, pin, store⟩ => ⟨keyFile, certFile, pinFile, pin, store⟩,
      fun apart => ⟨apart.keyFile, apart.certFile, apart.pinFile, apart.pin, apart.store⟩⟩

section Disks

variable {pki : Pki} {config : Config} {cfg : TpmPkcs11Config} {slots : List Slot}
  {disk after : Disk}

theorem held_of_same (held : IdentityHeld pki config cfg slots disk)
    (keyFile : entry config.keyFile after = entry config.keyFile disk)
    (certFile : entry config.certFile after = entry config.certFile disk)
    (pin : entryExists disk cfg.pinFile = true → entryExists after cfg.pinFile = true) :
    IdentityHeld pki config cfg slots after := by
  obtain ⟨missing, backed⟩ := held
  constructor
  · rw [entry_exists_congr keyFile]
    exact missing
  · intro there
    rw [entry_exists_congr certFile] at there
    have old := backed there
    constructor
    · exact pin old.pin
    · rw [entry_content certFile]
      exact old.pair

theorem make_dirs_held {made : List Path}
    (outside : ∀ path ∈ [config.keyFile, config.certFile], path ∉ made)
    (held : IdentityHeld pki config cfg slots disk) :
    IdentityHeld pki config cfg slots (disk.makeDirs made) := by
  apply held_of_same held
  · exact make_dirs_entry (outside _ (by simp))
  · exact make_dirs_entry (outside _ (by simp))
  · exact make_dirs_keeps_existing made

/-- Writing the PIN keeps the promise. -/
theorem pin_keeps_held (apart : Apart config cfg) :
    PinPreserves (IdentityHeld pki config cfg slots) cfg where
  dirs disk parent made parented inside held := by
    apply make_dirs_held _ held
    intro path listed member
    exact (apart.pin path listed).2 parent parented (inside path member)
  file disk file held := by
    apply held_of_same held
    · exact put_entry _ (apart.pin _ (by simp)).1
    · exact put_entry _ (apart.pin _ (by simp)).1
    · exact put_keeps_existing cfg.pinFile file

/-- So does a write to any file but the certificate. -/
theorem write_keeps_held (apart : Apart config cfg) {written : Path}
    (listed : written ∈ (replacedFiles config).tail) (data : Bytes) (isPrivate : Bool) :
    Preserves (IdentityHeld pki config cfg slots) (writeAtomic written data isPrivate) := by
  have replaced : written ∈ replacedFiles config := List.mem_of_mem_tail listed
  intro plan disk held
  apply held_of_same held
  · exact write_atomic_keeps (apart.keyFile written replaced) data isPrivate plan disk
  · exact write_atomic_keeps (apart.certFile written listed) data isPrivate plan disk
  · exact write_atomic_keeps_existing (apart.pinFile written replaced) data isPrivate plan disk

/-- A write replaces the file as a whole or leaves it alone. -/
theorem write_atomic_own (path : Path) (data : Bytes) (isPrivate : Bool) (plan : Plan WriteStep)
    (disk : Disk) :
    entry path ((writeAtomic path data isPrivate).run plan disk).2 = entry path disk ∨
      ((writeAtomic path data isPrivate).run plan disk).2.content path = some data := by
  have files := (write_atomic_result path data isPrivate plan disk).files
  have dirs : _ = disk.dirs path := write_atomic_keeps_dirs own_dirs data isPrivate plan disk
  cases moved : progress path data plan with
  | replaced =>
      right
      obtain ⟨temp, staged⟩ := progress_has_temp (by rw [moved]; simp)
      rw [Disk.content, files, moved, replaced_at_path staged]
      rfl
  | untouched =>
      left
      unfold entry
      rw [files, apply_unreplaced (by rw [moved]; simp)]
      exact Prod.ext rfl dirs
  | staged bytes =>
      left
      unfold entry
      rw [files, apply_unreplaced (by rw [moved]; simp)]
      exact Prod.ext rfl dirs

/-- The promise of a node that has opened its token. -/
structure Running (pki : Pki) (config : Config) (cfg : TpmPkcs11Config) (slots : List Slot)
    (disk : Disk) : Prop where
  held : IdentityHeld pki config cfg slots disk
  pin : entryExists disk cfg.pinFile = true

theorem write_keeps_running (apart : Apart config cfg) {written : Path}
    (listed : written ∈ (replacedFiles config).tail) (data : Bytes) (isPrivate : Bool) :
    Preserves (Running pki config cfg slots) (writeAtomic written data isPrivate) := by
  have noTemp := apart.pinFile written (List.mem_of_mem_tail listed)
  intro plan disk running
  constructor
  · exact write_keeps_held apart listed data isPrivate plan disk running.held
  · exact write_atomic_keeps_existing noTemp data isPrivate plan disk running.pin

theorem write_cert_keeps_running (apart : Apart config cfg) {key : PublicKey}
    (tokened : tokenKey slots cfg.keyLabel = some key) {data : Bytes}
    (certifies : pki.certified data = some key) (isPrivate : Bool) :
    Preserves (Running pki config cfg slots) (writeAtomic config.certFile data isPrivate) := by
  have listed : config.certFile ∈ replacedFiles config := by simp [replacedFiles]
  intro plan disk running
  have pin := write_atomic_keeps_existing (apart.pinFile _ listed) data isPrivate plan disk
    running.pin
  have keyFile := write_atomic_keeps (apart.keyFile _ listed) data isPrivate plan disk
  refine ⟨?_, pin⟩
  cases write_atomic_own config.certFile data isPrivate plan disk with
  | inl same => exact held_of_same running.held keyFile same fun _ => pin
  | inr whole =>
      constructor
      · rw [entry_exists_congr keyFile]
        exact running.held.1
      · intro _
        refine ⟨pin, key, tokened, ?_⟩
        rw [whole, Option.bind_some, certifies]

theorem targets_keep_running (apart : Apart config cfg) :
    TargetsPreserve (Running pki config cfg slots) config.profile := by
  intro target listed data
  apply write_keeps_running apart
  simp only [replacedFiles, List.tail_cons, List.mem_cons]
  exact Or.inr (List.mem_map_of_mem listed)

theorem issued_cert_keeps_running (encodes : pki.Encodes) (apart : Apart config cfg)
    {server : EstServer} {fresh : KeyPair} {identity : TpmIdentity} (certifies : Certifies server)
    (tokened : tokenKey slots cfg.keyLabel = some identity.publicKey)
    {certificate : Certificate} {pem : String}
    (certified : Certified server (enrolledKey fresh (some identity)) certificate)
    (encoded : pki.toPem certificate = .ok pem) :
    Preserves (Running pki config cfg slots) (writeAtomic config.certFile (asBytes pem) false) := by
  obtain ⟨request, asked, answer⟩ := certified
  apply write_cert_keeps_running apart tokened
  rw [encodes.certified certificate pem encoded, certifies request certificate answer, asked]
  rfl

theorem reenroll_keeps_running (encodes : pki.Encodes) (apart : Apart config cfg)
    {server : EstServer} (fresh : KeyPair) {identity : TpmIdentity} (certifies : Certifies server)
    (tokened : tokenKey slots cfg.keyLabel = some identity.publicKey) :
    Preserves (onDisk (Running pki config cfg slots))
      (reenroll pki server fresh config (some identity)) := by
  apply reenroll_preserves
  · intro certificate pem certified encoded
    exact issued_cert_keeps_running encodes apart certifies tokened certified encoded
  · intro absent
    cases absent

theorem bootstrap_keeps_running (encodes : pki.Encodes) (apart : Apart config cfg)
    {server : BootstrapServer} (fresh : KeyPair) {identity : TpmIdentity}
    (certifies : Certifies server.simpleenroll)
    (tokened : tokenKey slots cfg.keyLabel = some identity.publicKey) :
    Preserves (onDisk (Running pki config cfg slots))
      (bootstrapEnroll pki server fresh config (some identity)) := by
  apply bootstrap_enroll_preserves
  · intro certificate pem certified encoded
    exact issued_cert_keeps_running encodes apart certifies tokened certified encoded
  · intro absent
    cases absent
  · intro pem
    exact write_keeps_running apart (by simp [replacedFiles]) _ _

end Disks

section Opening

variable {pki : Pki} {config : Config} {cfg : TpmPkcs11Config} {plan : Plan OpenStep}

/-- The invariant of the token and the files beside it. -/
structure Sound (pki : Pki) (config : Config) (cfg : TpmPkcs11Config) (state : OpenState) :
    Prop where
  lone : Lone state.slots
  held : IdentityHeld pki config cfg state.slots state.disk

/-- The PIN file is there too. -/
structure Pinned (pki : Pki) (config : Config) (cfg : TpmPkcs11Config) (state : OpenState) :
    Prop where
  sound : Sound pki config cfg state
  pin : entryExists state.disk cfg.pinFile = true

theorem held_of_keys {slots later : List Slot} {disk : Disk}
    (grown : ∀ key, tokenKey slots cfg.keyLabel = some key →
      tokenKey later cfg.keyLabel = some key)
    (held : IdentityHeld pki config cfg slots disk) : IdentityHeld pki config cfg later disk := by
  refine ⟨held.1, fun there => ?_⟩
  have backed := held.2 there
  obtain ⟨key, tokened, certified⟩ := backed.pair
  exact ⟨backed.pin, key, grown key tokened, certified⟩

theorem grown_sound {state : OpenState} {index : Nat} {old new : Slot}
    (there : state.slots[index]? = some old) (grows : Grows old new)
    (sound : Sound pki config cfg state) : Sound pki config cfg (state.setSlot index new) where
  lone := grown_lone sound.lone there grows
  held := held_of_keys (fun _ tokened => grown_token_key sound.lone there grows tokened) sound.held

theorem init_sound {state : OpenState} {index : Nat} {old new : Slot}
    (chosen : selected state.slots = some index) (there : state.slots[index]? = some old)
    (blank : old.token = .uninitialized) (flagged : new.hasToken = true)
    (sound : Sound pki config cfg state) : Sound pki config cfg (state.setSlot index new) where
  lone := init_lone sound.lone chosen there flagged
  held := by
    apply held_of_keys _ sound.held
    intro key tokened
    rw [blank_token_key chosen there blank] at tokened
    cases tokened

/-- The rule of a call that changes the state or is refused, whatever becomes of
its answer. -/
theorem call_meets {label : OpenStep} {error : Error} {effect : OpenState → Option OpenState}
    {pre after kept : OpenState → Prop} (same : ∀ state, pre state → kept state)
    (weaker : ∀ state, after state → kept state)
    (taken : ∀ state next, pre state → effect state = some next → after next) :
    Meets plan pre (call label error effect) (fun _ => after) (fun _ => kept) kept := by
  have cut (extent : Nat) (state : OpenState) (holds : pre state) :
      kept (if extent = 0 then state else (effect state).getD state) := by
    by_cases unbegun : extent = 0
    · rw [if_pos unbegun]
      exact same state holds
    · rw [if_neg unbegun]
      cases effected : effect state with
      | none => exact same state holds
      | some next => exact weaker next (taken state next holds effected)
  apply Meets.step
  · intro state holds
    cases effected : effect state with
    | none => exact same state holds
    | some next => exact taken state next holds effected
  · intro state extent holds
    exact cut extent state holds
  · intro state extent holds
    exact cut extent state holds

theorem grows_preserves (label : OpenStep) (error : Error) (index : Nat)
    {change : Slot → Option Slot} (grows : ∀ old new, change old = some new → Grows old new) :
    Preserves (Sound pki config cfg) (call label error (onSlot index change)) := by
  apply call_preserves
  intro state after sound changed
  obtain ⟨old, new, there, turned, rfl⟩ := (on_slot_eq_some_iff ..).mp changed
  exact grown_sound there (grows old new turned) sound

theorem set_user_pin_sound (slot : Nat) (soPin userPin : String) :
    Preserves (Sound pki config cfg) (setUserPin slot soPin userPin) := by
  unfold setUserPin
  refine Preserves.bind (.check _ _) fun _ => ?_
  refine Preserves.bind (grows_preserves _ _ _ fun _ _ => login_so_grows) fun _ => ?_
  refine Preserves.bind (grows_preserves _ _ _ fun _ _ => init_pin_grows) fun _ => ?_
  exact .check _ _

theorem call_keeps_slots {label : OpenStep} {error : Error} {effect : OpenState → Option OpenState}
    (kept : ∀ state next, effect state = some next → next.slots = state.slots) :
    Keeps OpenState.slots (call label error effect) := by
  apply Keeps.step
  · intro state
    cases effected : effect state with
    | none => rfl
    | some next => exact kept state next effected
  · intro extent state
    by_cases unbegun : extent = 0
    · rw [if_pos unbegun]
    · rw [if_neg unbegun]
      cases effected : effect state with
      | none => rfl
      | some next => exact kept state next effected

theorem write_pin_keeps_slots (path : Path) (pin : String) :
    Keeps OpenState.slots (writePin path pin) := by
  have made : Keeps OpenState.slots (makePinDir path) := by
    unfold makePinDir
    cases path.parent with
    | none => exact .ret ()
    | some parent => exact .step (fun _ => rfl) fun _ _ => rfl
  have created : Keeps OpenState.slots (createPin path) := by
    apply call_keeps_slots
    intro state next truncated
    unfold truncateFile at truncated
    split at truncated
    · cases truncated
    · rw [← Option.some.inj truncated]
      rfl
  have filled : Keeps OpenState.slots (fillPin path pin) :=
    .bind created fun _ => .bind (.step (fun _ => rfl) fun _ _ => rfl) fun _ =>
      .ignore (.check _ _)
  exact .bind made fun _ => filled

theorem write_pin_sound (apart : Apart config cfg) (pin : String) :
    Preserves (Sound pki config cfg) (writePin cfg.pinFile pin) := by
  intro plan state sound
  have slots := write_pin_keeps_slots cfg.pinFile pin plan state
  have disks := write_pin_preserves (pin_keeps_held apart) pin plan state sound.held
  constructor
  · rw [slots]
    exact sound.lone
  · rw [slots]
    exact disks

theorem write_pin_there {state : OpenState} {pin : String} {value : Unit}
    (returned : ((writePin cfg.pinFile pin).run plan state).1 = .ok value) :
    entryExists ((writePin cfg.pinFile pin).run plan state).2.disk cfg.pinFile = true := by
  obtain ⟨made, createdDir, filled⟩ := (run_bind_ok_iff ..).mp returned
  unfold writePin
  rw [run_bind_of_ok _ _ createdDir]
  by_cases created : cfg.pinFile.fileName ≠ none ∧ begun (plan .createPin)
  · have content := (fill_pin_created plan ((makePinDir cfg.pinFile).run plan state).2 pin
      created.1 created.2).2.1
    exact exists_of_content content
  · exact absurd filled (fill_pin_uncreated plan _ pin created).1

theorem provision_meets (apart : Apart config cfg) (draws : Draws) :
    Meets plan
      (fun state => Sound pki config cfg state ∧ Undrawn state.slots (randomPin draws.soPin))
      (provisionToken cfg draws) (fun _ => Pinned pki config cfg)
      (fun _ => Sound pki config cfg) (Sound pki config cfg) := by
  unfold provisionToken
  have found : Meets plan
      (fun state => Sound pki config cfg state ∧ Undrawn state.slots (randomPin draws.soPin))
      (findSlot cfg)
      (fun index state => (Sound pki config cfg state ∧
        Undrawn state.slots (randomPin draws.soPin)) ∧ selected state.slots = some index)
      (fun _ => Sound pki config cfg) (Sound pki config cfg) := by
    apply Meets.of_keeps find_slot_keeps
    · intro state index holds returned
      exact ⟨holds, ((find_slot_ok_iff index).mp returned).2⟩
    · intro _ state holds
      exact holds.1
    · intro state holds
      exact holds.1
  apply Meets.bind found
  intro index
  have initialized : Meets plan
      (fun state => (Sound pki config cfg state ∧
        Undrawn state.slots (randomPin draws.soPin)) ∧ selected state.slots = some index)
      (call .initToken [s!"C_InitToken: {libraryError}"]
        (onSlot index (Slot.init cfg.tokenLabel (randomPin draws.soPin))))
      (fun _ => Sound pki config cfg) (fun _ => Sound pki config cfg) (Sound pki config cfg) := by
    apply call_meets
    · intro state holds
      exact holds.1.1
    · intro state sound
      exact sound
    · intro state next holds changed
      obtain ⟨old, new, there, turned, rfl⟩ := (on_slot_eq_some_iff ..).mp changed
      obtain ⟨blank, flagged⟩ := init_of_undrawn holds.1.2 there turned
      exact init_sound holds.2 there blank flagged holds.1.1
  apply Meets.bind initialized
  intro _
  have loggedOut : Meets plan (Sound pki config cfg)
      (setUserPin index (randomPin draws.soPin) (randomPin draws.userPin))
      (fun _ => Sound pki config cfg) (fun _ => Sound pki config cfg) (Sound pki config cfg) := by
    apply Meets.of_preserves (set_user_pin_sound _ _ _)
    intro state _ sound _
    exact set_user_pin_sound _ _ _ plan state sound
  apply Meets.bind loggedOut
  intro _
  have written : Meets plan (Sound pki config cfg)
      (writePin cfg.pinFile (randomPin draws.userPin)) (fun _ => Pinned pki config cfg)
      (fun _ => Sound pki config cfg) (Sound pki config cfg) := by
    apply Meets.of_preserves (write_pin_sound apart _)
    intro state _ sound returned
    exact ⟨write_pin_sound apart _ plan state sound, write_pin_there returned⟩
  apply Meets.bind written
  intro _
  exact Meets.ret fun state pinned => pinned

theorem file_exists_true {label : OpenStep} {path : Path} {state : OpenState}
    (returned : ((fileExists label path).run plan state).1 = .ok true) :
    entryExists state.disk path = true := by
  obtain ⟨checked, -, answer⟩ := (run_bind_ok_iff ..).mp returned
  have kept : Keeps id (attempt (check label [osError]) : Open (Except Error Unit)) :=
    .attempt (.check _ _)
  rw [show (Proc.run _ plan state).2 = state from kept plan state] at answer
  cases checked with
  | error err => cases answer
  | ok value => exact Outcome.ok.inj answer

theorem obtain_pin_meets (apart : Apart config cfg) (draws : Draws) :
    Meets plan
      (fun state => Sound pki config cfg state ∧ Undrawn state.slots (randomPin draws.soPin))
      (obtainPin draws cfg) (fun _ => Pinned pki config cfg)
      (fun _ => Sound pki config cfg) (Sound pki config cfg) := by
  unfold obtainPin
  have asked : Meets plan
      (fun state => Sound pki config cfg state ∧ Undrawn state.slots (randomPin draws.soPin))
      (fileExists .statPin cfg.pinFile)
      (fun provisioned state => (Sound pki config cfg state ∧
          Undrawn state.slots (randomPin draws.soPin)) ∧
        (provisioned = true → entryExists state.disk cfg.pinFile = true))
      (fun _ => Sound pki config cfg) (Sound pki config cfg) := by
    apply Meets.of_keeps (file_exists_keeps _ _)
    · intro state provisioned holds returned
      refine ⟨holds, fun found => ?_⟩
      rw [found] at returned
      exact file_exists_true returned
    · intro _ state holds
      exact holds.1
    · intro state holds
      exact holds.1
  apply Meets.bind asked
  intro provisioned
  cases provisioned with
  | true =>
      apply Meets.of_keeps (.bind (query_keeps _ _ _) fun _ => .ret _)
      · intro state _ holds _
        exact ⟨holds.1.1, holds.2 rfl⟩
      · intro _ state holds
        exact holds.1.1
      · intro state holds
        exact holds.1.1
  | false =>
      intro state holds
      exact provision_meets apart draws state holds.1

/-- The key that is found, or generated, is the one the token is asked for from
then on. -/
theorem ensure_key_meets (index : Nat) (newKey : PublicKey) :
    Meets plan
      (fun state => Pinned pki config cfg state ∧ selected state.slots = some index ∧
        ∃ slot, state.slots[index]? = some slot)
      (ensureKey index cfg.keyLabel newKey)
      (fun key state => Sound pki config cfg state ∧ Opened cfg key state.slots state.disk)
      (fun _ => Sound pki config cfg) (Sound pki config cfg) := by
  unfold ensureKey
  have looked : Meets plan
      (fun state => Pinned pki config cfg state ∧ selected state.slots = some index ∧
        ∃ slot, state.slots[index]? = some slot)
      (query .findKey [s!"look up token key: {libraryError}"] fun state =>
        some ((keysIn state.slots index).lookup cfg.keyLabel))
      (fun found state => Pinned pki config cfg state ∧ ∃ slot, selected state.slots = some index ∧
        state.slots[index]? = some slot ∧ (slotKeys slot).lookup cfg.keyLabel = found)
      (fun _ => Sound pki config cfg) (Sound pki config cfg) := by
    apply Meets.of_keeps (query_keeps _ _ _)
    · rintro state found ⟨pinned, chosen, slot, there⟩ returned
      have answer := Option.some.inj ((query_ok_iff ..).mp returned).2
      rw [keys_in_there there] at answer
      exact ⟨pinned, slot, chosen, there, answer⟩
    · intro _ state holds
      exact holds.1.sound
    · intro state holds
      exact holds.1.sound
  apply Meets.bind looked
  intro found
  cases found with
  | some key =>
      apply Meets.ret
      rintro state ⟨pinned, slot, chosen, there, answer⟩
      refine ⟨pinned.sound, ?_, pinned.pin⟩
      exact (token_key_eq_some_iff ..).mpr ⟨index, slot, chosen, there, answer⟩
  | none =>
      have generated : Meets plan
          (fun state => Pinned pki config cfg state ∧ ∃ slot, selected state.slots = some index ∧
            state.slots[index]? = some slot ∧ (slotKeys slot).lookup cfg.keyLabel = none)
          (call .generateKey [s!"generate token key: {libraryError}"]
            (onSlot index (Slot.addKey cfg.keyLabel newKey)))
          (fun _ state => Sound pki config cfg state ∧ Opened cfg newKey state.slots state.disk)
          (fun _ => Sound pki config cfg) (Sound pki config cfg) := by
        apply call_meets
        · intro state holds
          exact holds.1.sound
        · intro state holds
          exact holds.1
        · rintro state next ⟨pinned, slot, chosen, there, missing⟩ changed
          obtain ⟨old, new, found, turned, rfl⟩ := (on_slot_eq_some_iff ..).mp changed
          have same : old = slot := Option.some.inj (found.symm.trans there)
          rw [← same] at missing
          refine ⟨grown_sound found (add_key_grows turned) pinned.sound, ?_, pinned.pin⟩
          exact added_key pinned.sound.lone found missing turned
      apply Meets.bind generated
      intro _
      exact Meets.ret fun state holds => holds

/-- Opening keeps the invariant, whatever fails, as long as the SO PIN it draws
is not the token's. -/
theorem open_identity_meets (apart : Apart config cfg) (provider : Provider) (draws : Draws) :
    Meets plan
      (fun state => Sound pki config cfg state ∧ Undrawn state.slots (randomPin draws.soPin))
      (openIdentity provider draws cfg)
      (fun identity state => Sound pki config cfg state ∧
        Opened cfg identity.publicKey state.slots state.disk)
      (fun _ => Sound pki config cfg) (Sound pki config cfg) := by
  unfold openIdentity openToken
  apply Meets.bind (obtain_pin_meets apart draws)
  intro userPin
  have entered : Meets plan (Pinned pki config cfg) (openProvider provider userPin)
      (fun index state => Pinned pki config cfg state ∧ selected state.slots = some index ∧
        ∃ slot, state.slots[index]? = some slot)
      (fun _ => Sound pki config cfg) (Sound pki config cfg) := by
    apply Meets.of_keeps (open_provider_keeps _ userPin)
    · intro state index pinned returned
      have answer := ((query_ok_iff ..).mp returned).2
      obtain ⟨slot, -, enters⟩ := Option.bind_eq_some_iff.mp answer
      split at enters
      · rename_i logged
        rw [← Option.some.inj enters]
        exact ⟨pinned, logs_in_selected pinned.sound.lone logged⟩
      · cases enters
    · intro _ state pinned
      exact pinned.sound
    · intro state pinned
      exact pinned.sound
  apply Meets.bind entered
  intro index
  apply Meets.bind (ensure_key_meets index draws.newKey)
  intro key
  exact Meets.ret fun state holds => holds

end Opening

section Runs

variable {environment : Environment} {config : Config} {cfg : TpmPkcs11Config}
  {state next : State}

/-- The EST servers certify the key in the request. -/
def ServersCertify : Action → Prop
  | .bootstrap server _ _ => Certifies server.simpleenroll
  | .reenroll server _ _ => Certifies server
  | .tick server _ _ _ => Certifies server
  | _ => True

/-- No boot draws the SO PIN of a token that is initialised. -/
def DrawsAnew (state : State) : Action → Prop
  | .boot draws _ _ => Undrawn state.device.slots (randomPin draws.soPin)
  | _ => True

/-- The invariant of the daemon. -/
structure SoundNode (pki : Pki) (config : Config) (cfg : TpmPkcs11Config) (state : State) :
    Prop where
  device : Sound pki config cfg state.device.openState
  opened : ∀ tpm, state.phase.key = some tpm → ∃ identity, tpm = some identity ∧
    Opened cfg identity.publicKey state.device.slots state.device.disk

theorem create_store_held {pki : Pki} (apart : Apart config cfg) {device : Device}
    {made : List Path} (inside : ∀ dir ∈ made, dir ∈ cfg.store.enclosing)
    (sound : Sound pki config cfg device.openState) :
    Sound pki config cfg (device.setDisk (device.disk.makeDirs made)).openState where
  lone := sound.lone
  held := by
    apply make_dirs_held _ sound.held
    intro path listed member
    exact apart.store path listed (inside path member)

theorem open_node_key_meets {pki : Pki} (apart : Apart config cfg)
    (configured : config.tpm = some cfg) (provider : Provider) (draws : Draws)
    (plan : Plan BootStep) :
    Meets plan
      (fun device => Sound pki config cfg device.openState ∧
        Undrawn device.slots (randomPin draws.soPin))
      (openNodeKey provider draws config)
      (fun tpm device => Sound pki config cfg device.openState ∧ ∃ identity, tpm = some identity ∧
        Opened cfg identity.publicKey device.slots device.disk)
      (fun _ device => Sound pki config cfg device.openState)
      (fun device => Sound pki config cfg device.openState) := by
  unfold openNodeKey
  rw [configured]
  have stored : Meets plan
      (fun device => Sound pki config cfg device.openState ∧
        Undrawn device.slots (randomPin draws.soPin))
      (createStore cfg)
      (fun _ device => Sound pki config cfg device.openState ∧
        Undrawn device.slots (randomPin draws.soPin))
      (fun _ device => Sound pki config cfg device.openState)
      (fun device => Sound pki config cfg device.openState) := by
    apply Meets.step
    · intro device holds
      exact ⟨create_store_held apart (fun _ inside => inside) holds.1, holds.2⟩
    · intro device extent holds
      exact create_store_held apart (fun _ => List.mem_of_mem_take) holds.1
    · intro device extent holds
      exact create_store_held apart (fun _ => List.mem_of_mem_take) holds.1
  apply Meets.bind stored
  intro _
  have opened : Meets plan
      (fun device => Sound pki config cfg device.openState ∧
        Undrawn device.slots (randomPin draws.soPin))
      (mapError (context "open TPM-resident node key") (focus Device.openState Device.setOpenState
        (relabel .opening (openIdentity provider draws cfg))))
      (fun identity device => Sound pki config cfg device.openState ∧
        Opened cfg identity.publicKey device.slots device.disk)
      (fun _ device => Sound pki config cfg device.openState)
      (fun device => Sound pki config cfg device.openState) := by
    apply Meets.mapError
    apply Meets.focus
    intro device holds
    apply Meets.relabel
    apply Meets.weaken (open_identity_meets apart provider draws)
    · intro opening same
      rw [same]
      exact holds
    · intro identity opening result
      exact result
    · intro _ opening sound
      exact sound
    · intro opening sound
      exact sound
  apply Meets.bind opened
  intro identity
  apply Meets.ret
  intro device holds
  exact ⟨holds.1, identity, rfl, holds.2⟩

/-- What a step leaves that changes the disk alone and goes on with the same
key, or brings the daemon down. -/
theorem sound_of_running {pki : Pki} {tpm : Option TpmIdentity}
    (sound : SoundNode pki config cfg state)
    (key : state.phase.key = some tpm) (slots : next.device.slots = state.device.slots)
    (running : Running pki config cfg state.device.slots next.device.disk)
    (ends : next.phase = .down ∨ next.phase.key = some tpm) : SoundNode pki config cfg next := by
  obtain ⟨identity, rfl, opened⟩ := sound.opened tpm key
  constructor
  · constructor
    · rw [show next.device.openState.slots = _ from slots]
      exact sound.device.lone
    · rw [show next.device.openState.slots = _ from slots]
      exact running.held
  · intro other held
    cases ends with
    | inl down =>
        rw [down] at held
        cases held
    | inr same =>
        rw [same] at held
        refine ⟨identity, (Option.some.inj held).symm, ?_, running.pin⟩
        rw [slots]
        exact opened.key

/-- The daemon is down: only the device counts. -/
theorem sound_of_down {pki : Pki} (down : next.phase = .down)
    (device : Sound pki config cfg next.device.openState) : SoundNode pki config cfg next := by
  refine ⟨device, fun tpm held => ?_⟩
  rw [down] at held
  cases held

theorem running_of_sound {pki : Pki} {tpm : Option TpmIdentity}
    (sound : SoundNode pki config cfg state) (key : state.phase.key = some tpm) :
    Running pki config cfg state.device.slots state.device.disk ∧
      ∃ identity, tpm = some identity ∧
        tokenKey state.device.slots cfg.keyLabel = some identity.publicKey := by
  obtain ⟨identity, same, opened⟩ := sound.opened tpm key
  exact ⟨⟨sound.device.held, opened.pin⟩, identity, same, opened.key⟩

theorem boot_keeps_sound {draws : Draws} {now : Option Nat} {plan : Plan BootStep}
    (apart : Apart config cfg) (configured : config.tpm = some cfg)
    (sound : SoundNode environment.pki config cfg state)
    (anew : Undrawn state.device.slots (randomPin draws.soPin))
    (does : Does environment config state next (.boot draws now plan)) :
    SoundNode environment.pki config cfg next := by
  obtain ⟨-, device, ends⟩ := does
  have opened := open_node_key_meets apart configured environment.provider draws plan
    state.device ⟨sound.device, anew⟩
  cases ran : (openNodeKey environment.provider draws config).run plan state.device with
  | mk outcome after =>
      rw [ran] at opened device ends
      have stopped (unopened : ∀ tpm, outcome ≠ .ok tpm) : next.phase = .down := by
        cases ends with
        | inl down => exact down
        | inr going =>
            obtain ⟨tpm, answer, -⟩ := going
            exact absurd answer (unopened tpm)
      cases outcome with
      | err error =>
          apply sound_of_down (stopped (by simp))
          rw [device]
          exact opened
      | killed =>
          apply sound_of_down (stopped (by simp))
          rw [device]
          exact opened
      | ok tpm =>
          obtain ⟨still, identity, rfl, held⟩ := opened
          constructor
          · rw [device]
            exact still
          · intro other key
            rw [device]
            refine ⟨identity, ?_, held⟩
            rcases ends with down | ⟨known, answer, settled | ⟨phase, -⟩⟩
            · rw [down] at key
              cases key
            · rw [settled.key] at key
              rw [← Option.some.inj key]
              exact (Outcome.ok.inj answer).symm
            · rw [phase] at key
              rw [← Option.some.inj key]
              exact (Outcome.ok.inj answer).symm

/-- The step lemma. -/
theorem step_keeps_sound {action : Action} (encodes : environment.pki.Encodes)
    (apart : Apart config cfg) (configured : config.tpm = some cfg)
    (sound : SoundNode environment.pki config cfg state) (certify : ServersCertify action)
    (anew : DrawsAnew state action)
    (taken : Node.step environment config state action = some next) :
    SoundNode environment.pki config cfg next := by
  have does := step_does taken
  cases action with
  | boot draws now plan => exact boot_keeps_sound apart configured sound anew does
  | bootstrap server fresh plan =>
      obtain ⟨tpm, failures, phase, device, ends⟩ := does
      have key : state.phase.key = some tpm := by rw [phase]; rfl
      obtain ⟨running, identity, rfl, tokened⟩ := running_of_sound sound key
      apply sound_of_running sound key (by rw [device]) _ ends
      rw [device]
      exact bootstrap_keeps_running encodes apart fresh certify tokened plan _ running
  | reenroll server fresh plan =>
      obtain ⟨tpm, failures, phase, device, ends⟩ := does
      have key : state.phase.key = some tpm := by rw [phase]; rfl
      obtain ⟨running, identity, rfl, tokened⟩ := running_of_sound sound key
      apply sound_of_running sound key (by rw [device]) _ (ends.imp_right Settled.key)
      rw [device]
      exact reenroll_keeps_running encodes apart fresh certify tokened plan _ running
  | load plan =>
      obtain ⟨tpm, phase, device, ends⟩ := does
      have key : state.phase.key = some tpm := by rw [phase]; rfl
      apply sound_of_running sound key (by rw [device]) _ (ends.imp_right Settled.key)
      rw [device]
      exact (running_of_sound sound key).1
  | listen plan =>
      obtain ⟨identity, phase, device, ends⟩ := does
      have key : state.phase.key = some identity.tpm := by rw [phase]; rfl
      apply sound_of_running sound key (by rw [device]; rfl) _ (ends.imp_right Settled.key)
      rw [device]
      exact listen_preserves (targets_keep_running apart) plan _ (running_of_sound sound key).1
  | tick server fresh now plan =>
      obtain ⟨identity, key, device, ends⟩ := does
      obtain ⟨running, opened, same, tokened⟩ := running_of_sound sound key
      apply sound_of_running sound key (by rw [device]) _ (ends.imp_right Settled.key)
      rw [device, same]
      exact tick_preserves now (reenroll_keeps_running encodes apart fresh certify tokened) plan
        ⟨state.device.world, identity.cert.current⟩ running
  | request request plan =>
      obtain ⟨identity, number, phase, device, ends⟩ := does
      have key : state.phase.key = some identity.tpm := by rw [phase]; rfl
      have running := (running_of_sound sound key).1
      cases device with
      | inl same =>
          apply sound_of_running sound key (by rw [same]) _ (ends.imp_right Settled.key)
          rw [same]
          exact running
      | inr handled =>
          apply sound_of_running sound key (by rw [handled]; rfl) _ (ends.imp_right Settled.key)
          rw [handled]
          exact handle_preserves (targets_keep_running apart) request plan _ running
  | crash =>
      obtain ⟨device, down⟩ := does
      apply sound_of_down down
      rw [device]
      exact sound.device

/-- A node that has never been started: no token is initialised, and neither
certificate nor key file exists. -/
structure NeverStarted (config : Config) (state : State) : Prop where
  down : state.phase = .down
  token : ∀ slot ∈ state.device.slots, slot.token = .uninitialized
  certFile : entryExists state.device.disk config.certFile = false
  keyFile : entryExists state.device.disk config.keyFile = false

/-- Whatever fails, is retried or is cut from the first boot on: there is never a
key file, and a certificate only beside the PIN file and for the key the token
holds, as long as the paths keep apart and no SO PIN is drawn again. -/
theorem tpm_identity_held (environment : Environment) (encodes : environment.pki.Encodes)
    (config : Config) (cfg : TpmPkcs11Config) (configured : config.tpm = some cfg)
    (apart : Apart config cfg) (start final : State) (fresh : NeverStarted config start)
    (actions : List Action) (certify : ∀ action ∈ actions, ServersCertify action)
    (anew : Guarded (Node.step environment config) DrawsAnew start actions)
    (reached : run (Node.step environment config) start actions = some final) :
    IdentityHeld environment.pki config cfg final.device.slots final.device.disk := by
  have initial : SoundNode environment.pki config cfg start := by
    apply sound_of_down fresh.down
    constructor
    · intro index slot there active
      exact absurd (fresh.token slot (List.mem_of_getElem? there)) active
    · refine ⟨fresh.keyFile, fun there => ?_⟩
      rw [show entryExists start.device.openState.disk config.certFile = false from
        fresh.certFile] at there
      cases there
  have guarded := guarded_and anew (guarded_of_actions fun _ action => certify action)
  have sound : SoundNode environment.pki config cfg final :=
    run_preserves (fun _ _ _ sound met taken =>
      step_keeps_sound encodes apart configured sound met.2 met.1 taken) initial guarded reached
  exact sound.device.held

end Runs

section Sample

/-- The fixtures' node, with its key in a token. -/
def tpmConfig (keyFile : Path) : Config :=
  { testConfig with keyFile := keyFile, tpm := some defaultTpm }

/-- The token will generate the key that the fixtures' EST server certifies. -/
def tpmDraws : Draws := { TokenProvisioning.firstDraws with newKey := serverCertificate.publicKey }

/-- Only the CA file that comes with the configuration is there. -/
def emptyVolume : Disk where
  files path :=
    if path = testConfig.enrollment.est.caCertFile then some ⟨asBytes serverPem, 0o644⟩ else none
  dirs := fun _ => false

def newTpmNode : State where
  device := ⟨[⟨true, .uninitialized⟩], ⟨emptyVolume, []⟩⟩
  phase := .down
  audit := []
  answers := []

/-- The token once it is provisioned and has generated a key. -/
def readyToken : Slot :=
  soToken defaultTpm.tokenLabel (randomPin tpmDraws.soPin) (some (randomPin tpmDraws.userPin))
    [(defaultTpm.keyLabel, serverCertificate.publicKey)]

theorem empty_volume_missing {path : Path} (other : path ≠ testConfig.enrollment.est.caCertFile) :
    entryExists emptyVolume path = false := by
  simp [entryExists, emptyVolume, other]

/-- Before the first enrollment there is the EST CA file and no certificate. -/
def BeforeEnrollment (disk : Disk) : Prop :=
  disk.content testConfig.enrollment.est.caCertFile = some (asBytes serverPem) ∧
    entryExists disk testConfig.certFile = false

theorem make_dirs_before {disk : Disk} {made : List Path} (outside : testConfig.certFile ∉ made)
    (before : BeforeEnrollment disk) : BeforeEnrollment (disk.makeDirs made) := by
  refine ⟨before.1, ?_⟩
  rw [entry_exists_congr (make_dirs_entry outside)]
  exact before.2

theorem pin_before : PinPreserves BeforeEnrollment defaultTpm where
  dirs disk parent made parented inside before := by
    apply make_dirs_before _ before
    intro member
    have outside : ∀ parent ∈ defaultTpm.pinFile.parent,
      testConfig.certFile ∉ parent.enclosing := by
      decide
    exact outside parent parented (inside _ member)
  file disk file before := by
    constructor
    · rw [entry_content (put_entry _ (by decide))]
      exact before.1
    · rw [entry_exists_congr (put_entry _ (by decide))]
      exact before.2

/-- The token between its provisioning and the first key. -/
def keylessToken (userPin : Option String) : Slot :=
  soToken defaultTpm.tokenLabel (randomPin tpmDraws.soPin) userPin []

theorem first_provisioning (disk : Disk) :
    ((provisionToken defaultTpm tpmDraws).run .allDone ⟨[⟨true, .uninitialized⟩], disk⟩).1 =
        .ok (randomPin tpmDraws.userPin) ∧
      ((provisionToken defaultTpm tpmDraws).run .allDone ⟨[⟨true, .uninitialized⟩], disk⟩).2.slots =
        [keylessToken (some (randomPin tpmDraws.userPin))] := by
  have found : (findSlot defaultTpm).run .allDone ⟨[⟨true, .uninitialized⟩], disk⟩ =
      (.ok 0, ⟨[⟨true, .uninitialized⟩], disk⟩) := rfl
  have taken (error : Error) : (call .initToken error
      (onSlot 0 (Slot.init defaultTpm.tokenLabel (randomPin tpmDraws.soPin)))).run .allDone
      ⟨[⟨true, .uninitialized⟩], disk⟩ = (.ok (), ⟨[keylessToken none], disk⟩) := rfl
  have session : (setUserPin 0 (randomPin tpmDraws.soPin) (randomPin tpmDraws.userPin)).run
      .allDone ⟨[keylessToken none], disk⟩ =
        (.ok (), ⟨[keylessToken (some (randomPin tpmDraws.userPin))], disk⟩) :=
    set_user_pin_done _ rfl fun _ _ => rfl
  have named : defaultTpm.pinFile.fileName ≠ none := by decide
  have returned : ((writePin defaultTpm.pinFile (randomPin tpmDraws.userPin)).run .allDone
      ⟨[keylessToken (some (randomPin tpmDraws.userPin))], disk⟩).1 = .ok () :=
    write_pin_returns _ named
  have slots := write_pin_keeps_slots defaultTpm.pinFile (randomPin tpmDraws.userPin) .allDone
    ⟨[keylessToken (some (randomPin tpmDraws.userPin))], disk⟩
  unfold provisionToken
  simp only [run_bind, found, taken, session]
  cases ran : (writePin defaultTpm.pinFile (randomPin tpmDraws.userPin)).run .allDone
      ⟨[keylessToken (some (randomPin tpmDraws.userPin))], disk⟩ with
  | mk outcome after =>
      rw [ran] at returned slots
      obtain rfl : outcome = .ok () := returned
      exact ⟨rfl, slots⟩

theorem first_key (disk : Disk) :
    (openToken firstToken tpmDraws defaultTpm (randomPin tpmDraws.userPin)).run .allDone
        ⟨[keylessToken (some (randomPin tpmDraws.userPin))], disk⟩ =
      (.ok ⟨serverCertificate.publicKey⟩, ⟨[readyToken], disk⟩) := by
  have enters : logsIn [keylessToken (some (randomPin tpmDraws.userPin))] 0
      (randomPin tpmDraws.userPin) = true := by
    simp [logsIn, keylessToken, soToken]
  have opened : (openProvider firstToken (randomPin tpmDraws.userPin)).run .allDone
      ⟨[keylessToken (some (randomPin tpmDraws.userPin))], disk⟩ =
        (.ok 0, ⟨[keylessToken (some (randomPin tpmDraws.userPin))], disk⟩) := by
    have chosen : firstToken.slotFor [keylessToken (some (randomPin tpmDraws.userPin))] =
        some 0 := rfl
    rw [openProvider, query, run_step]
    simp [Plan.allDone, chosen, enters]
  have generated : (ensureKey 0 defaultTpm.keyLabel tpmDraws.newKey).run .allDone
      ⟨[keylessToken (some (randomPin tpmDraws.userPin))], disk⟩ =
        (.ok serverCertificate.publicKey, ⟨[readyToken], disk⟩) := rfl
  unfold openToken
  simp only [run_bind, opened, generated]
  rfl

/-- The first call of `open`, on a disk without the PIN file. -/
theorem first_opening {disk : Disk} (missing : PinMissing defaultTpm disk) :
    ((openIdentity firstToken tpmDraws defaultTpm).run .allDone
        ⟨[⟨true, .uninitialized⟩], disk⟩).1 = .ok ⟨serverCertificate.publicKey⟩ ∧
      ((openIdentity firstToken tpmDraws defaultTpm).run .allDone
        ⟨[⟨true, .uninitialized⟩], disk⟩).2.slots = [readyToken] := by
  have ⟨pin, slots⟩ := first_provisioning disk
  have obtained : (obtainPin tpmDraws defaultTpm).run .allDone
      ⟨[⟨true, .uninitialized⟩], disk⟩ =
        (provisionToken defaultTpm tpmDraws).run .allDone ⟨[⟨true, .uninitialized⟩], disk⟩ :=
    obtain_pin_missing .allDone _ defaultTpm tpmDraws missing
  unfold openIdentity
  rw [run_bind, obtained]
  cases ran : (provisionToken defaultTpm tpmDraws).run .allDone
      ⟨[⟨true, .uninitialized⟩], disk⟩ with
  | mk outcome after =>
      rw [ran] at pin slots
      obtain rfl : outcome = .ok (randomPin tpmDraws.userPin) := pin
      have same : after = ⟨[keylessToken (some (randomPin tpmDraws.userPin))], after.disk⟩ := by
        rw [← slots]
      simp only
      rw [same, first_key]
      exact ⟨rfl, rfl⟩

/-- Where the store is made, a boot leaves what the token's opening leaves. -/
theorem open_node_key_run {config : Config} {cfg : TpmPkcs11Config} {plan : Plan BootStep}
    (configured : config.tpm = some cfg) (stored : plan .createStore = .done) (provider : Provider)
    (draws : Draws) (device : Device) :
    let opened := (openIdentity provider draws cfg).run (plan.at .opening)
      ⟨device.slots, device.disk.makeDirs cfg.store.enclosing⟩
    let ran := (openNodeKey provider draws config).run plan device
    ran.2.slots = opened.2.slots ∧ ran.2.disk = opened.2.disk ∧
      ∀ identity, opened.1 = .ok identity → ran.1 = .ok (some identity) := by
  intro opened ran
  have made : (createStore cfg).run plan device =
      (.ok (), device.setDisk (device.disk.makeDirs cfg.store.enclosing)) := by
    rw [createStore, run_step, stored]
  simp only [ran]
  unfold openNodeKey
  rw [configured]
  simp only
  rw [run_bind, made]
  simp only
  rw [run_bind, run_mapError, run_focus, run_relabel]
  have same : (openIdentity provider draws cfg).run (plan.at .opening)
      (Device.openState (device.setDisk (device.disk.makeDirs cfg.store.enclosing))) =
        opened := rfl
  rw [same]
  cases outcome : opened.1 with
  | ok identity =>
      refine ⟨rfl, rfl, fun other found => ?_⟩
      rw [← Outcome.ok.inj found]
      rfl
  | err error => exact ⟨rfl, rfl, fun _ found => by cases found⟩
  | killed => exact ⟨rfl, rfl, fun _ found => by cases found⟩

section Booted

variable (keyFile : Path)

/-- The node after its first boot. -/
def booted : State :=
  State.boot keyEnvironment (tpmConfig keyFile) tpmDraws (some 0) Plan.allDone newTpmNode

theorem booted_step :
    Node.step keyEnvironment (tpmConfig keyFile) newTpmNode (.boot tpmDraws (some 0) Plan.allDone) =
      some (booted keyFile) := rfl

theorem first_store_missing :
    PinMissing defaultTpm (emptyVolume.makeDirs defaultTpm.store.enclosing) := by
  constructor
  · rw [Disk.make_dirs_files]
    decide
  · decide

theorem first_node_key :
    let opened := (openNodeKey firstToken tpmDraws (tpmConfig keyFile)).run Plan.allDone
      newTpmNode.device
    opened.1 = .ok (some ⟨serverCertificate.publicKey⟩) ∧ opened.2.slots = [readyToken] ∧
      BeforeEnrollment opened.2.disk := by
  intro opened
  have ⟨identity, token⟩ := first_opening first_store_missing
  have configured : (tpmConfig keyFile).tpm = some defaultTpm := rfl
  have stored : (Plan.allDone : Plan BootStep) .createStore = .done := rfl
  obtain ⟨slots, -, returned⟩ :=
    open_node_key_run configured stored firstToken tpmDraws newTpmNode.device
  have keeps : Preserves (fun device : Device => BeforeEnrollment device.disk)
      (openNodeKey firstToken tpmDraws (tpmConfig keyFile)) := by
    apply open_node_key_preserves
    · intro cfg configured disk made inside
      rw [← Option.some.inj configured] at inside
      apply make_dirs_before
      intro member
      have outside : testConfig.certFile ∉ defaultTpm.store.enclosing := by decide
      exact outside (inside _ member)
    · intro cfg configured
      rw [← Option.some.inj configured]
      exact pin_before
  refine ⟨returned _ identity, slots.trans token, keeps Plan.allDone newTpmNode.device ?_⟩
  constructor
  · simp [Disk.content, newTpmNode, Device.disk, emptyVolume]
  · exact empty_volume_missing (by decide)

/-- The first boot opens the token and goes on to enroll. -/
theorem booted_bootstraps :
    (booted keyFile).phase = .bootstrapping (some ⟨serverCertificate.publicKey⟩) 0 ∧
      (booted keyFile).device.slots = [readyToken] ∧
      BeforeEnrollment (booted keyFile).device.disk := by
  have ⟨identity, slots, before⟩ := first_node_key keyFile
  have device : (booted keyFile).device =
      ((openNodeKey firstToken tpmDraws (tpmConfig keyFile)).run Plan.allDone
        newTpmNode.device).2 := boot_does.1
  have missing : ((nodePkiPresent (tpmConfig keyFile)).run Plan.allDone
      ((openNodeKey firstToken tpmDraws (tpmConfig keyFile)).run Plan.allDone
        newTpmNode.device).2).1 = .ok false := by
    have key : ((keyPresent (tpmConfig keyFile)).run Plan.allDone
        ((openNodeKey firstToken tpmDraws (tpmConfig keyFile)).run Plan.allDone
          newTpmNode.device).2).1 = .ok true := rfl
    apply node_pki_missing key
    rw [path_exists_run]
    exact congrArg Outcome.ok before.2
  have begun : ((beginRun keyEnvironment (tpmConfig keyFile) tpmDraws (some 0)).run Plan.allDone
      newTpmNode.device).1 = .ok (.bootstrapping (some ⟨serverCertificate.publicKey⟩) 0) := by
    unfold beginRun
    rw [show keyEnvironment.provider = firstToken from rfl, run_bind_of_ok _ _ identity,
      run_bind_of_ok _ _ missing]
    rfl
  rw [device]
  refine ⟨?_, slots, before⟩
  unfold booted State.boot
  cases ran : (beginRun keyEnvironment (tpmConfig keyFile) tpmDraws (some 0)).run Plan.allDone
      newTpmNode.device with
  | mk outcome after =>
      rw [ran] at begun
      obtain rfl : outcome = _ := begun
      rfl

/-- The machine stops in one of the calls that write the certificate. -/
def certCut (call : WriteStep) : Plan EnrollStep := fun label =>
  if label = .writeCert call then .killed 0 else .done

/-- The node after the enrollment that its first boot begins. -/
def enrolled (plan : Plan EnrollStep) : State :=
  State.bootstrap fixturePki (tpmConfig keyFile) bootstrapServer serverKeyPair plan
    (some ⟨serverCertificate.publicKey⟩) 0 (booted keyFile)

theorem enrolled_step (plan : Plan EnrollStep) :
    Node.step keyEnvironment (tpmConfig keyFile) (booted keyFile)
      (.bootstrap bootstrapServer serverKeyPair plan) = some (enrolled keyFile plan) := by
  simp only [Node.step, (booted_bootstraps keyFile).1]
  rfl

theorem enrolled_issued (call : WriteStep) :
    bootstrapIssued bootstrapServer serverCertificate.publicKey (tpmConfig keyFile) (certCut call)
        (booted keyFile).device.disk = some (serverCertificate, [nodeCertificate]) := by
  have reached : ∀ label ∈ bootstrapSteps, certCut call label = .done := by
    cases call <;> decide
  exact (bootstrap_issued_eq_some_iff ..).mpr
    ⟨reached, _, (booted_bootstraps keyFile).2.2.1, rfl, by simp, bootstrap_server_issues rfl⟩

/-- A cut in writing the certificate leaves what that write has done. -/
theorem enrolled_content (call : WriteStep)
    (cut : progress testConfig.certFile (asBytes serverPem) ((certCut call).at .writeCert) =
      .replaced → survivesSync ((certCut call).at .writeCert) = false) :
    (enrolled keyFile (certCut call)).device.disk.content =
      (progress testConfig.certFile (asBytes serverPem) ((certCut call).at .writeCert)).content
        testConfig.certFile (asBytes serverPem) (booted keyFile).device.disk.content :=
  bootstrap_cut_content_tpm (enrolled_issued keyFile call) server_to_pem cut

end Booted

/-- The temporary file of the certificate. -/
def certTemp : Path := .ofNames ["etc", "nodeos", "pki", ".server.crt.tmp"]

/-- The file system does not answer whether the PIN file exists, and the machine
stops once the token is initialised. -/
def reopening : Plan BootStep := fun label =>
  if label = .opening .statPin then .fails 0
  else if label = .opening .openSession then .killed 0
  else .done

theorem reopened_token (disk : Disk) :
    ((openIdentity firstToken tpmDraws defaultTpm).run (reopening.at .opening)
        ⟨[readyToken], disk⟩).2 = ⟨[keylessToken none], disk⟩ := by
  have taken : onSlot 0 (Slot.init defaultTpm.tokenLabel (randomPin tpmDraws.soPin))
      ⟨[readyToken], disk⟩ = some ⟨[keylessToken none], disk⟩ := by
    have accepted : takesPin (randomPin tpmDraws.soPin) readyToken := rfl
    apply (on_slot_eq_some_iff ..).mpr
    exact ⟨readyToken, keylessToken none, rfl, slot_init_taken _ accepted, rfl⟩
  have initialized (error : Error) : (call .initToken error
      (onSlot 0 (Slot.init defaultTpm.tokenLabel (randomPin tpmDraws.soPin)))).run
        (reopening.at .opening) ⟨[readyToken], disk⟩ = (.ok (), ⟨[keylessToken none], disk⟩) :=
    call_done error rfl taken
  have unasked : (fileExists .statPin defaultTpm.pinFile).run (reopening.at .opening)
      ⟨[readyToken], disk⟩ = (.ok false, ⟨[readyToken], disk⟩) := rfl
  have found : (findSlot defaultTpm).run (reopening.at .opening) ⟨[readyToken], disk⟩ =
      (.ok 0, ⟨[readyToken], disk⟩) := rfl
  unfold openIdentity obtainPin
  rw [run_bind_assoc, run_bind, unasked]
  unfold provisionToken
  simp only [Bool.false_eq_true, if_false]
  rw [run_bind_assoc, run_bind, found]
  simp only
  rw [run_bind_assoc, run_bind, initialized]
  rfl

/-- The enrolled node when the machine stops behind the certificate. -/
def enrolledNode : State := enrolled testConfig.keyFile (certCut .openDir)

theorem enrolled_cert :
    enrolledNode.device.disk.content testConfig.certFile = some (asBytes serverPem) := by
  have moved : progress testConfig.certFile (asBytes serverPem)
      ((certCut .openDir).at .writeCert) = .replaced := rfl
  have temp : testConfig.certFile.tempPath = some certTemp := rfl
  rw [enrolledNode, enrolled_content testConfig.keyFile .openDir fun _ => rfl, moved]
  simp only [Progress.content, temp]
  rw [Function.update_of_ne (by decide), Function.update_self]

/-- An enrolled node is started once more, and draws the SO PIN it has drawn
before. -/
def lossRun : List Action :=
  [.boot tpmDraws (some 0) Plan.allDone,
    .bootstrap bootstrapServer serverKeyPair (certCut .openDir), .crash,
    .boot tpmDraws (some 0) reopening]

def lostNode : State :=
  State.boot keyEnvironment (tpmConfig testConfig.keyFile) tpmDraws (some 0) reopening
    { enrolledNode with phase := .down }

theorem loss_run :
    run (Node.step keyEnvironment (tpmConfig testConfig.keyFile)) newTpmNode lossRun =
      some lostNode := by
  unfold lossRun
  rw [run_cons _ (booted_step _), run_cons _ (enrolled_step _ _)]
  rfl

theorem lost_node_files :
    lostNode.device.slots = [keylessToken none] ∧
      lostNode.device.disk.content testConfig.certFile = some (asBytes serverPem) := by
  have configured : (tpmConfig testConfig.keyFile).tpm = some defaultTpm := rfl
  have stored : reopening .createStore = .done := rfl
  obtain ⟨slots, disk, -⟩ := open_node_key_run configured stored firstToken tpmDraws
    enrolledNode.device
  have token : enrolledNode.device.slots = [readyToken] :=
    (booted_bootstraps testConfig.keyFile).2.1
  have device : lostNode.device =
      ((openNodeKey firstToken tpmDraws (tpmConfig testConfig.keyFile)).run reopening
        enrolledNode.device).2 := boot_does.1
  rw [token, reopened_token] at slots disk
  rw [device, slots, disk]
  constructor
  · rfl
  · simp only [Disk.content, Disk.make_dirs_files]
    exact enrolled_cert

/-- The certificate's temporary file is what the configuration calls the key
file, and the machine stops before the rename. -/
def strayRun : List Action :=
  [.boot tpmDraws (some 0) Plan.allDone,
    .bootstrap bootstrapServer serverKeyPair (certCut .rename)]

theorem stray_run :
    run (Node.step keyEnvironment (tpmConfig certTemp)) newTpmNode strayRun =
      some (enrolled certTemp (certCut .rename)) := by
  unfold strayRun
  rw [run_cons _ (booted_step _), run_cons _ (enrolled_step _ _)]
  rfl

theorem stray_key_file :
    (enrolled certTemp (certCut .rename)).device.disk.content certTemp =
      some (asBytes serverPem) := by
  have moved : progress testConfig.certFile (asBytes serverPem)
      ((certCut .rename).at .writeCert) = .staged (asBytes serverPem) := rfl
  have temp : testConfig.certFile.tempPath = some certTemp := rfl
  rw [enrolled_content certTemp .rename fun replaced =>
    absurd (moved.symm.trans replaced) (by simp), moved]
  simp only [Progress.content, temp]
  exact Function.update_self ..

theorem never_started {keyFile : Path} (other : keyFile ≠ testConfig.enrollment.est.caCertFile) :
    NeverStarted (tpmConfig keyFile) newTpmNode where
  down := rfl
  token slot listed := by
    rw [List.mem_singleton.mp listed]
  certFile := by
    have apart : testConfig.certFile ≠ testConfig.enrollment.est.caCertFile := by decide
    exact empty_volume_missing apart
  keyFile := empty_volume_missing other

theorem sample_servers_certify {plan : Plan EnrollStep} :
    ServersCertify (.bootstrap bootstrapServer serverKeyPair plan) := server_trusted.1

/-- A first boot, and the enrollment that is cut behind its certificate. -/
def enrollRun : List Action :=
  [.boot tpmDraws (some 0) Plan.allDone,
    .bootstrap bootstrapServer serverKeyPair (certCut .openDir)]

theorem tpm_identity_held_sample :
    run (Node.step keyEnvironment (tpmConfig testConfig.keyFile)) newTpmNode enrollRun =
        some enrolledNode ∧
      entryExists enrolledNode.device.disk testConfig.certFile = true ∧
      IdentityHeld fixturePki (tpmConfig testConfig.keyFile) defaultTpm enrolledNode.device.slots
        enrolledNode.device.disk := by
  have reached : run (Node.step keyEnvironment (tpmConfig testConfig.keyFile)) newTpmNode
      enrollRun = some enrolledNode := by
    unfold enrollRun
    rw [run_cons _ (booted_step _), run_cons _ (enrolled_step _ _)]
    rfl
  have certify : ∀ action ∈ enrollRun, ServersCertify action := by
    intro action listed
    simp only [enrollRun, List.mem_cons, List.not_mem_nil, or_false] at listed
    rcases listed with rfl | rfl
    · trivial
    · exact sample_servers_certify
  have anew : Guarded (Node.step keyEnvironment (tpmConfig testConfig.keyFile)) DrawsAnew
      newTpmNode enrollRun := by
    apply guarded_cons _ (booted_step _)
    · exact guarded_cons trivial (enrolled_step _ _) trivial
    · intro slot listed active
      rw [List.mem_singleton.mp listed] at active
      exact absurd rfl active
  refine ⟨reached, exists_of_content enrolled_cert, ?_⟩
  exact tpm_identity_held keyEnvironment fixture_pki_encodes (tpmConfig testConfig.keyFile)
    defaultTpm rfl (by decide) newTpmNode enrolledNode (never_started (by decide)) enrollRun
    certify anew reached

/-- A node that loses its key to an SO PIN that is drawn again, and a node whose
key file is written because its path is a temporary file's. -/
theorem tpm_identity_lost :
    (NeverStarted (tpmConfig testConfig.keyFile) newTpmNode ∧
      (∀ action ∈ lossRun, ServersCertify action) ∧
      run (Node.step keyEnvironment (tpmConfig testConfig.keyFile)) newTpmNode lossRun =
        some lostNode ∧
      ¬IdentityHeld fixturePki (tpmConfig testConfig.keyFile) defaultTpm lostNode.device.slots
        lostNode.device.disk) ∧
    (NeverStarted (tpmConfig certTemp) newTpmNode ∧
      [testConfig.certFile, certTemp, testConfig.clientCa, defaultTpm.pinFile].Nodup ∧
      (∀ action ∈ strayRun, ServersCertify action) ∧
      run (Node.step keyEnvironment (tpmConfig certTemp)) newTpmNode strayRun =
        some (enrolled certTemp (certCut .rename)) ∧
      entryExists (enrolled certTemp (certCut .rename)).device.disk
        (tpmConfig certTemp).keyFile = true) := by
  constructor
  · refine ⟨never_started (by decide), ?_, loss_run, fun held => ?_⟩
    · intro action listed
      simp only [lossRun, List.mem_cons, List.not_mem_nil, or_false] at listed
      rcases listed with rfl | rfl | rfl | rfl
      · trivial
      · exact sample_servers_certify
      · trivial
      · trivial
    · obtain ⟨slots, cert⟩ := lost_node_files
      obtain ⟨key, tokened, -⟩ := (held.2 (exists_of_content cert)).pair
      rw [slots] at tokened
      cases tokened
  · refine ⟨never_started (by decide), by decide, ?_, stray_run, exists_of_content stray_key_file⟩
    intro action listed
    simp only [strayRun, List.mem_cons, List.not_mem_nil, or_false] at listed
    rcases listed with rfl | rfl
    · trivial
    · exact sample_servers_certify

end Sample

end NodeOs.Noded.TpmNode
