import NodeOs.Library.Json
import NodeOs.Noded.Mediation

/-!
# The persisted intent as a text

`NodeIntent` derives its JSON form: an object with seven members, four of which have
defaults, or the same values in order in an array. `put_config` writes the object with
`to_vec_pretty` and the next boot reads it with `from_slice`. Here both are executable,
and the reader is put together from readers of the members.
-/

namespace NodeOs.Noded.IntentText

open NodeOs.Library.Json NodeOs.Library.FaultPlan NodeOs.Library.FaultPlan.Proc
open NodeOs.Library.Reading hiding map
open NodeOs.Noded.FileSystem hiding Bytes
open NodeOs.Noded.WriteAtomic NodeOs.Noded.Workload
open NodeOs.Noded.Reconcile NodeOs.Noded.Mediation

section Derived

/-- What the derived visitor makes of a key. -/
inductive Field where
  | apiServer
  | clusterCa
  | bootstrapToken
  | clusterDns
  | clusterDomain
  | nodeLabels
  | nodeTaints
  | ignore
  deriving DecidableEq, Repr

def Field.visitStr (key : String) : Field :=
  if key = "apiServer" then .apiServer
  else if key = "clusterCa" then .clusterCa
  else if key = "bootstrapToken" then .bootstrapToken
  else if key = "clusterDns" then .clusterDns
  else if key = "clusterDomain" then .clusterDomain
  else if key = "nodeLabels" then .nodeLabels
  else if key = "nodeTaints" then .nodeTaints
  else .ignore

def Field.name : Field → String
  | .apiServer => "apiServer"
  | .clusterCa => "clusterCa"
  | .bootstrapToken => "bootstrapToken"
  | .clusterDns => "clusterDns"
  | .clusterDomain => "clusterDomain"
  | .nodeLabels => "nodeLabels"
  | .nodeTaints => "nodeTaints"
  | .ignore => ""

theorem visit_name (field : Field) : Field.visitStr field.name = field := by
  cases field <;> decide

/-- A member that has been read. -/
inductive Member where
  | apiServer (value : String)
  | clusterCa (value : String)
  | bootstrapToken (value : String)
  | clusterDns (values : List String)
  | clusterDomain (value : String)
  | nodeLabels (values : List String)
  | nodeTaints (values : List String)
  | ignored
  deriving DecidableEq, Repr

def strings : Reader UInt8 (List String) := array fun _ => text

def Field.value : Field → Reader UInt8 Member
  | .apiServer => Library.Reading.map .apiServer text
  | .clusterCa => Library.Reading.map .clusterCa text
  | .bootstrapToken => Library.Reading.map .bootstrapToken text
  | .clusterDns => Library.Reading.map .clusterDns strings
  | .clusterDomain => Library.Reading.map .clusterDomain text
  | .nodeLabels => Library.Reading.map .nodeLabels strings
  | .nodeTaints => Library.Reading.map .nodeTaints strings
  | .ignore => Library.Reading.map (fun _ => .ignored) skip

def memberValue (key : String) : Reader UInt8 Member := (Field.visitStr key).value

/-- The members of an array are the fields in the order of their declaration. -/
def positional : Nat → Reader UInt8 Member
  | 0 => Field.apiServer.value
  | 1 => Field.clusterCa.value
  | 2 => Field.bootstrapToken.value
  | 3 => Field.clusterDns.value
  | 4 => Field.clusterDomain.value
  | 5 => Field.nodeLabels.value
  | 6 => Field.nodeTaints.value
  | _ => fun _ => none

/-- The values a visitor has found so far. -/
structure Slots where
  apiServer : Option String
  clusterCa : Option String
  bootstrapToken : Option String
  clusterDns : Option (List String)
  clusterDomain : Option String
  nodeLabels : Option (List String)
  nodeTaints : Option (List String)
  deriving DecidableEq, Repr

def Slots.empty : Slots := ⟨none, none, none, none, none, none, none⟩

/-- A field that occurs twice is an error. -/
def once {Value : Type} (slot : Option Value) (value : Value) : Option (Option Value) :=
  match slot with
  | none => some (some value)
  | some _ => none

def Slots.fill (slots : Slots) : Member → Option Slots
  | .apiServer value =>
      (once slots.apiServer value).map fun found => { slots with apiServer := found }
  | .clusterCa value =>
      (once slots.clusterCa value).map fun found => { slots with clusterCa := found }
  | .bootstrapToken value =>
      (once slots.bootstrapToken value).map fun found => { slots with bootstrapToken := found }
  | .clusterDns values =>
      (once slots.clusterDns values).map fun found => { slots with clusterDns := found }
  | .clusterDomain value =>
      (once slots.clusterDomain value).map fun found => { slots with clusterDomain := found }
  | .nodeLabels values =>
      (once slots.nodeLabels values).map fun found => { slots with nodeLabels := found }
  | .nodeTaints values =>
      (once slots.nodeTaints values).map fun found => { slots with nodeTaints := found }
  | .ignored => some slots

def fillAll : List Member → Slots → Option Slots
  | [], slots => some slots
  | member :: members, slots => (slots.fill member).bind (fillAll members)

def defaultClusterDomain : String := "cluster.local"

/-- The fields without a default have to be there. -/
def Slots.finish (slots : Slots) : Option NodeIntent :=
  match slots.apiServer, slots.clusterCa, slots.bootstrapToken with
  | some apiServer, some clusterCa, some bootstrapToken =>
      some {
        apiServer, clusterCa, bootstrapToken
        clusterDns := slots.clusterDns.getD []
        clusterDomain := slots.clusterDomain.getD defaultClusterDomain
        nodeLabels := slots.nodeLabels.getD []
        nodeTaints := slots.nodeTaints.getD [] }
  | _, _, _ => none

def assemble (members : List Member) : Option NodeIntent :=
  (fillAll members .empty).bind Slots.finish

def members : Reader UInt8 (List Member) := fun input =>
  match input.dropWhile isSpace with
  | [] => none
  | next :: _ =>
      if next = byte '[' then array positional input
      else if next = byte '\x7b' then object (member memberValue) input
      else none

/-- Nothing but spaces may follow. -/
def readIntent (bytes : Bytes) : Option NodeIntent :=
  (members bytes).bind fun read =>
    if read.2.all isSpace then assemble read.1 else none

/-- `serde_json` on the derived form of `NodeIntent`. -/
def serdeJson : IntentJson where
  toVecPretty intent := .ok (asBytes (jsonText intent))
  fromSlice bytes :=
    match readIntent bytes with
    | some intent => .ok intent
    | none => .error "not a node intent"

end Derived

section Written

/-- The bytes of a character in a written string. -/
def spell (char : Char) : Bytes := (jsonChar char).flatMap String.utf8EncodeChar

instance (spelling : Bytes) (char : Char) : Decidable (Spells spelling char) :=
  inferInstanceAs (Decidable (_ = _))

theorem spells_ascii : ∀ code < 128, Spells (spell (Char.ofNat code)) (Char.ofNat code) := by
  decide

/-- Bytes that are no quote, no backslash and no control byte stand for themselves. -/
theorem scan_plain {bytes : Bytes} (high : ∀ next ∈ bytes, 128 ≤ next) :
    scan .plain bytes = some (.plain, bytes) := by
  induction bytes with
  | nil => rfl
  | cons next bytes ih =>
      have large : 128 ≤ next := high next (by simp)
      have noQuote : next ≠ byte '"' := by
        rintro rfl
        exact absurd large (by decide)
      have noBackslash : next ≠ byte '\\' := by
        rintro rfl
        exact absurd large (by decide)
      have noControl : ¬next < 32 := by
        rw [UInt8.lt_iff_toNat_lt, UInt8.le_iff_toNat_le] at *
        simp at *
        omega
      rw [scan, if_neg fun closes => noQuote closes.2, Scan.step, if_neg noBackslash,
        if_neg noControl, Option.bind_some, ih fun other listed => high other (by simp [listed])]
      rfl

theorem high_byte {value : Nat} (large : 128 ≤ value % 256) : 128 ≤ UInt8.ofNat value := by
  rw [UInt8.le_iff_toNat_le, UInt8.toNat_ofNat']
  exact large

/-- Every byte of a character beyond ASCII has its highest bit set. -/
theorem utf8_high {char : Char} (wide : 128 ≤ char.toNat) :
    ∀ next ∈ String.utf8EncodeChar char, 128 ≤ next := by
  have beyond : ¬char.val.toNat ≤ 127 := Nat.not_le.mpr wide
  rw [String.utf8EncodeChar]
  simp only [if_neg beyond]
  split_ifs
  all_goals
    simp only [List.forall_mem_cons, List.not_mem_nil, false_implies, implies_true, and_true]
    repeat' apply And.intro
    all_goals exact high_byte (by omega)

theorem json_char_wide {char : Char} (wide : 128 ≤ char.toNat) : jsonChar char = [char] := by
  have other (narrow : Char) (small : narrow.toNat < 128) : char ≠ narrow := by
    rintro rfl
    exact absurd small (Nat.not_lt.mpr wide)
  rw [jsonChar, if_neg (other _ (by decide)), if_neg (other _ (by decide)),
    if_neg (other _ (by decide)), if_neg (other _ (by decide)), if_neg (other _ (by decide)),
    if_neg (other _ (by decide)), if_neg (other _ (by decide)), if_neg (by omega)]

theorem spells_char (char : Char) : Spells (spell char) char := by
  by_cases ascii : char.toNat < 128
  · have same := spells_ascii char.toNat ascii
    rwa [Char.ofNat_toNat] at same
  · have wide := Nat.not_lt.mp ascii
    rw [spell, json_char_wide wide, List.flatMap_singleton]
    exact scan_plain (utf8_high wide)

def writtenText (value : String) : Bytes := quoted spell value.toList

theorem as_bytes_string (value : String) : asBytes (jsonString value) = writtenText value := by
  have read := as_bytes_json_string value ""
  rw [String.append_empty, List.flatMap_assoc] at read
  exact read

theorem reads_written {indent : Bytes} (spaces : ∀ next ∈ indent, isSpace next = true)
    (value : String) : Reads Anything text (indent ++ writtenText value) value := by
  have read := reads_text spaces (fun char (_ : char ∈ value.toList) => spells_char char)
  rwa [String.ofList_toList] at read

theorem torn_written {indent : Bytes} (spaces : ∀ next ∈ indent, isSpace next = true)
    (value : String) : Torn text (indent ++ writtenText value) :=
  torn_text spaces fun char _ => spells_char char

/-- The lines of a list of strings. -/
def writtenLines (values : List String) : List (Bytes × String) :=
  values.map fun value => (writtenText value, value)

def writtenList (values : List String) : Bytes :=
  [byte '['] ++ sequenceText (byte ']') []
    (indented (asBytes "\n    ") (asBytes "\n  ") (writtenLines values))

theorem as_bytes_lines (value : String) (values : List String) :
    asBytes "\n    " ++ asBytes (",\n    ".intercalate ((value :: values).map jsonString)) ++
        asBytes "\n  ]" =
      sequenceText (byte ']') [] (indented (asBytes "\n    ") (asBytes "\n  ")
        (writtenLines (value :: values))) := by
  induction values generalizing value with
  | nil =>
      rw [List.map_singleton, String.intercalate_singleton, as_bytes_string]
      simp [writtenLines, indented, sequenceText, moreEntries]
      rfl
  | cons second values ih =>
      have comma : asBytes ",\n    " = byte ',' :: asBytes "\n    " := rfl
      have later := ih second
      rw [List.append_assoc] at later
      have split : sequenceText (byte ']') [] (indented (asBytes "\n    ") (asBytes "\n  ")
          (writtenLines (value :: second :: values))) = _ :=
        sequence_indented _ _ _ _
      refine Eq.trans ?_ split.symm
      rw [List.map_cons, List.map_cons, String.intercalate_cons_cons, as_bytes_append,
        as_bytes_append, as_bytes_string, comma]
      simp only [List.append_assoc, List.cons_append]
      exact congrArg (fun rest => _ ++ (_ ++ byte ',' :: rest)) later

theorem as_bytes_list (values : List String) : asBytes (jsonList values) = writtenList values := by
  cases values with
  | nil => rfl
  | cons value values =>
      have bracket : asBytes "[\n    " = byte '[' :: asBytes "\n    " := rfl
      have lines := as_bytes_lines value values
      show asBytes ("[\n    " ++ _ ++ "\n  ]") = _
      rw [as_bytes_append, as_bytes_append, bracket, List.cons_append, List.cons_append, lines]
      rfl

theorem breaks_space : ∀ next ∈ asBytes "\n    ", isSpace next = true :=
  List.all_eq_true.mp rfl

theorem written_list_whole (values : List String) :
    InPlace (Entry.Whole (byte ']')) (fun _ => text) 0
      (indented (asBytes "\n    ") (asBytes "\n  ") (writtenLines values)) := by
  refine in_place_everywhere (indented_whole (List.all_eq_true.mp rfl) fun line listed => ?_)
  obtain ⟨value, -, rfl⟩ := List.mem_map.mp listed
  exact ⟨reads_written breaks_space value, starts_indented breaks_space rfl (by decide),
    torn_written breaks_space value⟩

theorem reads_written_list {indent : Bytes} (spaces : ∀ next ∈ indent, isSpace next = true)
    (values : List String) : Reads Anything strings (indent ++ writtenList values) values := by
  have read := reads_array ((written_list_whole values).imp fun _ _ whole => whole.reads) spaces
    (fun next (none : next ∈ []) => absurd none List.not_mem_nil)
  have same : (writtenLines values).map Prod.snd = values := by
    simp [writtenLines, Function.comp_def]
  rwa [indented_values, same, List.append_assoc] at read

theorem torn_written_list {indent : Bytes} (spaces : ∀ next ∈ indent, isSpace next = true)
    (values : List String) : Torn strings (indent ++ writtenList values) := by
  have torn := torn_array (written_list_whole values) spaces
    (fun next (none : next ∈ []) => absurd none List.not_mem_nil)
  rwa [List.append_assoc] at torn

/-- A member of the written object: its field, the bytes of its value, and what they mean. -/
structure Line where
  field : Field
  bytes : Bytes
  member : Member

def Line.entry (line : Line) : Bytes × Member :=
  (writtenText line.field.name ++ ([] ++ [byte ':'] ++ byte ' ' :: line.bytes), line.member)

def lines (intent : NodeIntent) : List Line :=
  [⟨.apiServer, writtenText intent.apiServer, .apiServer intent.apiServer⟩,
    ⟨.clusterCa, writtenText intent.clusterCa, .clusterCa intent.clusterCa⟩,
    ⟨.bootstrapToken, writtenText intent.bootstrapToken, .bootstrapToken intent.bootstrapToken⟩,
    ⟨.clusterDns, writtenList intent.clusterDns, .clusterDns intent.clusterDns⟩,
    ⟨.clusterDomain, writtenText intent.clusterDomain, .clusterDomain intent.clusterDomain⟩,
    ⟨.nodeLabels, writtenList intent.nodeLabels, .nodeLabels intent.nodeLabels⟩,
    ⟨.nodeTaints, writtenList intent.nodeTaints, .nodeTaints intent.nodeTaints⟩]

def writtenObject (intent : NodeIntent) : Bytes :=
  [] ++ [byte '\x7b'] ++ sequenceText (byte '\x7d') []
    (indented (asBytes "\n  ") (asBytes "\n") ((lines intent).map Line.entry))

theorem as_bytes_pieces (first : String) (pieces : List String) :
    asBytes (pieces.foldl (· ++ ·) first) = asBytes first ++ pieces.flatMap asBytes := by
  induction pieces generalizing first with
  | nil => simp
  | cons piece pieces ih =>
      rw [List.foldl_cons, ih, as_bytes_append, List.append_assoc, List.flatMap_cons]

theorem as_bytes_text (intent : NodeIntent) : asBytes (jsonText intent) = writtenObject intent := by
  have first : asBytes "\x7b\n  \"apiServer\": " = byte '\x7b' :: (asBytes "\n  " ++
      (writtenText "apiServer" ++ [byte ':', byte ' '])) := by decide
  have ca : asBytes ",\n  \"clusterCa\": " = byte ',' :: (asBytes "\n  " ++
      (writtenText "clusterCa" ++ [byte ':', byte ' '])) := by decide
  have token : asBytes ",\n  \"bootstrapToken\": " = byte ',' :: (asBytes "\n  " ++
      (writtenText "bootstrapToken" ++ [byte ':', byte ' '])) := by decide
  have dns : asBytes ",\n  \"clusterDns\": " = byte ',' :: (asBytes "\n  " ++
      (writtenText "clusterDns" ++ [byte ':', byte ' '])) := by decide
  have domain : asBytes ",\n  \"clusterDomain\": " = byte ',' :: (asBytes "\n  " ++
      (writtenText "clusterDomain" ++ [byte ':', byte ' '])) := by decide
  have labels : asBytes ",\n  \"nodeLabels\": " = byte ',' :: (asBytes "\n  " ++
      (writtenText "nodeLabels" ++ [byte ':', byte ' '])) := by decide
  have taints : asBytes ",\n  \"nodeTaints\": " = byte ',' :: (asBytes "\n  " ++
      (writtenText "nodeTaints" ++ [byte ':', byte ' '])) := by decide
  have last : asBytes "\n\x7d" = asBytes "\n" ++ [byte '\x7d'] := by decide
  have rest := as_bytes_pieces ",\n  \"clusterCa\": " [jsonString intent.clusterCa,
    ",\n  \"bootstrapToken\": ", jsonString intent.bootstrapToken, ",\n  \"clusterDns\": ",
    jsonList intent.clusterDns, ",\n  \"clusterDomain\": ", jsonString intent.clusterDomain,
    ",\n  \"nodeLabels\": ", jsonList intent.nodeLabels, ",\n  \"nodeTaints\": ",
    jsonList intent.nodeTaints, "\n\x7d"]
  have server : asBytes (jsonText intent) = _ :=
    (as_bytes_append _ _).trans (congrArg _ (as_bytes_append _ _))
  refine server.trans ?_
  rw [as_bytes_string, first, show asBytes (jsonRest intent) = _ from rest]
  simp only [List.flatMap_cons, List.flatMap_nil, as_bytes_string, as_bytes_list, ca, token, dns,
    domain, labels, taints, last, writtenObject, lines, List.map_cons, List.map_nil, Line.entry,
    Field.name, indented, sequenceText, moreEntries, List.append_assoc, List.cons_append,
    List.nil_append, List.append_nil]

theorem no_space : ∀ next ∈ ([] : Bytes), isSpace next = true := by
  simp

theorem single_space : ∀ next ∈ [byte ' '], isSpace next = true :=
  List.all_eq_true.mp rfl

theorem line_whole (intent : NodeIntent) : ∀ line ∈ lines intent,
    Reads Anything line.field.value ([byte ' '] ++ line.bytes) line.member ∧
      Torn line.field.value ([byte ' '] ++ line.bytes) := by
  have string (value : String) (change : String → Member) :
      Reads Anything (Library.Reading.map change text) ([byte ' '] ++ writtenText value)
          (change value) ∧
        Torn (Library.Reading.map change text) ([byte ' '] ++ writtenText value) :=
    ⟨(reads_written single_space value).map change, (torn_written single_space value).map change⟩
  have list (values : List String) (change : List String → Member) :
      Reads Anything (Library.Reading.map change strings) ([byte ' '] ++ writtenList values)
          (change values) ∧
        Torn (Library.Reading.map change strings) ([byte ' '] ++ writtenList values) :=
    ⟨(reads_written_list single_space values).map change,
      (torn_written_list single_space values).map change⟩
  simp only [lines, List.forall_mem_cons, List.not_mem_nil, false_implies, implies_true, and_true]
  exact ⟨string _ _, string _ _, string _ _, list _ _, string _ _, list _ _, list _ _⟩

theorem indent_spaces : ∀ next ∈ asBytes "\n  ", isSpace next = true :=
  List.all_eq_true.mp rfl

theorem line_entry_whole {intent : NodeIntent} {line : Line} (listed : line ∈ lines intent)
    {indent : Bytes} (spaces : ∀ next ∈ indent, isSpace next = true) :
    Reads Anything (member memberValue) (indent ++ line.entry.1) line.entry.2 ∧
      Starts (byte '\x7d') (indent ++ line.entry.1) ∧
      Torn (member memberValue) (indent ++ line.entry.1) := by
  obtain ⟨reads, torn⟩ := line_whole intent line listed
  have kind : memberValue line.field.name = line.field.value := by
    rw [memberValue, visit_name]
  have keyed := reads_written spaces line.field.name
  have kept := torn_written spaces line.field.name
  refine ⟨?_, starts_indented spaces rfl (by decide), ?_⟩
  · rw [Line.entry, ← List.append_assoc]
    exact reads_member keyed (by simp) (kind ▸ reads)
  · rw [Line.entry, ← List.append_assoc]
    exact torn_member keyed kept (by simp) (kind ▸ torn)

theorem entries_whole (intent : NodeIntent) :
    ∀ entry ∈ indented (asBytes "\n  ") (asBytes "\n") ((lines intent).map Line.entry),
      entry.Whole (byte '\x7d') (member memberValue) := by
  refine indented_whole (List.all_eq_true.mp rfl) fun entry listed => ?_
  obtain ⟨line, among, rfl⟩ := List.mem_map.mp listed
  exact line_entry_whole among indent_spaces

theorem reads_written_object (intent : NodeIntent) :
    Reads Anything (object (member memberValue)) (writtenObject intent)
      ((lines intent).map Line.member) := by
  have read := reads_object (fun entry listed => (entries_whole intent entry listed).reads)
    no_space no_space
  rw [indented_values, List.map_map] at read
  exact read

theorem torn_written_object (intent : NodeIntent) :
    Torn (object (member memberValue)) (writtenObject intent) :=
  torn_object (entries_whole intent) (by simp) (by simp)

end Written

section Assembled

def Member.field : Member → Field
  | .apiServer _ => .apiServer
  | .clusterCa _ => .clusterCa
  | .bootstrapToken _ => .bootstrapToken
  | .clusterDns _ => .clusterDns
  | .clusterDomain _ => .clusterDomain
  | .nodeLabels _ => .nodeLabels
  | .nodeTaints _ => .nodeTaints
  | .ignored => .ignore

/-- The members the visitor keeps. -/
def known (members : List Member) : List Member :=
  members.filter fun member => decide (member ≠ .ignored)

/-- All the fields of an intent. -/
def fields (intent : NodeIntent) : List Member := (lines intent).map Line.member

/-- What a field is when it is left out. -/
def defaults : List Member :=
  [.clusterDns [], .clusterDomain defaultClusterDomain, .nodeLabels [], .nodeTaints []]

/-- The members say the intent: each of its fields at most once, in any order, and the
fields that are left out have their defaults. -/
def Describes (members : List Member) (intent : NodeIntent) : Prop :=
  ∃ chosen, chosen.Sublist (fields intent) ∧
    (∀ member ∈ fields intent, member ∉ chosen → member ∈ defaults) ∧
    (known members).Perm chosen

/-- The slots as the members they were filled by. -/
def Slots.members (slots : Slots) : List Member :=
  slots.apiServer.toList.map .apiServer ++ slots.clusterCa.toList.map .clusterCa ++
    slots.bootstrapToken.toList.map .bootstrapToken ++ slots.clusterDns.toList.map .clusterDns ++
    slots.clusterDomain.toList.map .clusterDomain ++ slots.nodeLabels.toList.map .nodeLabels ++
    slots.nodeTaints.toList.map .nodeTaints

theorem once_eq_some {Value : Type} {slot found : Option Value} {value : Value} :
    once slot value = some found ↔ slot = none ∧ found = some value := by
  cases slot <;> simp [once, eq_comm]

/-- A slot that is filled was free. -/
theorem fill_members {slots after : Slots} {member : Member} (kept : member ≠ .ignored)
    (filled : slots.fill member = some after) :
    after.members.Perm (member :: slots.members) := by
  rw [List.perm_iff_count]
  intro other
  cases member with
  | ignored => exact absurd rfl kept
  | _ value =>
      obtain ⟨found, free, rfl⟩ := Option.map_eq_some_iff.mp filled
      obtain ⟨empty, rfl⟩ := once_eq_some.mp free
      simp only [Slots.members, empty, Option.toList_none, Option.toList_some, List.map_nil,
        List.map_singleton, List.count_append, List.count_cons, List.count_nil]
      omega

/-- A slot that cannot be filled is taken. -/
theorem fill_none {slots : Slots} {member : Member} (refused : slots.fill member = none) :
    member.field ∈ slots.members.map Member.field := by
  have taken {Value : Type} {slot : Option Value} {value : Value} (shut : once slot value = none) :
      ∃ other, slot = some other := by
    cases slot with
    | none => cases shut
    | some other => exact ⟨other, rfl⟩
  cases member with
  | ignored => cases refused
  | _ value =>
      obtain ⟨other, held⟩ := taken (Option.map_eq_none_iff.mp refused)
      simp [Slots.members, held, Member.field]

theorem fill_all_members {members : List Member} {slots after : Slots}
    (filled : fillAll members slots = some after) :
    after.members.Perm (known members ++ slots.members) := by
  induction members generalizing slots with
  | nil =>
      cases filled
      exact .refl _
  | cons member members ih =>
      obtain ⟨next, first, later⟩ := Option.bind_eq_some_iff.mp filled
      by_cases ignored : member = .ignored
      · subst ignored
        cases first
        exact ih later
      · rw [known, List.filter_cons_of_pos (by simpa using ignored)]
        exact ((ih later).trans ((fill_members ignored first).append_left _)).trans
          List.perm_middle

theorem fill_all_total {members : List Member} {slots : Slots}
    (distinct : ((known members ++ slots.members).map Member.field).Nodup) :
    ∃ after, fillAll members slots = some after := by
  induction members generalizing slots with
  | nil => exact ⟨slots, rfl⟩
  | cons member members ih =>
      by_cases ignored : member = .ignored
      · subst ignored
        exact ih distinct
      · rw [known, List.filter_cons_of_pos (by simpa using ignored), List.cons_append,
          List.map_cons, List.nodup_cons, List.map_append] at distinct
        cases first : slots.fill member with
        | none =>
            exact absurd (List.mem_append_right _ (fill_none first)) distinct.1
        | some next =>
            have moved : (known members ++ next.members).Perm
                (member :: (known members ++ slots.members)) :=
              ((fill_members ignored first).append_left _).trans List.perm_middle
            obtain ⟨after, later⟩ := ih ((moved.map Member.field).nodup_iff.mpr (by
              rw [List.map_cons, List.nodup_cons, List.map_append]
              exact distinct))
            exact ⟨after, by rw [fillAll, first, Option.bind_some, later]⟩

theorem finish_describes {slots : Slots} {intent : NodeIntent}
    (finished : slots.finish = some intent) :
    slots.members.Sublist (fields intent) ∧
      ∀ member ∈ fields intent, member ∉ slots.members → member ∈ defaults := by
  obtain ⟨server, ca, token, dns, domain, labels, taints⟩ := slots
  cases server with
  | none => cases finished
  | some server =>
  cases ca with
  | none => cases finished
  | some ca =>
  cases token with
  | none => cases finished
  | some token =>
      cases finished
      have part {Value : Type} (slot : Option Value) (value : Value) (change : Value → Member) :
          (slot.toList.map change).Sublist [change (slot.getD value)] := by
        cases slot <;> simp
      refine ⟨?_, ?_⟩
      · show List.Sublist _ ([Member.apiServer server] ++ [.clusterCa ca] ++
          [.bootstrapToken token] ++ [.clusterDns (dns.getD [])] ++
          [.clusterDomain (domain.getD defaultClusterDomain)] ++ [.nodeLabels (labels.getD [])] ++
          [.nodeTaints (taints.getD [])])
        exact ((((((List.Sublist.refl _).append (.refl _)).append (.refl _)).append
          (part dns _ _)).append (part domain _ _)).append (part labels _ _)).append
          (part taints _ _)
      · simp only [fields, lines, List.map_cons, List.map_nil, List.forall_mem_cons,
          List.not_mem_nil, false_implies, implies_true, and_true]
        refine ⟨?_, ?_, ?_, ?_, ?_, ?_, ?_⟩
        · simp [Slots.members]
        · simp [Slots.members]
        · simp [Slots.members]
        · cases dns <;> simp [Slots.members, defaults]
        · cases domain <;> simp [Slots.members, defaults]
        · cases labels <;> simp [Slots.members, defaults]
        · cases taints <;> simp [Slots.members, defaults]

section Slot

variable {slots : Slots} {intent : NodeIntent} {Value : Type} {slot : Option Value}
  {value : Value} (change : Value → Member)

/-- A slot without a default holds the value of its field. -/
theorem slot_required
    (rest : ∀ member ∈ fields intent, member ∉ slots.members → member ∈ defaults)
    (holds : ∀ other, change other ∈ slots.members ↔ slot = some other)
    (alone : ∀ other, change other ∈ fields intent ↔ other = value)
    (noDefault : change value ∉ defaults) : slot = some value := by
  by_cases inside : change value ∈ slots.members
  · exact (holds value).mp inside
  · exact absurd (rest _ ((alone value).mpr rfl) inside) noDefault

theorem slot_optional {fallback : Value}
    (own : ∀ member ∈ slots.members, member ∈ fields intent)
    (rest : ∀ member ∈ fields intent, member ∉ slots.members → member ∈ defaults)
    (holds : ∀ other, change other ∈ slots.members ↔ slot = some other)
    (alone : ∀ other, change other ∈ fields intent ↔ other = value)
    (default : change value ∈ defaults → value = fallback) : slot.getD fallback = value := by
  cases held : slot with
  | some other => exact (alone other).mp (own _ ((holds other).mpr held))
  | none =>
      refine (default (rest _ ((alone value).mpr rfl) fun inside => ?_)).symm
      rw [(holds value).mp inside] at held
      cases held

end Slot

theorem finish_of_members {slots : Slots} {intent : NodeIntent}
    (own : ∀ member ∈ slots.members, member ∈ fields intent)
    (rest : ∀ member ∈ fields intent, member ∉ slots.members → member ∈ defaults) :
    slots.finish = some intent := by
  have server : slots.apiServer = some intent.apiServer :=
    slot_required .apiServer rest (by simp [Slots.members]) (by simp [fields, lines])
      (by simp [defaults])
  have ca : slots.clusterCa = some intent.clusterCa :=
    slot_required .clusterCa rest (by simp [Slots.members]) (by simp [fields, lines])
      (by simp [defaults])
  have token : slots.bootstrapToken = some intent.bootstrapToken :=
    slot_required .bootstrapToken rest (by simp [Slots.members]) (by simp [fields, lines])
      (by simp [defaults])
  have dns : slots.clusterDns.getD [] = intent.clusterDns :=
    slot_optional .clusterDns own rest (by simp [Slots.members]) (by simp [fields, lines])
      (by simp [defaults])
  have domain : slots.clusterDomain.getD defaultClusterDomain = intent.clusterDomain :=
    slot_optional .clusterDomain own rest (by simp [Slots.members]) (by simp [fields, lines])
      (by simp [defaults])
  have labels : slots.nodeLabels.getD [] = intent.nodeLabels :=
    slot_optional .nodeLabels own rest (by simp [Slots.members]) (by simp [fields, lines])
      (by simp [defaults])
  have taints : slots.nodeTaints.getD [] = intent.nodeTaints :=
    slot_optional .nodeTaints own rest (by simp [Slots.members]) (by simp [fields, lines])
      (by simp [defaults])
  simp only [Slots.finish, server, ca, token, dns, domain, labels, taints]

/-- What fills the slots is exactly what the members say. -/
theorem assemble_eq_some_iff {members : List Member} {intent : NodeIntent} :
    assemble members = some intent ↔ Describes members intent := by
  have blank : (known members ++ Slots.empty.members) = known members := List.append_nil _
  refine ⟨fun assembled => ?_, ?_⟩
  · obtain ⟨slots, filled, finished⟩ := Option.bind_eq_some_iff.mp assembled
    obtain ⟨part, rest⟩ := finish_describes finished
    exact ⟨slots.members, part, rest, (blank ▸ fill_all_members filled).symm⟩
  · rintro ⟨chosen, part, rest, order⟩
    have distinct : ((fields intent).map Member.field).Nodup := by
      show [Field.apiServer, .clusterCa, .bootstrapToken, .clusterDns, .clusterDomain,
        .nodeLabels, .nodeTaints].Nodup
      decide
    have nodup := ((order.map Member.field).nodup_iff.mpr (distinct.sublist (part.map _)))
    obtain ⟨slots, filled⟩ := @fill_all_total members .empty (by rw [blank]; exact nodup)
    have same : slots.members.Perm chosen := (blank ▸ fill_all_members filled).trans order
    rw [assemble, filled, Option.bind_some]
    refine finish_of_members (fun member inside => part.subset (same.mem_iff.mp inside)) ?_
    exact fun member inside missing => rest member inside fun among =>
      missing (same.mem_iff.mpr among)

end Assembled

section Accepted

theorem members_open {input rest : Bytes}
    (opens : input.dropWhile isSpace = byte '\x7b' :: rest) :
    members input = object (member memberValue) input := by
  rw [members, opens]
  rfl

theorem members_bracket {input rest : Bytes}
    (opens : input.dropWhile isSpace = byte '[' :: rest) :
    members input = array positional input := by
  rw [members, opens]
  rfl

/-- An object or an array of the entries; keys and values may be spelled in any way that is
read as they are. -/
inductive Body (entries : List (Entry Member)) : Bytes → Prop where
  | object (blank : Bytes) (spaces : ∀ next ∈ blank, isSpace next = true)
      (each : ∀ entry ∈ entries, entry.Reads Delimited (byte '\x7d') (member memberValue)) :
      Body entries ([byte '\x7b'] ++ sequenceText (byte '\x7d') blank entries)
  | array (blank : Bytes) (spaces : ∀ next ∈ blank, isSpace next = true)
      (inPlace : InPlace (Entry.Reads Delimited (byte ']')) positional 0 entries) :
      Body entries ([byte '['] ++ sequenceText (byte ']') blank entries)

/-- A text that has the entries and spaces around them. -/
def Spelled (entries : List (Entry Member)) (input : Bytes) : Prop :=
  ∃ indent body trail, Body entries body ∧ (∀ next ∈ indent, isSpace next = true) ∧
    (∀ next ∈ trail, isSpace next = true) ∧ input = indent ++ body ++ trail

theorem drop_to_bracket {indent : Bytes} {bracket : UInt8} (rest : Bytes)
    (spaces : ∀ next ∈ indent, isSpace next = true) (solid : isSpace bracket = false) :
    (indent ++ bracket :: rest).dropWhile isSpace = bracket :: rest := by
  refine dropWhile_spaces spaces fun next found => ?_
  cases found
  exact solid

theorem reads_body {entries : List (Entry Member)} {body indent : Bytes}
    (held : Body entries body) (before : ∀ next ∈ indent, isSpace next = true) :
    Reads Anything members (indent ++ body) (entries.map Entry.value) := by
  intro rest _
  cases held with
  | object blank spaces each =>
      have read := reads_object each before spaces
      rw [← List.append_assoc, ← read.anything rest]
      have opens : (indent ++ [byte '\x7b'] ++ sequenceText (byte '\x7d') blank entries ++
          rest).dropWhile isSpace =
            byte '\x7b' :: (sequenceText (byte '\x7d') blank entries ++ rest) := by
        simp only [List.append_assoc]
        exact drop_to_bracket _ before rfl
      exact members_open opens
  | array blank spaces inPlace =>
      have read := reads_array inPlace before spaces
      rw [← List.append_assoc, ← read.anything rest]
      have opens : (indent ++ [byte '['] ++ sequenceText (byte ']') blank entries ++
          rest).dropWhile isSpace =
            byte '[' :: (sequenceText (byte ']') blank entries ++ rest) := by
        simp only [List.append_assoc]
        exact drop_to_bracket _ before rfl
      exact members_bracket opens

theorem read_intent_text {entries : List (Entry Member)} {input : Bytes}
    (spelled : Spelled entries input) : readIntent input = assemble (entries.map Entry.value) := by
  obtain ⟨indent, body, trail, held, before, after, rfl⟩ := spelled
  rw [readIntent, (reads_body held before).anything, Option.bind_some,
    if_pos (List.all_eq_true.mpr after)]

theorem from_slice_ok_iff {input : Bytes} {intent : NodeIntent} :
    serdeJson.fromSlice input = .ok intent ↔ readIntent input = some intent := by
  cases read : readIntent input <;> simp [serdeJson, read]

section Sample

def briefIntent : NodeIntent := ⟨"a", "b", "c", [], defaultClusterDomain, [], []⟩

/-- An unknown member, and three fields in another order. -/
def briefEntries : List (Entry Member) :=
  ⟨asBytes "\"note\":null", [], .ignored⟩ ::
    ((lines briefIntent).take 3).reverse.map fun line => ⟨line.entry.1, [], line.entry.2⟩

theorem brief_note_reads :
    Entry.Reads Delimited (byte '\x7d') (member memberValue)
      ⟨asBytes "\"note\":null", [], .ignored⟩ := by
  have word : Reads Delimited (memberValue "note") (asBytes "null") .ignored :=
    fun rest _ => rfl
  have same : asBytes "\"note\":null" =
      [] ++ writtenText "note" ++ ([] ++ [byte ':'] ++ asBytes "null") := by decide
  refine ⟨?_, ⟨byte '"', rfl, by decide⟩, no_space⟩
  show Reads Delimited _ (asBytes "\"note\":null") _
  rw [same]
  exact reads_member (reads_written no_space "note") no_space word

def briefText : String :=
  "\x7b\"note\":null,\"bootstrapToken\": \"c\",\"clusterCa\": \"b\",\"apiServer\": \"a\"\x7d\n"

theorem brief_spelled : Spelled briefEntries (asBytes briefText) := by
  refine ⟨[], _, [10], .object [] no_space ?_, no_space, List.all_eq_true.mp rfl,
    by decide⟩
  rw [briefEntries, List.forall_mem_cons]
  refine ⟨brief_note_reads, fun entry listed => ?_⟩
  obtain ⟨line, among, rfl⟩ := List.mem_map.mp listed
  have inside := List.mem_of_mem_take (List.mem_reverse.mp among)
  obtain ⟨reads, starts, -⟩ := line_entry_whole inside no_space
  exact ⟨reads.weaken fun _ _ => trivial, starts, by simp⟩

end Sample

end Accepted

section Persisted

theorem written_intent_text (intent : NodeIntent) :
    Spelled (indented (asBytes "\n  ") (asBytes "\n") ((lines intent).map Line.entry))
      (asBytes (jsonText intent)) := by
  refine ⟨[], _, [], .object [] (by simp) ?_, by simp, by simp, ?_⟩
  · exact fun entry listed => (entries_whole intent entry listed).reads
  · rw [as_bytes_text, writtenObject, List.append_nil, List.nil_append, List.nil_append]

theorem fields_describe (intent : NodeIntent) : Describes (fields intent) intent :=
  ⟨fields intent, .refl _, fun _ inside missing => absurd inside missing, by
    rw [known, List.filter_eq_self.mpr]
    simp [fields, lines]⟩

/-- What `put_config` persists is read back as the intent it was given. -/
theorem serde_json_round_trip : serdeJson.RoundTrip := by
  intro intent bytes encoded
  have same : asBytes (jsonText intent) = bytes := Except.ok.inj encoded
  rw [← same, from_slice_ok_iff, read_intent_text (written_intent_text intent),
    assemble_eq_some_iff, indented_values, List.map_map]
  exact fields_describe intent

/-- No proper beginning of a persisted text is read as an intent. -/
theorem read_intent_torn {intent : NodeIntent} {front back : Bytes}
    (cut : asBytes (jsonText intent) = front ++ back) (remains : back ≠ []) :
    readIntent front = none := by
  rw [as_bytes_text] at cut
  cases front with
  | nil => rfl
  | cons next front =>
      have first : byte '\x7b' = next := (List.cons.inj cut).1
      subst first
      rw [readIntent, members_open rfl, torn_written_object intent _ _ cut remains,
        Option.bind_none]

theorem load_node_intent_run (json : IntentJson) (plan : Plan ApplyStep) (disk : Disk) :
    ((loadNodeIntent json).run plan disk).1 =
      match plan .readIntent with
      | .done => .ok (persisted json (cells disk))
      | .fails _ => .ok none
      | .killed _ => .killed := by
  rw [loadNodeIntent, run_bind, run_attempt, run_step]
  cases plan .readIntent with
  | fails extent => simp
  | killed extent => simp
  | done =>
      cases held : disk.content nodeIntentPath with
      | none =>
          have view : cells disk .nodeIntent = none := held
          simp [persisted, view]
      | some data =>
          have view : cells disk .nodeIntent = some data := held
          cases parsed : json.fromSlice data <;>
            simp [persisted, view, parsed, Except.toOption]

theorem first_write_held (bytes : Bytes) {writes : List Write} (before : Cells)
    (others : ∀ write ∈ writes, write.target ≠ .nodeIntent) :
    applyWrites (⟨.nodeIntent, bytes⟩ :: writes) before .nodeIntent = some bytes :=
  (apply_writes_frame ((Write.mk .nodeIntent bytes).apply before) others).trans
    (Function.update_self ..)

/-- What a request does to the persisted intent: nothing, or it puts its own in place. -/
theorem put_config_persisted (profile : Profile) (fromPem : FromPem) (intent : NodeIntent)
    (plan : Plan ApplyStep) (disk : Disk) :
    let answer := (putConfig serdeJson profile fromPem intent).run plan disk
    persisted serdeJson (cells answer.2) = some intent ∨
      persisted serdeJson (cells answer.2) = persisted serdeJson (cells disk) ∧
        statusOf answer.1 ≠ some 200 := by
  intro answer
  cases checked : intent.validate fromPem with
  | error err =>
      obtain ⟨response, same, bad⟩ :=
        put_config_refused serdeJson profile fromPem intent (.inl ⟨err, checked⟩)
      have unchanged : answer = (.ok response, disk) := by simp only [answer, same]; rfl
      rw [unchanged]
      exact .inr ⟨rfl, by simpa [statusOf] using bad⟩
  | ok passed =>
      have encoded : serdeJson.toVecPretty intent = .ok (asBytes (jsonText intent)) := rfl
      obtain ⟨count, -, after, full⟩ :=
        profile_put_config_performs profile checked encoded plan disk
      cases count with
      | zero =>
          refine .inr ⟨congrArg (persisted serdeJson) after, fun answered => ?_⟩
          cases outcome : answer.1 with
          | err error => simp [outcome, statusOf] at answered
          | killed => simp [outcome, statusOf] at answered
          | ok response =>
              have all := full response outcome (by simpa [outcome, statusOf] using answered)
              cases all
      | succ count =>
          rw [List.take_succ_cons] at after
          have held : cells answer.2 .nodeIntent = some (asBytes (jsonText intent)) := by
            rw [after]
            exact first_write_held _ _ fun write member =>
              rendered_target (List.mem_of_mem_take member)
          left
          rw [persisted, held, Option.bind_some, serde_json_round_trip intent _ rfl]
          rfl

/-- The text of an intent that was cut short, or that something follows. -/
def Damaged (intent : NodeIntent) (bytes : Bytes) : Prop :=
  (∃ back, back ≠ [] ∧ asBytes (jsonText intent) = bytes ++ back) ∨
    ∃ more, bytes = asBytes (jsonText intent) ++ more ∧ ∃ next ∈ more, isSpace next = false

theorem damaged_not_read {intent : NodeIntent} {bytes : Bytes} (damaged : Damaged intent bytes) :
    readIntent bytes = none := by
  rcases damaged with ⟨back, remains, cut⟩ | ⟨more, extended, next, inside, solid⟩
  · exact read_intent_torn cut remains
  · rw [extended]
    have opens : ∃ rest, (asBytes (jsonText intent) ++ more).dropWhile isSpace =
        byte '\x7b' :: rest := by
      rw [as_bytes_text]
      exact ⟨_, rfl⟩
    obtain ⟨rest, opens⟩ := opens
    have wrong : ¬more.all isSpace = true := fun spaces => by
      rw [List.all_eq_true.mp spaces next inside] at solid
      cases solid
    rw [readIntent, members_open opens, as_bytes_text, (reads_written_object intent).anything,
      Option.bind_some, if_neg wrong]

end Persisted

end NodeOs.Noded.IntentText
