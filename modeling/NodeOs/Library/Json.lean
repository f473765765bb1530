import Mathlib.Data.List.Forall2
import NodeOs.Library.Reading

/-!
# JSON texts

The grammar of RFC 8259 over bytes. A text that is kept has its escapes resolved and
must be UTF-8; in a value that is skipped, escapes are only recognised. Objects and
arrays are sequences of items, so that a typed reader is made from readers of its
members.
-/

namespace NodeOs.Library.Json

open NodeOs.Library.Reading

abbrev Bytes := List UInt8

def byte (char : Char) : UInt8 := char.toNat.toUInt8

def isSpace (byte : UInt8) : Bool := byte = 32 || byte = 10 || byte = 9 || byte = 13

def isDigit (byte : UInt8) : Bool := 48 ≤ byte && byte ≤ 57

def hexDigit (byte : UInt8) : Option Nat :=
  if 48 ≤ byte ∧ byte ≤ 57 then some (byte.toNat - 48)
  else if 97 ≤ byte ∧ byte ≤ 102 then some (byte.toNat - 87)
  else if 65 ≤ byte ∧ byte ≤ 70 then some (byte.toNat - 55)
  else none

section Texts

/-- Where in a string the reader is. `high` is a leading surrogate that waits for its
second half. -/
inductive Scan where
  | plain
  | escape
  | unicode (high : Option Nat) (digits : List Nat)
  | backslash (high : Nat)
  | letter (high : Nat)
  deriving DecidableEq

def isLeading (code : Nat) : Bool := 0xd800 ≤ code && code ≤ 0xdbff

def isTrailing (code : Nat) : Bool := 0xdc00 ≤ code && code ≤ 0xdfff

def utf8 (code : Nat) : Bytes := String.utf8EncodeChar (Char.ofNat code)

/-- The four digits of an escape have been read. -/
def resolve (high : Option Nat) (code : Nat) : Option (Scan × Bytes) :=
  match high with
  | none =>
      if isTrailing code then none
      else if isLeading code then some (.backslash code, [])
      else some (.plain, utf8 code)
  | some high =>
      if isTrailing code then
        some (.plain, utf8 (0x10000 + (high - 0xd800) * 0x400 + (code - 0xdc00)))
      else none

def unescape (letter : UInt8) : Option UInt8 :=
  if letter = byte '"' ∨ letter = byte '\\' ∨ letter = byte '/' then some letter
  else if letter = byte 'b' then some 8
  else if letter = byte 'f' then some 12
  else if letter = byte 'n' then some 10
  else if letter = byte 'r' then some 13
  else if letter = byte 't' then some 9
  else none

/-- What one byte of a string does: the bytes it completes. -/
def Scan.step : Scan → UInt8 → Option (Scan × Bytes)
  | .plain, next =>
      if next = byte '\\' then some (.escape, [])
      else if next < 32 then none
      else some (.plain, [next])
  | .escape, next =>
      if next = byte 'u' then some (.unicode none [], [])
      else (unescape next).map fun char => (.plain, [char])
  | .unicode high digits, next =>
      (hexDigit next).bind fun digit =>
        if digits.length = 3 then
          resolve high ((digits ++ [digit]).foldl (fun code digit => 16 * code + digit) 0)
        else some (.unicode high (digits ++ [digit]), [])
  | .backslash high, next => if next = byte '\\' then some (.letter high, []) else none
  | .letter high, next => if next = byte 'u' then some (.unicode (some high) [], []) else none

/-- The content of a string, up to its closing quote. -/
def content : Scan → Reader UInt8 Bytes
  | _, [] => none
  | state, next :: rest =>
      if state = .plain ∧ next = byte '"' then some ([], rest)
      else
        (state.step next).bind fun after =>
          (content after.1 rest).map fun read => (after.2 ++ read.1, read.2)

def decode (bytes : Bytes) : Option String := String.fromUTF8? bytes.toByteArray

/-- A string that is kept. -/
def text : Reader UInt8 String :=
  spaced isSpace (andThen (exactly (byte '"')) fun _ => choose decode (content .plain))

/-- The same for a string that is skipped; the number is that of the digits an escape
still needs. -/
def skipContent : Option Nat → Reader UInt8 Unit
  | _, [] => none
  | none, next :: rest =>
      if next = byte '"' then some ((), rest)
      else if next = byte '\\' then
        match rest with
        | [] => none
        | letter :: later =>
            if letter = byte 'u' then skipContent (some 4) later
            else if (unescape letter).isSome then skipContent none later
            else none
      else if next < 32 then none
      else skipContent none rest
  | some digits, next :: rest =>
      if (hexDigit next).isSome then
        skipContent (if digits ≤ 1 then none else some (digits - 1)) rest
      else none

end Texts

section Spelling

/-- The UTF-8 bytes of characters. -/
def encode (chars : List Char) : Bytes := chars.flatMap String.utf8EncodeChar

/-- Some bytes of a string from state to state; none of them closes it. -/
def scan : Scan → Bytes → Option (Scan × Bytes)
  | state, [] => some (state, [])
  | state, next :: rest =>
      if state = .plain ∧ next = byte '"' then none
      else
        (state.step next).bind fun after =>
          (scan after.1 rest).map fun read => (read.1, after.2 ++ read.2)

/-- A spelling of a character, in which it stands for itself or is escaped. -/
def Spells (spelling : Bytes) (char : Char) : Prop :=
  scan .plain spelling = some (.plain, String.utf8EncodeChar char)

theorem decode_encode (chars : List Char) : decode (encode chars) = some (String.ofList chars) := by
  have valid : (encode chars).toByteArray.IsValidUTF8 := ⟨chars, rfl⟩
  rw [decode, String.fromUTF8?, dif_pos valid]
  congr 1

theorem content_scan {state after : Scan} {front back : Bytes}
    (scanned : scan state front = some (after, back)) (rest : Bytes) :
    content state (front ++ rest) =
      (content after rest).map fun read => (back ++ read.1, read.2) := by
  induction front generalizing state back with
  | nil =>
      cases scanned
      simp
  | cons next front ih =>
      rw [scan] at scanned
      by_cases closes : state = .plain ∧ next = byte '"'
      · rw [if_pos closes] at scanned
        cases scanned
      · rw [if_neg closes] at scanned
        obtain ⟨moved, stepped, later⟩ := Option.bind_eq_some_iff.mp scanned
        obtain ⟨inner, read, same⟩ := Option.map_eq_some_iff.mp later
        cases same
        rw [List.cons_append, content, if_neg closes, stepped, Option.bind_some, ih read,
          Option.map_map]
        simp [Function.comp_def]

/-- A string without its closing quote is not read. -/
theorem content_open {state after : Scan} {front back : Bytes}
    (scanned : scan state front = some (after, back)) : content state front = none := by
  have shut : content after [] = none := by cases after <;> rfl
  have read := content_scan scanned []
  rwa [List.append_nil, shut, Option.map_none] at read

theorem scan_append {state middle after : Scan} {front back one two : Bytes}
    (first : scan state front = some (middle, one))
    (second : scan middle back = some (after, two)) :
    scan state (front ++ back) = some (after, one ++ two) := by
  induction front generalizing state one with
  | nil =>
      cases first
      exact second
  | cons next front ih =>
      rw [scan] at first
      by_cases closes : state = .plain ∧ next = byte '"'
      · rw [if_pos closes] at first
        cases first
      · rw [if_neg closes] at first
        obtain ⟨moved, stepped, later⟩ := Option.bind_eq_some_iff.mp first
        obtain ⟨inner, read, same⟩ := Option.map_eq_some_iff.mp later
        obtain ⟨rfl, rfl⟩ := Prod.mk.inj same
        rw [List.cons_append, scan, if_neg closes, stepped, Option.bind_some, ih read]
        simp

/-- What has been scanned has been scanned up to any point of it. -/
theorem scan_front {state after : Scan} {front back whole : Bytes}
    (scanned : scan state (front ++ back) = some (after, whole)) :
    ∃ middle part, scan state front = some (middle, part) := by
  induction front generalizing state whole with
  | nil => exact ⟨state, [], rfl⟩
  | cons next front ih =>
      rw [List.cons_append, scan] at scanned
      by_cases closes : state = .plain ∧ next = byte '"'
      · rw [if_pos closes] at scanned
        cases scanned
      · rw [if_neg closes] at scanned
        obtain ⟨moved, stepped, later⟩ := Option.bind_eq_some_iff.mp scanned
        obtain ⟨inner, read, same⟩ := Option.map_eq_some_iff.mp later
        obtain ⟨rfl, rfl⟩ := Prod.mk.inj same
        obtain ⟨middle, part, early⟩ := ih read
        refine ⟨middle, moved.2 ++ part, ?_⟩
        rw [scan, if_neg closes, stepped, Option.bind_some, early, Option.map_some]

theorem scan_spelled {spell : Char → Bytes} {chars : List Char}
    (spells : ∀ char ∈ chars, Spells (spell char) char) :
    scan .plain (chars.flatMap spell) = some (.plain, encode chars) := by
  induction chars with
  | nil => rfl
  | cons char chars ih =>
      have later := ih fun other listed => spells other (List.mem_cons_of_mem _ listed)
      simpa [encode] using scan_append (spells char (by simp)) later

/-- A string in quotes, its characters spelled out. -/
def quoted (spell : Char → Bytes) (chars : List Char) : Bytes :=
  byte '"' :: (chars.flatMap spell ++ [byte '"'])

variable {spell : Char → Bytes} {chars : List Char}

theorem reads_content (spells : ∀ char ∈ chars, Spells (spell char) char) :
    Reads Anything (content .plain) (chars.flatMap spell ++ [byte '"']) (encode chars) := by
  intro rest _
  rw [List.append_assoc, content_scan (scan_spelled spells)]
  simp [content]

theorem torn_content (spells : ∀ char ∈ chars, Spells (spell char) char) :
    Torn (content .plain) (chars.flatMap spell ++ [byte '"']) := by
  intro front back same remains
  rcases List.append_eq_append_iff.mp same with ⟨middle, shape, split⟩ | ⟨middle, shape, split⟩
  · cases middle with
    | nil =>
        rw [shape, List.append_nil]
        exact content_open (scan_spelled spells)
    | cons first middle =>
        injection split with _ later
        exact absurd (List.nil_eq_append_iff.mp later).2 remains
  · have scanned := scan_spelled spells
    rw [shape] at scanned
    obtain ⟨state, part, early⟩ := scan_front scanned
    exact content_open early

/-- The text of a string reads back to it, and no beginning of it reads at all. -/
theorem reads_text {indent : Bytes} (spaces : ∀ next ∈ indent, isSpace next = true)
    (spells : ∀ char ∈ chars, Spells (spell char) char) :
    Reads Anything text (indent ++ quoted spell chars) (String.ofList chars) := by
  refine Reads.spaced ?_ spaces ⟨byte '"', rfl, rfl⟩
  exact .andThen (reads_exactly _)
    (.choose (reads_content spells) (decode_encode chars)) fun _ _ => trivial

theorem torn_text {indent : Bytes} (spaces : ∀ next ∈ indent, isSpace next = true)
    (spells : ∀ char ∈ chars, Spells (spell char) char) :
    Torn text (indent ++ quoted spell chars) := by
  refine Torn.spaced ?_ spaces ⟨byte '"', rfl, rfl⟩
  exact .andThen (torn_exactly _) (reads_exactly _) (.choose (torn_content spells) decode)

end Spelling

section Sequences

variable {Value : Type*}

/-- The end of a sequenceText, or a comma and more. -/
def afterItem (close : UInt8) (more : Reader UInt8 (List Value)) : Reader UInt8 (List Value)
  | [] => none
  | next :: rest =>
      if next = close then some ([], rest)
      else if next = byte ',' then more rest
      else none

/-- The items after the first. -/
def moreItems (close : UInt8) (item : Nat → Reader UInt8 Value) :
    Nat → Nat → Reader UInt8 (List Value)
  | 0, _ => fun _ => none
  | fuel + 1, index => spaced isSpace (afterItem close
      (andThen (item index) fun value =>
        map (value :: ·) (moreItems close item fuel (index + 1))))

/-- Items with commas between them, up to the closing bracket. The reader of an item may
depend on its place. -/
def items (close : UInt8) (item : Nat → Reader UInt8 Value) : Reader UInt8 (List Value) :=
  fun input =>
    match input.dropWhile isSpace with
    | [] => none
    | next :: rest =>
        if next = close then some ([], rest)
        else
          andThen (item 0) (fun value =>
            map (value :: ·) (moreItems close item input.length 1)) input

def array (item : Nat → Reader UInt8 Value) : Reader UInt8 (List Value) :=
  andThen (spaced isSpace (exactly (byte '['))) fun _ => items (byte ']') item

def object (member : Reader UInt8 Value) : Reader UInt8 (List Value) :=
  andThen (spaced isSpace (exactly (byte '\x7b'))) fun _ => items (byte '\x7d') fun _ => member

/-- A key, and the value that the key says how to read. -/
def member (value : String → Reader UInt8 Value) : Reader UInt8 Value :=
  andThen text fun key => andThen (spaced isSpace (exactly (byte ':'))) fun _ => value key

end Sequences

section Layout

variable {Value : Type*}

/-- An item as it stands in a text, with the spaces up to the next comma or bracket. -/
structure Entry (Value : Type*) where
  text : Bytes
  trail : Bytes
  value : Value

/-- What may follow a value in a sequence. -/
def Delimited (rest : Bytes) : Prop :=
  ∃ next ∈ rest.head?, isSpace next = true ∨ next = byte ',' ∨ next = byte ']' ∨ next = byte '\x7d'

def Closes (close : UInt8) : Prop := close = byte ']' ∨ close = byte '\x7d'

/-- The first symbol of an item that is no space is not the closing bracket. -/
def Starts (close : UInt8) (text : Bytes) : Prop :=
  ∃ next ∈ (text.dropWhile isSpace).head?, next ≠ close

def Entry.Reads (follows : Bytes → Prop) (close : UInt8) (item : Reader UInt8 Value)
    (entry : Entry Value) : Prop :=
  Reading.Reads follows item entry.text entry.value ∧ Starts close entry.text ∧
    ∀ next ∈ entry.trail, isSpace next = true

/-- Every entry is read by the reader for its place. -/
def InPlace (holds : Reader UInt8 Value → Entry Value → Prop) (item : Nat → Reader UInt8 Value) :
    Nat → List (Entry Value) → Prop
  | _, [] => True
  | index, entry :: entries =>
      holds (item index) entry ∧ InPlace holds item (index + 1) entries

/-- What follows an item and its spaces. -/
def moreEntries (close : UInt8) : List (Entry Value) → Bytes
  | [] => [close]
  | entry :: entries => byte ',' :: (entry.text ++ (entry.trail ++ moreEntries close entries))

/-- The text of a sequence after its opening bracket; `blank` stands in an empty one. -/
def sequenceText (close : UInt8) (blank : Bytes) : List (Entry Value) → Bytes
  | [] => blank ++ [close]
  | entry :: entries => entry.text ++ (entry.trail ++ moreEntries close entries)

theorem InPlace.imp {holds further : Reader UInt8 Value → Entry Value → Prop}
    {item : Nat → Reader UInt8 Value} {index : Nat} {entries : List (Entry Value)}
    (inPlace : InPlace holds item index entries)
    (implies : ∀ reader entry, holds reader entry → further reader entry) :
    InPlace further item index entries := by
  induction entries generalizing index with
  | nil => trivial
  | cons entry entries ih => exact ⟨implies _ _ inPlace.1, ih inPlace.2⟩

theorem in_place_everywhere {holds : Reader UInt8 Value → Entry Value → Prop}
    {item : Reader UInt8 Value} {index : Nat} {entries : List (Entry Value)}
    (each : ∀ entry ∈ entries, holds item entry) :
    InPlace holds (fun _ => item) index entries := by
  induction entries generalizing index with
  | nil => trivial
  | cons entry entries ih =>
      exact ⟨each entry (by simp), ih fun other listed =>
        each other (List.mem_cons_of_mem _ listed)⟩

variable {close : UInt8} {item : Nat → Reader UInt8 Value} {index fuel : Nat} {trail blank : Bytes}
  {entries : List (Entry Value)}

theorem Closes.solid (closes : Closes close) : isSpace close = false := by
  rcases closes with rfl | rfl <;> rfl

theorem Closes.ne_comma (closes : Closes close) : byte ',' ≠ close := by
  rcases closes with rfl | rfl <;> decide

theorem Closes.delimits (closes : Closes close) (rest : Bytes) : Delimited (close :: rest) := by
  refine ⟨close, rfl, ?_⟩
  rcases closes with rfl | rfl <;> simp

theorem more_entries_delimited (closes : Closes close)
    (spaces : ∀ next ∈ trail, isSpace next = true) (rest : Bytes) :
    Delimited (trail ++ moreEntries close entries ++ rest) := by
  cases trail with
  | cons next trail => exact ⟨next, rfl, .inl (spaces next (by simp))⟩
  | nil =>
      cases entries with
      | nil => exact closes.delimits rest
      | cons entry entries => exact ⟨byte ',', rfl, .inr (.inl rfl)⟩

/-- The induction is on the items; each of them takes one unit of fuel. -/
theorem reads_more_items (closes : Closes close)
    (inPlace : InPlace (Entry.Reads Delimited close) item index entries)
    (spaces : ∀ next ∈ trail, isSpace next = true) (enough : entries.length < fuel) :
    Reads Anything (moreItems close item fuel index) (trail ++ moreEntries close entries)
      (entries.map Entry.value) := by
  induction entries generalizing fuel index trail with
  | nil =>
      cases fuel with
      | zero => exact absurd enough (Nat.not_lt_zero _)
      | succ fuel =>
          refine Reads.spaced ?_ spaces ⟨close, rfl, closes.solid⟩
          intro rest _
          simp [moreEntries, afterItem]
  | cons entry entries ih =>
      cases fuel with
      | zero => exact absurd enough (Nat.not_lt_zero _)
      | succ fuel =>
          obtain ⟨⟨reads, _, trails⟩, later⟩ := inPlace
          refine Reads.spaced ?_ spaces ⟨byte ',', rfl, rfl⟩
          have more : Reads Anything (andThen (item index) fun value =>
              map (value :: ·) (moreItems close item fuel (index + 1)))
              (entry.text ++ (entry.trail ++ moreEntries close entries))
              (entry.value :: entries.map Entry.value) :=
            .andThen reads ((ih later trails (Nat.lt_of_succ_lt_succ enough)).map _)
              fun rest _ => more_entries_delimited closes trails rest
          intro rest _
          rw [moreEntries, List.cons_append, afterItem, if_neg closes.ne_comma, if_pos rfl]
          exact more rest trivial

theorem more_entries_length (entries : List (Entry Value)) :
    entries.length < (moreEntries close entries).length := by
  induction entries with
  | nil => simp [moreEntries]
  | cons entry entries ih =>
      simp only [moreEntries, List.length_cons, List.length_append]
      omega

theorem sequence_ne_nil (entries : List (Entry Value)) : sequenceText close blank entries ≠ [] := by
  intro empty
  have length := congrArg List.length empty
  cases entries with
  | nil => simp [sequenceText] at length
  | cons entry entries =>
      have longer : entries.length < (moreEntries close entries).length :=
        more_entries_length entries
      simp only [sequenceText, List.length_append, List.length_nil] at length
      omega

theorem starts_drop {text : Bytes} (starts : Starts close text) (rest : Bytes) :
    ∃ next later, (text ++ rest).dropWhile isSpace = next :: later ∧ next ≠ close := by
  obtain ⟨next, first, differs⟩ := starts
  rw [List.dropWhile_append]
  cases solid : text.dropWhile isSpace with
  | nil =>
      rw [solid] at first
      cases first
  | cons head later =>
      rw [solid] at first
      cases first
      exact ⟨next, later ++ rest, rfl, differs⟩

theorem reads_items (closes : Closes close)
    (inPlace : InPlace (Entry.Reads Delimited close) item 0 entries)
    (spaces : ∀ next ∈ blank, isSpace next = true) :
    Reads Anything (items close item) (sequenceText close blank entries)
      (entries.map Entry.value) := by
  intro rest _
  cases entries with
  | nil =>
      rw [items, sequenceText, List.append_assoc, dropWhile_spaces spaces]
      · simp
      · intro next found
        cases found
        exact closes.solid
  | cons entry entries =>
      obtain ⟨⟨reads, starts, trails⟩, later⟩ := inPlace
      obtain ⟨next, after, drops, differs⟩ :=
        starts_drop starts (entry.trail ++ moreEntries close entries ++ rest)
      have more : Reads Anything (andThen (item 0) fun value => map (value :: ·)
          (moreItems close item (sequenceText close blank (entry :: entries) ++ rest).length 1))
          (sequenceText close blank (entry :: entries))
          (entry.value :: entries.map Entry.value) := by
        refine .andThen reads (Reads.map (reads_more_items closes later trails ?_) _)
          fun rest _ => more_entries_delimited closes trails rest
        have longer : entries.length < (moreEntries close entries).length :=
          more_entries_length entries
        simp only [sequenceText, List.length_append]
        omega
      have whole := more rest trivial
      rw [sequenceText, List.append_assoc] at whole
      rw [items, sequenceText, List.append_assoc, drops]
      simp only [if_neg differs]
      exact whole

/-- An item that may stand anywhere and that no beginning of it can stand for. -/
def Entry.Whole (close : UInt8) (item : Reader UInt8 Value) (entry : Entry Value) : Prop :=
  entry.Reads Anything close item ∧ Torn item entry.text

theorem Entry.Whole.reads {reader : Reader UInt8 Value} {entry : Entry Value}
    (whole : entry.Whole close reader) : entry.Reads Delimited close reader :=
  ⟨whole.1.1.weaken fun _ _ => trivial, whole.1.2⟩

theorem torn_more_items (closes : Closes close)
    (inPlace : InPlace (Entry.Whole close) item index entries)
    (spaces : ∀ next ∈ trail, isSpace next = true) :
    Torn (moreItems close item fuel index) (trail ++ moreEntries close entries) := by
  induction entries generalizing fuel index trail with
  | nil =>
      cases fuel with
      | zero => exact fun _ _ _ _ => rfl
      | succ fuel =>
          refine Torn.spaced ?_ spaces ⟨close, rfl, closes.solid⟩
          intro front back same remains
          cases front with
          | nil => rfl
          | cons first rest =>
              injection same with _ later
              exact absurd (List.nil_eq_append_iff.mp later).2 remains
  | cons entry entries ih =>
      cases fuel with
      | zero => exact fun _ _ _ _ => rfl
      | succ fuel =>
          obtain ⟨⟨⟨reads, _, trails⟩, torn⟩, later⟩ := inPlace
          refine Torn.spaced ?_ spaces ⟨byte ',', rfl, rfl⟩
          intro front back same remains
          cases front with
          | nil => rfl
          | cons first rest =>
              injection same with comma shape
              subst comma
              rw [afterItem, if_neg closes.ne_comma, if_pos rfl]
              exact torn.andThen reads ((ih later trails).map _) rest back shape remains

theorem torn_items (closes : Closes close)
    (inPlace : InPlace (Entry.Whole close) item 0 entries)
    (spaces : ∀ next ∈ blank, isSpace next = true) :
    Torn (items close item) (sequenceText close blank entries) := by
  intro front back same remains
  rw [items]
  cases drops : front.dropWhile isSpace with
  | nil => rfl
  | cons next after =>
      cases entries with
      | nil =>
          have inside : ∀ other ∈ front, isSpace other = true := by
            rcases List.append_eq_append_iff.mp same with
              ⟨middle, shape, split⟩ | ⟨middle, shape, split⟩
            · cases middle with
              | nil =>
                  rw [shape, List.append_nil]
                  exact spaces
              | cons first middle =>
                  injection split with _ later
                  exact absurd (List.nil_eq_append_iff.mp later).2 remains
            · exact fun other listed => spaces other (shape ▸ List.mem_append_left _ listed)
          rw [← List.append_nil front, dropWhile_spaces inside (by simp)] at drops
          cases drops
      | cons entry entries =>
          obtain ⟨⟨⟨reads, starts, trails⟩, torn⟩, later⟩ := inPlace
          obtain ⟨solid, after', first, differs⟩ :=
            starts_drop starts (entry.trail ++ moreEntries close entries)
          have agrees : next = solid := by
            have whole := first
            rw [sequenceText] at same
            rw [same, List.dropWhile_append, drops] at whole
            exact (List.cons.inj whole).1
          simp only [if_neg (agrees ▸ differs)]
          exact torn.andThen reads ((torn_more_items closes later trails).map _) front back same
            remains

end Layout

section Values

variable {Value : Type*} {follows : Bytes → Prop}

theorem reads_symbol {symbol : UInt8} {indent : Bytes} (solid : isSpace symbol = false)
    (spaces : ∀ next ∈ indent, isSpace next = true) :
    Reads Anything (spaced isSpace (exactly symbol)) (indent ++ [symbol]) () :=
  (reads_exactly symbol).spaced spaces ⟨symbol, rfl, solid⟩

theorem torn_symbol {symbol : UInt8} {indent : Bytes} (solid : isSpace symbol = false)
    (spaces : ∀ next ∈ indent, isSpace next = true) :
    Torn (spaced isSpace (exactly symbol)) (indent ++ [symbol]) :=
  (torn_exactly symbol).spaced spaces ⟨symbol, rfl, solid⟩

variable {indent blank : Bytes} {entries : List (Entry Value)}

theorem reads_array {item : Nat → Reader UInt8 Value}
    (inPlace : InPlace (Entry.Reads Delimited (byte ']')) item 0 entries)
    (before : ∀ next ∈ indent, isSpace next = true)
    (spaces : ∀ next ∈ blank, isSpace next = true) :
    Reads Anything (array item) (indent ++ [byte '['] ++ sequenceText (byte ']') blank entries)
      (entries.map Entry.value) :=
  (reads_symbol rfl before).andThen (reads_items (.inl rfl) inPlace spaces) fun _ _ => trivial

theorem torn_array {item : Nat → Reader UInt8 Value}
    (inPlace : InPlace (Entry.Whole (byte ']')) item 0 entries)
    (before : ∀ next ∈ indent, isSpace next = true)
    (spaces : ∀ next ∈ blank, isSpace next = true) :
    Torn (array item) (indent ++ [byte '['] ++ sequenceText (byte ']') blank entries) :=
  (torn_symbol rfl before).andThen (reads_symbol rfl before)
    (torn_items (.inl rfl) inPlace spaces)

theorem reads_object {member : Reader UInt8 Value}
    (each : ∀ entry ∈ entries, entry.Reads Delimited (byte '\x7d') member)
    (before : ∀ next ∈ indent, isSpace next = true)
    (spaces : ∀ next ∈ blank, isSpace next = true) :
    Reads Anything (object member)
      (indent ++ [byte '\x7b'] ++ sequenceText (byte '\x7d') blank entries)
      (entries.map Entry.value) :=
  (reads_symbol rfl before).andThen
    (reads_items (.inr rfl) (in_place_everywhere each) spaces) fun _ _ => trivial

theorem torn_object {member : Reader UInt8 Value}
    (each : ∀ entry ∈ entries, entry.Whole (byte '\x7d') member)
    (before : ∀ next ∈ indent, isSpace next = true)
    (spaces : ∀ next ∈ blank, isSpace next = true) :
    Torn (object member) (indent ++ [byte '\x7b'] ++ sequenceText (byte '\x7d') blank entries) :=
  (torn_symbol rfl before).andThen (reads_symbol rfl before)
    (torn_items (.inr rfl) (in_place_everywhere each) spaces)

variable {value : String → Reader UInt8 Value} {key colon back : Bytes} {name : String}
  {read : Value}

theorem reads_member (keyed : Reads Anything text key name)
    (spaces : ∀ next ∈ colon, isSpace next = true) (reads : Reads follows (value name) back read) :
    Reads follows (member value) (key ++ (colon ++ [byte ':'] ++ back)) read :=
  keyed.andThen ((reads_symbol rfl spaces).andThen reads fun _ _ => trivial) fun _ _ => trivial

theorem torn_member (keyed : Reads Anything text key name) (kept : Torn text key)
    (spaces : ∀ next ∈ colon, isSpace next = true) (torn : Torn (value name) back) :
    Torn (member value) (key ++ (colon ++ [byte ':'] ++ back)) :=
  kept.andThen keyed ((torn_symbol rfl spaces).andThen (reads_symbol rfl spaces) torn)

/-- Items each on an indented line of its own, and the closing bracket on the last. -/
def indented (indent last : Bytes) : List (Bytes × Value) → List (Entry Value)
  | [] => []
  | [item] => [⟨indent ++ item.1, last, item.2⟩]
  | item :: next :: more => ⟨indent ++ item.1, [], item.2⟩ :: indented indent last (next :: more)

theorem indented_values (indent last : Bytes) (lines : List (Bytes × Value)) :
    (indented indent last lines).map Entry.value = lines.map Prod.snd := by
  fun_induction indented indent last lines with
  | case1 => rfl
  | case2 item => rfl
  | case3 item next more ih => exact congrArg (item.2 :: ·) ih

theorem sequence_indented {close : UInt8} (last : Bytes) (item next : Bytes × Value)
    (more : List (Bytes × Value)) :
    sequenceText close blank (indented indent last (item :: next :: more)) =
      indent ++ (item.1 ++
        byte ',' :: sequenceText close blank (indented indent last (next :: more))) := by
  cases more <;> simp [indented, sequenceText, moreEntries]

theorem starts_indented {close symbol : UInt8} {rest : Bytes}
    (spaces : ∀ next ∈ indent, isSpace next = true) (solid : isSpace symbol = false)
    (differs : symbol ≠ close) : Starts close (indent ++ symbol :: rest) := by
  refine ⟨symbol, ?_, differs⟩
  rw [dropWhile_spaces spaces (by simp [solid])]
  rfl

theorem indented_whole {close : UInt8} {reader : Reader UInt8 Value} {last : Bytes}
    {lines : List (Bytes × Value)} (spaces : ∀ next ∈ last, isSpace next = true)
    (each : ∀ line ∈ lines, Reads Anything reader (indent ++ line.1) line.2 ∧
      Starts close (indent ++ line.1) ∧ Torn reader (indent ++ line.1)) :
    ∀ entry ∈ indented indent last lines, entry.Whole close reader := by
  fun_induction indented indent last lines with
  | case1 => simp
  | case2 item =>
      obtain ⟨reads, starts, torn⟩ := each item (by simp)
      rw [List.forall_mem_singleton]
      exact ⟨⟨reads, starts, spaces⟩, torn⟩
  | case3 item next more ih =>
      obtain ⟨reads, starts, torn⟩ := each item (by simp)
      have later := ih fun line listed => each line (List.mem_cons_of_mem _ listed)
      rw [List.forall_mem_cons]
      exact ⟨⟨⟨reads, starts, by simp⟩, torn⟩, later⟩

end Values

section Skipped

def skipDigits : Reader UInt8 Unit
  | [] => none
  | next :: rest => if isDigit next then some ((), rest.dropWhile isDigit) else none

def skipExponent : Reader UInt8 Unit
  | [] => some ((), [])
  | next :: rest =>
      if next = byte 'e' ∨ next = byte 'E' then
        match rest with
        | [] => none
        | sign :: later =>
            if sign = byte '+' ∨ sign = byte '-' then skipDigits later else skipDigits rest
      else some ((), next :: rest)

def skipFraction : Reader UInt8 Unit
  | [] => some ((), [])
  | next :: rest =>
      if next = byte '.' then andThen skipDigits (fun _ => skipExponent) rest
      else skipExponent (next :: rest)

/-- A number without its sign: it does not start with a zero that a digit follows. -/
def skipNumber : Reader UInt8 Unit
  | [] => none
  | next :: rest =>
      if next = byte '0' then
        match rest with
        | [] => some ((), [])
        | later :: _ => if isDigit later then none else skipFraction rest
      else if isDigit next then skipFraction (rest.dropWhile isDigit)
      else none

def skipWord : List UInt8 → Reader UInt8 Unit
  | [] => fun input => some ((), input)
  | letter :: word => andThen (exactly letter) fun _ => skipWord word

/-- A value of any kind. -/
def skipValue : Nat → Reader UInt8 Unit
  | 0, _ => none
  | fuel + 1, input =>
      match input.dropWhile isSpace with
      | [] => none
      | next :: rest =>
          if next = byte 'n' then skipWord ("ull".toList.map byte) rest
          else if next = byte 't' then skipWord ("rue".toList.map byte) rest
          else if next = byte 'f' then skipWord ("alse".toList.map byte) rest
          else if next = byte '-' then skipNumber rest
          else if next = byte '"' then skipContent none rest
          else if next = byte '[' then
            map (fun _ => ()) (items (byte ']') fun _ => skipValue fuel) rest
          else if next = byte '\x7b' then
            map (fun _ => ()) (items (byte '\x7d') fun _ => andThen
              (spaced isSpace (andThen (exactly (byte '"')) fun _ => skipContent none)) fun _ =>
                andThen (spaced isSpace (exactly (byte ':'))) fun _ => skipValue fuel) rest
          else skipNumber (next :: rest)

def skip : Reader UInt8 Unit := fun input => skipValue input.length input

end Skipped

end NodeOs.Library.Json
