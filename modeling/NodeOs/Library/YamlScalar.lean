import Mathlib.Data.List.TakeWhile
import Mathlib.Tactic.Common

/-!
# Plain YAML scalars on one line

The characters and the resolution rules are those of YAML 1.2 with the core
schema. `scanPlain` reads a plain scalar up to a comment or the end of the line;
`scan_plain_eq_self` says which texts it reads back unchanged.
-/

namespace NodeOs.Library.YamlScalar

def isBreak (char : Char) : Bool := char = '\n' || char = '\r'

def isWhite (char : Char) : Bool := char = ' ' || char = '\t'

/-- `c-printable`. -/
def isPrintable (char : Char) : Bool :=
  let code := char.toNat
  code = 0x9 || code = 0xA || code = 0xD || code = 0x85 ||
    (0x20 ≤ code && code ≤ 0x7E) || (0xA0 ≤ code && code ≤ 0xD7FF) ||
    (0xE000 ≤ code && code ≤ 0xFFFD) || (0x10000 ≤ code && code ≤ 0x10FFFF)

/-- `ns-char`: printable, and neither a line break, white space nor a byte order
mark. -/
def isPlainChar (char : Char) : Bool :=
  isPrintable char && !isBreak char && !isWhite char && char.toNat != 0xFEFF

def indicators : List Char :=
  ['-', '?', ':', ',', '[', ']', '{', '}', '#', '&', '*', '!', '|', '>', '\'', '"', '%', '@',
    Char.ofNat 0x60]

/-- `ns-plain-first`: three of the indicators may open a plain scalar when a
plain character follows. -/
def startsPlain : List Char → Bool
  | [] => false
  | [char] => isPlainChar char && !indicators.contains char
  | char :: next :: _ =>
      isPlainChar char &&
        (!indicators.contains char || (['-', '?', ':'].contains char && isPlainChar next))

/-- Read the body of a plain scalar. White space before a comment or the end of
the line is dropped; a colon before white space or the end of the line would
start a mapping, so the text is no scalar. -/
def scanPlain : List Char → Option (List Char)
  | [] => some []
  | [char] =>
      if isWhite char then some []
      else if char = ':' then none
      else if isPlainChar char then some [char] else none
  | char :: next :: rest =>
      if isWhite char then
        if next = '#' then some []
        else (scanPlain (next :: rest)).map fun body => if body = [] then [] else char :: body
      else if char = ':' ∧ isWhite next then none
      else if isPlainChar char then (scanPlain (next :: rest)).map (char :: ·)
      else none

def plainScalar (text : List Char) : Option (List Char) :=
  if startsPlain text then scanPlain text else none

/-- The texts without an indicator, a comment or white space that would be
lost. -/
def isPlainTail : List Char → Bool
  | [] => true
  | [char] => isPlainChar char && char != ':'
  | char :: next :: rest =>
      (isPlainChar char || (isWhite char && next != '#')) &&
        (char != ':' || !isWhite next) && isPlainTail (next :: rest)

inductive Scalar where
  | null
  | bool (value : Bool)
  | number (text : List Char)
  | str (text : List Char)
  deriving DecidableEq, Repr

def isDigits (text : List Char) : Bool := !text.isEmpty && text.all Char.isDigit

def dropSign : List Char → List Char
  | '+' :: rest => rest
  | '-' :: rest => rest
  | text => text

def isInt (text : List Char) : Bool :=
  isDigits (dropSign text) ||
    match text with
    | '0' :: 'o' :: digits => !digits.isEmpty && digits.all fun char => '0' ≤ char && char ≤ '7'
    | '0' :: 'x' :: digits => !digits.isEmpty && digits.all fun char =>
        char.isDigit || ('a' ≤ char && char ≤ 'f') || ('A' ≤ char && char ≤ 'F')
    | _ => false

def isExponent : List Char → Bool
  | [] => true
  | 'e' :: rest => isDigits (dropSign rest)
  | 'E' :: rest => isDigits (dropSign rest)
  | _ => false

def isFloat (text : List Char) : Bool :=
  let unsigned := dropSign text
  let whole := unsigned.takeWhile Char.isDigit
  match unsigned.dropWhile Char.isDigit with
  | '.' :: rest =>
      ((!whole.isEmpty || (rest.head?.any Char.isDigit)) &&
        isExponent (rest.dropWhile Char.isDigit))
        || (whole.isEmpty && ["inf".toList, "Inf".toList, "INF".toList].contains rest)
        || [".nan".toList, ".NaN".toList, ".NAN".toList].contains text
  | rest => !whole.isEmpty && isExponent rest

/-- The core schema: a plain scalar is a string unless it looks like something
else. -/
def resolve (text : List Char) : Scalar :=
  if ["".toList, "~".toList, "null".toList, "Null".toList, "NULL".toList].contains text then .null
  else if ["true".toList, "True".toList, "TRUE".toList].contains text then .bool true
  else if ["false".toList, "False".toList, "FALSE".toList].contains text then .bool false
  else if isInt text || isFloat text then .number text
  else .str text

theorem plain_char_not_white {char : Char} (plain : isPlainChar char = true) :
    isWhite char = false := by
  simp only [isPlainChar, Bool.and_eq_true, Bool.not_eq_true'] at plain
  exact plain.1.2

theorem plain_char_not_break {char : Char} (plain : isPlainChar char = true) :
    isBreak char = false := by
  simp only [isPlainChar, Bool.and_eq_true, Bool.not_eq_true'] at plain
  exact plain.1.1.2

theorem white_not_plain_char {char : Char} (white : isWhite char = true) :
    isPlainChar char = false := by
  cases plain : isPlainChar char with
  | false => rfl
  | true => simp [plain_char_not_white plain] at white

theorem scan_plain_cons_white {char next : Char} {rest : List Char} (white : isWhite char = true)
    (noComment : next ≠ '#') :
    scanPlain (char :: next :: rest) = some (char :: next :: rest) ↔
      scanPlain (next :: rest) = some (next :: rest) := by
  simp only [scanPlain, white, noComment, if_true, if_false, Option.map_eq_some_iff]
  constructor
  · rintro ⟨body, scanned, same⟩
    split at same
    · simp at same
    · rw [scanned, List.tail_eq_of_cons_eq same]
  · intro scanned
    exact ⟨next :: rest, scanned, by simp⟩

theorem scan_plain_cons_plain {char next : Char} {rest : List Char}
    (plain : isPlainChar char = true) (noColon : ¬(char = ':' ∧ isWhite next = true)) :
    scanPlain (char :: next :: rest) = some (char :: next :: rest) ↔
      scanPlain (next :: rest) = some (next :: rest) := by
  simp [scanPlain, plain_char_not_white plain, noColon, plain]

/-- A text is read back unchanged exactly when nothing in it ends a scalar. -/
theorem scan_plain_eq_self : ∀ text : List Char,
    scanPlain text = some text ↔ isPlainTail text = true
  | [] => by simp [scanPlain, isPlainTail]
  | [char] => by
      simp only [scanPlain, isPlainTail]
      by_cases white : isWhite char = true
      · simp [white, white_not_plain_char white]
      · by_cases colon : char = ':' <;> simp [white, colon]
  | char :: next :: rest => by
      have ih := scan_plain_eq_self (next :: rest)
      by_cases white : isWhite char = true
      · by_cases comment : next = '#'
        · simp [scanPlain, isPlainTail, white, comment, white_not_plain_char white]
        · have notColon : char ≠ ':' := by rintro rfl; simp [isWhite] at white
          rw [scan_plain_cons_white white comment, ih]
          simp [isPlainTail, white, comment, notColon]
      · by_cases colon : char = ':' ∧ isWhite next = true
        · obtain ⟨rfl, gap⟩ := colon
          simp [scanPlain, isPlainTail, white, gap]
        · by_cases plain : isPlainChar char = true
          · rw [scan_plain_cons_plain plain colon, ih]
            have kept : (char != ':' || !isWhite next) = true := by
              by_cases same : char = ':'
              · simpa [same] using colon
              · simp [same]
            simp [isPlainTail, plain, kept]
          · simp [scanPlain, isPlainTail, white, colon, plain]

/-- A prefix of plain characters can be left out, as long as it does not end in
a colon. -/
theorem is_plain_tail_append (front : List Char) (last : Char) (back : List Char)
    (plain : ∀ char ∈ front, isPlainChar char = true) (lastPlain : isPlainChar last = true)
    (noColon : last ≠ ':') : isPlainTail (front ++ last :: back) = isPlainTail back := by
  induction front with
  | nil => cases back <;> simp [isPlainTail, lastPlain, noColon]
  | cons char front ih =>
      have charPlain := plain char (by simp)
      have tail := ih (fun other member => plain other (List.mem_cons_of_mem _ member))
      cases joined : front ++ last :: back with
      | nil => simp at joined
      | cons next rest =>
          have nextPlain : isPlainChar next = true := by
            cases front with
            | nil => cases joined; exact lastPlain
            | cons other front => cases joined; exact plain _ (by simp)
          rw [joined] at tail
          simp [isPlainTail, joined, charPlain, plain_char_not_white nextPlain, tail]

theorem plain_tail_no_break : ∀ {text : List Char}, isPlainTail text = true →
    ∀ char ∈ text, isBreak char = false
  | [], _ => by simp
  | [char], tail => by
      simp only [isPlainTail, Bool.and_eq_true] at tail
      simpa using plain_char_not_break tail.1
  | char :: next :: rest, tail => by
      simp only [isPlainTail, Bool.and_eq_true, Bool.or_eq_true] at tail
      intro other member
      rcases List.mem_cons.mp member with rfl | later
      · rcases tail.1.1 with plain | ⟨white, -⟩
        · exact plain_char_not_break plain
        · rcases (by simpa [isWhite] using white : other = ' ' ∨ other = '\t')
            with rfl | rfl <;> rfl
      · exact plain_tail_no_break tail.2 other later

theorem plain_char_of_range {char : Char} (low : 0x21 ≤ char.toNat) (high : char.toNat ≤ 0x7E) :
    isPlainChar char = true := by
  have notBreak : isBreak char = false := by
    refine Bool.eq_false_iff.mpr fun broken => ?_
    rcases (by simpa [isBreak] using broken : char = '\n' ∨ char = '\r') with rfl | rfl <;>
      simp at low
  have notWhite : isWhite char = false := by
    refine Bool.eq_false_iff.mpr fun white => ?_
    rcases (by simpa [isWhite] using white : char = ' ' ∨ char = '\t') with rfl | rfl <;>
      simp at low
  have printable : isPrintable char = true := by
    have lower : 0x20 ≤ char.toNat := by omega
    simp [isPrintable, lower, high]
  have noMark : char.toNat ≠ 0xFEFF := by omega
  simp [isPlainChar, printable, notBreak, notWhite, noMark]

theorem is_plain_tail_of_chars {text : List Char}
    (plain : ∀ char ∈ text, isPlainChar char = true ∧ char ≠ ':') : isPlainTail text = true := by
  induction text with
  | nil => rfl
  | cons char rest ih =>
      obtain ⟨good, noColon⟩ := plain char (by simp)
      have tail := ih fun other member => plain other (List.mem_cons_of_mem _ member)
      cases rest with
      | nil => simp [isPlainTail, good, noColon]
      | cons next rest => simp [isPlainTail, good, noColon, tail]

/-- Plain characters, with colons anywhere but at the end. -/
theorem is_plain_tail_of_plain {text : List Char} (plain : ∀ char ∈ text, isPlainChar char = true)
    (noColon : text.getLast? ≠ some ':') : isPlainTail text = true := by
  induction text with
  | nil => rfl
  | cons char rest ih =>
      have good := plain char (by simp)
      cases rest with
      | nil =>
          have last : char ≠ ':' := by simpa using noColon
          simp [isPlainTail, good, last]
      | cons next rest =>
          have tail := ih (fun other member => plain other (List.mem_cons_of_mem _ member))
            (by simpa using noColon)
          have gap := plain_char_not_white (plain next (by simp))
          simp [isPlainTail, good, tail, gap]

theorem starts_plain_of_first {first : Char} {rest : List Char}
    (plain : isPlainChar first = true) (letter : indicators.contains first = false) :
    startsPlain (first :: rest) = true := by
  cases rest <;> simp only [startsPlain, plain, letter, Bool.not_false, Bool.true_or, Bool.and_self]

theorem mem_drop_sign {mark : Char} {text : List Char} (noSign : mark ≠ '+' ∧ mark ≠ '-')
    (inside : mark ∈ text) : mark ∈ dropSign text := by
  unfold dropSign
  split
  · simpa [noSign.1] using inside
  · simpa [noSign.2] using inside
  · exact inside

section Marks

variable {mark : Char} {text : List Char}

/-- A full stop or a colon is in no integer and no exponent. -/
theorem is_digits_with_mark (separator : mark = '.' ∨ mark = ':') (inside : mark ∈ text) :
    isDigits (dropSign text) = false := by
  have kept : mark ∈ dropSign text := by
    apply mem_drop_sign _ inside
    rcases separator with rfl | rfl <;> decide
  simp only [isDigits, Bool.and_eq_false_iff]
  refine Or.inr (Bool.eq_false_iff.mpr fun digits => ?_)
  have digit := List.all_eq_true.mp digits mark kept
  rcases separator with rfl | rfl <;> exact absurd digit (by decide)

theorem is_exponent_with_mark (separator : mark = '.' ∨ mark = ':') (inside : mark ∈ text) :
    isExponent text = false := by
  unfold isExponent
  split
  · simp at inside
  · apply is_digits_with_mark separator
    rcases separator with rfl | rfl <;> simpa using inside
  · apply is_digits_with_mark separator
    rcases separator with rfl | rfl <;> simpa using inside
  · rfl

theorem is_int_with_mark (separator : mark = '.' ∨ mark = ':') (inside : mark ∈ text) :
    isInt text = false := by
  simp only [isInt, is_digits_with_mark separator inside, Bool.false_or]
  split
  · refine Bool.and_eq_false_iff.mpr (Or.inr (Bool.eq_false_iff.mpr fun digits => ?_))
    rcases separator with rfl | rfl <;>
      exact absurd (List.all_eq_true.mp digits _ (by simpa using inside)) (by decide)
  · refine Bool.and_eq_false_iff.mpr (Or.inr (Bool.eq_false_iff.mpr fun digits => ?_))
    rcases separator with rfl | rfl <;>
      exact absurd (List.all_eq_true.mp digits _ (by simpa using inside)) (by decide)
  · rfl

end Marks

theorem drop_sign_of_digitless {first : Char} {rest : List Char} (noPlus : first ≠ '+')
    (noMinus : first ≠ '-') : dropSign (first :: rest) = first :: rest := by
  simp [dropSign, noPlus, noMinus]

/-- With something other than a sign before its first full stop, a text is a
float exactly when that is a run of digits and the rest ends in an exponent. -/
theorem is_float_with_stop {first : Char} {whole rest : List Char} (noPlus : first ≠ '+')
    (noMinus : first ≠ '-') (noStop : '.' ∉ first :: whole) :
    isFloat (first :: whole ++ '.' :: rest) =
      ((first :: whole).all Char.isDigit && isExponent (rest.dropWhile Char.isDigit)) := by
  have unsigned : dropSign (first :: whole ++ '.' :: rest) = first :: whole ++ '.' :: rest :=
    drop_sign_of_digitless noPlus noMinus
  by_cases digits : ∀ char ∈ first :: whole, char.isDigit = true
  · have taken : (first :: whole ++ '.' :: rest).takeWhile Char.isDigit = first :: whole := by
      rw [List.takeWhile_append_of_pos digits, List.takeWhile_cons_of_neg (by decide),
        List.append_nil]
    have dropped : (first :: whole ++ '.' :: rest).dropWhile Char.isDigit = '.' :: rest := by
      rw [List.dropWhile_append_of_pos digits, List.dropWhile_cons_of_neg (by decide)]
    have noName : [".nan".toList, ".NaN".toList, ".NAN".toList].contains
        (first :: whole ++ '.' :: rest) = false := by
      have notStop : first ≠ '.' := fun same => noStop (by simp [same])
      simp [notStop]
    have all : (first :: whole).all Char.isDigit = true := List.all_eq_true.mpr digits
    simp only [isFloat, unsigned, taken, dropped, noName, all]
    simp
  · have all : (first :: whole).all Char.isDigit = false :=
      Bool.eq_false_iff.mpr fun good => digits (List.all_eq_true.mp good)
    -- The run of digits ends at a character that is no digit and no full stop.
    obtain ⟨last, others, dropped⟩ : ∃ last others,
        (first :: whole).dropWhile Char.isDigit = last :: others := by
      apply List.exists_cons_of_ne_nil
      intro empty
      exact digits (List.dropWhile_eq_nil_iff.mp empty)
    have notStop : last ≠ '.' := by
      rintro rfl
      exact noStop ((List.dropWhile_sublist _).subset (by rw [dropped]; simp))
    have joined : (first :: whole ++ '.' :: rest).dropWhile Char.isDigit =
        last :: (others ++ '.' :: rest) := by
      rw [List.dropWhile_append, dropped]
      rfl
    have noExponent : isExponent (last :: (others ++ '.' :: rest)) = false :=
      is_exponent_with_mark (Or.inl rfl) (by simp)
    simp only [isFloat, unsigned, joined, all, Bool.false_and]
    split
    · rename_i same
      exact absurd (List.head_eq_of_cons_eq same) notStop
    · rw [noExponent, Bool.and_false]

/-- A text with a character that none of the words holds is no such word. -/
theorem contains_without_mark {mark : Char} {words : List (List Char)} {text : List Char}
    (clean : words.all (fun other => !other.contains mark) = true) (inside : mark ∈ text) :
    words.contains text = false := by
  refine Bool.eq_false_iff.mpr fun member => ?_
  have without := List.all_eq_true.mp clean text (by simpa using member)
  simp [inside] at without

/-- A text with a full stop can only be a string or a float. -/
theorem resolve_with_stop {text : List Char} (stop : '.' ∈ text) :
    resolve text = if isFloat text then .number text else .str text := by
  simp only [resolve, is_int_with_mark (Or.inl rfl) stop, Bool.false_or]
  rw [contains_without_mark (by decide) stop, contains_without_mark (by decide) stop,
    contains_without_mark (by decide) stop]
  rfl

/-- The words and numbers that the core schema does not read as strings. -/
def readsAsOther (text : List Char) : Bool :=
  ["".toList, "~".toList, "null".toList, "Null".toList, "NULL".toList].contains text ||
    ["true".toList, "True".toList, "TRUE".toList].contains text ||
    ["false".toList, "False".toList, "FALSE".toList].contains text ||
    (isInt text || isFloat text)

theorem resolve_str_iff (text : List Char) :
    resolve text = .str text ↔ readsAsOther text = false := by
  unfold resolve readsAsOther
  constructor
  · intro read
    split at read
    · cases read
    split at read
    · cases read
    split at read
    · cases read
    split at read
    · cases read
    · rename_i noNull noTrue noFalse noNumber
      rw [Bool.or_eq_false_iff, Bool.or_eq_false_iff, Bool.or_eq_false_iff]
      exact ⟨⟨⟨Bool.eq_false_iff.mpr noNull, Bool.eq_false_iff.mpr noTrue⟩,
        Bool.eq_false_iff.mpr noFalse⟩, Bool.eq_false_iff.mpr noNumber⟩
  · intro clean
    obtain ⟨words, noNumber⟩ := Bool.or_eq_false_iff.mp clean
    obtain ⟨words, noFalse⟩ := Bool.or_eq_false_iff.mp words
    obtain ⟨noNull, noTrue⟩ := Bool.or_eq_false_iff.mp words
    rw [if_neg (Bool.eq_false_iff.mp noNull), if_neg (Bool.eq_false_iff.mp noTrue),
      if_neg (Bool.eq_false_iff.mp noFalse), if_neg (Bool.eq_false_iff.mp noNumber)]

/-- None of the words holds a colon or two full stops. -/
theorem reads_as_string {text : List Char} (noInt : isInt text = false)
    (noFloat : isFloat text = false) (mark : ':' ∈ text ∨ '.' ∈ text) :
    readsAsOther text = false := by
  have noWord (words : List (List Char))
      (colons : words.all (fun other => !other.contains ':') = true)
      (stops : words.all (fun other => !other.contains '.') = true) :
      words.contains text = false := by
    cases mark with
    | inl colon => exact contains_without_mark colons colon
    | inr stop => exact contains_without_mark stops stop
  unfold readsAsOther
  rw [noInt, noFloat, noWord _ (by decide) (by decide), noWord _ (by decide) (by decide),
    noWord _ (by decide) (by decide)]
  rfl

/-- Dropping digits leaves any other character. -/
theorem mem_drop_digits {mark : Char} {text : List Char} (noDigit : mark.isDigit = false)
    (inside : mark ∈ text) : mark ∈ text.dropWhile Char.isDigit := by
  rw [← List.takeWhile_append_dropWhile (p := Char.isDigit) (l := text)] at inside
  cases List.mem_append.mp inside with
  | inl early => simp [List.mem_takeWhile_imp early] at noDigit
  | inr late => exact late

theorem is_float_with_colon {text : List Char} (colon : ':' ∈ text) : isFloat text = false := by
  have kept : ':' ∈ dropSign text := mem_drop_sign (by decide) colon
  have late := mem_drop_digits (by decide) kept
  simp only [isFloat]
  split
  · rename_i rest shape
    have inside : ':' ∈ rest := by
      rw [shape] at late
      simpa using late
    rw [is_exponent_with_mark (Or.inr rfl) (mem_drop_digits (by decide) inside),
      contains_without_mark (by decide) inside, contains_without_mark (by decide) colon]
    simp
  · rw [is_exponent_with_mark (Or.inr rfl) late, Bool.and_false]

/-- Two full stops are one more than a float has. -/
theorem is_float_with_stops {text : List Char} (stops : 2 ≤ text.count '.') :
    isFloat text = false := by
  have unsigned : (dropSign text).count '.' = text.count '.' := by
    unfold dropSign
    split <;> simp
  have digitless : ((dropSign text).takeWhile Char.isDigit).count '.' = 0 := by
    apply List.count_eq_zero.mpr
    intro inside
    exact absurd (List.mem_takeWhile_imp inside) (by decide)
  have late : 2 ≤ ((dropSign text).dropWhile Char.isDigit).count '.' := by
    have joined := congrArg (List.count '.')
      (List.takeWhile_append_dropWhile (p := Char.isDigit) (l := dropSign text))
    rw [List.count_append] at joined
    omega
  simp only [isFloat]
  split
  · rename_i rest shape
    have inside : '.' ∈ rest := by
      rw [shape, List.count_cons_self] at late
      exact List.count_pos_iff.mp (by omega)
    have noName : [".nan".toList, ".NaN".toList, ".NAN".toList].contains text = false := by
      refine Bool.eq_false_iff.mpr fun member => ?_
      have named : text = ".nan".toList ∨ text = ".NaN".toList ∨ text = ".NAN".toList := by
        simpa using member
      rcases named with same | same | same <;> rw [same] at stops <;> exact absurd stops (by decide)
    rw [is_exponent_with_mark (Or.inl rfl) (mem_drop_digits (by decide) inside),
      contains_without_mark (by decide) inside, noName]
    simp
  · have inside : '.' ∈ (dropSign text).dropWhile Char.isDigit :=
      List.count_pos_iff.mp (by omega)
    rw [is_exponent_with_mark (Or.inl rfl) inside, Bool.and_false]

/-- Only the text itself can stand for it. -/
theorem resolve_str {text other : List Char} (read : resolve text = .str other) : text = other := by
  simp only [resolve] at read
  split at read
  · cases read
  split at read
  · cases read
  split at read
  · cases read
  split at read
  · cases read
  · exact Scalar.str.inj read

end NodeOs.Library.YamlScalar
