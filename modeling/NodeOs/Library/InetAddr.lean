import Mathlib.Data.List.Basic
import Mathlib.Tactic.Common

/-!
# The standard library's address parser

`core::net::parser` works on bytes; no byte of a multi-byte character is a
digit or a separator, so the model reads characters. A parser that fails leaves
its input where it was, which is what `read_atomically` does. The result for
later use is `parse_ipv6_chars`: an accepted text has hexadecimal digits,
colons and full stops only.
-/

namespace NodeOs.Library.InetAddr

abbrev Reader (Value : Type) := List Char → Option (Value × List Char)

/-- The value of a digit in the largest radix, 36. -/
def charValue (char : Char) : Option Nat :=
  if '0' ≤ char ∧ char ≤ '9' then some (char.toNat - '0'.toNat)
  else if 'a' ≤ char ∧ char ≤ 'z' then some (char.toNat - 'a'.toNat + 10)
  else if 'A' ≤ char ∧ char ≤ 'Z' then some (char.toNat - 'A'.toNat + 10)
  else none

/-- `char::to_digit`. -/
def digitValue (radix : Nat) (char : Char) : Option Nat :=
  (charValue char).filter (· < radix)

def readGivenChar (target : Char) : Reader Unit
  | [] => none
  | char :: rest => if char = target then some ((), rest) else none

/-- The separator stands before every item but the first. -/
def readSeparator {Value : Type} (separator : Char) (index : Nat) (inner : Reader Value) :
    Reader Value := fun input =>
  if index = 0 then inner input
  else do
    let ((), rest) ← readGivenChar separator input
    inner rest

/-- The longest run of digits, and what follows it. -/
def digitRun (radix : Nat) : List Char → List Nat × List Char
  | [] => ([], [])
  | char :: rest =>
      match digitValue radix char with
      | none => ([], char :: rest)
      | some digit => (digit :: (digitRun radix rest).1, (digitRun radix rest).2)

/-- `read_number` with a digit limit, for a type whose largest value is
`largest`. -/
def readNumber (radix maxDigits largest : Nat) (allowZeroPrefix : Bool) : Reader Nat :=
  fun input =>
    let digits := (digitRun radix input).1
    let value := digits.foldl (fun value digit => value * radix + digit) 0
    if digits.length = 0 ∨ maxDigits < digits.length then none
    else if allowZeroPrefix = false ∧ input.head? = some '0' ∧ 1 < digits.length then none
    else if largest < value then none
    else some (value, (digitRun radix input).2)

def readIpv4Addr : Reader (Nat × Nat × Nat × Nat) := fun input => do
  let octet (index : Nat) : Reader Nat := readSeparator '.' index (readNumber 10 3 255 false)
  let (first, rest) ← octet 0 input
  let (second, rest) ← octet 1 rest
  let (third, rest) ← octet 2 rest
  let (fourth, rest) ← octet 3 rest
  some ((first, second, third, fourth), rest)

structure Groups where
  groups : List Nat
  endsInIpv4 : Bool
  rest : List Char

/-- `remaining` counts the slots still free. A trailing IPv4 address needs two
of them. -/
def readGroups : (remaining index : Nat) → List Char → Groups
  | 0, _, input => ⟨[], false, input⟩
  | remaining + 1, index, input =>
      let ipv4 := if 0 < remaining then readSeparator ':' index readIpv4Addr input else none
      match ipv4 with
      | some ((one, two, three, four), rest) =>
          ⟨[one * 256 + two, three * 256 + four], true, rest⟩
      | none =>
          match readSeparator ':' index (readNumber 16 4 65535 true) input with
          | none => ⟨[], false, input⟩
          | some (group, rest) =>
              let more := readGroups remaining (index + 1) rest
              { more with groups := group :: more.groups }

/-- The eight groups of an IPv6 address. -/
def readIpv6Addr : Reader (List Nat) := fun input =>
  let head := readGroups 8 0 input
  if head.groups.length = 8 then some (head.groups, head.rest)
  else if head.endsInIpv4 then none
  else do
    let ((), rest) ← readGivenChar ':' head.rest
    let ((), rest) ← readGivenChar ':' rest
    let tail := readGroups (8 - (head.groups.length + 1)) 0 rest
    let zeros := List.replicate (8 - head.groups.length - tail.groups.length) 0
    some (head.groups ++ zeros ++ tail.groups, tail.rest)

inductive IpAddr where
  | v4 (octets : Nat × Nat × Nat × Nat)
  | v6 (groups : List Nat)
  deriving DecidableEq, Repr

/-- The parser must use up the whole text. -/
def parseWith {Value : Type} (reader : Reader Value) (text : List Char) : Option Value :=
  match reader text with
  | some (value, []) => some value
  | _ => none

def parseIpv6Addr (text : List Char) : Option (List Nat) := parseWith readIpv6Addr text

def readIpAddr : Reader IpAddr := fun input =>
  match readIpv4Addr input with
  | some (octets, rest) => some (.v4 octets, rest)
  | none => (readIpv6Addr input).map fun (groups, rest) => (.v6 groups, rest)

def parseIpAddr (text : List Char) : Option IpAddr := parseWith readIpAddr text

def IsAddressChar (char : Char) : Prop :=
  (digitValue 16 char).isSome ∨ char = ':' ∨ char = '.'

instance (char : Char) : Decidable (IsAddressChar char) :=
  inferInstanceAs (Decidable (_ ∨ _ ∨ _))

/-- `input` is some address characters followed by `rest`. -/
def Consumed (input rest : List Char) : Prop :=
  ∃ used, input = used ++ rest ∧ ∀ char ∈ used, IsAddressChar char

def ReadsAddressChars {Value : Type} (reader : Reader Value) : Prop :=
  ∀ input value rest, reader input = some (value, rest) → Consumed input rest

theorem Consumed.refl (input : List Char) : Consumed input input :=
  ⟨[], rfl, by simp⟩

theorem Consumed.trans {first second third : List Char} (front : Consumed first second)
    (back : Consumed second third) : Consumed first third := by
  obtain ⟨used, rfl, usedChars⟩ := front
  obtain ⟨more, rfl, moreChars⟩ := back
  refine ⟨used ++ more, (List.append_assoc _ _ _).symm, ?_⟩
  intro char member
  rcases List.mem_append.mp member with early | late
  · exact usedChars char early
  · exact moreChars char late

theorem Consumed.cons {char : Char} {input rest : List Char} (allowed : IsAddressChar char)
    (tail : Consumed input rest) : Consumed (char :: input) rest := by
  obtain ⟨used, rfl, usedChars⟩ := tail
  refine ⟨char :: used, rfl, ?_⟩
  intro other member
  rcases List.mem_cons.mp member with rfl | late
  · exact allowed
  · exact usedChars other late

/-- A decimal digit is a hexadecimal digit too. -/
theorem digit_is_address_char {radix : Nat} (small : radix ≤ 16) {char : Char} {digit : Nat}
    (read : digitValue radix char = some digit) : IsAddressChar char := by
  left
  obtain ⟨value, below⟩ := Option.filter_eq_some_iff.mp read
  have hexadecimal : digitValue 16 char = some digit := by
    refine Option.filter_eq_some_iff.mpr ⟨value, ?_⟩
    simp only [decide_eq_true_eq] at below ⊢
    omega
  rw [hexadecimal, Option.isSome_some]

theorem read_given_char_consumes {target : Char} (allowed : IsAddressChar target) :
    ReadsAddressChars (readGivenChar target) := by
  intro input value rest read
  cases input with
  | nil => simp [readGivenChar] at read
  | cons char tail =>
      simp only [readGivenChar, Option.ite_none_right_eq_some, Option.some.injEq,
        Prod.mk.injEq, true_and] at read
      obtain ⟨rfl, rfl⟩ := read
      exact (Consumed.refl tail).cons allowed

theorem read_separator_consumes {Value : Type} {separator : Char} {index : Nat}
    {inner : Reader Value} (allowed : IsAddressChar separator)
    (items : ReadsAddressChars inner) :
    ReadsAddressChars (readSeparator separator index inner) := by
  intro input value rest read
  simp only [readSeparator] at read
  split at read
  · exact items input value rest read
  · simp only [Option.bind_eq_bind, Option.bind_eq_some_iff] at read
    obtain ⟨⟨_, middle⟩, sep, item⟩ := read
    exact (read_given_char_consumes allowed input _ middle sep).trans
      (items middle value rest item)

theorem digit_run_consumes {radix : Nat} (small : radix ≤ 16) (input : List Char) :
    Consumed input (digitRun radix input).2 := by
  induction input with
  | nil => exact Consumed.refl []
  | cons char rest ih =>
      simp only [digitRun]
      cases read : digitValue radix char with
      | none => exact Consumed.refl _
      | some digit => exact ih.cons (digit_is_address_char small read)

theorem read_number_consumes {radix maxDigits largest : Nat} {allowZeroPrefix : Bool}
    (small : radix ≤ 16) :
    ReadsAddressChars (readNumber radix maxDigits largest allowZeroPrefix) := by
  intro input value rest read
  simp only [readNumber] at read
  split at read
  · simp at read
  split at read
  · simp at read
  split at read
  · simp at read
  simp only [Option.some.injEq, Prod.mk.injEq] at read
  rw [← read.2]
  exact digit_run_consumes small input

theorem read_ipv4_consumes : ReadsAddressChars readIpv4Addr := by
  have octets (index : Nat) :
      ReadsAddressChars (readSeparator '.' index (readNumber 10 3 255 false)) :=
    read_separator_consumes (Or.inr (Or.inr rfl)) (read_number_consumes (by decide))
  intro input value rest read
  simp only [readIpv4Addr, Option.bind_eq_bind, Option.bind_eq_some_iff, Option.some.injEq,
    Prod.mk.injEq] at read
  obtain ⟨⟨_, afterFirst⟩, first, ⟨_, afterSecond⟩, second, ⟨_, afterThird⟩, third,
    ⟨_, afterFourth⟩, fourth, -, rfl⟩ := read
  exact (((octets 0 _ _ _ first).trans (octets 1 _ _ _ second)).trans
    (octets 2 _ _ _ third)).trans (octets 3 _ _ _ fourth)

theorem read_groups_consumes (remaining index : Nat) (input : List Char) :
    Consumed input (readGroups remaining index input).rest := by
  induction remaining generalizing index input with
  | zero => exact Consumed.refl input
  | succ remaining ih =>
      simp only [readGroups]
      split
      · rename_i one two three four rest found
        have ipv4 : readSeparator ':' index readIpv4Addr input =
            some ((one, two, three, four), rest) := by
          by_cases room : 0 < remaining
          · simpa only [if_pos room] using found
          · simp [if_neg room] at found
        exact read_separator_consumes (Or.inr (Or.inl rfl)) read_ipv4_consumes _ _ _ ipv4
      · split
        · exact Consumed.refl input
        · rename_i group rest found
          exact (read_separator_consumes (Or.inr (Or.inl rfl))
            (read_number_consumes (by decide)) _ _ _ found).trans (ih _ _)

theorem read_ipv6_consumes : ReadsAddressChars readIpv6Addr := by
  have colon : IsAddressChar ':' := Or.inr (Or.inl rfl)
  intro input value rest read
  simp only [readIpv6Addr] at read
  split at read
  · cases read
    exact read_groups_consumes 8 0 input
  split at read
  · simp at read
  simp only [Option.bind_eq_bind, Option.bind_eq_some_iff, Option.some.injEq,
    Prod.mk.injEq] at read
  obtain ⟨⟨_, middle⟩, first, ⟨_, back⟩, second, -, rfl⟩ := read
  exact (((read_groups_consumes 8 0 input).trans
    (read_given_char_consumes colon _ _ _ first)).trans
    (read_given_char_consumes colon _ _ _ second)).trans (read_groups_consumes _ 0 back)

theorem parse_ipv6_chars {text : List Char} {groups : List Nat}
    (parsed : parseIpv6Addr text = some groups) : ∀ char ∈ text, IsAddressChar char := by
  simp only [parseIpv6Addr, parseWith] at parsed
  split at parsed
  · rename_i value read
    obtain ⟨used, same, usedChars⟩ := read_ipv6_consumes text value [] read
    rw [List.append_nil] at same
    rw [same]
    exact usedChars
  · simp at parsed

theorem address_char_range {char : Char} (allowed : IsAddressChar char) :
    0x2E ≤ char.toNat ∧ char.toNat ≤ 0x7A := by
  rcases allowed with digit | rfl | rfl
  · obtain ⟨value, read⟩ := Option.isSome_iff_exists.mp digit
    have known := (Option.filter_eq_some_iff.mp read).1
    simp only [charValue, Char.le_def, UInt32.le_iff_toNat_le] at known
    split at known
    · rename_i range
      exact ⟨Nat.le_trans (by decide) range.1, Nat.le_trans range.2 (by decide)⟩
    split at known
    · rename_i range
      exact ⟨Nat.le_trans (by decide) range.1, Nat.le_trans range.2 (by decide)⟩
    split at known
    · rename_i range
      exact ⟨Nat.le_trans (by decide) range.1, Nat.le_trans range.2 (by decide)⟩
    · cases known
  · decide
  · decide

theorem Consumed.mem {input rest : List Char} {char : Char} (front : Consumed input rest)
    (inside : char ∈ rest) : char ∈ input := by
  obtain ⟨used, rfl, _⟩ := front
  exact List.mem_append_right used inside

theorem read_given_char_some {target : Char} {input rest : List Char} {value : Unit}
    (read : readGivenChar target input = some (value, rest)) : input = target :: rest := by
  cases input with
  | nil => simp [readGivenChar] at read
  | cons char tail =>
      simp only [readGivenChar, Option.ite_none_right_eq_some, Option.some.injEq,
        Prod.mk.injEq, true_and] at read
      rw [read.1, read.2]

theorem read_separator_some {Value : Type} {separator : Char} {index : Nat} {inner : Reader Value}
    {input rest : List Char} {value : Value}
    (read : readSeparator separator (index + 1) inner input = some (value, rest)) :
    ∃ after, input = separator :: after ∧ inner after = some (value, rest) := by
  simp only [readSeparator, Nat.add_eq_zero_iff, Nat.one_ne_zero, and_false, if_false,
    Option.bind_eq_bind, Option.bind_eq_some_iff] at read
  obtain ⟨⟨_, after⟩, given, item⟩ := read
  exact ⟨after, read_given_char_some given, item⟩

/-- An IPv4 address has full stops between its four numbers. -/
theorem read_ipv4_stops {input rest : List Char} {octets : Nat × Nat × Nat × Nat}
    (read : readIpv4Addr input = some (octets, rest)) : 2 ≤ input.count '.' := by
  have number {text after : List Char} {value : Nat}
      (found : readNumber 10 3 255 false text = some (value, after)) : Consumed text after :=
    read_number_consumes (by decide) text value after found
  simp only [readIpv4Addr, Option.bind_eq_bind, Option.bind_eq_some_iff] at read
  obtain ⟨⟨_, afterFirst⟩, first, ⟨_, afterSecond⟩, second, ⟨_, afterThird⟩, third, _⟩ := read
  obtain ⟨behindFirst, sameFirst, foundSecond⟩ := read_separator_some second
  obtain ⟨behindSecond, sameSecond, _⟩ := read_separator_some third
  obtain ⟨usedFirst, front, _⟩ := number first
  obtain ⟨usedSecond, middle, _⟩ := number foundSecond
  simp only at front sameFirst middle sameSecond
  rw [front, sameFirst, middle, sameSecond]
  simp only [List.count_append, List.count_cons_self]
  omega

/-- A group behind the first one stands behind a colon. -/
theorem read_groups_colon {remaining index : Nat} {input : List Char}
    (some_read : (readGroups remaining (index + 1) input).groups ≠ []) : ':' ∈ input := by
  cases remaining with
  | zero => simp [readGroups] at some_read
  | succ remaining =>
      simp only [readGroups] at some_read
      split at some_read
      · rename_i one two three four rest found
        have ipv4 : readSeparator ':' (index + 1) readIpv4Addr input =
            some ((one, two, three, four), rest) := by
          by_cases room : 0 < remaining
          · simpa only [if_pos room] using found
          · simp [if_neg room] at found
        obtain ⟨after, same, _⟩ := read_separator_some ipv4
        simp [same]
      · split at some_read
        · simp at some_read
        · rename_i group rest found
          obtain ⟨after, same, _⟩ := read_separator_some found
          simp [same]

/-- An IPv6 address has a colon: eight groups need one, and so does a gap. -/
theorem read_ipv6_colon {input rest : List Char} {groups : List Nat}
    (read : readIpv6Addr input = some (groups, rest)) : ':' ∈ input := by
  simp only [readIpv6Addr] at read
  split at read
  · rename_i full
    unfold readGroups at full
    simp only at full
    split at full
    · simp at full
    · split at full
      · simp at full
      · rename_i group after found
        have more : (readGroups 7 (0 + 1) after).groups ≠ [] := by
          intro empty
          simp [empty] at full
        have behind := read_groups_colon more
        have front : Consumed input after :=
          read_separator_consumes (Or.inr (Or.inl rfl)) (read_number_consumes (by decide)) _ _ _
            found
        exact front.mem behind
  split at read
  · simp at read
  · simp only [Option.bind_eq_bind, Option.bind_eq_some_iff] at read
    obtain ⟨⟨_, middle⟩, first, _⟩ := read
    apply (read_groups_consumes 8 0 input).mem
    simp [read_given_char_some first]

/-- An accepted address, on characters. -/
theorem parse_ip_addr_shape {text : List Char} {address : IpAddr}
    (parsed : parseIpAddr text = some address) :
    (∀ char ∈ text, IsAddressChar char) ∧ (':' ∈ text ∨ 2 ≤ text.count '.') := by
  simp only [parseIpAddr, parseWith] at parsed
  split at parsed
  · rename_i value read
    simp only [readIpAddr] at read
    have whole (front : Consumed text []) : ∀ char ∈ text, IsAddressChar char := by
      obtain ⟨used, same, usedChars⟩ := front
      rw [List.append_nil] at same
      rwa [same]
    split at read
    · rename_i octets rest found
      cases read
      exact ⟨whole (read_ipv4_consumes text octets [] found), Or.inr (read_ipv4_stops found)⟩
    · rw [Option.map_eq_some_iff] at read
      obtain ⟨⟨groups, rest⟩, found, same⟩ := read
      cases same
      exact ⟨whole (read_ipv6_consumes text groups [] found), Or.inl (read_ipv6_colon found)⟩
  · simp at parsed

example : parseIpv6Addr "2001:db8::1".toList = some [0x2001, 0xdb8, 0, 0, 0, 0, 0, 1] := by decide

end NodeOs.Library.InetAddr
