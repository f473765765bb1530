import NodeOs.Noded.Workload

/-!
# `validate_api_server`

Here the text is sliced by byte offsets, as the code does it, and a slice that is not at a
character's boundary panics. No slice does, and what is accepted is read off the
form of the URL: the port after the brackets is not looked at.
-/

namespace NodeOs.Noded.ApiServer

open NodeOs.Library.InetAddr
open NodeOs.Noded.FileSystem
open NodeOs.Noded.Workload hiding validateApiServer

/-- The text from a byte offset on, unless the offset is inside a character or
past the end. -/
def sliceFrom : List Char → Nat → Option (List Char)
  | text, 0 => some text
  | [], _ + 1 => none
  | char :: text, offset + 1 =>
      if char.utf8Size ≤ offset + 1 then sliceFrom text (offset + 1 - char.utf8Size) else none

/-- The text up to a byte offset. -/
def sliceTo : List Char → Nat → Option (List Char)
  | _, 0 => some []
  | [], _ + 1 => none
  | char :: text, offset + 1 =>
      if char.utf8Size ≤ offset + 1 then
        (sliceTo text (offset + 1 - char.utf8Size)).map (char :: ·)
      else none

def slice (text : List Char) (start stop : Nat) : Option (List Char) :=
  if start ≤ stop then (sliceTo text stop).bind (sliceFrom · start) else none

/-- `str::find` of a character. -/
def find (target : Char) : List Char → Option Nat
  | [] => none
  | char :: text =>
      if char = target then some 0 else (find target text).map (· + char.utf8Size)

/-- `validate_api_server`; `none` is a panic. -/
def validateApiServer (url : String) : Option (Except Error Unit) :=
  match stripPrefix "https://".toList url.toList with
  | none => some (.error ["apiServer must use https"])
  | some rest =>
      if rest.head? ≠ some '[' then
        some (.error
          ["apiServer host must be a bracketed IPv6 literal, e.g. https://[2001:db8::1]:6443"])
      else match find ']' rest with
        | none => some (.error ["apiServer IPv6 literal is missing its closing ']'"])
        | some close => do
            let host ← slice rest 1 close
            match parseIpv6Addr host with
            | none => do
                let host ← slice rest 1 close
                some (.error [s!"apiServer host is not a valid IPv6 address: {String.ofList host}"])
            | some _ => do
                let tail ← sliceFrom rest (close + 1)
                if tail ≠ [] ∧ tail.head? ≠ some ':' then
                  some (.error ["apiServer has unexpected data after the IPv6 host"])
                else some (.ok ())

/-- A decimal number of at most 65535. -/
def IsPort (text : List Char) : Prop :=
  ∃ digits, text.mapM (digitValue 10) = some digits ∧ digits ≠ [] ∧
    digits.foldl (fun value digit => value * 10 + digit) 0 ≤ 65535

/-- `https://[<ipv6>]` with an optional `:port`. -/
def Documented (url : String) : Prop :=
  ∃ host tail, url.toList = "https://[".toList ++ host ++ ']' :: tail ∧
    (parseIpv6Addr host).isSome ∧ (tail = [] ∨ ∃ port, tail = ':' :: port ∧ IsPort port)

/-- The check returns, and accepts exactly the documented form. -/
def ChecksDocumented (url : String) : Prop :=
  ∃ verdict, validateApiServer url = some verdict ∧ (verdict = .ok () ↔ Documented url)

section Slices

variable (front back : List Char)

theorem byte_length_cons (char : Char) :
    byteLength (char :: front) = char.utf8Size + byteLength front := by
  simp [byteLength]

theorem slice_from_append : sliceFrom (front ++ back) (byteLength front) = some back := by
  induction front with
  | nil => rw [List.nil_append, byteLength, List.map_nil, List.sum_nil, sliceFrom]
  | cons char front ih =>
      obtain ⟨size, positive⟩ := Nat.exists_eq_add_of_le' (Char.utf8Size_pos char)
      have offset : byteLength (char :: front) = size + byteLength front + 1 := by
        rw [byte_length_cons, positive]
        omega
      have remains : size + byteLength front + 1 - char.utf8Size = byteLength front := by omega
      rw [List.cons_append, offset, sliceFrom, if_pos (by omega), remains, ih]

theorem slice_to_append : sliceTo (front ++ back) (byteLength front) = some front := by
  induction front with
  | nil => rw [List.nil_append, byteLength, List.map_nil, List.sum_nil, sliceTo]
  | cons char front ih =>
      obtain ⟨size, positive⟩ := Nat.exists_eq_add_of_le' (Char.utf8Size_pos char)
      have offset : byteLength (char :: front) = size + byteLength front + 1 := by
        rw [byte_length_cons, positive]
        omega
      have remains : size + byteLength front + 1 - char.utf8Size = byteLength front := by omega
      rw [List.cons_append, offset, sliceTo, if_pos (by omega), remains, ih]
      rfl

/-- The offset that `find` answers is the length of what `split_once` puts before the
match. -/
theorem find_eq_split_once (target : Char) (text : List Char) :
    find target text = (splitOnce target text).map fun (before, _) => byteLength before := by
  induction text with
  | nil => rfl
  | cons char text ih =>
      unfold find splitOnce
      by_cases same : char = target
      · rw [if_pos same, if_pos same]
        rfl
      · rw [if_neg same, if_neg same, ih, Option.map_map, Option.map_map]
        congr 1
        funext pair
        simp only [Function.comp_apply, byte_length_cons]
        omega

end Slices

/-- No slice is at a boundary that panics: the bracket that opens the text and
the one that was found are one byte long. -/
theorem validate_api_server_returns (url : String) :
    validateApiServer url = some (Workload.validateApiServer url) := by
  unfold validateApiServer Workload.validateApiServer
  cases stripPrefix "https://".toList url.toList with
  | none => rfl
  | some rest =>
      simp only
      by_cases bracket : rest.head? = some '['
      · rw [if_neg (not_not.mpr bracket), if_neg (not_not.mpr bracket), find_eq_split_once]
        cases found : splitOnce ']' rest with
        | none => rfl
        | some pair =>
            obtain ⟨upToClose, tail⟩ := pair
            obtain ⟨close, -⟩ := split_once_some found
            cases upToClose with
            | nil => simp [close] at bracket
            | cons first host =>
                have opening : first = '[' := by simpa [close] using bracket
                subst opening
                have start : (1 : Nat) = byteLength ['['] := by decide
                have stop : byteLength ('[' :: host) + 1 = byteLength ('[' :: host ++ [']']) := by
                  simp [byteLength]
                  rfl
                have inside : slice rest 1 (byteLength ('[' :: host)) = some host := by
                  have ordered : 1 ≤ byteLength ('[' :: host) := by
                    rw [byte_length_cons, start]
                    exact Nat.le_add_right _ _
                  rw [slice, if_pos ordered, close, slice_to_append, Option.bind_some, start]
                  exact slice_from_append ['['] host
                have after : sliceFrom rest (byteLength ('[' :: host) + 1) = some tail := by
                  rw [stop, close, List.append_cons, slice_from_append]
                simp only [Option.map_some, inside, after, Option.bind_eq_bind, Option.bind_some,
                  List.drop_one, List.tail_cons]
                cases parseIpv6Addr host with
                | none => rfl
                | some groups =>
                    by_cases unexpected : tail ≠ [] ∧ tail.head? ≠ some ':'
                    · rw [if_pos unexpected, if_pos unexpected]
                    · rw [if_neg unexpected, if_neg unexpected]
      · rw [if_pos bracket, if_pos bracket]

theorem no_bracket_in_address {host : List Char} (parsed : (parseIpv6Addr host).isSome) :
    ']' ∉ host := by
  intro inside
  obtain ⟨groups, read⟩ := Option.isSome_iff_exists.mp parsed
  exact absurd (parse_ipv6_chars read ']' inside) (by decide)

/-- What is accepted: of the tail, only the first character counts. -/
theorem accepts_iff (url : String) :
    Workload.validateApiServer url = .ok () ↔
      ∃ host tail, url.toList = "https://[".toList ++ host ++ ']' :: tail ∧
        (parseIpv6Addr host).isSome ∧ (tail = [] ∨ tail.head? = some ':') := by
  constructor
  · exact validate_api_server_shape
  · rintro ⟨host, tail, chars, parsed, clean⟩
    have stripped : stripPrefix "https://".toList url.toList =
        some ('[' :: host ++ ']' :: tail) := by
      rw [chars]
      exact strip_prefix_append "https://".toList _
    have absent : ']' ∉ '[' :: host := by
      rw [List.mem_cons, not_or]
      exact ⟨by decide, no_bracket_in_address parsed⟩
    have found := split_once_append tail absent
    obtain ⟨groups, read⟩ := Option.isSome_iff_exists.mp parsed
    have expected : ¬(tail ≠ [] ∧ tail.head? ≠ some ':') := by
      rintro ⟨filled, other⟩
      exact clean.elim filled other
    have bracket : ('[' :: host ++ ']' :: tail).head? = some '[' := rfl
    simp only [Workload.validateApiServer, stripped]
    rw [if_neg (not_not.mpr bracket), found]
    simp only [List.drop_one, List.tail_cons, read, if_neg expected]

/-- An accepted URL has one host and one tail. -/
theorem shape_unique {host host' tail tail' : List Char}
    (same : "https://[".toList ++ host ++ ']' :: tail =
      "https://[".toList ++ host' ++ ']' :: tail')
    (parsed : (parseIpv6Addr host).isSome) (parsed' : (parseIpv6Addr host').isSome) :
    host = host' ∧ tail = tail' := by
  rw [List.append_assoc, List.append_assoc] at same
  have texts := List.append_cancel_left same
  have found := split_once_append tail (no_bracket_in_address parsed)
  rw [texts, split_once_append tail' (no_bracket_in_address parsed')] at found
  cases found
  exact ⟨rfl, rfl⟩

theorem checks_documented (url : String) :
    ChecksDocumented url ↔ (Workload.validateApiServer url = .ok () ↔ Documented url) := by
  unfold ChecksDocumented
  rw [validate_api_server_returns]
  simp only [Option.some.injEq, exists_eq_left']

theorem port_of_checked {url : String} (checked : ChecksDocumented url) {host port : List Char}
    (chars : url.toList = "https://[".toList ++ host ++ ']' :: ':' :: port)
    (parsed : (parseIpv6Addr host).isSome) : IsPort port := by
  have accepted := (accepts_iff url).mpr ⟨host, ':' :: port, chars, parsed, Or.inr rfl⟩
  obtain ⟨host', tail, chars', parsed', clean⟩ := ((checks_documented url).mp checked).mp accepted
  obtain ⟨-, rfl⟩ := shape_unique (chars.symm.trans chars') parsed parsed'
  obtain empty | ⟨port', same, isPort⟩ := clean
  · cases empty
  · cases same
    exact isPort

/-- The check is that of the documented form exactly if what follows an IPv6 literal and a
colon is a port. -/
theorem api_server_checked_iff (url : String) :
    ChecksDocumented url ↔
      ∀ host port, url.toList = "https://[".toList ++ host ++ ']' :: ':' :: port →
        (parseIpv6Addr host).isSome → IsPort port := by
  constructor
  · intro checked host port
    exact port_of_checked checked
  · intro ports
    rw [checks_documented, accepts_iff]
    constructor
    · rintro ⟨host, tail, chars, parsed, empty | colon⟩
      · exact ⟨host, tail, chars, parsed, Or.inl empty⟩
      · obtain ⟨port, rfl⟩ := List.head?_eq_some_iff.mp colon
        exact ⟨host, _, chars, parsed, Or.inr ⟨port, rfl, ports host port chars parsed⟩⟩
    · rintro ⟨host, tail, chars, parsed, empty | ⟨port, rfl, -⟩⟩
      · exact ⟨host, tail, chars, parsed, Or.inl empty⟩
      · exact ⟨host, _, chars, parsed, Or.inr rfl⟩

/-- A port that is a name. -/
theorem api_server_port_unchecked : ¬∀ url, ChecksDocumented url := by
  intro checks
  have chars : "https://[::1]:api".toList =
      "https://[".toList ++ "::1".toList ++ ']' :: ':' :: "api".toList := by decide
  obtain ⟨digits, read, -⟩ := port_of_checked (checks _) chars (by decide)
  have unread : "api".toList.mapM (digitValue 10) = none := by decide
  rw [unread] at read
  cases read

end NodeOs.Noded.ApiServer
