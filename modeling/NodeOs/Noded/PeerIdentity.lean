import NodeOs.Noded.Authorization
import NodeOs.Noded.Pkcs11

/-!
# `peer_identity` and `subject_common_name`

The value of an attribute has a tag, which the loop does not read. What the
value denotes is given by X.680 for the types whose characters it lists; the types that
refer to a register of character sets are a parameter.
-/

namespace NodeOs.Noded.PeerIdentity

open NodeOs.Noded.Authorization
open NodeOs.Noded.FileSystem
open NodeOs.Noded.Pkcs11

/-- The ASN.1 types of character strings, and any other tag. -/
inductive Tag where
  | utf8String
  | numericString
  | printableString
  | teletexString
  | videotexString
  | ia5String
  | graphicString
  | visibleString
  | generalString
  | universalString
  | bmpString
  | other (number : Nat)
  deriving DecidableEq, Repr

/-- `AttributeTypeAndValue`. -/
structure Attribute where
  oid : List Nat
  tag : Tag
  value : Bytes
  deriving DecidableEq, Repr

/-- A sequence of sets of attributes. -/
abbrev Name := List (List Attribute)

/-- The arcs in decimal, with full stops between them. -/
def oidText (arcs : List Nat) : String := ".".intercalate (arcs.map Nat.repr)

/-- The loop of `subject_common_name`. -/
def firstReadable : List Attribute → Option String
  | [] => none
  | atv :: atvs =>
      if oidText atv.oid = "2.5.4.3" then
        match fromUtf8 atv.value with
        | some name => some name
        | none => firstReadable atvs
      else firstReadable atvs

def subjectCommonName (subject : Name) : Option String := firstReadable subject.flatten

/-- `peer_identity`, for the certificates that the handshake has verified. -/
def peerIdentity {Certificate : Type} (fromDer : Bytes → Option Certificate)
    (subject : Certificate → Name) (peerCertificates : Option (List Bytes)) : ClientIdentity where
  commonName := do
    let certificates ← peerCertificates
    let certificate ← certificates.head?
    let certificate ← fromDer certificate
    subjectCommonName (subject certificate)

section Denotation

/-- One byte for each character, of those the type allows. -/
def byteChars (allowed : Char → Bool) (value : Bytes) : Option (List Char) :=
  let chars := value.map fun byte => Char.ofNat byte.toNat
  if chars.all allowed then some chars else none

def charOf (number : Nat) : Option Char :=
  if number.isValidChar then some (Char.ofNat number) else none

/-- Two bytes for each character. -/
def bmpChars : Bytes → Option (List Char)
  | [] => some []
  | [_] => none
  | high :: low :: rest => do
      let char ← charOf (high.toNat * 256 + low.toNat)
      let chars ← bmpChars rest
      some (char :: chars)

/-- Four bytes for each character. -/
def universalChars : Bytes → Option (List Char)
  | [] => some []
  | first :: second :: third :: fourth :: rest => do
      let char ← charOf
        (((first.toNat * 256 + second.toNat) * 256 + third.toNat) * 256 + fourth.toNat)
      let chars ← universalChars rest
      some (char :: chars)
  | _ => none

def isPrintable (char : Char) : Bool := char.isAlphanum || " '()+,-./:=?".toList.contains char

/-- The character string that a value denotes under its own type. -/
def Attribute.denotes (registered : Tag → Bytes → Option String) (atv : Attribute) :
    Option String :=
  match atv.tag with
  | .utf8String => fromUtf8 atv.value
  | .numericString =>
      (byteChars (fun char => char.isDigit || char = ' ') atv.value).map .ofList
  | .printableString => (byteChars isPrintable atv.value).map .ofList
  | .ia5String => (byteChars (fun char => char.toNat < 128) atv.value).map .ofList
  | .visibleString =>
      (byteChars (fun char => 32 ≤ char.toNat && char.toNat ≤ 126) atv.value).map .ofList
  | .universalString => (universalChars atv.value).map .ofList
  | .bmpString => (bmpChars atv.value).map .ofList
  | .teletexString | .videotexString | .graphicString | .generalString =>
      registered atv.tag atv.value
  | .other _ => none

end Denotation

def commonNameOid : List Nat := [2, 5, 4, 3]

def firstCommonName (subject : Name) : Option Attribute :=
  subject.flatten.find? fun atv => atv.oid = commonNameOid

/-- A name that is returned is the one that the first Common Name denotes, and
none is returned where that one cannot be read. -/
structure NamesFirst (registered : Tag → Bytes → Option String) (subject : Name) : Prop where
  own : ∀ name, subjectCommonName subject = some name →
    (firstCommonName subject).bind (Attribute.denotes registered) = some name
  unread : ∀ first, firstCommonName subject = some first → fromUtf8 first.value = none →
    subjectCommonName subject = none

/-- The first Common Name is a UTF-8 text and denotes the same, or no Common Name is
one. -/
def ReadAsDenoted (registered : Tag → Bytes → Option String) (subject : Name) : Prop :=
  ∀ first, firstCommonName subject = some first →
    (∃ name, fromUtf8 first.value = some name ∧ first.denotes registered = some name) ∨
      ∀ atv ∈ subject.flatten, atv.oid = commonNameOid →
        fromUtf8 atv.value = none

theorem oid_text_injective {arcs others : List Nat} (filled : arcs ≠ []) (filled' : others ≠ [])
    (same : oidText arcs = oidText others) : arcs = others := by
  have split {arcs : List Nat} (filled : arcs ≠ []) :
      (oidText arcs).toList.splitOn '.' = arcs.map (Nat.toDigits 10) := by
    have digits : (arcs.map Nat.repr).map String.toList = arcs.map (Nat.toDigits 10) := by
      rw [List.map_map]
      apply List.map_congr_left
      intro arc _
      exact Nat.toList_repr
    rw [oidText, String.toList_intercalate, digits]
    apply List.splitOn_intercalate
    · intro piece inside
      obtain ⟨arc, -, rfl⟩ := List.mem_map.mp inside
      intro stop
      exact absurd (Nat.isDigit_of_mem_toDigits (by decide) (by decide) stop) (by decide)
    · simpa using filled
  have pieces := split filled
  rw [same, split filled'] at pieces
  have injective : Function.Injective (Nat.toDigits 10) := by
    intro arc other same
    rw [← @Nat.ofDigitChars_ten_toDigits arc, ← @Nat.ofDigitChars_ten_toDigits other, same]
  exact (List.map_injective_iff.mpr injective pieces).symm

theorem oid_text_common_name (arcs : List Nat) :
    oidText arcs = "2.5.4.3" ↔ arcs = commonNameOid := by
  constructor
  · intro same
    have filled : arcs ≠ [] := by
      rintro rfl
      exact absurd same (by decide)
    exact oid_text_injective filled (by decide) (same.trans (by decide))
  · rintro rfl
    decide

theorem first_readable_none_iff (atvs : List Attribute) :
    firstReadable atvs = none ↔
      ∀ atv ∈ atvs, atv.oid = commonNameOid → fromUtf8 atv.value = none := by
  induction atvs with
  | nil => simp [firstReadable]
  | cons atv atvs ih =>
      rw [List.forall_mem_cons, ← ih, firstReadable]
      by_cases named : atv.oid = commonNameOid
      · rw [if_pos ((oid_text_common_name _).mpr named)]
        cases read : fromUtf8 atv.value with
        | none => simp
        | some name => simp [named]
      · rw [if_neg fun same => named ((oid_text_common_name _).mp same)]
        simp [named]

theorem first_readable_append {before : List Attribute}
    (others : ∀ atv ∈ before, atv.oid ≠ commonNameOid) (after : List Attribute) :
    firstReadable (before ++ after) = firstReadable after := by
  induction before with
  | nil => rfl
  | cons atv before ih =>
      have different : ¬oidText atv.oid = "2.5.4.3" := by
        rw [oid_text_common_name]
        exact others atv (by simp)
      rw [List.cons_append, firstReadable, if_neg different,
        ih fun other inside => others other (by simp [inside])]

/-- The loop reads the first Common Name, and the ones after it if that fails. -/
theorem subject_common_name_read {subject : Name} {first : Attribute} {name : String}
    (found : firstCommonName subject = some first) (read : fromUtf8 first.value = some name) :
    subjectCommonName subject = some name := by
  obtain ⟨named, before, after, split, others⟩ := List.find?_eq_some_iff_append.mp found
  have skipped : ∀ atv ∈ before, atv.oid ≠ commonNameOid := by
    intro atv inside
    simpa using others atv inside
  have common : oidText first.oid = "2.5.4.3" :=
    (oid_text_common_name _).mpr (of_decide_eq_true named)
  rw [subjectCommonName, split, first_readable_append skipped, firstReadable, if_pos common, read]

theorem subject_common_name_without {subject : Name} (absent : firstCommonName subject = none) :
    subjectCommonName subject = none := by
  rw [subjectCommonName, first_readable_none_iff]
  intro atv inside named
  have other := List.find?_eq_none.mp absent atv inside
  exact absurd (decide_eq_true named) other

theorem names_first_iff (registered : Tag → Bytes → Option String) (subject : Name) :
    NamesFirst registered subject ↔ ReadAsDenoted registered subject := by
  constructor
  · intro names first found
    cases read : fromUtf8 first.value with
    | none =>
        right
        exact (first_readable_none_iff subject.flatten).mp (names.unread first found read)
    | some name =>
        left
        have own := names.own name (subject_common_name_read found read)
        rw [found, Option.bind_some] at own
        exact ⟨name, rfl, own⟩
  · intro reads
    constructor
    · intro name returned
      cases found : firstCommonName subject with
      | none =>
          rw [subject_common_name_without found] at returned
          cases returned
      | some first =>
          obtain ⟨own, read, denoted⟩ | unread := reads first found
          · rw [subject_common_name_read found read] at returned
            cases returned
            exact denoted
          · rw [subjectCommonName, (first_readable_none_iff _).mpr unread] at returned
            cases returned
    · intro first found unread
      obtain ⟨own, read, -⟩ | unreadable := reads first found
      · rw [read] at unread
        cases unread
      · exact (first_readable_none_iff _).mpr unreadable

/-- The identity is that of the first Common Name exactly if its bytes, read as UTF-8,
are what it denotes, or no Common Name is UTF-8; and then two names that denote
different strings give different identities. -/
theorem common_name_own_iff (registered : Tag → Bytes → Option String) :
    (∀ subject, NamesFirst registered subject ↔ ReadAsDenoted registered subject) ∧
      ∀ subject other name, ReadAsDenoted registered subject → ReadAsDenoted registered other →
        subjectCommonName subject = some name → subjectCommonName other = some name →
        (firstCommonName subject).bind (Attribute.denotes registered) =
          (firstCommonName other).bind (Attribute.denotes registered) := by
  refine ⟨names_first_iff registered, ?_⟩
  intro subject other name reads reads' returned returned'
  rw [((names_first_iff registered subject).mpr reads).own name returned,
    ((names_first_iff registered other).mpr reads').own name returned']

/-- Four ideographs whose two-byte codes spell a name of the policy. -/
def sampleSubject : Name := [[⟨commonNameOid, .bmpString, asBytes "operator"⟩]]

theorem common_name_misread :
    ¬∀ registered subject, NamesFirst registered subject := by
  intro names
  have found : firstCommonName sampleSubject =
      some ⟨commonNameOid, .bmpString, asBytes "operator"⟩ := rfl
  have own := (names (fun _ _ => none) sampleSubject).own "operator"
    (subject_common_name_read found (from_utf8_as_bytes "operator"))
  rw [found] at own
  revert own
  decide

end NodeOs.Noded.PeerIdentity
