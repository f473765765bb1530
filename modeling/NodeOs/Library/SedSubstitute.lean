import Mathlib.Data.List.TakeWhile
import NodeOs.Library.Sed

/-!
# `sed`'s `s` command

The replacement of an `s` command ends at the first delimiter that no backslash
precedes. In it `&` stands for the whole match, a backslash and a digit for a
group, and a backslash takes its special meaning from `&`, from the delimiter
and from a backslash. What any other escape stands for is not specified.
-/

namespace NodeOs.Library.Sed

section Reading

/-- `cut` is a backslash that nothing follows. -/
inductive Token where
  | plain (char : Char)
  | escaped (char : Char)
  | cut
  deriving DecidableEq

def Token.text : Token → List Char
  | .plain char => [char]
  | .escaped char => ['\\', char]
  | .cut => ['\\']

def tokens : List Char → List Token
  | [] => []
  | [char] => if char = '\\' then [.cut] else [.plain char]
  | first :: second :: rest =>
      if first = '\\' then .escaped second :: tokens rest
      else .plain first :: tokens (second :: rest)

inductive Part where
  | literal (char : Char)
  | whole
  | group (number : Nat)
  deriving DecidableEq

/-- There is no answer where the meaning is not specified. -/
def Token.part (delimiter : Char) : Token → Option Part
  | .plain char => if char = '&' then some .whole else some (.literal char)
  | .escaped char =>
      if char = '&' ∨ char = '\\' ∨ char = delimiter then some (.literal char)
      else if char.isDigit ∧ char ≠ '0' then some (.group (char.toNat - 48))
      else none
  | .cut => none

def readParts (delimiter : Char) : List Token → Option (List Part)
  | [] => some []
  | token :: rest => do
      let part ← token.part delimiter
      let parts ← readParts delimiter rest
      some (part :: parts)

def Part.within (groups : Nat) : Part → Bool
  | .group number => number ≤ groups
  | _ => true

/-- What `sed` makes of the text from the replacement on: a command that ends where
the text does, an error, or something that goes beyond it. -/
inductive Compiled where
  | refused
  | substitute (parts : List Part)
  | beyond
  deriving DecidableEq

/-- Without a closing delimiter, or with a reference to a group that the pattern
does not have, there is no command. -/
def compile (delimiter : Char) (groups : Nat) (text : List Char) : Compiled :=
  match (tokens text).dropWhile (· != .plain delimiter) with
  | [] => .refused
  | [_] =>
      match readParts delimiter ((tokens text).takeWhile (· != .plain delimiter)) with
      | some parts => if parts.all (Part.within groups) then .substitute parts else .refused
      | none => .beyond
  | _ :: _ :: _ => .beyond

def Part.expand (group : Nat → List Char) (whole : List Char) : Part → List Char
  | .literal char => [char]
  | .whole => whole
  | .group number => group number

def expansion (group : Nat → List Char) (whole : List Char) (parts : List Part) : List Char :=
  parts.flatMap (Part.expand group whole)

theorem tokens_text (text : List Char) : (tokens text).flatMap Token.text = text := by
  induction text using tokens.induct with
  | case1 => rfl
  | case2 => rfl
  | case3 char other => simp [tokens, other, Token.text]
  | case4 second rest ih => simp [tokens, ih, Token.text]
  | case5 first second rest other ih => simp [tokens, other, ih, Token.text]

/-- A backslash never stands for itself. -/
theorem plain_ne_backslash {text : List Char} {char : Char}
    (inside : Token.plain char ∈ tokens text) : char ≠ '\\' := by
  induction text using tokens.induct with
  | case1 => cases inside
  | case2 => simp [tokens] at inside
  | case3 single other =>
      simp only [tokens, other, if_false, List.mem_singleton, Token.plain.injEq] at inside
      rw [inside]
      exact other
  | case4 second rest ih =>
      simp only [tokens, if_true, List.mem_cons, reduceCtorEq, false_or] at inside
      exact ih inside
  | case5 first second rest other ih =>
      simp only [tokens, other, if_false, List.mem_cons, Token.plain.injEq] at inside
      rcases inside with same | later
      · rw [same]
        exact other
      · exact ih later

theorem tokens_cons {char : Char} (ordinary : char ≠ '\\') (rest : List Char) :
    tokens (char :: rest) = .plain char :: tokens rest := by
  cases rest <;> simp [tokens, ordinary]

theorem tokens_plain {text : List Char} (plain : ∀ char ∈ text, char ≠ '\\') :
    tokens text = text.map Token.plain := by
  induction text with
  | nil => rfl
  | cons char text ih =>
      rw [tokens_cons (plain char List.mem_cons_self),
        ih fun other inside => plain other (List.mem_cons_of_mem _ inside)]
      rfl

theorem read_parts_plain {delimiter : Char} {text : List Char} (plain : ∀ char ∈ text, char ≠ '&') :
    readParts delimiter (text.map Token.plain) = some (text.map Part.literal) := by
  induction text with
  | nil => rfl
  | cons char text ih =>
      have here : Token.part delimiter (.plain char) = some (.literal char) :=
        if_neg (plain char List.mem_cons_self)
      simp only [List.map_cons, readParts, here,
        ih fun other inside => plain other (List.mem_cons_of_mem _ inside)]
      rfl

/-- A command that is closed where the text ends. -/
theorem compile_substitute_iff {delimiter : Char} {groups : Nat} {text : List Char}
    {parts : List Part} :
    compile delimiter groups text = .substitute parts ↔
      ∃ read, tokens text = read ++ [.plain delimiter] ∧ .plain delimiter ∉ read ∧
        readParts delimiter read = some parts ∧ parts.all (Part.within groups) = true := by
  constructor
  · intro compiled
    have whole := (tokens text).takeWhile_append_dropWhile (p := (· != .plain delimiter))
    unfold compile at compiled
    cases remaining : (tokens text).dropWhile (· != .plain delimiter) with
    | nil => simp [remaining] at compiled
    | cons last rest =>
        cases rest with
        | cons next rest => simp [remaining] at compiled
        | nil =>
            have closing : last = .plain delimiter := by
              have present : (tokens text).dropWhile (· != .plain delimiter) ≠ [] := by
                simp [remaining]
              have stopped := List.head_dropWhile_not (· != Token.plain delimiter) present
              simpa [remaining] using stopped
            rw [remaining] at compiled whole
            refine ⟨_, (closing ▸ whole).symm, ?_, ?_⟩
            · intro inside
              simpa using List.mem_takeWhile_imp inside
            · cases reading : readParts delimiter
                  ((tokens text).takeWhile (· != .plain delimiter)) with
              | none => simp [reading] at compiled
              | some found =>
                  cases bounded : found.all (Part.within groups) with
                  | false => simp [reading, bounded] at compiled
                  | true =>
                      simp only [reading, bounded, if_true, Compiled.substitute.injEq] at compiled
                      exact ⟨by rw [compiled], compiled ▸ bounded⟩
  · rintro ⟨read, shape, unclosed, reading, bounded⟩
    have passed : ∀ token ∈ read, (token != .plain delimiter) = true := by
      intro token inside
      rw [bne_iff_ne]
      rintro rfl
      exact unclosed inside
    unfold compile
    rw [shape, List.dropWhile_append_of_pos passed, List.takeWhile_append_of_pos passed]
    simp [reading, bounded]

theorem mem_expansion {group : Nat → List Char} {whole : List Char} {parts : List Part}
    {char : Char} (inside : char ∈ expansion group whole parts) :
    char ∈ whole ∨ (∃ number, char ∈ group number) ∨ .literal char ∈ parts := by
  obtain ⟨part, listed, made⟩ := List.mem_flatMap.mp inside
  cases part with
  | literal other =>
      obtain rfl := List.mem_singleton.mp made
      exact Or.inr (Or.inr listed)
  | whole => exact Or.inl made
  | group number => exact Or.inr (Or.inl ⟨number, made⟩)

/-- A text whose first character no replacement can start with by itself. -/
def Ordinary (text : List Char) : Prop :=
  ∃ first rest, text = first :: rest ∧ first ≠ '&' ∧ first ≠ '\\'

theorem Ordinary.head_ne {text other rest : List Char} {char : Char} (ordinary : Ordinary text)
    (same : text ++ other = char :: rest) : char ≠ '&' ∧ char ≠ '\\' := by
  obtain ⟨first, tail, rfl, notMatch, notEscape⟩ := ordinary
  cases same
  exact ⟨notMatch, notEscape⟩

/-- Backslashes move to the front of their run. -/
theorem backslash_run (surplus : Nat) (text : List Char) :
    List.replicate surplus '\\' ++ '\\' :: text =
      '\\' :: (List.replicate surplus '\\' ++ text) := by
  induction surplus with
  | zero => rfl
  | succ surplus ih => rw [List.replicate_succ, List.cons_append, ih, List.cons_append]

theorem read_parts_cons {delimiter : Char} {token : Token} {rest : List Token} {parts : List Part}
    (reading : readParts delimiter (token :: rest) = some parts) :
    ∃ part more, token.part delimiter = some part ∧ readParts delimiter rest = some more ∧
      parts = part :: more := by
  obtain ⟨part, made, later⟩ := Option.bind_eq_some_iff.mp reading
  obtain ⟨more, read, same⟩ := Option.bind_eq_some_iff.mp later
  exact ⟨part, more, made, read, (Option.some.inj same).symm⟩

/-- A character that stands in the replacement was written there. -/
theorem literal_written {delimiter char : Char} {read : List Token} {parts : List Part}
    (reading : readParts delimiter read = some parts) (listed : .literal char ∈ parts) :
    char ∈ read.flatMap Token.text := by
  induction read generalizing parts with
  | nil =>
      cases reading
      cases listed
  | cons token rest ih =>
      obtain ⟨part, more, made, later, rfl⟩ := read_parts_cons reading
      rcases List.mem_cons.mp listed with here | there
      · apply List.mem_append_left
        cases token with
        | cut => cases made
        | plain other =>
            simp only [Token.part] at made
            split at made
            · cases here ▸ made
            · cases here ▸ made
              exact List.mem_singleton_self _
        | escaped other =>
            simp only [Token.part] at made
            split at made
            · cases here ▸ made
              exact List.mem_cons_of_mem _ (List.mem_singleton_self _)
            · split at made
              · cases here ▸ made
              · cases made
      · exact List.mem_append_right _ (ih later there)

/-- A replacement that stands for itself holds no special character. The backslashes
in front are those that escapes before it have left over. -/
theorem fixed_plain {delimiter : Char} {read : List Token} {parts : List Part}
    {group : Nat → List Char} {whole : List Char} (surplus : Nat)
    (reading : readParts delimiter read = some parts) (matched : Ordinary whole)
    (grouped : ∀ number, Ordinary (group number))
    (unescaped : ∀ char, Token.plain char ∈ read → char ≠ '\\')
    (same : expansion group whole parts =
      List.replicate surplus '\\' ++ read.flatMap Token.text) :
    surplus = 0 ∧ ∀ token ∈ read, ∃ char, token = .plain char ∧ char ≠ '&' := by
  induction read generalizing surplus parts with
  | nil =>
      cases reading
      constructor
      · cases surplus with
        | zero => rfl
        | succ surplus => cases same
      · simp
  | cons token rest ih =>
      obtain ⟨part, more, made, later, rfl⟩ := read_parts_cons reading
      have tail (surplus : Nat) := ih surplus later
        fun char inside => unescaped char (List.mem_cons_of_mem _ inside)
      have shape : part.expand group whole ++ expansion group whole more =
          List.replicate surplus '\\' ++ (token.text ++ rest.flatMap Token.text) := same
      cases token with
      | cut => cases made
      | plain char =>
          have notEscape := unescaped char List.mem_cons_self
          -- What the token stands for must be the character itself.
          have first : char ≠ '&' ∧ part = .literal char := by
            simp only [Token.part] at made
            by_cases isMatch : char = '&'
            · rw [if_pos isMatch] at made
              cases made
              cases surplus with
              | zero => exact absurd isMatch (matched.head_ne shape).1
              | succ surplus => exact absurd rfl (matched.head_ne shape).2
            · rw [if_neg isMatch] at made
              exact ⟨isMatch, (Option.some.inj made).symm⟩
          obtain ⟨notMatch, rfl⟩ := first
          cases surplus with
          | succ surplus =>
              injection shape with head
              exact absurd head notEscape
          | zero =>
              injection shape with _ remaining
              refine ⟨rfl, ?_⟩
              intro other inside
              rcases List.mem_cons.mp inside with here | there
              · exact ⟨char, here, notMatch⟩
              · exact (tail 0 remaining).2 other there
      | escaped char =>
          have front : part.expand group whole ++ expansion group whole more =
              '\\' :: (List.replicate surplus '\\' ++ char :: rest.flatMap Token.text) :=
            shape.trans (backslash_run surplus _)
          simp only [Token.part] at made
          by_cases special : char = '&' ∨ char = '\\' ∨ char = delimiter
          · rw [if_pos special] at made
            cases made
            injection front with head remaining
            -- Another backslash is owed after a pair of them has been read.
            rw [head, backslash_run] at remaining
            have owed : expansion group whole more =
                List.replicate (surplus + 1) '\\' ++ rest.flatMap Token.text := remaining
            exact absurd (tail (surplus + 1) owed).1 (Nat.succ_ne_zero _)
          · rw [if_neg special] at made
            by_cases digit : char.isDigit = true ∧ char ≠ '0'
            · rw [if_pos digit] at made
              cases made
              exact absurd rfl ((grouped _).head_ne front).2
            · rw [if_neg digit] at made
              cases made

end Reading

section Lines

/-- `sed` with a command that changes each line by itself. -/
def mapLines (change : List Char → List Char) (text : List Char) : List Char :=
  joinLines ((splitLines text).1.map change) ++
    if (splitLines text).2 = [] then [] else change (splitLines text).2

variable {change : List Char → List Char} {text : List Char}

theorem split_lines_map (unbroken : ∀ line ∈ linesOf text, '\n' ∉ change line) :
    splitLines (mapLines change text) = ((splitLines text).1.map change,
      if (splitLines text).2 = [] then [] else change (splitLines text).2) := by
  have complete : ∀ line ∈ (splitLines text).1.map change, '\n' ∉ line := by
    intro line inside
    obtain ⟨before, present, rfl⟩ := List.mem_map.mp inside
    exact unbroken before (List.mem_append_left _ present)
  have last : '\n' ∉ if (splitLines text).2 = [] then [] else change (splitLines text).2 := by
    by_cases empty : (splitLines text).2 = []
    · rw [if_pos empty]
      exact List.not_mem_nil
    · rw [if_neg empty]
      apply unbroken
      simp [linesOf, empty]
  unfold mapLines
  rw [split_lines_join complete, split_lines_open last, List.append_nil]

theorem lines_of_map (unbroken : ∀ line ∈ linesOf text, '\n' ∉ change line)
    (filled : ∀ line, line ≠ [] → change line ≠ []) :
    linesOf (mapLines change text) = (linesOf text).map change := by
  unfold linesOf
  rw [split_lines_map unbroken]
  by_cases empty : (splitLines text).2 = []
  · simp [empty]
  · simp [empty, filled _ empty]

theorem map_lines_map {second : List Char → List Char}
    (unbroken : ∀ line ∈ linesOf text, '\n' ∉ change line)
    (filled : ∀ line, line ≠ [] → change line ≠ []) :
    mapLines second (mapLines change text) = mapLines (fun line => second (change line)) text := by
  rw [mapLines, split_lines_map unbroken, mapLines, List.map_map]
  by_cases empty : (splitLines text).2 = []
  · simp [empty, Function.comp_def]
  · simp [empty, filled _ empty, Function.comp_def]

theorem map_lines_self (text : List Char) : mapLines (fun line => line) text = text := by
  unfold mapLines
  rw [List.map_id', ite_eq_right_iff.mpr Eq.symm, split_lines_text]

theorem map_lines_congr {other : List Char → List Char}
    (same : ∀ line ∈ linesOf text, change line = other line) :
    mapLines change text = mapLines other text := by
  have complete : (splitLines text).1.map change = (splitLines text).1.map other :=
    List.map_congr_left fun line inside => same line (List.mem_append_left _ inside)
  unfold mapLines
  rw [complete]
  by_cases empty : (splitLines text).2 = []
  · simp [empty]
  · rw [if_neg empty, if_neg empty, same (splitLines text).2 (by simp [linesOf, empty])]

end Lines

end NodeOs.Library.Sed
