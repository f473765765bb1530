import Mathlib.Data.List.Basic
import Mathlib.Tactic.Common

/-!
# Lines, patterns and `sed`'s `d` command

A pattern is a sequence of bracket expressions, each plain or starred, and is
anchored at the end of the line. A last line without a newline is a line to
`sed`, and stays without one.
-/

namespace NodeOs.Library.Sed

/-- Decided along the text, not over all characters. -/
instance (priority := 2000) decidableForallChar (holds : Char → Prop) [DecidablePred holds]
    (text : List Char) : Decidable (∀ char ∈ text, holds char) :=
  List.decidableBAll holds text

/-- The space class of the POSIX locale. -/
def isSpace (char : Char) : Bool :=
  char = ' ' || (9 ≤ char.toNat && char.toNat ≤ 13)

section Patterns

inductive Piece where
  | one (set : Char → Bool)
  | many (set : Char → Bool)

def Piece.exactly (char : Char) : Piece := .one (· == char)

/-- Some characters of the set are passed over. -/
def skipMany (set : Char → Bool) (rest : List Char → Bool) : List Char → Bool
  | [] => rest []
  | char :: text => rest (char :: text) || (set char && skipMany set rest text)

/-- Whether a text matches, up to its end. -/
def matchesEnd : List Piece → List Char → Bool
  | [] => List.isEmpty
  | .one set :: pieces => fun text =>
      match text with
      | [] => false
      | char :: text => set char && matchesEnd pieces text
  | .many set :: pieces => skipMany set (matchesEnd pieces)

/-- A line is searched from each of its positions. -/
def found (pieces : List Piece) : List Char → Bool :=
  matchesEnd (.many (fun _ => true) :: pieces)

/-- The texts of a pattern. -/
inductive Denotes : List Piece → List Char → Prop where
  | done : Denotes [] []
  | one {set : Char → Bool} {char : Char} {pieces : List Piece} {text : List Char}
      (member : set char = true) (rest : Denotes pieces text) :
      Denotes (.one set :: pieces) (char :: text)
  | many {set : Char → Bool} {run text : List Char} {pieces : List Piece}
      (members : ∀ char ∈ run, set char = true) (rest : Denotes pieces text) :
      Denotes (.many set :: pieces) (run ++ text)

theorem skip_many_iff (set : Char → Bool) (rest : List Char → Bool) (text : List Char) :
    skipMany set rest text = true ↔
      ∃ run back, text = run ++ back ∧ (∀ char ∈ run, set char = true) ∧ rest back = true := by
  induction text with
  | nil =>
      rw [skipMany]
      constructor
      · intro passed
        exact ⟨[], [], rfl, by simp, passed⟩
      · rintro ⟨run, back, same, -, passed⟩
        obtain ⟨rfl, rfl⟩ := List.nil_eq_append_iff.mp same
        exact passed
  | cons char text ih =>
      rw [skipMany, Bool.or_eq_true, Bool.and_eq_true, ih]
      constructor
      · rintro (passed | ⟨member, run, back, same, members, passed⟩)
        · exact ⟨[], char :: text, rfl, by simp, passed⟩
        · refine ⟨char :: run, back, by rw [same, List.cons_append], ?_, passed⟩
          intro other inside
          rcases List.mem_cons.mp inside with rfl | later
          · exact member
          · exact members other later
      · rintro ⟨run, back, same, members, passed⟩
        cases run with
        | nil =>
            left
            rw [show char :: text = back from same]
            exact passed
        | cons first run =>
            right
            cases same
            exact ⟨members char (by simp), run, back, rfl,
              fun other inside => members other (by simp [inside]), passed⟩

theorem matches_end_iff (pieces : List Piece) (text : List Char) :
    matchesEnd pieces text = true ↔ Denotes pieces text := by
  induction pieces generalizing text with
  | nil =>
      rw [matchesEnd, List.isEmpty_iff]
      constructor
      · rintro rfl
        exact .done
      · intro denoted
        cases denoted
        rfl
  | cons piece pieces ih =>
      cases piece with
      | one set =>
          constructor
          · intro passed
            cases text with
            | nil => cases passed
            | cons char text =>
                obtain ⟨member, rest⟩ := (Bool.and_eq_true _ _).mp passed
                exact .one member ((ih text).mp rest)
          · intro denoted
            cases denoted with
            | one member rest => exact (Bool.and_eq_true _ _).mpr ⟨member, (ih _).mpr rest⟩
      | many set =>
          rw [matchesEnd, skip_many_iff]
          constructor
          · rintro ⟨run, back, rfl, members, passed⟩
            exact .many members ((ih back).mp passed)
          · intro denoted
            cases denoted with
            | many members rest => exact ⟨_, _, rfl, members, (ih _).mpr rest⟩

theorem found_iff (pieces : List Piece) (text : List Char) :
    found pieces text = true ↔ ∃ front back, text = front ++ back ∧ Denotes pieces back := by
  rw [found, matchesEnd, skip_many_iff]
  constructor
  · rintro ⟨front, back, same, -, passed⟩
    exact ⟨front, back, same, (matches_end_iff pieces back).mp passed⟩
  · rintro ⟨front, back, same, denoted⟩
    exact ⟨front, back, same, fun _ _ => rfl, (matches_end_iff pieces back).mpr denoted⟩

end Patterns

section Lines

/-- The lines that end in a newline, and what follows the last one. -/
def splitLines : List Char → List (List Char) × List Char
  | [] => ([], [])
  | char :: text =>
      let (lines, rest) := splitLines text
      if char = '\n' then ([] :: lines, rest)
      else match lines with
        | [] => ([], char :: rest)
        | line :: lines => ((char :: line) :: lines, rest)

def joinLines (lines : List (List Char)) : List Char := lines.flatMap (· ++ ['\n'])

/-- What `sed` takes as the lines of a text. -/
def linesOf (text : List Char) : List (List Char) :=
  (splitLines text).1 ++ if (splitLines text).2 = [] then [] else [(splitLines text).2]

/-- `sed` with the command `/pattern/d`. -/
def sedDelete (pieces : List Piece) (text : List Char) : List Char :=
  joinLines ((splitLines text).1.filter (!found pieces ·)) ++
    if found pieces (splitLines text).2 then [] else (splitLines text).2

theorem split_lines_open {line : List Char} (noBreak : '\n' ∉ line) :
    splitLines line = ([], line) := by
  induction line with
  | nil => rfl
  | cons char line ih =>
      rw [List.mem_cons, not_or] at noBreak
      simp only [splitLines, ih noBreak.2, if_neg (Ne.symm noBreak.1)]

theorem split_lines_line {line : List Char} (noBreak : '\n' ∉ line) (text : List Char) :
    splitLines (line ++ '\n' :: text) =
      (line :: (splitLines text).1, (splitLines text).2) := by
  induction line with
  | nil => rfl
  | cons char line ih =>
      rw [List.mem_cons, not_or] at noBreak
      simp only [List.cons_append, splitLines, ih noBreak.2, if_neg (Ne.symm noBreak.1)]

theorem split_lines_join {lines : List (List Char)} (noBreak : ∀ line ∈ lines, '\n' ∉ line)
    (text : List Char) :
    splitLines (joinLines lines ++ text) =
      (lines ++ (splitLines text).1, (splitLines text).2) := by
  induction lines with
  | nil => rfl
  | cons line lines ih =>
      have shape : joinLines (line :: lines) ++ text =
          line ++ '\n' :: (joinLines lines ++ text) := by
        simp [joinLines, List.append_assoc]
      rw [shape, split_lines_line (noBreak line (by simp)),
        ih fun other inside => noBreak other (by simp [inside])]
      rfl

/-- No line has a newline in it. -/
theorem split_lines_no_break (text : List Char) :
    (∀ line ∈ (splitLines text).1, '\n' ∉ line) ∧ '\n' ∉ (splitLines text).2 := by
  induction text with
  | nil => simp [splitLines]
  | cons char text ih =>
      obtain ⟨complete, last⟩ := ih
      unfold splitLines
      cases split : splitLines text with
      | mk lines rest =>
          rw [split] at complete last
          by_cases newline : char = '\n'
          · simp only [if_pos newline]
            refine ⟨?_, last⟩
            intro line inside
            rcases List.mem_cons.mp inside with rfl | later
            · simp
            · exact complete line later
          · simp only [if_neg newline]
            cases lines with
            | nil =>
                refine ⟨by simp, ?_⟩
                rw [List.mem_cons, not_or]
                exact ⟨Ne.symm newline, last⟩
            | cons first lines =>
                refine ⟨?_, last⟩
                intro line inside
                rcases List.mem_cons.mp inside with rfl | later
                · rw [List.mem_cons, not_or]
                  exact ⟨Ne.symm newline, complete first (by simp)⟩
                · exact complete line (by simp [later])

theorem lines_of_no_break {text line : List Char} (inside : line ∈ linesOf text) :
    '\n' ∉ line := by
  obtain ⟨complete, last⟩ := split_lines_no_break text
  rcases List.mem_append.mp inside with early | final
  · exact complete line early
  · by_cases empty : (splitLines text).2 = []
    · rw [if_pos empty] at final
      cases final
    · rw [if_neg empty, List.mem_singleton] at final
      rw [final]
      exact last

/-- The line that is written after a deletion: it continues an unfinished line
that stayed. -/
def written (pieces : List Piece) (text line : List Char) : List Char :=
  (if found pieces (splitLines text).2 then [] else (splitLines text).2) ++ line

/-- The lines after a deletion and one more line. -/
theorem split_lines_delete (pieces : List Piece) (text : List Char) {line : List Char}
    (noBreak : '\n' ∉ line) :
    splitLines (sedDelete pieces text ++ line ++ ['\n']) =
      ((splitLines text).1.filter (!found pieces ·) ++ [written pieces text line], []) := by
  obtain ⟨complete, last⟩ := split_lines_no_break text
  have kept : ∀ line ∈ (splitLines text).1.filter (!found pieces ·), '\n' ∉ line :=
    fun line inside => complete line (List.mem_filter.mp inside).1
  have unbroken : '\n' ∉ written pieces text line := by
    unfold written
    rw [List.mem_append, not_or]
    refine ⟨?_, noBreak⟩
    by_cases deleted : found pieces (splitLines text).2 = true
    · rw [if_pos deleted]
      exact List.not_mem_nil
    · rw [if_neg deleted]
      exact last
  have shape : sedDelete pieces text ++ line ++ ['\n'] =
      joinLines ((splitLines text).1.filter (!found pieces ·)) ++
        (written pieces text line ++ '\n' :: []) := by
    unfold sedDelete written
    simp only [List.append_assoc]
  rw [shape, split_lines_join kept, split_lines_line unbroken]
  rfl

theorem split_lines_text (text : List Char) :
    joinLines (splitLines text).1 ++ (splitLines text).2 = text := by
  induction text with
  | nil => rfl
  | cons char text ih =>
      unfold splitLines
      cases split : splitLines text with
      | mk lines rest =>
          rw [split] at ih
          by_cases newline : char = '\n'
          · simp only [if_pos newline]
            rw [newline, ← ih]
            rfl
          · simp only [if_neg newline]
            rw [← ih]
            cases lines with
            | nil => rfl
            | cons line lines => simp [joinLines]

end Lines

end NodeOs.Library.Sed
