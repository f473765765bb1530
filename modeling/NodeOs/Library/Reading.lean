import Mathlib.Data.List.Basic
import Mathlib.Tactic.Common

/-!
# Readers of texts

A reader takes a value from the front of a text and leaves the rest. It reads a
text as a value if it does so in front of everything that may follow; a text is
torn for it if it reads no beginning of the text that is not the whole. Both
properties are put together from those of the parts.
-/

namespace NodeOs.Library.Reading

variable {Symbol Value Other : Type*}

abbrev Reader (Symbol Value : Type*) := List Symbol → Option (Value × List Symbol)

def andThen (first : Reader Symbol Value) (next : Value → Reader Symbol Other) :
    Reader Symbol Other := fun input =>
  (first input).bind fun read => next read.1 read.2

def map (change : Value → Other) (reader : Reader Symbol Value) : Reader Symbol Other :=
  fun input => (reader input).map fun read => (change read.1, read.2)

/-- A value that is not accepted ends the reading. -/
def choose (change : Value → Option Other) (reader : Reader Symbol Value) : Reader Symbol Other :=
  fun input => (reader input).bind fun read => (change read.1).map fun value => (value, read.2)

def exactly [DecidableEq Symbol] (symbol : Symbol) : Reader Symbol Unit
  | [] => none
  | first :: rest => if first = symbol then some ((), rest) else none

/-- Spaces in front of the value are passed over. -/
def spaced (space : Symbol → Bool) (reader : Reader Symbol Value) : Reader Symbol Value :=
  fun input => reader (input.dropWhile space)

/-- `follows` says in front of which texts the reading has to work. -/
def Reads (follows : List Symbol → Prop) (reader : Reader Symbol Value) (text : List Symbol)
    (value : Value) : Prop :=
  ∀ rest, follows rest → reader (text ++ rest) = some (value, rest)

def Torn (reader : Reader Symbol Value) (text : List Symbol) : Prop :=
  ∀ front back, text = front ++ back → back ≠ [] → reader front = none

def Anything (_ : List Symbol) : Prop := True

section Reads

variable {follows later : List Symbol → Prop} {reader first : Reader Symbol Value}
  {next : Value → Reader Symbol Other} {text front back : List Symbol} {value : Value}
  {other : Other}

theorem Reads.anything (reads : Reads Anything reader text value) (rest : List Symbol) :
    reader (text ++ rest) = some (value, rest) :=
  reads rest trivial

theorem Reads.weaken (reads : Reads follows reader text value)
    (fewer : ∀ rest, later rest → follows rest) : Reads later reader text value :=
  fun rest after => reads rest (fewer rest after)

theorem Reads.andThen (head : Reads follows first front value)
    (tail : Reads later (next value) back other)
    (meets : ∀ rest, later rest → follows (back ++ rest)) :
    Reads later (andThen first next) (front ++ back) other := by
  intro rest after
  rw [Reading.andThen, List.append_assoc, head _ (meets rest after), Option.bind_some]
  exact tail rest after

theorem Reads.map (reads : Reads follows reader text value) (change : Value → Other) :
    Reads follows (map change reader) text (change value) := by
  intro rest after
  rw [Reading.map, reads rest after, Option.map_some]

theorem Reads.choose {change : Value → Option Other} (reads : Reads follows reader text value)
    (accepted : change value = some other) : Reads follows (choose change reader) text other := by
  intro rest after
  rw [Reading.choose, reads rest after, Option.bind_some, accepted, Option.map_some]

theorem reads_exactly [DecidableEq Symbol] (symbol : Symbol) :
    Reads Anything (exactly symbol) [symbol] () := by
  intro rest _
  simp [exactly]

theorem dropWhile_spaces {space : Symbol → Bool} {indent : List Symbol}
    (spaces : ∀ symbol ∈ indent, space symbol = true)
    (starts : ∀ symbol ∈ text.head?, space symbol = false) :
    (indent ++ text).dropWhile space = text := by
  rw [List.dropWhile_append_of_pos spaces]
  cases text with
  | nil => rfl
  | cons symbol rest => exact List.dropWhile_cons_of_neg (by simp [starts symbol rfl])

theorem Reads.spaced {space : Symbol → Bool} {indent : List Symbol}
    (reads : Reads follows reader text value) (spaces : ∀ symbol ∈ indent, space symbol = true)
    (starts : ∃ symbol, text.head? = some symbol ∧ space symbol = false) :
    Reads follows (spaced space reader) (indent ++ text) value := by
  obtain ⟨symbol, head, solid⟩ := starts
  intro rest after
  rw [Reading.spaced, List.append_assoc, dropWhile_spaces spaces, reads rest after]
  intro other same
  rw [List.head?_append, head] at same
  rw [← Option.some.inj same]
  exact solid

end Reads

section Torn

variable {reader first : Reader Symbol Value} {next : Value → Reader Symbol Other}
  {text front back : List Symbol} {value : Value}

/-- A beginning of two texts ends in the first or is the first and a beginning of
the second. -/
theorem Torn.andThen (head : Torn first front) (reads : Reads Anything first front value)
    (tail : Torn (next value) back) : Torn (andThen first next) (front ++ back) := by
  intro cut rest same remains
  rw [Reading.andThen]
  rcases List.append_eq_append_iff.mp same with ⟨middle, shape, split⟩ | ⟨middle, shape, split⟩
  · rw [shape, reads.anything, Option.bind_some]
    exact tail middle rest split remains
  · by_cases whole : middle = []
    · rw [whole, List.append_nil] at shape
      rw [whole, List.nil_append] at split
      rw [← shape, ← List.append_nil front, reads.anything, Option.bind_some]
      exact tail [] back rfl (split ▸ remains)
    · rw [head cut middle shape whole, Option.bind_none]

theorem Torn.map (torn : Torn reader text) (change : Value → Other) :
    Torn (map change reader) text := by
  intro front back same remains
  rw [Reading.map, torn front back same remains, Option.map_none]

theorem Torn.choose (torn : Torn reader text) (change : Value → Option Other) :
    Torn (choose change reader) text := by
  intro front back same remains
  rw [Reading.choose, torn front back same remains, Option.bind_none]

theorem torn_exactly [DecidableEq Symbol] (symbol : Symbol) : Torn (exactly symbol) [symbol] := by
  intro front back same remains
  cases front with
  | nil => rfl
  | cons first rest =>
      injection same with _ later
      exact absurd (List.nil_eq_append_iff.mp later).2 remains

theorem Torn.spaced {space : Symbol → Bool} {indent : List Symbol} (torn : Torn reader text)
    (spaces : ∀ symbol ∈ indent, space symbol = true)
    (starts : ∃ symbol, text.head? = some symbol ∧ space symbol = false) :
    Torn (spaced space reader) (indent ++ text) := by
  obtain ⟨symbol, head, solid⟩ := starts
  have filled : text ≠ [] := by
    rintro rfl
    cases head
  intro cut rest same remains
  rw [Reading.spaced]
  rcases List.append_eq_append_iff.mp same with ⟨middle, shape, split⟩ | ⟨middle, shape, split⟩
  · have start : ∀ other ∈ middle.head?, space other = false := by
      intro other found
      cases middle with
      | nil => cases found
      | cons first middle =>
          rw [split] at head
          rw [← Option.some.inj found]
          exact (Option.some.inj head) ▸ solid
    rw [shape, dropWhile_spaces spaces start]
    exact torn middle rest split remains
  · have inside : ∀ other ∈ cut, space other = true := fun other listed =>
      spaces other (shape ▸ List.mem_append_left _ listed)
    have nothing : cut.dropWhile space = [] := by
      rw [← List.append_nil cut, dropWhile_spaces inside (by simp)]
    rw [nothing]
    exact torn [] text rfl filled

end Torn

end NodeOs.Library.Reading
