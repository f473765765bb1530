import Mathlib.Data.List.DropRight
import NodeOs.Library.YamlScalar

/-!
# Block-style YAML documents

A reader for documents made of block mappings, block sequences and one-line
plain scalars: the text is cut into lines, each line into tokens that carry
their column, and the columns give the tree. Quoted and flow styles, anchors,
tags, document markers and scalars over several lines are outside the subset
and make the reader fail. So does a key that occurs twice in one mapping.
-/

namespace NodeOs.Library.YamlBlock

open NodeOs.Library.YamlScalar

inductive Yaml where
  | scalar (value : Scalar)
  | seq (items : List Yaml)
  | map (entries : List (List Char × Yaml))
  deriving Repr

/-- The lines of a text without their breaks. A break is a line feed, a carriage
return, or both in this order. -/
def lines : List Char → List (List Char)
  | [] => []
  | char :: rest =>
      if char = '\r' ∧ rest.head? = some '\n' then lines rest
      else if isBreak char then [] :: lines rest
      else match lines rest with
        | [] => [[char]]
        | line :: more => (char :: line) :: more

inductive Item where
  | dash
  | entry (key : List Char) (value : Option (List Char))
  | plain (text : List Char)
  deriving DecidableEq, Repr

structure Token where
  column : Nat
  item : Item
  deriving DecidableEq, Repr

/-- Cut a line at its first mapping indicator: a colon before white space or the
end of the line, and not in a comment. -/
def splitKey : List Char → Option (List Char × List Char)
  | [] => none
  | [char] => if char = ':' then some ([], []) else none
  | char :: next :: rest =>
      if char = ':' ∧ isWhite next then some ([], next :: rest)
      else if isWhite char ∧ next = '#' then none
      else (splitKey (next :: rest)).map fun (key, after) => (char :: key, after)

/-- What follows a mapping indicator: a comment or nothing, or a scalar. -/
def scanValue (text : List Char) : Option (Option (List Char)) :=
  match text.dropWhile isWhite with
  | [] => some none
  | '#' :: _ => some none
  | value => (plainScalar value).map some

/-- A key. Its last characters may be colons, because the mapping indicator that
follows is no white space. -/
def plainKey (key : List Char) : Option (List Char) :=
  let body := key.rdropWhile (· = ':')
  if startsPlain (key ++ [':']) then
    (scanPlain body).map fun scalar => if body = key then scalar else key
  else none

def scanEntry (column : Nat) (text : List Char) : Option (List Token) :=
  match splitKey text with
  | some (key, after) => do
      let key ← plainKey key
      let value ← scanValue after
      some [⟨column, .entry key value⟩]
  | none => (plainScalar text).map fun scalar => [⟨column, .plain scalar⟩]

def scanLine (column : Nat) : List Char → Option (List Token)
  | [] => some []
  | '#' :: _ => some []
  | ' ' :: rest => scanLine (column + 1) rest
  | ['-'] => some [⟨column, .dash⟩]
  | '-' :: ' ' :: rest => (scanLine (column + 2) rest).map (⟨column, .dash⟩ :: ·)
  | text => scanEntry column text

def scan : List (List Char) → Option (List Token)
  | [] => some []
  | line :: more => do
      let tokens ← scanLine 0 line
      let others ← scan more
      some (tokens ++ others)

mutual

/-- `fuel` bounds the number of nodes still to be read. -/
def parseNode (fuel : Nat) (tokens : List Token) : Option (Yaml × List Token) :=
  match fuel, tokens with
  | 0, _ => none
  | _ + 1, [] => some (.scalar .null, [])
  | fuel + 1, ⟨column, .dash⟩ :: rest => do
      let (items, after) ← parseItems fuel column (⟨column, .dash⟩ :: rest)
      some (.seq items, after)
  | fuel + 1, ⟨column, .entry key value⟩ :: rest => do
      let (entries, after) ← parseEntries fuel column (⟨column, .entry key value⟩ :: rest)
      some (.map entries, after)
  | _ + 1, ⟨_, .plain text⟩ :: rest => some (.scalar (resolve text), rest)
  termination_by structural fuel

/-- The items whose dashes stand in `column`. -/
def parseItems (fuel column : Nat) (tokens : List Token) : Option (List Yaml × List Token) :=
  match fuel, tokens with
  | 0, _ => none
  | fuel + 1, ⟨own, .dash⟩ :: rest =>
      if own ≠ column then some ([], ⟨own, .dash⟩ :: rest)
      else do
        let (item, after) ← parseBelow fuel column rest
        let (items, after) ← parseItems fuel column after
        some (item :: items, after)
  | _ + 1, tokens => some ([], tokens)
  termination_by structural fuel

/-- The entries whose keys stand in `column`. A sequence may stand in the same
column as the key it belongs to. -/
def parseEntries (fuel column : Nat) (tokens : List Token) :
    Option (List (List Char × Yaml) × List Token) :=
  match fuel, tokens with
  | 0, _ => none
  | fuel + 1, ⟨own, .entry key value⟩ :: rest =>
      if own ≠ column then some ([], ⟨own, .entry key value⟩ :: rest)
      else do
        let (node, after) ← match value, rest with
          | some text, _ => some (.scalar (resolve text), rest)
          | none, ⟨next, .dash⟩ :: _ =>
              if next = column then parseNode fuel rest else parseBelow fuel column rest
          | none, _ => parseBelow fuel column rest
        let (entries, after) ← parseEntries fuel column after
        if (entries.map Prod.fst).contains key then none
        else some ((key, node) :: entries, after)
  | _ + 1, tokens => some ([], tokens)
  termination_by structural fuel

/-- A node that must stand further right than `column`, or nothing at all. -/
def parseBelow (fuel column : Nat) (tokens : List Token) : Option (Yaml × List Token) :=
  match fuel, tokens with
  | 0, _ => none
  | _ + 1, [] => some (.scalar .null, [])
  | fuel + 1, token :: rest =>
      if column < token.column then parseNode fuel (token :: rest)
      else some (.scalar .null, token :: rest)
  termination_by structural fuel

end

/-- Every token opens at most one node, and a node takes at most two calls. -/
def parse (tokens : List Token) : Option Yaml :=
  match parseNode (3 * tokens.length + 3) tokens with
  | some (node, []) => some node
  | _ => none

def read (text : List Char) : Option Yaml := do
  let tokens ← scan (lines text)
  parse tokens

theorem lines_cons {char : Char} (text : List Char) (kept : isBreak char = false) :
    lines (char :: text) =
      match lines text with
      | [] => [[char]]
      | line :: more => (char :: line) :: more := by
  have notReturn : char ≠ '\r' := by rintro rfl; simp [isBreak] at kept
  simp [lines, notReturn, kept]

theorem lines_feed (text : List Char) : lines ('\n' :: text) = [] :: lines text := by
  simp [lines, isBreak]

theorem lines_append {line : List Char} (text : List Char)
    (kept : ∀ char ∈ line, isBreak char = false) :
    lines (line ++ '\n' :: text) = line :: lines text := by
  induction line with
  | nil => exact lines_feed text
  | cons char line ih =>
      have tail := ih fun other member => kept other (List.mem_cons_of_mem _ member)
      rw [List.cons_append, lines_cons _ (kept char (by simp)), tail]

theorem lines_without_breaks (text : List Char) :
    ∀ line ∈ lines text, ∀ char ∈ line, isBreak char = false := by
  induction text with
  | nil => simp [lines]
  | cons char rest ih =>
      simp only [lines]
      split
      · exact ih
      split
      · intro line member
        rcases List.mem_cons.mp member with rfl | later
        · simp
        · exact ih line later
      · rename_i notBreak
        have kept : isBreak char = false := by simpa using notBreak
        cases found : lines rest with
        | nil => simpa using kept
        | cons first more =>
            rw [found] at ih
            intro line member
            rcases List.mem_cons.mp member with rfl | later
            · intro other inside
              rcases List.mem_cons.mp inside with rfl | deeper
              · exact kept
              · exact ih first (by simp) other deeper
            · exact ih line (List.mem_cons_of_mem _ later)

/-- The lines of a text that is made of lines. -/
theorem lines_flat {texts : List (List Char)}
    (kept : ∀ text ∈ texts, ∀ char ∈ text, isBreak char = false) :
    lines (texts.flatMap (· ++ ['\n'])) = texts := by
  induction texts with
  | nil => rfl
  | cons text texts ih =>
      have tail := ih fun other member => kept other (List.mem_cons_of_mem _ member)
      rw [List.flatMap_cons, List.append_assoc, List.singleton_append,
        lines_append _ (kept text (by simp)), tail]

theorem scan_cons {line : List Char} {tokens : List Token} (more : List (List Char))
    (read : scanLine 0 line = some tokens) :
    scan (line :: more) = (scan more).map (tokens ++ ·) := by
  simp only [scan, read, Option.bind_eq_bind, Option.bind_some]
  cases scan more <;> rfl

theorem scan_fails {line : List Char} (more : List (List Char)) (broken : scanLine 0 line = none) :
    scan (line :: more) = none := by
  simp only [scan, broken, Option.bind_eq_bind, Option.bind_none]

theorem scan_append {front back : List (List Char)} {before : List Token}
    (read : scan front = some before) :
    scan (front ++ back) = (scan back).map (before ++ ·) := by
  induction front generalizing before with
  | nil =>
      cases read
      cases found : scan back <;> simp [found]
  | cons line front ih =>
      simp only [scan, Option.bind_eq_bind, Option.bind_eq_some_iff] at read
      obtain ⟨tokens, first, others, rest, joined⟩ := read
      cases joined
      rw [List.cons_append, scan_cons _ first, ih rest]
      cases scan back <;> simp

theorem split_key_append {key : List Char} (text : List Char)
    (clean : ∀ char ∈ key, char ≠ ':' ∧ isWhite char = false) :
    splitKey (key ++ ':' :: ' ' :: text) = some (key, ' ' :: text) := by
  induction key with
  | nil => simp [splitKey, isWhite]
  | cons char key ih =>
      obtain ⟨noColon, noWhite⟩ := clean char (by simp)
      have tail := ih fun other member => clean other (List.mem_cons_of_mem _ member)
      cases joined : key ++ ':' :: ' ' :: text with
      | nil => simp at joined
      | cons next rest =>
          rw [joined] at tail
          simp [splitKey, joined, noColon, noWhite, tail]

theorem scan_line_spaces (column indent : Nat) (text : List Char) :
    scanLine column (List.replicate indent ' ' ++ text) = scanLine (column + indent) text := by
  induction indent generalizing column with
  | zero => rfl
  | succ indent ih =>
      rw [List.replicate_succ, List.cons_append]
      simp only [scanLine, ih]
      congr 1
      omega

/-- A key, the mapping indicator, and a value that is not a comment. -/
theorem scan_line_entry (column : Nat) {first char : Char} {key text : List Char}
    (clean : ∀ other ∈ first :: key, other ≠ ':' ∧ isWhite other = false)
    (opening : first ≠ '#' ∧ first ≠ '-') (read : plainKey (first :: key) = some (first :: key))
    (value : isWhite char = false ∧ char ≠ '#') :
    scanLine column (first :: key ++ ':' :: ' ' :: char :: text) =
      (plainScalar (char :: text)).map fun value => [⟨column, .entry (first :: key) value⟩] := by
  have notSpace : first ≠ ' ' := by
    rintro rfl
    simpa [isWhite] using (clean ' ' (by simp)).2
  have entry : scanLine column (first :: key ++ ':' :: ' ' :: char :: text) =
      scanEntry column (first :: key ++ ':' :: ' ' :: char :: text) := by
    simp [scanLine, opening.1, opening.2, notSpace]
  have scalar : scanValue (' ' :: char :: text) = (plainScalar (char :: text)).map some := by
    have skipped : (' ' :: char :: text).dropWhile isWhite = char :: text := by
      rw [List.dropWhile_cons_of_pos rfl, List.dropWhile_cons_of_neg (by simp [value.1])]
    simp only [scanValue, skipped]
    split
    · contradiction
    · rename_i comment
      exact absurd (List.head_eq_of_cons_eq comment) value.2
    · rfl
  rw [entry, scanEntry, split_key_append _ clean]
  simp only [read, scalar, Option.bind_eq_bind, Option.bind_some]
  cases plainScalar (char :: text) <;> rfl

section Colons

variable {text : List Char}

/-- Without white space only a colon at the end of the line opens a mapping. -/
theorem split_key_none (clean : ∀ char ∈ text, isWhite char = false)
    (noColon : text.getLast? ≠ some ':') : splitKey text = none := by
  induction text with
  | nil => rfl
  | cons char rest ih =>
      cases rest with
      | nil =>
          have last : char ≠ ':' := by simpa using noColon
          simp [splitKey, last]
      | cons next rest =>
          have tail := ih (fun other member => clean other (List.mem_cons_of_mem _ member))
            (by simpa using noColon)
          simp [splitKey, clean char (by simp), clean next (by simp), tail]

theorem split_key_trailing (clean : ∀ char ∈ text, isWhite char = false) :
    splitKey (text ++ [':']) = some (text, []) := by
  induction text with
  | nil => rfl
  | cons char rest ih =>
      have tail := ih fun other member => clean other (List.mem_cons_of_mem _ member)
      have here := clean char (by simp)
      cases rest with
      | nil => simp [splitKey, isWhite]
      | cons next rest =>
          rw [List.cons_append] at tail
          simp [splitKey, here, clean next (by simp), tail]

/-- A key of plain characters stands for itself, whatever colons it ends in. -/
theorem plain_key_of_plain (plain : ∀ char ∈ text, isPlainChar char = true)
    (starts : startsPlain (text ++ [':']) = true) : plainKey text = some text := by
  have front : text.rdropWhile (· = ':') <+: text := List.rdropWhile_prefix _ text
  have body : scanPlain (text.rdropWhile (· = ':')) = some (text.rdropWhile (· = ':')) := by
    apply (scan_plain_eq_self _).mpr
    apply is_plain_tail_of_plain
    · intro char member
      exact plain char (front.subset member)
    · intro last
      have filled : text.rdropWhile (· = ':') ≠ [] := by
        intro empty
        simp [empty] at last
      rw [List.getLast?_eq_some_getLast filled] at last
      exact List.rdropWhile_last_not _ text filled (by simpa using last)
  unfold plainKey
  simp only [starts, if_true, body, Option.map_some]
  split
  · rename_i same
    rw [same]
  · rfl

end Colons

theorem scan_line_dash (column : Nat) (text : List Char) :
    scanLine column ('-' :: ' ' :: text) =
      (scanLine (column + 2) text).map (⟨column, .dash⟩ :: ·) := by
  simp [scanLine]

/-- Nothing but white space, comments and dashes is treated before a line's entry. -/
theorem scan_line_text (column : Nat) {first : Char} (rest : List Char)
    (opening : first ≠ ' ' ∧ first ≠ '#' ∧ first ≠ '-') :
    scanLine column (first :: rest) = scanEntry column (first :: rest) := by
  simp [scanLine, opening]

section Parsing

variable {fuel column : Nat} {key : List Char} {rest after : List Token}
  {entries : List (List Char × Yaml)}

theorem parse_entries_scalar {text : List Char}
    (others : parseEntries fuel column rest = some (entries, after))
    (fresh : key ∉ entries.map Prod.fst) :
    parseEntries (fuel + 1) column (⟨column, .entry key (some text)⟩ :: rest) =
      some ((key, .scalar (resolve text)) :: entries, after) := by
  have unique : (entries.map Prod.fst).contains key = false := by simpa using fresh
  simp only [parseEntries, ne_eq, not_true_eq_false, if_false, Option.bind_eq_bind,
    Option.bind_some, others, unique]
  rfl

theorem parse_node_entry {value : Option (List Char)}
    (read : parseEntries fuel column (⟨column, .entry key value⟩ :: rest) = some (entries, after)) :
    parseNode (fuel + 1) (⟨column, .entry key value⟩ :: rest) = some (.map entries, after) := by
  simp only [parseNode, read, Option.bind_eq_bind, Option.bind_some]

theorem parse_node_dash {items : List Yaml}
    (read : parseItems fuel column (⟨column, .dash⟩ :: rest) = some (items, after)) :
    parseNode (fuel + 1) (⟨column, .dash⟩ :: rest) = some (.seq items, after) := by
  simp only [parseNode, read, Option.bind_eq_bind, Option.bind_some]

/-- The value of the key is the node below it, if there is one. -/
theorem parse_entries_open {token : Token} {middle : List Token} {value : Yaml}
    (apart : token.column ≠ column)
    (below : parseBelow fuel column (token :: rest) = some (value, middle))
    (others : parseEntries fuel column middle = some (entries, after))
    (fresh : key ∉ entries.map Prod.fst) :
    parseEntries (fuel + 1) column (⟨column, .entry key none⟩ :: token :: rest) =
      some ((key, value) :: entries, after) := by
  have unique : (entries.map Prod.fst).contains key = false := by simpa using fresh
  obtain ⟨own, item⟩ := token
  cases item <;>
    simp only [parseEntries, ne_eq, not_true_eq_false, if_false, Option.bind_eq_bind,
      Option.bind_some, if_neg apart, below, others, unique] <;> rfl

theorem parse_below_deeper {token : Token} {result : Option (Yaml × List Token)}
    (deeper : column < token.column) (node : parseNode fuel (token :: rest) = result) :
    parseBelow (fuel + 1) column (token :: rest) = result := by
  simp only [parseBelow, if_pos deeper, node]

theorem parse_below_empty {token : Token} (left : token.column ≤ column) :
    parseBelow (fuel + 1) column (token :: rest) = some (.scalar .null, token :: rest) := by
  simp only [parseBelow, if_neg (Nat.not_lt.mpr left)]

theorem parse_entries_end {token : Token} (other : token.column ≠ column) :
    parseEntries (fuel + 1) column (token :: rest) = some ([], token :: rest) := by
  obtain ⟨own, item⟩ := token
  cases item <;> simp [parseEntries, other]

theorem parse_items_item {middle : List Token} {node : Yaml} {items : List Yaml}
    (item : parseBelow fuel column rest = some (node, middle))
    (others : parseItems fuel column middle = some (items, after)) :
    parseItems (fuel + 1) column (⟨column, .dash⟩ :: rest) = some (node :: items, after) := by
  simp only [parseItems, ne_eq, not_true_eq_false, if_false, Option.bind_eq_bind,
    Option.bind_some, item, others]

theorem parse_items_end {token : Token} (other : token.column ≠ column) :
    parseItems (fuel + 1) column (token :: rest) = some ([], token :: rest) := by
  obtain ⟨own, item⟩ := token
  cases item <;> simp [parseItems, other]

end Parsing

end NodeOs.Library.YamlBlock
