import Mathlib.Data.List.TakeWhile
import NodeOs.Library.Sed

/-!
# The EST host mapping that `post-build.sh` writes

The line that is appended and the pattern that deletes lines are independent of
each other. A mapping is what `hosts` makes of a line: an address and its names,
up to a `#`.
-/

namespace NodeOs.Image.EstHosts

open NodeOs.Library.Sed

/-- The address of the `sed` command, `[[:space:]]est\.[^[:space:]]+[[:space:]]*$`. -/
def estEntry : List Piece :=
  [.one isSpace, .exactly 'e', .exactly 's', .exactly 't', .exactly '.',
    .one (!isSpace ·), .many (!isSpace ·), .many isSpace]

/-- The part of `post-build.sh` that changes `/etc/hosts`. A value that is not set
is empty. -/
def postBuild (hosts server address : List Char) : List Char :=
  if server = [] ∨ address = [] then hosts
  else sedDelete estEntry hosts ++ (address ++ '\t' :: server) ++ ['\n']

/-- The two values of a run. -/
structure Build where
  server : List Char
  address : List Char
  serverFilled : server ≠ []
  addressFilled : address ≠ []
  serverWord : ∀ char ∈ server, isSpace char = false
  addressWord : ∀ char ∈ address, isSpace char = false

namespace Build

def run (build : Build) (hosts : List Char) : List Char :=
  postBuild hosts build.server build.address

def line (build : Build) : List Char := build.address ++ '\t' :: build.server

end Build

def runs (hosts : List Char) (builds : List Build) : List Char :=
  builds.foldl (fun hosts build => build.run hosts) hosts

/-- The fields of a line of `hosts`: an address and the names it is given. -/
def fields (line : List Char) : List (List Char) :=
  ((line.takeWhile (· != '#')).splitOnP isSpace).filter (· ≠ [])

/-- A name of the committed kind. -/
def estName (name : List Char) : Bool := "est.".toList.isPrefixOf name && 4 < name.length

/-- A line that gives an address to an `est.*` name or to a server of a build. -/
def estMapping (servers : List (List Char)) (line : List Char) : Bool :=
  (fields line).tail.any fun name => estName name || servers.contains name

/-- What a run should leave behind, after some others. -/
structure LastConfigured (earlier : List Build) (build : Build) (before after : List Char) :
    Prop where
  one : ∃ line,
    (linesOf after).filter (estMapping ((earlier ++ [build]).map Build.server)) = [line] ∧
      fields line = [build.address, build.server]
  stale : ∀ past ∈ earlier, past.line ≠ build.line → past.line ∉ linesOf after
  kept : (linesOf after).filter (!estMapping ((earlier ++ [build]).map Build.server) ·) =
    (linesOf before).filter (!estMapping ((earlier ++ [build]).map Build.server) ·)
  again : build.run after = after

def AlwaysLast (hosts : List Char) (builds : List Build) : Prop :=
  ∀ earlier build later, builds = earlier ++ build :: later →
    LastConfigured earlier build (runs hosts earlier) (build.run (runs hosts earlier))

/-- The pattern deletes the line that the run appends, which is a mapping. -/
structure Replaceable (build : Build) : Prop where
  named : estName build.server = true
  serverEntry : '#' ∉ build.server
  addressEntry : '#' ∉ build.address

/-- No unfinished line is left where the run appends its own. -/
def Finished (hosts : List Char) : Prop :=
  (splitLines hosts).2 = [] ∨ found estEntry (splitLines hosts).2 = true

/-- And the pattern deletes exactly the mappings. -/
structure Clean (hosts : List Char) : Prop where
  finished : Finished hosts
  entries : ∀ line ∈ linesOf hosts, found estEntry line = estMapping [] line

section Lines

theorem est_name_iff (name : List Char) :
    estName name = true ↔ ∃ rest, rest ≠ [] ∧ name = "est.".toList ++ rest := by
  unfold estName
  rw [Bool.and_eq_true, List.isPrefixOf_iff_prefix, decide_eq_true_eq]
  constructor
  · rintro ⟨⟨rest, rfl⟩, long⟩
    refine ⟨rest, ?_, rfl⟩
    rintro rfl
    exact absurd long (by decide)
  · rintro ⟨rest, filled, rfl⟩
    have long := List.length_pos_iff.mpr filled
    refine ⟨⟨rest, rfl⟩, ?_⟩
    rw [List.length_append]
    exact Nat.lt_add_of_pos_right long

/-- The non-blank characters at the end of a line, from the last one on. -/
def lastRun (text : List Char) : List Char := text.reverse.takeWhile (!isSpace ·)

theorem last_run_word (front : List Char) {blank : Char} (space : isSpace blank = true)
    {word : List Char} (single : ∀ char ∈ word, isSpace char = false) :
    lastRun (front ++ blank :: word) = word.reverse := by
  have passes : ∀ char ∈ word.reverse, (!isSpace char) = true := by
    intro char inside
    rw [single char (List.mem_reverse.mp inside)]
    rfl
  have shape : (front ++ blank :: word).reverse = word.reverse ++ blank :: front.reverse := by
    simp
  rw [lastRun, shape, List.takeWhile_append_of_pos passes, List.takeWhile_cons, space]
  simp

theorem last_run_blank (front : List Char) {blank : Char} (space : isSpace blank = true) :
    lastRun (front ++ [blank]) = [] := by
  rw [lastRun, List.reverse_append, List.reverse_singleton, List.singleton_append,
    List.takeWhile_cons, space]
  rfl

/-- The texts of the pattern. -/
theorem est_entry_iff (text : List Char) :
    Denotes estEntry text ↔ ∃ blank rest blanks, text = blank :: ("est.".toList ++ rest) ++ blanks ∧
      isSpace blank = true ∧ rest ≠ [] ∧ (∀ char ∈ rest, isSpace char = false) ∧
      ∀ char ∈ blanks, isSpace char = true := by
  constructor
  · intro denoted
    cases denoted with
    | one space denoted =>
    cases denoted with
    | one e denoted =>
    cases denoted with
    | one s denoted =>
    cases denoted with
    | one t denoted =>
    cases denoted with
    | one dot denoted =>
    cases denoted with
    | @one _ first _ _ word denoted =>
    cases denoted with
    | @many _ run _ _ words denoted =>
    cases denoted with
    | @many _ blanks _ _ spaces denoted =>
    cases denoted
    obtain rfl := eq_of_beq e
    obtain rfl := eq_of_beq s
    obtain rfl := eq_of_beq t
    obtain rfl := eq_of_beq dot
    refine ⟨_, first :: run, blanks, by simp, space, by simp, ?_, spaces⟩
    intro char inside
    rcases List.mem_cons.mp inside with rfl | later
    · simpa using word
    · simpa using words char later
  · rintro ⟨blank, rest, blanks, rfl, space, filled, word, spaces⟩
    obtain ⟨first, run, rfl⟩ := List.exists_cons_of_ne_nil filled
    have ends : Denotes [.many isSpace] (blanks ++ []) := .many spaces .done
    have run : Denotes [.many (!isSpace ·), .many isSpace] (run ++ (blanks ++ [])) :=
      .many (fun char inside => by simp [word char (by simp [inside])]) ends
    rw [List.append_nil] at run
    have name : Denotes [.one (!isSpace ·), .many (!isSpace ·), .many isSpace]
        (first :: (_ ++ blanks)) := .one (by simp [word first (by simp)]) run
    have whole : Denotes estEntry (blank :: 'e' :: 's' :: 't' :: '.' :: first :: (_ ++ blanks)) :=
      .one space (.one rfl (.one rfl (.one rfl (.one rfl name))))
    simpa using whole

/-- A line whose last word is `server` is deleted exactly if that is an `est.*` name. -/
theorem found_last_word (front : List Char) {server : List Char} (filled : server ≠ [])
    (single : ∀ char ∈ server, isSpace char = false) :
    found estEntry (front ++ '\t' :: server) = estName server := by
  have last := last_run_word front (show isSpace '\t' = true from rfl) single
  rw [Bool.eq_iff_iff, found_iff, est_name_iff]
  constructor
  · rintro ⟨front', back, same, denoted⟩
    obtain ⟨blank, rest, blanks, rfl, space, more, word, spaces⟩ := (est_entry_iff back).mp denoted
    refine ⟨rest, more, ?_⟩
    rcases List.eq_nil_or_concat blanks with rfl | ⟨blanks, final, rfl⟩
    · have named : ∀ char ∈ "est.".toList ++ rest, isSpace char = false := by
        intro char inside
        rcases List.mem_append.mp inside with dotted | later
        · exact (by decide : ∀ char ∈ "est.".toList, isSpace char = false) char dotted
        · exact word char later
      rw [same, List.append_nil, last_run_word front' space named] at last
      exact (List.reverse_injective last).symm
    · have shape : front' ++ (blank :: ("est.".toList ++ rest) ++ blanks.concat final) =
          (front' ++ (blank :: ("est.".toList ++ rest) ++ blanks)) ++ [final] := by
        simp
      rw [same, shape, last_run_blank _ (spaces final (by simp))] at last
      exact absurd (List.reverse_eq_nil_iff.mp last.symm) filled
  · rintro ⟨rest, more, rfl⟩
    refine ⟨front, _, rfl, (est_entry_iff _).mpr ⟨'\t', rest, [], by simp, rfl, more, ?_, by simp⟩⟩
    intro char inside
    exact single char (List.mem_append_right _ inside)

theorem mem_of_mem_split {text piece : List Char} {char : Char}
    (inside : piece ∈ text.splitOnP isSpace) (member : char ∈ piece) : char ∈ text := by
  induction text generalizing piece with
  | nil =>
      rw [List.splitOnP_nil, List.mem_singleton] at inside
      rwa [inside] at member
  | cons first text ih =>
      rw [List.splitOnP_cons_eq_if_modifyHead] at inside
      by_cases space : isSpace first = true
      · rw [if_pos space] at inside
        rcases List.mem_cons.mp inside with rfl | later
        · cases member
        · exact List.mem_cons_of_mem _ (ih later member)
      · rw [if_neg space] at inside
        obtain ⟨head, pieces, split⟩ :=
          List.exists_cons_of_ne_nil (List.splitOnP_ne_nil isSpace text)
        rw [split] at ih inside
        rcases List.mem_cons.mp inside with rfl | later
        · rcases List.mem_cons.mp member with rfl | earlier
          · exact List.mem_cons_self
          · exact List.mem_cons_of_mem _ (ih List.mem_cons_self earlier)
        · exact List.mem_cons_of_mem _ (ih (List.mem_cons_of_mem _ later) member)

theorem fields_no_hash {line field : List Char} (inside : field ∈ fields line) : '#' ∉ field := by
  intro member
  have front := mem_of_mem_split (List.mem_filter.mp inside).1 member
  have passed := List.mem_takeWhile_imp front
  revert passed
  decide

theorem est_mapping_named {servers : List (List Char)}
    (named : ∀ server ∈ servers, estName server = true) (line : List Char) :
    estMapping servers line = estMapping [] line := by
  unfold estMapping
  congr 1
  funext name
  rw [Bool.eq_iff_iff, Bool.or_eq_true, Bool.or_eq_true, List.contains_iff_mem]
  constructor
  · rintro (est | server)
    · exact Or.inl est
    · exact Or.inl (named name server)
  · rintro (est | server)
    · exact Or.inl est
    · cases server

end Lines

section Runs

variable (build : Build) (hosts : List Char)

/-- The lines that stay. -/
def keptLines : List (List Char) := (splitLines hosts).1.filter (!found estEntry ·)

theorem Build.line_no_break : '\n' ∉ build.line := by
  unfold Build.line
  rw [List.mem_append, List.mem_cons, not_or, not_or]
  refine ⟨?_, by decide, ?_⟩
  · intro inside
    exact absurd (build.addressWord _ inside) (by decide)
  · intro inside
    exact absurd (build.serverWord _ inside) (by decide)

theorem Build.found_line : found estEntry build.line = estName build.server :=
  found_last_word build.address build.serverFilled build.serverWord

theorem run_lines :
    splitLines (build.run hosts) =
      (keptLines hosts ++ [written estEntry hosts build.line], []) := by
  unfold Build.run postBuild
  rw [if_neg (by simp [build.serverFilled, build.addressFilled])]
  exact split_lines_delete estEntry hosts build.line_no_break

theorem lines_of_run :
    linesOf (build.run hosts) = keptLines hosts ++ [written estEntry hosts build.line] := by
  rw [linesOf, run_lines, if_pos rfl, List.append_nil]

theorem kept_not_found {line : List Char} (inside : line ∈ keptLines hosts) :
    found estEntry line = false := by
  simpa using (List.mem_filter.mp inside).2

theorem kept_mem {line : List Char} (inside : line ∈ keptLines hosts) : line ∈ linesOf hosts :=
  List.mem_append_left _ (List.mem_filter.mp inside).1

theorem filter_kept : (keptLines hosts).filter (!found estEntry ·) = keptLines hosts := by
  rw [List.filter_eq_self]
  intro line inside
  rw [kept_not_found hosts inside]
  rfl

variable {build hosts}

theorem Finished.written (finished : Finished hosts) (line : List Char) :
    written estEntry hosts line = line := by
  unfold NodeOs.Library.Sed.written
  rcases finished with empty | deleted
  · rw [empty, ite_self, List.nil_append]
  · rw [if_pos deleted, List.nil_append]

theorem Finished.kept (finished : Finished hosts) :
    (linesOf hosts).filter (!found estEntry ·) = keptLines hosts := by
  unfold linesOf
  rw [List.filter_append]
  have last : (if (splitLines hosts).2 = [] then [] else [(splitLines hosts).2]).filter
      (!found estEntry ·) = [] := by
    rcases finished with empty | deleted
    · rw [if_pos empty, List.filter_nil]
    · by_cases empty : (splitLines hosts).2 = []
      · rw [if_pos empty, List.filter_nil]
      · rw [if_neg empty, List.filter_singleton, deleted]
        rfl
  rw [last, List.append_nil]
  rfl

theorem run_finished : Finished (build.run hosts) := by
  left
  rw [run_lines]

theorem text_of_split_eq {text other : List Char} (same : splitLines text = splitLines other) :
    text = other := by
  rw [← split_lines_text text, ← split_lines_text other, same]

theorem Replaceable.fields_line (replaceable : Replaceable build) :
    fields build.line = [build.address, build.server] := by
  have noHash : '#' ∉ build.line := by
    unfold Build.line
    rw [List.mem_append, List.mem_cons, not_or, not_or]
    exact ⟨replaceable.addressEntry, by decide, replaceable.serverEntry⟩
  have whole : build.line.takeWhile (· != '#') = build.line := by
    rw [List.takeWhile_eq_self_iff]
    intro char inside
    rw [bne_iff_ne]
    rintro rfl
    exact noHash inside
  unfold fields
  rw [whole, Build.line, List.splitOnP_append_cons_of_forall_mem build.addressWord '\t' rfl,
    List.splitOnP_eq_singleton build.serverWord]
  simp [build.addressFilled, build.serverFilled]

theorem Replaceable.mapping (replaceable : Replaceable build) (servers : List (List Char)) :
    estMapping servers build.line = true := by
  unfold estMapping
  rw [replaceable.fields_line]
  simp [replaceable.named]

end Runs

section Forward

variable {earlier : List Build} {build : Build} {before hosts : List Char}

/-- Running a build a second time: its own line is deleted only if its name is an
`est.*` name, and appended without what an unfinished line put before it. -/
theorem replaceable_of_last (last : LastConfigured earlier build before (build.run before)) :
    Replaceable build ∧ Finished before := by
  obtain ⟨line, -, entry⟩ := last.one
  have again := congrArg splitLines last.again
  rw [run_lines build (build.run before), run_lines build before] at again
  have lines := congrArg Prod.fst again
  simp only [run_finished.written] at lines
  have kept : keptLines (build.run before) = keptLines before ++
      [written estEntry before build.line].filter (!found estEntry ·) := by
    rw [keptLines, run_lines, List.filter_append, filter_kept]
  rw [kept, List.append_assoc] at lines
  have appended := List.append_cancel_left lines
  by_cases deleted : found estEntry (written estEntry before build.line) = true
  · rw [List.filter_singleton, deleted] at appended
    have same : build.line = written estEntry before build.line := by
      simpa using appended
    have named : estName build.server = true := by
      rw [← build.found_line, same]
      exact deleted
    constructor
    · refine ⟨named, ?_, ?_⟩
      · have inside : build.server ∈ fields line := by simp [entry]
        exact fields_no_hash inside
      · have inside : build.address ∈ fields line := by simp [entry]
        exact fields_no_hash inside
    · unfold written at same
      by_cases final : found estEntry (splitLines before).2 = true
      · exact Or.inr final
      · rw [if_neg final] at same
        left
        simpa using same
  · rw [Bool.not_eq_true] at deleted
    rw [List.filter_singleton, deleted] at appended
    have lengths := congrArg List.length appended
    simp at lengths

/-- A line on which the pattern is wrong is one too few or one too many after the first
run. -/
theorem clean_of_last (last : LastConfigured [] build hosts (build.run hosts)) : Clean hosts := by
  obtain ⟨replaceable, finished⟩ := replaceable_of_last last
  have named : ∀ server ∈ ([] ++ [build]).map Build.server, estName server = true := by
    simpa using replaceable.named
  have mapping : estMapping (([] ++ [build]).map Build.server) = estMapping [] :=
    funext fun line => est_mapping_named named line
  have lines := lines_of_run build hosts
  rw [finished.written] at lines
  refine ⟨finished, ?_⟩
  intro line inside
  cases deleted : found estEntry line with
  | true =>
      by_contra other
      have unmapped : estMapping [] line = false := by simpa using Ne.symm other
      have stays : line ∈ (linesOf hosts).filter (!estMapping [] ·) :=
        List.mem_filter.mpr ⟨inside, by rw [unmapped]; rfl⟩
      rw [← mapping, ← last.kept, mapping, lines] at stays
      rcases List.mem_append.mp (List.mem_filter.mp stays).1 with early | appended
      · rw [kept_not_found hosts early] at deleted
        cases deleted
      · rw [List.mem_singleton.mp appended, replaceable.mapping] at unmapped
        cases unmapped
  | false =>
      by_contra other
      have mapped : estMapping [] line = true := by simpa using Ne.symm other
      obtain ⟨only, single, -⟩ := last.one
      rw [mapping, lines, List.filter_append, List.filter_singleton, replaceable.mapping] at single
      have stays : line ∈ keptLines hosts := by
        rw [← finished.kept]
        exact List.mem_filter.mpr ⟨inside, by rw [deleted]; rfl⟩
      have more : line ∈ (keptLines hosts).filter (estMapping []) :=
        List.mem_filter.mpr ⟨stays, mapped⟩
      have lengths : ((keptLines hosts).filter (estMapping []) ++ [build.line]).length = 1 :=
        congrArg List.length single
      have positive := List.length_pos_of_mem more
      rw [List.length_append, List.length_singleton] at lengths
      omega

end Forward

section Backward

variable {earlier : List Build} {build : Build} {before hosts : List Char}

theorem kept_unmapped (clean : Clean before) {line : List Char}
    (inside : line ∈ keptLines before) : estMapping [] line = false := by
  rw [← clean.entries line (kept_mem before inside)]
  exact kept_not_found before inside

theorem run_clean (clean : Clean before) (replaceable : Replaceable build) :
    Clean (build.run before) := by
  refine ⟨run_finished, ?_⟩
  intro line inside
  rw [lines_of_run, clean.finished.written] at inside
  rcases List.mem_append.mp inside with kept | appended
  · rw [kept_not_found before kept, kept_unmapped clean kept]
  · rw [List.mem_singleton.mp appended, build.found_line, replaceable.named, replaceable.mapping]

theorem runs_clean (clean : Clean hosts) (replaceable : ∀ build ∈ earlier, Replaceable build) :
    Clean (runs hosts earlier) := by
  unfold runs
  induction earlier generalizing hosts with
  | nil => exact clean
  | cons first earlier ih =>
      rw [List.foldl_cons]
      exact ih (run_clean clean (replaceable first List.mem_cons_self))
        fun build inside => replaceable build (List.mem_cons_of_mem _ inside)

theorem last_of_clean (clean : Clean before) (past : ∀ build ∈ earlier, Replaceable build)
    (replaceable : Replaceable build) :
    LastConfigured earlier build before (build.run before) := by
  have named : ∀ server ∈ (earlier ++ [build]).map Build.server, estName server = true := by
    intro server inside
    obtain ⟨other, member, rfl⟩ := List.mem_map.mp inside
    rcases List.mem_append.mp member with early | final
    · exact (past other early).named
    · rw [List.mem_singleton.mp final]
      exact replaceable.named
  have mapping : estMapping ((earlier ++ [build]).map Build.server) = estMapping [] :=
    funext fun line => est_mapping_named named line
  have lines := lines_of_run build before
  rw [clean.finished.written] at lines
  have mappings : (linesOf (build.run before)).filter (estMapping []) = [build.line] := by
    have without : (keptLines before).filter (estMapping []) = [] := by
      rw [List.filter_eq_nil_iff]
      intro line inside
      rw [kept_unmapped clean inside]
      exact Bool.false_ne_true
    rw [lines, List.filter_append, without, List.filter_singleton, replaceable.mapping]
    rfl
  constructor
  · refine ⟨build.line, ?_, replaceable.fields_line⟩
    rw [mapping, mappings]
  · intro other member different inside
    have mapped : other.line ∈ (linesOf (build.run before)).filter (estMapping []) :=
      List.mem_filter.mpr ⟨inside, (past other member).mapping []⟩
    rw [mappings, List.mem_singleton] at mapped
    exact different mapped
  · have others : (linesOf before).filter (!estMapping [] ·) = keptLines before := by
      rw [← clean.finished.kept]
      apply List.filter_congr
      intro line inside
      rw [clean.entries line inside]
    have unmapped : (keptLines before).filter (!estMapping [] ·) = keptLines before := by
      rw [List.filter_eq_self]
      intro line inside
      rw [kept_unmapped clean inside]
      rfl
    rw [mapping, others, lines, List.filter_append, unmapped, List.filter_singleton,
      replaceable.mapping]
    exact List.append_nil _
  · apply text_of_split_eq
    have kept : keptLines (build.run before) = keptLines before := by
      rw [keptLines, run_lines, clean.finished.written, List.filter_append, filter_kept,
        List.filter_singleton, build.found_line, replaceable.named]
      exact List.append_nil _
    rw [run_lines build (build.run before), kept, run_finished.written, run_lines build before,
      clean.finished.written]

end Backward

/-- The end of the committed file. -/
def sampleHosts : List Char :=
  "::1\t\tlocalhost ip6-localhost ip6-loopback\n2001:db8::61\test.example.com\n".toList

/-- A server whose name is not an `est.*` name. -/
def sampleBuild : Build where
  server := "ca.example.com".toList
  address := "2001:db8::1".toList
  serverFilled := by decide
  addressFilled := by decide
  serverWord := by decide
  addressWord := by decide

end NodeOs.Image.EstHosts
