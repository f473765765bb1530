import Mathlib.Data.List.Forall2
import NodeOs.Library.SedSubstitute

/-!
# The values that `post-build.sh` writes into `noded.yaml`

Each value is spliced into the replacement of an `s` command. The command itself
has the POSIX meaning; what an implementation makes of a text that goes beyond it
(an escape whose meaning is not specified, or flags and commands after a delimiter
in the value) is left to it.
-/

namespace NodeOs.Image.NodedConfig

open NodeOs.Library.Sed

inductive Profile where
  | k8s
  | kvm
  deriving DecidableEq

def Profile.text : Profile → List Char
  | .k8s => "k8s".toList
  | .kvm => "kvm".toList

/-- The variables `NODEOS_NODE_ID`, `NODEOS_EST_SERVER` and `NODEOS_BOOTSTRAP_TOKEN`. -/
inductive Setting where
  | nodeId
  | estServer
  | bootstrapToken
  deriving DecidableEq

def profileKey : List Char := "profile".toList

def Setting.key : Setting → List Char
  | .nodeId => "nodeId".toList
  | .estServer => "serverUrl".toList
  | .bootstrapToken => "bearerToken".toList

/-- What is written in front of the value. -/
def Setting.lead : Setting → List Char
  | .estServer => "https://".toList
  | _ => []

/-- Which scripts an implementation accepts that go beyond a substitution, and what
it makes of a file then. -/
structure Sed where
  takes : List Char → Bool
  does : List Char → List Char → List Char → List Char

/-- The group of `^([[:space:]]*key:).*` on a line that matches it. -/
def keyed (key line : List Char) : Option (List Char) :=
  if (key ++ [':']).isPrefixOf (line.dropWhile isSpace) then
    some (line.takeWhile isSpace ++ key ++ [':'])
  else none

/-- The command on one line; the match is the whole line. -/
def settle (key : List Char) (parts : List Part) (line : List Char) : List Char :=
  match keyed key line with
  | some head => expansion (fun _ => head) line parts
  | none => line

/-- From the replacement on, `s|^([[:space:]]*key:).*|\1 text|`. -/
def script (text : List Char) : List Char := "\\1 ".toList ++ text ++ ['|']

def substitute (sed : Sed) (key text file : List Char) : Option (List Char) :=
  match compile '|' 1 (script text) with
  | .refused => none
  | .substitute parts => some (mapLines (settle key parts) file)
  | .beyond => if sed.takes (script text) then some (sed.does key (script text) file) else none

/-- A variable that is not set is empty. -/
def substituteSetting (sed : Sed) (setting : Setting) (value file : List Char) :
    Option (List Char) :=
  if value = [] then some file else substitute sed setting.key (setting.lead ++ value) file

/-- The part of `post-build.sh` that changes `noded.yaml`. An error of `sed` ends the
script. -/
def postBuild (sed : Sed) (profile : Profile) (value : Setting → List Char) (file : List Char) :
    Option (List Char) := do
  let file ← substitute sed profileKey profile.text file
  let file ← substituteSetting sed .nodeId (value .nodeId) file
  let file ← substituteSetting sed .estServer (value .estServer) file
  substituteSetting sed .bootstrapToken (value .bootstrapToken) file

/-- Three values, each of them one line. -/
structure Values where
  text : Setting → List Char
  filled : ∀ setting, text setting ≠ []
  single : ∀ setting, '\n' ∉ text setting

/-- The file has one line for each key. -/
def OneEach (file : List Char) : Prop :=
  ∀ key ∈ profileKey :: [Setting.nodeId, .estServer, .bootstrapToken].map Setting.key,
    ((linesOf file).filter fun line => (keyed key line).isSome).length = 1

/-- What should become of a line; of the profile's, nothing is said. -/
structure LineCarried (values : Values) (before after : List Char) : Prop where
  given : ∀ setting head, keyed (Setting.key setting) before = some head →
    after = head ++ ' ' :: (setting.lead ++ values.text setting)
  other : (∀ setting, keyed (Setting.key setting) before = none) →
    keyed profileKey before = none → after = before

structure Carried (values : Values) (before after : List Char) : Prop where
  lines : List.Forall₂ (LineCarried values) (linesOf before) (linesOf after)
  ending : (splitLines after).2 = [] ↔ (splitLines before).2 = []

/-- Whatever a text that goes beyond the command may do, either the script aborts,
or every value is carried over as it is, and a second run changes nothing. -/
def Verbatim (takes : List Char → Bool) (values : Values) : Prop :=
  ∀ does profile file after, OneEach file →
    postBuild ⟨takes, does⟩ profile values.text file = some after →
      Carried values file after ∧
        postBuild ⟨takes, does⟩ profile values.text after = some after

/-- No character of the value has a meaning in a replacement. -/
def Plain (value : List Char) : Prop := ∀ char ∈ value, char ≠ '&' ∧ char ≠ '\\' ∧ char ≠ '|'

/-- `sed` reports an error for the text. -/
def Refused (takes : List Char → Bool) (text : List Char) : Prop :=
  compile '|' 1 (script text) = .refused ∨
    (compile '|' 1 (script text) = .beyond ∧ takes (script text) = false)

section Keys

/-- A key is a word without a colon. -/
def Word (key : List Char) : Prop :=
  key ≠ [] ∧ ∀ char ∈ key, isSpace char = false ∧ char ≠ ':'

theorem Setting.key_word (setting : Setting) : Word setting.key := by
  cases setting <;> exact ⟨by decide, by decide⟩

theorem profile_key_word : Word profileKey := ⟨by decide, by decide⟩

variable {key other line head : List Char}

theorem keyed_eq_some_iff (word : Word key) :
    keyed key line = some head ↔ ∃ indent rest, (∀ char ∈ indent, isSpace char = true) ∧
      head = indent ++ key ++ [':'] ∧ line = head ++ rest := by
  unfold keyed
  rw [Option.ite_none_right_eq_some, List.isPrefixOf_iff_prefix]
  constructor
  · rintro ⟨⟨rest, found⟩, same⟩
    refine ⟨line.takeWhile isSpace, rest, fun char inside => List.mem_takeWhile_imp inside,
      (Option.some.inj same).symm, ?_⟩
    rw [← Option.some.inj same, List.append_assoc, List.append_assoc, ← List.append_assoc key,
      found, List.takeWhile_append_dropWhile]
  · rintro ⟨indent, rest, spaces, rfl, rfl⟩
    obtain ⟨first, letters, rfl⟩ := List.exists_cons_of_ne_nil word.1
    have solid : isSpace first = false := (word.2 first List.mem_cons_self).1
    have shape : indent ++ (first :: letters) ++ [':'] ++ rest =
        indent ++ (first :: (letters ++ ':' :: rest)) := by simp
    rw [shape, List.dropWhile_append_of_pos spaces, List.takeWhile_append_of_pos spaces,
      List.dropWhile_cons_of_neg (by simp [solid]), List.takeWhile_cons_of_neg (by simp [solid])]
    exact ⟨⟨rest, by simp⟩, by simp⟩

/-- What follows the colon does not matter. -/
theorem keyed_head (word : Word key) (found : keyed key line = some head) (rest : List Char) :
    keyed key (head ++ rest) = some head := by
  obtain ⟨indent, _, spaces, shape, -⟩ := (keyed_eq_some_iff word).mp found
  exact (keyed_eq_some_iff word).mpr ⟨indent, rest, spaces, shape, rfl⟩

theorem word_of_prefix (word : Word key) {rest : List Char} (starts : key ++ [':'] <+: rest) :
    rest.takeWhile (· != ':') = key := by
  obtain ⟨tail, rfl⟩ := starts
  have letters : ∀ char ∈ key, (char != ':') = true := by
    intro char inside
    simpa using (word.2 char inside).2
  rw [List.append_assoc, List.takeWhile_append_of_pos letters]
  simp

/-- A line has one key. -/
theorem keyed_unique (word : Word key) (again : Word other) {second : List Char}
    (found : keyed key line = some head) (foundAgain : keyed other line = some second) :
    key = other := by
  have starts {key head : List Char} (found : keyed key line = some head) :
      key ++ [':'] <+: line.dropWhile isSpace := by
    unfold keyed at found
    rw [Option.ite_none_right_eq_some, List.isPrefixOf_iff_prefix] at found
    exact found.1
  rw [← word_of_prefix word (starts found), word_of_prefix again (starts foundAgain)]

end Keys

section Scripts

variable {text key line head : List Char}

theorem script_tokens (text : List Char) :
    tokens (script text) = .escaped '1' :: .plain ' ' :: tokens (text ++ ['|']) := by
  have shape : script text = '\\' :: '1' :: ' ' :: (text ++ ['|']) := rfl
  rw [shape, tokens, if_pos rfl, tokens_cons (by decide)]

/-- How a text reads that makes one substitution. -/
structure Specified (text : List Char) (more : List Part) : Prop where
  compiled : compile '|' 1 (script text) = .substitute (.group 1 :: .literal ' ' :: more)
  read : ∃ read, text = read.flatMap Token.text ∧ readParts '|' read = some more ∧
    ∀ char, .plain char ∈ read → char ≠ '\\' ∧ char ≠ '|'

theorem specified_of_compiled {parts : List Part}
    (compiled : compile '|' 1 (script text) = .substitute parts) :
    ∃ more, Specified text more := by
  obtain ⟨read, shape, unclosed, reading, -⟩ := compile_substitute_iff.mp compiled
  rw [script_tokens] at shape
  -- The text of the script starts with the group and a blank.
  obtain ⟨inner, rfl⟩ : ∃ inner, read = .escaped '1' :: .plain ' ' :: inner := by
    cases read with
    | nil => cases shape
    | cons first read =>
        cases read with
        | nil => cases shape
        | cons second inner =>
            injection shape with first shape
            injection shape with second _
            exact ⟨inner, by rw [first, second]⟩
  have later : tokens (text ++ ['|']) = inner ++ [.plain '|'] := by
    injection shape with _ shape
    injection shape
  obtain ⟨_, _, groupMade, afterGroup, rfl⟩ := read_parts_cons reading
  obtain ⟨_, more, blankMade, afterBlank, rfl⟩ := read_parts_cons afterGroup
  cases groupMade
  cases blankMade
  refine ⟨more, compiled, inner, ?_, afterBlank, ?_⟩
  · have whole := tokens_text (text ++ ['|'])
    rw [later, List.flatMap_append] at whole
    exact (List.append_cancel_right whole).symm
  · intro char inside
    constructor
    · apply plain_ne_backslash
      rw [later]
      exact List.mem_append_left _ inside
    · rintro rfl
      exact unclosed (List.mem_cons_of_mem _ (List.mem_cons_of_mem _ inside))

theorem specified_of_plain (plain : Plain text) : Specified text (text.map Part.literal) := by
  have reading : readParts '|' (text.map Token.plain) = some (text.map Part.literal) :=
    read_parts_plain fun char inside => (plain char inside).1
  have noEscape : ∀ char ∈ text ++ ['|'], char ≠ '\\' := by
    intro char inside
    rcases List.mem_append.mp inside with early | last
    · exact (plain char early).2.1
    · rw [List.mem_singleton.mp last]
      decide
  constructor
  · rw [compile_substitute_iff]
    refine ⟨.escaped '1' :: .plain ' ' :: text.map Token.plain, ?_, ?_, ?_, ?_⟩
    · rw [script_tokens, tokens_plain noEscape, List.map_append]
      rfl
    · simp only [List.mem_cons, reduceCtorEq, Token.plain.injEq, List.mem_map, false_or, not_or]
      refine ⟨by decide, ?_⟩
      rintro ⟨char, inside, rfl⟩
      exact (plain _ inside).2.2 rfl
    · simp only [readParts, reading]
      rfl
    · simp [Part.within]
  · refine ⟨text.map Token.plain, ?_, reading, ?_⟩
    · simp [List.flatMap_map, Token.text]
    · intro char inside
      obtain ⟨other, listed, same⟩ := List.mem_map.mp inside
      cases same
      exact (plain _ listed).2

/-- What the command writes after the key and a blank. -/
def fill (head line : List Char) (more : List Part) : List Char :=
  expansion (fun _ => head) line more

theorem fill_plain (head line text : List Char) :
    fill head line (text.map Part.literal) = text := by
  unfold fill expansion
  rw [List.flatMap_map]
  simp [Part.expand]

/-- A text that is written as it is has no character with a meaning of its own. -/
theorem Specified.plain {more : List Part} (specified : Specified text more)
    (matched : Ordinary line) (grouped : Ordinary head) (same : fill head line more = text) :
    Plain text := by
  obtain ⟨read, shape, reading, unescaped⟩ := specified.read
  have fixed := fixed_plain 0 reading matched (fun _ => grouped)
    (fun char inside => (unescaped char inside).1) (same.trans shape)
  intro char inside
  rw [shape] at inside
  obtain ⟨token, listed, written⟩ := List.mem_flatMap.mp inside
  obtain ⟨other, rfl, notMatch⟩ := fixed.2 token listed
  obtain rfl := List.mem_singleton.mp written
  exact ⟨notMatch, unescaped char listed⟩

end Scripts

section Runs

variable {key head line text file : List Char} {steps : List (List Char × List Char)}

def partsOf (text : List Char) : List Part :=
  match compile '|' 1 (script text) with
  | .substitute parts => parts
  | _ => []

/-- A step of the script: a key and the text after it. -/
structure Ready (step : List Char × List Char) : Prop where
  word : Word step.1
  single : '\n' ∉ step.2
  specified : ∃ more, Specified step.2 more

theorem Specified.parts {more : List Part} (specified : Specified text more) :
    partsOf text = .group 1 :: .literal ' ' :: more := by
  rw [partsOf, specified.compiled]

theorem Specified.substitute {more : List Part} (specified : Specified text more) (sed : Sed)
    (key file : List Char) :
    substitute sed key text file = some (mapLines (settle key (partsOf text)) file) := by
  rw [NodedConfig.substitute, specified.parts, specified.compiled]

theorem Specified.settle {more : List Part} (specified : Specified text more)
    (found : keyed key line = some head) :
    settle key (partsOf text) line = head ++ ' ' :: fill head line more := by
  rw [NodedConfig.settle, found, specified.parts]
  rfl

theorem settle_unkeyed (absent : keyed key line = none) (parts : List Part) :
    settle key parts line = line := by
  rw [settle, absent]

theorem Ready.settle_filled {step : List Char × List Char} (ready : Ready step)
    (filled : line ≠ []) : settle step.1 (partsOf step.2) line ≠ [] := by
  obtain ⟨more, specified⟩ := ready.specified
  cases found : keyed step.1 line with
  | none => rwa [settle_unkeyed found]
  | some head =>
      rw [specified.settle found]
      simp

theorem Ready.settle_unbroken {step : List Char × List Char} (ready : Ready step)
    (unbroken : '\n' ∉ line) : '\n' ∉ settle step.1 (partsOf step.2) line := by
  obtain ⟨more, specified⟩ := ready.specified
  cases found : keyed step.1 line with
  | none => rwa [settle_unkeyed found]
  | some head =>
      obtain ⟨_, rest, -, -, shape⟩ := (keyed_eq_some_iff ready.word).mp found
      have front : '\n' ∉ head := fun inside => unbroken (shape ▸ List.mem_append_left _ inside)
      rw [specified.settle found, List.mem_append, List.mem_cons]
      rintro (inside | same | inside)
      · exact front inside
      · cases same
      · obtain ⟨read, shape, reading, -⟩ := specified.read
        rcases mem_expansion inside with early | ⟨_, early⟩ | written
        · exact unbroken early
        · exact front early
        · exact ready.single (shape ▸ literal_written reading written)

def runSteps (sed : Sed) (steps : List (List Char × List Char)) (file : List Char) :
    Option (List Char) :=
  steps.foldlM (fun file step => substitute sed step.1 step.2 file) file

/-- What the steps make of a line, one after the other. -/
def settleAll (steps : List (List Char × List Char)) (line : List Char) : List Char :=
  steps.foldl (fun line step => settle step.1 (partsOf step.2) line) line

theorem run_specified (ready : ∀ step ∈ steps, Ready step) (sed : Sed) (file : List Char) :
    runSteps sed steps file = some (mapLines (settleAll steps) file) := by
  induction steps generalizing file with
  | nil =>
      rw [show settleAll [] = fun line => line from rfl, map_lines_self]
      rfl
  | cons step later ih =>
      have here := ready step List.mem_cons_self
      obtain ⟨more, specified⟩ := here.specified
      have unbroken : ∀ line ∈ linesOf file, '\n' ∉ settle step.1 (partsOf step.2) line :=
        fun line inside => here.settle_unbroken (lines_of_no_break inside)
      have rest := ih (fun other inside => ready other (List.mem_cons_of_mem _ inside))
        (mapLines (settle step.1 (partsOf step.2)) file)
      rw [map_lines_map unbroken fun line filled => here.settle_filled filled] at rest
      rw [runSteps, List.foldlM_cons, specified.substitute]
      exact rest

theorem settle_all_filled (ready : ∀ step ∈ steps, Ready step) (filled : line ≠ []) :
    settleAll steps line ≠ [] := by
  induction steps generalizing line with
  | nil => exact filled
  | cons step later ih =>
      exact ih (fun other inside => ready other (List.mem_cons_of_mem _ inside))
        ((ready step List.mem_cons_self).settle_filled filled)

theorem settle_all_unbroken (ready : ∀ step ∈ steps, Ready step) (unbroken : '\n' ∉ line) :
    '\n' ∉ settleAll steps line := by
  induction steps generalizing line with
  | nil => exact unbroken
  | cons step later ih =>
      exact ih (fun other inside => ready other (List.mem_cons_of_mem _ inside))
        ((ready step List.mem_cons_self).settle_unbroken unbroken)

theorem settle_all_unkeyed (absent : ∀ step ∈ steps, keyed step.1 line = none) :
    settleAll steps line = line := by
  induction steps with
  | nil => rfl
  | cons step later ih =>
      rw [settleAll, List.foldl_cons, settle_unkeyed (absent step List.mem_cons_self)]
      exact ih fun other inside => absent other (List.mem_cons_of_mem _ inside)

/-- A line is changed by the step of its own key. -/
theorem settle_all_keyed (ready : ∀ step ∈ steps, Ready step)
    (distinct : (steps.map Prod.fst).Nodup) {step : List Char × List Char} (listed : step ∈ steps)
    (found : keyed step.1 line = some head) {more : List Part}
    (specified : Specified step.2 more) :
    settleAll steps line = head ++ ' ' :: fill head line more := by
  induction steps with
  | nil => cases listed
  | cons first later ih =>
      rw [List.map_cons, List.nodup_cons] at distinct
      have word := (ready step listed).word
      rw [settleAll, List.foldl_cons]
      rcases List.mem_cons.mp listed with rfl | inside
      · rw [specified.settle found]
        apply settle_all_unkeyed
        intro other there
        rw [Option.eq_none_iff_forall_ne_some]
        intro again present
        have same := keyed_unique word (ready other (List.mem_cons_of_mem _ there)).word
          (keyed_head word found _) present
        exact distinct.1 (same ▸ List.mem_map_of_mem there)
      · have unkeyed : keyed first.1 line = none := by
          rw [Option.eq_none_iff_forall_ne_some]
          intro again present
          have same := keyed_unique (ready first List.mem_cons_self).word word present found
          exact distinct.1 (same ▸ List.mem_map_of_mem inside)
        rw [settle_unkeyed unkeyed]
        exact ih (fun other there => ready other (List.mem_cons_of_mem _ there)) distinct.2 inside

end Runs

section Settings

variable {values : Values} {profile : Profile}

def settings : List Setting := [.nodeId, .estServer, .bootstrapToken]

theorem mem_settings (setting : Setting) : setting ∈ settings := by
  cases setting <;> decide

/-- The text that stands for a setting. -/
def Values.inserted (values : Values) (setting : Setting) : List Char :=
  setting.lead ++ values.text setting

def Values.steps (values : Values) (profile : Profile) : List (List Char × List Char) :=
  (profileKey, profile.text) :: settings.map fun setting => (setting.key, values.inserted setting)

theorem post_build_steps (sed : Sed) (profile : Profile) (values : Values) (file : List Char) :
    postBuild sed profile values.text file = runSteps sed (values.steps profile) file := by
  simp only [postBuild, substituteSetting, values.filled, if_false, runSteps, Values.steps,
    settings, List.map_cons, List.map_nil, List.foldlM_cons, List.foldlM_nil, bind_pure]
  rfl

theorem Values.mem_steps (values : Values) (profile : Profile) (setting : Setting) :
    (setting.key, values.inserted setting) ∈ values.steps profile :=
  List.mem_cons_of_mem _ (List.mem_map_of_mem (mem_settings setting))

theorem Values.distinct (values : Values) (profile : Profile) :
    ((values.steps profile).map Prod.fst).Nodup := by
  simp only [Values.steps, settings, List.map_cons, List.map_nil]
  decide

theorem profile_plain (profile : Profile) : Plain profile.text := by
  cases profile <;> unfold Plain <;> decide

theorem lead_plain (setting : Setting) : Plain setting.lead := by
  cases setting <;> unfold Plain <;> decide

theorem Values.inserted_plain_iff (values : Values) (setting : Setting) :
    Plain (values.inserted setting) ↔ Plain (values.text setting) := by
  constructor
  · exact fun plain char inside => plain char (List.mem_append_right _ inside)
  · intro plain char inside
    rcases List.mem_append.mp inside with early | late
    · exact lead_plain setting char early
    · exact plain char late

theorem Values.steps_ready
    (specified : ∀ setting, ∃ more, Specified (values.inserted setting) more) :
    ∀ step ∈ values.steps profile, Ready step := by
  intro step listed
  rcases List.mem_cons.mp listed with rfl | inside
  · refine ⟨profile_key_word, ?_, _, specified_of_plain (profile_plain profile)⟩
    cases profile <;> decide
  · obtain ⟨setting, -, rfl⟩ := List.mem_map.mp inside
    refine ⟨setting.key_word, ?_, specified setting⟩
    intro newline
    rcases List.mem_append.mp newline with early | late
    · revert early
      cases setting <;> decide
    · exact values.single setting late

theorem Values.plain_ready (plain : ∀ setting, Plain (values.text setting)) :
    ∀ step ∈ values.steps profile, Ready step :=
  values.steps_ready fun setting =>
    ⟨_, specified_of_plain ((values.inserted_plain_iff setting).mpr (plain setting))⟩

end Settings

section Forward

variable {values : Values} {profile : Profile}

theorem run_refused {sed : Sed} {steps : List (List Char × List Char)} {file : List Char}
    {step : List Char × List Char} (listed : step ∈ steps) (refused : Refused sed.takes step.2) :
    runSteps sed steps file = none := by
  induction steps generalizing file with
  | nil => cases listed
  | cons first later ih =>
      rw [runSteps, List.foldlM_cons]
      rcases List.mem_cons.mp listed with rfl | inside
      · have nothing : substitute sed step.1 step.2 file = none := by
          unfold substitute
          rcases refused with error | ⟨beyond, unwanted⟩
          · rw [error]
          · rw [beyond]
            simp [unwanted]
        rw [nothing]
        rfl
      · cases substitute sed first.1 first.2 file with
        | none => rfl
        | some after => exact ih inside

theorem settle_all_values (plain : ∀ setting, Plain (values.text setting)) (setting : Setting)
    {line head : List Char} (found : keyed setting.key line = some head) :
    settleAll (values.steps profile) line = head ++ ' ' :: values.inserted setting := by
  have specified := specified_of_plain ((values.inserted_plain_iff setting).mpr (plain setting))
  rw [settle_all_keyed (values.plain_ready plain) (values.distinct profile)
    (values.mem_steps profile setting) found specified, fill_plain]

theorem settle_all_other {line : List Char}
    (absent : ∀ setting, keyed (Setting.key setting) line = none)
    (noProfile : keyed profileKey line = none) :
    settleAll (values.steps profile) line = line := by
  apply settle_all_unkeyed
  intro step listed
  rcases List.mem_cons.mp listed with rfl | inside
  · exact noProfile
  · obtain ⟨setting, -, rfl⟩ := List.mem_map.mp inside
    exact absent setting

theorem settle_all_profile {line head : List Char}
    (ready : ∀ step ∈ values.steps profile, Ready step)
    (found : keyed profileKey line = some head) :
    settleAll (values.steps profile) line = head ++ ' ' :: profile.text := by
  rw [settle_all_keyed ready (values.distinct profile) List.mem_cons_self found
    (specified_of_plain (profile_plain profile)), fill_plain]

/-- A second pass over a line finds it as it should be. -/
theorem settle_all_again (plain : ∀ setting, Plain (values.text setting)) (line : List Char) :
    settleAll (values.steps profile) (settleAll (values.steps profile) line) =
      settleAll (values.steps profile) line := by
  have ready : ∀ step ∈ values.steps profile, Ready step := values.plain_ready plain
  by_cases keyedLine : ∃ setting head, keyed (Setting.key setting) line = some head
  · obtain ⟨setting, head, found⟩ := keyedLine
    rw [settle_all_values plain setting found]
    exact settle_all_values plain setting (keyed_head setting.key_word found _)
  · have absent (setting : Setting) : keyed setting.key line = none := by
      rw [Option.eq_none_iff_forall_ne_some]
      exact fun head found => keyedLine ⟨setting, head, found⟩
    cases found : keyed profileKey line with
    | none => rw [settle_all_other absent found, settle_all_other absent found]
    | some head =>
        rw [settle_all_profile ready found]
        exact settle_all_profile ready (keyed_head profile_key_word found _)

theorem carried_of_plain (plain : ∀ setting, Plain (values.text setting)) (sed : Sed)
    (profile : Profile) (file : List Char) :
    ∃ after, postBuild sed profile values.text file = some after ∧ Carried values file after ∧
      postBuild sed profile values.text after = some after := by
  have ready : ∀ step ∈ values.steps profile, Ready step := values.plain_ready plain
  have unbroken : ∀ line ∈ linesOf file, '\n' ∉ settleAll (values.steps profile) line :=
    fun line inside => settle_all_unbroken ready (lines_of_no_break inside)
  have filled (line : List Char) (present : line ≠ []) :
      settleAll (values.steps profile) line ≠ [] := settle_all_filled ready present
  refine ⟨mapLines (settleAll (values.steps profile)) file, ?_, ⟨?_, ?_⟩, ?_⟩
  · rw [post_build_steps, run_specified ready]
  · rw [lines_of_map unbroken filled, List.forall₂_map_right_iff, List.forall₂_same]
    intro line _
    exact ⟨fun setting head found => settle_all_values plain setting found, settle_all_other⟩
  · rw [split_lines_map unbroken]
    by_cases empty : (splitLines file).2 = []
    · simp [empty]
    · simp [empty, filled _ empty]
  · rw [post_build_steps, run_specified ready, map_lines_map unbroken filled]
    exact congrArg some (map_lines_congr fun line _ => settle_all_again plain line)

end Forward

section Backward

variable {values : Values} {takes : List Char → Bool}

/-- An implementation that empties the file where the text is none of its own. -/
def wiping (takes : List Char → Bool) : Sed := ⟨takes, fun _ _ _ => []⟩

def placeholders : List Char :=
  "profile: k8s\nnodeId: a\nserverUrl: b\nbearerToken: c\n".toList

theorem placeholders_one_each : OneEach placeholders := by
  unfold OneEach
  decide

theorem run_wiped {steps : List (List Char × List Char)} {file : List Char}
    (accepted : ∀ step ∈ steps, ¬Refused takes step.2)
    (wiped : file = [] ∨ ∃ step ∈ steps, compile '|' 1 (script step.2) = .beyond) :
    runSteps (wiping takes) steps file = some [] := by
  induction steps generalizing file with
  | nil =>
      rcases wiped with rfl | ⟨step, listed, -⟩
      · rfl
      · cases listed
  | cons first later ih =>
      have rest (after : List Char)
          (wiped : after = [] ∨ ∃ step ∈ later, compile '|' 1 (script step.2) = .beyond) :
          runSteps (wiping takes) later after = some [] :=
        ih (fun step inside => accepted step (List.mem_cons_of_mem _ inside)) wiped
      have taken := accepted first List.mem_cons_self
      rw [runSteps, List.foldlM_cons, substitute]
      cases compiled : compile '|' 1 (script first.2) with
      | refused => exact absurd (Or.inl compiled) taken
      | beyond =>
          have takes : takes (script first.2) = true := by
            by_contra unwanted
            exact taken (Or.inr ⟨compiled, by simpa using unwanted⟩)
          simp only [wiping, takes, if_true]
          exact rest [] (Or.inl rfl)
      | substitute parts =>
          rcases wiped with rfl | ⟨step, listed, beyond⟩
          · exact rest [] (Or.inl rfl)
          · rcases List.mem_cons.mp listed with rfl | inside
            · cases compiled.symm.trans beyond
            · exact rest _ (Or.inr ⟨step, inside, beyond⟩)

theorem not_carried_wiped : ¬Carried values placeholders [] := by
  intro carried
  have lengths := carried.lines.length_eq
  revert lengths
  decide

/-- The line of a setting in the placeholders' file. -/
def Setting.placeholder : Setting → List Char
  | .nodeId => "nodeId: a".toList
  | .estServer => "serverUrl: b".toList
  | .bootstrapToken => "bearerToken: c".toList

theorem Setting.placeholder_listed (setting : Setting) :
    setting.placeholder ∈ linesOf placeholders := by
  cases setting <;> decide

theorem Setting.placeholder_keyed (setting : Setting) :
    keyed setting.key setting.placeholder = some (setting.key ++ [':']) := by
  cases setting <;> decide

theorem Setting.key_ordinary (setting : Setting) (rest : List Char) :
    Ordinary (setting.key ++ rest) := by
  cases setting <;> exact ⟨_, _, rfl, by decide, by decide⟩

/-- Where no value is refused, each is plain. -/
theorem plain_of_verbatim (verbatim : Verbatim takes values)
    (accepted : ∀ setting, ¬Refused takes (values.inserted setting)) (setting : Setting) :
    Plain (values.text setting) := by
  have taken : ∀ step ∈ values.steps .k8s, ¬Refused takes step.2 := by
    intro step listed
    rcases List.mem_cons.mp listed with rfl | inside
    · have compiled := (specified_of_plain (profile_plain .k8s)).compiled
      unfold Refused
      rw [compiled]
      simp
    · obtain ⟨setting, -, rfl⟩ := List.mem_map.mp inside
      exact accepted setting
  have outcome (after : List Char)
      (run : runSteps (wiping takes) (values.steps .k8s) placeholders = some after) :
      Carried values placeholders after := by
    rw [← post_build_steps] at run
    exact (verbatim _ .k8s placeholders after placeholders_one_each run).1
  have specified (setting : Setting) : ∃ more, Specified (values.inserted setting) more := by
    cases compiled : compile '|' 1 (script (values.inserted setting)) with
    | refused => exact absurd (Or.inl compiled) (accepted setting)
    | substitute parts => exact specified_of_compiled compiled
    | beyond =>
        have wiped : runSteps (wiping takes) (values.steps .k8s) placeholders = some [] :=
          run_wiped taken (Or.inr ⟨_, values.mem_steps .k8s setting, compiled⟩)
        exact absurd (outcome [] wiped) not_carried_wiped
  have ready : ∀ step ∈ values.steps .k8s, Ready step := values.steps_ready specified
  have carried := outcome _ (run_specified ready _ _)
  obtain ⟨more, here⟩ := specified setting
  have found := setting.placeholder_keyed
  have settled := settle_all_keyed ready (values.distinct .k8s) (values.mem_steps .k8s setting)
    found here
  have lines := carried.lines
  rw [lines_of_map (fun line inside => settle_all_unbroken ready (lines_of_no_break inside))
    fun line present => settle_all_filled ready present, List.forall₂_map_right_iff,
    List.forall₂_same] at lines
  have expected := (lines _ setting.placeholder_listed).given setting _ found
  rw [settled] at expected
  have same : fill (setting.key ++ [':']) setting.placeholder more = values.inserted setting := by
    have tails := List.append_cancel_left expected
    injection tails
  have matched : Ordinary setting.placeholder := by
    cases setting <;> exact ⟨_, _, rfl, by decide, by decide⟩
  exact (values.inserted_plain_iff setting).mp (here.plain matched (setting.key_ordinary _) same)

end Backward

/-- The values are carried over exactly if `sed` refuses one of them, or none holds
an ampersand, a backslash or a delimiter. -/
theorem substitution_verbatim_iff (takes : List Char → Bool) (values : Values) :
    Verbatim takes values ↔
      (∃ setting, Refused takes (setting.lead ++ values.text setting)) ∨
        ∀ setting, Plain (values.text setting) := by
  constructor
  · intro verbatim
    by_cases refused : ∃ setting, Refused takes (values.inserted setting)
    · exact Or.inl refused
    · right
      exact plain_of_verbatim verbatim fun setting error => refused ⟨setting, error⟩
  · rintro (⟨setting, refused⟩ | plain)
    · intro does profile file after _ run
      rw [post_build_steps, run_refused (values.mem_steps profile setting) refused] at run
      cases run
    · intro does profile file after _ run
      obtain ⟨expected, ran, carried⟩ := carried_of_plain plain ⟨takes, does⟩ profile file
      obtain rfl := Option.some.inj (ran.symm.trans run)
      exact carried

/-- A bootstrap token with an ampersand. -/
def ampersandText : Setting → List Char
  | .nodeId => "node-1".toList
  | .estServer => "est.example.com".toList
  | .bootstrapToken => "tok&en".toList

def ampersandValues : Values where
  text := ampersandText
  filled := by
    intro setting
    cases setting <;> decide
  single := by
    intro setting
    cases setting <;> decide

theorem substitution_garbled : ¬Verbatim (fun _ => false) ampersandValues := by
  intro verbatim
  have accepted (setting : Setting) :
      ¬Refused (fun _ => false) (ampersandValues.inserted setting) := by
    unfold Refused
    cases setting <;> decide
  have plain := plain_of_verbatim verbatim accepted .bootstrapToken '&' (by decide)
  exact plain.1 rfl

-- The key is in the line a second time, and the old value beside the new one.
example : settle Setting.bootstrapToken.key (partsOf "tok&en".toList) "bearerToken: c".toList =
    "bearerToken: tokbearerToken: cen".toList := by
  decide

end NodeOs.Image.NodedConfig
