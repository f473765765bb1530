import NodeOs.Library.YamlBlock
import NodeOs.Noded.K8sRender

/-!
# What the rendered bootstrap kubeconfig says

The text is read back with the YAML reader. The reader's view of the template
is fixed except for two scalars, so what an accepted intent can do to the
document is decided by the tail of its API server URL, which validation leaves
open, and by whether its token looks like a number.
-/

namespace NodeOs.Noded.BootstrapKubeconfig

open NodeOs.Library.InetAddr NodeOs.Library.YamlScalar NodeOs.Library.YamlBlock
open NodeOs.Noded.FileSystem NodeOs.Noded.Workload NodeOs.Noded.K8sRender

def name (text : String) : Yaml := .scalar (.str text.toList)

/-- The document with two scalars left open. -/
def template (server token : Scalar) : Yaml :=
  .map
    [ ("apiVersion".toList, name "v1"),
      ("kind".toList, name "Config"),
      ("clusters".toList, .seq
        [ .map
          [ ("name".toList, name "default"),
            ("cluster".toList, .map
              [ ("certificate-authority".toList,
                  name "/var/lib/nodeos/k8s/kubelet/cluster-ca.pem"),
                ("server".toList, .scalar server) ]) ] ]),
      ("contexts".toList, .seq
        [ .map
          [ ("name".toList, name "default"),
            ("context".toList, .map
              [ ("cluster".toList, name "default"),
                ("user".toList, name "kubelet-bootstrap") ]) ] ]),
      ("current-context".toList, name "default"),
      ("users".toList, .seq
        [ .map
          [ ("name".toList, name "kubelet-bootstrap"),
            ("user".toList, .map [ ("token".toList, .scalar token) ]) ] ]) ]

/-- The intent has not changed the document: the text has the template's lines,
and reads as the template with the two values as strings. -/
structure Intact (intent : NodeIntent) : Prop where
  lines : lines (renderBootstrapKubeconfig intent).toList =
    (bootstrapKubeconfigLines intent).map String.toList
  tree : read (renderBootstrapKubeconfig intent).toList =
    some (template (.str intent.apiServer.toList) (.str intent.bootstrapToken.toList))

/-- What follows the bracketed address in the URL. -/
def urlTail (url : String) : List Char :=
  ((splitOnce ']' url.toList).map Prod.snd).getD []

/-- An id of digits only, and a secret of digits with at most one exponent. -/
def looksNumeric (token : String) : Bool :=
  match splitOnce '.' token.toList with
  | some (id, secret) =>
      id.all Char.isDigit && isExponent (secret.dropWhile Char.isDigit)
  | none => false

/-- The lines above the server's. -/
def beforeServer : List String :=
  [ "apiVersion: v1", "kind: Config", "clusters:", "- name: default", "  cluster:",
    "    certificate-authority: /var/lib/nodeos/k8s/kubelet/cluster-ca.pem" ]

/-- The lines between the server's and the token's. -/
def beforeToken : List String :=
  [ "contexts:", "- name: default", "  context:", "    cluster: default",
    "    user: kubelet-bootstrap", "current-context: default", "users:",
    "- name: kubelet-bootstrap", "  user:" ]

theorem lines_split (intent : NodeIntent) :
    bootstrapKubeconfigLines intent =
      beforeServer ++ ("    server: " ++ intent.apiServer) ::
        (beforeToken ++ ["    token: " ++ intent.bootstrapToken]) := by
  simp [bootstrapKubeconfigLines, cluster_ca_path_text, beforeServer, beforeToken]

def entry (column : Nat) (key : String) (value : Option String) : Token :=
  ⟨column, .entry key.toList (value.map String.toList)⟩

def serverToken (value : List Char) : Token := ⟨4, .entry "server".toList (some value)⟩

def tokenToken (value : List Char) : Token := ⟨4, .entry "token".toList (some value)⟩

def beforeServerTokens : List Token :=
  [ entry 0 "apiVersion" "v1", entry 0 "kind" "Config", entry 0 "clusters" none, ⟨0, .dash⟩,
    entry 2 "name" "default", entry 2 "cluster" none,
    entry 4 "certificate-authority" "/var/lib/nodeos/k8s/kubelet/cluster-ca.pem" ]

def beforeTokenTokens : List Token :=
  [ entry 0 "contexts" none, ⟨0, .dash⟩, entry 2 "name" "default", entry 2 "context" none,
    entry 4 "cluster" "default", entry 4 "user" "kubelet-bootstrap",
    entry 0 "current-context" "default", entry 0 "users" none, ⟨0, .dash⟩,
    entry 2 "name" "kubelet-bootstrap", entry 2 "user" none ]

theorem scan_before_server :
    scan (beforeServer.map String.toList) = some beforeServerTokens := by
  decide +kernel

theorem scan_before_token : scan (beforeToken.map String.toList) = some beforeTokenTokens := by
  decide +kernel

/-- The two open scalars are the only thing the parser cannot evaluate. -/
theorem parse_template (server token : List Char) :
    parse (beforeServerTokens ++ serverToken server ::
        (beforeTokenTokens ++ [tokenToken token])) =
      some (template (resolve server) (resolve token)) :=
  rfl

/-- A value whose first character neither is white space nor opens a comment. -/
def StartsValue (text : List Char) : Prop :=
  ∃ first rest, text = first :: rest ∧ isWhite first = false ∧ first ≠ '#'

theorem scan_server_line {text : List Char} (value : StartsValue text) :
    scanLine 0 ("    server: ".toList ++ text) =
      (plainScalar text).map fun value => [serverToken value] := by
  obtain ⟨first, rest, rfl, opening⟩ := value
  have indented : "    server: ".toList ++ first :: rest =
      List.replicate 4 ' ' ++ ('s' :: "erver".toList ++ ':' :: ' ' :: first :: rest) := rfl
  rw [indented, scan_line_spaces, scan_line_entry _ (by decide) (by decide) (by decide) opening]
  rfl

theorem scan_token_line {text : List Char} (value : StartsValue text) :
    scanLine 0 ("    token: ".toList ++ text) =
      (plainScalar text).map fun value => [tokenToken value] := by
  obtain ⟨first, rest, rfl, opening⟩ := value
  have indented : "    token: ".toList ++ first :: rest =
      List.replicate 4 ' ' ++ ('t' :: "oken".toList ++ ':' :: ' ' :: first :: rest) := rfl
  rw [indented, scan_line_spaces, scan_line_entry _ (by decide) (by decide) (by decide) opening]
  rfl

/-- What the reader makes of the rendered lines, whatever the two values are. -/
theorem read_rendered_lines (intent : NodeIntent) (server : StartsValue intent.apiServer.toList)
    (token : StartsValue intent.bootstrapToken.toList) :
    (scan ((bootstrapKubeconfigLines intent).map String.toList)).bind parse =
      (plainScalar intent.apiServer.toList).bind fun serverText =>
        (plainScalar intent.bootstrapToken.toList).map fun tokenText =>
          template (resolve serverText) (resolve tokenText) := by
  rw [lines_split, List.map_append, List.map_cons, List.map_append, List.map_singleton,
    String.toList_append, String.toList_append, scan_append scan_before_server]
  have serverLine := scan_server_line server
  have tokenLine := scan_token_line token
  cases serverScalar : plainScalar intent.apiServer.toList with
  | none =>
      rw [serverScalar, Option.map_none] at serverLine
      rw [scan_fails _ serverLine]
      rfl
  | some serverText =>
      rw [serverScalar, Option.map_some] at serverLine
      rw [scan_cons _ serverLine, scan_append scan_before_token]
      cases tokenScalar : plainScalar intent.bootstrapToken.toList with
      | none =>
          rw [tokenScalar, Option.map_none] at tokenLine
          rw [scan_fails _ tokenLine]
          rfl
      | some tokenText =>
          rw [tokenScalar, Option.map_some] at tokenLine
          rw [scan_cons _ tokenLine]
          simp only [scan, Option.map_some, Option.bind_some, List.singleton_append]
          exact parse_template serverText tokenText

theorem template_injective {server token server' token' : Scalar}
    (same : template server token = template server' token') :
    server = server' ∧ token = token' := by
  simpa [template] using same

/-- Without a break in a value, the lines of the text are the lines rendered. -/
theorem lines_rendered (intent : NodeIntent)
    (server : ∀ char ∈ intent.apiServer.toList, isBreak char = false)
    (token : ∀ char ∈ intent.bootstrapToken.toList, isBreak char = false) :
    lines (renderBootstrapKubeconfig intent).toList =
      (bootstrapKubeconfigLines intent).map String.toList := by
  rw [renderBootstrapKubeconfig, unlines_chars]
  apply lines_flat
  rw [lines_split]
  have fixed : ∀ text ∈ beforeServer ++ beforeToken ++ ["    server: ", "    token: "],
      ∀ char ∈ text.toList, isBreak char = false := by
    decide +kernel
  intro text member
  simp only [List.map_append, List.map_cons, List.map_nil, List.mem_append, List.mem_cons,
    List.mem_map, List.not_mem_nil, or_false, String.toList_append] at member
  rcases member with ⟨line, inside, rfl⟩ | rfl | ⟨line, inside, rfl⟩ | rfl
  · exact fixed line (by simp [inside])
  · intro char inside
    rcases List.mem_append.mp inside with constant | given
    · exact fixed "    server: " (by simp) char constant
    · exact server char given
  · exact fixed line (by simp [inside])
  · intro char inside
    rcases List.mem_append.mp inside with constant | given
    · exact fixed "    token: " (by simp) char constant
    · exact token char given

/-- The lines show whether the server had a break in it. -/
theorem server_without_breaks {intent : NodeIntent}
    (same : lines (renderBootstrapKubeconfig intent).toList =
      (bootstrapKubeconfigLines intent).map String.toList) :
    ∀ char ∈ intent.apiServer.toList, isBreak char = false := by
  intro char member
  have line : "    server: ".toList ++ intent.apiServer.toList ∈
      lines (renderBootstrapKubeconfig intent).toList := by
    rw [same, lines_split]
    simp
  exact lines_without_breaks _ _ line char (List.mem_append_right _ member)

theorem lower_alnum_range {char : Char} (allowed : lowerAlnum char = true) :
    (0x30 ≤ char.toNat ∧ char.toNat ≤ 0x39) ∨ (0x61 ≤ char.toNat ∧ char.toNat ≤ 0x7A) := by
  rw [lowerAlnum, Bool.or_eq_true, is_lower_iff, is_digit_iff] at allowed
  exact allowed.symm

/-- A letter or digit is no character that means something to YAML. -/
theorem lower_alnum_plain {char : Char} (allowed : lowerAlnum char = true) :
    isPlainChar char = true ∧ indicators.contains char = false := by
  have range := lower_alnum_range allowed
  refine ⟨plain_char_of_range (by omega) (by omega), Bool.eq_false_iff.mpr fun member => ?_⟩
  have outside : ∀ other ∈ indicators, ¬((0x30 ≤ other.toNat ∧ other.toNat ≤ 0x39) ∨
      (0x61 ≤ other.toNat ∧ other.toNat ≤ 0x7A)) := by
    decide +kernel
  exact outside char (by simpa using member) range

section Token

variable {token : String}

/-- An accepted token, on characters. -/
structure TokenChars (token : String) (id secret : List Char) : Prop where
  chars : token.toList = id ++ '.' :: secret
  split : splitOnce '.' token.toList = some (id, secret)
  idChars : ∀ char ∈ id, lowerAlnum char = true
  secretChars : ∀ char ∈ secret, lowerAlnum char = true
  idFilled : id ≠ []

theorem token_chars (valid : validBootstrapToken token = true) :
    ∃ id secret, TokenChars token id secret := by
  simp only [validBootstrapToken] at valid
  split at valid
  · rename_i id secret split
    simp only [Bool.and_eq_true, beq_iff_eq, List.all_eq_true] at valid
    refine ⟨id, secret, (split_once_some split).1, split, valid.1.2, valid.2.2, ?_⟩
    rintro rfl
    simp [byteLength] at valid
  · cases valid

variable {id secret : List Char}

theorem TokenChars.plain (shape : TokenChars token id secret) :
    ∀ char ∈ token.toList, isPlainChar char = true ∧ char ≠ ':' := by
  intro char member
  rw [shape.chars, List.mem_append, List.mem_cons] at member
  rcases member with inId | rfl | inSecret
  · have letter := lower_alnum_plain (shape.idChars char inId)
    exact ⟨letter.1, by rintro rfl; exact absurd letter.2 (by decide)⟩
  · decide
  · have letter := lower_alnum_plain (shape.secretChars char inSecret)
    exact ⟨letter.1, by rintro rfl; exact absurd letter.2 (by decide)⟩

/-- The token starts with a letter or digit of its id. -/
theorem TokenChars.first (shape : TokenChars token id secret) :
    ∃ first rest, token.toList = first :: rest ∧ lowerAlnum first = true := by
  obtain ⟨first, rest, filled⟩ := List.exists_cons_of_ne_nil shape.idFilled
  exact ⟨first, rest ++ '.' :: secret, by rw [shape.chars, filled, List.cons_append],
    shape.idChars first (by simp [filled])⟩

theorem TokenChars.starts_value (shape : TokenChars token id secret) :
    StartsValue token.toList := by
  obtain ⟨first, rest, chars, letter⟩ := shape.first
  have plain := lower_alnum_plain letter
  exact ⟨first, rest, chars, plain_char_not_white plain.1,
    by rintro rfl; exact absurd plain.2 (by decide)⟩

theorem TokenChars.scalar (shape : TokenChars token id secret) :
    plainScalar token.toList = some token.toList := by
  have body := (scan_plain_eq_self token.toList).mpr (is_plain_tail_of_chars shape.plain)
  obtain ⟨first, rest, chars, letter⟩ := shape.first
  have plain := lower_alnum_plain letter
  rw [plainScalar, chars, starts_plain_of_first plain.1 plain.2, if_pos rfl, ← chars, body]

theorem TokenChars.resolves (shape : TokenChars token id secret) :
    resolve token.toList =
      if looksNumeric token then .number token.toList else .str token.toList := by
  have stop : '.' ∈ token.toList := by rw [shape.chars]; simp
  have float : isFloat token.toList = looksNumeric token := by
    obtain ⟨first, rest, filled⟩ := List.exists_cons_of_ne_nil shape.idFilled
    have letter := (lower_alnum_plain (shape.idChars first (by simp [filled]))).2
    have noStop : '.' ∉ first :: rest := fun member =>
      absurd (shape.idChars '.' (by rw [filled]; exact member)) (by decide)
    have noPlus : first ≠ '+' := by
      rintro rfl
      exact absurd (shape.idChars '+' (by simp [filled])) (by decide)
    have noMinus : first ≠ '-' := by
      rintro rfl
      exact absurd letter (by decide)
    simp only [looksNumeric, shape.split]
    rw [shape.chars, filled, is_float_with_stop noPlus noMinus noStop]
  rw [resolve_with_stop stop, float]

end Token

section Server

variable {url : String}

/-- An accepted URL up to its closing bracket, and what follows. -/
structure UrlChars (url : String) (front tail : List Char) : Prop where
  chars : url.toList = 'h' :: front ++ ']' :: tail
  frontChars : ∀ char ∈ 'h' :: front, isPlainChar char = true
  noClose : ']' ∉ 'h' :: front

theorem url_chars (accepted : validateApiServer url = .ok ()) :
    ∃ front tail, UrlChars url front tail := by
  obtain ⟨host, tail, chars, parsed, -⟩ := validate_api_server_shape accepted
  obtain ⟨groups, read⟩ := Option.isSome_iff_exists.mp parsed
  have scheme : ∀ char ∈ "https://[".toList, isPlainChar char = true ∧ char ≠ ']' := by decide
  have address : ∀ char ∈ host, isPlainChar char = true ∧ char ≠ ']' := by
    intro char member
    have range := address_char_range (parse_ipv6_chars read char member)
    refine ⟨plain_char_of_range (by omega) (by omega), ?_⟩
    rintro rfl
    exact absurd (parse_ipv6_chars read ']' member) (by decide)
  have all : ∀ char ∈ 'h' :: ("ttps://[".toList ++ host), isPlainChar char = true ∧ char ≠ ']' := by
    intro char member
    rcases List.mem_append.mp (show char ∈ "https://[".toList ++ host from member) with
      inScheme | inHost
    · exact scheme char inScheme
    · exact address char inHost
  exact ⟨"ttps://[".toList ++ host, tail, chars, fun char member => (all char member).1,
    fun member => (all ']' member).2 rfl⟩

variable {front tail : List Char}

theorem UrlChars.url_tail (shape : UrlChars url front tail) : urlTail url = tail := by
  rw [urlTail, shape.chars, split_once_append tail shape.noClose]
  rfl

/-- Up to the closing bracket nothing can break the scalar. -/
theorem UrlChars.is_plain_tail (shape : UrlChars url front tail) :
    isPlainTail url.toList = isPlainTail (urlTail url) := by
  rw [shape.url_tail, shape.chars]
  exact is_plain_tail_append _ _ tail shape.frontChars (by decide) (by decide)

theorem UrlChars.starts_value (shape : UrlChars url front tail) : StartsValue url.toList :=
  ⟨'h', front ++ ']' :: tail, by rw [shape.chars, List.cons_append], by decide, by decide⟩

theorem UrlChars.scalar (shape : UrlChars url front tail) :
    plainScalar url.toList = scanPlain url.toList := by
  rw [plainScalar, shape.chars, List.cons_append, starts_plain_of_first (by decide) (by decide),
    if_pos rfl]

theorem UrlChars.resolves (shape : UrlChars url front tail) :
    resolve url.toList = .str url.toList := by
  rw [shape.chars, List.cons_append]
  rfl

end Server

/-- A URL that turns certificate verification off for the node. -/
def injectingIntent : NodeIntent :=
  { sampleIntent with
    apiServer := "https://[2001:db8::1]:6443\n    insecure-skip-tls-verify: true" }

end NodeOs.Noded.BootstrapKubeconfig
