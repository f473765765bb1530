import NodeOs.Library.InetAddr
import NodeOs.Noded.Pki

/-!
# The node intent and its validation

`clusterCa` is checked by `x509-cert`'s `Certificate::from_pem`, about which
nothing is assumed here. Tests on the bytes of a text that only ASCII can pass are made on its
characters.
-/

namespace NodeOs.Noded.Workload

open NodeOs.Library.InetAddr
open NodeOs.Noded.FileSystem

structure NodeIntent where
  apiServer : String
  clusterCa : String
  bootstrapToken : String
  clusterDns : List String
  clusterDomain : String
  nodeLabels : List String
  nodeTaints : List String
  deriving DecidableEq, Repr

/-- `str::strip_prefix`. -/
def stripPrefix : (front text : List Char) → Option (List Char)
  | [], text => some text
  | _ :: _, [] => none
  | wanted :: front, char :: text => if wanted = char then stripPrefix front text else none

/-- `str::split_once`, which is also `find` with the two slices around the
match. -/
def splitOnce (separator : Char) : List Char → Option (List Char × List Char)
  | [] => none
  | char :: text =>
      if char = separator then some ([], text)
      else (splitOnce separator text).map fun (before, after) => (char :: before, after)

def validateApiServer (url : String) : Except Error Unit :=
  match stripPrefix "https://".toList url.toList with
  | none => .error ["apiServer must use https"]
  | some rest =>
      if rest.head? ≠ some '[' then
        .error ["apiServer host must be a bracketed IPv6 literal, e.g. https://[2001:db8::1]:6443"]
      else match splitOnce ']' rest with
        | none => .error ["apiServer IPv6 literal is missing its closing ']'"]
        | some (upToClose, tail) =>
            let host := upToClose.drop 1
            match parseIpv6Addr host with
            | none => .error [s!"apiServer host is not a valid IPv6 address: {String.ofList host}"]
            | some _ =>
                -- The tail is only tested for its first character.
                if tail ≠ [] ∧ tail.head? ≠ some ':' then
                  .error ["apiServer has unexpected data after the IPv6 host"]
                else .ok ()

/-- The length in bytes. -/
def byteLength (text : List Char) : Nat := (text.map Char.utf8Size).sum

def lowerAlnum (char : Char) : Bool := char.isLower || char.isDigit

theorem is_digit_iff (char : Char) :
    char.isDigit = true ↔ 0x30 ≤ char.toNat ∧ char.toNat ≤ 0x39 := by
  change (decide _ && decide _) = true ↔ _
  rw [Bool.and_eq_true, decide_eq_true_eq, decide_eq_true_eq]
  rfl

theorem is_lower_iff (char : Char) :
    char.isLower = true ↔ 0x61 ≤ char.toNat ∧ char.toNat ≤ 0x7A := by
  change (decide _ && decide _) = true ↔ _
  rw [Bool.and_eq_true, decide_eq_true_eq, decide_eq_true_eq]
  rfl

theorem is_upper_iff (char : Char) :
    char.isUpper = true ↔ 0x41 ≤ char.toNat ∧ char.toNat ≤ 0x5A := by
  change decide _ = true ↔ _
  rw [decide_eq_true_eq]
  rfl

theorem is_alphanum_iff (char : Char) :
    char.isAlphanum = true ↔
      ((0x41 ≤ char.toNat ∧ char.toNat ≤ 0x5A) ∨ (0x61 ≤ char.toNat ∧ char.toNat ≤ 0x7A)) ∨
        (0x30 ≤ char.toNat ∧ char.toNat ≤ 0x39) := by
  change ((char.isUpper || char.isLower) || char.isDigit) = true ↔ _
  rw [Bool.or_eq_true, Bool.or_eq_true, is_upper_iff, is_lower_iff, is_digit_iff]

def validBootstrapToken (token : String) : Bool :=
  let alnum (text : List Char) (count : Nat) : Bool :=
    byteLength text == count && text.all lowerAlnum
  match splitOnce '.' token.toList with
  | some (id, secret) => alnum id 6 && alnum secret 16
  | none => false

def validDomain (domain : String) : Bool :=
  !domain.toList.isEmpty &&
    domain.toList.all fun char => char.isAlphanum || char = '.' || char = '-'

/-- The first address that does not parse is the one reported. -/
def validateClusterDns : List String → Except Error Unit
  | [] => .ok ()
  | address :: addresses =>
      match parseIpAddr address.toList with
      | none => .error [s!"clusterDNS entry is not an IP address: {address}"]
      | some _ => validateClusterDns addresses

def NodeIntent.validate (fromPem : FromPem) (intent : NodeIntent) : Except Error Unit := do
  validateApiServer intent.apiServer
  if !validBootstrapToken intent.bootstrapToken then
    throw ["bootstrapToken must match [a-z0-9]\x7b6\x7d.[a-z0-9]\x7b16\x7d"]
  match fromPem (asBytes intent.clusterCa) with
  | .error err => throw [s!"clusterCa is not a valid PEM certificate: {err}"]
  | .ok _ => pure ()
  if intent.clusterDns.isEmpty then
    throw ["clusterDNS must list at least one DNS address"]
  validateClusterDns intent.clusterDns
  if !validDomain intent.clusterDomain then
    throw ["clusterDomain must be a DNS name"]

/-- What an accepted intent guarantees, check by check. -/
structure Valid (fromPem : FromPem) (intent : NodeIntent) : Prop where
  apiServer : validateApiServer intent.apiServer = .ok ()
  bootstrapToken : validBootstrapToken intent.bootstrapToken = true
  clusterCa : ∃ certificate, fromPem (asBytes intent.clusterCa) = .ok certificate
  clusterDns : intent.clusterDns ≠ []
  clusterDnsEntries : validateClusterDns intent.clusterDns = .ok ()
  clusterDomain : validDomain intent.clusterDomain = true

theorem valid_of_validate {fromPem : FromPem} {intent : NodeIntent}
    (accepted : intent.validate fromPem = .ok ()) : Valid fromPem intent := by
  simp only [NodeIntent.validate, bind, Except.bind, pure, Except.pure, throw,
    throwThe, MonadExceptOf.throw] at accepted
  cases server : validateApiServer intent.apiServer with
  | error err => simp [server] at accepted
  | ok passed =>
  cases token : validBootstrapToken intent.bootstrapToken with
  | false => simp [server, token] at accepted
  | true =>
  cases pem : fromPem (asBytes intent.clusterCa) with
  | error err => simp [server, token, pem] at accepted
  | ok passed =>
  by_cases empty : intent.clusterDns = []
  · simp [server, token, pem, empty] at accepted
  cases dns : validateClusterDns intent.clusterDns with
  | error err => simp [server, token, pem, empty, dns] at accepted
  | ok passed =>
  cases domain : validDomain intent.clusterDomain with
  | false => simp [server, token, pem, empty, dns, domain] at accepted
  | true => exact ⟨server, token, ⟨_, pem⟩, empty, dns, domain⟩

theorem validate_of_valid {fromPem : FromPem} {intent : NodeIntent}
    (valid : Valid fromPem intent) : intent.validate fromPem = .ok () := by
  obtain ⟨certificate, clusterCa⟩ := valid.clusterCa
  simp [NodeIntent.validate, bind, Except.bind, valid.apiServer, valid.bootstrapToken,
    clusterCa, valid.clusterDns, valid.clusterDnsEntries, valid.clusterDomain, pure,
    Except.pure]

theorem split_once_some {separator : Char} {text before after : List Char}
    (split : splitOnce separator text = some (before, after)) :
    text = before ++ separator :: after ∧ separator ∉ before := by
  induction text generalizing before with
  | nil => simp [splitOnce] at split
  | cons char text ih =>
      simp only [splitOnce] at split
      split at split
      · rename_i same
        cases split
        simp [same]
      · rename_i different
        simp only [Option.map_eq_some_iff] at split
        obtain ⟨⟨front, back⟩, inner, same⟩ := split
        cases same
        obtain ⟨rfl, absent⟩ := ih inner
        refine ⟨rfl, ?_⟩
        simp [absent, Ne.symm different]

theorem split_once_append {separator : Char} {front : List Char} (tail : List Char)
    (absent : separator ∉ front) :
    splitOnce separator (front ++ separator :: tail) = some (front, tail) := by
  induction front with
  | nil => simp [splitOnce]
  | cons char front ih =>
      rw [List.mem_cons, not_or] at absent
      simp [splitOnce, Ne.symm absent.1, ih absent.2]

theorem strip_prefix_append (front rest : List Char) :
    stripPrefix front (front ++ rest) = some rest := by
  induction front with
  | nil => rfl
  | cons char front ih => rw [List.cons_append, stripPrefix, if_pos rfl, ih]

theorem strip_prefix_some {front text rest : List Char}
    (stripped : stripPrefix front text = some rest) : text = front ++ rest := by
  induction front generalizing text with
  | nil => simpa [stripPrefix] using stripped
  | cons wanted front ih =>
      cases text with
      | nil => simp [stripPrefix] at stripped
      | cons char text =>
          simp only [stripPrefix, Option.ite_none_right_eq_some] at stripped
          rw [stripped.1, ih stripped.2, List.cons_append]

/-- An accepted URL is `https://[`, an IPv6 address, a closing bracket, and a
tail of which only the first character is known. -/
theorem validate_api_server_shape {url : String} (accepted : validateApiServer url = .ok ()) :
    ∃ host tail, url.toList = "https://[".toList ++ host ++ ']' :: tail ∧
      (parseIpv6Addr host).isSome ∧ (tail = [] ∨ tail.head? = some ':') := by
  simp only [validateApiServer] at accepted
  split at accepted
  · simp at accepted
  rename_i rest stripped
  split at accepted
  · simp at accepted
  rename_i bracket
  split at accepted
  · simp at accepted
  rename_i upToClose tail found
  split at accepted
  · simp at accepted
  rename_i groups parsed
  split at accepted
  · simp at accepted
  rename_i clean
  obtain ⟨close, -⟩ := split_once_some found
  cases upToClose with
  | nil => simp [close] at bracket
  | cons first host =>
      have opening : first = '[' := by simpa [close] using bracket
      refine ⟨host, tail, ?_, Option.isSome_iff_exists.mpr ⟨groups, parsed⟩, ?_⟩
      · rw [strip_prefix_some stripped, close, opening]
        rfl
      · by_cases empty : tail = []
        · exact Or.inl empty
        · exact Or.inr (by simpa [empty] using clean)

/-- The intent of the crate's own tests. -/
def sampleIntent : NodeIntent where
  apiServer := "https://[2001:db8::1]:6443"
  clusterCa := nodePem
  bootstrapToken := "abcdef.0123456789abcdef"
  clusterDns := ["fd00::a"]
  clusterDomain := "cluster.local"
  nodeLabels := []
  nodeTaints := []

/-- The intent of another cluster. -/
def otherIntent : NodeIntent :=
  { sampleIntent with apiServer := "https://[2001:db8::2]:6443", clusterCa := serverPem }

/-- The sample stays valid when its server and its token are replaced by valid
ones. -/
theorem sample_intent_validates {apiServer bootstrapToken : String}
    (server : validateApiServer apiServer = .ok ())
    (token : validBootstrapToken bootstrapToken = true) :
    { sampleIntent with apiServer, bootstrapToken }.validate fixturePki.fromPem = .ok () :=
  validate_of_valid
    { apiServer := server
      bootstrapToken := token
      clusterCa := ⟨nodeCertificate, fixture_from_pem rfl⟩
      clusterDns := show sampleIntent.clusterDns ≠ [] by decide
      clusterDnsEntries := show validateClusterDns sampleIntent.clusterDns = .ok () by decide
      clusterDomain := show validDomain sampleIntent.clusterDomain = true by decide }

theorem sample_intent_valid : sampleIntent.validate fixturePki.fromPem = .ok () := by
  have server : validateApiServer sampleIntent.apiServer = .ok () := by decide
  have token : validBootstrapToken sampleIntent.bootstrapToken = true := by decide
  exact sample_intent_validates server token

theorem other_intent_validates : otherIntent.validate fixturePki.fromPem = .ok () :=
  validate_of_valid
    { apiServer := by decide
      bootstrapToken := by decide
      clusterCa := ⟨serverCertificate, fixture_from_pem_server rfl server_pem_ne⟩
      clusterDns := by decide
      clusterDnsEntries := by decide
      clusterDomain := by decide }

end NodeOs.Noded.Workload
