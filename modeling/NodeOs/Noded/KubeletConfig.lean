import NodeOs.Library.YamlBlock
import NodeOs.Noded.K8sRender

/-!
# What the rendered kubelet configuration says

The text is read back with the YAML reader. Validation fixes the lines; what is
left open is how the reader takes the domain and the addresses, which stand in
the text unquoted.
-/

namespace NodeOs.Noded.KubeletConfig

open NodeOs.Library.InetAddr NodeOs.Library.YamlScalar NodeOs.Library.YamlBlock
open NodeOs.Noded.FileSystem NodeOs.Noded.Workload NodeOs.Noded.K8sRender

def text (value : String) : Yaml := .scalar (.str value.toList)

def flag (value : Bool) : Yaml := .scalar (.bool value)

/-- The entries below the addresses. -/
def hardening : List (List Char × Yaml) :=
  [ ("rotateCertificates".toList, flag true),
    ("authentication".toList, .map
      [ ("anonymous".toList, .map [ ("enabled".toList, flag false) ]),
        ("webhook".toList, .map [ ("enabled".toList, flag true) ]),
        ("x509".toList, .map
          [ ("clientCAFile".toList, text "/var/lib/nodeos/k8s/kubelet/cluster-ca.pem") ]) ]),
    ("authorization".toList, .map [ ("mode".toList, text "Webhook") ]) ]

/-- The document with the domain and the addresses left open. -/
def template (domain : Scalar) (dns : List Yaml) : Yaml :=
  .map
    ([ ("apiVersion".toList, text "kubelet.config.k8s.io/v1beta1"),
       ("kind".toList, text "KubeletConfiguration"),
       ("cgroupDriver".toList, text "cgroupfs"),
       ("containerRuntimeEndpoint".toList, text "unix:///run/containerd/containerd.sock"),
       ("clusterDomain".toList, .scalar domain),
       ("clusterDNS".toList, .seq dns) ] ++ hardening)

/-- The text reads as the template with the domain and the addresses as strings. -/
def ReadsBack (intent : NodeIntent) : Prop :=
  read (renderKubeletConfig intent).toList =
    some (template (.str intent.clusterDomain.toList) (intent.clusterDns.map text))

def beforeDomain : List String :=
  [ "apiVersion: kubelet.config.k8s.io/v1beta1", "kind: KubeletConfiguration",
    "cgroupDriver: cgroupfs",
    "containerRuntimeEndpoint: unix:///run/containerd/containerd.sock" ]

def afterDns : List String :=
  [ "rotateCertificates: true", "authentication:", "  anonymous:", "    enabled: false",
    "  webhook:", "    enabled: true", "  x509:",
    "    clientCAFile: /var/lib/nodeos/k8s/kubelet/cluster-ca.pem", "authorization:",
    "  mode: Webhook" ]

def kubeletConfigLines (intent : NodeIntent) : List String :=
  beforeDomain ++ ("clusterDomain: " ++ intent.clusterDomain) :: "clusterDNS:" ::
    (intent.clusterDns.map ("  - " ++ ·) ++ afterDns)

theorem render_lines (intent : NodeIntent) :
    renderKubeletConfig intent = unlines (kubeletConfigLines intent) := by
  simp [renderKubeletConfig, kubeletConfigLines, beforeDomain, afterDns, cluster_ca_path_text]

def entry (column : Nat) (key : String) (value : Option String) : Token :=
  ⟨column, .entry key.toList (value.map String.toList)⟩

def beforeDomainTokens : List Token :=
  [ entry 0 "apiVersion" "kubelet.config.k8s.io/v1beta1",
    entry 0 "kind" "KubeletConfiguration", entry 0 "cgroupDriver" "cgroupfs",
    entry 0 "containerRuntimeEndpoint" "unix:///run/containerd/containerd.sock" ]

def afterDnsTokens : List Token :=
  [ entry 0 "rotateCertificates" "true", entry 0 "authentication" none,
    entry 2 "anonymous" none, entry 4 "enabled" "false", entry 2 "webhook" none,
    entry 4 "enabled" "true", entry 2 "x509" none,
    entry 4 "clientCAFile" "/var/lib/nodeos/k8s/kubelet/cluster-ca.pem",
    entry 0 "authorization" none, entry 2 "mode" "Webhook" ]

theorem scan_before_domain : scan (beforeDomain.map String.toList) = some beforeDomainTokens := by
  decide +kernel

theorem scan_after_dns : scan (afterDns.map String.toList) = some afterDnsTokens := by
  decide +kernel

theorem parse_after_dns (fuel : Nat) :
    parseEntries (fuel + 12) 0 afterDnsTokens = some (hardening, []) :=
  rfl

section Address

variable {address : List Char}

theorem address_char_plain {char : Char} (allowed : IsAddressChar char) :
    isPlainChar char = true ∧ (char ≠ ':' → indicators.contains char = false) := by
  have range := address_char_range allowed
  refine ⟨plain_char_of_range (by omega) (by omega), fun noColon => ?_⟩
  have foreign : ∀ other ∈ indicators, other ≠ ':' → ¬IsAddressChar other := by decide
  refine Bool.eq_false_iff.mpr fun member => ?_
  exact foreign char (by simpa using member) noColon allowed

/-- An accepted address, on characters. -/
structure AddressChars (address : List Char) : Prop where
  chars : ∀ char ∈ address, IsAddressChar char
  string : readsAsOther address = false
  starts : startsPlain address = true

theorem address_chars {value : IpAddr} (parsed : parseIpAddr address = some value) :
    AddressChars address := by
  obtain ⟨chars, shape⟩ := parse_ip_addr_shape parsed
  refine ⟨chars, ?_, ?_⟩
  · cases shape with
    | inl colon =>
        exact reads_as_string (is_int_with_mark (Or.inr rfl) colon) (is_float_with_colon colon)
          (Or.inl colon)
    | inr stops =>
        have stop : '.' ∈ address := List.count_pos_iff.mp (by omega)
        exact reads_as_string (is_int_with_mark (Or.inl rfl) stop) (is_float_with_stops stops)
          (Or.inr stop)
  · cases address with
    | nil => simp at shape
    | cons first rest =>
        have plain := address_char_plain (chars first (by simp))
        by_cases colon : first = ':'
        · cases rest with
          | nil =>
              have refused : parseIpAddr [':'] = none := by decide
              rw [colon, refused] at parsed
              cases parsed
          | cons next rest =>
              have follows := (address_char_plain (chars next (by simp))).1
              have own := plain.1
              rw [colon] at own ⊢
              simp [startsPlain, own, follows]
        · exact starts_plain_of_first plain.1 (plain.2 colon)

/-- Behind a dash the address is a scalar, unless its last colon makes it a key. -/
def addressToken (address : List Char) : Token :=
  if address.getLast? = some ':' then ⟨4, .entry address.dropLast none⟩ else ⟨4, .plain address⟩

def addressNode (address : List Char) : Yaml :=
  if address.getLast? = some ':' then .map [(address.dropLast, .scalar .null)]
  else .scalar (.str address)

theorem scan_address (shape : AddressChars address) :
    scanLine 0 ("  - ".toList ++ address) = some [⟨2, .dash⟩, addressToken address] := by
  have plain (char : Char) (member : char ∈ address) : isPlainChar char = true :=
    (address_char_plain (shape.chars char member)).1
  have noWhite (char : Char) (member : char ∈ address) : isWhite char = false :=
    plain_char_not_white (plain char member)
  have starts := shape.starts
  have indented : "  - ".toList ++ address =
      List.replicate 2 ' ' ++ ('-' :: ' ' :: address) := rfl
  rw [indented, scan_line_spaces, scan_line_dash]
  have entry : scanLine 4 address = some [addressToken address] := by
    cases filled : address with
    | nil => simp [filled, startsPlain] at starts
    | cons first rest =>
        have foreign : ∀ other : Char, other = ' ' ∨ other = '#' ∨ other = '-' →
            ¬IsAddressChar other := by
          rintro other (rfl | rfl | rfl) <;> decide
        have allowed := shape.chars first (by simp [filled])
        rw [scan_line_text _ _ ⟨fun same => foreign first (Or.inl same) allowed,
          fun same => foreign first (Or.inr (Or.inl same)) allowed,
          fun same => foreign first (Or.inr (Or.inr same)) allowed⟩, ← filled]
        unfold scanEntry addressToken
        by_cases colon : address.getLast? = some ':'
        · have joined : address.dropLast ++ [':'] = address :=
            List.dropLast_append_getLast? ':' colon
          have inside (char : Char) (member : char ∈ address.dropLast) : char ∈ address :=
            List.dropLast_subset address member
          have key : plainKey address.dropLast = some address.dropLast :=
            plain_key_of_plain (fun char member => plain char (inside char member))
              (by rw [joined, starts])
          have split : splitKey address = some (address.dropLast, []) := by
            have trailing := split_key_trailing fun char (member : char ∈ address.dropLast) =>
              noWhite char (inside char member)
            rwa [joined] at trailing
          rw [split, if_pos colon]
          simp [key, scanValue]
        · have body : scanPlain address = some address :=
            (scan_plain_eq_self address).mpr (is_plain_tail_of_plain plain colon)
          rw [split_key_none noWhite colon, if_neg colon]
          simp [plainScalar, starts, body]
  rw [entry]
  rfl

theorem parse_address (shape : AddressChars address) (fuel : Nat) {next : Token}
    (rest : List Token) (left : next.column < 4) :
    parseBelow (fuel + 4) 2 (addressToken address :: next :: rest) =
      some (addressNode address, next :: rest) := by
  unfold addressToken addressNode
  by_cases colon : address.getLast? = some ':'
  · rw [if_pos colon, if_pos colon]
    apply parse_below_deeper (by simp)
    apply parse_node_entry
    apply parse_entries_open (by simp; omega)
    · exact parse_below_empty (by omega)
    · exact parse_entries_end (by omega)
    · simp
  · rw [if_neg colon, if_neg colon]
    apply parse_below_deeper (by simp)
    have string := (resolve_str_iff address).mpr shape.string
    simp [parseNode, string]

def dnsTokens (addresses : List (List Char)) : List Token :=
  addresses.flatMap fun address => [⟨2, .dash⟩, addressToken address]

/-- The items of the sequence, in the order of the addresses. -/
theorem parse_addresses (addresses : List (List Char))
    (accepted : ∀ address ∈ addresses, AddressChars address) (fuel : Nat) {next : Token}
    (rest : List Token) (left : next.column < 2) :
    parseItems (addresses.length + (fuel + 4)) 2 (dnsTokens addresses ++ next :: rest) =
      some (addresses.map addressNode, next :: rest) := by
  induction addresses with
  | nil =>
      have apart : next.column ≠ 2 := by omega
      exact parse_items_end apart
  | cons address addresses ih =>
      have tail := ih fun other member => accepted other (List.mem_cons_of_mem _ member)
      have shape := accepted address (by simp)
      have enough : (address :: addresses).length + (fuel + 4) =
          addresses.length + (fuel + 4) + 1 := by
        rw [List.length_cons]
        omega
      rw [enough]
      have item : parseBelow (addresses.length + (fuel + 4)) 2
          (addressToken address :: (dnsTokens addresses ++ next :: rest)) =
            some (addressNode address, dnsTokens addresses ++ next :: rest) := by
        rw [← Nat.add_assoc]
        cases addresses with
        | nil => exact parse_address shape _ rest (by omega)
        | cons other addresses =>
            have dash : (⟨2, .dash⟩ : Token).column < 4 := by decide
            exact parse_address shape _ _ dash
      exact parse_items_item item tail

end Address

theorem scan_dns (addresses : List String)
    (accepted : ∀ address ∈ addresses, AddressChars address.toList) (more : List (List Char)) :
    scan ((addresses.map ("  - " ++ ·)).map String.toList ++ more) =
      (scan more).map (dnsTokens (addresses.map String.toList) ++ ·) := by
  induction addresses with
  | nil =>
      simp only [List.map_nil, List.nil_append]
      cases scan more <;> rfl
  | cons address addresses ih =>
      have tail := ih fun other member => accepted other (List.mem_cons_of_mem _ member)
      have line := scan_address (accepted address (by simp))
      rw [List.map_cons, List.map_cons, String.toList_append, List.cons_append,
        scan_cons _ line, tail]
      cases scan more <;> rfl

def domainToken (domain : List Char) : Token :=
  ⟨0, .entry "clusterDomain".toList (some domain)⟩

def dnsKey : Token := entry 0 "clusterDNS" none

def documentKeys : List (List Char) :=
  [ "apiVersion".toList, "kind".toList, "cgroupDriver".toList, "containerRuntimeEndpoint".toList,
    "clusterDomain".toList, "clusterDNS".toList, "rotateCertificates".toList,
    "authentication".toList, "authorization".toList ]

theorem document_keys_nodup : documentKeys.Nodup := by
  decide

theorem parse_document (domain : List Char) (addresses : List (List Char))
    (accepted : ∀ address ∈ addresses, AddressChars address) (filled : addresses ≠ []) :
    parse (beforeDomainTokens ++ domainToken domain :: dnsKey ::
        (dnsTokens addresses ++ afterDnsTokens)) =
      some (template (resolve domain) (addresses.map addressNode)) := by
  obtain ⟨first, others, shape⟩ := List.exists_cons_of_ne_nil filled
  have length : (beforeDomainTokens ++ domainToken domain :: dnsKey ::
      (dnsTokens addresses ++ afterDnsTokens)).length = 2 * addresses.length + 16 := by
    have pairs : (dnsTokens addresses).length = 2 * addresses.length := by
      simp [dnsTokens, Nat.mul_comm]
    simp [beforeDomainTokens, afterDnsTokens, pairs]
  have left : (entry 0 "rotateCertificates" "true").column < 2 := by decide
  have items : parseItems (addresses.length + (5 * addresses.length + 38 + 4)) 2
      (dnsTokens addresses ++ afterDnsTokens) =
        some (addresses.map addressNode, afterDnsTokens) :=
    parse_addresses addresses accepted _ _ left
  have seq : parseNode (6 * addresses.length + 43) (dnsTokens addresses ++ afterDnsTokens) =
      some (.seq (addresses.map addressNode), afterDnsTokens) := by
    rw [show 6 * addresses.length + 43 =
      addresses.length + (5 * addresses.length + 38 + 4) + 1 by omega]
    rw [shape] at items ⊢
    exact parse_node_dash items
  have keys := document_keys_nodup
  unfold documentKeys at keys
  simp only [List.nodup_cons] at keys
  obtain ⟨version, kind, driver, endpoint, clusterDomain, dns, _⟩ := keys
  have dnsEntry : parseEntries (6 * addresses.length + 45) 0
      (dnsKey :: (dnsTokens addresses ++ afterDnsTokens)) =
        some (("clusterDNS".toList, .seq (addresses.map addressNode)) :: hardening, []) := by
    have below : parseBelow (6 * addresses.length + 44) 0
        (dnsTokens addresses ++ afterDnsTokens) =
          some (.seq (addresses.map addressNode), afterDnsTokens) := by
      rw [shape] at seq ⊢
      exact parse_below_deeper (by decide) seq
    have hardened : parseEntries (6 * addresses.length + 44) 0 afterDnsTokens =
        some (hardening, []) :=
      parse_after_dns (6 * addresses.length + 32)
    have fresh : "clusterDNS".toList ∉ hardening.map Prod.fst := dns
    have apart : (⟨2, .dash⟩ : Token).column ≠ 0 := by decide
    rw [shape] at below ⊢
    exact parse_entries_open apart below hardened fresh
  unfold parse
  rw [length, show 3 * (2 * addresses.length + 16) + 3 = 6 * addresses.length + 50 + 1 by omega]
  have document : parseNode (6 * addresses.length + 50 + 1) (beforeDomainTokens ++
      domainToken domain :: dnsKey :: (dnsTokens addresses ++ afterDnsTokens)) =
        some (template (resolve domain) (addresses.map addressNode), []) :=
    parse_node_entry (parse_entries_scalar (parse_entries_scalar (parse_entries_scalar
      (parse_entries_scalar (parse_entries_scalar dnsEntry clusterDomain) endpoint) driver) kind)
      version)
  rw [document]

section Domain

variable {domain : String}

/-- A letter or digit is no indicator; of the other two characters the dash is one. -/
theorem domain_char_plain {char : Char}
    (allowed : (char.isAlphanum || char = '.' || char = '-') = true) :
    isPlainChar char = true ∧ char ≠ ':' ∧ (char ≠ '-' → indicators.contains char = false) := by
  have range : 0x2D ≤ char.toNat ∧ char.toNat ≤ 0x7A := by
    simp only [Bool.or_eq_true, decide_eq_true_eq, is_alphanum_iff] at allowed
    rcases allowed with (((upper | lower) | digit) | rfl) | rfl
    · omega
    · omega
    · omega
    · decide
    · decide
  have foreign : ∀ other ∈ indicators, other ≠ '-' →
      (other.isAlphanum || other = '.' || other = '-') = false := by
    decide
  refine ⟨plain_char_of_range (by omega) (by omega), ?_, fun noDash => ?_⟩
  · rintro rfl
    exact absurd allowed (by decide)
  · refine Bool.eq_false_iff.mpr fun member => ?_
    have refused := foreign char (by simpa using member) noDash
    simp [allowed] at refused

/-- What validation says about the domain, on characters. -/
theorem domain_chars (valid : validDomain domain = true) :
    ∃ first rest, domain.toList = first :: rest ∧ ∀ char ∈ first :: rest,
      isPlainChar char = true ∧ char ≠ ':' ∧ (char ≠ '-' → indicators.contains char = false) := by
  simp only [validDomain, Bool.and_eq_true, Bool.not_eq_true', List.isEmpty_eq_false_iff,
    List.all_eq_true] at valid
  obtain ⟨first, rest, filled⟩ := List.exists_cons_of_ne_nil valid.1
  refine ⟨first, rest, filled, fun char member => domain_char_plain (valid.2 char ?_)⟩
  rw [filled]
  exact member

/-- A domain that is accepted stands in the text as it is, unless it is a lone dash. -/
theorem domain_scalar (valid : validDomain domain = true) :
    plainScalar domain.toList = if domain = "-" then none else some domain.toList := by
  obtain ⟨first, rest, filled, plain⟩ := domain_chars valid
  have tail : isPlainTail domain.toList = true := by
    rw [filled]
    exact is_plain_tail_of_chars fun char member => ⟨(plain char member).1, (plain char member).2.1⟩
  have body := (scan_plain_eq_self domain.toList).mpr tail
  have dash : domain = "-" ↔ first = '-' ∧ rest = [] := by
    rw [← String.toList_inj, filled]
    simp
  have starts : startsPlain domain.toList = !decide (domain = "-") := by
    have own := plain first (by simp)
    by_cases opening : first = '-'
    · cases rest with
      | nil =>
          have lone : domain = "-" := dash.mpr ⟨opening, rfl⟩
          simp only [lone]
          decide
      | cons next rest =>
          have different : domain ≠ "-" := fun same => absurd (dash.mp same).2 (by simp)
          have follows := (plain next (by simp)).1
          rw [filled, opening]
          simp [startsPlain, follows, different]
          decide
    · have different : domain ≠ "-" := fun same => opening (dash.mp same).1
      rw [filled, starts_plain_of_first own.1 (own.2.2 opening)]
      simp [different]
  unfold plainScalar
  rw [starts, body]
  by_cases lone : domain = "-" <;> simp [lone]

theorem scan_domain (valid : validDomain domain = true) :
    scanLine 0 ("clusterDomain: ".toList ++ domain.toList) =
      if domain = "-" then none else some [domainToken domain.toList] := by
  obtain ⟨first, rest, filled, plain⟩ := domain_chars valid
  have own := plain first (by simp)
  have opening : isWhite first = false ∧ first ≠ '#' := by
    refine ⟨plain_char_not_white own.1, ?_⟩
    rintro rfl
    exact absurd (own.2.2 (by decide)) (by decide)
  have split : "clusterDomain: ".toList ++ domain.toList =
      'c' :: "lusterDomain".toList ++ ':' :: ' ' :: first :: rest := by
    rw [filled]
    rfl
  rw [split, scan_line_entry 0 (by decide) (by decide) (by decide) opening, ← filled,
    domain_scalar valid]
  by_cases lone : domain = "-" <;> simp [lone, domainToken]

end Domain

theorem cluster_dns_chars {addresses : List String}
    (accepted : validateClusterDns addresses = .ok ()) :
    ∀ address ∈ addresses, AddressChars address.toList := by
  induction addresses with
  | nil => simp
  | cons address addresses ih =>
      unfold validateClusterDns at accepted
      cases parsed : parseIpAddr address.toList with
      | none => simp [parsed] at accepted
      | some value =>
          rw [parsed] at accepted
          intro other member
          cases List.mem_cons.mp member with
          | inl same =>
              rw [same]
              exact address_chars parsed
          | inr later => exact ih accepted other later

/-- No value of an accepted intent breaks a line. -/
theorem lines_rendered {intent : NodeIntent} (domain : validDomain intent.clusterDomain = true)
    (dns : ∀ address ∈ intent.clusterDns, AddressChars address.toList) :
    lines (renderKubeletConfig intent).toList = (kubeletConfigLines intent).map String.toList := by
  have joined {front back : List Char} (early : ∀ char ∈ front, isBreak char = false)
      (late : ∀ char ∈ back, isBreak char = false) : ∀ char ∈ front ++ back, isBreak char = false :=
    fun char member => (List.mem_append.mp member).elim (early char) (late char)
  have fixed : ∀ text ∈ beforeDomain ++ afterDns ++ ["clusterDomain: ", "clusterDNS:", "  - "],
      ∀ char ∈ text.toList, isBreak char = false := by
    decide +kernel
  obtain ⟨first, rest, filled, plain⟩ := domain_chars domain
  rw [render_lines, unlines_chars]
  apply lines_flat
  intro text member
  obtain ⟨line, listed, same⟩ := List.mem_map.mp member
  rw [← same]
  simp only [kubeletConfigLines, List.mem_append, List.mem_cons, List.mem_map] at listed
  rcases listed with early | rfl | rfl | ⟨address, inside, rfl⟩ | late
  · exact fixed line (by simp [early])
  · rw [String.toList_append]
    apply joined (fixed "clusterDomain: " (by simp))
    intro char inside
    rw [filled] at inside
    exact plain_char_not_break (plain char inside).1
  · exact fixed "clusterDNS:" (by simp)
  · rw [String.toList_append]
    apply joined (fixed "  - " (by simp))
    intro char member
    exact plain_char_not_break (address_char_plain ((dns address inside).chars char member)).1
  · exact fixed line (by simp [late])

/-- What the reader makes of the text, for every intent that is accepted. -/
theorem read_rendered {fromPem : FromPem} {intent : NodeIntent} (valid : Valid fromPem intent) :
    read (renderKubeletConfig intent).toList =
      if intent.clusterDomain = "-" then none
      else some (template (resolve intent.clusterDomain.toList)
        (intent.clusterDns.map fun address => addressNode address.toList)) := by
  have dns := cluster_dns_chars valid.clusterDnsEntries
  have domainLine := scan_domain valid.clusterDomain
  have keyLine : scanLine 0 "clusterDNS:".toList = some [dnsKey] := by decide
  unfold NodeOs.Library.YamlBlock.read
  rw [lines_rendered valid.clusterDomain dns, kubeletConfigLines, List.map_append, List.map_cons,
    List.map_cons, List.map_append, String.toList_append, scan_append scan_before_domain]
  by_cases lone : intent.clusterDomain = "-"
  · rw [if_pos lone] at domainLine ⊢
    rw [scan_fails _ domainLine]
    rfl
  · rw [if_neg lone] at domainLine ⊢
    rw [scan_cons _ domainLine, scan_cons _ keyLine, scan_dns _ dns, scan_after_dns]
    have document := parse_document intent.clusterDomain.toList
      (intent.clusterDns.map String.toList)
      (by simpa using dns) (by simpa using valid.clusterDns)
    rw [List.map_map] at document
    exact document

theorem template_injective {domain domain' : Scalar} {dns dns' : List Yaml}
    (same : template domain dns = template domain' dns') : domain = domain' ∧ dns = dns' := by
  simpa [template] using same

theorem address_node_text_iff (address : String) :
    addressNode address.toList = text address ↔ address.toList.getLast? ≠ some ':' := by
  unfold addressNode text
  by_cases colon : address.toList.getLast? = some ':' <;> simp [colon]

/-- An accepted intent is read back exactly when its domain is no lone dash and
none of YAML's other words and numbers, and no address ends in a colon. -/
theorem kubelet_config_reads_back_iff (fromPem : FromPem) (intent : NodeIntent)
    (accepted : intent.validate fromPem = .ok ()) :
    ReadsBack intent ↔
      intent.clusterDomain ≠ "-" ∧ readsAsOther intent.clusterDomain.toList = false ∧
        ∀ address ∈ intent.clusterDns, address.toList.getLast? ≠ some ':' := by
  have view := read_rendered (valid_of_validate accepted)
  unfold ReadsBack
  rw [view]
  by_cases lone : intent.clusterDomain = "-"
  · simp [lone]
  · rw [if_neg lone, ← resolve_str_iff]
    constructor
    · intro same
      obtain ⟨domain, dns⟩ := template_injective (Option.some.inj same)
      refine ⟨lone, domain, fun address listed => ?_⟩
      exact (address_node_text_iff address).mp (List.map_inj_left.mp dns address listed)
    · intro ⟨_, domain, dns⟩
      rw [domain]
      congr 2
      apply List.map_inj_left.mpr
      intro address listed
      exact (address_node_text_iff address).mpr (dns address listed)

theorem kubelet_config_reads_back_iff_sample :
    sampleIntent.validate fixturePki.fromPem = .ok () ∧ ReadsBack sampleIntent := by
  refine ⟨sample_intent_valid, ?_⟩
  apply (kubelet_config_reads_back_iff fixturePki.fromPem sampleIntent sample_intent_valid).mpr
  decide

/-- An address whose last groups are left out. -/
def colonIntent : NodeIntent := { sampleIntent with clusterDns := ["fd00::"] }

/-- A domain that YAML takes for a truth value. -/
def wordIntent : NodeIntent := { sampleIntent with clusterDomain := "true" }

theorem kubelet_config_misread :
    (colonIntent.validate fixturePki.fromPem = .ok () ∧ ¬ReadsBack colonIntent) ∧
      wordIntent.validate fixturePki.fromPem = .ok () ∧ ¬ReadsBack wordIntent := by
  have sample := valid_of_validate sample_intent_valid
  have colon : Valid fixturePki.fromPem colonIntent :=
    { sample with
      clusterDns := by decide
      clusterDnsEntries := by decide }
  have word : Valid fixturePki.fromPem wordIntent := { sample with clusterDomain := by decide }
  refine ⟨⟨validate_of_valid colon, ?_⟩, validate_of_valid word, ?_⟩
  · intro back
    unfold ReadsBack at back
    rw [read_rendered colon, if_neg (by decide)] at back
    obtain ⟨_, dns⟩ := template_injective (Option.some.inj back)
    exact absurd ((address_node_text_iff "fd00::").mp (List.map_inj_left.mp dns _ (by decide)))
      (by decide)
  · intro back
    unfold ReadsBack at back
    rw [read_rendered word, if_neg (by decide)] at back
    obtain ⟨domain, _⟩ := template_injective (Option.some.inj back)
    exact absurd domain (by decide)

end NodeOs.Noded.KubeletConfig
