import NodeOs.Noded.FileSystem

/-!
# The configuration of `noded`

Defaults are filled in when the file is parsed, so every field is present here.
`parse_config` checks what the parsers cannot.
-/

namespace NodeOs.Noded

open NodeOs.Noded.FileSystem

inductive Profile where
  | k8s
  | kvm
  deriving DecidableEq, Repr

inductive Role where
  | viewer
  | operator
  | maintainer
  | breakglass
  deriving DecidableEq, Repr

def Role.level : Role → Nat
  | .viewer => 1
  | .operator => 2
  | .maintainer => 3
  | .breakglass => 4

def Role.satisfies (role required : Role) : Bool := required.level ≤ role.level

structure RoleBinding where
  role : Role
  subjects : List String
  deriving DecidableEq, Repr

structure AuthorizationConfig where
  roles : List RoleBinding
  deriving DecidableEq, Repr

structure EstConfig where
  serverUrl : String
  bearerToken : String
  caCertFile : Path
  label : Option String
  deriving DecidableEq, Repr

structure EnrollmentConfig where
  est : EstConfig
  renewCheckIntervalSecs : Nat
  deriving DecidableEq, Repr

/-- The `tpm` block: a node key that lives in a PKCS#11 token. -/
structure TpmPkcs11Config where
  library : Path
  store : Path
  tokenLabel : String
  keyLabel : String
  pinFile : Path
  tcti : String
  deriving DecidableEq, Repr

/-- The defaults of the block. -/
def defaultTpm : TpmPkcs11Config where
  library := .ofNames ["usr", "lib", "libtpm2_pkcs11.so"]
  store := .ofNames ["var", "lib", "nodeos", "pkcs11"]
  tokenLabel := "nodeos"
  keyLabel := "nodeos-est-key"
  pinFile := .ofNames ["var", "lib", "nodeos", "pki", "pkcs11.pin"]
  tcti := "device:/dev/tpmrm0"

inductive SocketAddr where
  | v4 (ip : BitVec 32) (port : UInt16)
  | v6 (ip : BitVec 128) (port : UInt16)
  deriving DecidableEq, Repr

def SocketAddr.isIpv6 : SocketAddr → Bool
  | .v4 _ _ => false
  | .v6 _ _ => true

structure Config where
  listenAddr : SocketAddr
  nodeId : String
  profile : Profile
  certFile : Path
  keyFile : Path
  clientCa : Path
  enrollment : EnrollmentConfig
  authorization : AuthorizationConfig
  tpm : Option TpmPkcs11Config
  deriving DecidableEq, Repr

/-- The Unicode property `White_Space`, which Rust's `trim` goes by. -/
def isWhitespace (char : Char) : Bool :=
  let code := char.toNat
  (9 ≤ code && code ≤ 13) || (0x2000 ≤ code && code ≤ 0x200a) ||
    [0x20, 0x85, 0xa0, 0x1680, 0x2028, 0x2029, 0x202f, 0x205f, 0x3000].contains code

def trim (text : String) : String :=
  .ofList ((text.toList.dropWhile isWhitespace).reverse.dropWhile isWhitespace).reverse

def validateEstConfig (config : EstConfig) : Except Error Unit := do
  if !config.serverUrl.startsWith "https://" then
    throw ["enrollment.est.serverUrl must use https"]
  if (trim config.bearerToken).isEmpty then
    throw ["enrollment.est.bearerToken is required"]
  if config.caCertFile = ⟨false, []⟩ then
    throw ["enrollment.est.caCertFile is required"]

/-- `from_str` of `yaml_serde` and of `toml`, defaults included. -/
structure ConfigFormats where
  yaml : String → Except String Config
  toml : String → Except String Config

def parseConfig (formats : ConfigFormats) (data : String) (isYaml : Bool) :
    Except Error Config := do
  let config ←
    if isYaml then (formats.yaml data).mapError fun err => ["parse YAML config", err]
    else (formats.toml data).mapError fun err => ["parse TOML config", err]
  if !config.listenAddr.isIpv6 then
    throw ["listenAddr must be IPv6-only; use an IPv6 literal such as [::1]:9443"]
  if (trim config.nodeId).isEmpty then
    throw ["nodeId is required"]
  validateEstConfig config.enrollment.est
  return config

/-- What the checks of a parsed configuration let through. -/
structure Accepted (config : Config) : Prop where
  ipv6 : config.listenAddr.isIpv6 = true
  nodeId : (trim config.nodeId).isEmpty = false
  https : config.enrollment.est.serverUrl.startsWith "https://" = true
  bearerToken : (trim config.enrollment.est.bearerToken).isEmpty = false
  caCertFile : config.enrollment.est.caCertFile ≠ ⟨false, []⟩

theorem validate_est_config_ok_iff (config : EstConfig) :
    validateEstConfig config = .ok () ↔ config.serverUrl.startsWith "https://" = true ∧
      (trim config.bearerToken).isEmpty = false ∧ config.caCertFile ≠ ⟨false, []⟩ := by
  unfold validateEstConfig
  cases config.serverUrl.startsWith "https://" with
  | false => simp [bind, Except.bind, throw, throwThe, MonadExceptOf.throw]
  | true =>
      cases (trim config.bearerToken).isEmpty with
      | true => simp [bind, Except.bind, throw, throwThe, MonadExceptOf.throw]
      | false =>
          by_cases missing : config.caCertFile = ⟨false, []⟩ <;>
            simp [missing, pure, Except.pure, throw, throwThe, MonadExceptOf.throw]

theorem parse_config_accepts {formats : ConfigFormats} {data : String} {config : Config}
    (parsed : formats.yaml data = .ok config) (accepted : Accepted config) :
    parseConfig formats data true = .ok config := by
  have checked := (validate_est_config_ok_iff config.enrollment.est).mpr
    ⟨accepted.https, accepted.bearerToken, accepted.caCertFile⟩
  simp [parseConfig, parsed, Except.mapError, accepted.ipv6, accepted.nodeId, checked, bind,
    Except.bind, pure, Except.pure]

/-- The configuration of the crate's own tests. -/
def testConfig : Config where
  listenAddr := .v6 1 9443
  nodeId := "qemu-node-001"
  profile := .k8s
  certFile := .ofNames ["etc", "nodeos", "pki", "server.crt"]
  keyFile := .ofNames ["etc", "nodeos", "pki", "server.key"]
  clientCa := .ofNames ["etc", "nodeos", "pki", "client-ca.crt"]
  enrollment :=
    { est :=
        { serverUrl := "https://[2001:db8::10]"
          bearerToken := "bootstrap-token"
          caCertFile := .ofNames ["etc", "nodeos", "pki", "est-ca.crt"]
          label := none }
      renewCheckIntervalSecs := 3600 }
  authorization := { roles := [] }
  tpm := none

theorem test_config_accepted : Accepted testConfig where
  ipv6 := rfl
  nodeId := by decide
  https := String.startsWith_string_iff.mpr (by decide)
  bearerToken := by decide
  caCertFile := by decide

end NodeOs.Noded
