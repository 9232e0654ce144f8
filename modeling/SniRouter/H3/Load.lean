import SniRouter.H3.Config

/-!
# Loading the configuration

`load_config` turns the configuration message into a `Config` or refuses it. What it asks the
outside for (host names, key files, regexes, CIDR texts) is the argument `LoadEnv`; reading
and decoding the file itself is left out.

The results are about the QUIC-LB part: the addresses of a loaded configuration are normal
forms (`loadConfig_normal`), which is what lets the router compare them with the addresses of
its paths.
-/

namespace SniRouter

/-! ## The configuration message -/

namespace Protos

structure AclRule where
  source : String
  action : AclAction

structure Acl where
  defaultAction : AclAction
  rules : List AclRule

structure Proxy where
  addr : String
  proxyHeader : Bool

inductive BackendType where
  | null
  | proxy (proxy : Proxy)
  | pass (path : String)

/-- A backend. Of the two messages that only the TCP router supports it matters here whether
they are there. -/
structure Backend where
  backendType : Option BackendType
  hasFrontendTls : Bool
  hasSorry : Bool

structure Rule where
  regex : Option String
  acl : Option Acl
  backend : Option Backend
  maxLifetimeMs : ℕ

structure QuicLbServer where
  serverId : Option ℕ
  addr : String

structure QuicLbConfig where
  configId : ℕ
  keyFile : String
  servers : List QuicLbServer

structure SniConfig where
  quicLb : List QuicLbConfig
  rules : List Rule
  default : Option Rule
  maxLifetimeMs : ℕ
  handshakeTimeoutMs : ℕ

end Protos

/-! ## The outside -/

/-- `ipnet::IpNet`. -/
inductive IpNet where
  | v4 (addr : Ipv4Addr) (prefixLen : ℕ) (valid : prefixLen ≤ 32)
  | v6 (net : Ipv6Net)

/-- What loading a configuration asks for. -/
structure LoadEnv where
  /-- `resolver::lookup_host`. -/
  lookupHost : String → Except String (List SocketAddr)
  /-- `std::fs::read_to_string` on a key file. -/
  readToString : String → Except String (List Char)
  /-- `compile_full_match`: the names a regex matches as a whole. -/
  compileFullMatch : String → Except String (Bytes → Bool)
  /-- `parse::<ipnet::IpNet>()`. -/
  parseIpNet : String → Except String IpNet

/-- A limit in milliseconds, of which 0 means none. -/
def optMillis (ms : ℕ) : Option Duration := if ms > 0 then some (fromMillis ms) else none

/-! ## ACLs -/

/-- An IPv4 network as the network of its mapped addresses, without host bits
(`network().to_ipv6_mapped()` with 96 more prefix bits). -/
def IpNet.toIpv6Net : IpNet → Ipv6Net
  | .v4 addr prefixLen valid =>
    { addr := toIpv6Mapped ((addr >>> (32 - prefixLen)) <<< (32 - prefixLen))
      prefixLen := 96 + prefixLen
      valid := by omega }
  | .v6 net => net

def loadAclRules (env : LoadEnv) : List Protos.AclRule → Except String (List AclRule)
  | [] => .ok []
  | rule :: rules => do
    let source ← (env.parseIpNet rule.source).mapError fun _ => s!"parsing cidr {rule.source}"
    if rule.action = .unspecified then
      .error "ACL action can't be 'UNSPECIFIED'"
    else
      let rules ← loadAclRules env rules
      return ⟨source.toIpv6Net, rule.action⟩ :: rules

def loadAcl (env : LoadEnv) (pb : Protos.Acl) : Except String Acl := do
  let rules ← loadAclRules env pb.rules
  return ⟨rules, pb.defaultAction⟩

/-! ## Rules -/

def resolveOneAddr (env : LoadEnv) (addr : String) : Except String SocketAddr :=
  match env.lookupHost addr with
  | .error _ => .error s!"resolving backend address {repr addr}"
  | .ok [] => .error s!"backend address {repr addr} resolved to no socket addresses"
  | .ok (first :: _) => .ok first

def loadBackend (env : LoadEnv) (pb : Protos.Backend) : Except String Backend :=
  if pb.hasFrontendTls then
    .error "frontend_tls is TCP-only and is not supported by sni-router-h3"
  else if pb.hasSorry then
    .error "sorry backends are TCP-only and are not supported by sni-router-h3"
  else
    match pb.backendType with
    | none => .error "backend missing actual backend"
    | some .null => .ok .null
    | some (.proxy proxy) =>
      if proxy.proxyHeader then
        .error "proxy_header is TCP-only and is not supported by sni-router-h3"
      else do
        let addr ← resolveOneAddr env proxy.addr
        return .udp addr
    | some (.pass _) => .error "pass backends are TCP-only and are not supported by sni-router-h3"

/-- The regex of a rule. The one of the default rule is empty and matches every name. -/
def loadRegex (env : LoadEnv) (rule : Protos.Rule) (isDefault : Bool) :
    Except String (Bytes → Bool) :=
  if isDefault then
    match rule.regex with
    | some re => .error s!"default rule can't have regex. Had {re}"
    | none => .ok fun _ => true
  else do
    let re ← okOr rule.regex "No regex supplied in rule"
    env.compileFullMatch re

def loadRule (env : LoadEnv) (rule : Protos.Rule) (isDefault : Bool) : Except String Rule := do
  let re ← loadRegex env rule isDefault
  let acl ← rule.acl.elim (.ok ⟨[], .accept⟩) (loadAcl env)
  let backend ← okOr rule.backend "rule missing backend"
  let backend ← loadBackend env backend
  return ⟨re, backend, acl, optMillis rule.maxLifetimeMs⟩

/-! ## QUIC-LB -/

/-- `char::is_whitespace`: the characters with the property White_Space. -/
def isWhitespace (c : Char) : Bool :=
  (9 ≤ c.toNat && c.toNat ≤ 13) || (0x2000 ≤ c.toNat && c.toNat ≤ 0x200a) ||
    [0x20, 0x85, 0xa0, 0x1680, 0x2028, 0x2029, 0x202f, 0x205f, 0x3000].contains c.toNat

/-- `str::trim`. -/
def trim (text : List Char) : List Char :=
  ((text.dropWhile isWhitespace).reverse.dropWhile isWhitespace).reverse

/-- The value of a hexadecimal digit. -/
def hexDigit? (c : Char) : Option ℕ :=
  if '0' ≤ c ∧ c ≤ '9' then some (c.toNat - 48)
  else if 'a' ≤ c ∧ c ≤ 'f' then some (c.toNat - 87)
  else if 'A' ≤ c ∧ c ≤ 'F' then some (c.toNat - 55)
  else none

/-- The bytes two hexadecimal digits each stand for. -/
def hexBytes : List Char → Bytes
  | a :: b :: rest =>
    UInt8.ofNat ((hexDigit? a).getD 0 * 16 + (hexDigit? b).getD 0) :: hexBytes rest
  | _ => []

/-- `quic_lb::Codec::new`. -/
def Codec.new (configId : UInt8) (key : Bytes) : Except String Codec :=
  if configId < 7 then .ok ⟨configId, key⟩ else .error "QUIC-LB configuration ID must be 0..6"

/-- `quic_lb::Codec::from_key_file`. -/
def Codec.fromKeyFile (env : LoadEnv) (configId : UInt8) (path : String) : Except String Codec :=
  match env.readToString path with
  | .error _ => .error "reading QUIC-LB key file"
  | .ok text =>
    if (trim text).length = 32 ∧ (trim text).all fun c => (hexDigit? c).isSome then
      Codec.new configId (hexBytes (trim text))
    else .error "QUIC-LB key must contain 32 hexadecimal characters"

/-- The servers of one entry, added to those before it. -/
def loadServers (env : LoadEnv) (servers : Table ℕ SocketAddr) :
    List Protos.QuicLbServer → Except String (Table ℕ SocketAddr)
  | [] => .ok servers
  | server :: rest =>
    match server.serverId with
    | none => .error "QUIC-LB server ID is required"
    | some sid => do
      let addr ← resolveOneAddr env server.addr
      if (servers.lookup sid).isSome then
        .error "duplicate QUIC-LB server ID"
      else loadServers env (servers.insert sid (normalizeSocketAddr addr)) rest

/-- The QUIC-LB entries, of which those before it have the ids `configIds`. -/
def loadQuicLb (env : LoadEnv) (configIds : HashSet UInt8) :
    List Protos.QuicLbConfig → Except String (List LbConfig)
  | [] => .ok []
  | lb :: rest =>
    if lb.configId ≥ 256 then .error "QUIC-LB configuration ID must be 0..6"
    else if UInt8.ofNat lb.configId ∈ configIds then
      .error "duplicate QUIC-LB configuration ID"
    else do
      let codec ← Codec.fromKeyFile env (UInt8.ofNat lb.configId) lb.keyFile
      let servers ← loadServers env ∅ lb.servers
      if servers.size = 0 then
        .error "QUIC-LB configuration requires at least one backend"
      else
        let entries ← loadQuicLb env (configIds.insert (UInt8.ofNat lb.configId)) rest
        return ⟨codec, servers⟩ :: entries

def loadConfig (env : LoadEnv) (protocfg : Protos.SniConfig) : Except String Config := do
  let quicLb ← loadQuicLb env ∅ protocfg.quicLb
  let default ← okOr protocfg.default "default rule is missing"
  let default ← loadRule env default true
  let rules ← protocfg.rules.mapM fun rule => loadRule env rule false
  return {
    quicLb := quicLb
    maxLifetime := optMillis protocfg.maxLifetimeMs
    handshakeTimeout := optMillis protocfg.handshakeTimeoutMs
    rules := rules
    default := default }

/-! ## The addresses of the servers -/

/-- Every server address is its own normal form. -/
def LbConfig.Normal (lb : LbConfig) : Prop :=
  ∀ sid addr, lb.servers.lookup sid = some addr → normalizeSocketAddr addr = addr

/-- The addresses of servers are stored in their normal form. -/
theorem loadServers_normal {env : LoadEnv} {pbs : List Protos.QuicLbServer}
    {servers loaded : Table ℕ SocketAddr}
    (hservers : ∀ sid addr, servers.lookup sid = some addr → normalizeSocketAddr addr = addr)
    (h : loadServers env servers pbs = .ok loaded) :
    ∀ sid addr, loaded.lookup sid = some addr → normalizeSocketAddr addr = addr := by
  induction pbs generalizing servers with
  | nil =>
    cases h
    exact hservers
  | cons server rest ih =>
    unfold loadServers at h
    split at h
    · cases h
    rename_i sid hsid
    obtain ⟨addr, -, h⟩ := except_bind_eq_ok h
    split at h
    · cases h
    refine ih (fun sid' addr' hlook => ?_) h
    rw [Table.lookup_insert] at hlook
    split at hlook
    · cases hlook
      exact normalizeSocketAddr_idem addr
    · exact hservers sid' addr' hlook

/-- So are those of all entries. -/
theorem loadQuicLb_normal {env : LoadEnv} {pbs : List Protos.QuicLbConfig}
    {configIds : HashSet UInt8} {entries : List LbConfig}
    (h : loadQuicLb env configIds pbs = .ok entries) : ∀ lb ∈ entries, lb.Normal := by
  induction pbs generalizing configIds entries with
  | nil =>
    cases h
    intro lb hlb
    cases hlb
  | cons pb rest ih =>
    unfold loadQuicLb at h
    split at h
    · cases h
    split at h
    · cases h
    obtain ⟨codec, -, h⟩ := except_bind_eq_ok h
    obtain ⟨servers, hservers, h⟩ := except_bind_eq_ok h
    split at h
    · cases h
    obtain ⟨entries', hentries, h⟩ := except_bind_eq_ok h
    cases h
    intro lb hlb
    rcases List.mem_cons.mp hlb with rfl | hlb
    · exact loadServers_normal (fun sid addr hlook => by cases hlook) hservers
    · exact ih hentries lb hlb

/-- The servers of a loaded configuration have normal addresses. -/
theorem loadConfig_normal {env : LoadEnv} {protocfg : Protos.SniConfig} {config : Config}
    (h : loadConfig env protocfg = .ok config) : ∀ lb ∈ config.quicLb, lb.Normal := by
  obtain ⟨quicLb, hquicLb, h⟩ := except_bind_eq_ok h
  obtain ⟨rule, -, h⟩ := except_bind_eq_ok h
  obtain ⟨default, -, h⟩ := except_bind_eq_ok h
  obtain ⟨rules, -, h⟩ := except_bind_eq_ok h
  cases h
  exact loadQuicLb_normal hquicLb

/-- A server of a configuration with normal addresses is its own normal form. -/
theorem Config.normalize_of_isLbServer {config : Config} {addr : SocketAddr}
    (hconfig : ∀ lb ∈ config.quicLb, lb.Normal) (h : config.isLbServer addr = true) :
    normalizeSocketAddr addr = addr := by
  obtain ⟨lb, hlb, h⟩ := List.any_eq_true.mp h
  obtain ⟨addr', hmem, heq⟩ := List.any_eq_true.mp h
  obtain rfl : addr' = addr := by simpa using heq
  obtain ⟨⟨sid, addr⟩, hentry, rfl⟩ := List.mem_map.mp hmem
  exact hconfig lb hlb sid addr (Table.mem_toList.mp hentry)

end SniRouter
