import SniRouter.H3.Packet

/-!
# Configuration and routing decisions

The loaded configuration of the HTTP/3 router: ACLs, routing rules and QUIC-LB servers,
with the two decisions taken from it. `Config.routeForSni` selects a backend for a
ClientHello, `Config.lbBackend` decodes the server from a connection ID.
-/

namespace SniRouter

/-- `protos::AclAction`. -/
inductive AclAction where
  | unspecified
  | drop
  | accept
  | continue
deriving DecidableEq

/-- `ipnet::Ipv6Net`: an address and a prefix length of at most 128 bits. -/
structure Ipv6Net where
  addr : Ipv6Addr
  prefixLen : ℕ
  valid : prefixLen ≤ 128

/-- The first `prefixLen` bits agree. -/
def Ipv6Net.contains (net : Ipv6Net) (ip : Ipv6Addr) : Bool :=
  net.addr >>> (128 - net.prefixLen) == ip >>> (128 - net.prefixLen)

structure AclRule where
  source : Ipv6Net
  action : AclAction

structure Acl where
  rules : List AclRule
  defaultAction : AclAction

/-- The first rule that contains the peer decides. -/
def aclAction (acl : Acl) (peer : Ipv6Addr) : AclAction :=
  match acl.rules.find? fun rule => rule.source.contains peer with
  | some rule => rule.action
  | none => acl.defaultAction

inductive Backend where
  | null
  | udp (addr : SocketAddr)
deriving DecidableEq

/-- A routing rule. The compiled regex is the predicate it decides on a name. -/
structure Rule where
  re : Bytes → Bool
  backend : Backend
  acl : Acl
  timeout : Option Duration

/-- `quic_lb::Codec`: the configuration ID and the AES-128 key of its cipher. -/
structure Codec where
  configId : UInt8
  key : Bytes

/-- A QUIC-LB configuration: its codec and the address of each server ID. -/
structure LbConfig where
  codec : Codec
  servers : Table ℕ SocketAddr

structure Config where
  quicLb : List LbConfig
  maxLifetime : Option Duration
  handshakeTimeout : Option Duration
  rules : List Rule
  default : Rule

structure Route where
  backend : Backend
  timeout : Option Duration
  sni : Option Bytes

/-! ## QUIC-LB -/

/-- `quic_lb::CID_LEN`. -/
def quicLbCidLen : ℕ := 17

/-- The plaintext of a routable connection ID. The low five bits of its first byte are
free. -/
def Codec.decrypt (cr : Crypto) (codec : Codec) (cid : Bytes) : Option Bytes :=
  if cid.length ≠ quicLbCidLen ∨ cid.getD 0 0 >>> 5 ≠ codec.configId then none
  else some (cr.decryptBlock codec.key (cid.drop 1))

/-- The server a connection ID encodes, by the first configuration that knows it. -/
def Config.lbBackend (cr : Crypto) (config : Config) (cid : Bytes) : Option SocketAddr :=
  config.quicLb.findSome? fun lb => do
    let plaintext ← lb.codec.decrypt cr cid
    lb.servers.lookup (beNat (plaintext.take 4))

/-- Whether `addr` is a server of some QUIC-LB configuration (`lb_path`). -/
def Config.isLbServer (config : Config) (addr : SocketAddr) : Bool :=
  config.quicLb.any fun lb => lb.servers.values.any (· == addr)

@[simp] theorem Config.lbBackend_of_no_quicLb {cr : Crypto} {config : Config} {cid : Bytes}
    (h : config.quicLb = []) : config.lbBackend cr cid = none := by
  simp [lbBackend, h]

/-! ## Server names -/

/-- The shorter of two optional limits. -/
def minTimeout : Option Duration → Option Duration → Option Duration
  | some a, some b => some (min a b)
  | some a, none => some a
  | none, some b => some b
  | none, none => none

/-- What the default rule decides. -/
def Config.defaultRoute (config : Config) (peer : Ipv6Addr) (sni : Option Bytes) :
    Except String Route :=
  let route backend := .ok ⟨backend, minTimeout config.maxLifetime config.default.timeout, sni⟩
  match aclAction config.default.acl peer with
  | .accept => route config.default.backend
  | .unspecified => .error "unspecified default ACL action"
  | .drop | .continue => route .null

/-- The loop over the rules: the first rule whose regex matches and whose ACL does not say
`CONTINUE` decides; after the last one the default rule does. -/
def Config.routeByRules (config : Config) (peer : Ipv6Addr) (name : Bytes) :
    List Rule → Except String Route
  | [] => config.defaultRoute peer (some name)
  | rule :: rules =>
    if !rule.re name then config.routeByRules peer name rules
    else
      let route backend := .ok ⟨backend, minTimeout config.maxLifetime rule.timeout, some name⟩
      match aclAction rule.acl peer with
      | .unspecified => .error "unspecified ACL action"
      | .continue => config.routeByRules peer name rules
      | .drop => route .null
      | .accept => route rule.backend

/-- The route of a client whose ClientHello carries the server name `sni`. -/
def Config.routeForSni (config : Config) (peer : SocketAddr) (sni : Option Bytes) :
    Except String Route :=
  match sni with
  | some name => config.routeByRules (peerIpV6 peer) name config.rules
  | none => config.defaultRoute (peerIpV6 peer) none

/-! ## First match

The decision as a specification: the rule that decides is the first whose regex matches and
whose ACL does not pass the client on, or the default rule. -/

/-- The rule that decides about a client, stated without the loop. -/
def Config.selectedRule (config : Config) (peer : SocketAddr) (sni : Option Bytes) : Rule :=
  (sni.bind fun name => config.rules.find? fun rule =>
    rule.re name && aclAction rule.acl (peerIpV6 peer) != .continue).getD config.default

/-- A route has the lifetime of `rule`, and a backend only when the ACL of `rule` accepts. -/
structure Route.TakenFrom (route : Route) (config : Config) (peer : Ipv6Addr) (rule : Rule) :
    Prop where
  timeout : route.timeout = minTimeout config.maxLifetime rule.timeout
  backend : ∀ addr, route.backend = .udp addr →
    rule.backend = .udp addr ∧ aclAction rule.acl peer = .accept

theorem Config.defaultRoute_takenFrom {config : Config} {peer : Ipv6Addr} {sni : Option Bytes}
    {route : Route} (h : config.defaultRoute peer sni = .ok route) :
    route.TakenFrom config peer config.default := by
  unfold defaultRoute at h
  dsimp only at h
  split at h
  case h_1 hacl =>
    cases h
    exact ⟨rfl, fun addr haddr => ⟨haddr, hacl⟩⟩
  case h_2 => cases h
  case h_3 | h_4 =>
    cases h
    exact ⟨rfl, fun addr haddr => by cases haddr⟩

theorem Config.routeByRules_takenFrom {config : Config} {peer : Ipv6Addr} {name : Bytes}
    {rules : List Rule} {route : Route}
    (h : config.routeByRules peer name rules = .ok route) :
    route.TakenFrom config peer ((rules.find? fun rule =>
      rule.re name && aclAction rule.acl peer != .continue).getD config.default) := by
  induction rules with
  | nil => exact defaultRoute_takenFrom h
  | cons rule rules ih =>
    unfold routeByRules at h
    split at h
    · rename_i hre
      have hre : rule.re name = false := by simpa using hre
      rw [List.find?_cons_of_neg (by simp [hre])]
      exact ih h
    · rename_i hre
      have hre : rule.re name = true := by simpa using hre
      dsimp only at h
      split at h
      case h_1 => cases h
      case h_2 hacl =>
        rw [List.find?_cons_of_neg (by simp [hacl])]
        exact ih h
      case h_3 hacl =>
        cases h
        rw [List.find?_cons_of_pos (by simp [hre, hacl])]
        exact ⟨rfl, fun addr haddr => by cases haddr⟩
      case h_4 hacl =>
        cases h
        rw [List.find?_cons_of_pos (by simp [hre, hacl])]
        exact ⟨rfl, fun addr haddr => ⟨haddr, hacl⟩⟩

/-- Every route is taken from the selected rule. -/
theorem Config.routeForSni_takenFrom {config : Config} {peer : SocketAddr} {sni : Option Bytes}
    {route : Route} (h : config.routeForSni peer sni = .ok route) :
    route.TakenFrom config (peerIpV6 peer) (config.selectedRule peer sni) := by
  cases sni with
  | none => exact defaultRoute_takenFrom h
  | some name => exact routeByRules_takenFrom h

end SniRouter
