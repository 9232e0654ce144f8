import SniRouter.Tcp.Load

/-!
# One configuration file for both routers

The two binaries read the same message, each with a loader of its own. When both accept it, their
rules are the same ones in the same order, with the same patterns, ACLs and lifetimes and with
backends that name the same host, so that every client is routed alike.
-/

namespace SniRouter

namespace Tcp.Protos

/-! ## What the HTTP/3 router sees of a message -/

def BackendType.toH3 : BackendType → SniRouter.Protos.BackendType
  | .null => .null
  | .proxy p => .proxy ⟨p.addr, p.proxyHeader⟩
  | .pass path => .pass path

def Backend.toH3 (pb : Backend) : SniRouter.Protos.Backend :=
  ⟨pb.backendType.map BackendType.toH3, pb.frontendTls.isSome, pb.sorryServer.isSome⟩

def Rule.toH3 (pb : Rule) : SniRouter.Protos.Rule :=
  ⟨pb.regex, pb.acl, pb.backend.map Backend.toH3, pb.maxLifetimeMs⟩

def SniConfig.toH3 (pb : SniConfig) : SniRouter.Protos.SniConfig :=
  ⟨pb.quicLb, pb.rules.map Rule.toH3, pb.default.map Rule.toH3, pb.maxLifetimeMs,
    pb.handshakeTimeoutMs⟩

end Tcp.Protos

/-- The backends that the two routers load from one message. -/
inductive SameBackend (env : LoadEnv) : Tcp.Backend → Backend → Prop
  | null : SameBackend env .null .null
  | proxy {addr : String} {backendTls : Option Tcp.BackendTls} {first : SocketAddr}
    {rest : List SocketAddr} (hlookup : env.lookupHost addr = .ok (first :: rest)) :
    SameBackend env (.proxy addr false none backendTls none) (.udp first)

section Shared

variable {env : Tcp.LoadEnv}

theorem resolveOneAddr_eq_ok_iff {env : LoadEnv} {addr : String} {a : SocketAddr} :
    resolveOneAddr env addr = .ok a ↔ ∃ rest, env.lookupHost addr = .ok (a :: rest) := by
  unfold resolveOneAddr
  cases env.lookupHost addr with
  | error e => simp
  | ok addrs =>
    cases addrs with
    | nil => simp
    | cons first rest => simp

/-- Both routers load the same backend from a message. -/
theorem sameBackend {pb : Tcp.Protos.Backend} {tcp : Tcp.Backend} {h3 : Backend}
    (htcp : Tcp.LoadsBackend env pb tcp) (hh3 : loadBackend env.toLoadEnv pb.toH3 = .ok h3) :
    SameBackend env.toLoadEnv tcp h3 := by
  unfold loadBackend Tcp.Protos.Backend.toH3 at hh3
  dsimp only at hh3
  split at hh3
  · cases hh3
  rename_i hfrontend
  split at hh3
  · cases hh3
  rename_i hfallback
  have hfrontend : pb.frontendTls = none := Option.not_isSome_iff_eq_none.mp hfrontend
  cases htcp with
  | withSorry hsome => simp [hsome] at hfallback
  | alone _ hbe hloads =>
    rw [hbe, Option.map_some] at hh3
    rw [hfrontend] at hloads
    cases hloads with
    | null =>
      cases hh3
      exact .null
    | pass => cases hh3
    | @proxy p =>
      dsimp only [Tcp.Protos.BackendType.toH3] at hh3
      split at hh3
      · cases hh3
      rename_i hheader
      have hheader : p.proxyHeader = false := Bool.eq_false_iff.mpr hheader
      obtain ⟨addr, haddr, hret⟩ := except_bind_eq_ok hh3
      cases hret
      obtain ⟨rest, hlookup⟩ := resolveOneAddr_eq_ok_iff.mp haddr
      rw [hheader]
      exact .proxy hlookup

/-- What both routers make of one rule. -/
theorem sameRule {pb : Tcp.Protos.Rule} {isDefault : Bool} {tcp : Tcp.Rule} {h3 : Rule}
    (htcp : Tcp.LoadsRule env pb isDefault tcp)
    (hh3 : loadRule env.toLoadEnv pb.toH3 isDefault = .ok h3) :
    ∃ rule : RoutingRule (Tcp.Backend × Backend), tcp = rule.toTcpRule Prod.fst ∧
      h3 = rule.toRule Prod.snd ∧
      SameBackend env.toLoadEnv rule.backend.1 rule.backend.2 := by
  obtain ⟨re, hre, hh3⟩ := except_bind_eq_ok hh3
  obtain ⟨acl, hacl, hh3⟩ := except_bind_eq_ok hh3
  obtain ⟨pbBackend, hpbBackend, hh3⟩ := except_bind_eq_ok hh3
  obtain ⟨backend, hbackend, hret⟩ := except_bind_eq_ok hh3
  cases hret
  obtain ⟨pbBackend', hpb, hloads⟩ := htcp.backend
  have hsame : pbBackend = pbBackend'.toH3 := by
    simpa [Tcp.Protos.Rule.toH3, hpb, okOr, eq_comm] using hpbBackend
  subst hsame
  have htcpRe := htcp.re
  have hregex : re = tcp.re := by
    cases isDefault with
    | true =>
      obtain ⟨hnone, hall⟩ := htcpRe
      simp only [loadRegex, Tcp.Protos.Rule.toH3, hnone, if_true] at hre
      cases hre
      exact hall.symm
    | false =>
      obtain ⟨pattern, hpattern, hcompile⟩ := htcpRe
      simp only [loadRegex, Tcp.Protos.Rule.toH3, hpattern, Bool.false_eq_true, if_false] at hre
      exact Except.ok.inj (hre.symm.trans hcompile)
  have hacls : acl = tcp.acl := Except.ok.inj (hacl.symm.trans htcp.acl)
  refine ⟨⟨tcp.re, tcp.acl, (tcp.backend, backend), tcp.timeout⟩, rfl, ?_,
    sameBackend hloads hbackend⟩
  rw [hregex, hacls, RoutingRule.toRule, htcp.timeout]
  rfl

/-- Both load the same rules, one by one. -/
theorem sameRules {pbs : List Tcp.Protos.Rule} {tcp : List Tcp.Rule} {h3 : List Rule}
    (htcp : List.Forall₂ (fun pb rule => Tcp.LoadsRule env pb false rule) pbs tcp)
    (hh3 : (pbs.map Tcp.Protos.Rule.toH3).mapM (fun rule => loadRule env.toLoadEnv rule false) =
      .ok h3) :
    ∃ rules : List (RoutingRule (Tcp.Backend × Backend)),
      tcp = (rules.map fun rule => rule.toTcpRule Prod.fst) ∧
      h3 = (rules.map fun rule => rule.toRule Prod.snd) ∧
      ∀ rule ∈ rules, SameBackend env.toLoadEnv rule.backend.1 rule.backend.2 := by
  induction htcp generalizing h3 with
  | nil =>
    cases hh3
    exact ⟨[], rfl, rfl, nofun⟩
  | @cons pb rule pbs tcp hrule hrest ih =>
    rw [List.map_cons, List.mapM_cons] at hh3
    obtain ⟨first, hfirst, hh3⟩ := except_bind_eq_ok hh3
    obtain ⟨others, hothers, hret⟩ := except_bind_eq_ok hh3
    cases hret
    obtain ⟨rule', rfl, rfl, hsame⟩ := sameRule hrule hfirst
    obtain ⟨rules, rfl, rfl, hsames⟩ := ih hothers
    exact ⟨rule' :: rules, rfl, rfl, List.forall_mem_cons.mpr ⟨hsame, hsames⟩⟩

/-- The rules of both configurations, in order, with the backend each router has for a rule; both
name the same host. -/
structure SharedRules (env : Tcp.LoadEnv) (tcp : Tcp.LoadedConfig) (h3 : Config)
    (rules : List (RoutingRule (Tcp.Backend × Backend)))
    (default : RoutingRule (Tcp.Backend × Backend)) : Prop where
  tcpRules : tcp.rules = rules.map fun rule => rule.toTcpRule Prod.fst
  tcpDefault : tcp.default = default.toTcpRule Prod.fst
  h3Rules : h3.rules = rules.map fun rule => rule.toRule Prod.snd
  h3Default : h3.default = default.toRule Prod.snd
  same : ∀ rule, rule ∈ rules ∨ rule = default →
    SameBackend env.toLoadEnv rule.backend.1 rule.backend.2

/-- Two accepted configurations have one list of rules. -/
theorem sharedRules {pb : Tcp.Protos.SniConfig} {tcp : Tcp.LoadedConfig} {h3 : Config}
    (htcp : Tcp.loadConfig env pb = .ok tcp) (hh3 : loadConfig env.toLoadEnv pb.toH3 = .ok h3) :
    tcp.maxLifetime = h3.maxLifetime ∧ tcp.handshakeTimeout = h3.handshakeTimeout ∧
    ∃ rules default, SharedRules env tcp h3 rules default := by
  obtain ⟨⟨pbDefault, hpbDefault, hdefault⟩, hrules, hlifetime, htimeout⟩ :=
    Tcp.loadConfig_eq_ok.mp htcp
  obtain ⟨quicLb, -, hh3⟩ := except_bind_eq_ok hh3
  obtain ⟨pbDefault', hpbDefault', hh3⟩ := except_bind_eq_ok hh3
  obtain ⟨h3Default, hh3Default, hh3⟩ := except_bind_eq_ok hh3
  obtain ⟨h3Rules, hh3Rules, hret⟩ := except_bind_eq_ok hh3
  cases hret
  have hsame : pbDefault' = pbDefault.toH3 := by
    simpa [Tcp.Protos.SniConfig.toH3, hpbDefault, okOr, eq_comm] using hpbDefault'
  subst hsame
  obtain ⟨default, htcpDefault, rfl, hsameDefault⟩ := sameRule hdefault hh3Default
  obtain ⟨rules, htcpRules, rfl, hsameRules⟩ := sameRules hrules hh3Rules
  refine ⟨hlifetime, htimeout, rules, default, htcpRules, htcpDefault, rfl, rfl, ?_⟩
  rintro rule (hmem | rfl)
  · exact hsameRules rule hmem
  · exact hsameDefault

/-- **One file, one decision.** When both routers accept a configuration message, they have one
list of rules, with backends that name the same host, and every client is routed by both as the
first match of this list says: the HTTP/3 router for a server name, the TCP router for a
ClientHello with this name. The limits that cover a whole connection agree, too. -/
theorem shared_config_routes_alike {pb : Tcp.Protos.SniConfig} {tcp : Tcp.LoadedConfig}
    {h3 : Config} (htcp : Tcp.loadConfig env pb = .ok tcp)
    (hh3 : loadConfig env.toLoadEnv pb.toH3 = .ok h3) :
    tcp.maxLifetime = h3.maxLifetime ∧ tcp.handshakeTimeout = h3.handshakeTimeout ∧
    ∃ rules default, SharedRules env tcp h3 rules default ∧
      ∀ (peer : SocketAddr) (sni : Option Bytes),
        RouteOf Prod.snd h3 sni (h3.routeForSni peer sni)
          (decision rules default (peerIpV6 peer) sni) ∧
        ∀ (σ : Type) (io : Tcp.Env σ) (stream : TcpStream) (initialBytes : Bytes)
          (read : HelloRead) (hello : Bytes), stream.peerAddr = .ok peer →
          readTlsClienthello stream.unread initialBytes = .ok read →
          read.clienthello = .ok hello → Tcp.extractSni hello = .ok sni →
          Tcp.RoutedBy io Prod.fst { stream with unread := read.unread } read.bytes
            (Tcp.routeAndConnect io tcp.toConfig stream initialBytes)
            (decision rules default (peerIpV6 peer) sni) := by
  obtain ⟨hlifetime, htimeout, rules, default, hshared⟩ := sharedRules htcp hh3
  refine ⟨hlifetime, htimeout, rules, default, hshared, fun peer sni => ⟨?_, ?_⟩⟩
  · exact Config.routeForSni_routeOf hshared.h3Rules hshared.h3Default peer sni
  · intro σ io stream initialBytes read hello hpeer hread hhello hsni
    exact Tcp.routeAndConnect_routedBy io hshared.tcpRules hshared.tcpDefault hpeer hread hhello
      hsni

end Shared

/-- One host for the name `b`, clients that ask for anything else are refused. -/
def sharedMessage : Tcp.Protos.SniConfig where
  quicLb := []
  rules := [⟨some "b", none, some (.mk (some (.proxy ⟨"b:443", false, none⟩)) none none), 0⟩]
  default := some ⟨none, some ⟨.drop, []⟩, some (.mk (some .null) none none), 0⟩
  maxLifetimeMs := 5000
  handshakeTimeoutMs := 0

/-- Both routers accept it, and route a client that asks for `b` to the host. -/
theorem shared_config_routes_alike_sample :
    ∃ tcp h3 rules default, Tcp.loadConfig Tcp.fileEnv sharedMessage = .ok tcp ∧
      loadConfig Tcp.fileEnv.toLoadEnv sharedMessage.toH3 = .ok h3 ∧
      SharedRules Tcp.fileEnv tcp h3 rules default ∧
      h3.routeForSni (.v4 0xc6336401 1000) (some [0x62]) =
        .ok ⟨.udp (.v4 0xc0000201 443), some 5000000000, some [0x62]⟩ ∧
      RouteOf (β := Tcp.Backend × Backend) Prod.snd h3 (some [0x62])
        (h3.routeForSni (.v4 0xc6336401 1000) (some [0x62]))
        (decision rules default (peerIpV6 (.v4 0xc6336401 1000)) (some [0x62])) := by
  obtain ⟨-, -, rules, default, hshared, halike⟩ :=
    @shared_config_routes_alike Tcp.fileEnv sharedMessage _ _ rfl rfl
  exact ⟨_, _, rules, default, rfl, rfl, hshared, rfl,
    (halike (.v4 0xc6336401 1000) (some [0x62])).1⟩

end SniRouter
