import SniRouter.Lib.FirstMatch
import SniRouter.Tcp.Forwarding

/-!
# One routing decision for both binaries

The TCP router and the HTTP/3 router each have a loop of their own over the rules. Given the
same rules, with whatever backends each of them knows, both take the first-match decision
`decision`: a rule whose ACL accepts gives its backend, one whose ACL drops the client makes
the TCP router close the connection and the HTTP/3 router select the null backend.
-/

namespace SniRouter

/-! ## The decision -/

/-- A rule with backends of type `β`. -/
structure RoutingRule (β : Type) where
  re : Bytes → Bool
  acl : Acl
  backend : β
  timeout : Option Duration

/-- What an ACL says by its answer. -/
def aclVerdict : AclAction → Verdict
  | .accept => .accept
  | .drop => .refuse
  | .continue => .pass
  | .unspecified => .fail

section Decision

variable {β : Type}

/-- A rule has a say about a name when its regex matches. -/
def RoutingRule.verdict (rule : RoutingRule β) (peer : Ipv6Addr) (name : Bytes) : Verdict :=
  if rule.re name then aclVerdict (aclAction rule.acl peer) else .pass

/-- The decision about a client: the first rule that matches its server name and whose ACL does
not say `CONTINUE`, or the default rule. -/
def decision (rules : List (RoutingRule β)) (default : RoutingRule β) (peer : Ipv6Addr)
    (sni : Option Bytes) : Decision (RoutingRule β) :=
  match sni with
  | some name =>
    firstMatch (fun rule => rule.verdict peer name) rules
      (aclVerdict (aclAction default.acl peer)) default
  | none => (aclVerdict (aclAction default.acl peer)).decision default

/-- A rule as the HTTP/3 router has it. -/
def RoutingRule.toRule (rule : RoutingRule β) (udp : β → Backend) : Rule :=
  ⟨rule.re, udp rule.backend, rule.acl, rule.timeout⟩

/-- A rule as the TCP router has it. -/
def RoutingRule.toTcpRule (rule : RoutingRule β) (tcp : β → Tcp.Backend) : Tcp.Rule :=
  ⟨rule.re, tcp rule.backend, rule.acl, rule.timeout⟩

/-- A rule is passed when its regex does not match or its ACL says so. -/
theorem verdict_eq_pass {rule : RoutingRule β} {peer : Ipv6Addr} {name : Bytes} :
    rule.verdict peer name = .pass ↔
      rule.re name = false ∨ aclAction rule.acl peer = .continue := by
  unfold RoutingRule.verdict
  cases rule.re name with
  | false => simp
  | true => cases aclAction rule.acl peer <;> simp [aclVerdict]

theorem aclVerdict_eq_accept {action : AclAction} :
    aclVerdict action = .accept ↔ action = .accept := by
  cases action <;> simp [aclVerdict]

/-- Whoever is given a backend is accepted by the ACL of its rule. -/
theorem accept_of_decision {rules : List (RoutingRule β)} {default rule : RoutingRule β}
    {peer : Ipv6Addr} {sni : Option Bytes} (h : decision rules default peer sni = .take rule) :
    (rule ∈ rules ∨ rule = default) ∧ aclAction rule.acl peer = .accept := by
  cases sni with
  | none =>
    obtain ⟨haccept, rfl⟩ := Verdict.decision_eq_take.mp h
    exact ⟨Or.inr rfl, aclVerdict_eq_accept.mp haccept⟩
  | some name =>
    rcases firstMatch_eq_take h with ⟨hmem, hverdict⟩ | ⟨rfl, haccept⟩
    · unfold RoutingRule.verdict at hverdict
      split at hverdict
      · exact ⟨Or.inl hmem, aclVerdict_eq_accept.mp hverdict⟩
      · cases hverdict
    · exact ⟨Or.inr rfl, aclVerdict_eq_accept.mp haccept⟩

/-! ## The HTTP/3 router -/

/-- The route of a decision. -/
def RouteOf (udp : β → Backend) (config : Config) (sni : Option Bytes) :
    Except String Route → Decision (RoutingRule β) → Prop
  | r, .take rule =>
    r = .ok ⟨udp rule.backend, minTimeout config.maxLifetime rule.timeout, sni⟩
  | r, .refuse rule => r = .ok ⟨.null, minTimeout config.maxLifetime rule.timeout, sni⟩
  | r, .fail _ =>
    r = .error "unspecified ACL action" ∨ r = .error "unspecified default ACL action"

variable {rules : List (RoutingRule β)} {default : RoutingRule β}

theorem Config.defaultRoute_routeOf {udp : β → Backend} {config : Config}
    (hdefault : config.default = default.toRule udp) (peer : Ipv6Addr) (sni : Option Bytes) :
    RouteOf udp config sni (config.defaultRoute peer sni)
      ((aclVerdict (aclAction default.acl peer)).decision default) := by
  have hacl : config.default.acl = default.acl := congrArg Rule.acl hdefault
  unfold Config.defaultRoute
  rw [hdefault, ← hacl, hdefault]
  cases h : aclAction (default.toRule udp).acl peer with
  | unspecified => exact Or.inr rfl
  | drop => rfl
  | accept => rfl
  | «continue» => rfl

/-- What a rule that does not pass decides: its regex matches, and its ACL does not say
`CONTINUE`. -/
theorem of_verdict_ne_pass {rule : RoutingRule β} {peer : Ipv6Addr} {name : Bytes}
    (h : rule.verdict peer name ≠ .pass) :
    rule.re name = true ∧ rule.verdict peer name = aclVerdict (aclAction rule.acl peer) := by
  unfold RoutingRule.verdict at h ⊢
  split at h
  · rename_i hre
    exact ⟨hre, if_pos hre⟩
  · exact absurd rfl h

theorem Config.routeByRules_routeOf {udp : β → Backend} {config : Config}
    (hdefault : config.default = default.toRule udp) (peer : Ipv6Addr) (name : Bytes) :
    RouteOf udp config (some name)
      (config.routeByRules peer name (rules.map fun rule => rule.toRule udp))
      (decision rules default peer (some name)) := by
  -- a rule that passes is skipped by both `continue`s of the loop
  refine loop_firstMatch (P := RouteOf udp config (some name))
    (f := fun rules => config.routeByRules peer name (rules.map fun rule => rule.toRule udp))
    (Config.defaultRoute_routeOf hdefault peer (some name)) ?_ ?_ rules
  · intro rule rules hpass
    rw [List.map_cons, routeByRules]
    rcases verdict_eq_pass.mp hpass with hre | hacl
    · simp [RoutingRule.toRule, hre]
    · simp [RoutingRule.toRule, hacl]
  · intro rule rules hstop
    obtain ⟨hre, hverdict⟩ := of_verdict_ne_pass hstop
    rw [hverdict, List.map_cons, routeByRules]
    have hre : (rule.toRule udp).re name = true := hre
    have hacl : (rule.toRule udp).acl = rule.acl := rfl
    simp only [hre, Bool.not_true, Bool.false_eq_true, if_false, hacl]
    cases haction : aclAction rule.acl peer with
    | unspecified => exact Or.inl rfl
    | drop => rfl
    | accept => rfl
    | «continue» => exact absurd (verdict_eq_pass.mpr (Or.inr haction)) hstop

/-- The HTTP/3 router routes as the rules decide. -/
theorem Config.routeForSni_routeOf {udp : β → Backend} {config : Config}
    (hrules : config.rules = rules.map fun rule => rule.toRule udp)
    (hdefault : config.default = default.toRule udp) (peer : SocketAddr) (sni : Option Bytes) :
    RouteOf udp config sni (config.routeForSni peer sni)
      (decision rules default (peerIpV6 peer) sni) := by
  cases sni with
  | none => exact Config.defaultRoute_routeOf hdefault (peerIpV6 peer) none
  | some name =>
    rw [Config.routeForSni, hrules]
    exact Config.routeByRules_routeOf hdefault (peerIpV6 peer) name

/-! ## The TCP router -/

/-- The selection of a decision. -/
def SelectedBy (tcp : β → Tcp.Backend) :
    Except String Tcp.Selected → Decision (RoutingRule β) → Prop
  | r, .take rule => ∃ sni, r = .ok ⟨sni, tcp rule.backend, rule.timeout⟩
  | r, .refuse _ => r = .error "rejected by ACL" ∨ r = .error "rejected by default ACL"
  | r, .fail _ =>
    r = .error "unspecified ACL action" ∨ r = .error "unspecified default ACL action"

namespace Tcp

theorem Config.selectDefault_selectedBy {tcp : β → Backend} {config : Config}
    (hdefault : config.default = default.toTcpRule tcp) (peer : Ipv6Addr) :
    SelectedBy tcp (config.selectDefault peer)
      ((aclVerdict (aclAction default.acl peer)).decision default) := by
  have hacl : (default.toTcpRule tcp).acl = default.acl := rfl
  rw [Config.selectDefault, hdefault, hacl]
  cases aclAction default.acl peer with
  | unspecified => exact Or.inr rfl
  | drop => exact Or.inr rfl
  | accept => exact ⟨none, rfl⟩
  | «continue» => exact Or.inr rfl

theorem Config.selectByRules_selectedBy {tcp : β → Backend} {config : Config}
    (hdefault : config.default = default.toTcpRule tcp) (peer : Ipv6Addr) (name : Bytes) :
    SelectedBy tcp
      (config.selectByRules peer name (rules.map fun rule => rule.toTcpRule tcp))
      (decision rules default peer (some name)) := by
  refine loop_firstMatch (P := SelectedBy tcp)
    (f := fun rules => config.selectByRules peer name (rules.map fun rule => rule.toTcpRule tcp))
    (Config.selectDefault_selectedBy hdefault peer) ?_ ?_ rules
  · intro rule rules hpass
    rw [List.map_cons, selectByRules]
    rcases verdict_eq_pass.mp hpass with hre | hacl
    · simp [RoutingRule.toTcpRule, hre]
    · simp [RoutingRule.toTcpRule, hacl]
  · intro rule rules hstop
    obtain ⟨hre, hverdict⟩ := of_verdict_ne_pass hstop
    rw [hverdict, List.map_cons, selectByRules]
    have hre : (rule.toTcpRule tcp).re name = true := hre
    have hacl : (rule.toTcpRule tcp).acl = rule.acl := rfl
    simp only [hre, Bool.not_true, Bool.false_eq_true, if_false, hacl]
    cases haction : aclAction rule.acl peer with
    | unspecified => exact Or.inl rfl
    | drop => exact Or.inl rfl
    | accept => exact ⟨some name, rfl⟩
    | «continue» => exact absurd (verdict_eq_pass.mpr (Or.inr haction)) hstop

/-- A ClientHello from which a server name, or none, is extracted. -/
theorem Config.selectBackend_selectedBy {tcp : β → Backend} {config : Config}
    (hrules : config.rules = rules.map fun rule => rule.toTcpRule tcp)
    (hdefault : config.default = default.toTcpRule tcp) (peer : Ipv6Addr) {hello : Bytes}
    {sni : Option Bytes} (hsni : extractSni hello = .ok sni) :
    SelectedBy tcp (config.selectBackend peer (.ok hello)) (decision rules default peer sni) := by
  rw [Config.selectBackend]
  simp only [hsni]
  cases sni with
  | none => exact Config.selectDefault_selectedBy hdefault peer
  | some name =>
    rw [hrules]
    exact Config.selectByRules_selectedBy hdefault peer name

/-- Every selection is the backend of a rule that accepts the client, with a ClientHello or
without. -/
theorem Config.selectBackend_accept {config : Config} {peer : Ipv6Addr}
    {clienthello : Except String Bytes} {selected : Selected}
    (h : config.selectBackend peer clienthello = .ok selected) :
    ∃ rule, (rule ∈ config.rules ∨ rule = config.default) ∧ aclAction rule.acl peer = .accept ∧
      selected.backend = rule.backend := by
  -- the rules of the configuration as rules of the specification
  let ofRule : Rule → RoutingRule Backend := fun rule =>
    ⟨rule.re, rule.acl, rule.backend, rule.timeout⟩
  have hrules : config.rules = (config.rules.map ofRule).map fun rule => rule.toTcpRule id := by
    rw [List.map_map]
    exact (List.map_id _).symm
  have hselected : ∃ sni, SelectedBy id (.ok selected)
      (decision (config.rules.map ofRule) (ofRule config.default) peer sni) := by
    cases clienthello with
    | error e =>
      refine ⟨none, ?_⟩
      rw [← h]
      exact Config.selectDefault_selectedBy rfl peer
    | ok hello =>
      cases hsni : extractSni hello with
      | error e => simp [Config.selectBackend, hsni] at h
      | ok sni => exact ⟨sni, h ▸ Config.selectBackend_selectedBy hrules rfl peer hsni⟩
  obtain ⟨sni, hselected⟩ := hselected
  -- only a decision to take gives a selection
  cases hdecision : decision (config.rules.map ofRule) (ofRule config.default) peer sni with
  | take rule =>
    rw [hdecision] at hselected
    obtain ⟨sni', hselected⟩ := hselected
    cases hselected
    obtain ⟨hmem | rfl, haccept⟩ := accept_of_decision hdecision
    · obtain ⟨rule', hmem', rfl⟩ := List.mem_map.mp hmem
      exact ⟨rule', Or.inl hmem', haccept, rfl⟩
    · exact ⟨config.default, Or.inr rfl, haccept, rfl⟩
  | refuse rule =>
    rw [hdecision] at hselected
    rcases hselected with hselected | hselected <;> cases hselected
  | fail rule =>
    rw [hdecision] at hselected
    rcases hselected with hselected | hselected <;> cases hselected

/-- The connection of a decision. A client that is refused is closed with nothing tried. -/
def RoutedBy {σ : Type} (env : Env σ) (tcp : β → Backend) (stream : TcpStream) (bytes : Bytes) :
    RoutedConnection → Decision (RoutingRule β) → Prop
  | r, .take rule => ∃ sni, r = ⟨connectOrHandoffBackendWithTimeout env stream bytes
      (tcp rule.backend) rule.timeout, sni, rule.timeout⟩
  | r, .refuse _ => r = .failed "rejected by ACL" ∨ r = .failed "rejected by default ACL"
  | r, .fail _ =>
    r = .failed "unspecified ACL action" ∨ r = .failed "unspecified default ACL action"

/-- The TCP router connects as the rules decide. -/
theorem routeAndConnect_routedBy {σ : Type} (env : Env σ) {tcp : β → Backend} {config : Config}
    (hrules : config.rules = rules.map fun rule => rule.toTcpRule tcp)
    (hdefault : config.default = default.toTcpRule tcp) {stream : TcpStream}
    {initialBytes : Bytes} {peer : SocketAddr} (hpeer : stream.peerAddr = .ok peer)
    {read : HelloRead} (hread : readTlsClienthello stream.unread initialBytes = .ok read)
    {hello : Bytes} (hhello : read.clienthello = .ok hello) {sni : Option Bytes}
    (hsni : extractSni hello = .ok sni) :
    RoutedBy env tcp { stream with unread := read.unread } read.bytes
      (routeAndConnect env config stream initialBytes)
      (decision rules default (peerIpV6 peer) sni) := by
  have hselected := Config.selectBackend_selectedBy hrules hdefault (peerIpV6 peer) hsni
  simp only [routeAndConnect, hpeer, hread, hhello]
  cases hdecision : decision rules default (peerIpV6 peer) sni with
  | take rule =>
    rw [hdecision] at hselected
    obtain ⟨sni', hselected⟩ := hselected
    simp only [hselected]
    exact ⟨sni', rfl⟩
  | refuse rule =>
    rw [hdecision] at hselected
    rcases hselected with hselected | hselected
    · simp only [hselected]
      exact Or.inl rfl
    · simp only [hselected]
      exact Or.inr rfl
  | fail rule =>
    rw [hdecision] at hselected
    rcases hselected with hselected | hselected
    · simp only [hselected]
      exact Or.inl rfl
    · simp only [hselected]
      exact Or.inr rfl

/-- Whatever a client sends, it is closed or connected to the backend of a rule that accepts
it. -/
theorem routeAndConnect_accept {σ : Type} (env : Env σ) (config : Config) (stream : TcpStream)
    (initialBytes : Bytes) :
    (∃ e, routeAndConnect env config stream initialBytes = .failed e) ∨
      ∃ peer rule unread bytes timeout, stream.peerAddr = .ok peer ∧
        (rule ∈ config.rules ∨ rule = config.default) ∧
        aclAction rule.acl (peerIpV6 peer) = .accept ∧
        (routeAndConnect env config stream initialBytes).connecting =
          connectOrHandoffBackendWithTimeout env { stream with unread := unread } bytes
            rule.backend timeout := by
  unfold routeAndConnect
  cases hpeer : stream.peerAddr with
  | error e => exact Or.inl ⟨e, rfl⟩
  | ok peer =>
    cases readTlsClienthello stream.unread initialBytes with
    | error e => exact Or.inl ⟨e, rfl⟩
    | ok read =>
      dsimp only
      cases hselected : config.selectBackend (peerIpV6 peer) read.clienthello with
      | error e => exact Or.inl ⟨e, rfl⟩
      | ok selected =>
        obtain ⟨rule, hrule, haccept, hbackend⟩ := Config.selectBackend_accept hselected
        refine Or.inr ⟨peer, rule, read.unread, read.bytes, selected.timeout, rfl, hrule,
          haccept, ?_⟩
        dsimp only
        rw [hbackend]

end Tcp

/-- **One decision.** For one list of rules and a default rule, the TCP router on a ClientHello
with the server name `sni` and the HTTP/3 router asked for `sni` both do what `decision` says,
and only a rule whose ACL accepts the client gives it a backend. This last part holds for every
TCP client, with a ClientHello or without. -/
theorem routers_decide_alike (rules : List (RoutingRule β)) (default : RoutingRule β)
    (tcp : β → Tcp.Backend) (udp : β → Backend) (peer : SocketAddr) (sni : Option Bytes) :
    (∀ (σ : Type) (env : Tcp.Env σ) (config : Tcp.Config) (stream : TcpStream)
      (initialBytes : Bytes) (read : HelloRead) (hello : Bytes),
      config.rules = (rules.map fun rule => rule.toTcpRule tcp) →
      config.default = default.toTcpRule tcp →
      stream.peerAddr = .ok peer →
      readTlsClienthello stream.unread initialBytes = .ok read →
      read.clienthello = .ok hello →
      Tcp.extractSni hello = .ok sni →
      Tcp.RoutedBy env tcp { stream with unread := read.unread } read.bytes
        (Tcp.routeAndConnect env config stream initialBytes)
        (decision rules default (peerIpV6 peer) sni)) ∧
    (∀ config : Config, config.rules = (rules.map fun rule => rule.toRule udp) →
      config.default = default.toRule udp →
      RouteOf udp config sni (config.routeForSni peer sni)
        (decision rules default (peerIpV6 peer) sni)) ∧
    (∀ rule, decision rules default (peerIpV6 peer) sni = .take rule →
      (rule ∈ rules ∨ rule = default) ∧ aclAction rule.acl (peerIpV6 peer) = .accept) ∧
    ∀ (σ : Type) (env : Tcp.Env σ) (config : Tcp.Config) (stream : TcpStream)
      (initialBytes : Bytes),
      (∃ e, Tcp.routeAndConnect env config stream initialBytes = .failed e) ∨
        ∃ peer rule unread bytes timeout, stream.peerAddr = .ok peer ∧
          (rule ∈ config.rules ∨ rule = config.default) ∧
          aclAction rule.acl (peerIpV6 peer) = .accept ∧
          (Tcp.routeAndConnect env config stream initialBytes).connecting =
            Tcp.connectOrHandoffBackendWithTimeout env { stream with unread := unread } bytes
              rule.backend timeout := by
  refine ⟨?_, ?_, ?_, ?_⟩
  · intro σ env config stream initialBytes read hello hrules hdefault hpeer hread hhello hsni
    exact Tcp.routeAndConnect_routedBy env hrules hdefault hpeer hread hhello hsni
  · intro config hrules hdefault
    exact Config.routeForSni_routeOf hrules hdefault peer sni
  · intro rule hdecision
    exact accept_of_decision hdecision
  · intro σ env config stream initialBytes
    exact Tcp.routeAndConnect_accept env config stream initialBytes

end Decision

/-- Two rules for the name `b`: the first hands the client on, the second takes it. -/
def sampleRules : List (RoutingRule Bool) :=
  [⟨fun name => name = [0x62], ⟨[], .continue⟩, false, none⟩,
    ⟨fun name => name = [0x62], ⟨[], .accept⟩, true, none⟩]

def sampleDefault : RoutingRule Bool := ⟨fun _ => true, ⟨[], .drop⟩, false, none⟩

def sampleTcp (proxyHeader : Bool) : Tcp.Backend := .proxy "b:443" proxyHeader none none none

def sampleUdp (_ : Bool) : Backend := .udp (.v4 0xc0000201 443)

/-- Both routers take the second rule for a client that asks for `b`, although the default rule
would refuse it. -/
theorem routers_decide_alike_sample :
    (∃ sni, Tcp.routeAndConnect Tcp.sampleEnv
        ⟨none, sampleRules.map fun rule => rule.toTcpRule sampleTcp,
          sampleDefault.toTcpRule sampleTcp⟩ (sampleStream namedHello) [22, 3, 1, 0, 57] =
      ⟨Tcp.connectOrHandoffBackendWithTimeout Tcp.sampleEnv (sampleStream [])
        ([22, 3, 1, 0, 57] ++ namedHello) (sampleTcp true) none, sni, none⟩) ∧
    Config.routeForSni ⟨[], none, none, sampleRules.map fun rule => rule.toRule sampleUdp,
        sampleDefault.toRule sampleUdp⟩ (.v4 0xc6336401 1000) (some [0x62]) =
      .ok ⟨sampleUdp true, none, some [0x62]⟩ := by
  obtain ⟨htcp, hudp, -, -⟩ := routers_decide_alike sampleRules sampleDefault sampleTcp sampleUdp
    (.v4 0xc6336401 1000) (some [0x62])
  have hread : readTlsClienthello (sampleStream namedHello).unread [22, 3, 1, 0, 57] =
      .ok ⟨[22, 3, 1, 0, 57] ++ namedHello, [], .ok namedHello⟩ := by
    decide +kernel
  have hsni : Tcp.extractSni namedHello = .ok (some [0x62]) := by decide +kernel
  exact ⟨htcp _ Tcp.sampleEnv _ _ _ _ _ rfl rfl rfl hread rfl hsni, hudp _ rfl rfl⟩

end SniRouter
