import SniRouter.H3.Handshakes
import SniRouter.H3.Load

/-!
# One path per client and QUIC-LB server

A path to a QUIC-LB server is opened from two sides, by a datagram whose connection ID names
the server and by a handshake that is routed to it, and each side looks for it under the same
key. The invariant behind this is `LbComplete`: not only does every entry of the QUIC-LB index
point to a connection of that client and server, every such connection also has its entry. It
holds while the configuration stays the same, because what counts as a server does.
-/

namespace SniRouter

/-- Every connection to a server is entered in the QUIC-LB index. -/
def Paths.LbComplete (isServer : SocketAddr → Bool) (p : Paths) : Prop :=
  ∀ k c, p.conn k = some c → isServer (normalizeSocketAddr c.upstream) = true →
    p.lb (normalizeSocketAddr c.clientAddr, normalizeSocketAddr c.upstream) = some k

namespace Router

/-! ## One step -/

/-- Work on a connection neither opens one nor changes where it leads. -/
theorem ActsOn.lbComplete {isServer : SocketAddr → Bool} {k : ℕ} {r r' : Router}
    (h : ActsOn k r r') (hr : r.paths.Indexed) (hcomplete : r.paths.LbComplete isServer) :
    r'.paths.LbComplete isServer := by
  intro j c' hc' hserver
  have hbelow : j < r.nextConnectionId := h.next ▸ (h.indexed hr).below j c' hc'
  obtain ⟨c, hc, he⟩ := (PathSteps.grows h.steps).of_lt hbelow hc'
  rw [he.upstream] at hserver ⊢
  rw [he.client]
  show r'.lbPaths.lookup _ = some j
  rw [h.lb]
  exact hcomplete j c hc hserver

/-- A new connection to a server is entered under a key that was free. -/
theorem opens_lbComplete {io : Io} {r r' : Router} {pending : PendingConnection} {route : Route}
    {addr : SocketAddr} {cids : HashSet Bytes}
    (hopens : Opens (newConnection io (upstreamAddr r.config addr) cids pending route)
      (lbKey r.config pending.clientAddr addr) r r')
    (hshared : r.sharedPath pending.clientAddr addr = none)
    (hcomplete : r.paths.LbComplete r.config.isLbServer) :
    r'.paths.LbComplete r.config.isLbServer := by
  intro j c hc hserver
  rw [hopens.paths] at hc ⊢
  rw [Paths.opened_lb]
  by_cases hj : j = r.nextConnectionId
  · subst hj
    cases (Paths.opened_conn_self ..).symm.trans hc
    have hserver : r.config.isLbServer (normalizeSocketAddr addr) = true := by
      rw [← normalize_upstreamAddr r.config]
      exact hserver
    refine if_pos ?_
    simp only [lbKey, hserver, if_true, newConnection, normalize_upstreamAddr]
  · rw [Paths.opened_conn_of_ne _ _ _ hj] at hc
    have hold := hcomplete j c hc hserver
    -- the key of `j` is taken, the new one was free
    refine (if_neg fun hkey => ?_).trans hold
    have hfree : r.paths.lb _ = none := (lbKey_eq_some hshared hkey).2
    rw [hfree] at hold
    cases hold

/-- A handshake enters a path to a QUIC-LB server into the index. -/
theorem EstablishEffect.lbComplete {io : Io} {r : Router} {pending : PendingConnection}
    {route : Route} {reply : Reply} (h : EstablishEffect io r pending route reply)
    (hr : r.paths.Indexed) (hcomplete : r.paths.LbComplete r.config.isLbServer) :
    reply.router.paths.LbComplete r.config.isLbServer := by
  cases h with
  | refuse hdrops =>
    rw [show (Reply.done _).router.paths = r.paths from hdrops.paths]
    exact hcomplete
  | share hroute hc hclient hupstream hlive hacts => exact hacts.lbComplete hr hcomplete
  | fail hroute => exact hcomplete
  | create hroute hupstream hroom hopens hregisters hshared hplace =>
    obtain ⟨rfl, rfl⟩ := hplace
    exact opens_lbComplete hopens hshared hcomplete

/-- Every datagram of a client keeps the index complete. -/
theorem ClientEffect.lbComplete {cr : Crypto} {io : Io} {r : Router} {peer : SocketAddr}
    {packet : Bytes} {reply : Reply} (h : ClientEffect cr io r peer packet reply)
    (hr : r.paths.Indexed) (hcomplete : r.paths.LbComplete r.config.isLbServer) :
    reply.router.paths.LbComplete r.config.isLbServer := by
  cases h with
  | drop reason => exact hcomplete
  | forward hc hpeer hlive hacts => exact hacts.lbComplete hr hcomplete
  | tooLong => exact hcomplete
  | decoded hlong haddr heffect => exact heffect.lbComplete hr hcomplete
  | initial hdecrypt hframes hfree hlb heffect =>
    cases heffect with
    | drop reason hrefused => exact hcomplete
    | discard hrefused hreleases => exact hreleases.paths ▸ hcomplete
    | wait haccepts hhello => exact hcomplete
    | unroutable haccepts hhello hreleases hroute => exact hreleases.paths ▸ hcomplete
    | routed haccepts hhello hreleases hroute heffect =>
      have hcomplete' := hreleases.paths.symm ▸ hcomplete
      rw [← hreleases.config] at hcomplete' ⊢
      exact heffect.lbComplete (hreleases.paths.symm ▸ hr) hcomplete'

/-- So does one of a server. -/
theorem BackendEffect.lbComplete {io : Io} {r : Router} {k : ℕ} {packet : Bytes} {reply : Reply}
    (h : BackendEffect io r k packet reply) (hr : r.paths.Indexed)
    {isServer : SocketAddr → Bool} (hcomplete : r.paths.LbComplete isServer) :
    reply.router.paths.LbComplete isServer := by
  cases h with
  | drop reason => exact hcomplete
  | fail hc hlive hacts => exact hacts.lbComplete hr hcomplete
  | reply hc hlive hdest hacts => exact hacts.lbComplete hr hcomplete

/-- A cleanup keeps the entries of the connections it keeps. -/
theorem cleanup_lbComplete {r : Router} (hr : r.paths.Indexed) {isServer : SocketAddr → Bool}
    (hcomplete : r.paths.LbComplete isServer) (now : Instant) :
    (r.cleanup now).paths.LbComplete isServer := by
  intro k c hc hserver
  have hold := ((cleanup_cleans hr now).conn k c).mp hc
  refine (lookup_lbPaths_cleanup hr now _ k).mpr ⟨hcomplete k c hold.1 hserver, ?_⟩
  exact Option.isSome_iff_exists.mpr ⟨c, hc⟩

/-- The configuration is not reloaded. -/
def Event.Keeps (e : Event) : Prop := ∀ config, e ≠ .setConfig config

/-- Every step that keeps the configuration keeps the index complete. -/
theorem step_lbComplete (cr : Crypto) {r : Router} (hr : r.paths.Indexed) {e : Event}
    (he : Event.Keeps e) (hcomplete : r.paths.LbComplete r.config.isLbServer) :
    (r.step cr e).paths.LbComplete (r.step cr e).config.isLbServer := by
  rw [step_config cr hr he]
  cases e with
  | datagram io peer packet =>
    exact (handleDatagram_effect cr io hr peer packet).lbComplete hr hcomplete
  | backend io k packet =>
    exact (handleBackendDatagram_effect cr io hr k packet).lbComplete hr hcomplete
  | cleanup now => exact cleanup_lbComplete hr hcomplete now
  | setConfig config => exact absurd rfl (he config)

/-- The index is complete after a run without reloads. -/
theorem run_lbComplete (cr : Crypto) (config : Config) (idleTimeout : Duration) (limits : Limits)
    {es : List Event} (hes : ∀ e ∈ es, Event.Keeps e) :
    ((start config idleTimeout limits).run cr es).config = config ∧
      ((start config idleTimeout limits).run cr es).paths.LbComplete config.isLbServer := by
  obtain ⟨-, hconfig, hcomplete⟩ := runFrom_invariant (A := Event.Keeps)
    (P := fun r : Router => r.paths.Indexed ∧ r.config = config ∧
      r.paths.LbComplete r.config.isLbServer)
    (fun r e he ⟨hr, hconfig, hcomplete⟩ => ⟨step_indexed cr hr e,
      (step_config cr hr he).trans hconfig, step_lbComplete cr hr he hcomplete⟩)
    es (start config idleTimeout limits) hes
    ⟨start_indexed config idleTimeout limits, rfl, fun k c hc => by cases hc⟩
  refine ⟨hconfig, ?_⟩
  rw [hconfig] at hcomplete
  exact hcomplete

/-! ## Where datagrams go -/

/-- A datagram that names the server `addr` goes to the path that is then entered for it, and
to the one that was entered if there was one. -/
theorem handleLbDatagram_sends (cr : Crypto) (io : Io) {r : Router} (hr : r.paths.Indexed)
    (peer : SocketAddr) (packet : Bytes) {addr : SocketAddr}
    (hnormal : normalizeSocketAddr addr = addr) (hserver : r.config.isLbServer addr = true)
    {s : Send} (hs : s ∈ (r.handleLbDatagram cr io peer packet addr).sends) :
    ∃ k d ok, s = .backend k d ok ∧
      (r.handleLbDatagram cr io peer packet addr).router.lbPaths.lookup
        (normalizeSocketAddr peer, addr) = some k ∧
      ∀ j, r.lbPaths.lookup (normalizeSocketAddr peer, addr) = some j → j = k := by
  cases hlb : r.lbPaths.lookup (normalizeSocketAddr peer, addr) with
  | some k =>
    obtain ⟨c, hc, hkey⟩ := exists_of_lbPaths hr hlb
    simp only [handleLbDatagram, hlb, hc] at hs ⊢
    split at hs
    · cases hs
    rename_i hlive₁
    rw [if_neg hlive₁]
    cases hlive : c.expired io.now₂ r.idleTimeout with
    | true =>
      rw [forwardEstablishedClientDatagram_expired cr peer packet none hc hlive] at hs
      cases hs
    | false =>
      obtain ⟨r', hreply, hacts⟩ := forwardEstablishedClientDatagram_live cr packet none hr hc
        hlive (Prod.mk.inj hkey).1
      rw [hreply] at hs ⊢
      cases List.mem_singleton.mp hs
      refine ⟨k, packet, _, rfl, ?_, fun j hj => (Option.some.inj hj).symm⟩
      rw [hacts.lb]
      exact hlb
  | none =>
    simp only [handleLbDatagram, hlb] at hs ⊢
    split at hs
    · cases hs
    rename_i pending hpush
    obtain ⟨-, -, rfl⟩ := pushDatagram_eq_ok hpush
    have hcases := establishAndFlush_cases cr io hr
      { PendingConnection.new peer [] io.now₁ with
        bufferedBytes := (PendingConnection.new peer [] io.now₁).bufferedBytes + packet.length
        datagrams := (PendingConnection.new peer [] io.now₁).datagrams ++ [packet] }
      ⟨.udp addr, r.config.maxLifetime, none⟩
    generalize r.establishAndFlush cr io _ _ = reply at hs hcases ⊢
    cases hcases with
    | refuse hdrops => cases hs
    | @share addr' k c hroute hregisters hshared hc =>
      -- the client has no path to this server
      cases hroute
      have hshared := lookup_of_sharedPath hshared
      rw [hnormal] at hshared
      cases hlb.symm.trans hshared
    | @create addr' hroute hregisters hshared =>
      cases hroute
      cases hconnect : io.connect with
      | false =>
        rw [openPath_unconnected hconnect] at hs
        cases hs
      | true =>
        rw [openPath_connected hconnect] at hs ⊢
        have hopens := registerPath_opens_of_registers hr hregisters hshared
          ⟨.udp addr, r.config.maxLifetime, none⟩
        obtain ⟨d, -, ok, rfl⟩ := (flush_spec ..).2.1 s hs
        refine ⟨r.nextConnectionId, d, ok, rfl, ?_, fun j hj => by cases hj⟩
        refine (congrFun (congrArg Paths.lb hopens.paths) _).trans ?_
        rw [Paths.opened_lb]
        refine if_pos ?_
        rw [lbKey, hnormal, if_pos hserver]
        rfl

/-- A handshake to a server that the client has a path to uses this path and opens none. -/
theorem establishAndFlush_uses (cr : Crypto) (io : Io) {r : Router} (hr : r.paths.Indexed)
    (hcomplete : r.paths.LbComplete r.config.isLbServer) {pending : PendingConnection}
    {route : Route} {addr : SocketAddr} (hroute : route.backend = .udp addr)
    (hserver : r.config.isLbServer (normalizeSocketAddr addr) = true) {k : ℕ} {c : Connection}
    (hc : r.connections.lookup k = some c)
    (hclient : normalizeSocketAddr c.clientAddr = normalizeSocketAddr pending.clientAddr)
    (hupstream : normalizeSocketAddr c.upstream = normalizeSocketAddr addr) :
    (∀ s ∈ (r.establishAndFlush cr io pending route).sends, ∃ d ok, s = .backend k d ok) ∧
      ∀ j ≠ k, (r.establishAndFlush cr io pending route).router.connections.lookup j =
        r.connections.lookup j := by
  -- `k` is entered under the key that the handshake looks up
  have hlb : r.lbPaths.lookup (normalizeSocketAddr pending.clientAddr, normalizeSocketAddr addr) =
      some k := by
    have hentry := hcomplete k c hc (hupstream ▸ hserver)
    rw [hclient, hupstream] at hentry
    exact hentry
  have hshared : r.sharedPath pending.clientAddr addr = some k := by
    rw [sharedPath, if_pos hserver]
    exact hlb
  have hcases := establishAndFlush_cases cr io hr pending route
  generalize r.establishAndFlush cr io pending route = reply at hcases ⊢
  cases hcases with
  | refuse hdrops =>
    refine ⟨fun s hs => ?_, fun j _ => lookup_of_paths_eq hdrops.paths j⟩
    cases hs
  | @share addr' k' c' hroute' hregisters hshared' hc' =>
    cases hroute.symm.trans hroute'
    cases hshared.symm.trans hshared'
    cases hc.symm.trans hc'
    cases hflush : (flush io k 0 pending.datagrams).2 with
    | true =>
      rw [sharePath_sent cr (hregisters.shared k c hshared hc).1 hflush]
      refine ⟨fun s hs => ?_, fun j hj => ?_⟩
      · obtain ⟨d, -, ok, rfl⟩ := (flush_spec ..).2.1 s hs
        exact ⟨d, ok, rfl⟩
      · exact PathSteps.conn_of_ne (shared_actsOn cr io hr hc pending route).steps hj
    | false =>
      rw [sharePath_failed cr (hregisters.shared k c hshared hc).1 hflush]
      refine ⟨fun s hs => ?_, fun j hj => ?_⟩
      · obtain ⟨d, -, ok, rfl⟩ := (flush_spec ..).2.1 s hs
        exact ⟨d, ok, rfl⟩
      · rw [setConnection, Table.lookup_insert, if_neg hj]
  | @create addr' hroute' hregisters hshared' =>
    cases hroute.symm.trans hroute'
    cases hshared.symm.trans hshared'

/-! ## The claim of the index -/

/-- The client `a` has at most one path to the server `b`, and everything that goes there goes
through it. -/
structure OnePath (cr : Crypto) (r : Router) (a b : SocketAddr) : Prop where
  /-- A connection from `a` to `b` is the one that is entered. -/
  entered : ∀ k c, r.connections.lookup k = some c → normalizeSocketAddr c.clientAddr = a →
    normalizeSocketAddr c.upstream = b → r.lbPaths.lookup (a, b) = some k
  unique : ∀ k k' c c', r.connections.lookup k = some c → r.connections.lookup k' = some c' →
    normalizeSocketAddr c.clientAddr = a → normalizeSocketAddr c.upstream = b →
    normalizeSocketAddr c'.clientAddr = a → normalizeSocketAddr c'.upstream = b → k = k'
  entry : ∀ k, r.lbPaths.lookup (a, b) = some k →
    ∃ c, r.connections.lookup k = some c ∧ normalizeSocketAddr c.clientAddr = a ∧ c.upstream = b
  /-- A datagram whose CID names `b` goes to the path entered afterwards, which is the one
  entered before if there was one. -/
  decoded : ∀ io peer packet long, normalizeSocketAddr peer = a →
    parseLongPacketCids packet = .ok long →
    (routableCid packet long).bind (r.config.lbBackend cr) = some b →
    ∀ s ∈ (r.handleDatagram cr io peer packet).sends, ∃ k d ok, s = .backend k d ok ∧
      (r.handleDatagram cr io peer packet).router.lbPaths.lookup (a, b) = some k ∧
      ∀ j, r.lbPaths.lookup (a, b) = some j → j = k
  /-- A handshake routed to `b` joins the path of the client. The handler calls
  `establish_and_flush` in a state `r₁` that differs from `r` in the handshake buffers. -/
  joins : ∀ (r₁ : Router) (io : Io) (pending : PendingConnection) (route : Route) addr k c,
    r₁.paths = r.paths → r₁.config = r.config →
    route.backend = .udp addr → normalizeSocketAddr addr = b →
    normalizeSocketAddr pending.clientAddr = a → r.connections.lookup k = some c →
    normalizeSocketAddr c.clientAddr = a → normalizeSocketAddr c.upstream = b →
    (∀ s ∈ (r₁.establishAndFlush cr io pending route).sends, ∃ d ok, s = .backend k d ok) ∧
      ∀ j ≠ k, (r₁.establishAndFlush cr io pending route).router.connections.lookup j =
        r.connections.lookup j

/-- With a complete index a client has one path to a server. -/
theorem onePath_of_lbComplete {cr : Crypto} {r : Router} (hr : r.paths.Indexed)
    (hcomplete : r.paths.LbComplete r.config.isLbServer)
    (hconfig : ∀ lb ∈ r.config.quicLb, lb.Normal) (a : SocketAddr) {b : SocketAddr}
    (hserver : r.config.isLbServer b = true) : OnePath cr r a b := by
  have hentered : ∀ k c, r.connections.lookup k = some c → normalizeSocketAddr c.clientAddr = a →
      normalizeSocketAddr c.upstream = b → r.lbPaths.lookup (a, b) = some k := by
    rintro k c hc rfl rfl
    exact hcomplete k c hc hserver
  refine ⟨hentered, ?_, ?_, ?_, ?_⟩
  · intro k k' c c' hc hc' ha hb ha' hb'
    exact Option.some.inj ((hentered k c hc ha hb).symm.trans (hentered k' c' hc' ha' hb'))
  · intro k hk
    obtain ⟨c, hc, hkey⟩ := exists_of_lbPaths hr hk
    obtain ⟨rfl, rfl⟩ := Prod.mk.inj hkey
    exact ⟨c, hc, rfl, rfl⟩
  · rintro io peer packet long rfl hlong haddr s hs
    have hnormal := Config.normalize_of_isLbServer hconfig hserver
    rw [handleDatagram_eq_handleLbDatagram cr io r peer hlong haddr] at hs ⊢
    -- the datagram is counted first, which changes no path
    have hr' : (r.receivedClient packet.length).paths.Indexed := hr
    exact handleLbDatagram_sends cr io hr' peer packet hnormal hserver hs
  · rintro r₁ io pending route addr k c hpaths hconf hroute rfl rfl hc hclient hupstream
    have hr₁ : r₁.paths.Indexed := hpaths ▸ hr
    have hcomplete₁ : r₁.paths.LbComplete r₁.config.isLbServer := by
      rw [hpaths, hconf]
      exact hcomplete
    have hc₁ : r₁.connections.lookup k = some c := (lookup_of_paths_eq hpaths k).trans hc
    obtain ⟨hsends, hother⟩ := establishAndFlush_uses cr io hr₁ hcomplete₁ hroute
      (hconf ▸ hserver) hc₁ hclient hupstream
    exact ⟨hsends, fun j hj => (hother j hj).trans (lookup_of_paths_eq hpaths j)⟩

/-- **One path per client and server.** In every run under one loaded configuration, the
clients and servers of QUIC-LB have at most one path each, and use it. -/
theorem run_onePath (cr : Crypto) (env : LoadEnv) (protocfg : Protos.SniConfig) (config : Config)
    (hload : loadConfig env protocfg = .ok config) (idleTimeout : Duration) (limits : Limits)
    (es : List Event) (hes : ∀ e ∈ es, ∀ config', e ≠ .setConfig config') (a b : SocketAddr)
    (hserver : config.isLbServer b = true) :
    OnePath cr ((start config idleTimeout limits).run cr es) a b := by
  obtain ⟨hconfig, hcomplete⟩ := run_lbComplete cr config idleTimeout limits hes
  refine onePath_of_lbComplete (run_indexed cr config idleTimeout limits es) ?_ ?_ a ?_
  · rw [hconfig]
    exact hcomplete
  · rw [hconfig]
    exact loadConfig_normal hload
  · rw [hconfig]
    exact hserver

/-- The one server and its key file. -/
def sampleEnv : LoadEnv where
  lookupHost _ := .ok [sampleServer]
  readToString _ := .ok (List.replicate 32 '0')
  compileFullMatch _ := .ok fun name => name = [0x62]
  parseIpNet _ := .error "invalid IP address syntax"

/-- Everything goes to the server, which is also the QUIC-LB server 1. -/
def sampleProtos : Protos.SniConfig where
  quicLb := [⟨0, "key", [⟨some 1, "192.0.2.1:443"⟩]⟩]
  rules := []
  default := some ⟨none, none, some ⟨some (.proxy ⟨"192.0.2.1:443", false⟩), false, false⟩, 0⟩
  maxLifetimeMs := 0
  handshakeTimeoutMs := 0

/-- The configuration that is loaded from it. -/
def loadedConfig : Config where
  quicLb := [⟨⟨0, List.replicate 16 0⟩, (∅ : Table ℕ SocketAddr).insert 1 sampleServer⟩]
  maxLifetime := none
  handshakeTimeout := none
  rules := []
  default := ⟨fun _ => true, .udp sampleServer, ⟨[], .accept⟩, none⟩

/-- The sample client opens a path with a handshake, which is its path to the QUIC-LB
server. -/
theorem run_onePath_sample :
    OnePath sampleCrypto ((start loadedConfig 60 .default).run sampleCrypto
      [.datagram (sampleIo 0) samplePeer helloPacket]) samplePeer sampleServer ∧
    ((start loadedConfig 60 .default).run sampleCrypto
      [.datagram (sampleIo 0) samplePeer helloPacket]).lbPaths.lookup
        (samplePeer, sampleServer) = some 0 := by
  refine ⟨run_onePath sampleCrypto sampleEnv sampleProtos loadedConfig rfl 60 .default
    [.datagram (sampleIo 0) samplePeer helloPacket] ?_ samplePeer sampleServer (by decide +kernel),
    by decide +kernel⟩
  intro e he config'
  cases List.mem_singleton.mp he
  simp

end Router

end SniRouter
