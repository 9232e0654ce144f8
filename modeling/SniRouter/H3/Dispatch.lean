import SniRouter.H3.Initials

/-!
# The ways a step can end

`ClientEffect` and `BackendEffect` take `handle_datagram` and `handle_backend_datagram` apart:
each constructor is one way the handler ends, with the guards that led there and what it did
to the state. They hold in every state whose indexes are consistent, which is also why none
of them has a panicking case. `Routes` is what all handlers have in common: they work at one
id only. Everything that is proved about whole runs is proved by cases on them.
-/

namespace SniRouter

namespace Router

/-! ## Client datagrams -/

/-- The handshake a QUIC-LB datagram stands for when its client has no path yet. -/
def lbHandshake (peer : SocketAddr) (packet : Bytes) (now : Instant) : PendingConnection :=
  { PendingConnection.new peer [] now with
    bufferedBytes := packet.length
    datagrams := [packet] }

/-- How a client datagram ends. `r` is the state in which it has been counted. -/
inductive ClientEffect (cr : Crypto) (io : Io) (r : Router) (peer : SocketAddr)
    (packet : Bytes) : Reply → Prop where
  | drop (reason : DropReason) :
      ClientEffect cr io r peer packet (.done (r.dropped reason 1))
  /-- A connection of this client takes it. -/
  | forward {k : ℕ} {c : Connection} {r' : Router} {message : String}
      (hc : r.connections.lookup k = some c)
      (hpeer : normalizeSocketAddr peer = normalizeSocketAddr c.clientAddr)
      (hlive : c.expired io.now₂ r.idleTimeout = false) (hacts : ActsOn k r r') :
      ClientEffect cr io r peer packet
        ⟨r', [.backend k packet (io.send 0)], if io.send 0 then .ok else .err message⟩
  /-- A datagram that no handshake can hold. -/
  | tooLong {e : String} : ClientEffect cr io r peer packet ⟨r, [], .err e⟩
  /-- Its CID names a QUIC-LB server that the client has no path to. -/
  | decoded {long : Option LongPacketCids} {addr : SocketAddr} {reply : Reply}
      (hlong : parseLongPacketCids packet = .ok long)
      (haddr : (routableCid packet long).bind (r.config.lbBackend cr) = some addr)
      (heffect : EstablishEffect io r (lbHandshake peer packet io.now₁)
        ⟨.udp addr, r.config.maxLifetime, none⟩ reply) :
      ClientEffect cr io r peer packet reply
  /-- An Initial for a CID that is not registered, with keys of its own. -/
  | initial {decrypted : DecryptedInitial} {frames : List (ℕ × Bytes)} {reply : Reply}
      (hdecrypt : decryptInitialPacket cr packet = .ok decrypted)
      (hframes : readCryptoFrames decrypted.payload = .ok frames)
      (hfree : r.cidRoutes.get decrypted.dcid = none)
      (hlb : r.config.lbBackend cr decrypted.dcid = none)
      (heffect : InitialEffect io r peer packet decrypted frames
        (normalizeSocketAddr peer, decrypted.dcid)
        ((r.entry (normalizeSocketAddr peer, decrypted.dcid) peer io.now₁).buffered packet
          decrypted.scid frames io.now₁) reply) :
      ClientEffect cr io r peer packet reply

section Client

variable (cr : Crypto) {io : Io} {r : Router} {peer : SocketAddr} {packet : Bytes}

/-- A datagram for a connection of its sender is forwarded. -/
theorem forward_effect (hr : r.paths.Indexed) {k : ℕ} {c : Connection}
    (hc : r.connections.lookup k = some c)
    (hpeer : normalizeSocketAddr peer = normalizeSocketAddr c.clientAddr)
    (long : Option LongPacketCids) :
    ClientEffect cr io r peer packet
      (r.forwardEstablishedClientDatagram cr io k peer packet long) := by
  cases hlive : c.expired io.now₂ r.idleTimeout with
  | true =>
    rw [forwardEstablishedClientDatagram_expired cr peer packet long hc hlive]
    exact .drop _
  | false =>
    obtain ⟨r', hreply, hacts⟩ :=
      forwardEstablishedClientDatagram_live cr packet long hr hc hlive hpeer
    rw [hreply]
    exact .forward hc hpeer hlive hacts

/-- Peer affinity finds the only live connection of a client. -/
theorem peerConnectionId_eq_some_iff (hr : r.paths.Indexed) {now : Instant} {k : ℕ} :
    r.peerConnectionId peer now = some k ↔
      (∃ c, r.connections.lookup k = some c ∧
        normalizeSocketAddr c.clientAddr = normalizeSocketAddr peer ∧
        c.expired now r.idleTimeout = false) ∧
      ∀ j c, r.connections.lookup j = some c →
        normalizeSocketAddr c.clientAddr = normalizeSocketAddr peer → j ≠ k →
        c.expired now r.idleTimeout = true := by
  -- the candidates are the live connections of the client
  have hlisted := hr.lists_iff (normalizeSocketAddr peer)
  have hlive : ∀ ids, r.clientRoutes.lookup (normalizeSocketAddr peer) = some ids → ∀ j,
      (j ∈ ids.toList.filter fun id =>
        (r.connections.lookup id).any fun conn => !conn.expired now r.idleTimeout) ↔
      ∃ c, r.connections.lookup j = some c ∧
        normalizeSocketAddr c.clientAddr = normalizeSocketAddr peer ∧
        c.expired now r.idleTimeout = false := by
    intro ids hids j
    simp only [List.mem_filter, Option.any_eq_true, Bool.not_eq_true']
    constructor
    · rintro ⟨hj, c, hc, hexpired⟩
      obtain ⟨c', hc', hclient⟩ := (hlisted j).mp ⟨ids, hids, hj⟩
      cases hc.symm.trans hc'
      exact ⟨c, hc, hclient, hexpired⟩
    · rintro ⟨c, hc, hclient, hexpired⟩
      obtain ⟨ids', hids', hj⟩ := (hlisted j).mpr ⟨c, hc, hclient⟩
      cases hids.symm.trans hids'
      exact ⟨hj, c, hc, hexpired⟩
  constructor
  · intro h
    obtain ⟨ids, hids, h⟩ := Option.bind_eq_some_iff.mp h
    dsimp only at h
    split at h
    · rename_i k' hsingle
      cases h
      have hlive := hlive ids hids
      rw [hsingle] at hlive
      refine ⟨(hlive k).mp (List.mem_singleton_self k), fun j c hc hclient hj => ?_⟩
      by_contra hexpired
      exact hj (List.mem_singleton.mp ((hlive j).mpr ⟨c, hc, hclient, by simpa using hexpired⟩))
    · cases h
  · rintro ⟨⟨c, hc, hclient, hexpired⟩, honly⟩
    obtain ⟨ids, hids, hk⟩ := (hlisted k).mpr ⟨c, hc, hclient⟩
    have hids : r.clientRoutes.lookup (normalizeSocketAddr peer) = some ids := hids
    have hsingle : (ids.toList.filter fun id =>
        (r.connections.lookup id).any fun conn => !conn.expired now r.idleTimeout) = [k] := by
      refine List.perm_singleton.mp ((List.perm_ext_iff_of_nodup (ids.nodup.filter _)
        (List.nodup_singleton k)).mpr fun j => ?_)
      rw [hlive ids hids j, List.mem_singleton]
      constructor
      · rintro ⟨c', hc', hclient', hexpired'⟩
        by_contra hj
        rw [honly j c' hc' hclient' hj] at hexpired'
        cases hexpired'
      · rintro rfl
        exact ⟨c, hc, hclient, hexpired⟩
    simp only [peerConnectionId, hids, Option.bind_eq_bind, Option.bind_some, hsingle]

/-- A datagram that only its sender identifies is forwarded or dropped. -/
theorem forwardByPeerAffinity_effect (hr : r.paths.Indexed) (long : Option LongPacketCids)
    (validateInitial : Bool) :
    ClientEffect cr io r peer packet
      (r.forwardByPeerAffinity cr io peer packet long validateInitial) := by
  unfold forwardByPeerAffinity
  split
  · exact .drop _
  rename_i k hk
  obtain ⟨⟨c, hc, hpeer, -⟩, -⟩ := (peerConnectionId_eq_some_iff hr).mp hk
  split
  · simp only [hc]
    split
    · exact .drop _
    · exact forward_effect cr hr hc hpeer.symm long
  · exact forward_effect cr hr hc hpeer.symm long

/-- A datagram whose CID nobody has is an Initial, or is matched by its sender. -/
theorem handleUnroutedClientDatagram_effect (hr : r.paths.Indexed)
    {long : Option LongPacketCids} (hlong : parseLongPacketCids packet = .ok long)
    (hfree : ∀ l, long = some l →
      r.cidRoutes.get l.dcid = none ∧ r.config.lbBackend cr l.dcid = none) :
    ClientEffect cr io r peer packet
      (r.handleUnroutedClientDatagram cr io peer packet long) := by
  unfold handleUnroutedClientDatagram
  split
  · exact forwardByPeerAffinity_effect cr hr _ _
  split
  · exact forwardByPeerAffinity_effect cr hr _ _
  split
  · exact .drop _
  split
  · exact forwardByPeerAffinity_effect cr hr _ _
  rename_i decrypted hdecrypt
  split
  · exact .drop _
  rename_i frames hframes
  -- the header that was routed is the header of the packet that decrypts
  have hheader := (decryptInitialPacketWithDcid_ok hdecrypt).1
  rw [hlong] at hheader
  cases hheader
  obtain ⟨hget, hlb⟩ := hfree _ rfl
  exact .initial hdecrypt hframes hget hlb
    (handleInitial_effect cr io hr peer packet decrypted frames)

/-- A datagram whose CID decodes is sent on a path to its server or dropped. -/
theorem handleLbDatagram_effect (hr : r.paths.Indexed) {long : Option LongPacketCids}
    {addr : SocketAddr} (hlong : parseLongPacketCids packet = .ok long)
    (haddr : (routableCid packet long).bind (r.config.lbBackend cr) = some addr) :
    ClientEffect cr io r peer packet (r.handleLbDatagram cr io peer packet addr) := by
  unfold handleLbDatagram
  split
  · rename_i k hk
    obtain ⟨c, hc, hkey⟩ := exists_of_lbPaths hr hk
    simp only [hc]
    split
    · exact .drop _
    · exact forward_effect cr hr hc (Prod.mk.inj hkey).1 none
  · split
    · exact .tooLong
    · rename_i pending hpush
      obtain ⟨-, -, rfl⟩ := pushDatagram_eq_ok hpush
      refine .decoded hlong haddr ?_
      have hpending : { PendingConnection.new peer [] io.now₁ with
          bufferedBytes := (PendingConnection.new peer [] io.now₁).bufferedBytes + packet.length
          datagrams := (PendingConnection.new peer [] io.now₁).datagrams ++ [packet] } =
          lbHandshake peer packet io.now₁ := by
        simp [lbHandshake, PendingConnection.new]
      rw [hpending]
      exact establishAndFlush_effect cr io hr _ _

/-- The connection a datagram is looked up under: of a long header by its destination CID, of
a short one by the longest registered prefix. -/
theorem packetConnectionId_eq_ok {r : Router} {packet : Bytes} {long : Option LongPacketCids}
    {connId : Option ℕ} (h : r.packetConnectionId packet = .ok (long, connId)) :
    parseLongPacketCids packet = .ok long ∧
      connId = match long with
        | some l => r.cidRoutes.get l.dcid
        | none => r.matchShortHeaderRoute packet := by
  obtain ⟨long', hlong, h⟩ := except_bind_eq_ok h
  cases long' <;>
  · cases h
    exact ⟨hlong, rfl⟩

/-- A short header is matched by a CID that is registered. -/
theorem get_of_matchShortHeaderRoute {r : Router} {packet : Bytes} {k : ℕ}
    (h : r.matchShortHeaderRoute packet = some k) : ∃ cid, r.cidRoutes.get cid = some k := by
  cases packet with
  | nil => cases h
  | cons first rest =>
    simp only [matchShortHeaderRoute] at h
    split at h
    · cases h
    · obtain ⟨l, -, hget, -⟩ := CidRoutes.matchPrefix_eq_some.mp h
      exact ⟨_, hget⟩

/-- An Initial with keys of its own whose destination CID is neither registered nor a QUIC-LB
one is always handled as part of a handshake. -/
theorem handleDatagram_eq_handleInitial (io : Io) (r : Router) (peer : SocketAddr)
    {packet : Bytes} {decrypted : DecryptedInitial} {frames : List (ℕ × Bytes)}
    (hdecrypt : decryptInitialPacket cr packet = .ok decrypted)
    (hframes : readCryptoFrames decrypted.payload = .ok frames)
    (hfree : r.cidRoutes.get decrypted.dcid = none)
    (hlb : r.config.lbBackend cr decrypted.dcid = none) :
    r.handleDatagram cr io peer packet =
      (r.receivedClient packet.length).handleInitial cr io peer packet decrypted frames := by
  have hlong := (decryptInitialPacketWithDcid_ok hdecrypt).1
  have hids : (r.receivedClient packet.length).packetConnectionId packet =
      .ok (some ⟨quicVersion1, quicPacketTypeInitial, decrypted.dcid, decrypted.scid⟩, none) := by
    have hget : (r.receivedClient packet.length).cidRoutes.get decrypted.dcid = none := hfree
    rw [packetConnectionId, hlong, ← hget]
    rfl
  have hempty : packet.isEmpty = false := by
    cases packet with
    | nil => cases hlong
    | cons => rfl
  have hroutable : (routableCid packet
      (some ⟨quicVersion1, quicPacketTypeInitial, decrypted.dcid, decrypted.scid⟩)).bind
      ((r.receivedClient packet.length).config.lbBackend cr) = none := hlb
  simp only [handleDatagram, hempty, hids, hroutable]
  simp [handleUnroutedClientDatagram, hdecrypt, hframes, quicPacketTypeInitial,
    quicPacketTypeHandshake, quicPacketTypeZeroRtt]

/-- A datagram whose CID QUIC-LB decodes is handled as such, whatever is registered. -/
theorem handleDatagram_eq_handleLbDatagram (io : Io) (r : Router) (peer : SocketAddr)
    {packet : Bytes} {long : Option LongPacketCids} {addr : SocketAddr}
    (hlong : parseLongPacketCids packet = .ok long)
    (haddr : (routableCid packet long).bind (r.config.lbBackend cr) = some addr) :
    r.handleDatagram cr io peer packet =
      (r.receivedClient packet.length).handleLbDatagram cr io peer packet addr := by
  have hempty : packet.isEmpty = false := by
    cases packet with
    | nil =>
      cases hlong
      cases haddr
    | cons => rfl
  have hids : ∃ connId, (r.receivedClient packet.length).packetConnectionId packet =
      .ok (long, connId) := by
    rw [packetConnectionId, hlong]
    cases long with
    | some long => exact ⟨_, rfl⟩
    | none => exact ⟨_, rfl⟩
  obtain ⟨connId, hids⟩ := hids
  have haddr : (routableCid packet long).bind
      ((r.receivedClient packet.length).config.lbBackend cr) = some addr := haddr
  simp only [handleDatagram, hempty, hids, haddr, Bool.false_eq_true, if_false]

/-- A datagram for a registered CID goes to its owner, if it comes from the owner's client. -/
theorem handleDatagram_eq_forward (io : Io) (r : Router) (peer : SocketAddr) {packet : Bytes}
    {long : Option LongPacketCids} {k : ℕ} {c : Connection} (hne : packet ≠ [])
    (hids : r.packetConnectionId packet = .ok (long, some k))
    (hlb : (routableCid packet long).bind (r.config.lbBackend cr) = none)
    (hc : r.connections.lookup k = some c) :
    r.handleDatagram cr io peer packet =
      if socketAddrsEqual peer c.clientAddr then
        (r.receivedClient packet.length).forwardEstablishedClientDatagram cr io k peer packet long
      else .done ((r.receivedClient packet.length).dropped .unexpectedPeer 1) := by
  have hempty : packet.isEmpty = false := by simpa using hne
  have hids : (r.receivedClient packet.length).packetConnectionId packet = .ok (long, some k) :=
    hids
  have hlb : (routableCid packet long).bind
      ((r.receivedClient packet.length).config.lbBackend cr) = none := hlb
  have hc : (r.receivedClient packet.length).connections.lookup k = some c := hc
  simp only [handleDatagram, hempty, hids, hlb, hc, Bool.false_eq_true, if_false]

/-- Every client datagram ends in one of the ways of `ClientEffect`. -/
theorem handleDatagram_effect (io : Io) (hr : r.paths.Indexed) (peer : SocketAddr)
    (packet : Bytes) :
    ClientEffect cr io (r.receivedClient packet.length) peer packet
      (r.handleDatagram cr io peer packet) := by
  have hr' : (r.receivedClient packet.length).paths.Indexed := hr
  unfold handleDatagram
  dsimp only
  generalize r.receivedClient packet.length = r at hr'
  split
  · exact .drop _
  split
  · exact .drop _
  rename_i long connId hids
  obtain ⟨hlong, hconn⟩ := packetConnectionId_eq_ok hids
  split
  · rename_i addr haddr
    exact handleLbDatagram_effect cr hr' hlong haddr
  rename_i hlb
  split
  · refine handleUnroutedClientDatagram_effect cr hr' hlong fun l hl => ?_
    subst hl
    exact ⟨hconn.symm, hlb⟩
  rename_i k
  -- a registered CID belongs to a connection
  obtain ⟨cid, hcid⟩ : ∃ cid, r.cidRoutes.get cid = some k := by
    cases long with
    | some l => exact ⟨_, hconn.symm⟩
    | none => exact get_of_matchShortHeaderRoute hconn.symm
  obtain ⟨c, hc, -⟩ := exists_of_cidRoutes hr' hcid
  simp only [hc]
  split
  · rename_i heq
    exact forward_effect cr hr' hc (socketAddrsEqual_iff.mp heq) _
  · exact .drop _

end Client

/-! ## Backend datagrams -/

/-- How a datagram of the backend of `k` ends. `r` is the state in which it has been
counted. -/
inductive BackendEffect (io : Io) (r : Router) (k : ℕ) (packet : Bytes) : Reply → Prop where
  | drop (reason : DropReason) : BackendEffect io r k packet (.done (r.dropped reason 1))
  /-- The client cannot be reached from the listening socket. -/
  | fail {c : Connection} {r' : Router} {e : String} (hc : r.connections.lookup k = some c)
      (hlive : c.expired io.now₂ r.idleTimeout = false) (hacts : ActsOn k r r') :
      BackendEffect io r k packet ⟨r', [], .err e⟩
  | reply {c : Connection} {r' : Router} {dest : SocketAddr} {message : String}
      (hc : r.connections.lookup k = some c) (hlive : c.expired io.now₂ r.idleTimeout = false)
      (hdest : normalizeSocketAddr dest = normalizeSocketAddr c.clientAddr)
      (hacts : ActsOn k r r') :
      BackendEffect io r k packet
        ⟨r', [.client k dest packet (io.send 0)], if io.send 0 then .ok else .err message⟩

/-- What a datagram of a server can do, case by case. -/
theorem handleBackendDatagram_effect (cr : Crypto) (io : Io) {r : Router}
    (hr : r.paths.Indexed) (k : ℕ) (packet : Bytes) :
    BackendEffect io (r.receivedBackend packet.length) k packet
      (r.handleBackendDatagram cr io k packet) := by
  have hr' : (r.receivedBackend packet.length).paths.Indexed := hr
  unfold handleBackendDatagram
  dsimp only
  generalize r.receivedBackend packet.length = r at hr'
  split
  · exact .drop _
  rename_i long hlong
  cases hc : r.connections.lookup k with
  | none =>
    simp only [forwardEstablishedBackendDatagram, hc]
    exact .drop _
  | some c =>
    cases hlive : c.expired io.now₂ r.idleTimeout with
    | true =>
      simp only [forwardEstablishedBackendDatagram, hc, hlive, if_true]
      exact .drop _
    | false =>
      obtain ⟨r', hreply, hacts⟩ :=
        forwardEstablishedBackendDatagram_live cr packet long hr' hc hlive
      rw [hreply]
      rcases sendToClient_cases io k packet c.clientAddr with ⟨e, hsend⟩ | ⟨dest, hdest, hsend⟩
      · rw [hsend]
        exact .fail hc hlive hacts
      · rw [hsend]
        exact .reply hc hlive hdest hacts

/-! ## What they have in common -/

/-- The handler worked at one id only, that of a live connection or the next one: its path
steps and its sends are all there. It kept the gauge of the paths right and did not panic. -/
structure Routes (now : Instant) (k : ℕ) (r : Router) (reply : Reply) : Prop where
  steps : PathSteps r.limits.maxCidsPerPath k r.paths reply.router.paths
  live : k = r.nextConnectionId ∨
    ∃ c, r.connections.lookup k = some c ∧ c.expired now r.idleTimeout = false
  sends : ∀ s ∈ reply.sends, s.connId = k
  gauge : reply.router.pathGaugeError = r.pathGaugeError
  noPanic : ∀ message, reply.outcome ≠ .panic message

/-- A handler that leaves the paths alone. -/
theorem routes_of_paths_eq (now : Instant) {r : Router} {reply : Reply}
    (hpaths : reply.router.paths = r.paths) (hsends : reply.sends = [])
    (hgauge : reply.router.pathGaugeError = r.pathGaugeError)
    (hpanic : ∀ message, reply.outcome ≠ .panic message) :
    ∃ k, Routes now k r reply :=
  ⟨r.nextConnectionId, by rw [hpaths], Or.inl rfl, by simp [hsends], hgauge, hpanic⟩

theorem sent_ne_panic (ok : Bool) (message message' : String) :
    (if ok then .ok else .err message : Outcome) ≠ .panic message' := by
  split <;> simp

theorem EstablishEffect.routes {io : Io} {r : Router} {pending : PendingConnection}
    {route : Route} {reply : Reply} (h : EstablishEffect io r pending route reply) :
    ∃ k, Routes io.now₂ k r reply := by
  cases h with
  | refuse hdrops => exact routes_of_paths_eq _ hdrops.paths rfl hdrops.gauge nofun
  | @share addr k c r' message hroute hc hclient hupstream hlive hacts =>
    exact ⟨k, hacts.steps, Or.inr ⟨c, hc, hlive⟩, fun s hs => connId_of_mem_flush hs,
      hacts.gauge, sent_ne_panic _ _⟩
  | fail hroute => exact ⟨_, .single (PathStep.burn rfl), Or.inl rfl, nofun, rfl, nofun⟩
  | create hroute hupstream hroom hopens =>
    exact ⟨_, .single hopens.step, Or.inl rfl, fun s hs => connId_of_mem_flush hs,
      hopens.gauge, sent_ne_panic _ _⟩

theorem Releases.limits {key : SocketAddr × Bytes} {n : ℕ} {r r' : Router}
    (h : Releases key n r r') : r'.limits = r.limits :=
  congrArg Buffers.limits h.buffers

theorem Releases.idleTimeout {key : SocketAddr × Bytes} {n : ℕ} {r r' : Router}
    (h : Releases key n r r') : r'.idleTimeout = r.idleTimeout :=
  congrArg Buffers.idleTimeout h.buffers

theorem Releases.routes {key : SocketAddr × Bytes} {n : ℕ} {r r₁ : Router} {now : Instant}
    {reply : Reply} (h : Releases key n r r₁) (hroutes : ∃ k, Routes now k r₁ reply) :
    ∃ k, Routes now k r reply := by
  obtain ⟨k, hsteps, hlive, hsends, hgauge, hpanic⟩ := hroutes
  rw [h.paths, h.limits] at hsteps
  have hnext : r₁.nextConnectionId = r.nextConnectionId := congrArg Paths.next h.paths
  rw [hnext, lookup_of_paths_eq h.paths, h.idleTimeout] at hlive
  exact ⟨k, hsteps, hlive, hsends, hgauge.trans h.gauge, hpanic⟩

theorem InitialEffect.routes {io : Io} {r : Router} {peer : SocketAddr} {packet : Bytes}
    {decrypted : DecryptedInitial} {frames : List (ℕ × Bytes)} {key : SocketAddr × Bytes}
    {entry : PendingConnection} {reply : Reply}
    (h : InitialEffect io r peer packet decrypted frames key entry reply) :
    ∃ k, Routes io.now₂ k r reply := by
  cases h with
  | drop reason hrefused => exact routes_of_paths_eq _ rfl rfl rfl nofun
  | discard hrefused hreleases =>
    exact routes_of_paths_eq _ hreleases.paths rfl hreleases.gauge nofun
  | wait haccepts hhello => exact routes_of_paths_eq _ rfl rfl rfl nofun
  | unroutable haccepts hhello hreleases hroute =>
    exact routes_of_paths_eq _ hreleases.paths rfl hreleases.gauge nofun
  | routed haccepts hhello hreleases hroute heffect => exact hreleases.routes heffect.routes

theorem ClientEffect.routes {cr : Crypto} {io : Io} {r : Router} {peer : SocketAddr}
    {packet : Bytes} {reply : Reply} (h : ClientEffect cr io r peer packet reply) :
    ∃ k, Routes io.now₂ k r reply := by
  cases h with
  | drop reason => exact routes_of_paths_eq _ rfl rfl rfl nofun
  | @forward k c r' message hc hpeer hlive hacts =>
    exact ⟨k, hacts.steps, Or.inr ⟨c, hc, hlive⟩, by simp [Send.connId], hacts.gauge,
      sent_ne_panic _ _⟩
  | tooLong => exact routes_of_paths_eq _ rfl rfl rfl nofun
  | decoded hlong haddr heffect => exact heffect.routes
  | initial hdecrypt hframes hfree hlb heffect => exact heffect.routes

theorem BackendEffect.routes {io : Io} {r : Router} {k : ℕ} {packet : Bytes} {reply : Reply}
    (h : BackendEffect io r k packet reply) : ∃ j, Routes io.now₂ j r reply := by
  cases h with
  | drop reason => exact routes_of_paths_eq _ rfl rfl rfl nofun
  | @fail c r' e hc hlive hacts =>
    exact ⟨k, hacts.steps, Or.inr ⟨c, hc, hlive⟩, nofun, hacts.gauge, nofun⟩
  | @reply c r' dest message hc hlive hdest hacts =>
    exact ⟨k, hacts.steps, Or.inr ⟨c, hc, hlive⟩, by simp [Send.connId], hacts.gauge,
      sent_ne_panic _ _⟩

end Router

end SniRouter
