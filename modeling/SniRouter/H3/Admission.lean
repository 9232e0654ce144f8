import SniRouter.H3.Completion

/-!
# Server names are checked

When the CID of a datagram names no QUIC-LB server, there are two ways in which an Initial with
a ClientHello of its own reaches a server. Its destination CID is registered to a connection of the
same client, whose handshake was routed before; or the ClientHello reassembled for its
handshake is routed to that server now. Learned CIDs and peer affinity open no other way.
-/

namespace SniRouter

open CryptoReassembly (SliceOf)

/-- The CRYPTO frames of one datagram contain all of the ClientHello `ch`. -/
def CarriesHello (frames : List (ℕ × Bytes)) (ch : Bytes) : Prop :=
  ∃ crypto, CryptoReassembly.empty.insertFrames frames = (crypto, true) ∧
    crypto.clienthello = .ok (some ch)

/-- The server name of the ClientHello `ch` is routed to a server. -/
def Config.Admits (config : Config) (peer : SocketAddr) (ch : Bytes) : Prop :=
  ∃ route addr, config.routeForSni peer (routedSni ch) = .ok route ∧ route.backend = .udp addr

/-- Data that agree on every position carry one ClientHello. -/
theorem CarriesHello.eq_of_slices {frames items : List (ℕ × Bytes)} {ch hello S : Bytes}
    (h : CarriesHello frames ch) (h' : CarriesHello (items ++ frames) hello)
    (hslices : ∀ f ∈ items ++ frames, SliceOf S f) : hello = ch := by
  obtain ⟨crypto, hcrypto, hch⟩ := h
  obtain ⟨crypto', hcrypto', hhello⟩ := h'
  have hpart := (CryptoReassembly.reassembles_empty S).insertFrames
    (fun f hf => hslices f (List.mem_append_right _ hf)) hcrypto
  have hall := (CryptoReassembly.reassembles_empty S).insertFrames hslices hcrypto'
  obtain ⟨hch, hpre⟩ := CryptoReassembly.isClientHello_of_clienthello hch
  obtain ⟨hhello, hpre'⟩ := CryptoReassembly.isClientHello_of_clienthello hhello
  exact hhello.eq_of_prefix hch (hpre'.trans hall.within.bytes_prefix)
    (hpre.trans hpart.within.bytes_prefix)

namespace Router

/-- In the state `r`, no Initial that carries a ClientHello of its own is handed to a server
its server name is not routed to. -/
def SniChecked (cr : Crypto) (r : Router) : Prop :=
  ∀ io peer packet decrypted frames ch, decryptInitialPacket cr packet = .ok decrypted →
    readCryptoFrames decrypted.payload = .ok frames → CarriesHello frames ch →
    ∀ k ok, .backend k packet ok ∈ (r.handleDatagram cr io peer packet).sends →
      r.config.Admits peer ch

theorem EstablishEffect.exists_udp {io : Io} {r : Router} {pending : PendingConnection}
    {route : Route} {reply : Reply} (h : EstablishEffect io r pending route reply) {s : Send}
    (hs : s ∈ reply.sends) : ∃ addr, route.backend = .udp addr := by
  cases h with
  | refuse => cases hs
  | share hroute => exact ⟨_, hroute⟩
  | fail => cases hs
  | create hroute => exact ⟨_, hroute⟩

/-- What is buffered for a handshake, if anything, was sent for it. -/
theorem exists_buffered {cr : Crypto} {es : List Event} {r : Router} (h : AllCollected cr es r)
    {key : SocketAddr × Bytes} {peer : SocketAddr} (hkey : key.1 = normalizeSocketAddr peer)
    (now : Instant) :
    ∃ items, items.Sublist (es.filterMap (Event.initial cr key)) ∧ Buffered key items r ∧
      Collects key items (r.entry key peer now) := by
  cases hlook : r.pending.lookup key with
  | none =>
    have hheld : Buffered key [] r := Or.inl ⟨rfl, hlook⟩
    exact ⟨[], List.nil_sublist _, hheld, hheld.entry hkey now⟩
  | some pending =>
    obtain ⟨items, hsub, hitems⟩ := h key pending hlook
    have hheld : Buffered key items r := Or.inr ⟨pending, hlook, hitems⟩
    exact ⟨items, hsub, hheld, hheld.entry hkey now⟩

variable {cr : Crypto} {r : Router} {io : Io} {peer : SocketAddr} {packet : Bytes}
  {decrypted : DecryptedInitial} {frames : List (ℕ × Bytes)}

/-- An Initial for a registered CID reaches the connection that owns it, from its client
only. -/
theorem sends_of_registered (hr : r.paths.Indexed) (hlb : r.config.quicLb = [])
    (hdecrypt : decryptInitialPacket cr packet = .ok decrypted) {j : ℕ}
    (hget : r.cidRoutes.get decrypted.dcid = some j) {s : Send}
    (hs : s ∈ (r.handleDatagram cr io peer packet).sends) :
    s.connId = j ∧ ∃ c, r.connections.lookup j = some c ∧
      normalizeSocketAddr c.clientAddr = normalizeSocketAddr peer := by
  have hlong := (decryptInitialPacketWithDcid_ok hdecrypt).1
  have hne : packet ≠ [] := by
    rintro rfl
    cases hlong
  have hids : r.packetConnectionId packet =
      .ok (some ⟨quicVersion1, quicPacketTypeInitial, decrypted.dcid, decrypted.scid⟩,
        some j) := by
    rw [packetConnectionId, hlong, ← hget]
    rfl
  obtain ⟨c, hc, -⟩ := exists_of_cidRoutes hr hget
  rw [handleDatagram_eq_forward cr io r peer hne hids (Config.lbBackend_of_no_quicLb hlb) hc] at hs
  split at hs
  · rename_i hpeer
    have hpeer := socketAddrsEqual_iff.mp hpeer
    refine ⟨?_, c, hc, hpeer.symm⟩
    have hc' : (r.receivedClient packet.length).connections.lookup j = some c := hc
    rw [sends_forwardEstablishedClientDatagram cr peer packet _ hc'] at hs
    split at hs
    · cases hs
    · rw [List.mem_singleton.mp hs]
      rfl
  · cases hs

/-- An Initial for a free CID is sent on only with a handshake whose ClientHello is
admitted. -/
theorem admits_of_free (hr : r.paths.Indexed) {es : List Event}
    (hcollected : AllCollected cr es r) (hlb : r.config.quicLb = [])
    (hdecrypt : decryptInitialPacket cr packet = .ok decrypted)
    (hframes : readCryptoFrames decrypted.payload = .ok frames)
    (hfree : r.cidRoutes.get decrypted.dcid = none) {s : Send}
    (hs : s ∈ (r.handleDatagram cr io peer packet).sends) :
    ∃ items hello, items.Sublist
        (es.filterMap (Event.initial cr (normalizeSocketAddr peer, decrypted.dcid))) ∧
      Buffered (normalizeSocketAddr peer, decrypted.dcid) items r ∧
      CarriesHello (items.flatMap Prod.snd ++ frames) hello ∧ r.config.Admits peer hello := by
  have hr' : (r.receivedClient packet.length).paths.Indexed := hr
  rw [handleDatagram_eq_handleInitial cr io r peer hdecrypt hframes hfree
    (Config.lbBackend_of_no_quicLb hlb)] at hs
  have heffect := handleInitial_effect cr io hr' peer packet decrypted frames
  generalize handleInitial .. = reply at heffect hs
  cases heffect with
  | drop => cases hs
  | discard => cases hs
  | wait => cases hs
  | unroutable => cases hs
  | @routed hello r₁ route _ haccepts hhello hreleases hroute heffect =>
    have hkey : (normalizeSocketAddr peer, decrypted.dcid).1 = normalizeSocketAddr peer := rfl
    obtain ⟨items, hsub, hheld, hentry⟩ := exists_buffered hcollected hkey io.now₁
    have hcrypto := (hentry.buffered packet decrypted.scid haccepts.taken io.now₁).crypto
    rw [List.flatMap_append, List.flatMap_singleton] at hcrypto
    obtain ⟨addr, haddr⟩ := heffect.exists_udp hs
    exact ⟨items, hello, hsub, hheld, ⟨_, hcrypto, hhello⟩, route, addr, hroute, haddr⟩

/-- **Admission.** Let an Initial with the ClientHello `ch` of its own reach a server. Then its
destination CID is registered to a connection of its client, which gets it, or the ClientHello
reassembled from what the client sent for this handshake is admitted. This is `ch` when
nothing was sent before, and when all that was sent agrees. -/
theorem run_admitted (cr : Crypto) (config : Config) (idleTimeout : Duration) (limits : Limits)
    (es : List Event) {r : Router} (hr : r = (start config idleTimeout limits).run cr es)
    (hlb : r.config.quicLb = []) {io : Io} {peer : SocketAddr} {packet : Bytes}
    {decrypted : DecryptedInitial} {frames : List (ℕ × Bytes)} {ch : Bytes}
    (hdecrypt : decryptInitialPacket cr packet = .ok decrypted)
    (hframes : readCryptoFrames decrypted.payload = .ok frames)
    (hch : CarriesHello frames ch) {k : ℕ} {ok : Bool}
    (hsent : .backend k packet ok ∈ (r.handleDatagram cr io peer packet).sends) :
    (r.cidRoutes.get decrypted.dcid = some k ∧ ∃ c, r.connections.lookup k = some c ∧
      normalizeSocketAddr c.clientAddr = normalizeSocketAddr peer) ∨
    r.cidRoutes.get decrypted.dcid = none ∧ ∃ items hello, items.Sublist
        (es.filterMap (Event.initial cr (normalizeSocketAddr peer, decrypted.dcid))) ∧
      Buffered (normalizeSocketAddr peer, decrypted.dcid) items r ∧
      CarriesHello (items.flatMap Prod.snd ++ frames) hello ∧ r.config.Admits peer hello ∧
      (items = [] ∨ (∃ S, ∀ f ∈ items.flatMap Prod.snd ++ frames, SliceOf S f) → hello = ch) := by
  have hindexed : r.paths.Indexed := hr ▸ run_indexed cr config idleTimeout limits es
  have hcollected : AllCollected cr es r := hr ▸ run_collected cr config idleTimeout limits es
  cases hget : r.cidRoutes.get decrypted.dcid with
  | some j =>
    obtain ⟨hj, hclient⟩ := sends_of_registered hindexed hlb hdecrypt hget hsent
    cases hj
    exact Or.inl ⟨rfl, hclient⟩
  | none =>
    obtain ⟨items, hello, hsub, hheld, hhello, hadmits⟩ :=
      admits_of_free hindexed hcollected hlb hdecrypt hframes hget hsent
    refine Or.inr ⟨rfl, items, hello, hsub, hheld, hhello, hadmits, ?_⟩
    -- with nothing before it, the reassembly of the Initial is all there is
    rintro (rfl | ⟨S, hslices⟩)
    · obtain ⟨crypto, hcrypto, hch⟩ := hch
      obtain ⟨crypto', hcrypto', hhello⟩ := hhello
      cases hcrypto.symm.trans hcrypto'
      cases hch.symm.trans hhello
      rfl
    · exact hch.eq_of_slices hhello hslices

/-- The first Initial of the sample client reaches the server because the ClientHello it carries is
admitted. -/
theorem run_admitted_first : sampleConfig.Admits samplePeer [1, 0, 0, 0] := by
  have hdecrypt : decryptInitialPacket sampleCrypto helloPacket =
      .ok ⟨sampleCid, [], [0x06, 0x00, 0x04, 0x01, 0x00, 0x00, 0x00]⟩ := by decide +kernel
  have hframes : readCryptoFrames [0x06, 0x00, 0x04, 0x01, 0x00, 0x00, 0x00] =
      .ok [(0, [1, 0, 0, 0])] := by decide +kernel
  have hcarries : CarriesHello [(0, [1, 0, 0, 0])] [1, 0, 0, 0] :=
    ⟨_, Prod.ext rfl (by decide +kernel), by decide +kernel⟩
  have hsent : .backend 0 helloPacket true ∈ ((start sampleConfig 60 .default).handleDatagram
      sampleCrypto (sampleIo 0) samplePeer helloPacket).sends := by decide +kernel
  -- the CID is free before the first datagram
  rcases run_admitted sampleCrypto sampleConfig 60 .default [] rfl rfl hdecrypt hframes hcarries
    hsent with ⟨hget, -⟩ | ⟨-, items, hello, hsub, -, -, hadmits, hhello⟩
  · cases hget
  · rw [← hhello (Or.inl (List.sublist_nil.mp hsub))]
    exact hadmits

/-- The server name `b` is denied; but on a CID that is registered to the client, and in a
handshake that started with other data, its ClientHello does reach the server. -/
theorem not_sniChecked :
    ¬SniChecked sampleCrypto sampleRouter ∧
    ¬SniChecked sampleCrypto ((start sampleConfig 60 .default).run sampleCrypto
        [.datagram (sampleIo 0) samplePeer headerPacket]) := by
  have hdecrypt : decryptInitialPacket sampleCrypto namedHelloPacket =
      .ok ⟨sampleCid, [], [0x06, 0x00, 0x39] ++ namedHello⟩ := by decide +kernel
  have hframes : readCryptoFrames ([0x06, 0x00, 0x39] ++ namedHello) = .ok [(0, namedHello)] := by
    decide +kernel
  have hcarries : CarriesHello [(0, namedHello)] namedHello :=
    ⟨_, Prod.ext rfl (by decide +kernel), by decide +kernel⟩
  have hdenied : ¬sampleConfig.Admits samplePeer namedHello := by
    rintro ⟨route, addr, hroute, haddr⟩
    have hbackend : (sampleConfig.routeForSni samplePeer (routedSni namedHello)).map
        Route.backend = .ok .null := by decide +kernel
    rw [hroute] at hbackend
    cases haddr.symm.trans (Except.ok.inj hbackend)
  have hconfig : ∀ packet, ((start sampleConfig 60 .default).run sampleCrypto
      [.datagram (sampleIo 0) samplePeer packet]).config = sampleConfig := fun packet =>
    step_config sampleCrypto (start_indexed sampleConfig 60 .default) nofun
  refine ⟨fun h => hdenied ?_, fun h => hdenied ?_⟩
  · rw [← hconfig helloPacket]
    exact h (sampleIo 1) samplePeer namedHelloPacket _ _ _ hdecrypt hframes hcarries 0 true
      (by decide +kernel)
  · rw [← hconfig headerPacket]
    exact h (sampleIo 1) samplePeer namedHelloPacket _ _ _ hdecrypt hframes hcarries 0 true
      (by decide +kernel)

end Router

end SniRouter
