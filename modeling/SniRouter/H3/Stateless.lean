import SniRouter.H3.QuicLb
import SniRouter.H3.SharedPaths

/-!
# Routing without state

A backend that issues QUIC-LB connection IDs is found without anything the router remembers of the
connection. So connections survive a restart of the router, a client that moves to another
address, and another router with the same file in its place: wherever the datagram arrives and
whatever was handled before, it is handed to the server that its connection ID was issued for, or
to nobody.
-/

namespace SniRouter

/-- The datagram names the connection ID `cid`, as the destination in a long header or behind the
first byte of a short one. -/
def NamesCid (packet cid : Bytes) : Prop :=
  ∃ long, parseLongPacketCids packet = .ok long ∧ Router.routableCid packet long = some cid

namespace Router

/-- The client has a live path to the server, or there is room for one. -/
inductive Serves (io : Io) (r : Router) (peer addr : SocketAddr) (packet : Bytes) : Prop where
  | path {k : ℕ} {c : Connection}
    (hk : r.lbPaths.lookup (normalizeSocketAddr peer, addr) = some k)
    (hc : r.connections.lookup k = some c) (hlive₁ : c.expired io.now₁ r.idleTimeout = false)
    (hlive₂ : c.expired io.now₂ r.idleTimeout = false)
  | room (hnone : r.lbPaths.lookup (normalizeSocketAddr peer, addr) = none)
    (hlength : packet.length ≤ maxPendingBytes) (hroom : r.connections.size < r.limits.maxPaths)
    (hconnect : io.connect = true)

/-- The datagram is handed once to a connection of the client to the server, exactly if the client
can be served. -/
structure HandsToServer (io : Io) (r : Router) (peer addr : SocketAddr) (packet : Bytes)
    (reply : Reply) : Prop where
  served : r.Serves io peer addr packet → ∃ k c,
    reply.sends = [.backend k packet (io.send 0)] ∧
    reply.router.connections.lookup k = some c ∧
    normalizeSocketAddr c.clientAddr = normalizeSocketAddr peer ∧
    normalizeSocketAddr c.upstream = addr
  unserved : ¬r.Serves io peer addr packet → reply.sends = []

section Server

variable {io : Io} {r : Router} {peer addr : SocketAddr} {packet : Bytes}

/-- With a path, the server is reached while the path is live. -/
theorem serves_iff_of_path {k : ℕ} {c : Connection}
    (hk : r.lbPaths.lookup (normalizeSocketAddr peer, addr) = some k)
    (hc : r.connections.lookup k = some c) :
    r.Serves io peer addr packet ↔
      c.expired io.now₁ r.idleTimeout = false ∧ c.expired io.now₂ r.idleTimeout = false := by
  constructor
  · intro h
    cases h with
    | @path j d hj hd hlive₁ hlive₂ =>
      cases hk.symm.trans hj
      cases hc.symm.trans hd
      exact ⟨hlive₁, hlive₂⟩
    | room hnone => cases hk.symm.trans hnone
  · rintro ⟨hlive₁, hlive₂⟩
    exact .path hk hc hlive₁ hlive₂

/-- Without one, a path must be opened, for which there must be room. -/
theorem serves_iff_of_none (hnone : r.lbPaths.lookup (normalizeSocketAddr peer, addr) = none) :
    r.Serves io peer addr packet ↔
      packet.length ≤ maxPendingBytes ∧ r.connections.size < r.limits.maxPaths ∧
        io.connect = true := by
  constructor
  · intro h
    cases h with
    | path hk => cases hnone.symm.trans hk
    | room _ hlength hroom hconnect => exact ⟨hlength, hroom, hconnect⟩
  · rintro ⟨hlength, hroom, hconnect⟩
    exact .room hnone hlength hroom hconnect

/-- Only connections and QUIC-LB paths, the limits and the idle timeout matter. -/
theorem Serves.of_eq {r' : Router} (h : r.Serves io peer addr packet)
    (hlb : r'.lbPaths = r.lbPaths) (hconn : r'.connections = r.connections)
    (hidle : r'.idleTimeout = r.idleTimeout) (hlimits : r'.limits = r.limits) :
    r'.Serves io peer addr packet := by
  cases h with
  | path hk hc hlive₁ hlive₂ =>
    exact .path (hlb ▸ hk) (hconn ▸ hc) (hidle ▸ hlive₁) (hidle ▸ hlive₂)
  | room hnone hlength hroom hconnect =>
    refine .room (hlb ▸ hnone) hlength ?_ hconnect
    rw [hconn, hlimits]
    exact hroom

theorem flush_singleton (k : ℕ) (packet : Bytes) :
    (flush io k 0 [packet]).1 = [.backend k packet (io.send 0)] := by
  unfold flush
  cases io.send 0 <;> rfl

/-- Only the limit of paths can refuse a handshake without connection IDs. -/
theorem registers_lbHandshake_iff (hr : r.paths.Indexed) (hnormal : normalizeSocketAddr addr = addr)
    (hnone : r.lbPaths.lookup (normalizeSocketAddr peer, addr) = none) :
    r.Registers io (lbHandshake peer packet io.now₁) addr ↔
      r.connections.size < r.limits.maxPaths := by
  have hshared : r.sharedPath peer addr = none := by
    rw [sharedPath, hnormal, hnone, ite_self]
  have hclaimed : claimedCids (lbHandshake peer packet io.now₁) = [[]] := rfl
  constructor
  · intro h
    exact (h.opened hshared).2
  · intro hroom
    refine ⟨?_, fun k c hk => ?_, fun _ => ⟨Nat.zero_le _, hroom⟩⟩
    · -- the empty connection ID belongs to nobody
      have hempty : r.cidRoutes.get [] = none := by
        cases hget : r.cidRoutes.get [] with
        | none => rfl
        | some k => exact absurd rfl ((hr.owner_iff [] k).mp hget).1
      simp [cidCollision, hclaimed, hempty]
    · cases hshared.symm.trans hk

/-- A datagram whose CID decodes is handed to its server if the client can be served. -/
theorem handleLbDatagram_handsToServer (cr : Crypto) (hr : r.paths.Indexed)
    (hnormal : normalizeSocketAddr addr = addr) :
    HandsToServer io r peer addr packet (r.handleLbDatagram cr io peer packet addr) := by
  cases hlb : r.lbPaths.lookup (normalizeSocketAddr peer, addr) with
  | some k =>
    obtain ⟨c, hc, hkey⟩ := exists_of_lbPaths hr hlb
    obtain ⟨hclient, hupstream⟩ := Prod.mk.inj hkey
    have hserves : r.Serves io peer addr packet ↔ _ := serves_iff_of_path hlb hc
    simp only [handleLbDatagram, hlb, hc]
    cases hlive₁ : c.expired io.now₁ r.idleTimeout with
    | true =>
      refine ⟨fun h => ?_, fun _ => rfl⟩
      rw [hlive₁] at hserves
      cases (hserves.mp h).1
    | false =>
      rw [if_neg Bool.false_ne_true]
      cases hlive₂ : c.expired io.now₂ r.idleTimeout with
      | true =>
        rw [forwardEstablishedClientDatagram_expired cr peer packet none hc hlive₂]
        refine ⟨fun h => ?_, fun _ => rfl⟩
        rw [hlive₂] at hserves
        cases (hserves.mp h).2
      | false =>
        obtain ⟨r', hreply, hacts⟩ :=
          forwardEstablishedClientDatagram_live cr packet none hr hc hlive₂ hclient
        rw [hreply]
        refine ⟨fun _ => ?_, fun h => absurd (hserves.mpr ⟨hlive₁, hlive₂⟩) h⟩
        obtain ⟨c', hc', hevolves⟩ := PathSteps.conn_isSome hacts.steps hr hc
        refine ⟨k, c', rfl, hc', hevolves.client.trans hclient.symm, ?_⟩
        rw [hevolves.upstream, ← hupstream, hnormal]
  | none =>
    have hserves : r.Serves io peer addr packet ↔ _ := serves_iff_of_none hlb
    simp only [handleLbDatagram, hlb]
    cases hpush : (PendingConnection.new peer [] io.now₁).pushDatagram packet with
    | error e =>
      refine ⟨fun h => ?_, fun _ => rfl⟩
      have hlength := (hserves.mp h).1
      simp [PendingConnection.pushDatagram, PendingConnection.new, maxPendingDatagrams,
        not_lt.mpr hlength] at hpush
    | ok pending =>
      obtain ⟨-, hlength, hpending⟩ := pushDatagram_eq_ok hpush
      have hpending : pending = lbHandshake peer packet io.now₁ := by
        rw [hpending]
        simp [lbHandshake, PendingConnection.new]
      have hlength : packet.length ≤ maxPendingBytes := by
        simpa [PendingConnection.new] using hlength
      have hregisters : r.Registers io (lbHandshake peer packet io.now₁) addr ↔ _ :=
        registers_lbHandshake_iff hr hnormal hlb
      have heffect := establishAndFlush_effect cr io hr pending
        ⟨.udp addr, r.config.maxLifetime, none⟩
      dsimp only
      subst hpending
      generalize r.establishAndFlush cr io _ _ = reply at heffect
      cases heffect with
      | refuse hdrops hrefused =>
        refine ⟨fun h => ?_, fun _ => rfl⟩
        exact absurd (hregisters.mpr (hserves.mp h).2.1) (hrefused addr rfl)
      | @share addr' k c r' message hroute hc hclient hupstream hlive hacts hreg hshared =>
        cases hroute
        have hk := lookup_of_sharedPath hshared
        rw [hnormal] at hk
        cases hlb.symm.trans hk
      | fail hroute hconnect =>
        refine ⟨fun h => ?_, fun _ => rfl⟩
        cases hconnect.symm.trans (hserves.mp h).2.2
      | @create addr' upstream cids lbKey r' message hroute hupstream hroom hopens hreg hshared
          hplace hconnect =>
        cases hroute
        refine ⟨fun _ => ?_, fun h => absurd (hserves.mpr ⟨hlength, hroom, hconnect⟩) h⟩
        refine ⟨r.nextConnectionId, _, flush_singleton r.nextConnectionId packet,
          hopens.lookup_next, rfl, ?_⟩
        exact hupstream.trans hnormal

end Server

/-- **Routing without state.** In every reachable state whose configuration is loaded from
`protocfg`, a datagram from any address with a connection ID that an entry of `protocfg` issues for
one of its servers is handed to this server, exactly if the client can be served, and never to
another. -/
theorem run_routes_statelessly {cr : Crypto} {encryptBlock : Bytes → Bytes → Bytes}
    (laws : BlockLaws cr encryptBlock) (config : Config) (idleTimeout : Duration) (limits : Limits)
    (es : List Event) {env : LoadEnv} {protocfg : Protos.SniConfig}
    (hload : loadConfig env protocfg = .ok ((start config idleTimeout limits).run cr es).config)
    {pb : Protos.QuicLbConfig} (hpb : pb ∈ protocfg.quicLb) {sid : ℕ} {addr : SocketAddr}
    (haddr : pb.addrOf env sid = some addr) (hsid : sid < 2 ^ 32) :
    ∃ codec, Codec.fromKeyFile env (UInt8.ofNat pb.configId) pb.keyFile = .ok codec ∧
      ∀ (nonce : Bytes) (low : UInt8) (io : Io) (peer : SocketAddr) (packet : Bytes),
        nonce.length = 12 →
        NamesCid packet (setLowBits low (codec.encrypt encryptBlock (toBeBytes 4 sid ++ nonce))) →
        HandsToServer io ((start config idleTimeout limits).run cr es) peer addr packet
          (((start config idleTimeout limits).run cr es).handleDatagram cr io peer packet) := by
  have hr := run_indexed cr config idleTimeout limits es
  generalize (start config idleTimeout limits).run cr es = r at hr hload ⊢
  obtain ⟨codec, hcodec, hissued⟩ := lbBackend_issued laws hload hpb
  refine ⟨codec, hcodec, fun nonce low io peer packet hnonce ⟨long, hlong, hcid⟩ => ?_⟩
  have hnormal : normalizeSocketAddr addr = addr := by
    obtain ⟨server, -, hserver⟩ := Option.bind_eq_some_iff.mp haddr
    obtain ⟨first, -, rfl⟩ := Option.map_eq_some_iff.mp hserver
    exact normalizeSocketAddr_idem first
  have hlb : (routableCid packet long).bind (r.config.lbBackend cr) = some addr := by
    rw [hcid]
    exact (hissued sid nonce low hsid hnonce).trans haddr
  rw [handleDatagram_eq_handleLbDatagram cr io r peer hlong hlb]
  have hreply : HandsToServer io (r.receivedClient packet.length) peer addr packet _ :=
    handleLbDatagram_handsToServer cr hr hnormal
  -- counting the datagram changes nothing about whether it is served
  exact ⟨fun h => hreply.served (h.of_eq rfl rfl rfl rfl),
    fun h => hreply.unserved fun h' => h (h'.of_eq rfl rfl rfl rfl)⟩

/-- A restarted router, and the connection ID of the vector. -/
theorem run_routes_statelessly_restarted :
    ∃ config, loadConfig vectorEnv vectorProtos = .ok config ∧
      HandsToServer (sampleIo 0) (start config 60 .default) samplePeer vectorServer
        (0x40 :: 0x1f :: vectorBlock)
        ((start config 60 .default).handleDatagram vectorCrypto (sampleIo 0) samplePeer
          (0x40 :: 0x1f :: vectorBlock)) ∧
      Serves (sampleIo 0) (start config 60 .default) samplePeer vectorServer
        (0x40 :: 0x1f :: vectorBlock) := by
  obtain ⟨config, hload⟩ : ∃ config, loadConfig vectorEnv vectorProtos = .ok config := ⟨_, rfl⟩
  have haddr : Protos.QuicLbConfig.addrOf vectorEnv ⟨0, "key", [⟨some 0, "192.0.2.1:443"⟩]⟩ 0 =
      some vectorServer := rfl
  obtain ⟨codec, hcodec, hhands⟩ := run_routes_statelessly vectorLaws config 60 .default [] hload
    List.mem_cons_self haddr (by decide)
  have hcodecEq : codec = ⟨0, List.replicate 16 0⟩ := by
    cases hcodec
    rfl
  subst hcodecEq
  refine ⟨config, hload, ?_, .room rfl (by decide) (Nat.succ_pos 1023) rfl⟩
  exact hhands (List.replicate 12 0) 0x1f (sampleIo 0) samplePeer _ (by decide)
    ⟨none, rfl, by decide⟩

end Router

end SniRouter
