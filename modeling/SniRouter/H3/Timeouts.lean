import SniRouter.H3.Completion
import SniRouter.H3.Expiry

/-!
# Handshakes that time out

The age of a pending handshake is looked at by `cleanup` only. Between two sweeps a handshake
that has timed out is still there, and the Initial that completes it opens a path as if it had
come in time. This module says exactly when that happens.
-/

namespace SniRouter

namespace Router

/-- The pending handshake `entry` has reached its timeout at the first clock reading of the
step. -/
def TimedOut (r : Router) (e : Event) (entry : PendingConnection) : Prop :=
  ∃ now, e.reads.head? = some now ∧ r.pendingTimeout ≤ now - entry.created

/-- A connection is created, or one of the datagrams goes to a backend. -/
def Uses (datagrams : List Bytes) (r : Router) (reply : Reply) : Prop :=
  (∃ k, r.connections.lookup k = none ∧ reply.router.connections.lookup k ≠ none) ∨
    ∃ k, ∃ d ∈ datagrams, .backend k d true ∈ reply.sends

/-- The event `e` takes the handshake `entry` from the pending ones and makes something of
it. -/
structure Establishes (cr : Crypto) (key : SocketAddr × Bytes) (entry : PendingConnection)
    (r : Router) (e : Event) : Prop where
  pending : r.pending.lookup key = some entry
  taken : (r.step cr e).pending.lookup key = none
  used : Uses entry.datagrams r (r.handle cr e)

/-- Nothing is made of a handshake that has timed out. -/
def Punctual (cr : Crypto) (r : Router) (e : Event) : Prop :=
  ∀ key entry, r.TimedOut e entry → ¬Establishes cr key entry r e

/-- With the datagram `packet` the handshake `entry` is complete and routed to a server, and its
registration is accepted. A new path finds its socket connected; an existing one gets the first
buffered datagram. -/
inductive FindsPath (io : Io) (r : Router) (peer : SocketAddr) (packet scid : Bytes)
    (frames : List (ℕ × Bytes)) (key : SocketAddr × Bytes) (entry : PendingConnection) : Prop where
  | intro {hello : Bytes} {route : Route} {addr : SocketAddr}
      (haccepts : r.Accepts key peer packet frames io.now₁)
      (hhello : (entry.buffered packet scid frames io.now₁).crypto.clienthello =
        .ok (some hello))
      (hroute : r.config.routeForSni peer (routedSni hello) = .ok route)
      (haddr : route.backend = .udp addr)
      (hregisters : r.Registers io (entry.buffered packet scid frames io.now₁) addr)
      (hopened : r.sharedPath entry.clientAddr addr = none → io.connect = true)
      (hshared : ∀ k, r.sharedPath entry.clientAddr addr = some k →
        entry.datagrams ≠ [] ∧ io.send 0 = true) :
      FindsPath io r peer packet scid frames key entry

/-- The event is an Initial with which a pending handshake past its timeout finds a path. -/
inductive CompletesLate (cr : Crypto) (r : Router) : Event → Prop where
  | late {io : Io} {peer : SocketAddr} {packet : Bytes} {decrypted : DecryptedInitial}
      {frames : List (ℕ × Bytes)} {entry : PendingConnection}
      (hdecrypt : decryptInitialPacket cr packet = .ok decrypted)
      (hframes : readCryptoFrames decrypted.payload = .ok frames)
      (hfree : r.cidRoutes.get decrypted.dcid = none)
      (hlb : r.config.lbBackend cr decrypted.dcid = none)
      (hpending : r.pending.lookup (normalizeSocketAddr peer, decrypted.dcid) = some entry)
      (hlate : r.pendingTimeout ≤ io.now₁ - entry.created)
      (hfinds : FindsPath io r peer packet decrypted.scid frames
        (normalizeSocketAddr peer, decrypted.dcid) entry) :
      CompletesLate cr r (.datagram io peer packet)

section Timeouts

variable {cr : Crypto} {r : Router} {e : Event}

theorem entry_of_lookup {key : SocketAddr × Bytes} {entry : PendingConnection}
    (h : r.pending.lookup key = some entry) (peer : SocketAddr) (now : Instant) :
    r.entry key peer now = entry := by
  rw [Router.entry, h]
  rfl

theorem Releases.sharedPath {key : SocketAddr × Bytes} {n : ℕ} {r₁ : Router}
    (h : Releases key n r r₁) (client addr : SocketAddr) :
    r₁.sharedPath client addr = r.sharedPath client addr := by
  have hlb : ∀ k, r₁.lbPaths.lookup k = r.lbPaths.lookup k :=
    congrFun (congrArg Paths.lb h.paths)
  simp only [Router.sharedPath, hlb, h.config]

/-! ## What a completed handshake uses -/

/-- No send, and no connection that was not there. -/
theorem not_uses {datagrams : List Bytes} {reply : Reply} (hsends : reply.sends = [])
    (hconn : ∀ k, r.connections.lookup k = none → reply.router.connections.lookup k = none) :
    ¬Uses datagrams r reply := by
  rintro (⟨k, hnone, hsome⟩ | ⟨k, d, -, hsent⟩)
  · exact hsome (hconn k hnone)
  · rw [hsends] at hsent
    cases hsent

/-- A handshake with its last datagram uses a path when it is accepted, and then when the
socket of a new path is connected or an existing path gets its first datagram. -/
theorem EstablishEffect.uses_iff {io : Io} {pending : PendingConnection} {route : Route}
    {reply : Reply} (h : EstablishEffect io r pending route reply) (hr : r.paths.Indexed)
    {datagrams : List Bytes} {packet : Bytes} (hlast : pending.datagrams = datagrams ++ [packet]) :
    Uses datagrams r reply ↔ ∃ addr, route.backend = .udp addr ∧ r.Registers io pending addr ∧
      (r.sharedPath pending.clientAddr addr = none → io.connect = true) ∧
      ∀ k, r.sharedPath pending.clientAddr addr = some k → datagrams ≠ [] ∧ io.send 0 = true := by
  cases h with
  | refuse hdrops hrefused =>
    refine iff_of_false (not_uses rfl fun k hk => ?_) ?_
    · exact (lookup_of_paths_eq hdrops.paths k).trans hk
    · rintro ⟨addr, haddr, hregisters, -⟩
      exact hrefused addr haddr hregisters
  | @share addr k c r' message hroute hc hclient hupstream hlive hacts hregisters hshared =>
    have hold : ∀ j, r.connections.lookup j = none → r'.connections.lookup j = none := by
      intro j hj
      have hne : j ≠ k := by
        rintro rfl
        cases hj.symm.trans hc
      exact (PathSteps.conn_of_ne hacts.steps hne).trans hj
    constructor
    · rintro (⟨j, hnone, hsome⟩ | ⟨j, d, hd, hsent⟩)
      · exact absurd (hold j hnone) hsome
      · refine ⟨addr, hroute, hregisters, fun hnone => ?_, fun _ _ => ⟨List.ne_nil_of_mem hd, ?_⟩⟩
        · cases hshared.symm.trans hnone
        · exact (exists_sent_of_flush.mp ⟨j, d, hsent⟩).2
    · rintro ⟨addr', haddr', -, -, hsend⟩
      cases hroute.symm.trans haddr'
      obtain ⟨hne, hsent⟩ := hsend k hshared
      -- the first buffered datagram is the first that is sent
      obtain ⟨d, ds, rfl⟩ := List.exists_cons_of_ne_nil hne
      refine Or.inr ⟨k, d, List.mem_cons_self, ?_⟩
      simp only [hlast, List.cons_append, flush, if_pos hsent]
      exact List.mem_cons_self
  | @fail addr message hroute hconnect hregisters hshared =>
    refine iff_of_false (not_uses rfl fun k hk => hk) ?_
    rintro ⟨addr', haddr', -, hopened, -⟩
    cases hroute.symm.trans haddr'
    rw [hopened hshared] at hconnect
    cases hconnect
  | @create addr upstream cids lbKey r' message hroute hupstream hroom hopens hregisters hshared
      hplace hconnect =>
    refine iff_of_true (Or.inl ⟨r.nextConnectionId, ?_, ?_⟩) ⟨addr, hroute, hregisters, ?_, ?_⟩
    · cases hc : r.connections.lookup r.nextConnectionId with
      | none => rfl
      | some c => exact absurd (hr.below _ c hc) (lt_irrefl _)
    · rw [hopens.lookup_next]
      exact Option.some_ne_none _
    · exact fun _ => hconnect
    · intro k hk
      cases hshared.symm.trans hk

/-- An Initial makes something of its handshake exactly when the handshake finds a path. -/
theorem InitialEffect.uses_iff {io : Io} {peer : SocketAddr} {packet : Bytes}
    {decrypted : DecryptedInitial} {frames : List (ℕ × Bytes)} {key : SocketAddr × Bytes}
    {entry : PendingConnection} {reply : Reply}
    (h : InitialEffect io r peer packet decrypted frames key
      (entry.buffered packet decrypted.scid frames io.now₁) reply)
    (hr : r.paths.Indexed) (hpending : r.pending.lookup key = some entry) :
    reply.router.pending.lookup key = none ∧ Uses entry.datagrams r reply ↔
      FindsPath io r peer packet decrypted.scid frames key entry := by
  cases h with
  | drop reason hrefused =>
    refine iff_of_false ?_ ?_
    · rintro ⟨hnone, -⟩
      cases hpending.symm.trans hnone
    · rintro ⟨haccepts⟩
      exact hrefused haccepts
  | @discard r' hrefused hreleases =>
    refine iff_of_false ?_ ?_
    · rintro ⟨-, huses⟩
      exact not_uses rfl (fun k hk => (lookup_of_paths_eq hreleases.paths k).trans hk) huses
    · rintro ⟨haccepts, hhello⟩
      obtain ⟨e, he⟩ := hrefused haccepts
      cases he.symm.trans hhello
  | wait haccepts hwait =>
    refine iff_of_false ?_ ?_
    · rintro ⟨hnone, -⟩
      cases (Table.lookup_insert_self ..).symm.trans hnone
    · rintro ⟨-, hhello⟩
      cases hwait.symm.trans hhello
  | unroutable haccepts hhello hreleases hroute =>
    refine iff_of_false ?_ ?_
    · rintro ⟨-, huses⟩
      exact not_uses rfl (fun k hk => (lookup_of_paths_eq hreleases.paths k).trans hk) huses
    · rintro ⟨-, hhello', hroute'⟩
      cases hhello.symm.trans hhello'
      cases hroute.symm.trans hroute'
  | @routed hello r₁ route reply haccepts hhello hreleases hroute heffect =>
    -- the entry is taken out before the route is looked up
    have hnone : reply.router.pending.lookup key = none := by
      have hpending' : reply.router.pending = r.pending.erase key :=
        congrArg Buffers.pending (heffect.buffers.trans hreleases.buffers)
      rw [hpending']
      exact Table.lookup_erase_self ..
    have huses : Uses entry.datagrams r reply ↔ Uses entry.datagrams r₁ reply := by
      simp only [Uses, lookup_of_paths_eq hreleases.paths]
    have hlast : (entry.buffered packet decrypted.scid frames io.now₁).datagrams =
        entry.datagrams ++ [packet] := rfl
    have hiff := heffect.uses_iff (hreleases.paths ▸ hr) hlast
    simp only [hreleases.registers, hreleases.sharedPath] at hiff
    rw [huses, hiff, and_iff_right hnone]
    constructor
    · rintro ⟨addr, haddr, hregisters, hopened, hshared⟩
      exact ⟨haccepts, hhello, hroute, haddr, hregisters, hopened, hshared⟩
    · rintro ⟨-, hhello', hroute', haddr, hregisters, hopened, hshared⟩
      cases hhello.symm.trans hhello'
      cases hroute.symm.trans hroute'
      exact ⟨_, haddr, hregisters, hopened, hshared⟩

/-! ## One step -/

theorem findsPath_receivedClient {io : Io} {peer : SocketAddr} {packet scid : Bytes}
    {frames : List (ℕ × Bytes)} {key : SocketAddr × Bytes} {entry : PendingConnection} {n : ℕ} :
    FindsPath io (r.receivedClient n) peer packet scid frames key entry ↔
      FindsPath io r peer packet scid frames key entry := by
  constructor
  · rintro ⟨haccepts, hhello, hroute, haddr, hregisters, hopened, hshared⟩
    exact ⟨accepts_receivedClient.mp haccepts, hhello, hroute, haddr,
      (registers_receivedClient _).mp hregisters, hopened, hshared⟩
  · rintro ⟨haccepts, hhello, hroute, haddr, hregisters, hopened, hshared⟩
    exact ⟨accepts_receivedClient.mpr haccepts, hhello, hroute, haddr,
      (registers_receivedClient _).mpr hregisters, hopened, hshared⟩

/-- The completion of a handshake that is late is not refused. -/
theorem CompletesLate.not_punctual (hr : r.paths.Indexed) (h : CompletesLate cr r e) :
    ¬Punctual cr r e := by
  cases h with
  | @late io peer packet decrypted frames entry hdecrypt hframes hfree hlb hpending hlate hfinds =>
    have heffect := handleInitial_effect cr io (r := r.receivedClient packet.length) hr peer packet
      decrypted frames
    rw [entry_of_lookup (r := r.receivedClient packet.length) hpending,
      ← handleDatagram_eq_handleInitial cr io r peer hdecrypt hframes hfree hlb] at heffect
    obtain ⟨htaken, hused⟩ :=
      (heffect.uses_iff hr hpending).mpr (findsPath_receivedClient.mpr hfinds)
    intro hpunctual
    exact hpunctual _ entry ⟨io.now₁, rfl, hlate⟩ ⟨hpending, htaken, hused⟩

/-- A handshake is not taken by an event that leaves it pending. -/
theorem Establishes.lookup_ne {key : SocketAddr × Bytes} {entry : PendingConnection}
    (h : Establishes cr key entry r e) :
    (r.step cr e).pending.lookup key ≠ r.pending.lookup key := by
  rw [h.taken, h.pending]
  exact (Option.some_ne_none entry).symm

/-- Only the Initial that completes a handshake makes something of it. -/
theorem Establishes.completes {key : SocketAddr × Bytes} {entry : PendingConnection}
    (h : Establishes cr key entry r e) (hr : r.paths.Indexed) (hlate : r.TimedOut e entry) :
    CompletesLate cr r e := by
  obtain ⟨now, hnow, hlate⟩ := hlate
  cases e with
  | datagram io peer packet =>
    cases hnow
    have hne : (r.handleDatagram cr io peer packet).router.pending.lookup key ≠
        r.pending.lookup key := h.lookup_ne
    -- the datagram takes no handshake but the one it is an Initial of
    have hinitial : (Event.datagram io peer packet).initial cr key ≠ none := fun he =>
      h.lookup_ne (lookup_handleDatagram_of_not_initial hr he)
    obtain ⟨hpending, htaken, hused⟩ := h
    have heffect := handleDatagram_effect cr io hr peer packet
    simp only [step, handle] at htaken hused
    generalize r.handleDatagram cr io peer packet = reply at heffect hne htaken hused
    cases heffect with
    | drop reason => exact absurd rfl hne
    | forward _ _ _ hacts =>
      exact absurd (congrArg (fun b => b.pending.lookup key) hacts.buffers) hne
    | tooLong => exact absurd rfl hne
    | decoded _ _ heffect =>
      exact absurd (congrArg (fun b => b.pending.lookup key) heffect.buffers) hne
    | @initial decrypted frames _ hdecrypt hframes hfree hlb heffect =>
      have hkey : (normalizeSocketAddr peer, decrypted.dcid) = key := by
        by_contra hkey
        exact hinitial (by simp [Event.initial, hdecrypt, hframes, hkey])
      subst hkey
      rw [entry_of_lookup (r := r.receivedClient packet.length) hpending] at heffect
      have hfinds := (heffect.uses_iff hr hpending).mp ⟨htaken, hused⟩
      exact .late hdecrypt hframes hfree hlb hpending hlate (findsPath_receivedClient.mp hfinds)
  | backend io k packet =>
    refine absurd ?_ h.lookup_ne
    exact congrArg (fun b => b.pending.lookup key)
      (handleBackendDatagram_effect cr io hr k packet).buffers
  | cleanup now =>
    refine absurd h.used (not_uses rfl fun k hk => ?_)
    cases hc : (r.cleanup now).connections.lookup k with
    | none => exact hc
    | some c =>
      have hold := (((cleanup_cleans hr now).conn k c).mp hc).1
      cases hk.symm.trans hold
  | setConfig config => exact absurd rfl h.lookup_ne

/-- A step is punctual unless it completes a handshake that has timed out. -/
theorem punctual_iff (hr : r.paths.Indexed) : Punctual cr r e ↔ ¬CompletesLate cr r e := by
  constructor
  · intro hpunctual hlate
    exact hlate.not_punctual hr hpunctual
  · intro hnot key entry hlate hestablishes
    exact hnot (hestablishes.completes hr hlate)

end Timeouts

/-- **Late handshakes.** In a run nothing is ever made of a handshake that has timed out, exactly
when no handshake past its timeout is completed before a cleanup has removed it. -/
theorem run_punctual_iff (cr : Crypto) (config : Config) (idleTimeout : Duration)
    (limits : Limits) (es : List Event) :
    (∀ before e after, es = before ++ e :: after →
      Punctual cr ((start config idleTimeout limits).run cr before) e) ↔
    ∀ before e after, es = before ++ e :: after →
      ¬CompletesLate cr ((start config idleTimeout limits).run cr before) e := by
  have hstep : ∀ before e, Punctual cr ((start config idleTimeout limits).run cr before) e ↔
      ¬CompletesLate cr ((start config idleTimeout limits).run cr before) e := fun before e =>
    punctual_iff (run_indexed cr config idleTimeout limits before)
  simp only [hstep]

/-- The second half of a ClientHello comes first, the first half comes when the timeout has
passed. The sweep between the two finds the handshake half as old. -/
def lateEvents : List Event :=
  [.datagram (sampleIo 0) samplePeer tailPacket, .cleanup 30,
    .datagram (sampleIo 60) samplePeer headPacket]

/-- The clock never goes back and the configuration stays, and still a handshake that has timed
out opens a path. -/
theorem not_always_punctual : ¬∀ (cr : Crypto) (config : Config) (idleTimeout : Duration)
    (limits : Limits) (es : List Event), (es.flatMap Event.reads).Pairwise (· ≤ ·) →
    (∀ config', .setConfig config' ∉ es) → ∀ before e after, es = before ++ e :: after →
      Punctual cr ((start config idleTimeout limits).run cr before) e := by
  intro h
  have hpunctual := h sampleCrypto sampleConfig 60 .default lateEvents (by decide)
    (by simp [lateEvents]) [.datagram (sampleIo 0) samplePeer tailPacket, .cleanup 30] _ [] rfl
  have hsome : (((start sampleConfig 60 .default).run sampleCrypto
      [.datagram (sampleIo 0) samplePeer tailPacket, .cleanup 30]).pending.lookup
        (samplePeer, sampleCid)).any (fun entry => entry.created = 0) = true := by
    decide +kernel
  obtain ⟨entry, hentry, hcreated⟩ := (Option.any_eq_true ..).mp hsome
  have hlate : TimedOut ((start sampleConfig 60 .default).run sampleCrypto
      [.datagram (sampleIo 0) samplePeer tailPacket, .cleanup 30])
        (.datagram (sampleIo 60) samplePeer headPacket) entry := by
    refine ⟨60, rfl, ?_⟩
    rw [of_decide_eq_true hcreated]
    decide +kernel
  refine hpunctual (samplePeer, sampleCid) entry hlate ⟨hentry, ?_, Or.inl ⟨0, ?_, ?_⟩⟩
  all_goals decide +kernel

end Router

end SniRouter
