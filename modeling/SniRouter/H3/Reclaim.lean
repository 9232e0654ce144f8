import SniRouter.H3.Lifetimes

/-!
# Idle connections are given back

A connection over which nothing is handed and for which nothing is read any more stays exactly as
it is, whatever happens to others, and its last activity is no later than the clock was then. So
the first cleanup that comes an idle timeout later removes it with everything that refers to it,
and a router that gets no more datagrams is left with empty tables.
-/

namespace SniRouter

namespace Router

/-! ## The last activity -/

/-- No connection was active after `t`. -/
def SeenBy (t : Instant) (r : Router) : Prop :=
  ∀ k c, r.connections.lookup k = some c → c.lastSeen ≤ t

section Seen

variable {cr : Crypto} {io : Io} {t : Instant} {r : Router}

theorem SeenBy.setConnection (h : r.SeenBy t) (k : ℕ) {c : Connection} (hc : c.lastSeen ≤ t) :
    (r.setConnection k c).SeenBy t := by
  intro j d hd
  simp only [Router.setConnection, Table.lookup_insert] at hd
  split at hd
  · exact Option.some.inj hd ▸ hc
  · exact h j d hd

/-- Learning a CID does not make a connection seen later. -/
theorem SeenBy.addCidRoute (h : r.SeenBy t) (cr : Crypto) (k : ℕ) (cid : Bytes) :
    (r.addCidRoute cr k cid).SeenBy t := by
  unfold Router.addCidRoute
  split
  · exact h
  split
  · exact h
  rename_i c hc
  split
  · exact h
  split
  · exact h
  split
  · exact h
  · exact h.setConnection k (h k c hc)

/-- Nor does learning several. -/
theorem SeenBy.addCidRoutes (h : r.SeenBy t) (cr : Crypto) (k : ℕ) (cids : List Bytes) :
    (r.addCidRoutes cr k cids).SeenBy t := by
  induction cids generalizing r with
  | nil => exact h
  | cons cid cids ih => exact ih (h.addCidRoute cr k cid)

/-- Forwarding sets the time of the connection to the time of the event. -/
theorem SeenBy.forwardClient (h : r.SeenBy t) (ht : io.now₂ ≤ t) (cr : Crypto) (k : ℕ)
    (peer : SocketAddr) (packet : Bytes) (long : Option LongPacketCids) :
    (r.forwardEstablishedClientDatagram cr io k peer packet long).router.SeenBy t := by
  unfold forwardEstablishedClientDatagram
  split
  · exact h
  split
  · exact h
  dsimp only
  split
  · exact h.setConnection k ht
  split
  · exact (h.setConnection k ht).addCidRoute cr k _
  · exact h.setConnection k ht

theorem SeenBy.forwardByPeer (h : r.SeenBy t) (ht : io.now₂ ≤ t) (cr : Crypto)
    (peer : SocketAddr) (packet : Bytes) (long : Option LongPacketCids) (validate : Bool) :
    (r.forwardByPeerAffinity cr io peer packet long validate).router.SeenBy t := by
  unfold forwardByPeerAffinity
  split
  · exact h
  split
  · split
    · exact h
    split
    · exact h
    · exact h.forwardClient ht cr _ peer packet long
  · exact h.forwardClient ht cr _ peer packet long

/-- So does sharing a path. -/
theorem SeenBy.sharePath (h : r.SeenBy t) (ht : io.now₂ ≤ t) (cr : Crypto) {k : ℕ}
    {c : Connection} (hc : r.connections.lookup k = some c) (pending : PendingConnection)
    (route : Route) : (r.sharePath cr io k c pending route).router.SeenBy t := by
  have hshorten : (shortenDeadline c io.now₂ route.timeout).lastSeen ≤ t := by
    have hlast : (shortenDeadline c io.now₂ route.timeout).lastSeen = c.lastSeen := by
      unfold shortenDeadline
      split <;> rfl
    exact hlast.le.trans (h k c hc)
  unfold Router.sharePath
  split
  · exact h
  dsimp only
  split
  · exact h.setConnection k hshorten
  · exact ((h.setConnection k ht).addCidRoute cr k _).addCidRoutes cr k _

/-- A new path starts at the time of the event. -/
theorem SeenBy.openPath (h : r.SeenBy t) (ht : io.now₂ ≤ t) (addr : SocketAddr)
    (cids : HashSet Bytes) (lbKey : Option (SocketAddr × SocketAddr))
    (pending : PendingConnection) (route : Route) :
    (r.openPath io addr cids lbKey pending route).router.SeenBy t := by
  unfold Router.openPath
  dsimp only
  split
  · exact h
  split
  · exact h.setConnection r.nextConnectionId ht
  · exact h.setConnection r.nextConnectionId ht

theorem SeenBy.establish (h : r.SeenBy t) (ht : io.now₂ ≤ t) (cr : Crypto)
    (pending : PendingConnection) (route : Route) :
    (r.establishAndFlush cr io pending route).router.SeenBy t := by
  unfold establishAndFlush
  split
  · exact h
  rename_i addr hroute
  dsimp only
  generalize (if r.config.isLbServer (normalizeSocketAddr addr) = true then
    r.lbPaths.lookup (normalizeSocketAddr pending.clientAddr, normalizeSocketAddr addr)
    else none) = existing
  split
  · exact h
  cases existing with
  | some k =>
    dsimp only
    split
    · exact h
    rename_i c hc
    split
    · exact h
    · exact h.sharePath ht cr hc pending route
  | none =>
    dsimp only
    split
    · exact h
    split
    · exact h
    · exact h.openPath ht _ _ _ pending route

/-- Buffering an Initial leaves the connections alone. -/
theorem connections_progress (r : Router) (key : SocketAddr × Bytes) (peer : SocketAddr)
    (packet scid : Bytes) (frames : List (ℕ × Bytes)) (now : Instant) :
    (r.progress key peer packet scid frames now).1.connections = r.connections := by
  unfold progress pendingEntry
  cases r.pending.lookup key
  all_goals
    dsimp only
    split
    · rfl
    split
    · rfl
    split <;> rfl

theorem connections_removePending (r : Router) (key : SocketAddr × Bytes) :
    (r.removePending key).2.connections = r.connections := by
  unfold removePending
  split <;> rfl

theorem connections_recordSni (r : Router) (sni : Option Bytes) :
    (r.recordSni sni).connections = r.connections := by
  unfold recordSni
  dsimp only
  repeat' split
  all_goals rfl

theorem SeenBy.of_connections_eq {r' : Router} (h : r.SeenBy t)
    (hconn : r'.connections = r.connections) : r'.SeenBy t := by
  intro k c hc
  exact h k c (hconn ▸ hc)

theorem SeenBy.handleInitial (h : r.SeenBy t) (ht : io.now₂ ≤ t) (cr : Crypto)
    (peer : SocketAddr) (packet : Bytes) (decrypted : DecryptedInitial)
    (frames : List (ℕ × Bytes)) :
    (r.handleInitial cr io peer packet decrypted frames).router.SeenBy t := by
  unfold Router.handleInitial
  dsimp only
  split
  · exact h
  split
  · exact h
  have hprogress := connections_progress r (normalizeSocketAddr peer, decrypted.dcid) peer packet
    decrypted.scid frames io.now₁
  split
  · rename_i r₁ reason hr₁
    rw [hr₁] at hprogress
    exact (h.of_connections_eq hprogress).of_connections_eq (connections_removePending r₁ _)
  · rename_i r₁ hr₁
    rw [hr₁] at hprogress
    exact h.of_connections_eq hprogress
  · rename_i r₁ sni hr₁
    rw [hr₁] at hprogress
    have hremove := (connections_removePending (r₁.recordSni sni)
      (normalizeSocketAddr peer, decrypted.dcid)).trans (connections_recordSni r₁ sni)
    split
    · rename_i r₂ hr₂
      rw [hr₂] at hremove
      exact (h.of_connections_eq hprogress).of_connections_eq hremove
    · rename_i pending r₂ hr₂
      rw [hr₂] at hremove
      have h₂ : r₂.SeenBy t := (h.of_connections_eq hprogress).of_connections_eq hremove
      split
      · exact h₂
      · exact h₂.establish ht cr pending _

theorem SeenBy.handleUnrouted (h : r.SeenBy t) (ht : io.now₂ ≤ t) (cr : Crypto)
    (peer : SocketAddr) (packet : Bytes) (long : Option LongPacketCids) :
    (r.handleUnroutedClientDatagram cr io peer packet long).router.SeenBy t := by
  unfold handleUnroutedClientDatagram
  split
  · exact h.forwardByPeer ht cr peer packet none false
  split
  · exact h.forwardByPeer ht cr peer packet _ false
  split
  · exact h
  split
  · exact h.forwardByPeer ht cr peer packet _ true
  split
  · exact h
  · exact h.handleInitial ht cr peer packet _ _

theorem SeenBy.handleLb (h : r.SeenBy t) (ht : io.now₂ ≤ t) (cr : Crypto) (peer : SocketAddr)
    (packet : Bytes) (addr : SocketAddr) :
    (r.handleLbDatagram cr io peer packet addr).router.SeenBy t := by
  unfold handleLbDatagram
  split
  · split
    · exact h
    split
    · exact h
    · exact h.forwardClient ht cr _ peer packet none
  · split
    · exact h
    · exact h.establish ht cr _ _

/-- No datagram of a client makes a connection seen later than its event. -/
theorem SeenBy.handleDatagram (h : r.SeenBy t) (ht : io.now₂ ≤ t) (cr : Crypto)
    (peer : SocketAddr) (packet : Bytes) :
    (r.handleDatagram cr io peer packet).router.SeenBy t := by
  have hcounted : (r.receivedClient packet.length).SeenBy t := h
  unfold Router.handleDatagram
  dsimp only
  generalize r.receivedClient packet.length = r₁ at hcounted
  split
  · exact hcounted
  split
  · exact hcounted
  split
  · exact hcounted.handleLb ht cr peer packet _
  split
  · exact hcounted.handleUnrouted ht cr peer packet _
  split
  · exact hcounted
  split
  · exact hcounted.forwardClient ht cr _ peer packet _
  · exact hcounted

/-- Nor does one of a server. -/
theorem SeenBy.handleBackend (h : r.SeenBy t) (ht : io.now₂ ≤ t) (cr : Crypto) (k : ℕ)
    (packet : Bytes) : (r.handleBackendDatagram cr io k packet).router.SeenBy t := by
  have hcounted : (r.receivedBackend packet.length).SeenBy t := h
  unfold handleBackendDatagram
  dsimp only
  generalize r.receivedBackend packet.length = r₁ at hcounted
  split
  · exact hcounted
  unfold forwardEstablishedBackendDatagram
  split
  · exact hcounted
  split
  · exact hcounted
  dsimp only
  split
  · exact (hcounted.setConnection k ht).addCidRoute cr k _
  · exact hcounted.setConnection k ht

/-- Only datagrams make a connection active. -/
theorem SeenBy.step (h : r.SeenBy t) (hr : r.paths.Indexed) (cr : Crypto) {e : Event}
    (ht : e.packet ≠ none → ∀ u ∈ e.reads, u ≤ t) : (r.step cr e).SeenBy t := by
  cases e with
  | datagram io peer packet =>
    have hnow := ht (Option.some_ne_none _) io.now₂ (by simp [Event.reads])
    exact h.handleDatagram hnow cr peer packet
  | backend io k packet =>
    have hnow := ht (Option.some_ne_none _) io.now₂ (by simp [Event.reads])
    exact h.handleBackend hnow cr k packet
  | cleanup now =>
    intro k c hc
    exact h k c (((cleanup_cleans hr now).conn k c).mp hc).1
  | setConfig config => exact h

end Seen

/-! ## Silence -/

/-- A flush calls for its connection when there is anything to flush. -/
theorem exists_send_of_flush (io : Io) (k i : ℕ) {datagrams : List Bytes} (hne : datagrams ≠ []) :
    ∃ s ∈ (flush io k i datagrams).1, s.connId = k := by
  cases datagrams with
  | nil => exact absurd rfl hne
  | cons d ds =>
    unfold flush
    split
    · exact ⟨_, List.mem_cons_self, rfl⟩
    · exact ⟨_, List.mem_cons_self, rfl⟩

section Silent

variable {cr : Crypto} {io : Io} {r : Router} {k : ℕ} {c : Connection}

/-- A routed handshake changes only the connection it hands its datagrams to. -/
theorem EstablishEffect.lookup_of_silent {pending : PendingConnection} {route : Route}
    {reply : Reply} (h : EstablishEffect io r pending route reply) (hr : r.paths.Indexed)
    (hne : pending.datagrams ≠ []) (hc : r.connections.lookup k = some c)
    (hsilent : ∀ s ∈ reply.sends, s.connId ≠ k) :
    reply.router.connections.lookup k = some c := by
  cases h with
  | refuse hdrops => exact (lookup_of_paths_eq hdrops.paths k).trans hc
  | @share addr j d r' message hroute hd hclient hupstream hlive hacts =>
    obtain ⟨s, hs, hj⟩ := exists_send_of_flush io j 0 hne
    have hkj : k ≠ j := fun hk => hsilent s hs (hj.trans hk.symm)
    exact (PathSteps.conn_of_ne hacts.steps hkj).trans hc
  | fail hroute => exact hc
  | @create addr upstream cids lbKey r' message hroute hupstream hroom hopens =>
    have hk : k ≠ r.nextConnectionId := (hr.below k c hc).ne
    have hconn := congrFun (congrArg Paths.conn hopens.paths) k
    exact (hconn.trans (Function.update_of_ne hk ..)).trans hc

/-- A client datagram that is not handed to `k` leaves its connection as it is. -/
theorem handleDatagram_lookup_of_silent (cr : Crypto) (hr : r.paths.Indexed) (peer : SocketAddr)
    (packet : Bytes) (hc : r.connections.lookup k = some c)
    (hsilent : ∀ s ∈ (r.handleDatagram cr io peer packet).sends, s.connId ≠ k) :
    (r.handleDatagram cr io peer packet).router.connections.lookup k = some c := by
  have heffect := handleDatagram_effect cr io hr peer packet
  generalize r.handleDatagram cr io peer packet = reply at heffect hsilent
  cases heffect with
  | drop reason => exact hc
  | forward hd hpeer hlive hacts =>
    have hkj := (hsilent _ List.mem_cons_self).symm
    exact (PathSteps.conn_of_ne hacts.steps hkj).trans hc
  | tooLong => exact hc
  | decoded hlong haddr heffect =>
    exact heffect.lookup_of_silent hr (List.cons_ne_nil _ _) hc hsilent
  | @initial decrypted frames _ hdecrypt hframes hfree hlb heffect =>
    cases heffect with
    | drop reason hrefused => exact hc
    | discard hrefused hreleases => exact (lookup_of_paths_eq hreleases.paths k).trans hc
    | wait haccepts hhello => exact hc
    | unroutable haccepts hhello hreleases hroute =>
      exact (lookup_of_paths_eq hreleases.paths k).trans hc
    | routed haccepts hhello hreleases hroute heffect =>
      refine heffect.lookup_of_silent (hreleases.paths ▸ hr) ?_
        ((lookup_of_paths_eq hreleases.paths k).trans hc) hsilent
      rw [datagrams_buffered_entry]
      simp

/-- Nothing is read for the connection `k`. -/
def Event.ReadFor (k : ℕ) : Event → Prop
  | .backend _ j _ => j = k
  | .datagram _ _ _ | .cleanup _ | .setConfig _ => False

/-- An event that neither is read for a connection nor sends to it leaves it unchanged. -/
theorem step_lookup_of_silent (cr : Crypto) (hr : r.paths.Indexed) {e : Event}
    (hc : r.connections.lookup k = some c) (hread : ¬Event.ReadFor k e)
    (hsilent : ∀ s ∈ (r.handle cr e).sends, s.connId ≠ k) {d : Connection}
    (hd : (r.step cr e).connections.lookup k = some d) : d = c := by
  cases e with
  | datagram io peer packet =>
    have hsame := handleDatagram_lookup_of_silent cr hr peer packet hc hsilent
    exact Option.some.inj (hd.symm.trans hsame)
  | backend io j packet =>
    have heffect := handleBackendDatagram_effect cr io hr j packet
    simp only [step, handle] at hd
    generalize r.handleBackendDatagram cr io j packet = reply at heffect hd
    have hsame : reply.router.connections.lookup k = r.connections.lookup k := by
      cases heffect with
      | drop reason => rfl
      | fail hj hlive hacts => exact PathSteps.conn_of_ne hacts.steps (Ne.symm hread)
      | reply hj hlive hdest hacts => exact PathSteps.conn_of_ne hacts.steps (Ne.symm hread)
    exact Option.some.inj (hd.symm.trans (hsame.trans hc))
  | cleanup now =>
    have hkept := ((cleanup_cleans hr now).conn k d).mp hd
    exact Option.some.inj (hkept.1.symm.trans hc)
  | setConfig config => exact Option.some.inj (hd.symm.trans hc)

/-- Along `fs` nothing is read for the connection `k` and nothing is handed to it. -/
structure Silent (cr : Crypto) (r : Router) (fs : List Event) (k : ℕ) : Prop where
  read : ∀ e ∈ fs, ¬Event.ReadFor k e
  sends : ∀ s ∈ sends cr r fs, s.connId ≠ k

theorem Silent.of_append {fs gs : List Event} (h : Silent cr r (fs ++ gs) k) :
    Silent cr r fs k where
  read := fun e he => h.read e (List.mem_append_left _ he)
  sends := by
    have hsends : Router.sends cr r (fs ++ gs) =
        Router.sends cr r fs ++ Router.sends cr (r.run cr fs) gs := traceFrom_append ..
    exact fun s hs => h.sends s (hsends ▸ List.mem_append_left _ hs)

/-- A connection that is silent and still there is as it was. -/
theorem run_lookup_of_silent (hr : r.paths.Indexed) {fs : List Event}
    (hc : r.connections.lookup k = some c) (hsilent : Silent cr r fs k) {d : Connection}
    (hd : (r.run cr fs).connections.lookup k = some d) : d = c := by
  induction fs generalizing r with
  | nil => exact Option.some.inj (hd.symm.trans hc)
  | cons e fs ih =>
    have hr' := step_indexed cr hr e
    have hrun : r.run cr (e :: fs) = (r.step cr e).run cr fs := rfl
    have hsends : Router.sends cr r (e :: fs) =
        (r.handle cr e).sends ++ Router.sends cr (r.step cr e) fs := rfl
    rw [hrun] at hd
    have hread := hsilent.read e List.mem_cons_self
    have hnow : ∀ s ∈ (r.handle cr e).sends, s.connId ≠ k := fun s hs =>
      hsilent.sends s (hsends ▸ List.mem_append_left _ hs)
    have hlater : Silent cr (r.step cr e) fs k :=
      ⟨fun e' he' => hsilent.read e' (List.mem_cons_of_mem _ he'), fun s hs =>
        hsilent.sends s (hsends ▸ List.mem_append_right _ hs)⟩
    -- an id that is still in use at the end was in use all the time
    have hbelow : k < (r.step cr e).nextConnectionId :=
      (hr.below k c hc).trans_le (step_grows cr hr e).next_le
    obtain ⟨c', hc', -⟩ := (run_grows cr hr' fs).of_lt hbelow hd
    obtain rfl := step_lookup_of_silent cr hr hc hread hnow hc'
    exact ih hr' hc' hlater hd

end Silent

/-! ## Handshakes -/

/-- No pending handshake was started after `t`. -/
def StartedBy (t : Instant) (r : Router) : Prop :=
  ∀ key p, r.pending.lookup key = some p → p.created ≤ t

/-- A handshake starts at the time of its first datagram. -/
theorem StartedBy.step {t : Instant} {r : Router} (h : r.StartedBy t) (hr : r.paths.Indexed)
    (cr : Crypto) {e : Event} (ht : e.packet ≠ none → ∀ u ∈ e.reads, u ≤ t) :
    (r.step cr e).StartedBy t := by
  cases e with
  | datagram io peer packet =>
    have heffect := (handleDatagram_effect cr io hr peer packet).buffersEffect
    intro key p hp
    have hp : (r.handleDatagram cr io peer packet).router.buffers.pending.lookup key = some p := hp
    generalize (r.handleDatagram cr io peer packet).router.buffers = b at heffect hp
    cases heffect with
    | same => exact h key p hp
    | release hkey hdecrypt hframes hlabels =>
      simp only [Buffers.release, Table.lookup_erase] at hp
      split at hp
      · cases hp
      · exact h key p hp
    | @wait decrypted frames key' hkey hdecrypt hframes haccepts =>
      simp only [Router.buffer, Router.buffers, Table.lookup_insert] at hp
      split at hp
      · obtain rfl := Option.some.inj hp
        show (r.entry key' peer io.now₁).created ≤ t
        unfold entry
        cases hold : r.pending.lookup key' with
        | some old => exact h key' old hold
        | none => exact ht (Option.some_ne_none _) io.now₁ List.mem_cons_self
      · exact h key p hp
  | backend io k packet =>
    have hbuffers := (handleBackendDatagram_effect cr io hr k packet).buffers
    intro key p hp
    have hpending : (r.step cr (.backend io k packet)).pending = r.pending :=
      congrArg Buffers.pending hbuffers
    exact h key p (hpending ▸ hp)
  | cleanup now =>
    have hpending : (r.step cr (.cleanup now)).pending = (r.buffers.expire now).pending :=
      congrArg Buffers.pending (cleanup_cleans hr now).buffers
    intro key p hp
    rw [hpending] at hp
    exact h key p (Table.lookup_retain_eq_some.mp hp).1
  | setConfig config => exact h

/-! ## Whole runs -/

/-- Nothing refers to the connection `k`. -/
structure Gone (r : Router) (k : ℕ) : Prop where
  connection : r.connections.lookup k = none
  cids : ∀ cid, r.cidRoutes.get cid ≠ some k
  clients : ∀ a ids, r.clientRoutes.lookup a = some ids → k ∉ ids
  lbPaths : ∀ key, r.lbPaths.lookup key ≠ some k

/-- A connection that is not in the table is in no index either. -/
theorem gone_of_lookup_eq_none {r : Router} (hr : r.paths.Indexed) {k : ℕ}
    (hk : r.connections.lookup k = none) : r.Gone k := by
  have hno : ∀ c, r.connections.lookup k ≠ some c := by
    intro c hc
    rw [hk] at hc
    cases hc
  refine ⟨hk, fun cid howner => ?_, fun a ids hids hmem => ?_, fun key hkey => ?_⟩
  · obtain ⟨-, c, hc, -⟩ := (hr.owner_iff cid k).mp howner
    exact hno c hc
  · obtain ⟨c, hc, -⟩ := (hr.lists_iff a k).mp ⟨ids, hids, hmem⟩
    exact hno c hc
  · obtain ⟨c, hc, -⟩ := exists_of_lbPaths hr hkey
    exact hno c hc

/-- By induction on the run, nothing was seen or started after `t` if no datagram was. -/
theorem run_seenBy_startedBy (cr : Crypto) {t : Instant} {r : Router} (hr : r.paths.Indexed)
    (hseen : r.SeenBy t) (hstarted : r.StartedBy t) {es : List Event}
    (ht : ∀ e ∈ es, e.packet ≠ none → ∀ u ∈ e.reads, u ≤ t) :
    (r.run cr es).SeenBy t ∧ (r.run cr es).StartedBy t := by
  induction es generalizing r with
  | nil => exact ⟨hseen, hstarted⟩
  | cons e es ih =>
    have hnow := ht e List.mem_cons_self
    exact ih (step_indexed cr hr e) (hseen.step hr cr hnow) (hstarted.step hr cr hnow)
      fun e' he' => ht e' (List.mem_cons_of_mem _ he')

/-- The time that has passed since `s` is at least the timeout. -/
theorem timeout_le_sub {s t now : Instant} {timeout idleTimeout : Duration} (hs : s ≤ t)
    (hnow : t + idleTimeout ≤ now) (htimeout : timeout ≤ idleTimeout) : timeout ≤ now - s :=
  Nat.le_sub_of_add_le
    ((Nat.add_comm timeout s).le.trans ((Nat.add_le_add hs htimeout).trans hnow))

/-- A connection expires when it was not seen for the idle timeout. -/
theorem expired_of_lastSeen {c : Connection} {t now : Instant} {idleTimeout : Duration}
    (hc : c.lastSeen ≤ t) (hnow : t + idleTimeout ≤ now) : c.expired now idleTimeout = true := by
  have hidle := timeout_le_sub hc hnow (le_refl idleTimeout)
  simp [Connection.expired, hidle]

/-- **Idle connections are given back.** After a run whose clock readings are at most `t`, the
first cleanup an idle timeout after `t` removes every connection that nothing was handed to or read
for since, with all that refers to it, whatever other datagrams were handled in between; until it
is removed it does not change. If there were none at all, nothing is left. -/
theorem run_idle_reclaimed (cr : Crypto) (config : Config) (idleTimeout : Duration)
    (limits : Limits) (es fs : List Event) (t now : Instant)
    (hreads : ∀ e ∈ es, ∀ u ∈ e.reads, u ≤ t) (hnow : t + idleTimeout ≤ now) :
    (∀ k c, ((start config idleTimeout limits).run cr es).connections.lookup k = some c →
      Silent cr ((start config idleTimeout limits).run cr es) fs k →
      (∀ pre, pre <+: fs → ∀ d,
        ((start config idleTimeout limits).run cr (es ++ pre)).connections.lookup k = some d →
        d = c) ∧
      Gone (((start config idleTimeout limits).run cr (es ++ fs)).cleanup now) k) ∧
    ((∀ e ∈ fs, e.packet = none) →
      Emptied (((start config idleTimeout limits).run cr (es ++ fs)).cleanup now)) := by
  have hr := run_indexed cr config idleTimeout limits es
  have hend := run_indexed cr config idleTimeout limits (es ++ fs)
  have hidle := (run_settings cr config idleTimeout limits (es ++ fs)).2
  have hcleans := cleanup_cleans hend now
  obtain ⟨hseen, hstarted⟩ := run_seenBy_startedBy cr (start_indexed config idleTimeout limits)
    (t := t) nofun nofun (fun e he _ => hreads e he)
  have hrun : ∀ gs, (start config idleTimeout limits).run cr (es ++ gs) =
      ((start config idleTimeout limits).run cr es).run cr gs := fun gs => runFrom_append ..
  constructor
  · intro k c hc hsilent
    refine ⟨?_, gone_of_lookup_eq_none hcleans.indexed ?_⟩
    · rintro pre ⟨post, rfl⟩ d hd
      rw [hrun] at hd
      exact run_lookup_of_silent hr hc hsilent.of_append hd
    -- what is left of the connection is what it was before `fs`, and that is expired
    cases hleft : (((start config idleTimeout limits).run cr (es ++ fs)).cleanup
        now).connections.lookup k with
    | none => rfl
    | some d =>
      obtain ⟨hd, hlive⟩ := (hcleans.conn k d).mp hleft
      rw [hrun] at hd
      obtain rfl := run_lookup_of_silent hr hc hsilent hd
      rw [hidle, expired_of_lastSeen (hseen k d hc) hnow] at hlive
      cases hlive
  · intro hsilent
    have htally := run_tallied cr config idleTimeout limits (es ++ fs)
    obtain ⟨hseen', hstarted'⟩ := run_seenBy_startedBy cr hr hseen hstarted
      fun e (he : e ∈ fs) hpacket => absurd (hsilent e he) hpacket
    rw [← hrun] at hseen' hstarted'
    refine (cleanup_cleanedExactly hend htally now).emptied (fun k c hc => ?_) fun key p hp => ?_
    · rw [hidle]
      exact expired_of_lastSeen (hseen' k c hc) hnow
    · have htimeout : ((start config idleTimeout limits).run cr (es ++ fs)).pendingTimeout ≤
          idleTimeout := by
        rw [pendingTimeout, hidle]
        exact Nat.min_le_right ..
      exact .inr (timeout_le_sub (hstarted' key p hp) hnow htimeout)

/-- The path of the sample client leaves while another client is active. -/
theorem run_idle_reclaimed_sample :
    (sampleRouter.connections.lookup 0).isSome = true ∧
    Gone (((start sampleConfig 60 .default).run sampleCrypto
      ([.datagram (sampleIo 0) samplePeer helloPacket] ++
        [.datagram (sampleIo 30) otherPeer longerCidPacket])).cleanup 60) 0 := by
  have hsome : (sampleRouter.connections.lookup 0).isSome = true := by decide +kernel
  obtain ⟨c, hc⟩ := Option.isSome_iff_exists.mp hsome
  refine ⟨hsome, ((run_idle_reclaimed sampleCrypto sampleConfig 60 .default _ _ 0 60 ?_
    (by decide)).1 0 c hc ⟨?_, by decide +kernel⟩).2⟩
  · intro e he u hu
    cases List.mem_singleton.mp he
    simpa [Event.reads, sampleIo] using hu
  · intro e he
    cases List.mem_singleton.mp he
    exact id

end Router

end SniRouter
