import SniRouter.H3.Handshakes

/-!
# Datagram conservation

Every step balances: what was buffered before together with what arrives is what is handed to
a socket, what is buffered afterwards and what is lost, as multisets of datagrams. When the
handler returns `Ok`, everything lost is counted in the drop counters. Over a run in which no
handler fails the counters therefore account for every datagram.
-/

namespace SniRouter

/-- The datagram an event delivers. -/
def Event.packet : Event → Option Bytes
  | .datagram _ _ packet => some packet
  | .backend _ _ packet => some packet
  | .cleanup _ | .setConfig _ => none

namespace Router

/-- The datagrams buffered for all pending handshakes. -/
def held (r : Router) : Multiset Bytes := r.pending.total fun _ p => (p.datagrams : Multiset Bytes)

/-- A step that `arrived` was delivered to: nothing appears and, if the handler succeeds,
nothing disappears without being counted. -/
def Balanced (arrived : Multiset Bytes) (r : Router) (reply : Reply) : Prop :=
  ∃ lost : Multiset Bytes,
    ↑(reply.sends.map Send.datagram) + reply.router.held + lost = r.held + arrived ∧
      (reply.outcome = .ok →
        reply.router.metrics.dropTotal = r.metrics.dropTotal + lost.card)

theorem held_of_buffers_eq {r r' : Router} (h : r'.buffers = r.buffers) : r'.held = r.held := by
  have hpending : r'.pending = r.pending := congrArg Buffers.pending h
  rw [held, held, hpending]

/-! ## One step -/

/-- Everything arrived is dropped and counted. -/
theorem balanced_drops {arrived : Multiset Bytes} {r r' : Router}
    (h : Drops arrived.card r r') : Balanced arrived r (.done r') := by
  refine ⟨arrived, ?_, fun _ => h.dropTotal⟩
  simp [Reply.done, held_of_buffers_eq h.buffers]

/-- One datagram is handed over. -/
theorem balanced_actsOn {k : ℕ} {r r' : Router} (h : ActsOn k r r') (s : Send)
    (outcome : Outcome) : Balanced {s.datagram} r ⟨r', [s], outcome⟩ := by
  refine ⟨0, ?_, fun _ => h.dropTotal⟩
  simp [held_of_buffers_eq h.buffers, add_comm]

/-- A flush that ends in `Ok` handed over everything. -/
theorem flush_of_ok {io : Io} {k : ℕ} {datagrams : List Bytes} {message : String}
    (h : (if (flush io k 0 datagrams).2 then Outcome.ok else .err message) = .ok) :
    (flush io k 0 datagrams).1 = datagrams.map fun d => .backend k d true := by
  refine (flush_spec io k 0 datagrams).2.2 ?_
  by_contra hne
  simp [hne] at h

/-- A routed handshake is handed over, dropped or lost with the failure of its handler. -/
theorem EstablishEffect.balanced {io : Io} {r : Router} {pending : PendingConnection}
    {route : Route} {reply : Reply} (h : EstablishEffect io r pending route reply) :
    Balanced pending.datagrams r reply := by
  -- a flush hands over a first part of the datagrams, and all of them if it succeeds
  have hflush : ∀ (k : ℕ) (r' : Router) (message : String), r'.buffers = r.buffers →
      r'.metrics.dropTotal = r.metrics.dropTotal →
      Balanced pending.datagrams r ⟨r', (flush io k 0 pending.datagrams).1,
        if (flush io k 0 pending.datagrams).2 then .ok else .err message⟩ := by
    intro k r' message hbuffers hdrops
    obtain ⟨rest, hrest⟩ := (flush_spec io k 0 pending.datagrams).1
    have hparts : (↑((flush io k 0 pending.datagrams).1.map Send.datagram) + ↑rest :
        Multiset Bytes) = ↑pending.datagrams := by
      rw [Multiset.coe_add, hrest]
    refine ⟨rest, ?_, fun hok => ?_⟩
    · rw [held_of_buffers_eq hbuffers, ← hparts]
      abel
    · have hlength := congrArg List.length hrest
      rw [flush_of_ok hok] at hlength
      simp only [List.length_append, List.length_map] at hlength
      have hnil : rest = [] := List.length_eq_zero_iff.mp (by omega)
      simp [hdrops, hnil]
  cases h with
  | refuse hdrops => exact balanced_drops hdrops
  | share hroute hc hclient hupstream hlive hacts =>
    exact hflush _ _ _ hacts.buffers hacts.dropTotal
  | fail hroute => exact ⟨pending.datagrams, by simp [held], nofun⟩
  | create hroute hupstream hroom hopens => exact hflush _ _ _ hopens.buffers hopens.dropTotal

/-- Releasing a handshake takes its datagrams out of the buffers. -/
theorem Releases.held_add {key : SocketAddr × Bytes} {n : ℕ} {r r' : Router}
    (h : Releases key n r r') :
    r'.held + ((r.pending.lookup key).elim [] PendingConnection.datagrams : List Bytes) =
      r.held := by
  have hpending : r'.pending = r.pending.erase key := congrArg Buffers.pending h.buffers
  have hsum := Table.total_erase_add
    (fun _ p => (PendingConnection.datagrams p : Multiset Bytes)) r.pending key
  rw [held, hpending, held, ← hsum]
  cases r.pending.lookup key <;> rfl

/-- The entry of a handshake with one more Initial: what was buffered, then the Initial. -/
theorem datagrams_buffered_entry (r : Router) (key : SocketAddr × Bytes) (peer : SocketAddr)
    (packet scid : Bytes) (frames : List (ℕ × Bytes)) (now : Instant) :
    ((r.entry key peer now).buffered packet scid frames now).datagrams =
      (r.pending.lookup key).elim [] PendingConnection.datagrams ++ [packet] := by
  unfold entry
  cases r.pending.lookup key <;> rfl

/-- An Initial is held, handed over with the others, or counted as a drop. -/
theorem InitialEffect.balanced {io : Io} {r : Router} {peer : SocketAddr} {packet : Bytes}
    {decrypted : DecryptedInitial} {frames : List (ℕ × Bytes)} {key : SocketAddr × Bytes}
    {reply : Reply}
    (h : InitialEffect io r peer packet decrypted frames key
      ((r.entry key peer io.now₁).buffered packet decrypted.scid frames io.now₁) reply) :
    Balanced {packet} r reply := by
  have hentry : (((r.entry key peer io.now₁).buffered packet decrypted.scid frames
      io.now₁).datagrams : Multiset Bytes) =
      ((r.pending.lookup key).elim [] PendingConnection.datagrams : List Bytes) + {packet} := by
    rw [datagrams_buffered_entry, ← Multiset.coe_add]
    rfl
  cases h with
  | drop reason hrefused => exact balanced_drops (drops_dropped ..)
  | discard hrefused hreleases =>
    refine ⟨((r.pending.lookup key).elim [] PendingConnection.datagrams : List Bytes) + {packet},
      ?_, fun _ => ?_⟩
    · rw [← hreleases.held_add]
      simp [Reply.done, add_assoc]
    · refine hreleases.dropTotal.trans ?_
      cases r.pending.lookup key <;> simp
  | wait haccepts hhello =>
    refine ⟨0, ?_, fun _ => rfl⟩
    -- the entry is replaced by itself with `packet` at the end
    have hsum := Table.total_erase_add
      (fun _ p => (PendingConnection.datagrams p : Multiset Bytes)) r.pending key
    simp only [Reply.done, held, buffer, List.map_nil, Multiset.coe_nil, zero_add, add_zero,
      Table.total_insert, hentry]
    rw [← hsum, add_assoc]
    cases r.pending.lookup key <;> rfl
  | unroutable haccepts hhello hreleases hroute =>
    refine ⟨((r.pending.lookup key).elim [] PendingConnection.datagrams : List Bytes) + {packet},
      ?_, fun hok => ?_⟩
    · rw [← hreleases.held_add]
      simp [add_assoc]
    · cases hok
  | @routed hello r₁ route reply haccepts hhello hreleases hroute heffect =>
    obtain ⟨lost, hbalance, hcount⟩ := heffect.balanced
    refine ⟨lost, ?_, fun hok => ?_⟩
    · rw [hbalance, hentry, ← hreleases.held_add, add_assoc]
    · rw [hcount hok, hreleases.dropTotal, Nat.add_zero]

/-- So is every datagram of a client. -/
theorem ClientEffect.balanced {cr : Crypto} {io : Io} {r : Router} {peer : SocketAddr}
    {packet : Bytes} {reply : Reply} (h : ClientEffect cr io r peer packet reply) :
    Balanced {packet} r reply := by
  cases h with
  | drop reason => exact balanced_drops (drops_dropped ..)
  | forward hc hpeer hlive hacts => exact balanced_actsOn hacts _ _
  | tooLong => exact ⟨{packet}, by simp, nofun⟩
  | decoded hlong haddr heffect => exact heffect.balanced
  | initial hdecrypt hframes hfree hlb heffect => exact heffect.balanced

/-- A datagram of a server is handed over or counted as a drop. -/
theorem BackendEffect.balanced {io : Io} {r : Router} {k : ℕ} {packet : Bytes} {reply : Reply}
    (h : BackendEffect io r k packet reply) : Balanced {packet} r reply := by
  cases h with
  | drop reason => exact balanced_drops (drops_dropped ..)
  | fail hc hlive hacts =>
    exact ⟨{packet}, by simp [held_of_buffers_eq hacts.buffers], nofun⟩
  | reply hc hlive hdest hacts => exact balanced_actsOn hacts _ _

/-- Every event is balanced. -/
theorem handle_balanced (cr : Crypto) {r : Router} (hr : r.paths.Indexed) (e : Event) :
    Balanced (e.packet.toList : List Bytes) r (r.handle cr e) := by
  cases e with
  | datagram io peer packet => exact (handleDatagram_effect cr io hr peer packet).balanced
  | backend io k packet => exact (handleBackendDatagram_effect cr io hr k packet).balanced
  | cleanup now =>
    have hcleans := cleanup_cleans hr now
    have hpending : (r.cleanup now).pending = (r.buffers.expire now).pending :=
      congrArg Buffers.pending hcleans.buffers
    have hsum := Table.total_retain_add
      (fun _ p => (PendingConnection.datagrams p : Multiset Bytes))
      (fun _ p => r.buffers.keeps now p) r.pending
    refine ⟨((r.buffers.timedOut now).map fun p => (p.datagrams : Multiset Bytes)).sum, ?_,
      fun _ => ?_⟩
    · simp only [handle, Reply.done, Event.packet, Option.toList_none, List.map_nil,
        Multiset.coe_nil, zero_add, add_zero, held, hpending]
      rw [← hsum, Buffers.timedOut, List.map_map]
      rfl
    · have hcard := map_list_sum Multiset.cardHom
        ((r.buffers.timedOut now).map fun p => (p.datagrams : Multiset Bytes))
      rw [List.map_map] at hcard
      exact hcleans.dropTotal.trans (congrArg _ hcard.symm)
  | setConfig config =>
    exact ⟨0, by simp [handle, Reply.done, setConfig, Event.packet, held], fun _ => rfl⟩

/-! ## Gauges and traffic -/

/-- Datagrams received from clients and backends. -/
def received (r : Router) : ℕ := r.metrics.client.datagrams + r.metrics.backend.datagrams

/-- A datagram is counted when it is received. -/
theorem handle_received (cr : Crypto) {r : Router} (hr : r.paths.Indexed) (e : Event) :
    (r.handle cr e).router.received = r.received + e.packet.toList.length := by
  cases e with
  | datagram io peer packet =>
    obtain ⟨-, -, hclient, hbackend, -⟩ :=
      (handleDatagram_effect cr io hr peer packet).buffersEffect.settings
    have hclient : (r.handleDatagram cr io peer packet).router.metrics.client = _ := hclient
    have hbackend : (r.handleDatagram cr io peer packet).router.metrics.backend = _ := hbackend
    simp only [handle, received, hclient, hbackend, receivedClient, Traffic.received, Event.packet,
      Option.toList_some, List.length_singleton]
    omega
  | backend io k packet =>
    have hbuffers := (handleBackendDatagram_effect cr io hr k packet).buffers
    have hclient : (r.handleBackendDatagram cr io k packet).router.metrics.client = _ :=
      congrArg Buffers.client hbuffers
    have hbackend : (r.handleBackendDatagram cr io k packet).router.metrics.backend = _ :=
      congrArg Buffers.backend hbuffers
    simp only [handle, received, hclient, hbackend, buffers, receivedBackend, Traffic.received,
      Event.packet, Option.toList_some, List.length_singleton]
    omega
  | cleanup now =>
    have hbuffers := (cleanup_cleans hr now).buffers
    have hclient : (r.cleanup now).metrics.client = r.metrics.client :=
      congrArg Buffers.client hbuffers
    have hbackend : (r.cleanup now).metrics.backend = r.metrics.backend :=
      congrArg Buffers.backend hbuffers
    simp [handle, Reply.done, received, hclient, hbackend, Event.packet]
  | setConfig config => rfl

/-- No event makes the gauge of the paths wrong. -/
theorem handle_gauge (cr : Crypto) {r : Router} (hr : r.paths.Indexed) (e : Event) :
    (r.handle cr e).router.pathGaugeError = r.pathGaugeError := by
  rcases cleanup_or_routes cr hr e with ⟨now, rfl⟩ | ⟨k, hroutes⟩
  · exact (cleanup_cleans hr now).gauge
  · exact hroutes.gauge

/-! ## Handing over -/

/-- What one event hands over: its own datagram, or together with it everything that was
buffered for one handshake, in the order of arrival and to one backend, and the handshake is
gone. -/
def HandsOver (es : List Event) (r : Router) (e : Event) (reply : Reply) : Prop :=
  reply.sends = [] ∨
    (∃ s packet, e.packet = some packet ∧ reply.sends = [s] ∧ s.datagram = packet) ∨
    ∃ key k packet, e.packet = some packet ∧
      reply.sends = ((r.pending.lookup key).elim [] PendingConnection.datagrams ++ [packet]).map
        (fun d => .backend k d true) ∧
      ((r.pending.lookup key).elim [] PendingConnection.datagrams ++ [packet]).Sublist
        ((es ++ [e]).filterMap Event.packet) ∧
      reply.router.pending.lookup key = none

/-- A routed handshake that is handed over without a failure. -/
theorem EstablishEffect.sends_eq {io : Io} {r : Router} {pending : PendingConnection}
    {route : Route} {reply : Reply} (h : EstablishEffect io r pending route reply)
    (hok : reply.outcome = .ok) :
    reply.sends = [] ∨ ∃ k, reply.sends = pending.datagrams.map fun d => .backend k d true := by
  cases h with
  | refuse hdrops => exact Or.inl rfl
  | share hroute hc hclient hupstream hlive hacts => exact Or.inr ⟨_, flush_of_ok hok⟩
  | fail hroute => exact Or.inl rfl
  | create hroute hupstream hroom hopens => exact Or.inr ⟨_, flush_of_ok hok⟩

/-- The Initials of a handshake arrived in the order in which the run lists them. -/
theorem map_initial_sublist (cr : Crypto) (key : SocketAddr × Bytes) (es : List Event) :
    ((es.filterMap (Event.initial cr key)).map Prod.fst).Sublist (es.filterMap Event.packet) := by
  induction es with
  | nil => simp
  | cons e es ih =>
    cases hinitial : e.initial cr key with
    | none =>
      rw [List.filterMap_cons_none hinitial, List.filterMap_cons]
      split
      · exact ih
      · exact ih.trans (List.sublist_cons_self ..)
    | some item =>
      obtain ⟨io, peer, -, rfl, -⟩ := Event.initial_eq_some hinitial
      have hpacket : (Event.datagram io peer item.1).packet = some item.1 := rfl
      rw [List.filterMap_cons_some hinitial, List.filterMap_cons_some hpacket, List.map_cons]
      exact ih.cons_cons _

/-- An event whose handler does not fail hands over in the order of arrival. -/
theorem handle_handsOver (cr : Crypto) {es : List Event} {r : Router} (hr : r.paths.Indexed)
    (hcollected : AllCollected cr es r) (e : Event) (hok : (r.handle cr e).outcome = .ok) :
    HandsOver es r e (r.handle cr e) := by
  cases e with
  | datagram io peer packet =>
    have heffect := handleDatagram_effect cr io hr peer packet
    simp only [handle] at hok ⊢
    generalize handleDatagram .. = reply at heffect hok
    cases heffect with
    | drop reason => exact Or.inl rfl
    | forward hc hpeer hlive hacts => exact Or.inr (Or.inl ⟨_, packet, rfl, rfl, rfl⟩)
    | tooLong => exact Or.inl rfl
    | decoded hlong haddr heffect =>
      rcases heffect.sends_eq hok with hnone | ⟨k, hsends⟩
      · exact Or.inl hnone
      · exact Or.inr (Or.inl ⟨_, packet, rfl, hsends, rfl⟩)
    | @initial decrypted frames _ hdecrypt hframes hfree hlb heffect =>
      cases heffect with
      | drop reason hrefused => exact Or.inl rfl
      | discard hrefused hreleases => exact Or.inl rfl
      | wait haccepts hhello => exact Or.inl rfl
      | unroutable haccepts hhello hreleases hroute => exact Or.inl rfl
      | routed haccepts hhello hreleases hroute heffect =>
        -- only a handshake that completes sends more than the datagram at hand
        rcases heffect.sends_eq hok with hnone | ⟨k, hsends⟩
        · exact Or.inl hnone
        refine Or.inr (Or.inr ⟨(normalizeSocketAddr peer, decrypted.dcid), k, packet, rfl,
          ?_, ?_, ?_⟩)
        · rw [hsends, datagrams_buffered_entry]
          rfl
        · obtain ⟨items, hsub, hitems, -⟩ :=
            buffered_collects hcollected io rfl hdecrypt hframes haccepts.taken
          rw [← datagrams_buffered_entry r _ peer packet decrypted.scid frames io.now₁,
            hitems.datagrams]
          exact (hsub.map Prod.fst).trans (map_initial_sublist ..)
        · have hpending : reply.router.pending = _ := congrArg Buffers.pending
            (heffect.buffers.trans hreleases.buffers)
          rw [hpending]
          exact Table.lookup_erase_self ..
  | backend io k packet =>
    have heffect := handleBackendDatagram_effect cr io hr k packet
    simp only [handle] at hok ⊢
    generalize handleBackendDatagram .. = reply at heffect hok
    cases heffect with
    | drop reason => exact Or.inl rfl
    | fail hc hlive hacts => exact Or.inl rfl
    | reply hc hlive hdest hacts => exact Or.inr (Or.inl ⟨_, packet, rfl, rfl, rfl⟩)
  | cleanup now => exact Or.inl rfl
  | setConfig config => exact Or.inl rfl

/-! ## Whole runs -/

/-- The calls of `send_or_queue` along a run. -/
def sends (cr : Crypto) (r : Router) (es : List Event) : List Send :=
  traceFrom (step cr) (fun r e => (r.handle cr e).sends) r es

/-- How the handlers of a run ended. -/
def outcomes (cr : Crypto) (r : Router) (es : List Event) : List Outcome :=
  traceFrom (step cr) (fun r e => [(r.handle cr e).outcome]) r es

theorem outcomes_append_cons (cr : Crypto) (r : Router) (pre : List Event) (e : Event)
    (post : List Event) :
    ∃ os, outcomes cr r (pre ++ e :: post) =
      outcomes cr r pre ++ ((r.run cr pre).handle cr e).outcome :: os := by
  induction pre generalizing r with
  | nil => exact ⟨_, rfl⟩
  | cons e' pre ih =>
    obtain ⟨os, hos⟩ := ih (r.step cr e')
    exact ⟨os, congrArg ((r.handle cr e').outcome :: ·) hos⟩

theorem card_held (r : Router) : r.held.card = r.pending.total fun _ p => p.datagrams.length := by
  have hcard := map_list_sum Multiset.cardHom
    (r.pending.toList.map fun e => (e.2.datagrams : Multiset Bytes))
  rw [List.map_map] at hcard
  exact hcard

/-- The balance of a whole run, over all its steps. -/
theorem run_balanced (cr : Crypto) (config : Config) (idleTimeout : Duration) (limits : Limits)
    (es : List Event) :
    ↑((sends cr (start config idleTimeout limits) es).map Send.datagram) +
        ((start config idleTimeout limits).run cr es).held ≤
      (es.filterMap Event.packet : Multiset Bytes) ∧
    ((∀ o ∈ outcomes cr (start config idleTimeout limits) es, o = .ok) →
      ((start config idleTimeout limits).run cr es).received =
        (sends cr (start config idleTimeout limits) es).length +
          ((start config idleTimeout limits).run cr es).held.card +
          ((start config idleTimeout limits).run cr es).metrics.dropTotal) := by
  induction es using List.reverseRecOn with
  | nil => exact ⟨le_refl _, fun _ => rfl⟩
  | append_singleton es e ih =>
    have hr := run_indexed cr config idleTimeout limits es
    obtain ⟨lost, hbalance, hcount⟩ := handle_balanced cr hr e
    have hreceived := handle_received cr hr e
    have hrun : (start config idleTimeout limits).run cr (es ++ [e]) =
        (((start config idleTimeout limits).run cr es).handle cr e).router :=
      runFrom_concat ..
    have hsends : sends cr (start config idleTimeout limits) (es ++ [e]) =
        sends cr (start config idleTimeout limits) es ++
          (((start config idleTimeout limits).run cr es).handle cr e).sends :=
      traceFrom_concat ..
    have houtcomes : outcomes cr (start config idleTimeout limits) (es ++ [e]) =
        outcomes cr (start config idleTimeout limits) es ++
          [(((start config idleTimeout limits).run cr es).handle cr e).outcome] :=
      traceFrom_concat ..
    rw [hrun, hsends, houtcomes]
    -- one step: `reply` is what the last event adds to the account of `r`
    generalize (start config idleTimeout limits).run cr es = r at *
    generalize r.handle cr e = reply at *
    generalize sends cr (start config idleTimeout limits) es = before at *
    refine ⟨?_, fun hok => ?_⟩
    · have hpackets : ((es ++ [e]).filterMap Event.packet : Multiset Bytes) =
          ↑(es.filterMap Event.packet) + ↑e.packet.toList := by
        rw [List.filterMap_append, Multiset.coe_add]
        cases hpacket : e.packet <;> simp [hpacket]
      calc ↑((before ++ reply.sends).map Send.datagram) + reply.router.held
          ≤ ↑((before ++ reply.sends).map Send.datagram) + reply.router.held + lost :=
            Multiset.le_add_right ..
        _ = ↑(before.map Send.datagram) + r.held + ↑e.packet.toList := by
            rw [List.map_append, ← Multiset.coe_add, add_assoc, add_assoc,
              ← add_assoc (reply.sends.map Send.datagram : Multiset Bytes), hbalance, add_assoc]
        _ ≤ ↑(es.filterMap Event.packet) + ↑e.packet.toList := add_le_add_left ih.1 _
        _ = ↑((es ++ [e]).filterMap Event.packet) := hpackets.symm
    · have hbefore := ih.2 fun o ho => hok o (by simp [ho])
      have hdrops := hcount (hok _ (by simp))
      have hcard := congrArg Multiset.card hbalance
      simp only [Multiset.card_add, Multiset.coe_card, List.length_map] at hcard
      rw [List.length_append]
      omega

/-- What a run did with the datagrams it received. -/
structure Accounts (cr : Crypto) (r₀ : Router) (es : List Event) : Prop where
  /-- Received is handed over, buffered or dropped. -/
  count : (r₀.run cr es).metrics.client.datagrams + (r₀.run cr es).metrics.backend.datagrams =
    (sends cr r₀ es).length + ((r₀.run cr es).pending.total fun _ p => p.datagrams.length) +
      (r₀.run cr es).metrics.dropTotal
  /-- Every datagram handed over or buffered is one that was received, unchanged. -/
  once : ↑((sends cr r₀ es).map Send.datagram) + (r₀.run cr es).held ≤
    (es.filterMap Event.packet : Multiset Bytes)
  /-- Handshakes are handed over as a whole. -/
  order : ∀ pre e post, es = pre ++ e :: post →
    HandsOver pre (r₀.run cr pre) e ((r₀.run cr pre).handle cr e)
  activePaths : (r₀.run cr es).metrics.activePaths = (r₀.run cr es).connections.size
  pending : (r₀.run cr es).metrics.pending = (r₀.run cr es).pending.size
  pendingBytes : (r₀.run cr es).metrics.pendingBytes = (r₀.run cr es).pendingBytes

/-- The gauge is the number of paths, after any run. -/
theorem run_gauge (cr : Crypto) (config : Config) (idleTimeout : Duration) (limits : Limits)
    (es : List Event) : ((start config idleTimeout limits).run cr es).pathGaugeError = 0 := by
  refine runFrom_history (P := fun _ r => pathGaugeError r = 0) rfl ?_ es
  intro es e h
  exact (handle_gauge cr (run_indexed cr config idleTimeout limits es) e).trans h

/-- **Datagram conservation.** In a run in which no handler returns an error, every datagram
received is handed over, buffered or counted as dropped. -/
theorem run_accounts (cr : Crypto) (config : Config) (idleTimeout : Duration) (limits : Limits)
    (es : List Event)
    (hok : ∀ o ∈ outcomes cr (start config idleTimeout limits) es, o = .ok) :
    Accounts cr (start config idleTimeout limits) es := by
  obtain ⟨honce, hcount⟩ := run_balanced cr config idleTimeout limits es
  have hgauge := run_gauge cr config idleTimeout limits es
  have htally := run_tallied cr config idleTimeout limits es
  refine ⟨?_, honce, ?_, ?_, htally.gauge, htally.bytesGauge⟩
  · rw [← card_held]
    exact hcount hok
  · rintro pre e post rfl
    obtain ⟨os, hos⟩ := outcomes_append_cons cr (start config idleTimeout limits) pre e post
    exact handle_handsOver cr (run_indexed cr config idleTimeout limits pre)
      (run_collected cr config idleTimeout limits pre) e (hok _ (by simp [hos]))
  · simp only [pathGaugeError] at hgauge
    omega

/-- A handshake of two Initials, and one more Initial on another CID that stays pending. -/
theorem run_accounts_sample :
    Accounts sampleCrypto (start sampleConfig 60 .default)
      [.datagram (sampleIo 0) samplePeer tailPacket, .datagram (sampleIo 1) samplePeer headPacket,
        .datagram (sampleIo 2) otherPeer headerPacket] :=
  run_accounts sampleCrypto sampleConfig 60 .default _ (by decide +kernel)

end Router

end SniRouter
