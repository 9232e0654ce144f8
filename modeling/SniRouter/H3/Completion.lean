import SniRouter.H3.Conservation

/-!
# Completing a ClientHello

The Initials of one handshake may arrive in any order, with gaps, overlaps and duplicates, and
interleaved with anything else. While their CRYPTO frames do not cover the ClientHello, they
are all buffered. The Initial with which they do completes the handshake: the ClientHello is
routed by its server name, and everything buffered goes to one connection in the order of
arrival.
-/

namespace SniRouter

open CryptoReassembly (Covers SliceOf)

/-- The frames of the Initials `items` cover the message `ch`. -/
def Covered (ch : Bytes) (items : List (Bytes × List (ℕ × Bytes))) : Prop :=
  ∀ p < ch.length, Covers (items.flatMap Prod.snd) p

instance (ch : Bytes) (items : List (Bytes × List (ℕ × Bytes))) : Decidable (Covered ch items) :=
  inferInstanceAs (Decidable (∀ p < ch.length, Covers (items.flatMap Prod.snd) p))

theorem Covered.mono {ch : Bytes} {items items' : List (Bytes × List (ℕ × Bytes))}
    (h : Covered ch items) (hsub : items ⊆ items') : Covered ch items' := by
  intro p hp
  obtain ⟨f, hf, hcovers⟩ := h p hp
  obtain ⟨item, hitem, hf⟩ := List.mem_flatMap.mp hf
  exact ⟨f, List.mem_flatMap.mpr ⟨item, hsub hitem, hf⟩, hcovers⟩

/-- The stream collected from slices of a ClientHello is that message, once it is covered. -/
theorem Collects.clienthello {key : SocketAddr × Bytes} {items : List (Bytes × List (ℕ × Bytes))}
    {pending : PendingConnection} (h : Collects key items pending) {ch : Bytes}
    (hch : CryptoReassembly.IsClientHello ch)
    (hslices : ∀ f ∈ items.flatMap Prod.snd, SliceOf ch f) :
    (Covered ch items → pending.crypto.clienthello = .ok (some ch)) ∧
      (¬Covered ch items → pending.crypto.clienthello = .ok none) := by
  have hc := (CryptoReassembly.reassembles_empty ch).insertFrames hslices h.crypto
  rw [List.nil_append] at hc
  exact ⟨hc.clienthello_complete hch (List.prefix_refl ch),
    hc.clienthello_incomplete hch (List.prefix_refl ch)⟩

namespace Router

section Completion

variable (cr : Crypto) (key : SocketAddr × Bytes)

/-! ## What does not disturb a handshake -/

/-- The event `e` does not disturb the handshake `key` of the ClientHello `ch` in the state
`r`: an Initial for it carries slices of `ch`, its destination CID is not routed otherwise and
no limit is hit; a cleanup comes before its timeout. -/
structure Undisturbed (ch : Bytes) (r : Router) (e : Event) : Prop where
  initial : ∀ io peer packet frames, e = .datagram io peer packet →
    e.initial cr key = some (packet, frames) →
      (∀ f ∈ frames, SliceOf ch f) ∧ r.cidRoutes.get key.2 = none ∧
      r.config.lbBackend cr key.2 = none ∧ r.Accepts key peer packet frames io.now₁
  cleanup : ∀ now pending, e = .cleanup now → r.pending.lookup key = some pending →
    r.keepPending now pending = true

/-- The router holds exactly the Initials `items` for the handshake. -/
def Buffered (items : List (Bytes × List (ℕ × Bytes))) (r : Router) : Prop :=
  (items = [] ∧ r.pending.lookup key = none) ∨
    ∃ pending, r.pending.lookup key = some pending ∧ Collects key items pending

variable {cr key} {ch : Bytes} {r : Router}

/-- A datagram that is no Initial of the handshake leaves it alone. -/
theorem lookup_handleDatagram_of_not_initial (hr : r.paths.Indexed) {io : Io} {peer : SocketAddr}
    {packet : Bytes} (he : (Event.datagram io peer packet).initial cr key = none) :
    (r.handleDatagram cr io peer packet).router.pending.lookup key = r.pending.lookup key := by
  have heffect := (handleDatagram_effect cr io hr peer packet).buffersEffect
  generalize hb : (r.handleDatagram cr io peer packet).router.buffers = b at heffect
  have hpending : (r.handleDatagram cr io peer packet).router.pending = b.pending :=
    congrArg Buffers.pending hb
  rw [hpending]
  -- an Initial that touches a handshake is one for that handshake
  have hother : ∀ decrypted frames, decryptInitialPacket cr packet = .ok decrypted →
      readCryptoFrames decrypted.payload = .ok frames →
      key ≠ (normalizeSocketAddr peer, decrypted.dcid) := by
    rintro decrypted frames hdecrypt hframes rfl
    simp [Event.initial, hdecrypt, hframes] at he
  cases heffect with
  | same => rfl
  | @release decrypted frames key' labels hkey hdecrypt hframes hlabels =>
    have hne : key ≠ key' := hkey ▸ hother decrypted frames hdecrypt hframes
    exact (Table.lookup_erase ..).trans (if_neg hne)
  | @wait decrypted frames key' hkey hdecrypt hframes haccepts =>
    have hne : key ≠ key' := hkey ▸ hother decrypted frames hdecrypt hframes
    exact (Table.lookup_insert ..).trans (if_neg hne)

/-- Events that are no Initial of the handshake leave it alone. -/
theorem lookup_step_of_not_initial (hr : r.paths.Indexed) {e : Event}
    (he : e.initial cr key = none) (hquiet : Undisturbed cr key ch r e) :
    (r.step cr e).pending.lookup key = r.pending.lookup key := by
  cases e with
  | datagram io peer packet => exact lookup_handleDatagram_of_not_initial hr he
  | backend io k packet =>
    have hpending : (r.step cr (.backend io k packet)).pending = r.pending :=
      congrArg Buffers.pending (handleBackendDatagram_effect cr io hr k packet).buffers
    rw [hpending]
  | cleanup now =>
    have hpending : (r.step cr (.cleanup now)).pending = (r.buffers.expire now).pending :=
      congrArg Buffers.pending (cleanup_cleans hr now).buffers
    rw [hpending]
    cases hlook : r.pending.lookup key with
    | none =>
      cases hnew : (r.buffers.expire now).pending.lookup key with
      | none => rfl
      | some pending =>
        have hold := (Table.lookup_retain_eq_some.mp hnew).1
        rw [show r.buffers.pending = r.pending from rfl, hlook] at hold
        cases hold
    | some pending =>
      exact Table.lookup_retain_eq_some.mpr ⟨hlook, hquiet.cleanup now pending rfl hlook⟩
  | setConfig config => rfl

theorem Buffered.entry {items : List (Bytes × List (ℕ × Bytes))} (h : Buffered key items r)
    {peer : SocketAddr} (hkey : key.1 = normalizeSocketAddr peer) (now : Instant) :
    Collects key items (r.entry key peer now) := by
  unfold Router.entry
  rcases h with ⟨rfl, hnone⟩ | ⟨pending, hsome, hcollects⟩
  · rw [hnone]
    exact collects_new hkey now
  · rw [hsome]
    exact hcollects

/-! ## The Initial that completes a handshake -/

/-- The datagrams of `pending` are handed to the connection `k`, all of them or up to a send
that fails. -/
def HandsAll (k : ℕ) (pending : PendingConnection) (reply : Reply) : Prop :=
  reply.outcome = .ok ∧ reply.sends = pending.datagrams.map (fun d => .backend k d true) ∨
    (∃ message, reply.outcome = .err message) ∧
      reply.sends.map Send.datagram <+: pending.datagrams ∧ ∃ d, .backend k d false ∈ reply.sends

/-- How the handshake `pending` ends in the state `r` when its ClientHello `ch` is complete. -/
structure Completes (io : Io) (key : SocketAddr × Bytes) (ch : Bytes)
    (pending : PendingConnection) (r : Router) (peer : SocketAddr) (reply : Reply) : Prop where
  removed : reply.router.pending.lookup key = none
  unroutable : ∀ e, r.config.routeForSni peer (routedSni ch) = .error e →
    reply.sends = [] ∧ reply.outcome = .err e
  null : ∀ route, r.config.routeForSni peer (routedSni ch) = .ok route → route.backend = .null →
    reply.sends = [] ∧ reply.outcome = .ok ∧
      reply.router.metrics.dropTotal = r.metrics.dropTotal + pending.datagrams.length
  refused : ∀ route addr, r.config.routeForSni peer (routedSni ch) = .ok route →
    route.backend = .udp addr → ¬r.Registers io pending addr →
      reply.sends = [] ∧ reply.outcome = .ok ∧
        reply.router.metrics.dropTotal = r.metrics.dropTotal + pending.datagrams.length
  /-- One connection of the client to the server gets everything, unless no socket can be
  connected. -/
  registered : ∀ route addr, r.config.routeForSni peer (routedSni ch) = .ok route →
    route.backend = .udp addr → r.Registers io pending addr →
      (io.connect = false ∧ reply.sends = [] ∧ ∃ message, reply.outcome = .err message) ∨
      ∃ k c, reply.router.connections.lookup k = some c ∧
        normalizeSocketAddr c.clientAddr = normalizeSocketAddr pending.clientAddr ∧
        normalizeSocketAddr c.upstream = normalizeSocketAddr addr ∧
        reply.router.metrics.dropTotal = r.metrics.dropTotal ∧ HandsAll k pending reply

theorem flush_handsAll (io : Io) (k : ℕ) (pending : PendingConnection) (r : Router)
    (message : String) : HandsAll k pending ⟨r, (flush io k 0 pending.datagrams).1,
      if (flush io k 0 pending.datagrams).2 then .ok else .err message⟩ := by
  obtain ⟨hpre, -, hall⟩ := flush_spec io k 0 pending.datagrams
  unfold HandsAll
  cases hok : (flush io k 0 pending.datagrams).2 with
  | true => exact Or.inl ⟨rfl, hall hok⟩
  | false => exact Or.inr ⟨⟨message, rfl⟩, hpre, exists_failed_of_flush hok⟩

/-- The registration does not depend on the handshakes that are pending. -/
theorem Releases.registers {n : ℕ} {r₁ : Router} (h : Releases key n r r₁) (io : Io)
    (pending : PendingConnection) (addr : SocketAddr) :
    r₁.Registers io pending addr ↔ r.Registers io pending addr := by
  have hconn : ∀ k, r₁.connections.lookup k = r.connections.lookup k :=
    lookup_of_paths_eq h.paths
  have hlb : ∀ k, r₁.lbPaths.lookup k = r.lbPaths.lookup k :=
    congrFun (congrArg Paths.lb h.paths)
  have hget : ∀ cid, r₁.cidRoutes.get cid = r.cidRoutes.get cid :=
    congrFun (congrArg Paths.owner h.paths)
  have hnext : r₁.nextConnectionId = r.nextConnectionId := congrArg Paths.next h.paths
  have hlimits : r₁.limits = r.limits := congrArg Buffers.limits h.buffers
  have hidle : r₁.idleTimeout = r.idleTimeout := congrArg Buffers.idleTimeout h.buffers
  have hshared : r₁.sharedPath pending.clientAddr addr = r.sharedPath pending.clientAddr addr := by
    simp only [sharedPath, hlb, h.config]
  have hcollision : ∀ k cids, r₁.cidCollision k cids = r.cidCollision k cids := fun k cids => by
    simp only [cidCollision, hget]
  constructor
  · rintro ⟨hcids, hold, hnew⟩
    rw [hshared, hnext, hcollision] at hcids
    simp only [hshared, hconn, hlimits, hidle, h.size] at hold hnew
    exact ⟨hcids, hold, hnew⟩
  · rintro ⟨hcids, hold, hnew⟩
    refine ⟨?_, ?_, ?_⟩
    · rw [hshared, hnext, hcollision]
      exact hcids
    · simp only [hshared, hconn, hlimits, hidle]
      exact hold
    · simp only [hshared, hlimits, h.size]
      exact hnew

/-- A handshake that is not routed completes. -/
theorem Releases.completes {r₁ : Router} (h : Releases key 0 r r₁) {io : Io}
    {pending : PendingConnection} {peer : SocketAddr} {e : String}
    (hroute : r.config.routeForSni peer (routedSni ch) = .error e) :
    Completes io key ch pending r peer ⟨r₁, [], .err e⟩ := by
  have hno : ∀ route, r.config.routeForSni peer (routedSni ch) = .ok route → False := by
    rw [hroute]
    nofun
  refine ⟨?_, fun e' he' => ?_, fun route h' => (hno route h').elim,
    fun route _ h' => (hno route h').elim, fun route _ h' => (hno route h').elim⟩
  · have hpending : r₁.pending = r.pending.erase key := congrArg Buffers.pending h.buffers
    rw [hpending]
    exact Table.lookup_erase_self ..
  · cases hroute.symm.trans he'
    exact ⟨rfl, rfl⟩

/-- A routed handshake completes. -/
theorem EstablishEffect.completes {io : Io} {r₁ : Router} {pending : PendingConnection}
    {route : Route} {reply : Reply} (h : EstablishEffect io r₁ pending route reply)
    (hr₁ : r₁.paths.Indexed) (hreleases : Releases key 0 r r₁) {peer : SocketAddr}
    (hroute : r.config.routeForSni peer (routedSni ch) = .ok route) :
    Completes io key ch pending r peer reply := by
  have hpending : reply.router.pending = r.pending.erase key :=
    congrArg Buffers.pending (h.buffers.trans hreleases.buffers)
  have hdrops₁ : r₁.metrics.dropTotal = r.metrics.dropTotal := hreleases.dropTotal
  have hroute' : ∀ route', r.config.routeForSni peer (routedSni ch) = .ok route' →
      route = route' := fun route' h' => Except.ok.inj (hroute.symm.trans h')
  refine ⟨?_, fun e he => ?_, fun route' h' hnull => ?_, fun route' addr h' hudp hno => ?_,
    fun route' addr h' hudp hyes => ?_⟩
  · rw [hpending]
    exact Table.lookup_erase_self ..
  · rw [hroute] at he
    cases he
  · cases hroute' route' h'
    have hno : ∀ addr, route.backend = .udp addr → False := by
      rw [hnull]
      nofun
    cases h with
    | refuse hdrops => exact ⟨rfl, rfl, hdrops₁ ▸ hdrops.dropTotal⟩
    | share hudp => exact (hno _ hudp).elim
    | fail hudp => exact (hno _ hudp).elim
    | create hudp => exact (hno _ hudp).elim
  · cases hroute' route' h'
    have hno₁ : ∀ addr', route.backend = .udp addr' → ¬r₁.Registers io pending addr' := by
      intro addr' hudp' hyes
      cases hudp.symm.trans hudp'
      exact hno ((hreleases.registers io pending addr).mp hyes)
    cases h with
    | refuse hdrops => exact ⟨rfl, rfl, hdrops₁ ▸ hdrops.dropTotal⟩
    | share hudp' _ _ _ _ _ hyes => exact absurd hyes (hno₁ _ hudp')
    | fail hudp' _ hyes => exact absurd hyes (hno₁ _ hudp')
    | create hudp' _ _ _ hyes => exact absurd hyes (hno₁ _ hudp')
  · cases hroute' route' h'
    cases h with
    | refuse _ hrefused =>
      exact absurd ((hreleases.registers io pending addr).mpr hyes) (hrefused addr hudp)
    | @share addr' k c r' message hudp' hc hclient hupstream hlive hacts =>
      cases hudp.symm.trans hudp'
      -- the shared connection has evolved, but it leads to the same place
      obtain ⟨c', hc', he⟩ := PathSteps.conn_isSome hacts.steps hr₁ hc
      refine Or.inr ⟨k, c', hc', he.client.trans hclient, ?_, hdrops₁ ▸ hacts.dropTotal,
        flush_handsAll ..⟩
      rw [he.upstream, hupstream]
    | @fail _ message _ hconnect => exact Or.inl ⟨hconnect, rfl, message, rfl⟩
    | @create addr' upstream cids lbKey r' message hudp' hupstream hroom hopens =>
      cases hudp.symm.trans hudp'
      exact Or.inr ⟨r₁.nextConnectionId, newConnection io upstream cids pending route,
        hopens.lookup_next, rfl, hupstream, hdrops₁ ▸ hopens.dropTotal, flush_handsAll ..⟩

theorem registers_receivedClient {io : Io} {pending : PendingConnection} {n : ℕ}
    (addr : SocketAddr) : (r.receivedClient n).Registers io pending addr ↔
      r.Registers io pending addr :=
  ⟨fun h => ⟨h.cids, h.shared, h.opened⟩, fun h => ⟨h.cids, h.shared, h.opened⟩⟩

theorem accepts_receivedClient {peer : SocketAddr} {packet : Bytes} {frames : List (ℕ × Bytes)}
    {now : Instant} {n : ℕ} : (r.receivedClient n).Accepts key peer packet frames now ↔
      r.Accepts key peer packet frames now :=
  ⟨fun h => ⟨h.handshakes, h.bytes, h.datagrams, h.entryBytes, h.taken⟩,
    fun h => ⟨h.handshakes, h.bytes, h.datagrams, h.entryBytes, h.taken⟩⟩

/-- Counting the datagram decides nothing. -/
theorem Completes.of_receivedClient {io : Io} {pending : PendingConnection} {peer : SocketAddr}
    {reply : Reply} {n : ℕ} (h : Completes io key ch pending (r.receivedClient n) peer reply) :
    Completes io key ch pending r peer reply :=
  ⟨h.removed, h.unroutable, h.null,
    fun route addr hroute hudp hno =>
      h.refused route addr hroute hudp ((registers_receivedClient addr).not.mpr hno),
    fun route addr hroute hudp hyes =>
      h.registered route addr hroute hudp ((registers_receivedClient addr).mpr hyes)⟩

/-- One more Initial of a handshake that is not complete: it is buffered, or it completes the
handshake. -/
theorem step_initial (hr : r.paths.Indexed) (hch : CryptoReassembly.IsClientHello ch)
    {items : List (Bytes × List (ℕ × Bytes))} (hheld : Buffered key items r)
    (hslices : ∀ f ∈ items.flatMap Prod.snd, SliceOf ch f) {io : Io} {peer : SocketAddr}
    {packet : Bytes} {decrypted : DecryptedInitial} {frames : List (ℕ × Bytes)}
    (hdecrypt : decryptInitialPacket cr packet = .ok decrypted)
    (hframes : readCryptoFrames decrypted.payload = .ok frames)
    (hkey : (normalizeSocketAddr peer, decrypted.dcid) = key)
    (hquiet : Undisturbed cr key ch r (.datagram io peer packet)) :
    (¬Covered ch (items ++ [(packet, frames)]) →
      (r.handleDatagram cr io peer packet).sends = [] ∧
      (r.handleDatagram cr io peer packet).outcome = .ok ∧
      (r.handleDatagram cr io peer packet).router.metrics.dropTotal = r.metrics.dropTotal ∧
      Buffered key (items ++ [(packet, frames)]) (r.handleDatagram cr io peer packet).router) ∧
    (Covered ch (items ++ [(packet, frames)]) →
      ((r.entry key peer io.now₁).buffered packet decrypted.scid frames io.now₁).datagrams =
          items.map Prod.fst ++ [packet] ∧
      Completes io key ch
        ((r.entry key peer io.now₁).buffered packet decrypted.scid frames io.now₁) r peer
        (r.handleDatagram cr io peer packet)) := by
  have hinitial : (Event.datagram io peer packet).initial cr key = some (packet, frames) := by
    simp only [Event.initial, hdecrypt, hframes, hkey, if_true]
  obtain ⟨hframeSlices, hfree, hlb, haccepts⟩ := hquiet.initial io peer packet frames rfl hinitial
  rw [← accepts_receivedClient (n := packet.length)] at haccepts
  subst hkey
  have hr' : (r.receivedClient packet.length).paths.Indexed := hr
  rw [handleDatagram_eq_handleInitial cr io r peer hdecrypt hframes hfree hlb]
  have heffect := handleInitial_effect cr io hr' peer packet decrypted frames
  generalize handleInitial .. = reply at heffect
  have hcollects := (hheld.entry rfl io.now₁).buffered packet decrypted.scid haccepts.taken io.now₁
  have hhellos := hcollects.clienthello hch (by
    intro f hf
    rw [List.flatMap_append, List.mem_append] at hf
    rcases hf with hf | hf
    · exact hslices f hf
    · exact hframeSlices f (by simpa using hf))
  have hdatagrams := hcollects.datagrams
  rw [List.map_append, List.map_singleton] at hdatagrams
  by_cases hcov : Covered ch (items ++ [(packet, frames)])
  · -- the Initial completes the ClientHello
    refine ⟨fun hno => absurd hcov hno, fun _ => ⟨hdatagrams, ?_⟩⟩
    have hhello := hhellos.1 hcov
    cases heffect with
    | drop reason hrefused => exact absurd haccepts hrefused
    | discard hrefused =>
      obtain ⟨e, he⟩ := hrefused haccepts
      cases he.symm.trans hhello
    | wait _ hwait => cases hwait.symm.trans hhello
    | unroutable _ hhello' hreleases hroute =>
      cases hhello.symm.trans hhello'
      exact (hreleases.completes hroute).of_receivedClient
    | routed _ hhello' hreleases hroute heffect =>
      cases hhello.symm.trans hhello'
      exact (heffect.completes (hreleases.paths ▸ hr') hreleases hroute).of_receivedClient
  · -- a gap is left
    refine ⟨fun _ => ?_, fun hyes => absurd hyes hcov⟩
    have hnone := hhellos.2 hcov
    cases heffect with
    | drop reason hrefused => exact absurd haccepts hrefused
    | discard hrefused =>
      obtain ⟨e, he⟩ := hrefused haccepts
      cases he.symm.trans hnone
    | wait => exact ⟨rfl, rfl, rfl, Or.inr ⟨_, Table.lookup_insert_self .., hcollects⟩⟩
    | unroutable _ hhello => cases hhello.symm.trans hnone
    | routed _ hhello => cases hhello.symm.trans hnone

/-! ## Over a run -/

/-- **Buffering.** As long as a handshake is undisturbed and not complete, the router holds
exactly its Initials, in the order of arrival. -/
theorem run_buffered (hr : r.paths.Indexed) (hch : CryptoReassembly.IsClientHello ch)
    (hnew : r.pending.lookup key = none) {es : List Event}
    (hquiet : ∀ before e after, es = before ++ e :: after →
      Undisturbed cr key ch (r.run cr before) e)
    (hgap : ¬Covered ch (es.filterMap (Event.initial cr key))) :
    Buffered key (es.filterMap (Event.initial cr key)) (r.run cr es) ∧
      ∀ f ∈ (es.filterMap (Event.initial cr key)).flatMap Prod.snd, SliceOf ch f := by
  induction es using List.reverseRecOn with
  | nil => exact ⟨Or.inl ⟨rfl, hnew⟩, by simp⟩
  | append_singleton es e ih =>
    have hquiet' := hquiet es e [] rfl
    have hgap' : ¬Covered ch (es.filterMap (Event.initial cr key)) := by
      refine fun hcov => hgap (hcov.mono ?_)
      rw [List.filterMap_append]
      exact List.subset_append_left ..
    obtain ⟨hheld, hslices⟩ := ih (fun before e' after heq =>
      hquiet before e' (after ++ [e]) (by simp [heq])) hgap'
    have hindexed := run_keeps_indexed cr hr es
    have hrun : r.run cr (es ++ [e]) = (r.run cr es).step cr e := runFrom_concat ..
    rw [hrun]
    rw [List.filterMap_append] at hgap ⊢
    -- an event adds its Initial or leaves the entry alone
    cases hinitial : e.initial cr key with
    | none =>
      rw [List.filterMap_cons_none hinitial, List.filterMap_nil, List.append_nil]
      have hlook := lookup_step_of_not_initial hindexed hinitial hquiet'
      refine ⟨?_, hslices⟩
      unfold Buffered
      rw [hlook]
      exact hheld
    | some item =>
      obtain ⟨packet, frames⟩ := item
      rw [List.filterMap_cons_some hinitial, List.filterMap_nil] at hgap ⊢
      obtain ⟨io, peer, decrypted, rfl, hdecrypt, hframes, hkey⟩ := Event.initial_eq_some hinitial
      have hstep := step_initial hindexed hch hheld hslices hdecrypt hframes hkey hquiet'
      refine ⟨(hstep.1 hgap).2.2.2, fun f hf => ?_⟩
      rw [List.flatMap_append, List.mem_append] at hf
      rcases hf with hf | hf
      · exact hslices f hf
      · exact (hquiet'.initial io peer packet frames rfl hinitial).1 f (by simpa using hf)

end Completion

/-- **Order-insensitive routing.** Let the Initials of a new handshake carry slices of `ch`.
While these leave a gap, all of them are buffered: none is sent and none is dropped. The Initial
that closes the last gap routes the handshake by the server name of `ch`, and one connection
gets everything in the order of arrival. -/
theorem run_completes (cr : Crypto) (config : Config) (idleTimeout : Duration) (limits : Limits)
    (es₀ es : List Event) (key : SocketAddr × Bytes) (ch : Bytes) {r : Router}
    (hr : r = (start config idleTimeout limits).run cr es₀)
    (hch : CryptoReassembly.IsClientHello ch) (hnew : r.pending.lookup key = none)
    (hquiet : ∀ before e after, es = before ++ e :: after →
      Undisturbed cr key ch (r.run cr before) e)
    (hgap : ¬Covered ch (es.filterMap (Event.initial cr key))) :
    Buffered key (es.filterMap (Event.initial cr key)) (r.run cr es) ∧
    (∀ before e after item, es = before ++ e :: after → e.initial cr key = some item →
      ((r.run cr before).handle cr e).sends = [] ∧
      ((r.run cr before).handle cr e).outcome = .ok ∧
      ((r.run cr before).step cr e).metrics.dropTotal = (r.run cr before).metrics.dropTotal) ∧
    ∀ io peer packet decrypted frames, decryptInitialPacket cr packet = .ok decrypted →
      readCryptoFrames decrypted.payload = .ok frames →
      (normalizeSocketAddr peer, decrypted.dcid) = key →
      Undisturbed cr key ch (r.run cr es) (.datagram io peer packet) →
      Covered ch (es.filterMap (Event.initial cr key) ++ [(packet, frames)]) →
        (((r.run cr es).entry key peer io.now₁).buffered packet decrypted.scid frames
            io.now₁).datagrams =
          (es.filterMap (Event.initial cr key)).map Prod.fst ++ [packet] ∧
        Completes io key ch
          (((r.run cr es).entry key peer io.now₁).buffered packet decrypted.scid frames io.now₁)
          (r.run cr es) peer ((r.run cr es).handleDatagram cr io peer packet) := by
  have hindexed : r.paths.Indexed := hr ▸ run_indexed cr config idleTimeout limits es₀
  obtain ⟨hheld, hslices⟩ := run_buffered hindexed hch hnew hquiet hgap
  refine ⟨hheld, fun before e after item heq hitem => ?_,
    fun io peer packet decrypted frames hdecrypt hframes hkey hlast hcov => ?_⟩
  · obtain ⟨packet, frames⟩ := item
    -- what holds for all events holds for those before `e`, and with `e` there still is a gap
    have hgap' : ¬Covered ch (before.filterMap (Event.initial cr key) ++ [(packet, frames)]) := by
      refine fun hcov => hgap (hcov.mono ?_)
      rw [heq, List.filterMap_append, List.filterMap_cons_some hitem]
      refine List.Sublist.subset ?_
      simp
    obtain ⟨hheld', hslices'⟩ := run_buffered hindexed hch hnew (fun before' e' after' heq' =>
      hquiet before' e' (after' ++ e :: after) (by simp [heq, heq'])) (fun hcov =>
        hgap' (hcov.mono (List.subset_append_left ..)))
    obtain ⟨io, peer, decrypted, rfl, hdecrypt, hframes, hkey⟩ := Event.initial_eq_some hitem
    obtain ⟨hsends, hok, hdrops, -⟩ := (step_initial (run_keeps_indexed cr hindexed before) hch
      hheld' hslices' hdecrypt hframes hkey (hquiet before _ after heq)).1 hgap'
    exact ⟨hsends, hok, hdrops⟩
  · exact (step_initial (run_keeps_indexed cr hindexed es) hch hheld hslices hdecrypt hframes hkey
      hlast).2 hcov

/-- An Initial that carries slices of `ch`, hits no limit and is not routed otherwise. -/
theorem undisturbed_initial {cr : Crypto} {key : SocketAddr × Bytes} {ch : Bytes} {r : Router}
    {io : Io} {peer : SocketAddr} {packet : Bytes} {frames : List (ℕ × Bytes)}
    (hinitial : (Event.datagram io peer packet).initial cr key = some (packet, frames))
    (hslices : ∀ f ∈ frames, SliceOf ch f) (hfree : r.cidRoutes.get key.2 = none)
    (hlb : r.config.lbBackend cr key.2 = none)
    (haccepts : r.Accepts key peer packet frames io.now₁) :
    Undisturbed cr key ch r (.datagram io peer packet) := by
  refine ⟨fun io' peer' packet' frames' he hinitial' => ?_, nofun⟩
  cases he
  cases hinitial.symm.trans hinitial'
  exact ⟨hslices, hfree, hlb, haccepts⟩

/-- The ClientHello `[1, 0, 0, 0]` in two Initials, the end of it first. -/
theorem run_completes_sample :
    Completes (sampleIo 1) (samplePeer, sampleCid) [1, 0, 0, 0]
      ((((start sampleConfig 60 .default).run sampleCrypto
        [.datagram (sampleIo 0) samplePeer tailPacket]).entry (samplePeer, sampleCid) samplePeer
        1).buffered headPacket [] [(0, [1, 0, 0])] 1)
      ((start sampleConfig 60 .default).run sampleCrypto
        [.datagram (sampleIo 0) samplePeer tailPacket]) samplePeer
      (((start sampleConfig 60 .default).run sampleCrypto
        [.datagram (sampleIo 0) samplePeer tailPacket]).handleDatagram sampleCrypto (sampleIo 1)
        samplePeer headPacket) := by
  have htail : (Event.datagram (sampleIo 0) samplePeer tailPacket).initial sampleCrypto
      (samplePeer, sampleCid) = some (tailPacket, [(2, [0, 0])]) := by decide +kernel
  have hhead : (Event.datagram (sampleIo 1) samplePeer headPacket).initial sampleCrypto
      (samplePeer, sampleCid) = some (headPacket, [(0, [1, 0, 0])]) := by decide +kernel
  have hitems : [Event.datagram (sampleIo 0) samplePeer tailPacket].filterMap
      (Event.initial sampleCrypto (samplePeer, sampleCid)) = [(tailPacket, [(2, [0, 0])])] := by
    rw [List.filterMap_cons_some htail, List.filterMap_nil]
  refine ((run_completes sampleCrypto sampleConfig 60 .default []
    [.datagram (sampleIo 0) samplePeer tailPacket] (samplePeer, sampleCid) [1, 0, 0, 0] rfl
    ⟨by decide, by decide, by decide⟩ rfl ?_ ?_).2.2 (sampleIo 1) samplePeer headPacket
    ⟨sampleCid, [], [0x06, 0x00, 0x03, 0x01, 0x00, 0x00]⟩ [(0, [1, 0, 0])] (by decide +kernel)
    (by decide +kernel) rfl ?_ ?_).2
  · intro before e after heq
    obtain ⟨rfl, rfl⟩ : before = [] ∧ e = .datagram (sampleIo 0) samplePeer tailPacket := by
      rcases List.append_eq_singleton_iff.mp heq.symm with ⟨hbefore, he⟩ | ⟨-, he⟩
      · exact ⟨hbefore, (List.cons.inj he).1⟩
      · cases he
    refine undisturbed_initial htail (by decide) rfl rfl ⟨?_, ?_, ?_, ?_, ?_⟩
    all_goals decide +kernel
  · rw [hitems]
    decide
  · refine undisturbed_initial hhead (by decide) (by decide +kernel) (by decide +kernel)
      ⟨?_, ?_, ?_, ?_, ?_⟩
    all_goals decide +kernel
  · rw [hitems]
    decide

end Router

end SniRouter
