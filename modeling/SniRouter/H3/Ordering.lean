import SniRouter.H3.Conservation
import SniRouter.H3.Delivery
import SniRouter.H3.SharedPaths

/-!
# The order of client datagrams

A connection is handed the datagrams of one client in the order in which they arrived: first
those of the handshake that opens it, which were buffered until then, and from then on each one
as it arrives. The exception are QUIC-LB paths. A client that has one may complete another
handshake with the same server, and the datagrams buffered for it follow those that were
forwarded in the meantime.
-/

namespace SniRouter

/-- The datagram that an event delivers from `client`, an address in normal form. -/
def Event.fromClient (client : SocketAddr) : Event → Option Bytes
  | .datagram _ peer packet => if normalizeSocketAddr peer = client then some packet else none
  | .backend _ _ _ | .cleanup _ | .setConfig _ => none

/-- The datagrams of `client` among the events, in their order of arrival. -/
def clientDatagrams (client : SocketAddr) (es : List Event) : List Bytes :=
  es.filterMap (Event.fromClient client)

/-- The datagrams handed to the backend of connection `k`. -/
def handedTo (k : ℕ) (sends : List Send) : List Bytes :=
  sends.filterMap fun
    | .backend j datagram _ => if j = k then some datagram else none
    | .client _ _ _ _ => none

theorem clientDatagrams_append (client : SocketAddr) (es es' : List Event) :
    clientDatagrams client (es ++ es') = clientDatagrams client es ++ clientDatagrams client es' :=
  List.filterMap_append

theorem clientDatagrams_singleton (io : Io) (peer : SocketAddr) (packet : Bytes) :
    clientDatagrams (normalizeSocketAddr peer) [.datagram io peer packet] = [packet] := by
  simp [clientDatagrams, Event.fromClient]

theorem handedTo_append (k : ℕ) (sends sends' : List Send) :
    handedTo k (sends ++ sends') = handedTo k sends ++ handedTo k sends' :=
  List.filterMap_append

/-- The Initials of a handshake are datagrams of its client, in their order of arrival. -/
theorem initials_sublist (cr : Crypto) (key : SocketAddr × Bytes) (es : List Event) :
    ((es.filterMap (Event.initial cr key)).map Prod.fst).Sublist (clientDatagrams key.1 es) := by
  induction es with
  | nil => exact List.Sublist.refl _
  | cons e es ih =>
    cases hinitial : e.initial cr key with
    | none =>
      rw [List.filterMap_cons_none hinitial, ← List.singleton_append, clientDatagrams_append]
      exact ih.trans (List.sublist_append_right _ _)
    | some item =>
      obtain ⟨io, peer, decrypted, rfl, -, -, rfl⟩ := Event.initial_eq_some hinitial
      rw [List.filterMap_cons_some hinitial, List.map_cons, ← List.singleton_append (l := es),
        clientDatagrams_append, clientDatagrams_singleton]
      exact ih.cons_cons _

namespace Router

/-! ## One step -/

/-- A flush hands a first part of the datagrams to its backend and nothing to others. -/
theorem handedTo_flush (io : Io) (j i k : ℕ) (datagrams : List Bytes) :
    (handedTo k (flush io j i datagrams).1).Sublist (if k = j then datagrams else []) := by
  obtain ⟨hpre, hall, -⟩ := flush_spec io j i datagrams
  split
  · rename_i hk
    have hmap : handedTo k (flush io j i datagrams).1 =
        (flush io j i datagrams).1.map Send.datagram := by
      unfold handedTo
      rw [← List.filterMap_eq_map]
      refine List.filterMap_congr fun s hs => ?_
      obtain ⟨d, -, ok, rfl⟩ := hall s hs
      exact if_pos hk.symm
    rw [hmap]
    exact hpre.sublist
  · rename_i hk
    have hnil : handedTo k (flush io j i datagrams).1 = [] := by
      refine List.filterMap_eq_nil_iff.mpr fun s hs => ?_
      obtain ⟨d, -, ok, rfl⟩ := hall s hs
      exact if_neg (Ne.symm hk)
    rw [hnil]

/-- The connection `k` is a QUIC-LB path. -/
def IsLbPath (r : Router) (k : ℕ) : Prop := ∃ key, r.lbPaths.lookup key = some k

/-- A routed handshake hands its datagrams to the connection that it opens, unless that is a
QUIC-LB path. -/
theorem EstablishEffect.handedTo_sublist {io : Io} {r : Router} {pending : PendingConnection}
    {route : Route} {reply : Reply} (h : EstablishEffect io r pending route reply) (k : ℕ) :
    r.IsLbPath k ∨ handedTo k reply.sends = [] ∨
      (k = r.nextConnectionId ∧
        (handedTo k reply.sends).Sublist pending.datagrams ∧
        ∃ c, reply.router.connections.lookup k = some c ∧
          normalizeSocketAddr c.clientAddr = normalizeSocketAddr pending.clientAddr) := by
  cases h with
  | refuse hdrops => exact .inr (.inl rfl)
  | @share addr j c r' message hroute hc hclient hupstream hlive hacts hregisters hshared =>
    have hflush := handedTo_flush io j 0 k pending.datagrams
    split at hflush
    · rename_i hk
      exact .inl ⟨_, hk ▸ lookup_of_sharedPath hshared⟩
    · exact .inr (.inl (List.sublist_nil.mp hflush))
  | fail hroute => exact .inr (.inl rfl)
  | create hroute hupstream hroom hopens =>
    have hflush := handedTo_flush io r.nextConnectionId 0 k pending.datagrams
    split at hflush
    · rename_i hk
      exact .inr (.inr ⟨hk, hflush, _, hk ▸ hopens.lookup_next, rfl⟩)
    · exact .inr (.inl (List.sublist_nil.mp hflush))

/-- What `reply`, the answer to the event `e` after `es`, hands to the backend of connection `k`:
nothing, the datagram it delivers, or datagrams of the client it opens the connection for. -/
inductive HandsTo (es : List Event) (r : Router) (e : Event) (k : ℕ) (reply : Reply) : Prop where
  | lbPath (hlb : r.IsLbPath k)
  | nothing (hnone : handedTo k reply.sends = [])
  | forward {c : Connection} (hc : r.connections.lookup k = some c)
      (hsub : (handedTo k reply.sends).Sublist
        (clientDatagrams (normalizeSocketAddr c.clientAddr) [e]))
  | opens {c : Connection} (hk : k = r.nextConnectionId)
      (hc : reply.router.connections.lookup k = some c)
      (hsub : (handedTo k reply.sends).Sublist
        (clientDatagrams (normalizeSocketAddr c.clientAddr) (es ++ [e])))

/-- A handshake whose datagrams arrived from its client. -/
theorem EstablishEffect.handsTo {io : Io} {r r₁ : Router} {pending : PendingConnection}
    {route : Route} {reply : Reply} (h : EstablishEffect io r₁ pending route reply)
    (hpaths : r₁.paths = r.paths) {es : List Event} {e : Event}
    (hsub : pending.datagrams.Sublist
      (clientDatagrams (normalizeSocketAddr pending.clientAddr) (es ++ [e]))) (k : ℕ) :
    HandsTo es r e k reply := by
  have hnext : r₁.nextConnectionId = r.nextConnectionId := congrArg Paths.next hpaths
  have hlb : r₁.lbPaths.lookup = r.lbPaths.lookup := congrArg Paths.lb hpaths
  rcases h.handedTo_sublist k with ⟨key, hkey⟩ | hnone | ⟨hk, hhanded, c, hc, hclient⟩
  · exact .lbPath ⟨key, hlb ▸ hkey⟩
  · exact .nothing hnone
  · refine .opens (hk.trans hnext) hc ?_
    rw [hclient]
    exact hhanded.trans hsub

/-- What a datagram hands to a connection was sent by the client of that connection. -/
theorem handleDatagram_handsTo (cr : Crypto) {es : List Event} {r : Router}
    (hr : r.paths.Indexed) (hcollected : AllCollected cr es r) (io : Io) (peer : SocketAddr)
    (packet : Bytes) (k : ℕ) :
    HandsTo es r (.datagram io peer packet) k (r.handleDatagram cr io peer packet) := by
  have heffect := handleDatagram_effect cr io hr peer packet
  generalize handleDatagram .. = reply at heffect
  cases heffect with
  | drop reason => exact .nothing rfl
  | @forward j c r' message hc hpeer hlive hacts =>
    by_cases hk : j = k
    · refine .forward (hk ▸ hc) ?_
      rw [← hpeer, clientDatagrams_singleton]
      simp [handedTo, hk]
    · exact .nothing (by simp [handedTo, hk])
  | tooLong => exact .nothing rfl
  | decoded hlong haddr heffect =>
    refine heffect.handsTo (r := r) rfl ?_ k
    rw [clientDatagrams_append]
    refine List.Sublist.trans ?_ (List.sublist_append_right _ _)
    exact (clientDatagrams_singleton io peer packet).symm ▸ List.Sublist.refl _
  | @initial decrypted frames _ hdecrypt hframes hfree hlb heffect =>
    cases heffect with
    | drop reason hrefused => exact .nothing rfl
    | discard hrefused hreleases => exact .nothing rfl
    | wait haccepts hhello => exact .nothing rfl
    | unroutable haccepts hhello hreleases hroute => exact .nothing rfl
    | @routed hello r₁ route _ haccepts hhello hreleases hroute heffect =>
      refine heffect.handsTo (r := r) hreleases.paths ?_ k
      -- what is buffered are Initials of this client, and the last of them arrived now
      obtain ⟨items, hsub, hitems, -⟩ :=
        buffered_collects (r := r.receivedClient packet.length) hcollected io rfl hdecrypt hframes
          haccepts.taken
      rw [hitems.datagrams, hitems.client]
      exact (hsub.map Prod.fst).trans (initials_sublist cr _ _)

/-- The same for every event. -/
theorem handle_handsTo (cr : Crypto) {es : List Event} {r : Router} (hr : r.paths.Indexed)
    (hcollected : AllCollected cr es r) (e : Event) (k : ℕ) :
    HandsTo es r e k (r.handle cr e) := by
  cases e with
  | datagram io peer packet => exact handleDatagram_handsTo cr hr hcollected io peer packet k
  | backend io j packet =>
    refine .nothing (List.filterMap_eq_nil_iff.mpr fun s hs => ?_)
    obtain ⟨dest, ok, c, rfl, -, -⟩ := handleBackendDatagram_sends cr hr hs
    rfl
  | cleanup now => exact .nothing rfl
  | setConfig config => exact .nothing rfl

/-! ## Whole runs -/

section Run

variable (cr : Crypto) (config : Config) (idleTimeout : Duration) (limits : Limits)
  (es : List Event) (k : ℕ)

/-- A connection that was not opened yet was handed nothing. -/
theorem handedTo_eq_nil
    (hk : ((start config idleTimeout limits).run cr es).nextConnectionId ≤ k) :
    handedTo k (sends cr (start config idleTimeout limits) es) = [] := by
  induction es using List.reverseRecOn with
  | nil => rfl
  | append_singleton es e ih =>
    have hr := run_indexed cr config idleTimeout limits es
    have hcollected := run_collected cr config idleTimeout limits es
    have hgrows := (step_grows cr hr e).next_le
    have hrun : (start config idleTimeout limits).run cr (es ++ [e]) =
        ((start config idleTimeout limits).run cr es).step cr e := runFrom_concat ..
    have hsends : sends cr (start config idleTimeout limits) (es ++ [e]) =
        sends cr (start config idleTimeout limits) es ++
          (((start config idleTimeout limits).run cr es).handle cr e).sends :=
      traceFrom_concat ..
    rw [hrun] at hk
    have hbefore : ((start config idleTimeout limits).run cr es).nextConnectionId ≤ k :=
      hgrows.trans hk
    rw [hsends, handedTo_append, ih hbefore, List.nil_append]
    cases handle_handsTo cr hr hcollected e k with
    | lbPath hlb =>
      obtain ⟨key, hkey⟩ := hlb
      obtain ⟨c, hc, -⟩ := exists_of_lbPaths hr hkey
      exact absurd (hr.below k c hc) (not_lt.mpr hbefore)
    | nothing hnone => exact hnone
    | forward hc hsub => exact absurd (hr.below k _ hc) (not_lt.mpr hbefore)
    | opens hnext hc hsub =>
      exact absurd ((step_indexed cr hr e).below k _ hc) (not_lt.mpr hk)

/-- The connection `k` belongs to `client`, and what it was handed are datagrams of `client` in
their order of arrival. -/
structure InOrder (r₀ : Router) (client : SocketAddr) : Prop where
  owner : ∀ pre c, pre <+: es → (r₀.run cr pre).connections.lookup k = some c →
    normalizeSocketAddr c.clientAddr = client
  handed : (handedTo k (sends cr r₀ es)).Sublist (clientDatagrams client es)

/-- The connection `k` was a QUIC-LB path at some time. -/
def WasLbPath (r₀ : Router) : Prop := ∃ pre, pre <+: es ∧ (r₀.run cr pre).IsLbPath k

/-- A connection that was not opened yet could belong to any client. -/
theorem inOrder_of_next_le (client : SocketAddr)
    (hk : ((start config idleTimeout limits).run cr es).nextConnectionId ≤ k) :
    InOrder cr es k (start config idleTimeout limits) client where
  owner := by
    rintro pre c ⟨post, rfl⟩ hc
    have hr := run_indexed cr config idleTimeout limits pre
    have hrun : (start config idleTimeout limits).run cr (pre ++ post) =
        ((start config idleTimeout limits).run cr pre).run cr post := runFrom_append ..
    rw [hrun] at hk
    exact absurd (hr.below k c hc) (not_lt.mpr ((run_grows cr hr post).next_le.trans hk))
  handed := by
    rw [handedTo_eq_nil cr config idleTimeout limits es k hk]
    exact List.nil_sublist _

/-- One more event. -/
theorem InOrder.concat {r₀ : Router} {client : SocketAddr} (h : InOrder cr es k r₀ client)
    {e : Event}
    (howner : ∀ c, (r₀.run cr (es ++ [e])).connections.lookup k = some c →
      normalizeSocketAddr c.clientAddr = client)
    (hsub : (handedTo k (sends cr r₀ es) ++ handedTo k ((r₀.run cr es).handle cr e).sends).Sublist
      (clientDatagrams client (es ++ [e]))) : InOrder cr (es ++ [e]) k r₀ client where
  owner := by
    intro pre c hpre hc
    rcases List.prefix_concat_iff.mp hpre with rfl | hpre
    · exact howner c hc
    · exact h.owner pre c hpre hc
  handed := by
    have hsends : sends cr r₀ (es ++ [e]) =
        sends cr r₀ es ++ ((r₀.run cr es).handle cr e).sends := traceFrom_concat ..
    rw [hsends, handedTo_append]
    exact hsub

/-- Every connection that never was a QUIC-LB path is handed the datagrams of its client in
order. -/
theorem run_inOrder (hlb : ¬WasLbPath cr es k (start config idleTimeout limits)) :
    ∃ client, InOrder cr es k (start config idleTimeout limits) client := by
  induction es using List.reverseRecOn with
  | nil =>
    exact ⟨samplePeer, inOrder_of_next_le cr config idleTimeout limits [] k _ (Nat.zero_le k)⟩
  | append_singleton es e ih =>
    have hr := run_indexed cr config idleTimeout limits es
    have hstep := handle_handsTo cr hr (run_collected cr config idleTimeout limits es) e k
    have hes : es <+: es ++ [e] := List.prefix_append es [e]
    have hrun : (start config idleTimeout limits).run cr (es ++ [e]) =
        ((start config idleTimeout limits).run cr es).step cr e := runFrom_concat ..
    by_cases hk : k < ((start config idleTimeout limits).run cr es).nextConnectionId
    · -- the client is known, and what `k` is handed now follows what it was handed before
      obtain ⟨client, h⟩ := ih fun ⟨pre, hpre, hpath⟩ => hlb ⟨pre, hpre.trans hes, hpath⟩
      refine ⟨client, h.concat cr es k (fun c hc => ?_) ?_⟩
      · rw [hrun] at hc
        obtain ⟨c₀, hc₀, he⟩ := (step_grows cr hr e).of_lt hk hc
        exact he.client.trans (h.owner es c₀ (List.prefix_refl es) hc₀)
      · rw [clientDatagrams_append]
        refine h.handed.append ?_
        cases hstep with
        | lbPath hpath => exact absurd ⟨es, hes, hpath⟩ hlb
        | nothing hnone =>
          rw [hnone]
          exact List.nil_sublist _
        | forward hc hsub =>
          rw [h.owner es _ (List.prefix_refl es) hc] at hsub
          exact hsub
        | opens hnext => exact absurd hk (not_lt.mpr hnext.ge)
    · -- if `k` is in use now, this event opened it
      have hk := not_lt.mp hk
      have howner : ∃ client, ∀ c,
          ((start config idleTimeout limits).run cr (es ++ [e])).connections.lookup k = some c →
          normalizeSocketAddr c.clientAddr = client := by
        cases ((start config idleTimeout limits).run cr (es ++ [e])).connections.lookup k with
        | none => exact ⟨samplePeer, nofun⟩
        | some c =>
          refine ⟨normalizeSocketAddr c.clientAddr, fun c' hc' => ?_⟩
          rw [Option.some.inj hc']
      obtain ⟨client, howner⟩ := howner
      have h := inOrder_of_next_le cr config idleTimeout limits es k client hk
      refine ⟨client, h.concat cr es k howner ?_⟩
      rw [handedTo_eq_nil cr config idleTimeout limits es k hk, List.nil_append]
      cases hstep with
      | lbPath hpath => exact absurd ⟨es, hes, hpath⟩ hlb
      | nothing hnone =>
        rw [hnone]
        exact List.nil_sublist _
      | forward hc hsub => exact absurd (hr.below k _ hc) (not_lt.mpr hk)
      | opens hnext hc hsub =>
        rw [hrun] at howner
        rw [← howner _ hc]
        exact hsub

/-- **In order to the backend.** A connection belongs to one client, and unless it was a QUIC-LB
path at some time, the datagrams handed to its backend are datagrams of this client, each at
most once and in the order of their arrival, those of the opening handshake included. -/
theorem run_forwards_in_order :
    WasLbPath cr es k (start config idleTimeout limits) ∨
    ∃ client,
      (∀ pre c, pre <+: es →
        ((start config idleTimeout limits).run cr pre).connections.lookup k = some c →
        normalizeSocketAddr c.clientAddr = client) ∧
      (handedTo k (sends cr (start config idleTimeout limits) es)).Sublist
        (clientDatagrams client es) := by
  by_cases hlb : WasLbPath cr es k (start config idleTimeout limits)
  · exact .inl hlb
  · obtain ⟨client, h⟩ := run_inOrder cr config idleTimeout limits es k hlb
    exact .inr ⟨client, h.owner, h.handed⟩

/-- A QUIC-LB path is an exception: the datagram that opens it by its CID arrives second, between
the two Initials of a handshake with the same server. -/
example : handedTo 0 (sends sampleCrypto (start loadedConfig 60 .default)
    [.datagram (sampleIo 0) samplePeer tailPacket,
      .datagram (sampleIo 1) samplePeer (0x40 :: 0 :: [0, 0, 0, 1] ++ List.replicate 12 0),
      .datagram (sampleIo 2) samplePeer headPacket]) =
    [0x40 :: 0 :: [0, 0, 0, 1] ++ List.replicate 12 0, tailPacket, headPacket] := by
  decide +kernel

end Run

end Router

end SniRouter
