import SniRouter.H3.ReceivePath
import SniRouter.H3.Isolation

/-!
# Delivery of backend datagrams

In every interleaving of readers and main loop, what the router is handed for a connection is
what arrived at the socket of that connection, byte for byte and in order, whatever is left in
the buffers of the pool. The number of buffers is bounded by the channel and not by the number
of connections, and permits and buffers are never lost: readers and main loop come to rest only
after everything has been handed over.
-/

namespace SniRouter

namespace Router

/-- One step opens a connection under the next id, or none. -/
theorem step_connections (cr : Crypto) {r : Router} (hr : r.paths.Indexed) (e : Event) {k : ℕ}
    {c : Connection} (hc : (r.step cr e).connections.lookup k = some c) :
    (∃ c₀, r.connections.lookup k = some c₀) ∨ k = r.nextConnectionId := by
  rcases cleanup_or_routes cr hr e with ⟨now, rfl⟩ | ⟨j, hroutes⟩
  · exact .inl ⟨c, (((cleanup_cleans hr now).conn k c).mp hc).1⟩
  · by_cases hk : k = j
    · subst hk
      rcases hroutes.live with hnext | ⟨c₀, hc₀, -⟩
      · exact .inr hnext
      · exact .inl ⟨c₀, hc₀⟩
    · have hsame := PathSteps.conn_of_ne hroutes.steps hk
      exact .inl ⟨c, hsame.symm.trans hc⟩

end Router

namespace ReceivePath

variable {cr : Crypto} {s s' : ReceivePath} {e : ReceiveEvent} {k : ℕ}

/-! ## Soundness -/

/-- The readers after a handler call: a new one, under an id that had none, or the same. -/
theorem readers_callStep (cr : Crypto) (hs : s.Sound) (call : Event) :
    ((s.callStep cr call).readers = s.readers ∧
      (s.callStep cr call).router.connections.lookup s.router.nextConnectionId = none) ∨
    (s.readers.lookup s.router.nextConnectionId = none ∧
      s.router.nextConnectionId < (s.callStep cr call).router.nextConnectionId ∧
      (s.callStep cr call).readers =
        s.readers.insert s.router.nextConnectionId ⟨[], .readable⟩) := by
  have hindexed := Router.step_indexed cr hs.indexed call
  unfold callStep
  dsimp only
  split
  · rename_i hopened
    obtain ⟨c, hc⟩ := Option.isSome_iff_exists.mp hopened
    refine .inr ⟨?_, hindexed.below _ c hc, rfl⟩
    cases hreader : s.readers.lookup s.router.nextConnectionId with
    | none => rfl
    | some reader => exact absurd (hs.below _ reader hreader) (lt_irrefl _)
  · rename_i hclosed
    exact .inl ⟨rfl, Option.not_isSome_iff_eq_none.mp hclosed⟩

/-- A call of the router keeps the receive path sound. -/
theorem callStep_sound (hs : s.Sound) (call : Event) : (s.callStep cr call).Sound := by
  have hgrows : s.router.nextConnectionId ≤ (s.callStep cr call).router.nextConnectionId :=
    (Router.step_grows cr hs.indexed call).next_le
  have hopened := fun k c => Router.step_connections cr hs.indexed call (k := k) (c := c)
  have hlookup : ∀ k reader, (s.callStep cr call).readers.lookup k = some reader →
      s.readers.lookup k = some reader ∨
        (reader = ⟨[], .readable⟩ ∧ k < (s.callStep cr call).router.nextConnectionId) := by
    intro k reader hreader
    rcases readers_callStep cr hs call with ⟨hsame, -⟩ | ⟨hfresh, hlt, hinsert⟩
    · exact .inl (hsame ▸ hreader)
    · rw [hinsert, Table.lookup_insert] at hreader
      split at hreader
      · rename_i hk
        cases hreader
        exact .inr ⟨rfl, hk ▸ hlt⟩
      · exact .inl hreader
  refine ⟨Router.step_indexed cr hs.indexed call, hs.pool, hs.channel, hs.taken, ?_, ?_, ?_, ?_, ?_⟩
  · intro k reader hreader
    rcases hlookup k reader hreader with hold | ⟨rfl, -⟩
    · exact hs.readers k reader hold
    · nofun
  · intro k reader hreader
    rcases hlookup k reader hreader with hold | ⟨rfl, -⟩
    · exact hs.noPanic k reader hold
    · nofun
  · intro k reader hreader
    rcases hlookup k reader hreader with hold | ⟨rfl, hlt⟩
    · exact (hs.below k reader hold).trans_le hgrows
    · exact hlt
  · intro k c hc
    rcases readers_callStep cr hs call with ⟨hsame, hclosed⟩ | ⟨hfresh, hlt, hinsert⟩
    · rw [hsame]
      rcases hopened k c hc with ⟨c₀, hc₀⟩ | rfl
      · exact hs.spawned k c₀ hc₀
      · rw [hclosed] at hc
        cases hc
    · rw [hinsert, Table.lookup_insert]
      split
      · exact ⟨_, rfl⟩
      · rename_i hk
        obtain ⟨c₀, hc₀⟩ := (hopened k c hc).resolve_right hk
        exact hs.spawned k c₀ hc₀
  · rcases readers_callStep cr hs call with ⟨hsame, -⟩ | ⟨hfresh, -, hinsert⟩
    · rw [hsame]
      exact hs.permits
    · rw [hinsert, Table.total_insert_of_lookup_none _ _ hfresh]
      exact hs.permits

/-- So does a step of a reader. -/
theorem Moves.sound {reader reader' : BackendReader} {sent : List Packet} {arrived : List Bytes}
    (h : Moves k reader reader' sent arrived s s') (hs : s.Sound)
    (hreader : s.readers.lookup k = some reader) : s'.Sound := by
  have hlookup : ∀ j r, s'.readers.lookup j = some r →
      s.readers.lookup j = some r ∨ (j = k ∧ r = reader') := by
    intro j r hr
    rw [h.readers, Table.lookup_insert] at hr
    split at hr
    · cases hr
      exact .inr ⟨‹j = k›, rfl⟩
    · exact .inl hr
  constructor
  case indexed =>
    rw [h.router]
    exact hs.indexed
  case pool => exact h.pool
  case channel =>
    intro entry hentry
    rw [h.channel, List.mem_append, List.mem_map] at hentry
    rcases hentry with hentry | ⟨packet, hpacket, rfl⟩
    · exact hs.channel entry hentry
    · exact h.full packet (List.mem_append_left _ hpacket)
  case taken =>
    rw [h.taken]
    exact hs.taken
  case readers =>
    intro j r hr
    rcases hlookup j r hr with hold | ⟨-, rfl⟩
    · exact hs.readers j r hold
    · exact fun packet hpacket => h.full packet (List.mem_append_right _ hpacket)
  case noPanic =>
    intro j r hr
    rcases hlookup j r hr with hold | ⟨-, rfl⟩
    · exact hs.noPanic j r hold
    · exact h.noPanic
  case below =>
    intro j r hr
    rw [h.router]
    rcases hlookup j r hr with hold | ⟨rfl, -⟩
    · exact hs.below j r hold
    · exact hs.below j reader hreader
  case spawned =>
    intro j c hc
    rw [h.router] at hc
    rw [h.readers, Table.lookup_insert]
    split
    · exact ⟨_, rfl⟩
    · exact hs.spawned j c hc
  case permits =>
    have hold := Table.total_erase_add (fun _ r => r.pc.permits) s.readers k
    rw [hreader, Option.elim_some] at hold
    have hpermits := hs.permits
    have hmove := h.permits
    rw [h.readers, Table.total_insert, h.channel, List.length_append, List.length_map]
    omega

/-- So does every step. -/
theorem Effect.sound (h : Effect cr s e s') (hs : s.Sound) : s'.Sound := by
  cases h with
  | idle => exact hs
  | move _ hreader _ hmoves => exact hmoves.sound hs hreader
  | @recv entry channel htaken hchannel =>
    have hpermits := hs.permits
    have hfull := hs.channel
    rw [hchannel] at hpermits hfull
    refine { hs with channel := ?_, taken := ?_, permits := ?_ }
    · exact fun entry' hentry' => hfull entry' (List.mem_cons_of_mem _ hentry')
    · intro entry' hentry'
      cases hentry'
      exact hfull _ List.mem_cons_self
    · simp only [List.length_cons] at hpermits ⊢
      omega
  | @handle io entry htaken =>
    refine { callStep_sound hs _ with pool := ?_, taken := nofun }
    exact hs.pool.release (hs.taken entry htaken)
  | call => exact callStep_sound hs _

theorem start_sound (config : Config) (idleTimeout : Duration) (limits : Limits) :
    (start config idleTimeout limits).Sound where
  indexed := Router.start_indexed config idleTimeout limits
  pool := ⟨Nat.zero_le _, nofun⟩
  channel := nofun
  taken := nofun
  readers := nofun
  noPanic := nofun
  below := nofun
  spawned := nofun
  permits := rfl

/-- The receive path is sound after any run. -/
theorem run_sound (cr : Crypto) (hs : s.Sound) (es : List ReceiveEvent) : (s.run cr es).Sound :=
  runFrom_invariant (P := Sound) (A := fun _ => True)
    (fun _ e _ hs => (step_effect cr hs e).sound hs) es s (fun _ _ => trivial) hs

/-! ## The flow of datagrams -/

/-- The datagrams of connection `k` among the entries of the channel. -/
def entriesOf (k : ℕ) (entries : List (ℕ × Packet)) : List Bytes :=
  entries.filterMap fun entry => if entry.1 = k then some entry.2.deref else none

/-- The datagrams that are handed to the router for connection `k`. -/
def handedFor (k : ℕ) (calls : List Event) : List Bytes :=
  calls.filterMap fun
    | .backend _ j packet => if j = k then some packet else none
    | _ => none

/-- What arrived for connection `k` and has not been handed to the router: at the main loop, in
the channel, at the reader, in the receive queue of the socket. -/
def inFlight (s : ReceivePath) (k : ℕ) : List Bytes :=
  entriesOf k s.taken.toList ++ entriesOf k s.channel ++
    (s.readers.lookup k).elim [] BackendReader.waiting

theorem entriesOf_append (k : ℕ) (entries entries' : List (ℕ × Packet)) :
    entriesOf k (entries ++ entries') = entriesOf k entries ++ entriesOf k entries' :=
  List.filterMap_append

theorem entriesOf_map (k j : ℕ) (packets : List Packet) :
    entriesOf k (packets.map (j, ·)) = if k = j then packets.map Packet.deref else [] := by
  induction packets with
  | nil => simp [entriesOf]
  | cons packet packets ih =>
    rw [List.map_cons, ← List.singleton_append, entriesOf_append, ih]
    by_cases hk : k = j
    · simp [entriesOf, hk]
    · simp [entriesOf, hk, Ne.symm hk]

/-- A call does not change what a reader waits to send. -/
theorem waiting_callStep (cr : Crypto) (hs : s.Sound) (call : Event) (k : ℕ) :
    ((s.callStep cr call).readers.lookup k).elim [] BackendReader.waiting =
      (s.readers.lookup k).elim [] BackendReader.waiting := by
  rcases readers_callStep cr hs call with ⟨hsame, -⟩ | ⟨hfresh, -, hinsert⟩
  · rw [hsame]
  · rw [hinsert, Table.lookup_insert]
    split
    · rename_i hk
      rw [hk, hfresh]
      rfl
    · rfl

/-- **One step.** What it hands to the router for connection `k` is the oldest that was in
flight, and what arrives is in flight after the rest. -/
theorem Effect.flow (h : Effect cr s e s') (hs : s.Sound) (k : ℕ) :
    handedFor k (s.call e).toList ++ s'.inFlight k =
      s.inFlight k ++ (s.arrivals k e).map (·.take maxDatagramSize) := by
  cases h with
  | idle hcall harrivals => simp [hcall, harrivals, handedFor]
  | @move _ _ j reader reader' sent arrived hcall hreader harrivals hmoves =>
    have hflow := hmoves.flow
    unfold inFlight
    rw [hcall, harrivals, hmoves.taken, hmoves.channel, hmoves.readers, Table.lookup_insert,
      entriesOf_append, entriesOf_map]
    by_cases hk : k = j
    · subst hk
      simp only [if_pos, hreader, Option.elim_some, handedFor, Option.toList_none,
        List.filterMap_nil, List.nil_append, List.append_assoc, hflow]
    · simp [hk, handedFor]
  | @recv entry channel htaken hchannel =>
    have hentries : entriesOf k (entry :: channel) = entriesOf k [entry] ++ entriesOf k channel :=
      entriesOf_append k [entry] channel
    unfold inFlight
    rw [htaken, hchannel, hentries]
    simp [ReceivePath.call, handedFor, arrivals, entriesOf]
  | @handle io entry htaken =>
    have hhanded : handedFor k (s.call (.handle io)).toList = entriesOf k [entry] := by
      by_cases hk : entry.1 = k
      · simp [ReceivePath.call, htaken, handedFor, entriesOf, hk]
      · simp [ReceivePath.call, htaken, handedFor, entriesOf, hk]
    have hwaiting := waiting_callStep cr hs (.backend io entry.1 entry.2.deref) k
    unfold inFlight
    rw [hhanded, htaken, hwaiting]
    simp [arrivals, entriesOf, callStep]
  | @call _ call hcall hbackend harrivals =>
    have hhanded : handedFor k (s.call e).toList = [] := by
      rw [hcall]
      cases call with
      | backend io j packet => exact absurd rfl (hbackend io j packet)
      | datagram io peer packet => rfl
      | cleanup now => rfl
      | setConfig config => rfl
    have hwaiting := waiting_callStep cr hs call k
    unfold inFlight
    rw [hhanded, harrivals, hwaiting]
    simp [callStep]

/-- The datagrams that a run queues at the socket of connection `k`. -/
def arrived (cr : Crypto) (s : ReceivePath) (k : ℕ) (es : List ReceiveEvent) : List Bytes :=
  traceFrom (step cr) (fun s e => s.arrivals k e) s es

/-- What was handed over and what is in flight is what arrived, in order. -/
theorem run_flow (cr : Crypto) (hs : s.Sound) (k : ℕ) (es : List ReceiveEvent) :
    handedFor k (s.calls cr es) ++ (s.run cr es).inFlight k =
      s.inFlight k ++ (s.arrived cr k es).map (·.take maxDatagramSize) := by
  induction es generalizing s with
  | nil => simp [calls, traceFrom, handedFor, arrived, run]
  | cons e es ih =>
    have heffect := step_effect cr hs e
    have hcalls : s.calls cr (e :: es) = (s.call e).toList ++ (s.step cr e).calls cr es := rfl
    have harrived : s.arrived cr k (e :: es) =
        s.arrivals k e ++ (s.step cr e).arrived cr k es := rfl
    have hhanded : handedFor k ((s.call e).toList ++ (s.step cr e).calls cr es) =
        handedFor k (s.call e).toList ++ handedFor k ((s.step cr e).calls cr es) :=
      List.filterMap_append
    have hrest := ih (heffect.sound hs)
    rw [hcalls, harrived, hhanded, List.map_append, List.append_assoc]
    change _ ++ (_ ++ ((s.step cr e).run cr es).inFlight k) = _
    rw [hrest, ← List.append_assoc, heffect.flow hs, List.append_assoc]

/-- The router sees the handler calls and nothing else. -/
theorem run_router (cr : Crypto) (hs : s.Sound) (es : List ReceiveEvent) :
    (s.run cr es).router = s.router.run cr (s.calls cr es) := by
  induction es generalizing s with
  | nil => rfl
  | cons e es ih =>
    have heffect := step_effect cr hs e
    have hrouter : (s.step cr e).router = s.router.run cr (s.call e).toList := by
      generalize s.step cr e = s' at heffect
      cases heffect with
      | idle hcall => rw [hcall]; rfl
      | move hcall _ _ hmoves => rw [hcall, hmoves.router]; rfl
      | recv => rfl
      | @handle io entry htaken => simp [ReceivePath.call, htaken, callStep, Router.run]
      | call hcall => rw [hcall]; rfl
    have hcalls : s.calls cr (e :: es) = (s.call e).toList ++ (s.step cr e).calls cr es := rfl
    have happend : s.router.run cr ((s.call e).toList ++ (s.step cr e).calls cr es) =
        (s.router.run cr (s.call e).toList).run cr ((s.step cr e).calls cr es) :=
      runFrom_append ..
    rw [hcalls, happend, ← hrouter]
    exact ih (heffect.sound hs)

section Results

variable (cr : Crypto) (config : Config) (idleTimeout : Duration) (limits : Limits)
  (es : List ReceiveEvent)

/-- **Delivery in order.** The state of the router is the one that its handler calls lead to,
and for every connection the datagrams of these calls, followed by what is still in flight, are
the datagrams that arrived at its socket, cut off at the size of a buffer. -/
theorem run_delivers_in_order :
    ((start config idleTimeout limits).run cr es).router =
      (Router.start config idleTimeout limits).run cr
        ((start config idleTimeout limits).calls cr es) ∧
    ∀ k, handedFor k ((start config idleTimeout limits).calls cr es) ++
        ((start config idleTimeout limits).run cr es).inFlight k =
      ((start config idleTimeout limits).arrived cr k es).map (·.take maxDatagramSize) := by
  have hs := start_sound config idleTimeout limits
  exact ⟨run_router cr hs es, fun k => run_flow cr hs k es⟩

/-- The buffers that exist: cached ones, and those of the packets at a reader, in the channel
and at the main loop. -/
def buffers (s : ReceivePath) : List Bytes :=
  s.pool.buffers ++ (s.readers.values.flatMap fun reader => reader.pc.packets.map (·.buffer)) ++
    s.channel.map (fun entry => entry.2.buffer) ++ s.taken.toList.map fun entry => entry.2.buffer

theorem length_packets_le (pc : ReaderPc) : pc.packets.length ≤ pc.permits := by
  cases pc <;> simp [ReaderPc.packets, ReaderPc.permits]

/-- The buffers are those of the cache and the channel, and one that is worked at. -/
theorem Sound.length_buffers_le (hs : s.Sound) :
    s.buffers.length ≤ maxCachedBuffers + channelCapacity + 1 := by
  have hreaders : (s.readers.values.flatMap fun reader =>
      reader.pc.packets.map (·.buffer)).length ≤
      s.readers.total fun _ reader => reader.pc.permits := by
    unfold Table.values Table.total
    rw [List.flatMap_map, List.length_flatMap]
    refine List.sum_le_sum fun entry _ => ?_
    rw [List.length_map]
    exact length_packets_le _
  have htaken : s.taken.toList.length ≤ 1 := Option.length_toList_le
  have hcached := hs.pool.cached
  have hpermits := hs.permits
  unfold buffers
  simp only [List.length_append, List.length_map]
  omega

theorem Sound.length_of_mem_buffers (hs : s.Sound) {buffer : Bytes} (hmem : buffer ∈ s.buffers) :
    buffer.length = maxDatagramSize := by
  simp only [buffers, List.mem_append, List.mem_flatMap, List.mem_map, Option.mem_toList] at hmem
  rcases hmem with ((hpool | ⟨reader, hreader, packet, hpacket, rfl⟩) | ⟨entry, hentry, rfl⟩) |
    ⟨entry, hentry, rfl⟩
  · exact hs.pool.full buffer hpool
  · simp only [Table.values, List.mem_map, Prod.exists, exists_eq_right] at hreader
    obtain ⟨k, hk⟩ := hreader
    exact hs.readers k reader (Table.mem_toList.mp hk) packet hpacket
  · exact hs.channel entry hentry
  · exact hs.taken entry hentry

/-- **Bounded memory.** There are never more buffers than the cache and the channel hold and one
more, however many connections there are, and each of them has the size of a fresh one. The
permits of the channel are those that are left, those of the readers and one for each datagram
in the channel. No reader panics, and every connection has a reader. -/
theorem run_buffers_bounded :
    ((start config idleTimeout limits).run cr es).buffers.length ≤
      maxCachedBuffers + channelCapacity + 1 ∧
    (∀ buffer ∈ ((start config idleTimeout limits).run cr es).buffers,
      buffer.length = maxDatagramSize) ∧
    ((start config idleTimeout limits).run cr es).free +
        ((start config idleTimeout limits).run cr es).readers.total
          (fun _ reader => reader.pc.permits) +
        ((start config idleTimeout limits).run cr es).channel.length = channelCapacity ∧
    (∀ k reader, ((start config idleTimeout limits).run cr es).readers.lookup k = some reader →
      reader.pc ≠ .panicked) ∧
    ∀ k c, ((start config idleTimeout limits).run cr es).router.connections.lookup k = some c →
      ∃ reader, ((start config idleTimeout limits).run cr es).readers.lookup k = some reader := by
  have hs := run_sound cr (start_sound config idleTimeout limits) es
  exact ⟨hs.length_buffers_le, fun buffer => hs.length_of_mem_buffers, hs.permits, hs.noPanic,
    hs.spawned⟩

/-! ## What clients are sent -/

/-- The datagrams sent to the client of connection `k`. -/
def sentFor (k : ℕ) (sends : List Send) : List Bytes :=
  sends.filterMap fun
    | .client j _ datagram _ => if j = k then some datagram else none
    | .backend _ _ _ => none

/-- The sends of a run. -/
def sends (s : ReceivePath) : List ReceiveEvent → List Send :=
  traceFrom (step cr) (fun s e => (s.call e).elim [] fun call => (s.router.handle cr call).sends) s

/-- A handler sends to the client of a connection what it was handed for that connection, or
nothing. -/
theorem sentFor_handle {calls : List Event} {r : Router} (hr : r.paths.Indexed)
    (hcollected : Router.AllCollected cr calls r) (k : ℕ) (call : Event) :
    (sentFor k (r.handle cr call).sends).Sublist (handedFor k [call]) := by
  have hnone : (∀ send ∈ (r.handle cr call).sends, ∃ j d ok, send = .backend j d ok) →
      (sentFor k (r.handle cr call).sends).Sublist (handedFor k [call]) := by
    intro hsends
    have hnil : sentFor k (r.handle cr call).sends = [] := by
      refine List.filterMap_eq_nil_iff.mpr fun send hsend => ?_
      obtain ⟨j, d, ok, rfl⟩ := hsends send hsend
      rfl
    rw [hnil]
    exact List.nil_sublist _
  cases call with
  | datagram io peer packet =>
    refine hnone fun send hsend => ?_
    obtain ⟨j, d, ok, -, rfl, -⟩ := Router.handleDatagram_sends cr hr hcollected hsend
    exact ⟨j, d, ok, rfl⟩
  | cleanup now => exact hnone nofun
  | setConfig config => exact hnone nofun
  | backend io j packet =>
    have heffect := Router.handleBackendDatagram_effect cr io hr j packet
    change (sentFor k (r.handleBackendDatagram cr io j packet).sends).Sublist _
    generalize r.handleBackendDatagram cr io j packet = reply at heffect
    cases heffect with
    | drop reason => exact List.nil_sublist _
    | fail => exact List.nil_sublist _
    | reply hc hlive hdest hacts => exact List.Sublist.refl _

/-- Connection `k` was opened by a datagram of `peer` among the handler calls. -/
def OpenedBy (r : Router) (calls : List Event) (k : ℕ) (peer : SocketAddr) : Prop :=
  ∃ pre io packet post, calls = pre ++ .datagram io peer packet :: post ∧
    (r.run cr pre).connections.lookup k = none ∧
    ∃ c, (r.run cr (pre ++ [.datagram io peer packet])).connections.lookup k = some c

/-- A connection belongs to the client that opened it. -/
theorem exists_openedBy (calls : List Event) {k : ℕ} {c : Connection}
    (hc : ((Router.start config idleTimeout limits).run cr calls).connections.lookup k = some c) :
    ∃ peer, OpenedBy cr (Router.start config idleTimeout limits) calls k peer ∧
      normalizeSocketAddr c.clientAddr = normalizeSocketAddr peer := by
  obtain ⟨pre, io, peer, packet, post, c₀, hcalls, hnone, hc₀, he⟩ :=
    Router.exists_opening cr config idleTimeout limits hc
  have hrun : (Router.start config idleTimeout limits).run cr
      (pre ++ [.datagram io peer packet]) =
        ((Router.start config idleTimeout limits).run cr pre).step cr
          (.datagram io peer packet) := runFrom_concat ..
  obtain ⟨hclient, -, -⟩ := Router.handleDatagram_opened cr
    (Router.run_indexed cr config idleTimeout limits pre)
    (Router.run_collected cr config idleTimeout limits pre) hnone (hrun ▸ hc₀)
  exact ⟨peer, ⟨pre, io, packet, post, hcalls, hnone, c₀, hc₀⟩, he.client.trans hclient⟩

/-- What is sent to the client of a connection is a part of what is handed to the router for
it. -/
theorem sentFor_sublist (k : ℕ) :
    (sentFor k ((start config idleTimeout limits).sends cr es)).Sublist
      (handedFor k ((start config idleTimeout limits).calls cr es)) := by
  induction es using List.reverseRecOn with
  | nil => exact List.Sublist.refl _
  | append_singleton es e ih =>
    have hs := start_sound config idleTimeout limits
    have hsends : (start config idleTimeout limits).sends cr (es ++ [e]) =
        (start config idleTimeout limits).sends cr es ++
          (((start config idleTimeout limits).run cr es).call e).elim [] fun call =>
            (((start config idleTimeout limits).run cr es).router.handle cr call).sends :=
      traceFrom_concat ..
    have hcalls : (start config idleTimeout limits).calls cr (es ++ [e]) =
        (start config idleTimeout limits).calls cr es ++
          (((start config idleTimeout limits).run cr es).call e).toList := traceFrom_concat ..
    rw [hsends, hcalls, sentFor, handedFor, List.filterMap_append, List.filterMap_append]
    refine ih.append ?_
    cases ((start config idleTimeout limits).run cr es).call e with
    | none => exact List.Sublist.refl _
    | some call =>
      rw [run_router cr hs]
      exact sentFor_handle cr (Router.run_indexed cr config idleTimeout limits _)
        (Router.run_collected cr config idleTimeout limits _) k call

/-- What is sent to a client over connection `k` goes to the client that opened it. -/
theorem client_openedBy {k : ℕ} {dest : SocketAddr} {datagram : Bytes} {ok : Bool}
    (hsend : .client k dest datagram ok ∈ (start config idleTimeout limits).sends cr es) :
    ∃ peer, OpenedBy cr (Router.start config idleTimeout limits)
        ((start config idleTimeout limits).calls cr es) k peer ∧
      normalizeSocketAddr dest = normalizeSocketAddr peer := by
  induction es using List.reverseRecOn with
  | nil => cases hsend
  | append_singleton es e ih =>
    have hs := start_sound config idleTimeout limits
    have hcalls : (start config idleTimeout limits).calls cr (es ++ [e]) =
        (start config idleTimeout limits).calls cr es ++
          (((start config idleTimeout limits).run cr es).call e).toList := traceFrom_concat ..
    have hsends : (start config idleTimeout limits).sends cr (es ++ [e]) =
        (start config idleTimeout limits).sends cr es ++
          (((start config idleTimeout limits).run cr es).call e).elim [] fun call =>
            (((start config idleTimeout limits).run cr es).router.handle cr call).sends :=
      traceFrom_concat ..
    have hgrow : ∀ {peer}, OpenedBy cr (Router.start config idleTimeout limits)
        ((start config idleTimeout limits).calls cr es) k peer →
        OpenedBy cr (Router.start config idleTimeout limits)
          ((start config idleTimeout limits).calls cr (es ++ [e])) k peer := by
      rintro peer ⟨pre, io, packet, post, heq, hopened⟩
      refine ⟨pre, io, packet,
        post ++ (((start config idleTimeout limits).run cr es).call e).toList, ?_, hopened⟩
      rw [hcalls, heq, List.append_assoc, List.cons_append]
    rw [hsends, List.mem_append] at hsend
    rcases hsend with hsend | hsend
    · obtain ⟨peer, hopened, hdest⟩ := ih hsend
      exact ⟨peer, hgrow hopened, hdest⟩
    · cases hcall : ((start config idleTimeout limits).run cr es).call e with
      | none =>
        rw [hcall] at hsend
        cases hsend
      | some call =>
        have hr := Router.run_indexed cr config idleTimeout limits
          ((start config idleTimeout limits).calls cr es)
        have hcollected := Router.run_collected cr config idleTimeout limits
          ((start config idleTimeout limits).calls cr es)
        rw [hcall, run_router cr hs] at hsend
        cases call with
        | datagram io peer packet =>
          obtain ⟨j, d, ok', -, hbackend, -⟩ := Router.handleDatagram_sends cr hr hcollected hsend
          cases hbackend
        | cleanup now => cases hsend
        | setConfig config => cases hsend
        | backend io j packet =>
          obtain ⟨dest', ok', c, heq, hc, hdest⟩ := Router.handleBackendDatagram_sends cr hr hsend
          cases heq
          obtain ⟨peer, hopened, hclient⟩ := exists_openedBy cr config idleTimeout limits _ hc
          exact ⟨peer, hgrow hopened, hdest.trans hclient⟩

/-- **From the backend to the client.** The datagrams sent to the client of a connection are
some of those that arrived at its backend socket, unchanged, each at most once and in their
order, and they go to the client that opened the connection. -/
theorem run_sends_arrived (k : ℕ) :
    (sentFor k ((start config idleTimeout limits).sends cr es)).Sublist
      (((start config idleTimeout limits).arrived cr k es).map (·.take maxDatagramSize)) ∧
    ∀ dest datagram ok, .client k dest datagram ok ∈ (start config idleTimeout limits).sends cr es →
      ∃ peer, OpenedBy cr (Router.start config idleTimeout limits)
          ((start config idleTimeout limits).calls cr es) k peer ∧
        normalizeSocketAddr dest = normalizeSocketAddr peer := by
  have hflow := run_flow cr (start_sound config idleTimeout limits) k es
  have hprefix : handedFor k ((start config idleTimeout limits).calls cr es) <+:
      ((start config idleTimeout limits).arrived cr k es).map (·.take maxDatagramSize) := ⟨_, hflow⟩
  exact ⟨(sentFor_sublist cr config idleTimeout limits es k).trans hprefix.sublist,
    fun dest datagram ok hsend => client_openedBy cr config idleTimeout limits es hsend⟩

end Results

end ReceivePath

end SniRouter
