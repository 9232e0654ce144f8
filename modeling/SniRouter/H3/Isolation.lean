import SniRouter.H3.Origin

/-!
# Path isolation

The router together with its backend readers: a reader puts what it reads into a shared
channel under the bare id of its connection, and the main loop takes entries out at any later
time. Between the two, connections come and go. Ids are not reused and a connection keeps its
client up to normalization, so what is read for a connection is sent to the client that
opened it or to nobody, and what is handed to its backend came from that client.
-/

namespace SniRouter

namespace Router

/-! ## What one step sends -/

/-- Everything a routed handshake hands over goes to a connection of its client. -/
theorem EstablishEffect.sends_backend {io : Io} {r : Router} {pending : PendingConnection}
    {route : Route} {reply : Reply} (hr : r.paths.Indexed)
    (h : EstablishEffect io r pending route reply) {s : Send} (hs : s ∈ reply.sends) :
    ∃ k d ok c, s = .backend k d ok ∧ d ∈ pending.datagrams ∧
      reply.router.connections.lookup k = some c ∧
      normalizeSocketAddr c.clientAddr = normalizeSocketAddr pending.clientAddr := by
  cases h with
  | refuse hdrops => cases hs
  | @share addr k c r' message hroute hc hclient hupstream hlive hacts =>
    obtain ⟨d, hd, ok, rfl⟩ := (flush_spec io k 0 pending.datagrams).2.1 s hs
    obtain ⟨c', hc', he⟩ := PathSteps.conn_isSome hacts.steps hr hc
    exact ⟨k, d, ok, c', rfl, hd, hc', he.client.trans hclient⟩
  | fail hroute => cases hs
  | @create addr upstream cids lbKey r' message hroute hupstream hroom hopens =>
    obtain ⟨d, hd, ok, rfl⟩ := (flush_spec io r.nextConnectionId 0 pending.datagrams).2.1 s hs
    exact ⟨_, d, ok, _, rfl, hd, hopens.lookup_next, rfl⟩

/-- What a client datagram makes the router send: the datagram itself, or what is buffered
for a handshake of that client, to a connection of that client. -/
theorem handleDatagram_sends (cr : Crypto) {es : List Event} {r : Router} (hr : r.paths.Indexed)
    (hcollected : AllCollected cr es r) {io : Io} {peer : SocketAddr} {packet : Bytes} {s : Send}
    (hs : s ∈ (r.handleDatagram cr io peer packet).sends) :
    ∃ k d ok c, s = .backend k d ok ∧
      (∃ io' peer', .datagram io' peer' d ∈ es ++ [.datagram io peer packet] ∧
        normalizeSocketAddr peer' = normalizeSocketAddr peer) ∧
      (r.step cr (.datagram io peer packet)).connections.lookup k = some c ∧
      normalizeSocketAddr c.clientAddr = normalizeSocketAddr peer := by
  have heffect := handleDatagram_effect cr io hr peer packet
  simp only [step, handle]
  generalize handleDatagram .. = reply at heffect hs
  have hself : ∃ io' peer', .datagram io' peer' packet ∈ es ++ [.datagram io peer packet] ∧
      normalizeSocketAddr peer' = normalizeSocketAddr peer := ⟨io, peer, by simp, rfl⟩
  cases heffect with
  | drop reason => cases hs
  | @forward k c r' message hc hpeer hlive hacts =>
    obtain ⟨c', hc', he⟩ := PathSteps.conn_isSome hacts.steps hr hc
    rw [List.mem_singleton.mp hs]
    exact ⟨k, packet, _, c', rfl, hself, hc', he.client.trans hpeer.symm⟩
  | tooLong => cases hs
  | decoded hlong haddr heffect =>
    have hr' : (r.receivedClient packet.length).paths.Indexed := hr
    obtain ⟨k, d, ok, c, rfl, hd, hc, hclient⟩ := heffect.sends_backend hr' hs
    rw [List.mem_singleton.mp hd]
    exact ⟨k, packet, ok, c, rfl, hself, hc, hclient⟩
  | @initial decrypted frames _ hdecrypt hframes hfree hlb heffect =>
    cases heffect with
    | drop reason hrefused => cases hs
    | discard hrefused hreleases => cases hs
    | wait haccepts hhello => cases hs
    | unroutable haccepts hhello hreleases hroute => cases hs
    | @routed hello r₁ route _ haccepts hhello hreleases hroute heffect =>
      have hr₁ : r₁.paths.Indexed := hreleases.paths ▸ hr
      obtain ⟨k, d, ok, c, rfl, hd, hc, hclient⟩ := heffect.sends_backend hr₁ hs
      obtain ⟨items, hsub, hitems, -⟩ :=
        buffered_collects hcollected io rfl hdecrypt hframes haccepts.taken
      refine ⟨k, d, ok, c, rfl, ?_, hc, hclient.trans hitems.client⟩
      -- a buffered datagram is an Initial of the same handshake, so the same client sent it
      have hd : d ∈ items.map Prod.fst := hitems.datagrams ▸ hd
      obtain ⟨item, hitem, rfl⟩ := List.mem_map.mp hd
      obtain ⟨e, he, hinitial⟩ := List.mem_filterMap.mp (hsub.subset hitem)
      obtain ⟨io', peer', decrypted', rfl, -, -, hkey⟩ := Event.initial_eq_some hinitial
      exact ⟨io', peer', he, (Prod.mk.inj hkey).1⟩

/-- What a backend datagram makes the router send: the datagram itself, to the client of the
connection it was read for. -/
theorem handleBackendDatagram_sends (cr : Crypto) {r : Router} (hr : r.paths.Indexed) {io : Io}
    {k : ℕ} {packet : Bytes} {s : Send}
    (hs : s ∈ (r.handleBackendDatagram cr io k packet).sends) :
    ∃ dest ok c, s = .client k dest packet ok ∧ r.connections.lookup k = some c ∧
      normalizeSocketAddr dest = normalizeSocketAddr c.clientAddr := by
  have heffect := handleBackendDatagram_effect cr io hr k packet
  generalize handleBackendDatagram .. = reply at heffect hs
  cases heffect with
  | drop reason => cases hs
  | fail hc hlive hacts => cases hs
  | @reply c r' dest message hc hlive hdest hacts =>
    rw [List.mem_singleton.mp hs]
    exact ⟨dest, _, c, rfl, hc, hdest⟩

end Router

/-! ## The router and its readers -/

/-- The router and the channel its backend readers write to. -/
structure System where
  router : Router
  channel : List (ℕ × Bytes)

inductive SystemEvent where
  /-- The reader of a connection reads a datagram. -/
  | read (connId : ℕ) (packet : Bytes)
  /-- The main loop takes an entry of the channel. -/
  | take (io : Io) (i : ℕ)
  | datagram (io : Io) (peer : SocketAddr) (packet : Bytes)
  | cleanup (now : Instant)
  | setConfig (config : Config)

/-- The handler call an event makes. -/
def SystemEvent.call (s : System) : SystemEvent → Option Event
  | .read _ _ => none
  | .take io i => s.channel[i]?.map fun entry => .backend io entry.1 entry.2
  | .datagram io peer packet => some (.datagram io peer packet)
  | .cleanup now => some (.cleanup now)
  | .setConfig config => some (.setConfig config)

namespace System

/-- The sends of one event. -/
def sends (cr : Crypto) (s : System) (e : SystemEvent) : List Send :=
  match e.call s with
  | some call => (s.router.handle cr call).sends
  | none => []

/-- A reader runs while its connection exists. -/
def step (cr : Crypto) (s : System) (e : SystemEvent) : System where
  router := match e.call s with
    | some call => s.router.step cr call
    | none => s.router
  channel := match e with
    | .read k packet =>
      if (s.router.connections.lookup k).isSome then s.channel ++ [(k, packet)] else s.channel
    | .take _ i => s.channel.eraseIdx i
    | _ => s.channel

def run (cr : Crypto) (s : System) (es : List SystemEvent) : System := runFrom (step cr) s es

/-- The handler calls of a run. -/
def calls (cr : Crypto) (s : System) (es : List SystemEvent) : List Event :=
  traceFrom (step cr) (fun s e => (e.call s).toList) s es

theorem calls_cons (cr : Crypto) (s : System) (e : SystemEvent) (es : List SystemEvent) :
    s.calls cr (e :: es) = (e.call s).toList ++ (s.step cr e).calls cr es := rfl

/-- The router sees the handler calls and nothing else. -/
theorem run_router (cr : Crypto) (s : System) (es : List SystemEvent) :
    (s.run cr es).router = s.router.run cr (s.calls cr es) := by
  induction es generalizing s with
  | nil => rfl
  | cons e es ih =>
    have hrun : s.run cr (e :: es) = (s.step cr e).run cr es := rfl
    rw [hrun, ih, calls_cons, Router.run, Router.run, runFrom_append]
    congr 1
    simp only [step]
    cases e.call s <;> rfl

/-- Every handler call of a run is made by one of its events. -/
theorem exists_of_calls_eq {cr : Crypto} {s : System} {es : List SystemEvent}
    {before after : List Event} {call : Event}
    (h : s.calls cr es = before ++ call :: after) :
    ∃ pre e post, es = pre ++ e :: post ∧ s.calls cr pre = before ∧
      e.call (s.run cr pre) = some call := by
  induction es generalizing s before with
  | nil => simp [calls, traceFrom] at h
  | cons e es ih =>
    rw [calls_cons] at h
    cases hcall : e.call s with
    | none =>
      -- the event calls no handler, so the call is made later
      rw [hcall, Option.toList_none, List.nil_append] at h
      obtain ⟨pre, e', post, rfl, hpre, he'⟩ := ih h
      refine ⟨e :: pre, e', post, rfl, ?_, he'⟩
      rw [calls_cons, hcall, hpre]
      rfl
    | some first =>
      rw [hcall, Option.toList_some, List.singleton_append] at h
      cases before with
      | nil =>
        cases h
        exact ⟨[], e, es, rfl, rfl, hcall⟩
      | cons b before =>
        obtain ⟨rfl, htail⟩ := List.cons.inj h
        obtain ⟨pre, e', post, rfl, hpre, he'⟩ := ih htail
        refine ⟨e :: pre, e', post, rfl, ?_, he'⟩
        rw [calls_cons, hcall, hpre]
        rfl

theorem eq_of_call_eq_datagram {s : System} {e : SystemEvent} {io : Io} {peer : SocketAddr}
    {packet : Bytes} (h : e.call s = some (.datagram io peer packet)) :
    e = .datagram io peer packet := by
  cases e with
  | read k packet => cases h
  | take io i =>
    obtain ⟨entry, -, hentry⟩ := Option.map_eq_some_iff.mp h
    cases hentry
  | datagram io peer packet =>
    cases h
    rfl
  | cleanup now => cases h
  | setConfig config => cases h

/-! ## The client a connection belongs to -/

section Isolation

variable (cr : Crypto) (config : Config) (idleTimeout : Duration) (limits : Limits)

/-- The system before anything happened. -/
def start : System := ⟨Router.start config idleTimeout limits, []⟩

/-- Connection `k` was opened by a datagram of `peer` among the events `es`. -/
def OpenedBy (s₀ : System) (es : List SystemEvent) (k : ℕ) (peer : SocketAddr) : Prop :=
  ∃ pre io packet post, es = pre ++ .datagram io peer packet :: post ∧
    (s₀.run cr pre).router.connections.lookup k = none ∧
    ∃ c, (s₀.run cr (pre ++ [.datagram io peer packet])).router.connections.lookup k = some c

theorem OpenedBy.append {cr : Crypto} {s₀ : System} {es : List SystemEvent} {k : ℕ}
    {peer : SocketAddr} (h : OpenedBy cr s₀ es k peer) (e : SystemEvent) :
    OpenedBy cr s₀ (es ++ [e]) k peer := by
  obtain ⟨pre, io, packet, post, rfl, hbefore, hafter⟩ := h
  exact ⟨pre, io, packet, post ++ [e], by simp, hbefore, hafter⟩

/-- The indexes are consistent after any interleaving. -/
theorem run_indexed (es : List SystemEvent) :
    ((start config idleTimeout limits).run cr es).router.paths.Indexed := by
  rw [run_router]
  exact Router.run_indexed cr config idleTimeout limits _

theorem run_collected (es : List SystemEvent) :
    Router.AllCollected cr ((start config idleTimeout limits).calls cr es)
      ((start config idleTimeout limits).run cr es).router := by
  rw [run_router]
  exact Router.run_collected cr config idleTimeout limits _

/-- Ids keep their connection over the rest of a run. -/
theorem run_grows {s : System} (hs : s.router.paths.Indexed) (es : List SystemEvent) :
    Ledger.Grows Connection.Evolves s.router.paths.ledger (s.run cr es).router.paths.ledger := by
  rw [run_router]
  exact Router.run_grows cr hs _

/-- Every connection was opened by a datagram of its client. -/
theorem run_openedBy (es : List SystemEvent) (k : ℕ) (c : Connection)
    (hc : ((start config idleTimeout limits).run cr es).router.connections.lookup k = some c) :
    ∃ peer, OpenedBy cr (start config idleTimeout limits) es k peer ∧
      normalizeSocketAddr peer = normalizeSocketAddr c.clientAddr := by
  rw [run_router] at hc
  obtain ⟨before, io, peer, packet, after, c₀, hcalls, hbefore, hafter, he⟩ :=
    Router.exists_opening cr config idleTimeout limits hc
  have hrouter : (Router.start config idleTimeout limits).run cr
      (before ++ [.datagram io peer packet]) =
        ((Router.start config idleTimeout limits).run cr before).step cr
          (.datagram io peer packet) := runFrom_concat ..
  rw [hrouter] at hafter
  obtain ⟨hclient, -, -⟩ := Router.handleDatagram_opened cr
    (Router.run_indexed cr config idleTimeout limits before)
    (Router.run_collected cr config idleTimeout limits before) hbefore hafter
  obtain ⟨pre, e, post, rfl, hpre, hcall⟩ := exists_of_calls_eq hcalls
  obtain rfl := eq_of_call_eq_datagram hcall
  refine ⟨peer, ⟨pre, io, packet, post, rfl, ?_, c₀, ?_⟩, (he.client.trans hclient).symm⟩
  · rw [run_router, hpre]
    exact hbefore
  · have hrun : (start config idleTimeout limits).run cr (pre ++ [.datagram io peer packet]) =
        ((start config idleTimeout limits).run cr pre).step cr (.datagram io peer packet) :=
      runFrom_concat ..
    simp only [hrun, step, hcall]
    rw [run_router, hpre]
    exact hafter

/-- No connection is opened twice. -/
theorem OpenedBy.unique {es : List SystemEvent} {k : ℕ} {peer peer' : SocketAddr}
    (h : OpenedBy cr (start config idleTimeout limits) es k peer)
    (h' : OpenedBy cr (start config idleTimeout limits) es k peer') : peer = peer' := by
  obtain ⟨pre, io, packet, post, hes, hnone, c, hc⟩ := h
  obtain ⟨pre', io', packet', post', hes', hnone', c', hc'⟩ := h'
  -- once it was opened, the id is not opened again
  have hlater : ∀ {pre₁ pre₂ : List SystemEvent} {e₁ e₂ : SystemEvent} {c₁ c₂ : Connection},
      pre₁ ++ [e₁] <+: pre₂ →
      ((start config idleTimeout limits).run cr (pre₁ ++ [e₁])).router.connections.lookup k =
        some c₁ →
      ((start config idleTimeout limits).run cr pre₂).router.connections.lookup k = none →
      ((start config idleTimeout limits).run cr (pre₂ ++ [e₂])).router.connections.lookup k =
        some c₂ → False := by
    rintro pre₁ pre₂ e₁ e₂ c₁ c₂ ⟨mid, rfl⟩ hc₁ hnone₂ hc₂
    have hr₁ := run_indexed cr config idleTimeout limits (pre₁ ++ [e₁])
    have hr₂ := run_indexed cr config idleTimeout limits (pre₁ ++ [e₁] ++ mid)
    have hbelow : k < ((start config idleTimeout limits).run cr
        (pre₁ ++ [e₁] ++ mid)).router.paths.ledger.next := by
      have hmid : (start config idleTimeout limits).run cr (pre₁ ++ [e₁] ++ mid) =
          ((start config idleTimeout limits).run cr (pre₁ ++ [e₁])).run cr mid :=
        runFrom_append ..
      rw [hmid]
      exact (hr₁.below k c₁ hc₁).trans_le (run_grows cr hr₁ mid).next_le
    have hrun : (start config idleTimeout limits).run cr (pre₁ ++ [e₁] ++ mid ++ [e₂]) =
        ((start config idleTimeout limits).run cr (pre₁ ++ [e₁] ++ mid)).step cr e₂ :=
      runFrom_concat ..
    rw [hrun] at hc₂
    have hgone := (run_grows cr hr₂ [e₂]).get_eq_none hbelow hnone₂
    have hc₂ : (((start config idleTimeout limits).run cr (pre₁ ++ [e₁] ++ mid)).run cr
      [e₂]).router.paths.ledger.get k = some c₂ := hc₂
    rw [hgone] at hc₂
    cases hc₂
  have hpre : pre <+: es := ⟨_, hes.symm⟩
  have hpre' : pre' <+: es := ⟨_, hes'.symm⟩
  have hnext : pre ++ [.datagram io peer packet] <+: es := ⟨post, by simp [hes]⟩
  have hnext' : pre' ++ [.datagram io' peer' packet'] <+: es := ⟨post', by simp [hes']⟩
  rcases Nat.lt_trichotomy pre.length pre'.length with hlt | heq | hgt
  · have hpre := List.prefix_of_prefix_length_le hnext hpre' (by simpa using hlt)
    exact (hlater hpre hc hnone' hc').elim
  · have hsame : pre ++ [.datagram io peer packet] = pre' ++ [.datagram io' peer' packet'] :=
      (List.prefix_of_prefix_length_le hnext hnext' (by simp [heq])).eq_of_length (by simp [heq])
    obtain ⟨-, hevent⟩ := List.append_inj hsame heq
    cases hevent
    rfl
  · have hpre := List.prefix_of_prefix_length_le hnext' hpre (by simpa using hgt)
    exact (hlater hpre hc' hnone hc).elim

/-! ## Isolation -/

/-- The reader of connection `k` read `packet` among the events `es`, while `k` existed. -/
def ReadFor (s₀ : System) (es : List SystemEvent) (k : ℕ) (packet : Bytes) : Prop :=
  ∃ pre post c, es = pre ++ .read k packet :: post ∧
    (s₀.run cr pre).router.connections.lookup k = some c

theorem ReadFor.append {cr : Crypto} {s₀ : System} {es : List SystemEvent} {k : ℕ}
    {packet : Bytes} (h : ReadFor cr s₀ es k packet) (e : SystemEvent) :
    ReadFor cr s₀ (es ++ [e]) k packet := by
  obtain ⟨pre, post, c, rfl, hc⟩ := h
  exact ⟨pre, post ++ [e], c, by simp, hc⟩

/-- Everything in the channel was read for the connection whose id it carries. -/
theorem run_channel (es : List SystemEvent) :
    ∀ entry ∈ ((start config idleTimeout limits).run cr es).channel,
      ReadFor cr (start config idleTimeout limits) es entry.1 entry.2 := by
  induction es using List.reverseRecOn with
  | nil => nofun
  | append_singleton es e ih =>
    intro entry hentry
    have hrun : (start config idleTimeout limits).run cr (es ++ [e]) =
        ((start config idleTimeout limits).run cr es).step cr e := runFrom_concat ..
    simp only [hrun, step] at hentry
    split at hentry
    · split at hentry
      · rename_i hsome
        rcases List.mem_append.mp hentry with h | h
        · exact (ih entry h).append _
        · obtain ⟨c, hc⟩ := Option.isSome_iff_exists.mp hsome
          rw [List.mem_singleton.mp h]
          exact ⟨es, [], c, rfl, hc⟩
      · exact (ih entry hentry).append _
    · exact (ih entry (List.mem_of_mem_eraseIdx hentry)).append _
    · exact (ih entry hentry).append _

/-- The router is called with datagrams of clients that came. -/
theorem mem_of_mem_calls {s : System} {es : List SystemEvent} {io : Io} {peer : SocketAddr}
    {packet : Bytes} (h : .datagram io peer packet ∈ s.calls cr es) :
    .datagram io peer packet ∈ es := by
  obtain ⟨before, after, hcalls⟩ := List.append_of_mem h
  obtain ⟨pre, e, post, rfl, -, hcall⟩ := exists_of_calls_eq hcalls
  rw [eq_of_call_eq_datagram hcall]
  simp

/-- What a send may be when `opener` opened its connection: a datagram read for this
connection that goes to `opener`, or a datagram that came from `opener`. -/
def Isolated (s₀ : System) (es : List SystemEvent) (opener : SocketAddr) : Send → Prop
  | .client k dest packet _ => ReadFor cr s₀ es k packet ∧
      normalizeSocketAddr dest = normalizeSocketAddr opener
  | .backend _ datagram _ => ∃ io peer, .datagram io peer datagram ∈ es ∧
      normalizeSocketAddr peer = normalizeSocketAddr opener

/-- **Path isolation.** In every interleaving: a datagram sent to a client was read for a
connection that this client opened, and a datagram handed to the backend of a connection was
received from the client that opened it. -/
theorem run_isolated (es : List SystemEvent) (e : SystemEvent) (s : Send)
    (hs : s ∈ ((start config idleTimeout limits).run cr es).sends cr e) :
    (∃ opener, OpenedBy cr (start config idleTimeout limits) (es ++ [e]) s.connId opener) ∧
      ∀ opener, OpenedBy cr (start config idleTimeout limits) (es ++ [e]) s.connId opener →
        Isolated cr (start config idleTimeout limits) (es ++ [e]) opener s := by
  -- it is enough to find one opener, there is no other
  suffices h : ∃ opener, OpenedBy cr (start config idleTimeout limits) (es ++ [e]) s.connId opener ∧
      Isolated cr (start config idleTimeout limits) (es ++ [e]) opener s by
    obtain ⟨opener, hopened, hisolated⟩ := h
    refine ⟨⟨opener, hopened⟩, fun opener' hopened' => ?_⟩
    rw [← hopened.unique cr config idleTimeout limits hopened']
    exact hisolated
  have hr := run_indexed cr config idleTimeout limits es
  have hcollected := run_collected cr config idleTimeout limits es
  unfold sends at hs
  split at hs
  · rename_i call hcall
    cases call with
    | datagram io peer packet =>
      obtain rfl := eq_of_call_eq_datagram hcall
      obtain ⟨k, d, ok, c, rfl, ⟨io', peer', hmem, hpeer'⟩, hc, hclient⟩ :=
        Router.handleDatagram_sends cr hr hcollected hs
      have hc : ((start config idleTimeout limits).run cr
          (es ++ [.datagram io peer packet])).router.connections.lookup k = some c := by
        have hrun : (start config idleTimeout limits).run cr
            (es ++ [.datagram io peer packet]) =
              ((start config idleTimeout limits).run cr es).step cr
                (.datagram io peer packet) := runFrom_concat ..
        rw [hrun]
        exact hc
      obtain ⟨opener, hopened, hopener⟩ := run_openedBy cr config idleTimeout limits _ k c hc
      refine ⟨opener, hopened, io', peer', ?_, hpeer'.trans (hclient.symm.trans hopener.symm)⟩
      rcases List.mem_append.mp hmem with hmem | hmem
      · exact List.mem_append_left _ (mem_of_mem_calls cr hmem)
      · cases List.mem_singleton.mp hmem
        simp
    | backend io k packet =>
      obtain ⟨dest, ok, c, rfl, hc, hdest⟩ := Router.handleBackendDatagram_sends cr hr hs
      obtain ⟨opener, hopened, hopener⟩ := run_openedBy cr config idleTimeout limits es k c hc
      refine ⟨opener, hopened.append e, ?_, hdest.trans hopener.symm⟩
      -- the call is for an entry of the channel
      have hentry : (k, packet) ∈ ((start config idleTimeout limits).run cr es).channel := by
        cases e with
        | read k packet => cases hcall
        | take io i =>
          obtain ⟨entry, hget, hentry⟩ := Option.map_eq_some_iff.mp hcall
          cases hentry
          exact List.mem_of_getElem? hget
        | datagram io peer packet => cases hcall
        | cleanup now => cases hcall
        | setConfig config => cases hcall
      exact (run_channel cr config idleTimeout limits es _ hentry).append e
    | cleanup now => cases hs
    | setConfig new => cases hs
  · cases hs

end Isolation

/-- The reply to the sample client, read before and taken after a second client opened a
path. -/
theorem run_isolated_sample :
    .client 0 samplePeer [0x40] true ∈ ((start sampleConfig 60 .default).run sampleCrypto
      [.datagram (sampleIo 0) samplePeer helloPacket, .read 0 [0x40],
        .datagram (sampleIo 1) otherPeer longerCidPacket]).sends sampleCrypto
        (.take (sampleIo 2) 0) ∧
    ∃ opener, OpenedBy sampleCrypto (start sampleConfig 60 .default)
      [.datagram (sampleIo 0) samplePeer helloPacket, .read 0 [0x40],
        .datagram (sampleIo 1) otherPeer longerCidPacket, .take (sampleIo 2) 0] 0 opener := by
  have hs : .client 0 samplePeer [0x40] true ∈ ((start sampleConfig 60 .default).run sampleCrypto
      [.datagram (sampleIo 0) samplePeer helloPacket, .read 0 [0x40],
        .datagram (sampleIo 1) otherPeer longerCidPacket]).sends sampleCrypto
        (.take (sampleIo 2) 0) := by decide +kernel
  exact ⟨hs, (run_isolated sampleCrypto sampleConfig 60 .default _ _ _ hs).1⟩

end System

end SniRouter
