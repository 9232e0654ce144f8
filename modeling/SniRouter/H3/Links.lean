import SniRouter.H3.Ordering

/-!
# The router as a pair of links

The whole data path at the grain of its shared actions: readers, buffer pool, channel and main
loop as in the receive path, and behind the main loop the sockets, each with its own send queue
and writer task. A handler makes its calls of `send_or_queue` one after the other, while readers
and writers run. From end to end a path is a pair of links: what a backend gets over it are
datagrams of one client, and what this client gets over it are datagrams of that backend, each
at most once, unchanged and in order.
-/

namespace SniRouter

/-! ## The data path -/

/-- A socket that datagrams are sent on: the one that listens for clients, or the
`backend_socket` of a connection. -/
inductive SocketId where
  | client
  | backend (connId : ℕ)
deriving DecidableEq

/-- The socket of a call of `send_or_queue`. -/
def Send.socket : Send → SocketId
  | .backend connId _ _ => .backend connId
  | .client _ _ _ _ => .client

/-- The destination of a call of `send_or_queue`. Backend sockets are connected. -/
def Send.destination : Send → Option SocketAddr
  | .backend _ _ _ => none
  | .client _ addr _ _ => some addr

/-- The receive path with the main loop, and the sockets it sends on. -/
structure DataPath where
  receive : ReceivePath
  /-- The calls of `send_or_queue` that the handler under way has still to make. -/
  agenda : List Send
  /-- The socket of the last call. -/
  current : Option SocketId
  sockets : SocketId → SocketState

inductive DataPathEvent where
  /-- A step of the receive path or a handler call of the main loop. -/
  | receive (e : ReceiveEvent)
  /-- The handler under way makes its next call of `send_or_queue`. -/
  | submit
  /-- The call under way at a socket runs its next action. -/
  | owner (socket : SocketId) (result : SendResult)
  /-- The writer of a socket runs its next action. -/
  | writer (socket : SocketId) (sent : Bool)

/-- The main loop takes part in the step. -/
def ReceiveEvent.ofMainLoop : ReceiveEvent → Bool
  | .recv | .handle _ | .datagram _ _ _ | .cleanup _ | .setConfig _ => true
  | .arrive _ _ | .reader _ _ | .wake _ | .abort _ => false

/-- `recv_from` into `client_buf`: the rest of a datagram that does not fit is lost. -/
def ReceiveEvent.cut : ReceiveEvent → ReceiveEvent
  | .datagram io peer packet => .datagram io peer (packet.take maxDatagramSize)
  | e => e

namespace DataPath

/-- No call of `send_or_queue` is under way. -/
def betweenCalls (s : DataPath) : Bool :=
  s.current.all fun id => (s.sockets id).owner = .outside

/-- The main loop waits in `select!`. -/
def atSelect (s : DataPath) : Bool := s.agenda.isEmpty && s.betweenCalls

/-- The step of the receive path that an event is. The main loop does one thing at a time. -/
def taken (s : DataPath) : DataPathEvent → Option ReceiveEvent
  | .receive e => if e.ofMainLoop && !s.atSelect then none else some e.cut
  | .submit | .owner _ _ | .writer _ _ => none

/-- The calls of `send_or_queue` that the handler makes which an event calls. How they end is an
input of the handler (`Io`), so the runs of the program are among those in which the sockets
answer accordingly. -/
def newSends (cr : Crypto) (s : DataPath) (e : DataPathEvent) : List Send :=
  ((s.taken e).bind s.receive.call).elim [] fun call => (s.receive.router.handle cr call).sends

def socketStep (w : UsizeWidth) (s : DataPath) (id : SocketId) (e : SocketEvent) : DataPath :=
  { s with sockets := Function.update s.sockets id (SniRouter.socketStep w (s.sockets id) e) }

def step (w : UsizeWidth) (cr : Crypto) (s : DataPath) (e : DataPathEvent) : DataPath :=
  match e with
  | .receive _ =>
    { s with
      receive := (s.taken e).elim s.receive (s.receive.step cr)
      agenda := s.agenda ++ s.newSends cr e }
  | .submit =>
    match s.agenda with
    | [] => s
    | send :: agenda =>
      if s.betweenCalls then
        -- the buffers of the main loop hold nothing longer
        if h : send.datagram.length ≤ maxDatagramSize then
          { s with agenda := agenda, current := some send.socket }.socketStep w send.socket
            (.call ⟨send.datagram, send.destination, h⟩)
        else { s with agenda := agenda }
      else s
  | .owner id result => s.socketStep w id (.owner result)
  | .writer id sent => s.socketStep w id (.writer sent)

def run (w : UsizeWidth) (cr : Crypto) (s : DataPath) (es : List DataPathEvent) : DataPath :=
  runFrom (step w cr) s es

/-- The state that `mainloop` starts in. -/
def start (config : Config) (idleTimeout : Duration) (limits : Limits) : DataPath where
  receive := .start config idleTimeout limits
  agenda := []
  current := none
  sockets _ := .new

/-- The steps of the receive path in a run. -/
def receiveEvents (w : UsizeWidth) (cr : Crypto) (s : DataPath) (es : List DataPathEvent) :
    List ReceiveEvent :=
  traceFrom (step w cr) (fun s e => (s.taken e).toList) s es

/-- The calls of `send_or_queue` that the handlers of a run make. -/
def sends (w : UsizeWidth) (cr : Crypto) (s : DataPath) (es : List DataPathEvent) : List Send :=
  traceFrom (step w cr) (fun s e => s.newSends cr e) s es

/-! ## The receive path of a run -/

section Receive

variable {w : UsizeWidth} {cr : Crypto} {s : DataPath}

/-- A step of the data path is at most one of the receive path. -/
theorem step_receive (e : DataPathEvent) :
    (s.step w cr e).receive = s.receive.run cr (s.taken e).toList := by
  cases e with
  | receive e =>
    simp only [step]
    cases s.taken (.receive e) <;> rfl
  | submit =>
    simp only [step]
    split
    · rfl
    · split
      · split <;> rfl
      · rfl
  | owner id result => rfl
  | writer id sent => rfl

/-- A run of the data path is one of the receive path. -/
theorem run_receive (es : List DataPathEvent) :
    (s.run w cr es).receive = s.receive.run cr (s.receiveEvents w cr es) := by
  induction es generalizing s with
  | nil => rfl
  | cons e es ih =>
    have hevents : s.receiveEvents w cr (e :: es) =
        (s.taken e).toList ++ (s.step w cr e).receiveEvents w cr es := rfl
    have hrun : s.run w cr (e :: es) = (s.step w cr e).run w cr es := rfl
    rw [hrun, ih, step_receive, hevents, ReceivePath.run, ReceivePath.run, ReceivePath.run,
      runFrom_append]

/-- The main loop receives datagrams that fit into its buffer. -/
theorem cut_of_mem_receiveEvents {es : List DataPathEvent} {e : ReceiveEvent}
    (he : e ∈ s.receiveEvents w cr es) : ∃ e', e = ReceiveEvent.cut e' := by
  induction es using List.reverseRecOn with
  | nil => cases he
  | append_singleton es last ih =>
    have hevents : s.receiveEvents w cr (es ++ [last]) =
        s.receiveEvents w cr es ++ ((s.run w cr es).taken last).toList := traceFrom_concat ..
    rw [hevents, List.mem_append, Option.mem_toList] at he
    rcases he with he | he
    · exact ih he
    · cases last with
      | receive e' =>
        simp only [taken] at he
        split at he
        · cases he
        · exact ⟨e', (Option.some.inj he).symm⟩
      | submit => cases he
      | owner id result => cases he
      | writer id sent => cases he

end Receive

end DataPath

/-! ## The size of datagrams -/

namespace ReceivePath

section Sizes

variable (cr : Crypto) (config : Config) (idleTimeout : Duration) (limits : Limits)
  {es : List ReceiveEvent}

/-- The sends of a run are those of its handler calls. -/
theorem sends_eq (es : List ReceiveEvent) : (start config idleTimeout limits).sends cr es =
    Router.sends cr (Router.start config idleTimeout limits)
      ((start config idleTimeout limits).calls cr es) := by
  induction es using List.reverseRecOn with
  | nil => rfl
  | append_singleton es e ih =>
    have hsends : (start config idleTimeout limits).sends cr (es ++ [e]) =
        (start config idleTimeout limits).sends cr es ++
          (((start config idleTimeout limits).run cr es).call e).elim [] fun call =>
            (((start config idleTimeout limits).run cr es).router.handle cr call).sends :=
      traceFrom_concat ..
    have hcalls : (start config idleTimeout limits).calls cr (es ++ [e]) =
        (start config idleTimeout limits).calls cr es ++
          (((start config idleTimeout limits).run cr es).call e).toList := traceFrom_concat ..
    rw [hsends, hcalls, ih, run_router cr (start_sound config idleTimeout limits)]
    cases ((start config idleTimeout limits).run cr es).call e with
    | none => simp
    | some call => exact (traceFrom_concat ..).symm

theorem length_deref_le {packet : Packet} (hfull : packet.Full) :
    packet.deref.length ≤ maxDatagramSize := by
  have hlength : packet.buffer.length = maxDatagramSize := hfull
  rw [Packet.deref, List.length_take, hlength]
  exact Nat.min_le_right ..

theorem length_le_of_cut {e : ReceiveEvent} {io : Io} {peer : SocketAddr} {packet : Bytes}
    (h : .datagram io peer packet = e.cut) : packet.length ≤ maxDatagramSize := by
  cases e with
  | datagram io' peer' datagram =>
    obtain ⟨-, -, rfl⟩ := ReceiveEvent.datagram.inj h
    exact List.length_take_le ..
  | _ => cases h

/-- What handlers are called with fits into a buffer. -/
theorem length_le_of_mem_calls (hcut : ∀ e ∈ es, ∃ e', e = ReceiveEvent.cut e') {call : Event}
    (hcall : call ∈ (start config idleTimeout limits).calls cr es) {packet : Bytes}
    (hpacket : call.packet = some packet) : packet.length ≤ maxDatagramSize := by
  induction es using List.reverseRecOn with
  | nil => cases hcall
  | append_singleton es e ih =>
    have hcalls : (start config idleTimeout limits).calls cr (es ++ [e]) =
        (start config idleTimeout limits).calls cr es ++
          (((start config idleTimeout limits).run cr es).call e).toList := traceFrom_concat ..
    rw [hcalls, List.mem_append, Option.mem_toList] at hcall
    rcases hcall with hcall | hcall
    · exact ih (fun e' he' => hcut e' (List.mem_append_left _ he')) hcall
    have hs := run_sound cr (start_sound config idleTimeout limits) es
    generalize (start config idleTimeout limits).run cr es = s at hs hcall
    cases e with
    | handle io =>
      obtain ⟨entry, hentry, rfl⟩ := Option.map_eq_some_iff.mp hcall
      cases hpacket
      exact length_deref_le (hs.taken entry hentry)
    | datagram io peer datagram =>
      obtain ⟨e', he'⟩ := hcut (.datagram io peer datagram) (by simp)
      simp only [ReceivePath.call] at hcall
      split at hcall
      · cases hcall
        cases hpacket
        exact length_le_of_cut he'
      · cases hcall
    | cleanup now =>
      simp only [ReceivePath.call] at hcall
      split at hcall
      · cases hcall
        cases hpacket
      · cases hcall
    | setConfig config' =>
      simp only [ReceivePath.call] at hcall
      split at hcall
      · cases hcall
        cases hpacket
      · cases hcall
    | _ => cases hcall

/-- And so does what they send. -/
theorem length_le_of_mem_sends {calls : List Event}
    (hcalls : ∀ call ∈ calls, ∀ packet, call.packet = some packet →
      packet.length ≤ maxDatagramSize) {send : Send}
    (hsend : send ∈ Router.sends cr (Router.start config idleTimeout limits) calls) :
    send.datagram.length ≤ maxDatagramSize := by
  induction calls using List.reverseRecOn with
  | nil => cases hsend
  | append_singleton calls call ih =>
    have hsends : Router.sends cr (Router.start config idleTimeout limits) (calls ++ [call]) =
        Router.sends cr (Router.start config idleTimeout limits) calls ++
          (((Router.start config idleTimeout limits).run cr calls).handle cr call).sends :=
      traceFrom_concat ..
    rw [hsends, List.mem_append] at hsend
    rcases hsend with hsend | hsend
    · exact ih (fun call' hcall' => hcalls call' (List.mem_append_left _ hcall')) hsend
    have hr := Router.run_indexed cr config idleTimeout limits calls
    have hcollected := Router.run_collected cr config idleTimeout limits calls
    cases call with
    | datagram io peer packet =>
      obtain ⟨k, d, ok, c, rfl, ⟨io', peer', hmem, -⟩, -⟩ :=
        Router.handleDatagram_sends cr hr hcollected hsend
      exact hcalls _ hmem d rfl
    | backend io k packet =>
      obtain ⟨dest, ok, c, rfl, -, -⟩ := Router.handleBackendDatagram_sends cr hr hsend
      exact hcalls (.backend io k packet) (by simp) packet rfl
    | cleanup now => cases hsend
    | setConfig config' => cases hsend

end Sizes

end ReceivePath

namespace DataPath

/-! ## The sockets of a run -/

/-- The sends on a socket, as `send_or_queue` is called for them. -/
def callsOf (id : SocketId) (sends : List Send) : List (Bytes × Option SocketAddr) :=
  (sends.filter (·.socket = id)).map fun send => (send.datagram, send.destination)

/-- The datagrams of a socket. -/
def contents (ds : List QueuedDatagram) : List (Bytes × Option SocketAddr) :=
  ds.map fun d => (d.packet, d.destination)

theorem callsOf_append (id : SocketId) (sends sends' : List Send) :
    callsOf id (sends ++ sends') = callsOf id sends ++ callsOf id sends' := by
  rw [callsOf, List.filter_append, List.map_append, callsOf, callsOf]

/-- Of the calls `calls`, the sockets have got those that are not still to be made. -/
structure Tracks (calls : List Send) (s : DataPath) : Prop where
  sockets : ∀ id, (s.sockets id).Inv
  current : ∀ id, (s.sockets id).owner ≠ .outside → s.current = some id
  fits : ∀ send ∈ s.agenda, send.datagram.length ≤ maxDatagramSize
  submitted : ∀ id, contents (s.sockets id).submitted ++ callsOf id s.agenda = callsOf id calls

variable {w : UsizeWidth} {cr : Crypto} {s : DataPath} {made : List Send}

theorem ownerStep_submitted (result : SendResult) (t : SocketState) :
    (ownerStep w result t).submitted = t.submitted := by
  unfold ownerStep
  repeat' split
  all_goals rfl

theorem writerStep_submitted (sent : Bool) (t : SocketState) :
    (writerStep w sent t).submitted = t.submitted ∧ (writerStep w sent t).owner = t.owner := by
  unfold writerStep
  split
  · exact ⟨rfl, rfl⟩
  · split <;> exact ⟨rfl, rfl⟩

/-- Only a call of `send_or_queue` adds to what was submitted, and only to a socket without a
call under way. -/
theorem socketStep_submitted {e : SocketEvent} (he : ∀ d, e ≠ .call d) (t : SocketState) :
    (SniRouter.socketStep w t e).submitted = t.submitted ∧
      (t.owner = .outside → (SniRouter.socketStep w t e).owner = .outside) := by
  cases e with
  | call d => exact absurd rfl (he d)
  | owner result =>
    refine ⟨ownerStep_submitted result t, fun hout => ?_⟩
    simp only [SniRouter.socketStep, ownerStep, hout]
  | writer sent =>
    obtain ⟨hsubmitted, howner⟩ := writerStep_submitted (w := w) sent t
    exact ⟨hsubmitted, howner.trans⟩

/-- An action of the call under way or of a writer. -/
theorem Tracks.action (h : Tracks made s) {id : SocketId} {e : SocketEvent}
    (he : ∀ d, e ≠ .call d) : Tracks made (s.socketStep w id e) where
  sockets := by
    intro j
    simp only [socketStep, Function.update_apply]
    split
    · exact socketStep_inv w _ e (h.sockets id)
    · exact h.sockets j
  current := by
    intro j hj
    simp only [socketStep, Function.update_apply] at hj
    split at hj
    · rename_i hid
      subst hid
      exact h.current j fun hout => hj ((socketStep_submitted he _).2 hout)
    · exact h.current j hj
  fits := h.fits
  submitted := by
    intro j
    simp only [socketStep, Function.update_apply]
    split
    · rename_i hid
      subst hid
      rw [(socketStep_submitted he _).1]
      exact h.submitted j
    · exact h.submitted j

/-- The next call. -/
theorem Tracks.submit (h : Tracks made s) {send : Send} {agenda : List Send}
    (hagenda : s.agenda = send :: agenda) (hbetween : s.betweenCalls = true)
    (hfits : send.datagram.length ≤ maxDatagramSize) :
    Tracks made ({ s with agenda := agenda, current := some send.socket }.socketStep w send.socket
      (.call ⟨send.datagram, send.destination, hfits⟩)) := by
  -- between calls every owner is outside
  have hout : ∀ id, (s.sockets id).owner = .outside := by
    intro id
    by_contra hne
    rw [betweenCalls, h.current id hne] at hbetween
    exact hne (of_decide_eq_true hbetween)
  have hcall : SniRouter.socketStep w (s.sockets send.socket)
      (.call ⟨send.datagram, send.destination, hfits⟩) =
      { s.sockets send.socket with
        owner := .load ⟨send.datagram, send.destination, hfits⟩
        submitted := (s.sockets send.socket).submitted ++
          [⟨send.datagram, send.destination, hfits⟩] } := by
    rw [SniRouter.socketStep, if_pos (hout send.socket)]
  constructor
  case sockets =>
    intro id
    simp only [socketStep, Function.update_apply]
    split
    · exact socketStep_inv w _ _ (h.sockets send.socket)
    · exact h.sockets id
  case current =>
    intro id hid
    simp only [socketStep, Function.update_apply] at hid
    split at hid
    · rename_i heq
      exact congrArg some heq.symm
    · exact absurd (hout id) hid
  case fits =>
    intro send' hsend'
    exact h.fits send' (hagenda ▸ List.mem_cons_of_mem _ hsend')
  case submitted =>
    intro id
    have hsubmitted := h.submitted id
    rw [hagenda, ← List.singleton_append, callsOf_append] at hsubmitted
    simp only [socketStep, Function.update_apply]
    split
    · rename_i heq
      subst heq
      rw [hcall]
      simpa [contents, callsOf] using hsubmitted
    · rename_i hne
      have hother : callsOf id [send] = [] := by simp [callsOf, Ne.symm hne]
      rw [hother, List.nil_append] at hsubmitted
      exact hsubmitted

/-- A step gives its sends to the sockets, each to its own. -/
theorem Tracks.step (h : Tracks made s) (e : DataPathEvent)
    (hnew : ∀ send ∈ s.newSends cr e, send.datagram.length ≤ maxDatagramSize) :
    Tracks (made ++ s.newSends cr e) (s.step w cr e) := by
  cases e with
  | receive e =>
    refine ⟨h.sockets, h.current, fun send hsend => ?_, fun id => ?_⟩
    · rcases List.mem_append.mp hsend with hsend | hsend
      · exact h.fits send hsend
      · exact hnew send hsend
    · show contents (s.sockets id).submitted ++
        callsOf id (s.agenda ++ s.newSends cr (.receive e)) = _
      rw [callsOf_append, callsOf_append, ← List.append_assoc, h.submitted id]
  | submit =>
    have hnone : s.newSends cr .submit = [] := rfl
    rw [hnone, List.append_nil]
    simp only [DataPath.step]
    split
    · exact h
    · rename_i send agenda hagenda
      split
      · rename_i hbetween
        rw [dif_pos (h.fits send (hagenda ▸ List.mem_cons_self))]
        exact h.submit hagenda hbetween _
      · exact h
  | owner id result =>
    have hnone : s.newSends cr (.owner id result) = [] := rfl
    rw [hnone, List.append_nil]
    exact h.action nofun
  | writer id sent =>
    have hnone : s.newSends cr (.writer id sent) = [] := rfl
    rw [hnone, List.append_nil]
    exact h.action nofun

/-! ## Whole runs -/

theorem map_fst_callsOf_backend (k : ℕ) (sends : List Send) :
    (callsOf (.backend k) sends).map Prod.fst = handedTo k sends := by
  induction sends with
  | nil => rfl
  | cons send sends ih =>
    rw [← List.singleton_append, callsOf_append, handedTo_append, List.map_append, ih]
    congr 1
    cases send with
    | backend j datagram ok =>
      by_cases hj : j = k
      · simp [callsOf, handedTo, Send.socket, Send.datagram, hj]
      · simp [callsOf, handedTo, Send.socket, hj]
    | client j dest datagram ok => simp [callsOf, handedTo, Send.socket]

/-- The calls of `send_or_queue` are those of the receive path. -/
theorem sends_eq_receive (es : List DataPathEvent) :
    s.sends w cr es = s.receive.sends cr (s.receiveEvents w cr es) := by
  induction es generalizing s with
  | nil => rfl
  | cons e es ih =>
    have hsends : s.sends w cr (e :: es) = s.newSends cr e ++ (s.step w cr e).sends w cr es := rfl
    have hevents : s.receiveEvents w cr (e :: es) =
        (s.taken e).toList ++ (s.step w cr e).receiveEvents w cr es := rfl
    rw [hsends, hevents, ih, step_receive, newSends]
    cases s.taken e <;> rfl

section Results

variable (w : UsizeWidth) (cr : Crypto) (config : Config) (idleTimeout : Duration)
  (limits : Limits)

/-- The calls on a socket are the sends for it, in order, after any run. -/
theorem run_tracks (es : List DataPathEvent) :
    Tracks ((start config idleTimeout limits).sends w cr es)
      ((start config idleTimeout limits).run w cr es) := by
  induction es using List.reverseRecOn with
  | nil =>
    exact ⟨fun _ => SocketState.new_inv, fun _ h => absurd rfl h, nofun, fun _ => rfl⟩
  | append_singleton es e ih =>
    have hsends : (start config idleTimeout limits).sends w cr (es ++ [e]) =
        (start config idleTimeout limits).sends w cr es ++
          ((start config idleTimeout limits).run w cr es).newSends cr e := traceFrom_concat ..
    have hrun : (start config idleTimeout limits).run w cr (es ++ [e]) =
        ((start config idleTimeout limits).run w cr es).step w cr e := runFrom_concat ..
    -- every send of the longer run fits into a queued datagram
    have hfits : ∀ send ∈ (start config idleTimeout limits).sends w cr (es ++ [e]),
        send.datagram.length ≤ maxDatagramSize := by
      intro send hsend
      rw [sends_eq_receive] at hsend
      change send ∈ (ReceivePath.start config idleTimeout limits).sends cr _ at hsend
      rw [ReceivePath.sends_eq] at hsend
      refine ReceivePath.length_le_of_mem_sends cr config idleTimeout limits ?_ hsend
      intro call hcall packet hpacket
      exact ReceivePath.length_le_of_mem_calls cr config idleTimeout limits
        (fun e' he' => cut_of_mem_receiveEvents he') hcall hpacket
    rw [hrun, hsends]
    refine ih.step e fun send hsend => hfits send ?_
    rw [hsends]
    exact List.mem_append_right _ hsend

/-- What is on the wire of a socket are calls for it, in their order. -/
theorem wire_sublist (es : List DataPathEvent) (id : SocketId) :
    (contents (((start config idleTimeout limits).run w cr es).sockets id).wire).Sublist
      (callsOf id ((start config idleTimeout limits).sends w cr es)) := by
  have htracks := run_tracks w cr config idleTimeout limits es
  have hordered := (List.sublist_append_left _ _).trans (htracks.sockets id).ordered
  rw [← htracks.submitted id]
  exact (hordered.map _).trans (List.sublist_append_left _ _)

/-- The data path `s` after the receive path took the steps `received` from `p₀` on. -/
structure Links (cr : Crypto) (p₀ : ReceivePath) (received : List ReceiveEvent) (s : DataPath) :
    Prop where
  router : s.receive.router = p₀.router.run cr (p₀.calls cr received)
  /-- A connection belongs to one client, whose datagrams are on the wire of its backend socket in
  order, unless it was a QUIC-LB path. -/
  toBackend : ∀ k, Router.WasLbPath cr (p₀.calls cr received) k p₀.router ∨ ∃ client,
    (∀ pre c, pre <+: p₀.calls cr received →
      (p₀.router.run cr pre).connections.lookup k = some c →
      normalizeSocketAddr c.clientAddr = client) ∧
    ((s.sockets (.backend k)).wire.map QueuedDatagram.packet).Sublist
      (clientDatagrams client (p₀.calls cr received))
  /-- On the wire to the clients are the datagrams of `replies`, for each connection in the order in
  which they arrived at its backend socket, and they go to the client that opened it. -/
  toClient : ∃ replies : List Send,
    contents (s.sockets .client).wire =
      replies.map (fun send => (send.datagram, send.destination)) ∧
    (∀ k, (ReceivePath.sentFor k replies).Sublist
      ((p₀.arrived cr k received).map (·.take maxDatagramSize))) ∧
    ∀ send ∈ replies, ∃ k dest datagram ok peer, send = .client k dest datagram ok ∧
      ReceivePath.OpenedBy cr p₀.router (p₀.calls cr received) k peer ∧
      normalizeSocketAddr dest = normalizeSocketAddr peer

/-- **A pair of links.** In every interleaving, what gets from a client to its backend and from a
backend to its client gets there unchanged, in order and at most once. -/
theorem run_links (es : List DataPathEvent) : Links cr (.start config idleTimeout limits)
    ((start config idleTimeout limits).receiveEvents w cr es)
    ((start config idleTimeout limits).run w cr es) := by
  generalize hreceived : (start config idleTimeout limits).receiveEvents w cr es = received
  have hs := ReceivePath.start_sound config idleTimeout limits
  have hsends : (start config idleTimeout limits).sends w cr es =
      (ReceivePath.start config idleTimeout limits).sends cr received :=
    hreceived ▸ sends_eq_receive es
  have hwire := wire_sublist w cr config idleTimeout limits es
  constructor
  case router =>
    rw [run_receive, hreceived]
    exact ReceivePath.run_router cr hs received
  case toBackend =>
    intro k
    by_cases hlb : Router.WasLbPath cr
        ((ReceivePath.start config idleTimeout limits).calls cr received) k
        (Router.start config idleTimeout limits)
    · exact .inl hlb
    obtain ⟨client, h⟩ := Router.run_inOrder cr config idleTimeout limits _ k hlb
    refine .inr ⟨client, h.owner, ?_⟩
    have hpackets := (hwire (.backend k)).map Prod.fst
    rw [map_fst_callsOf_backend, hsends, ReceivePath.sends_eq, contents, List.map_map] at hpackets
    exact hpackets.trans h.handed
  case toClient =>
    obtain ⟨replies, hsub, hreplies⟩ := List.sublist_map_iff.mp (hwire .client)
    rw [hsends] at hsub
    refine ⟨replies, hreplies, fun k => ?_, fun send hsend => ?_⟩
    · have hflow := ReceivePath.run_flow cr hs k received
      have hpre : ReceivePath.handedFor k
          ((ReceivePath.start config idleTimeout limits).calls cr received) <+:
          ((ReceivePath.start config idleTimeout limits).arrived cr k received).map
            (·.take maxDatagramSize) := ⟨_, hflow⟩
      have hall := hsub.trans List.filter_sublist
      refine List.Sublist.trans (hall.filterMap _) ?_
      exact (ReceivePath.sentFor_sublist cr config idleTimeout limits received k).trans
        hpre.sublist
    · have hmem := List.mem_filter.mp (hsub.subset hsend)
      cases send with
      | backend k datagram ok => exact absurd hmem.2 (by simp [Send.socket])
      | client k dest datagram ok =>
        obtain ⟨peer, hopened, hdest⟩ :=
          ReceivePath.client_openedBy cr config idleTimeout limits received hmem.1
        exact ⟨k, dest, datagram, ok, peer, rfl, hopened, hdest⟩

end Results

end DataPath

end SniRouter
