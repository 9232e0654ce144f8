import SniRouter.Lib.Machine
import SniRouter.Lib.Run
import SniRouter.Net

/-!
# The bounded UDP send path

`send_or_queue` tries the socket itself while nothing is pending, and otherwise hands the
datagram to a writer task through a bounded channel. The two sides share one atomic counter.
Both are modelled at the grain of their atomic actions: every load, `fetch_add`, `fetch_sub`,
channel operation and send is a step of its own, and a run interleaves the steps of the owner
and of the writer in any order.
-/

namespace SniRouter

/-- `MAX_DATAGRAM_SIZE`. -/
def maxDatagramSize : ℕ := 65535

/-- `MAX_QUEUED_DATAGRAMS`. -/
def maxQueuedDatagrams : ℕ := 32

/-- `MAX_QUEUED_BYTES`. -/
def maxQueuedBytes : ℕ := 128 * 1024

/-! ## The two sides -/

/-- `QueuedDatagram`, of a size the receive buffers can hold. -/
structure QueuedDatagram where
  packet : Bytes
  destination : Option SocketAddr
  length_le : packet.length ≤ maxDatagramSize
deriving DecidableEq

/-- What a datagram is accounted for: one byte more than its length. -/
def QueuedDatagram.charge (d : QueuedDatagram) : ℕ := d.packet.length + 1

/-- The next action of the owner: which line of `send_or_queue` or `enqueue` it is about to run,
and for which datagram. -/
inductive OwnerPc where
  /-- Between two calls of `send_or_queue`. -/
  | outside
  /-- About to look at the queue and its counter. -/
  | load (d : QueuedDatagram)
  /-- About to try the socket. -/
  | send (d : QueuedDatagram)
  /-- In `enqueue`, about to call `try_reserve`. -/
  | tryReserve (d : QueuedDatagram)
  /-- Holds a permit, about to `fetch_add` the charge. -/
  | fetchAdd (d : QueuedDatagram)
  /-- Holds a permit, about to `permit.send`. -/
  | permitSend (d : QueuedDatagram)
  /-- Holds a permit it will drop, about to `fetch_sub` the charge back. -/
  | fetchSub (d : QueuedDatagram)
deriving DecidableEq

/-- The owner is between the first and the last action of `enqueue`. -/
def OwnerPc.InEnqueue : OwnerPc → Prop
  | .outside | .load _ | .send _ => False
  | .tryReserve _ | .fetchAdd _ | .permitSend _ | .fetchSub _ => True

/-- Where the writer task is in its loop. -/
inductive WriterPc where
  /-- In `recv`. -/
  | receiving
  /-- Took the datagram from the channel and has not sent it. -/
  | sending (d : QueuedDatagram)
  /-- Done with the send, about to `fetch_sub` the charge. -/
  | owing (d : QueuedDatagram)
deriving DecidableEq

/-- `SendQueue`: the channel, the counter and the writer task. -/
structure SendQueue where
  channel : List QueuedDatagram
  pendingBytes : ℕ
  writer : WriterPc
deriving DecidableEq

/-- `SendQueue::new`. -/
def SendQueue.new : SendQueue := { channel := [], pendingBytes := 0, writer := .receiving }

/-- One socket, its owner and its queue, with the calls made and the datagrams sent so far. -/
structure SocketState where
  owner : OwnerPc
  queue : Option SendQueue
  submitted : List QueuedDatagram
  wire : List QueuedDatagram
deriving DecidableEq

/-- A socket that has not been used. -/
def SocketState.new : SocketState :=
  { owner := .outside, queue := none, submitted := [], wire := [] }

/-- What the socket answers to a direct send. A datagram is sent whole or not at all. -/
inductive SendResult where
  | sent
  | wouldBlock
  | failed
deriving DecidableEq

/-- One step of a run. -/
inductive SocketEvent where
  /-- The owner calls `send_or_queue`. -/
  | call (d : QueuedDatagram)
  /-- The owner runs its next action; `result` is the answer if that is the direct send. -/
  | owner (result : SendResult)
  /-- The writer runs its next action; `sent` is the success of its send if that is one. -/
  | writer (sent : Bool)
deriving DecidableEq

/-! ## Steps -/

/-- `try_reserve` succeeds: the caller is the only sender, so that no other permit is out. -/
def SendQueue.hasRoom (q : SendQueue) : Bool := q.channel.length < maxQueuedDatagrams

/-- The next action of `send_or_queue`. The channel cannot be closed while the queue exists,
since only the drop of the queue ends the writer. -/
def ownerStep (w : UsizeWidth) (result : SendResult) (s : SocketState) : SocketState :=
  match s.owner, s.queue with
  | .outside, _ => s
  | .load d, none => { s with owner := .send d }
  | .load d, some q =>
    if q.pendingBytes = 0 then { s with owner := .send d } else { s with owner := .tryReserve d }
  | .send d, queue =>
    match result with
    | .sent => { s with owner := .outside, wire := s.wire ++ [d] }
    | .failed => { s with owner := .outside }
    -- `get_or_insert_with`
    | .wouldBlock => { s with owner := .tryReserve d, queue := some (queue.getD .new) }
  | .tryReserve d, some q =>
    if q.hasRoom then { s with owner := .fetchAdd d } else { s with owner := .outside }
  | .fetchAdd d, some q =>
    let queue := some { q with pendingBytes := w.fetchAdd q.pendingBytes d.charge }
    if (q.pendingBytes + d.charge) % w.modulus > maxQueuedBytes then
      { s with owner := .fetchSub d, queue := queue }
    else { s with owner := .permitSend d, queue := queue }
  | .permitSend d, some q =>
    { s with owner := .outside, queue := some { q with channel := q.channel ++ [d] } }
  | .fetchSub d, some q =>
    { s with
      owner := .outside
      queue := some { q with pendingBytes := w.fetchSub q.pendingBytes d.charge } }
  -- `enqueue` is a method of the queue
  | _, none => s

/-- The next action of the writer task. It waits while the channel is empty. -/
def writerStep (w : UsizeWidth) (sent : Bool) (s : SocketState) : SocketState :=
  match s.queue with
  | none => s
  | some q =>
    match q.writer, q.channel with
    | .receiving, [] => s
    | .receiving, d :: channel =>
      { s with queue := some { q with channel := channel, writer := .sending d } }
    | .sending d, _ =>
      { s with
        queue := some { q with writer := .owing d }
        wire := if sent then s.wire ++ [d] else s.wire }
    | .owing d, _ =>
      { s with
        queue := some
          { q with pendingBytes := w.fetchSub q.pendingBytes d.charge, writer := .receiving } }

/-- One step of the owner or of the writer. The owner makes one call at a time. -/
def socketStep (w : UsizeWidth) (s : SocketState) (e : SocketEvent) : SocketState :=
  match e with
  | .call d =>
    if s.owner = .outside then
      { s with owner := .load d, submitted := s.submitted ++ [d] }
    else s
  | .owner result => ownerStep w result s
  | .writer sent => writerStep w sent s

/-! ## The invariant -/

/-- The charges of a list of datagrams. -/
def charges (ds : List QueuedDatagram) : ℕ := (ds.map QueuedDatagram.charge).sum

@[simp] theorem charges_nil : charges [] = 0 := rfl

@[simp] theorem charges_cons (d : QueuedDatagram) (ds : List QueuedDatagram) :
    charges (d :: ds) = d.charge + charges ds := by
  simp [charges]

@[simp] theorem charges_append (ds es : List QueuedDatagram) :
    charges (ds ++ es) = charges ds + charges es := by
  simp [charges]

theorem QueuedDatagram.charge_pos (d : QueuedDatagram) : 0 < d.charge := Nat.succ_pos _

theorem QueuedDatagram.charge_le (d : QueuedDatagram) : d.charge ≤ 65536 :=
  Nat.succ_le_succ d.length_le

/-- Every datagram is charged for, the empty ones included. -/
theorem eq_nil_of_charges_eq_zero {ds : List QueuedDatagram} (h : charges ds = 0) : ds = [] := by
  cases ds with
  | nil => rfl
  | cons d ds =>
    have hpos := d.charge_pos
    rw [charges_cons] at h
    omega

/-- The queue, empty as long as none was created. -/
def SocketState.sendQueue (s : SocketState) : SendQueue := s.queue.getD .new

/-- The datagram the writer holds. -/
def WriterPc.held : WriterPc → List QueuedDatagram
  | .sending d => [d]
  | .receiving | .owing _ => []

/-- The datagram the writer is done with and still has to account for. -/
def WriterPc.owed : WriterPc → List QueuedDatagram
  | .owing d => [d]
  | .receiving | .sending _ => []

/-- The datagrams in the channel or held by the writer, oldest first. -/
def SendQueue.unsent (q : SendQueue) : List QueuedDatagram := q.writer.held ++ q.channel

/-- The datagram of the call under way. -/
def OwnerPc.inHand : OwnerPc → List QueuedDatagram
  | .outside => []
  | .load d | .send d | .tryReserve d | .fetchAdd d | .permitSend d | .fetchSub d => [d]

/-- The datagram `enqueue` has charged for and will put into the channel. -/
def OwnerPc.accepted : OwnerPc → List QueuedDatagram
  | .permitSend d => [d]
  | .outside | .load _ | .send _ | .tryReserve _ | .fetchAdd _ | .fetchSub _ => []

/-- The datagram `enqueue` has charged for and will refund. -/
def OwnerPc.refused : OwnerPc → List QueuedDatagram
  | .fetchSub d => [d]
  | .outside | .load _ | .send _ | .tryReserve _ | .fetchAdd _ | .permitSend _ => []

/-- The permits `enqueue` holds. -/
def OwnerPc.permits : OwnerPc → ℕ
  | .fetchAdd _ | .permitSend _ | .fetchSub _ => 1
  | .outside | .load _ | .send _ | .tryReserve _ => 0

/-- What holds between any two steps of a run. -/
structure SocketState.Inv (s : SocketState) : Prop where
  /-- Sent, then held, then queued, then in hand: the order of the calls. -/
  ordered : (s.wire ++ (s.sendQueue.unsent ++ s.owner.inHand)).Sublist s.submitted
  /-- The direct send finds nothing pending, and the writer cannot change that. -/
  bypass : ∀ d, s.owner = .send d → s.sendQueue.unsent = []
  accounted : s.sendQueue.pendingBytes = charges s.sendQueue.unsent +
    charges s.sendQueue.writer.owed + charges s.owner.accepted + charges s.owner.refused
  bounded : charges s.sendQueue.unsent + charges s.sendQueue.writer.owed +
    charges s.owner.accepted ≤ maxQueuedBytes
  capacity : s.sendQueue.channel.length + s.owner.permits ≤ maxQueuedDatagrams
  created : s.owner.InEnqueue → s.queue.isSome

/-- The invariant holds of a new socket. -/
theorem SocketState.new_inv : SocketState.new.Inv where
  ordered := List.Sublist.refl _
  bypass := by
    intro d h
    cases h
  accounted := rfl
  bounded := Nat.zero_le _
  capacity := Nat.zero_le _
  created := False.elim

/-- The counter stays far from the top of its range. -/
theorem SocketState.Inv.pendingBytes_lt {s : SocketState} (h : s.Inv) (w : UsizeWidth) :
    s.sendQueue.pendingBytes + 65536 < w.modulus := by
  have hrefused : charges s.owner.refused ≤ 65536 := by
    cases hs : s.owner with
    | fetchSub d => simpa [OwnerPc.refused] using d.charge_le
    | _ => exact Nat.zero_le _
  have hw := w.two_pow_le_modulus
  have hbounded := h.bounded
  rw [h.accounted]
  unfold maxQueuedBytes at hbounded
  omega

/-! ## Steps keep the invariant -/

section Steps

variable {s : SocketState} {w : UsizeWidth} {d : QueuedDatagram} {q : SendQueue}

theorem sendQueue_eq (hq : s.queue = some q) : s.sendQueue = q := by
  rw [SocketState.sendQueue, hq]
  rfl

/-- The invariant at a known action of the owner and a known queue. -/
theorem SocketState.Inv.view (h : s.Inv) {pc : OwnerPc} (hs : s.owner = pc)
    (hq : s.queue = some q) :
    (s.wire ++ (q.unsent ++ pc.inHand)).Sublist s.submitted ∧
      q.pendingBytes = charges q.unsent + charges q.writer.owed + charges pc.accepted +
        charges pc.refused ∧
      charges q.unsent + charges q.writer.owed + charges pc.accepted ≤ maxQueuedBytes ∧
      q.channel.length + pc.permits ≤ maxQueuedDatagrams ∧
      ∀ w : UsizeWidth, q.pendingBytes + 65536 < w.modulus := by
  subst hs
  rw [← sendQueue_eq hq]
  exact ⟨h.ordered, h.accounted, h.bounded, h.capacity, h.pendingBytes_lt⟩

/-- The owner moves on without touching the queue, still holding its datagram. -/
theorem SocketState.Inv.proceed (h : s.Inv) {pc : OwnerPc} (hhand : pc.inHand = s.owner.inHand)
    (hsend : ∀ d, pc = .send d → s.sendQueue.unsent = [])
    (hold : s.owner.accepted = [] ∧ s.owner.refused = [])
    (hnew : pc.accepted = [] ∧ pc.refused = [])
    (hpermits : s.sendQueue.channel.length + pc.permits ≤ maxQueuedDatagrams)
    (hcreated : pc.InEnqueue → s.queue.isSome) :
    { s with owner := pc }.Inv where
  ordered := by
    show (s.wire ++ (s.sendQueue.unsent ++ pc.inHand)).Sublist s.submitted
    rw [hhand]
    exact h.ordered
  bypass := hsend
  accounted := by
    have haccounted := h.accounted
    rw [hold.1, hold.2] at haccounted
    show s.sendQueue.pendingBytes = _ + charges pc.accepted + charges pc.refused
    rw [hnew.1, hnew.2]
    exact haccounted
  bounded := by
    have hbounded := h.bounded
    rw [hold.1] at hbounded
    show _ + charges pc.accepted ≤ maxQueuedBytes
    rw [hnew.1]
    exact hbounded
  capacity := hpermits
  created := hcreated

/-- The owner returns, and its datagram goes no further. -/
theorem SocketState.Inv.drop (h : s.Inv)
    (hold : s.owner.accepted = [] ∧ s.owner.refused = []) :
    { s with owner := .outside }.Inv where
  ordered := by
    refine List.Sublist.trans ?_ h.ordered
    show (s.wire ++ (s.sendQueue.unsent ++ [])).Sublist _
    rw [List.append_nil]
    exact (List.sublist_append_left _ _).append_left _
  bypass := by
    intro d hd
    cases hd
  accounted := by
    have haccounted := h.accounted
    rw [hold.1, hold.2] at haccounted
    exact haccounted
  bounded := by
    have hbounded := h.bounded
    rw [hold.1] at hbounded
    exact hbounded
  capacity := by
    have hcapacity := h.capacity
    show s.sendQueue.channel.length + 0 ≤ maxQueuedDatagrams
    omega
  created := False.elim

theorem load_inv (h : s.Inv) (hs : s.owner = .load d) (r : SendResult) :
    (ownerStep w r s).Inv := by
  have hold : s.owner.accepted = [] ∧ s.owner.refused = [] := by
    rw [hs]
    exact ⟨rfl, rfl⟩
  have hhand : s.owner.inHand = [d] := by rw [hs]; rfl
  have hcapacity : s.sendQueue.channel.length + 0 ≤ maxQueuedDatagrams := by
    have := h.capacity
    omega
  cases hq : s.queue with
  | none =>
    simp only [ownerStep, hs, hq]
    rw [← hq]
    refine h.proceed hhand.symm (fun _ _ => ?_) hold ⟨rfl, rfl⟩ hcapacity False.elim
    rw [SocketState.sendQueue, hq]
    rfl
  | some q =>
    simp only [ownerStep, hs, hq]
    split
    next hzero =>
      -- a counter at zero leaves no room for a charge
      rw [← hq]
      refine h.proceed hhand.symm (fun _ _ => ?_) hold ⟨rfl, rfl⟩ hcapacity False.elim
      have haccounted := h.accounted
      rw [sendQueue_eq hq, hzero] at haccounted
      rw [sendQueue_eq hq]
      exact eq_nil_of_charges_eq_zero (by omega)
    next =>
      rw [← hq]
      refine h.proceed hhand.symm (fun _ hd => ?_) hold ⟨rfl, rfl⟩ hcapacity (fun _ => ?_)
      · cases hd
      · rw [hq]
        rfl

theorem send_inv (h : s.Inv) (hs : s.owner = .send d) (r : SendResult) :
    (ownerStep w r s).Inv := by
  have hunsent := h.bypass d hs
  have hordered := h.ordered
  have haccounted := h.accounted
  have hbounded := h.bounded
  have hcapacity := h.capacity
  rw [hs] at hordered haccounted hbounded hcapacity
  cases r with
  | sent =>
    simp only [ownerStep, hs]
    refine ⟨?_, (fun _ hd => nomatch hd), haccounted, hbounded, hcapacity, False.elim⟩
    -- nothing is queued or held, so that the new datagram follows what is on the wire
    show ((s.wire ++ [d]) ++ (s.sendQueue.unsent ++ [])).Sublist s.submitted
    rw [hunsent] at hordered ⊢
    simpa [OwnerPc.inHand] using hordered
  | failed =>
    simp only [ownerStep, hs]
    exact h.drop (by rw [hs]; exact ⟨rfl, rfl⟩)
  | wouldBlock =>
    simp only [ownerStep, hs]
    exact ⟨hordered, (fun _ hd => nomatch hd), haccounted, hbounded, hcapacity, fun _ => rfl⟩

theorem tryReserve_inv (h : s.Inv) (hs : s.owner = .tryReserve d) (hq : s.queue = some q)
    (r : SendResult) : (ownerStep w r s).Inv := by
  have hold : s.owner.accepted = [] ∧ s.owner.refused = [] := by
    rw [hs]
    exact ⟨rfl, rfl⟩
  have hhand : s.owner.inHand = [d] := by rw [hs]; rfl
  simp only [ownerStep, hs, hq]
  rw [← hq]
  split
  next hroom =>
    refine h.proceed hhand.symm (fun _ hd => nomatch hd) hold ⟨rfl, rfl⟩ ?_ (fun _ => ?_)
    · have hlt : q.channel.length < maxQueuedDatagrams := of_decide_eq_true hroom
      rw [sendQueue_eq hq]
      exact hlt
    · rw [hq]
      rfl
  next => exact h.drop hold

theorem fetchAdd_inv (h : s.Inv) (hs : s.owner = .fetchAdd d) (hq : s.queue = some q)
    (r : SendResult) : (ownerStep w r s).Inv := by
  obtain ⟨hordered, haccounted, hbounded, hcapacity, hlt⟩ := h.view hs hq
  have hlt := hlt w
  have hcharge := d.charge_le
  -- neither the addition to the counter nor the sum that is compared wraps around
  have hsum : q.pendingBytes + d.charge < w.modulus := by omega
  simp only [OwnerPc.accepted, OwnerPc.refused, charges_nil] at haccounted hbounded
  simp only [ownerStep, hs, hq, UsizeWidth.fetchAdd_eq hsum, Nat.mod_eq_of_lt hsum]
  split
  next =>
    refine ⟨hordered, (fun _ hd => nomatch hd), ?_, hbounded, hcapacity, fun _ => rfl⟩
    show q.pendingBytes + d.charge =
      charges q.unsent + charges q.writer.owed + 0 + charges [d]
    simp only [charges_cons, charges_nil]
    omega
  next hle =>
    refine ⟨hordered, (fun _ hd => nomatch hd), ?_, ?_, hcapacity, fun _ => rfl⟩
    · show q.pendingBytes + d.charge =
        charges q.unsent + charges q.writer.owed + charges [d] + 0
      simp only [charges_cons, charges_nil]
      omega
    · show charges q.unsent + charges q.writer.owed + charges [d] ≤ maxQueuedBytes
      simp only [charges_cons, charges_nil]
      omega

theorem permitSend_inv (h : s.Inv) (hs : s.owner = .permitSend d) (hq : s.queue = some q)
    (r : SendResult) : (ownerStep w r s).Inv := by
  obtain ⟨hordered, haccounted, hbounded, hcapacity, -⟩ := h.view hs hq
  simp only [OwnerPc.accepted, OwnerPc.refused, charges_cons, charges_nil, SendQueue.unsent,
    charges_append] at haccounted hbounded
  simp only [ownerStep, hs, hq]
  refine ⟨?_, (fun _ hd => nomatch hd), ?_, ?_, ?_, False.elim⟩
  · -- the datagram moves from the owner's hand to the end of the channel
    show (s.wire ++ ((q.writer.held ++ (q.channel ++ [d])) ++ [])).Sublist s.submitted
    simpa [SendQueue.unsent, OwnerPc.inHand] using hordered
  · show q.pendingBytes =
      charges (q.writer.held ++ (q.channel ++ [d])) + charges q.writer.owed + 0 + 0
    simp only [charges_append, charges_cons, charges_nil]
    omega
  · show charges (q.writer.held ++ (q.channel ++ [d])) + charges q.writer.owed + 0
      ≤ maxQueuedBytes
    simp only [charges_append, charges_cons, charges_nil]
    omega
  · show (q.channel ++ [d]).length + 0 ≤ maxQueuedDatagrams
    rw [List.length_append]
    exact hcapacity

theorem fetchSub_inv (h : s.Inv) (hs : s.owner = .fetchSub d) (hq : s.queue = some q)
    (r : SendResult) : (ownerStep w r s).Inv := by
  obtain ⟨hordered, haccounted, hbounded, hcapacity, hlt⟩ := h.view hs hq
  have hlt := hlt w
  simp only [OwnerPc.accepted, OwnerPc.refused, charges_cons, charges_nil] at haccounted hbounded
  have hsub : w.fetchSub q.pendingBytes d.charge = q.pendingBytes - d.charge :=
    UsizeWidth.fetchSub_eq (by omega) (by omega)
  simp only [ownerStep, hs, hq, hsub]
  refine ⟨?_, (fun _ hd => nomatch hd), ?_, hbounded, ?_, False.elim⟩
  · show (s.wire ++ (q.unsent ++ [])).Sublist s.submitted
    refine List.Sublist.trans ?_ hordered
    rw [List.append_nil]
    exact (List.sublist_append_left _ _).append_left _
  · show q.pendingBytes - d.charge = charges q.unsent + charges q.writer.owed + 0 + 0
    omega
  · show q.channel.length + 0 ≤ maxQueuedDatagrams
    omega

/-- Every action of the owner keeps the invariant. -/
theorem ownerStep_inv (h : s.Inv) (w : UsizeWidth) (r : SendResult) : (ownerStep w r s).Inv := by
  have hqueue : s.owner.InEnqueue → ∃ q, s.queue = some q :=
    fun hin => Option.isSome_iff_exists.mp (h.created hin)
  cases hs : s.owner with
  | outside =>
    simp only [ownerStep, hs]
    exact h
  | load d => exact load_inv h hs r
  | send d => exact send_inv h hs r
  | tryReserve d =>
    obtain ⟨q, hq⟩ := hqueue (by rw [hs]; trivial)
    exact tryReserve_inv h hs hq r
  | fetchAdd d =>
    obtain ⟨q, hq⟩ := hqueue (by rw [hs]; trivial)
    exact fetchAdd_inv h hs hq r
  | permitSend d =>
    obtain ⟨q, hq⟩ := hqueue (by rw [hs]; trivial)
    exact permitSend_inv h hs hq r
  | fetchSub d =>
    obtain ⟨q, hq⟩ := hqueue (by rw [hs]; trivial)
    exact fetchSub_inv h hs hq r

/-- The writer only ever moves the oldest datagram: from the channel to its hand, from there to
the wire or nowhere, and out of the accounts. -/
theorem writerStep_inv (h : s.Inv) (w : UsizeWidth) (sent : Bool) : (writerStep w sent s).Inv := by
  cases hq : s.queue with
  | none =>
    simp only [writerStep, hq]
    exact h
  | some q =>
    obtain ⟨hordered, haccounted, hbounded, hcapacity, hlt⟩ := h.view rfl hq
    have hbypass := h.bypass
    rw [sendQueue_eq hq] at hbypass
    obtain ⟨channel, pendingBytes, writer⟩ := q
    cases writer with
    | receiving =>
      cases channel with
      | nil =>
        simp only [writerStep, hq]
        exact h
      | cons d channel =>
        simp only [writerStep, hq]
        refine ⟨hordered, hbypass, haccounted, hbounded, ?_, fun _ => rfl⟩
        show channel.length + s.owner.permits ≤ maxQueuedDatagrams
        simp only [List.length_cons] at hcapacity
        omega
    | sending d =>
      simp only [writerStep, hq]
      -- the owner cannot be about to send: the writer holds a datagram
      have hnot : ∀ d', s.owner ≠ .send d' := by
        intro d' hd'
        cases hbypass d' hd'
      simp only [SendQueue.unsent, WriterPc.held, WriterPc.owed, charges_append, charges_cons,
        charges_nil] at haccounted hbounded
      refine ⟨?_, fun d' hd' => absurd hd' (hnot d'), ?_, ?_, hcapacity, fun _ => rfl⟩
      · show ((if sent then s.wire ++ [d] else s.wire) ++
          (([] ++ channel) ++ s.owner.inHand)).Sublist s.submitted
        cases sent with
        | true => simpa [SendQueue.unsent, WriterPc.held] using hordered
        | false =>
          refine List.Sublist.trans ?_ hordered
          exact (List.sublist_cons_self d _).append_left s.wire
      · show pendingBytes = charges ([] ++ channel) + charges [d] + charges s.owner.accepted +
          charges s.owner.refused
        simp only [List.nil_append, charges_cons, charges_nil]
        omega
      · show charges ([] ++ channel) + charges [d] + charges s.owner.accepted ≤ maxQueuedBytes
        simp only [List.nil_append, charges_cons, charges_nil]
        omega
    | owing d =>
      simp only [SendQueue.unsent, WriterPc.held, WriterPc.owed, charges_cons,
        charges_nil] at haccounted hbounded
      have hsub : w.fetchSub pendingBytes d.charge = pendingBytes - d.charge := by
        have hrange : pendingBytes + 65536 < w.modulus := hlt w
        exact UsizeWidth.fetchSub_eq (by omega) (by omega)
      simp only [writerStep, hq, hsub]
      refine ⟨hordered, hbypass, ?_, ?_, hcapacity, fun _ => rfl⟩
      · show pendingBytes - d.charge = charges ([] ++ channel) + 0 + charges s.owner.accepted +
          charges s.owner.refused
        omega
      · show charges ([] ++ channel) + 0 + charges s.owner.accepted ≤ maxQueuedBytes
        omega

/-- A new call keeps the invariant. -/
theorem call_inv (h : s.Inv) (w : UsizeWidth) (d : QueuedDatagram) :
    (socketStep w s (.call d)).Inv := by
  simp only [socketStep]
  split
  next hs =>
    have hordered := h.ordered
    have haccounted := h.accounted
    have hbounded := h.bounded
    have hcapacity := h.capacity
    rw [hs] at hordered haccounted hbounded hcapacity
    refine ⟨?_, (fun _ hd => nomatch hd), haccounted, hbounded, hcapacity, False.elim⟩
    show (s.wire ++ (s.sendQueue.unsent ++ [d])).Sublist (s.submitted ++ [d])
    rw [← List.append_assoc]
    refine List.Sublist.append_right ?_ [d]
    simpa [OwnerPc.inHand] using hordered
  next => exact h

end Steps

/-- Every step keeps the invariant. -/
theorem socketStep_inv (w : UsizeWidth) (s : SocketState) (e : SocketEvent) (h : s.Inv) :
    (socketStep w s e).Inv := by
  cases e with
  | call d => exact call_inv h w d
  | owner result => exact ownerStep_inv h w result
  | writer sent => exact writerStep_inv h w sent

/-- It holds after any steps of the owner and the writer, in any order. -/
theorem socketRun_inv (w : UsizeWidth) (es : List SocketEvent) :
    (runFrom (socketStep w) .new es).Inv :=
  runFrom_invariant (A := fun _ => True) (fun s e _ h => socketStep_inv w s e h) es _
    (fun _ _ => trivial) SocketState.new_inv

/-- In every interleaving of the owner and the writer: what is on the wire is a subsequence of the
calls; a direct send finds nothing queued or held; outside `enqueue` the counter is the charges
of the datagrams queued or held and of the one the writer still has to account for; no
subtraction underflows; accepted datagrams are never charged for more than the bound; and the
channel never holds more than its capacity. -/
theorem sendOrQueue_ordered_accounted (w : UsizeWidth) (es : List SocketEvent) :
    let s := runFrom (socketStep w) .new es
    let q := s.sendQueue
    s.wire.Sublist s.submitted ∧
      (∀ d, s.owner = .send d → q.unsent = []) ∧
      (¬s.owner.InEnqueue →
        q.pendingBytes = charges q.unsent + charges q.writer.owed ∧
          q.pendingBytes ≤ maxQueuedBytes) ∧
      (∀ d, s.owner = .fetchSub d → d.charge ≤ q.pendingBytes) ∧
      (∀ d, q.writer = .owing d → d.charge ≤ q.pendingBytes) ∧
      charges q.unsent + charges q.writer.owed + charges s.owner.accepted ≤ maxQueuedBytes ∧
      q.channel.length ≤ maxQueuedDatagrams := by
  intro s q
  have h : s.Inv := socketRun_inv w es
  refine ⟨?_, h.bypass, ?_, ?_, ?_, h.bounded, ?_⟩
  · exact (List.sublist_append_left _ _).trans h.ordered
  · intro hout
    -- outside `enqueue` the owner has no charge of its own in the counter
    have hcharged : s.owner.accepted = [] ∧ s.owner.refused = [] := by
      cases hs : s.owner with
      | outside => exact ⟨rfl, rfl⟩
      | load d => exact ⟨rfl, rfl⟩
      | send d => exact ⟨rfl, rfl⟩
      | _ =>
        rw [hs] at hout
        exact absurd trivial hout
    have haccounted := h.accounted
    have hbounded := h.bounded
    rw [hcharged.1, hcharged.2] at haccounted
    rw [hcharged.1] at hbounded
    exact ⟨haccounted, haccounted.trans_le hbounded⟩
  · intro d hd
    have haccounted := h.accounted
    rw [hd] at haccounted
    simp only [OwnerPc.refused, charges_cons] at haccounted
    show d.charge ≤ s.sendQueue.pendingBytes
    omega
  · intro d hd
    have haccounted := h.accounted
    have howed : s.sendQueue.writer = .owing d := hd
    rw [howed] at haccounted
    simp only [WriterPc.owed, charges_cons] at haccounted
    show d.charge ≤ s.sendQueue.pendingBytes
    omega
  · have hcapacity := h.capacity
    show s.sendQueue.channel.length ≤ maxQueuedDatagrams
    omega

end SniRouter
