import SniRouter.H3.SendQueue

/-!
# The send queue drains

Neither side of the send path waits for the other: when calls stop, owner and writer have only so
many actions left, and then the queue is as good as new, with nothing charged for. What
`send_or_queue` has accepted until some time gets onto the wire in that order, unless the socket
fails.
-/

namespace SniRouter

/-- The event is an action of the owner or of the writer, and not a new call. -/
def SocketEvent.IsAction : SocketEvent → Prop
  | .owner _ | .writer _ => True
  | .call _ => False

/-- The actions that the call under way can still cause. A datagram that it puts into the channel
costs the writer three. -/
def OwnerPc.work : OwnerPc → ℕ
  | .outside => 0
  | .fetchSub _ => 1
  | .permitSend _ => 4
  | .fetchAdd _ => 5
  | .tryReserve _ => 6
  | .send _ => 7
  | .load _ => 8

def WriterPc.work : WriterPc → ℕ
  | .receiving => 0
  | .owing _ => 1
  | .sending _ => 2

namespace SocketState

/-- A bound on the actions until both sides wait. -/
def work (s : SocketState) : ℕ :=
  s.owner.work + 3 * s.sendQueue.channel.length + s.sendQueue.writer.work

/-- What was sent or will be, as far as the calls so far have decided it. -/
def accepted (s : SocketState) : List QueuedDatagram :=
  s.wire ++ (s.sendQueue.unsent ++ s.owner.accepted)

/-- Neither side can do anything. -/
def AtRest (w : UsizeWidth) (s : SocketState) : Prop :=
  ∀ e : SocketEvent, e.IsAction → socketStep w s e = s

/-- Each event is an action that changes something. -/
def Advances (w : UsizeWidth) (s : SocketState) : List SocketEvent → Prop
  | [] => True
  | e :: es => e.IsAction ∧ socketStep w s e ≠ s ∧ Advances w (socketStep w s e) es

def run (w : UsizeWidth) (s : SocketState) (es : List SocketEvent) : SocketState :=
  runFrom (socketStep w) s es

variable {w : UsizeWidth} {s : SocketState}

/-! ## How much is left to do -/

/-- The work of a socket is bounded by its queue. -/
theorem Inv.work_le (h : s.Inv) : s.work ≤ 106 := by
  have howner : s.owner.work ≤ 8 := by
    cases s.owner with
    | _ => simp [OwnerPc.work]
  have hwriter : s.sendQueue.writer.work ≤ 2 := by
    cases s.sendQueue.writer with
    | _ => simp [WriterPc.work]
  have hcapacity := h.capacity
  unfold maxQueuedDatagrams at hcapacity
  unfold work
  omega

/-- Each action of the owner leaves less work. -/
theorem ownerStep_work (result : SendResult) (hne : ownerStep w result s ≠ s) :
    (ownerStep w result s).work < s.work := by
  obtain ⟨owner, queue, submitted, wire⟩ := s
  cases owner with
  | outside => exact absurd rfl hne
  | load d =>
    cases queue with
    | none => simp [ownerStep, work, OwnerPc.work, sendQueue]
    | some q =>
      simp only [ownerStep]
      split <;> simp [work, OwnerPc.work, sendQueue]
  | send d =>
    cases result with
    | sent => simp [ownerStep, work, OwnerPc.work, sendQueue]
    | failed => simp [ownerStep, work, OwnerPc.work, sendQueue]
    | wouldBlock => simp [ownerStep, work, OwnerPc.work, sendQueue]
  | tryReserve d =>
    cases queue with
    | none => exact absurd rfl hne
    | some q =>
      simp only [ownerStep]
      split <;> simp [work, OwnerPc.work, sendQueue]
  | fetchAdd d =>
    cases queue with
    | none => exact absurd rfl hne
    | some q =>
      simp only [ownerStep]
      split <;> simp [work, OwnerPc.work, sendQueue]
  | permitSend d =>
    cases queue with
    | none => exact absurd rfl hne
    | some q =>
      have hlength : (q.channel ++ [d]).length = q.channel.length + 1 := List.length_append
      show 0 + 3 * (q.channel ++ [d]).length + q.writer.work <
        4 + 3 * q.channel.length + q.writer.work
      omega
  | fetchSub d =>
    cases queue with
    | none => exact absurd rfl hne
    | some q => simp [ownerStep, work, OwnerPc.work, sendQueue]

/-- So does each action of the writer. -/
theorem writerStep_work (sent : Bool) (hne : writerStep w sent s ≠ s) :
    (writerStep w sent s).work < s.work := by
  obtain ⟨owner, queue, submitted, wire⟩ := s
  cases queue with
  | none => exact absurd rfl hne
  | some q =>
    obtain ⟨channel, pendingBytes, writer⟩ := q
    cases writer with
    | receiving =>
      cases channel with
      | nil => exact absurd rfl hne
      | cons d channel =>
        show owner.work + 3 * channel.length + 2 < owner.work + 3 * (channel.length + 1) + 0
        omega
    | sending d => simp [writerStep, work, WriterPc.work, sendQueue]
    | owing d => simp [writerStep, work, WriterPc.work, sendQueue]

/-- Every action that changes something leaves less to do. -/
theorem socketStep_work {e : SocketEvent} (he : e.IsAction) (hne : socketStep w s e ≠ s) :
    (socketStep w s e).work < s.work := by
  cases e with
  | call d => exact he.elim
  | owner result => exact ownerStep_work result hne
  | writer sent => exact writerStep_work sent hne

/-- A schedule in which each action does something is no longer than the work. -/
theorem Advances.length_le {es : List SocketEvent} (h : s.Advances w es) :
    es.length ≤ s.work := by
  induction es generalizing s with
  | nil => exact Nat.zero_le _
  | cons e es ih =>
    obtain ⟨he, hne, hrest⟩ := h
    have hwork := socketStep_work he hne
    have hlength := ih hrest
    rw [List.length_cons]
    omega

/-! ## At rest -/

/-- A call under way can always take its next action. -/
theorem ownerStep_ne (h : s.Inv) (hout : s.owner ≠ .outside) :
    (ownerStep w .sent s).owner ≠ s.owner := by
  have hcreated := h.created
  obtain ⟨owner, queue, submitted, wire⟩ := s
  cases owner with
  | outside => exact absurd rfl hout
  | load d =>
    cases queue with
    | none => simp [ownerStep]
    | some q =>
      simp only [ownerStep]
      split <;> simp
  | send d => simp [ownerStep]
  | tryReserve d =>
    obtain ⟨q, rfl⟩ := Option.isSome_iff_exists.mp (hcreated trivial)
    simp only [ownerStep]
    split <;> simp
  | fetchAdd d =>
    obtain ⟨q, rfl⟩ := Option.isSome_iff_exists.mp (hcreated trivial)
    simp only [ownerStep]
    split <;> simp
  | permitSend d =>
    obtain ⟨q, rfl⟩ := Option.isSome_iff_exists.mp (hcreated trivial)
    simp [ownerStep]
  | fetchSub d =>
    obtain ⟨q, rfl⟩ := Option.isSome_iff_exists.mp (hcreated trivial)
    simp [ownerStep]

theorem AtRest.owner (h : s.AtRest w) (hs : s.Inv) : s.owner = .outside := by
  by_contra hout
  exact ownerStep_ne hs hout (congrArg SocketState.owner (h (.owner .sent) trivial))

theorem AtRest.writer (h : s.AtRest w) :
    s.sendQueue.channel = [] ∧ s.sendQueue.writer = .receiving := by
  have hrest : writerStep w true s = s := h (.writer true) trivial
  obtain ⟨owner, queue, submitted, wire⟩ := s
  cases queue with
  | none => exact ⟨rfl, rfl⟩
  | some q =>
    obtain ⟨channel, pendingBytes, writer⟩ := q
    cases writer with
    | receiving =>
      cases channel with
      | nil => exact ⟨rfl, rfl⟩
      | cons d channel => simp [writerStep] at hrest
    | sending d => simp [writerStep] at hrest
    | owing d => simp [writerStep] at hrest

/-- At rest nothing is queued, held or charged for. -/
theorem AtRest.sendQueue (h : s.AtRest w) (hs : s.Inv) : s.sendQueue = .new := by
  obtain ⟨hchannel, hwriter⟩ := h.writer
  have haccounted := hs.accounted
  rw [h.owner hs] at haccounted
  generalize s.sendQueue = q at hchannel hwriter haccounted
  obtain ⟨channel, pendingBytes, writer⟩ := q
  subst hchannel hwriter
  have hzero : pendingBytes = 0 := haccounted
  rw [hzero]
  rfl

/-- All that was accepted is on the wire. -/
theorem AtRest.accepted (h : s.AtRest w) (hs : s.Inv) : s.accepted = s.wire := by
  rw [SocketState.accepted, h.sendQueue hs, h.owner hs]
  exact List.append_nil _

/-! ## What was accepted -/

/-- The owner takes back nothing that was accepted. -/
theorem ownerStep_accepted (h : s.Inv) (result : SendResult) :
    s.accepted <+: (ownerStep w result s).accepted := by
  have hbypass := h.bypass
  obtain ⟨owner, queue, submitted, wire⟩ := s
  cases owner with
  | outside => exact List.prefix_refl _
  | load d =>
    cases queue with
    | none => exact List.prefix_refl _
    | some q =>
      simp only [ownerStep]
      split <;> exact List.prefix_refl _
  | send d =>
    cases result with
    | sent =>
      -- the datagram overtakes none, for none is waiting
      have hunsent : (queue.getD .new).unsent = [] := hbypass d rfl
      show wire ++ ((queue.getD .new).unsent ++ []) <+:
        (wire ++ [d]) ++ ((queue.getD .new).unsent ++ [])
      rw [hunsent]
      simp
    | failed => exact List.prefix_refl _
    | wouldBlock => exact List.prefix_refl _
  | tryReserve d =>
    cases queue with
    | none => exact List.prefix_refl _
    | some q =>
      simp only [ownerStep]
      split <;> exact List.prefix_refl _
  | fetchAdd d =>
    cases queue with
    | none => exact List.prefix_refl _
    | some q =>
      simp only [ownerStep]
      split
      · exact List.prefix_refl _
      · show wire ++ (q.unsent ++ []) <+: wire ++ (q.unsent ++ [d])
        simp
  | permitSend d =>
    cases queue with
    | none => exact List.prefix_refl _
    | some q =>
      simp only [ownerStep]
      show wire ++ (q.writer.held ++ q.channel ++ [d]) <+:
        wire ++ (q.writer.held ++ (q.channel ++ [d]) ++ [])
      simp
  | fetchSub d =>
    cases queue with
    | none => exact List.prefix_refl _
    | some q => exact List.prefix_refl _

/-- Nor does a writer whose sends succeed. -/
theorem writerStep_accepted (s : SocketState) : (writerStep w true s).accepted = s.accepted := by
  obtain ⟨owner, queue, submitted, wire⟩ := s
  cases queue with
  | none => rfl
  | some q =>
    obtain ⟨channel, pendingBytes, writer⟩ := q
    cases writer with
    | receiving =>
      cases channel with
      | nil => rfl
      | cons d channel => rfl
    | sending d =>
      show (wire ++ [d]) ++ (channel ++ owner.accepted) = wire ++ ([d] ++ channel ++ owner.accepted)
      simp
    | owing d => rfl

theorem socketStep_accepted (h : s.Inv) {e : SocketEvent} (he : e ≠ .writer false) :
    s.accepted <+: (socketStep w s e).accepted := by
  cases e with
  | call d =>
    simp only [socketStep]
    split
    · rename_i hout
      rw [SocketState.accepted, hout]
      exact List.prefix_refl _
    · exact List.prefix_refl _
  | owner result => exact ownerStep_accepted h result
  | writer sent =>
    cases sent with
    | true => exact (writerStep_accepted s).symm ▸ List.prefix_refl _
    | false => exact absurd rfl he

/-- Accepted datagrams stay accepted while no send of the writer fails. -/
theorem run_accepted (h : s.Inv) {es : List SocketEvent} (hes : ∀ e ∈ es, e ≠ .writer false) :
    s.accepted <+: (s.run w es).accepted := by
  induction es generalizing s with
  | nil => exact List.prefix_refl _
  | cons e es ih =>
    have hnow := socketStep_accepted (w := w) h (hes e List.mem_cons_self)
    exact hnow.trans
      (ih (socketStep_inv w s e h) fun e' he' => hes e' (List.mem_cons_of_mem _ he'))

/-- **The queue drains.** After any run `es`, owner and writer can take at most 106 actions until
neither can move, whatever their order. When neither can move after some further run `fs`, the
queue is as good as new; and if no send of the writer failed, all that was accepted before `fs` is
on the wire, in order. -/
theorem run_queue_drains (w : UsizeWidth) (es fs : List SocketEvent) :
    ((new.run w es).Advances w fs → fs.length ≤ 106) ∧
    ((new.run w (es ++ fs)).AtRest w →
      (new.run w (es ++ fs)).owner = .outside ∧ (new.run w (es ++ fs)).sendQueue = .new ∧
      ((∀ e ∈ fs, e ≠ .writer false) →
        (new.run w es).accepted <+: (new.run w (es ++ fs)).wire)) := by
  have hs : (new.run w es).Inv := socketRun_inv w es
  have ht : (new.run w (es ++ fs)).Inv := socketRun_inv w (es ++ fs)
  refine ⟨fun hadvances => hadvances.length_le.trans hs.work_le, fun hrest => ?_⟩
  refine ⟨hrest.owner ht, hrest.sendQueue ht, fun hsent => ?_⟩
  have hrun : new.run w (es ++ fs) = (new.run w es).run w fs := runFrom_append ..
  rw [← hrest.accepted ht, hrun]
  exact run_accepted hs hsent

/-- A datagram for which the socket has no room is queued, and the writer sends it. -/
theorem run_queue_drains_queued :
    let d : QueuedDatagram := ⟨[1, 2, 3], none, by decide⟩
    let es := .call d :: List.replicate 4 (.owner .wouldBlock)
    let fs := .owner .wouldBlock :: List.replicate 3 (.writer true)
    (new.run .bits64 es).Advances .bits64 fs ∧ fs.length ≤ 106 ∧
      (new.run .bits64 (es ++ fs)).sendQueue = .new ∧ (new.run .bits64 es).accepted = [d] ∧
      (new.run .bits64 es).accepted <+: (new.run .bits64 (es ++ fs)).wire := by
  intro d es fs
  have hadvances : (new.run .bits64 es).Advances .bits64 fs := by
    refine ⟨trivial, ?_, trivial, ?_, trivial, ?_, trivial, ?_, trivial⟩
    all_goals decide +kernel
  have hend : new.run .bits64 (es ++ fs) = ⟨.outside, some .new, [d], [d]⟩ := by decide +kernel
  have hrest : (new.run .bits64 (es ++ fs)).AtRest .bits64 := by
    rw [hend]
    intro e he
    cases e with
    | call d => cases he
    | owner result => rfl
    | writer sent => rfl
  obtain ⟨hlength, hdrained⟩ := run_queue_drains .bits64 es fs
  obtain ⟨-, hqueue, hwire⟩ := hdrained hrest
  exact ⟨hadvances, hlength hadvances, hqueue, by decide +kernel, hwire (by decide)⟩

end SocketState

end SniRouter
