import SniRouter.H3.Delivery

/-!
# Readers and main loop come to rest

A reader that holds a permit never waits, and every permit is either left in the channel, held
by a reader or stands for a datagram that the main loop can take. So a full channel cannot
block the readers for good: whatever the order of the tasks, they come to rest after a bounded
number of steps, and at rest everything that arrived has been handed to the router.
-/

namespace SniRouter

/-- The steps of the tasks, none of which fails: a reader runs its next action, the main loop
takes or handles a datagram. -/
def ReceiveEvent.IsTask : ReceiveEvent → Prop
  | .reader _ fail => fail = false
  | .recv | .handle _ => True
  | _ => False

/-- A bound on the steps that a reader can take until it waits at an empty socket: ten for each
queued datagram, and those of the round it is in. A round that receives nothing is followed by
another one only when something is queued. -/
def BackendReader.work (reader : BackendReader) : ℕ :=
  10 * reader.queue.length +
    match reader.pc with
    | .readable => if reader.queue = [] then 0 else 7
    | .reserve => 6
    | .acquire => 5
    | .tryRecv _ => 4
    | .send _ => 10
    | .dropPacket _ _ => if reader.queue = [] then 3 else 9
    | .dropPermit _ => if reader.queue = [] then 2 else 8
    | .stopped | .panicked => 0

namespace ReceivePath

variable {cr : Crypto} {s s' : ReceivePath} {k : ℕ}

/-- No step of a task changes anything. -/
def AtRest (cr : Crypto) (s : ReceivePath) : Prop :=
  ∀ e : ReceiveEvent, e.IsTask → s.step cr e = s

theorem setReader_ne {t : ReceivePath} {reader reader' : BackendReader}
    (hreader : s.readers.lookup k = some reader) (hne : reader' ≠ reader) :
    t.setReader k reader' ≠ s := by
  intro heq
  have hlook : (t.setReader k reader').readers.lookup k = some reader' :=
    Table.lookup_insert_self ..
  rw [heq, hreader] at hlook
  cases hlook
  exact hne rfl

theorem setReader_lookup (t : ReceivePath) (k : ℕ) (reader : BackendReader) :
    (t.setReader k reader).readers.lookup k = some reader := Table.lookup_insert_self ..

theorem step_reader {reader : BackendReader} (hreader : s.readers.lookup k = some reader)
    (fail : Bool) : s.step cr (.reader k fail) = s.readerStep k reader fail := by
  simp only [step, hreader]

/-- A reader that holds a permit moves. -/
theorem readerStep_ne_of_permit {reader : BackendReader}
    (hreader : s.readers.lookup k = some reader) (hpermit : reader.pc.permits ≠ 0) :
    s.readerStep k reader false ≠ s := by
  obtain ⟨queue, pc⟩ := reader
  unfold readerStep
  cases pc with
  | readable => exact absurd rfl hpermit
  | reserve => exact absurd rfl hpermit
  | acquire => exact setReader_ne hreader (by simp)
  | tryRecv packet =>
    simp only [Bool.false_eq_true, if_false]
    cases queue with
    | nil => exact setReader_ne hreader (by simp)
    | cons datagram queue =>
      dsimp only
      split
      · exact setReader_ne hreader (by simp)
      · exact setReader_ne hreader (by simp)
  | send packet => exact setReader_ne hreader (by simp)
  | dropPacket packet stop => exact setReader_ne hreader (by simp)
  | dropPermit stop => cases stop <;> exact setReader_ne hreader (by simp [ReaderPc.next])
  | stopped => exact absurd rfl hpermit
  | panicked => exact absurd rfl hpermit

theorem AtRest.taken (h : AtRest cr s) : s.taken = none := by
  cases htaken : s.taken with
  | none => rfl
  | some entry =>
    have hstep := h (.handle ⟨0, 0, true, fun _ => true, none⟩) trivial
    simp only [step, htaken] at hstep
    have hnone : s.taken = none := by rw [← hstep]
    exact htaken.symm.trans hnone

theorem AtRest.channel (h : AtRest cr s) : s.channel = [] := by
  cases hchannel : s.channel with
  | nil => rfl
  | cons entry channel =>
    have hstep := h .recv trivial
    simp only [step, h.taken, hchannel] at hstep
    have hsome : s.taken = some entry := by rw [← hstep]
    cases h.taken.symm.trans hsome

/-- At rest all permits are left. -/
theorem AtRest.free (h : AtRest cr s) (hs : s.Sound) : s.free = channelCapacity := by
  have hheld : s.readers.total (fun _ reader => reader.pc.permits) = 0 := by
    refine List.sum_eq_zero fun n hn => ?_
    obtain ⟨⟨k, reader⟩, hmem, rfl⟩ := List.mem_map.mp hn
    have hreader := Table.mem_toList.mp hmem
    by_contra hpermit
    refine readerStep_ne_of_permit hreader hpermit ?_
    rw [← step_reader hreader]
    exact h (.reader k false) rfl
  have hpermits := hs.permits
  rw [hheld, h.channel] at hpermits
  exact hpermits

/-- At rest a reader has stopped, or waits at an empty socket. -/
theorem AtRest.reader (h : AtRest cr s) (hs : s.Sound) {reader : BackendReader}
    (hreader : s.readers.lookup k = some reader) :
    reader.pc = .stopped ∨ reader.pc = .readable ∧ reader.queue = [] := by
  have hrest : s.readerStep k reader false = s := by
    rw [← step_reader hreader]
    exact h (.reader k false) rfl
  have hfree := h.free hs
  by_cases hpermit : reader.pc.permits = 0
  · obtain ⟨queue, pc⟩ := reader
    cases pc with
    | readable =>
      refine .inr ⟨rfl, ?_⟩
      by_contra hqueue
      simp only [readerStep, Bool.false_eq_true, if_false] at hrest
      rw [if_neg hqueue] at hrest
      exact setReader_ne hreader (by simp) hrest
    | reserve =>
      -- there are permits left, so the reader would get one
      have hpos : s.free ≠ 0 := by
        rw [hfree]
        decide
      simp only [readerStep, Bool.false_eq_true, if_false, if_neg hpos] at hrest
      exact absurd hrest (setReader_ne hreader (by simp))
    | stopped => exact .inl rfl
    | panicked => exact absurd rfl (hs.noPanic k _ hreader)
    | acquire => cases hpermit
    | tryRecv packet => cases hpermit
    | send packet => cases hpermit
    | dropPacket packet stop => cases hpermit
    | dropPermit stop => cases hpermit
  · exact absurd hrest (readerStep_ne_of_permit hreader hpermit)

/-- Nothing is on its way from a reader that runs. -/
theorem AtRest.inFlight (h : AtRest cr s) (hs : s.Sound)
    (hrunning : ∀ reader, s.readers.lookup k = some reader → reader.pc ≠ .stopped) :
    s.inFlight k = [] := by
  unfold ReceivePath.inFlight
  rw [h.taken, h.channel]
  cases hreader : s.readers.lookup k with
  | none => rfl
  | some reader =>
    obtain ⟨hpc, hqueue⟩ := (h.reader hs hreader).resolve_left (hrunning reader hreader)
    simp [entriesOf, BackendReader.waiting, hpc, hqueue, ReaderPc.received]

/-- The tasks are at rest when there is nothing to take and every reader waits at an empty socket
or has stopped. -/
theorem atRest_of_waiting (htaken : s.taken = none) (hchannel : s.channel = [])
    (hreaders : ∀ e ∈ s.readers.toList, e.2.pc = .stopped ∨ e.2.pc = .readable ∧ e.2.queue = []) :
    AtRest cr s := by
  intro e he
  cases e with
  | reader k fail =>
    obtain rfl : fail = false := he
    cases hreader : s.readers.lookup k with
    | none => simp only [step, hreader]
    | some reader =>
      rw [step_reader hreader]
      rcases hreaders (k, reader) (Table.mem_toList.mpr hreader) with hpc | ⟨hpc, hqueue⟩
      · have hpc : reader.pc = .stopped := hpc
        simp only [readerStep, hpc]
      · have hpc : reader.pc = .readable := hpc
        have hqueue : reader.queue = [] := hqueue
        simp only [readerStep, hpc, hqueue, Bool.false_eq_true, if_false, if_true]
  | recv => simp only [step, htaken, hchannel]
  | handle io => simp only [step, htaken]
  | arrive k datagram => cases he
  | wake k => cases he
  | abort k => cases he
  | datagram io peer packet => cases he
  | cleanup now => cases he
  | setConfig config => cases he

/-! ## How long it takes -/

/-- A bound on the steps that the tasks can take. -/
def work (s : ReceivePath) : ℕ :=
  s.readers.total (fun _ reader => reader.work) + 2 * s.channel.length + s.taken.toList.length

theorem work_setReader {t : ReceivePath} {reader reader' : BackendReader}
    (hreader : t.readers.lookup k = some reader) :
    (t.setReader k reader').work + reader.work = t.work + reader'.work := by
  have hold := Table.total_erase_add (fun _ r => r.work) t.readers k
  rw [hreader, Option.elim_some] at hold
  unfold work setReader
  dsimp only
  rw [Table.total_insert]
  omega

/-- Every step of a reader that changes something makes it come closer to rest. -/
theorem readerStep_work {reader : BackendReader} (hreader : s.readers.lookup k = some reader) :
    s.readerStep k reader false = s ∨ (s.readerStep k reader false).work < s.work := by
  have hdecrease : ∀ {t : ReceivePath} {reader' : BackendReader}, t.readers = s.readers →
      t.work + reader'.work < s.work + reader.work → (t.setReader k reader').work < s.work := by
    intro t reader' hreaders hlt
    have hset : (t.setReader k reader').work + reader.work = t.work + reader'.work :=
      work_setReader (hreaders ▸ hreader)
    omega
  obtain ⟨queue, pc⟩ := reader
  unfold readerStep
  cases pc with
  | readable =>
    simp only [Bool.false_eq_true, if_false]
    split
    · exact .inl rfl
    · rename_i hqueue
      exact .inr (hdecrease rfl (by simp [BackendReader.work, hqueue]))
  | reserve =>
    simp only [Bool.false_eq_true, if_false]
    split
    · exact .inl rfl
    · exact .inr (hdecrease rfl (by simp [BackendReader.work, work]))
  | acquire => exact .inr (hdecrease rfl (by simp [BackendReader.work, work]))
  | tryRecv packet =>
    simp only [Bool.false_eq_true, if_false]
    cases queue with
    | nil => exact .inr (hdecrease rfl (by simp [BackendReader.work]))
    | cons datagram queue =>
      dsimp only
      split
      · exact .inr (hdecrease rfl (by simp [BackendReader.work]; omega))
      · exact .inr (hdecrease rfl (by simp [BackendReader.work]; omega))
  | send packet =>
    refine .inr (hdecrease rfl ?_)
    simp only [BackendReader.work, work, List.length_append, List.length_singleton]
    split <;> omega
  | dropPacket packet stop =>
    refine .inr (hdecrease rfl ?_)
    simp only [BackendReader.work, work]
    split <;> omega
  | dropPermit stop =>
    refine .inr (hdecrease rfl ?_)
    by_cases hqueue : queue = []
    · cases stop <;> simp [BackendReader.work, work, ReaderPc.next, hqueue]
    · cases stop <;> simp [BackendReader.work, work, ReaderPc.next, hqueue]
  | stopped => exact .inl rfl
  | panicked => exact .inl rfl

/-- A call of the router makes no work on the way to it. -/
theorem callStep_work (cr : Crypto) (hs : s.Sound) (call : Event) :
    (s.callStep cr call).work = s.work := by
  have htotal : (s.callStep cr call).readers.total (fun _ reader => reader.work) =
      s.readers.total fun _ reader => reader.work := by
    rcases readers_callStep cr hs call with ⟨hsame, -⟩ | ⟨hfresh, -, hinsert⟩
    · rw [hsame]
    · rw [hinsert, Table.total_insert_of_lookup_none _ _ hfresh]
      rfl
  unfold work
  rw [htotal]
  rfl

/-- Each action that does something leaves less work. -/
theorem step_work (cr : Crypto) (hs : s.Sound) {e : ReceiveEvent} (he : e.IsTask)
    (hne : s.step cr e ≠ s) : (s.step cr e).work < s.work := by
  cases e with
  | reader k fail =>
    obtain rfl : fail = false := he
    cases hreader : s.readers.lookup k with
    | none => exact absurd (by simp only [step, hreader]) hne
    | some reader =>
      rw [step_reader hreader] at hne ⊢
      exact (readerStep_work hreader).resolve_left hne
  | recv =>
    simp only [step] at hne ⊢
    split
    · rename_i entry channel htaken hchannel
      simp only [work, htaken, hchannel, List.length_cons, Option.toList_some, Option.toList_none,
        List.length_nil]
      omega
    · rename_i hidle
      split at hne
      · exact absurd ‹_› (hidle _ _ ‹_›)
      · exact absurd rfl hne
  | handle io =>
    cases htaken : s.taken with
    | none => exact absurd (by simp only [step, htaken]) hne
    | some entry =>
      have hcall := callStep_work cr hs (.backend io entry.1 entry.2.deref)
      simp only [step, htaken]
      simp only [work, htaken] at hcall ⊢
      simp only [callStep, Option.toList_some, Option.toList_none, List.length_cons,
        List.length_nil, htaken] at hcall ⊢
      omega
  | arrive k datagram => cases he
  | wake k => cases he
  | abort k => cases he
  | datagram io peer packet => cases he
  | cleanup now => cases he
  | setConfig config => cases he

/-- A schedule of the tasks in which every step changes something. -/
def Advances (cr : Crypto) (s : ReceivePath) : List ReceiveEvent → Prop
  | [] => True
  | e :: ts => e.IsTask ∧ s.step cr e ≠ s ∧ Advances cr (s.step cr e) ts

theorem Advances.cons {e : ReceiveEvent} {ts : List ReceiveEvent} (he : e.IsTask)
    (hstep : s.step cr e = s') (hne : s' ≠ s) (h : Advances cr s' ts) :
    Advances cr s (e :: ts) := by
  subst hstep
  exact ⟨he, hne, h⟩

/-- A schedule in which each action does something is no longer than the work. -/
theorem Advances.length_le {ts : List ReceiveEvent} (h : Advances cr s ts) (hs : s.Sound) :
    ts.length ≤ s.work := by
  induction ts generalizing s with
  | nil => exact Nat.zero_le _
  | cons e ts ih =>
    obtain ⟨htask, hne, hrest⟩ := h
    have hwork := step_work cr hs htask hne
    have hlength := ih hrest ((step_effect cr hs e).sound hs)
    rw [List.length_cons]
    omega

/-- When all else is at rest, a datagram is received, sent over the channel, taken and handled in
seven steps, and then all is at rest. -/
theorem advances_of_arrived (cr : Crypto) {datagram : Bytes} (hs : s.Sound)
    (hreader : s.readers.lookup k = some ⟨[datagram], .readable⟩) (hfree : s.free ≠ 0)
    (hothers : ∀ j reader, j ≠ k → s.readers.lookup j = some reader →
      reader.pc = .stopped ∨ reader.pc = .readable ∧ reader.queue = [])
    (htaken : s.taken = none) (hchannel : s.channel = []) (io : Io) :
    let ts := List.replicate 5 (.reader k false) ++ [.recv, .handle io]
    Advances cr s ts ∧ AtRest cr (s.run cr ts) ∧
      (s.run cr ts).readers.lookup k = some ⟨[], .readable⟩ := by
  obtain ⟨hacquired, -⟩ := hs.pool.acquire
  obtain ⟨packet, hset, -⟩ := Packet.setLen_receive hacquired datagram
  let s₁ := s.setReader k ⟨[datagram], .reserve⟩
  let s₂ := { s₁ with free := s.free - 1 }.setReader k ⟨[datagram], .acquire⟩
  let s₃ := { s₂ with pool := s.pool.acquire.2 }.setReader k
    ⟨[datagram], .tryRecv s.pool.acquire.1⟩
  let s₄ := s₃.setReader k ⟨[], .send packet⟩
  let s₅ := { s₄ with channel := [(k, packet)] }.setReader k ⟨[], .readable⟩
  let s₆ := { s₅ with taken := some (k, packet), channel := [], free := s₅.free + 1 }
  let s₇ := { s₆.callStep cr (.backend io k packet.deref) with
    pool := s₆.pool.release packet, taken := none }
  have h₁ : s.step cr (.reader k false) = s₁ := by
    rw [step_reader hreader]
    rfl
  have h₂ : s₁.step cr (.reader k false) = s₂ := by
    rw [step_reader (setReader_lookup ..)]
    simp only [readerStep, Bool.false_eq_true, if_false]
    exact if_neg hfree
  have h₃ : s₂.step cr (.reader k false) = s₃ := by
    rw [step_reader (setReader_lookup ..)]
    rfl
  have h₄ : s₃.step cr (.reader k false) = s₄ := by
    rw [step_reader (setReader_lookup ..)]
    simp only [readerStep, Bool.false_eq_true, if_false, hset]
    rfl
  have h₅ : s₄.step cr (.reader k false) = s₅ := by
    rw [step_reader (setReader_lookup ..)]
    simp only [readerStep]
    rw [show s₄.channel = [] from hchannel]
    rfl
  have h₆ : s₅.step cr .recv = s₆ := by
    simp only [step]
    rw [show s₅.taken = none from htaken]
    rfl
  have h₇ : s₆.step cr (.handle io) = s₇ := rfl
  have hrun : s.run cr (List.replicate 5 (.reader k false) ++ [.recv, .handle io]) = s₇ := by
    simp only [run, List.replicate_succ, List.replicate_zero, List.cons_append, List.nil_append,
      runFrom_cons, runFrom_nil, h₁, h₂, h₃, h₄, h₅, h₆, h₇]
  have hs₆ : s₆.Sound := by
    have hsound := run_sound cr hs (List.replicate 5 (.reader k false) ++ [.recv])
    simpa only [run, List.replicate_succ, List.replicate_zero, List.cons_append, List.nil_append,
      runFrom_cons, runFrom_nil, h₁, h₂, h₃, h₄, h₅, h₆] using hsound
  have hlook : ∀ j, s₆.readers.lookup j =
      if j = k then some ⟨[], .readable⟩ else s.readers.lookup j := by
    intro j
    simp only [s₆, s₅, s₄, s₃, s₂, s₁, setReader, Table.lookup_insert]
    by_cases hj : j = k
    · simp only [if_pos hj]
    · simp only [if_neg hj]
  -- the call may have opened a connection, whose reader is at rest
  have hreaders : ∀ j, s₇.readers.lookup j = s₆.readers.lookup j ∨
      j ≠ k ∧ s₇.readers.lookup j = some ⟨[], .readable⟩ := by
    intro j
    rcases readers_callStep cr hs₆ (.backend io k packet.deref) with ⟨hsame, -⟩ | ⟨hnew, -, hopened⟩
    · exact Or.inl (congrArg (Table.lookup · j) hsame)
    · have hlookup : s₇.readers.lookup j = _ :=
        (congrArg (Table.lookup · j) hopened).trans (Table.lookup_insert ..)
      rw [hlookup]
      split
      · rename_i hj
        refine Or.inr ⟨?_, rfl⟩
        rintro rfl
        rw [← hj, hlook, if_pos rfl] at hnew
        cases hnew
      · exact Or.inl rfl
  have hk : s₇.readers.lookup k = some ⟨[], .readable⟩ := by
    rcases hreaders k with hsame | ⟨hne, -⟩
    · rw [hsame, hlook, if_pos rfl]
    · exact absurd rfl hne
  intro ts
  rw [hrun]
  refine ⟨?_, atRest_of_waiting rfl rfl ?_, hk⟩
  · refine .cons rfl h₁ (setReader_ne hreader (by simp)) ?_
    refine .cons rfl h₂ (setReader_ne (setReader_lookup ..) (by simp)) ?_
    refine .cons rfl h₃ (setReader_ne (setReader_lookup ..) (by simp)) ?_
    refine .cons rfl h₄ (setReader_ne (setReader_lookup ..) (by simp)) ?_
    refine .cons rfl h₅ (setReader_ne (setReader_lookup ..) (by simp)) ?_
    refine .cons trivial h₆ (fun heq => ?_) (.cons trivial h₇ (fun heq => ?_) trivial)
    · cases (congrArg ReceivePath.taken heq).trans htaken
    · cases congrArg ReceivePath.taken heq
  · intro e he
    have hsome := Table.mem_toList.mp he
    rcases hreaders e.1 with hsame | ⟨-, hopened⟩
    · rw [hsame, hlook] at hsome
      split at hsome
      · exact Or.inr (Option.some.inj hsome ▸ ⟨rfl, rfl⟩)
      · exact hothers e.1 e.2 ‹_› hsome
    · exact Or.inr (Option.some.inj (hopened.symm.trans hsome) ▸ ⟨rfl, rfl⟩)

/-- **No deadlock.** After any run, the tasks can take only so many steps until none of them can
move, whatever their order; and when none can move, everything that arrived at the socket of a
reader that has not stopped has been handed to the router, and all permits are left. -/
theorem run_drains (cr : Crypto) (config : Config) (idleTimeout : Duration) (limits : Limits)
    (es ts : List ReceiveEvent)
    (hadvances : Advances cr ((start config idleTimeout limits).run cr es) ts) :
    ts.length ≤ ((start config idleTimeout limits).run cr es).work ∧
    (AtRest cr ((start config idleTimeout limits).run cr (es ++ ts)) →
      ((start config idleTimeout limits).run cr (es ++ ts)).free = channelCapacity ∧
      ∀ k, (∀ reader, ((start config idleTimeout limits).run cr (es ++ ts)).readers.lookup k =
          some reader → reader.pc ≠ .stopped) →
        handedFor k ((start config idleTimeout limits).calls cr (es ++ ts)) =
          ((start config idleTimeout limits).arrived cr k (es ++ ts)).map
            (·.take maxDatagramSize)) := by
  have hstart := start_sound config idleTimeout limits
  refine ⟨hadvances.length_le (run_sound cr hstart es), fun hrest => ?_⟩
  have hs := run_sound cr hstart (es ++ ts)
  refine ⟨hrest.free hs, fun k hrunning => ?_⟩
  have hflow := run_flow cr hstart k (es ++ ts)
  rw [hrest.inFlight hs hrunning, List.append_nil] at hflow
  exact hflow

/-- A datagram arrives at the socket of the sample client's path, and is handed to the router. -/
theorem run_drains_arrived :
    let es : List ReceiveEvent :=
      [.datagram (sampleIo 0) samplePeer helloPacket, .arrive 0 [1, 2, 3]]
    let ts : List ReceiveEvent :=
      List.replicate 5 (.reader 0 false) ++ [.recv, .handle (sampleIo 0)]
    Advances sampleCrypto ((start sampleConfig 60 .default).run sampleCrypto es) ts ∧
      7 ≤ ((start sampleConfig 60 .default).run sampleCrypto es).work ∧
      ((start sampleConfig 60 .default).run sampleCrypto (es ++ ts)).free = channelCapacity ∧
      handedFor 0 ((start sampleConfig 60 .default).calls sampleCrypto (es ++ ts)) =
        [[1, 2, 3]] := by
  intro es ts
  have hreader : ((start sampleConfig 60 .default).run sampleCrypto es).readers.toList =
      [(0, ⟨[[1, 2, 3]], .readable⟩)] := by decide +kernel
  have hs := run_sound sampleCrypto (start_sound sampleConfig 60 .default) es
  obtain ⟨hadvances, hrest, hreader⟩ := advances_of_arrived sampleCrypto hs
    (Table.mem_toList.mp (hreader ▸ List.mem_cons_self)) (by decide +kernel)
    (fun j reader hj hsome => by
      cases List.mem_singleton.mp (hreader ▸ Table.mem_toList.mpr hsome)
      exact absurd rfl hj)
    (by decide +kernel) (by decide +kernel) (sampleIo 0)
  have hrun : (start sampleConfig 60 .default).run sampleCrypto (es ++ ts) =
      ((start sampleConfig 60 .default).run sampleCrypto es).run sampleCrypto ts :=
    runFrom_append ..
  obtain ⟨hlength, hdrained⟩ := run_drains sampleCrypto sampleConfig 60 .default es ts hadvances
  obtain ⟨hfree, hhanded⟩ := hdrained (hrun ▸ hrest)
  have hrunning : ∀ reader, ((start sampleConfig 60 .default).run sampleCrypto
      (es ++ ts)).readers.lookup 0 = some reader → reader.pc ≠ .stopped := by
    intro reader hsome
    rw [hrun, hreader] at hsome
    rw [← Option.some.inj hsome]
    nofun
  have harrived : ((start sampleConfig 60 .default).arrived sampleCrypto 0 (es ++ ts)).map
      (·.take maxDatagramSize) = [[1, 2, 3]] := by decide +kernel
  exact ⟨hadvances, hlength, hfree, (hhanded 0 hrunning).trans harrived⟩

end ReceivePath

end SniRouter
