import SniRouter.Tcp.Handshake

/-!
# Handing over to the kernel

A frontend handshake that succeeds has fed rustls a whole number of records that start the
client's stream, and the kernel finds the rest of the stream on the socket
(`tlsHandshake_handsOver`). The invariant of the loop says where in the stream a round begins;
what a round does to the session is said once, by `Handshake.Takes`.
-/

namespace SniRouter

section Model

variable {σ : Type} (tls : ServerConnection σ)

/-! ## What processing does to a session -/

/-- From `c` to `c'` the bytes `u` are fed and the plaintext `out` is read, all that is
announced. -/
structure Session.Feeds (u out : Bytes) (c c' : Session σ) : Prop where
  log : ∃ l, c'.log = c.log ++ l ∧ l.flatMap Prod.fst = u
  announced : c'.announced = c.announced + out.length
  emitted : c'.emitted = c.emitted ++ out
  stays : c.isHandshaking tls = false → c'.isHandshaking tls = false

namespace Session

variable {tls} {c c' c'' : Session σ}

theorem Feeds.refl (c : Session σ) : c.Feeds tls [] [] c :=
  ⟨⟨[], (List.append_nil _).symm, rfl⟩, rfl, (List.append_nil _).symm, id⟩

theorem Feeds.trans {u u' out out' : Bytes} (h : c.Feeds tls u out c')
    (h' : c'.Feeds tls u' out' c'') : c.Feeds tls (u ++ u') (out ++ out') c'' := by
  obtain ⟨l, hl, rfl⟩ := h.log
  obtain ⟨l', hl', rfl⟩ := h'.log
  refine ⟨⟨l ++ l', ?_, List.flatMap_append⟩, ?_, ?_, fun hover => h'.stays (h.stays hover)⟩
  · rw [hl', hl, List.append_assoc]
  · rw [h'.announced, h.announced, List.length_append, Nat.add_assoc]
  · rw [h'.emitted, h.emitted, List.append_assoc]

theorem Feeds.wrote {u out : Bytes} (h : c.Feeds tls u out c') (h' : c'.Wrote tls c'') :
    c.Feeds tls u out c'' := by
  obtain ⟨l, hl, hfed⟩ := h.log
  refine ⟨⟨l, h'.log.trans hl, hfed⟩, h'.announced.trans h.announced, h'.emitted.trans h.emitted,
    fun hover => ?_⟩
  rw [h'.handshaking]
  exact h.stays hover

theorem Feeds.fed {u out : Bytes} (h : c.Feeds tls u out c') : c'.fed = c.fed ++ u := by
  obtain ⟨l, hl, rfl⟩ := h.log
  rw [Session.fed, hl, List.flatMap_append]
  rfl

/-- One call of `read_tls`, the processing after it and the reading of its plaintext. -/
theorem feeds_of_calls {input : Bytes} {n count : ℕ} {out : Bytes} {c₁ c₂ c₃ : Session σ}
    (hread : c.readTls tls input = .ok (n, c₁))
    (hprocess : c₁.processNewPackets tls = .ok (count, c₂))
    (hdrain : c₂.readExact tls count = .ok (out, c₃) ∨ count = 0 ∧ out = [] ∧ c₃ = c₂) :
    n ≤ input.length ∧ c.Feeds tls (input.take n) out c₃ ∧
      c₃.log = c.log ++ [(input.take n, c.isHandshaking tls)] := by
  obtain ⟨⟨n', s₁⟩, hs₁, heq⟩ := except_bind_eq_ok hread
  cases heq
  obtain ⟨⟨count', s₂⟩, hs₂, heq⟩ := except_bind_eq_ok hprocess
  cases heq
  have hover₂ : c.isHandshaking tls = false → tls.isHandshaking s₂ = false := fun hover =>
    tls.processNewPackets_over hs₂ (tls.readTls_over hs₁ hover)
  refine ⟨tls.readTls_le hs₁, ?_⟩
  rcases hdrain with hdrain | ⟨rfl, rfl, rfl⟩
  · obtain ⟨⟨out', s₃⟩, hs₃, heq⟩ := except_bind_eq_ok hdrain
    cases heq
    refine ⟨⟨⟨_, rfl, by simp⟩, ?_, rfl, fun hover => ?_⟩, rfl⟩
    · rw [tls.readExact_length hs₃]
    · exact tls.readExact_over hs₃ (hover₂ hover)
  · exact ⟨⟨⟨_, rfl, by simp⟩, rfl, (List.append_nil _).symm, hover₂⟩, rfl⟩

end Session

section Processing

variable {tls} {c c' : Session σ} {record bytes plaintext plaintext' : Bytes}

/-- One turn of the loop of `processTlsRecord`, and the rest of it. -/
theorem feeds_cons {pos n : ℕ} {out out' chunk : Bytes} {flag : Bool} {c₁ : Session σ}
    (hfeeds : c.Feeds tls ((record.drop pos).take n) out c₁)
    (hlog : c₁.log = c.log ++ [(chunk, flag)])
    (hrest : c₁.Feeds tls (record.drop (pos + n)) out' c') :
    c.Feeds tls (record.drop pos) (out ++ out') c' ∧
      ∃ l, c'.log = c.log ++ (chunk, flag) :: l := by
  have hfed : (record.drop pos).take n ++ record.drop (pos + n) = record.drop pos := by
    rw [← List.drop_drop, List.take_append_drop]
  refine ⟨hfed ▸ hfeeds.trans hrest, ?_⟩
  obtain ⟨l, hl, -⟩ := hrest.log
  exact ⟨l, by rw [hl, hlog, List.append_assoc, List.singleton_append]⟩

/-- The loop of `processTlsRecord`, by induction on what is left of the record. The first call
finds the handshake in the state the record found it. -/
theorem processFrom_feeds {pos : ℕ} (hpos : pos ≤ record.length)
    (h : processFrom tls c record plaintext pos = .ok (c', plaintext')) :
    ∃ out, plaintext' = plaintext ++ out ∧ c.Feeds tls (record.drop pos) out c' ∧
      (pos < record.length → ∃ chunk l, c'.log = c.log ++ (chunk, c.isHandshaking tls) :: l) := by
  fun_induction processFrom tls c record plaintext pos with
  | case1 => cases h
  | case2 => cases h
  | case3 => cases h
  | case4 => cases h
  -- what was read is processed, with plaintext or without, and the loop goes on behind it
  | case5 c plaintext pos hlt n c₁ hread hn count c₂ hprocess hcount out c₃ hdrain ih =>
    obtain ⟨hle, hfeeds, hlog⟩ := Session.feeds_of_calls hread hprocess (Or.inl hdrain)
    rw [List.length_drop] at hle
    obtain ⟨out', hplaintext, hrest, -⟩ := ih (by omega) h
    obtain ⟨hall, l, hl⟩ := feeds_cons hfeeds hlog hrest
    exact ⟨out ++ out', by rw [hplaintext, List.append_assoc], hall, fun _ => ⟨_, l, hl⟩⟩
  | case6 c plaintext pos hlt n c₁ hread hn count c₂ hprocess hcount ih =>
    obtain ⟨hle, hfeeds, hlog⟩ := Session.feeds_of_calls hread hprocess
      (Or.inr ⟨Nat.eq_zero_of_not_pos hcount, rfl, rfl⟩)
    rw [List.length_drop] at hle
    obtain ⟨out', hplaintext, hrest, -⟩ := ih (by omega) h
    obtain ⟨hall, l, hl⟩ := feeds_cons hfeeds hlog hrest
    exact ⟨out', hplaintext, hall, fun _ => ⟨_, l, hl⟩⟩
  | case7 c plaintext pos hlt =>
    cases h
    refine ⟨[], (List.append_nil _).symm, ?_, fun hlt' => absurd hlt' hlt⟩
    rw [List.drop_of_length_le (not_lt.mp hlt)]
    exact Session.Feeds.refl c'

/-- A processed record is fed, and its plaintext is kept. -/
theorem processTlsRecord_feeds
    (h : processTlsRecord tls c record plaintext = .ok (c', plaintext')) :
    ∃ out, plaintext' = plaintext ++ out ∧ c.Feeds tls record out c' := by
  obtain ⟨out, hplaintext, hfeeds, -⟩ := processFrom_feeds (Nat.zero_le _) h
  exact ⟨out, hplaintext, hfeeds⟩

/-- The bytes are a whole number of TLS records. -/
def WholeRecords (bytes : Bytes) : Prop :=
  ∃ records : List Bytes, (∀ record ∈ records, IsTlsRecord record) ∧ bytes = records.flatten

theorem wholeRecords_nil : WholeRecords [] := ⟨[], by simp, rfl⟩

theorem WholeRecords.append (h : WholeRecords bytes) {bytes' : Bytes} (h' : WholeRecords bytes') :
    WholeRecords (bytes ++ bytes') := by
  obtain ⟨records, hrecords, rfl⟩ := h
  obtain ⟨records', hrecords', rfl⟩ := h'
  refine ⟨records ++ records', fun record hmem => ?_, List.flatten_append.symm⟩
  rcases List.mem_append.mp hmem with hmem | hmem
  · exact hrecords record hmem
  · exact hrecords' record hmem

theorem wholeRecords_singleton (h : IsTlsRecord record) : WholeRecords record :=
  ⟨[record], by simpa using h, by simp⟩

/-- Everything that is buffered is processed, or nothing is returned. -/
theorem processBufferedTlsRecords_feeds
    (h : processBufferedTlsRecords tls c bytes plaintext = .ok (c', plaintext')) :
    WholeRecords bytes ∧ ∃ out, plaintext' = plaintext ++ out ∧ c.Feeds tls bytes out c' := by
  fun_induction processBufferedTlsRecords tls c bytes plaintext with
  | case1 c bytes plaintext hempty =>
    cases h
    obtain rfl : bytes = [] := List.isEmpty_iff.mp hempty
    exact ⟨wholeRecords_nil, [], (List.append_nil _).symm, Session.Feeds.refl c'⟩
  | case2 => cases h
  | case3 => cases h
  | case4 => cases h
  | case5 c bytes plaintext hempty len hlen hshort c₁ plaintext₁ hprocessed ih =>
    obtain ⟨hwhole, out', rfl, hrest⟩ := ih h
    obtain ⟨out, rfl, hfeeds⟩ := processTlsRecord_feeds hprocessed
    have hrecord := isTlsRecord_take hlen (not_lt.mp hshort)
    rw [← List.take_append_drop len bytes]
    exact ⟨(wholeRecords_singleton hrecord).append hwhole, out ++ out', List.append_assoc ..,
      hfeeds.trans hrest⟩

end Processing

/-! ## Rounds -/

/-- The records fed so far start the stream `initial ++ socket`, of which `initial` was read
before. As long as bytes are buffered, they are the rest of these and the socket is untouched. -/
structure Handshake.Inv (initial socket : Bytes) (h : Handshake σ) : Prop where
  records : WholeRecords h.session.fed
  bytes : (h.session.fed ++ h.bytes = initial ∧ h.stream.unread = socket) ∨
    (h.bytes = [] ∧ initial <+: h.session.fed ∧
      h.session.fed ++ h.stream.unread = initial ++ socket)
  plaintext : h.plaintext = h.session.emitted
  announced : h.plaintext.length = h.session.announced

/-- rustls stopped at the end of a record, and the bytes behind it are still on the socket. All
that was read before is covered, and what had to be read beyond ends with the record that ended
the handshake: when it was begun the handshake was going on. -/
structure Handshake.HandsOver (initial socket : Bytes) (h : Handshake σ) : Prop where
  records : WholeRecords h.session.fed
  stream : h.session.fed ++ h.stream.unread = initial ++ socket
  covers : initial <+: h.session.fed
  finished : h.session.isHandshaking tls = false
  last : initial.length < h.session.fed.length → ∃ before chunk rest,
    h.session.log = before ++ (chunk, true) :: rest ∧ WholeRecords (before.flatMap Prod.fst) ∧
      IsTlsRecord (chunk ++ rest.flatMap Prod.fst)
  plaintext : h.plaintext = h.session.emitted
  announced : h.plaintext.length = h.session.announced

/-- One round to the next, while the handshake goes on. -/
def Handshake.GoesOn (h h' : Handshake σ) : Prop :=
  h.round tls = .ok h' ∧ h'.session.isHandshaking tls = true

section Rounds

variable {tls} {initial socket : Bytes} {h h' : Handshake σ}

theorem Handshake.inv_start (state : σ) (stream : TcpStream) (bytes : Bytes) :
    (Handshake.start state stream bytes).Inv bytes stream.unread :=
  ⟨wholeRecords_nil, Or.inl ⟨rfl, rfl⟩, rfl, rfl⟩

/-- A round feeds its record, and when the handshake is over then also everything that is left
in the buffer. -/
theorem Handshake.Takes.feeds {record plaintext : Bytes} {session : Session σ}
    (htakes : h.Takes tls h' record session plaintext) :
    ∃ out tail, h'.plaintext = h.plaintext ++ out ∧
      h.session.Feeds tls (record ++ tail) out h'.session ∧
      (h'.session.isHandshaking tls = true ∧ tail = [] ∨
        h'.session.isHandshaking tls = false ∧ tail = h'.bytes ∧ WholeRecords h'.bytes) := by
  obtain ⟨out, hplaintext, hfeeds⟩ := processTlsRecord_feeds htakes.processed
  obtain ⟨session', hrest, hwrote⟩ := htakes.buffered
  unfold processIfOver at hrest
  split at hrest
  · rename_i hgoing
    injection hrest with hrest
    obtain ⟨rfl, hsame⟩ := Prod.mk.inj hrest
    refine ⟨out, [], hsame ▸ hplaintext, ?_, Or.inl ⟨hwrote.handshaking.trans hgoing, rfl⟩⟩
    rw [List.append_nil]
    exact hfeeds.wrote hwrote
  · rename_i hover
    have hover : session.isHandshaking tls = false := Bool.not_eq_true _ ▸ hover
    obtain ⟨hwhole, out', hplaintext', hfeeds'⟩ := processBufferedTlsRecords_feeds hrest
    refine ⟨out ++ out', h'.bytes, ?_, (hfeeds.trans hfeeds').wrote hwrote,
      Or.inr ⟨hwrote.handshaking.trans (hfeeds'.stays hover), rfl, hwhole⟩⟩
    rw [hplaintext', hplaintext, List.append_assoc]

/-- When nothing is left in the buffer, the record is the last thing that was fed. -/
theorem Handshake.Takes.log {record plaintext : Bytes} {session : Session σ}
    (htakes : h.Takes tls h' record session plaintext) (hnil : h'.bytes = []) :
    ∃ chunk l, h'.session.log = h.session.log ++ (chunk, h.session.isHandshaking tls) :: l ∧
      chunk ++ l.flatMap Prod.fst = record := by
  obtain ⟨session', hrest, hwrote⟩ := htakes.buffered
  -- with an empty buffer nothing is processed after the record
  have hsame : session' = session := by
    unfold processIfOver at hrest
    rw [hnil] at hrest
    unfold processBufferedTlsRecords at hrest
    simp only [List.isEmpty_nil, if_true, ite_self] at hrest
    cases hrest
    rfl
  obtain ⟨out, -, hfeeds, hfirst⟩ := processFrom_feeds (Nat.zero_le _) htakes.processed
  have hpos := htakes.isRecord.1
  obtain ⟨chunk, l, hl⟩ := hfirst (by omega)
  obtain ⟨l', hl', hfed⟩ := hfeeds.log
  obtain rfl : l' = (chunk, h.session.isHandshaking tls) :: l :=
    List.append_cancel_left (hl'.symm.trans hl)
  refine ⟨chunk, l, ?_, hfed⟩
  rw [hwrote.log, hsame, hl]

/-- Where the stream stands behind the record of a round. -/
theorem Handshake.Takes.bytes_of_inv {record plaintext : Bytes} {session : Session σ}
    (htakes : h.Takes tls h' record session plaintext) (hinv : h.Inv initial socket) :
    (h.session.fed ++ record ++ h'.bytes = initial ∧ h'.stream.unread = socket) ∨
      (h'.bytes = [] ∧ initial <+: h.session.fed ++ record ∧
        h.session.fed ++ record ++ h'.stream.unread = initial ++ socket) := by
  rcases htakes.bytes with ⟨hbytes, hunread⟩ | ⟨hnil, hshort, happend⟩
  · rcases hinv.bytes with ⟨hinitial, hsocket⟩ | ⟨hempty, -⟩
    · left
      rw [List.append_assoc, ← hbytes]
      exact ⟨hinitial, hunread.trans hsocket⟩
    · -- a record cannot be taken from an empty buffer
      have hpos := htakes.isRecord.1
      rw [hempty] at hbytes
      rw [(List.append_eq_nil_iff.mp hbytes.symm).1] at hpos
      cases hpos
  · right
    refine ⟨hnil, ?_⟩
    rw [List.append_assoc, happend]
    rcases hinv.bytes with ⟨hinitial, hsocket⟩ | ⟨hempty, hcovers, hstream⟩
    · rw [← hinitial, ← hsocket, List.append_assoc]
      refine ⟨(List.prefix_append_right_inj _).mpr ?_, rfl⟩
      have hrecord : record <+: h.bytes ++ h.stream.unread := happend ▸ List.prefix_append ..
      exact List.prefix_of_prefix_length_le (List.prefix_append ..) hrecord hshort.le
    · rw [hempty, List.nil_append]
      exact ⟨hcovers.trans (List.prefix_append ..), hstream⟩

/-- A round that leaves the handshake going on. -/
theorem Handshake.Inv.round (hinv : h.Inv initial socket) (hround : h.round tls = .ok h')
    (hgoing : h'.session.isHandshaking tls = true) : h'.Inv initial socket := by
  obtain ⟨record, session, plaintext, htakes⟩ := h.round_takes tls hround
  obtain ⟨out, tail, hplaintext, hfeeds, ⟨-, rfl⟩ | ⟨hover, -⟩⟩ := htakes.feeds
  · rw [List.append_nil] at hfeeds
    refine ⟨?_, ?_, ?_, ?_⟩
    · rw [hfeeds.fed]
      exact hinv.records.append (wholeRecords_singleton htakes.isRecord)
    · rw [hfeeds.fed]
      exact htakes.bytes_of_inv hinv
    · rw [hplaintext, hinv.plaintext, hfeeds.emitted]
    · rw [hplaintext, List.length_append, hinv.announced, hfeeds.announced]
  · rw [hgoing] at hover
    cases hover

/-- The round in which the handshake is found to be over. -/
theorem Handshake.Inv.handsOver (hinv : h.Inv initial socket)
    (hbefore : h.session.isHandshaking tls = true) (hround : h.round tls = .ok h')
    (hafter : h'.session.isHandshaking tls = false) : h'.HandsOver tls initial socket := by
  obtain ⟨record, session, plaintext, htakes⟩ := h.round_takes tls hround
  obtain ⟨out, tail, hplaintext, hfeeds, ⟨hgoing, -⟩ | ⟨-, rfl, hwhole⟩⟩ := htakes.feeds
  · rw [hafter] at hgoing
    cases hgoing
  have hfed : h'.session.fed = h.session.fed ++ record ++ h'.bytes := by
    rw [hfeeds.fed, List.append_assoc]
  have hplaintexts : h'.plaintext = h'.session.emitted ∧
      h'.plaintext.length = h'.session.announced := by
    rw [hplaintext, hfeeds.emitted, hfeeds.announced, List.length_append, hinv.announced,
      hinv.plaintext]
    exact ⟨rfl, rfl⟩
  have hrecords : WholeRecords h'.session.fed := by
    rw [hfed]
    exact (hinv.records.append (wholeRecords_singleton htakes.isRecord)).append hwhole
  rcases htakes.bytes_of_inv hinv with ⟨hinitial, hsocket⟩ | ⟨hnil, hcovers, hstream⟩
  · -- all that was fed had been read before
    rw [← hfed] at hinitial
    refine ⟨hrecords, by rw [hinitial, hsocket], hinitial ▸ List.prefix_refl _, hafter,
      fun hlonger => ?_, hplaintexts.1, hplaintexts.2⟩
    rw [hinitial] at hlonger
    exact absurd hlonger (lt_irrefl _)
  · rw [hnil, List.append_nil] at hfed
    obtain ⟨chunk, rest, hlog, hrecord⟩ := htakes.log hnil
    rw [hbefore] at hlog
    refine ⟨hrecords, hfed ▸ hstream, hfed ▸ hcovers, hafter, fun _ => ?_, hplaintexts.1,
      hplaintexts.2⟩
    exact ⟨h.session.log, chunk, rest, hlog, hinv.records, hrecord ▸ htakes.isRecord⟩

/-- A loop that ends well has fed whole records and left the rest in the socket. -/
theorem Handshake.loop_handsOver {kernel : KernelTls} {result : Handshake σ}
    (hinv : h.Inv initial socket) (hbefore : h.session.isHandshaking tls = true)
    (hloop : h.loop tls kernel = .ok result) : result.HandsOver tls initial socket := by
  fun_induction Handshake.loop tls kernel h with
  | case1 => cases hloop
  | case2 h h' hround hgoing ih => exact ih (hinv.round hround hgoing) hgoing hloop
  | case3 => cases hloop
  | case4 h h' hround hover hkernel =>
    cases hloop
    exact hinv.handsOver hbefore hround (Bool.not_eq_true _ ▸ hover)

/-! ## A tail that ends inside a record -/

/-- Only one record starts a stream. -/
theorem IsTlsRecord.eq_of_prefix {record record' bytes : Bytes} (h : IsTlsRecord record)
    (h' : IsTlsRecord record') (hpre : record <+: bytes) (hpre' : record' <+: bytes) :
    record = record' := by
  obtain ⟨hlong, hlen⟩ := h
  obtain ⟨hlong', hlen'⟩ := h'
  have hu16 := u16At_prefix_eq hpre (show 3 + 1 < record.length by omega)
  have hu16' := u16At_prefix_eq hpre' (show 3 + 1 < record'.length by omega)
  have hsame : record.length = record'.length := by omega
  exact (List.prefix_of_prefix_length_le hpre hpre' hsame.le).eq_of_length hsame

/-- A round fails when it ends the handshake and leaves such a tail. -/
theorem Handshake.round_of_tail {record tail plaintext : Bytes} {session : Session σ}
    (hbytes : h.bytes = record ++ tail) (hrecord : IsTlsRecord record)
    (hprocessed : processTlsRecord tls h.session record h.plaintext = .ok (session, plaintext))
    (hover : session.isHandshaking tls = false) (htail : ¬WholeRecords tail) :
    ∃ e, h.round tls = .error e := by
  cases hround : h.round tls with
  | error e => exact ⟨e, rfl⟩
  | ok h' =>
    obtain ⟨record', session', plaintext', htakes⟩ := h.round_takes tls hround
    have hpre : record <+: h.bytes ++ h.stream.unread := by
      rw [hbytes, List.append_assoc]
      exact List.prefix_append ..
    have hpre' : record' <+: h.bytes ++ h.stream.unread := by
      rcases htakes.bytes with ⟨hbytes', -⟩ | ⟨-, -, happend⟩
      · rw [hbytes', List.append_assoc]
        exact List.prefix_append ..
      · exact happend ▸ List.prefix_append ..
    obtain rfl := hrecord.eq_of_prefix htakes.isRecord hpre hpre'
    have hleft : tail = h'.bytes := by
      rcases htakes.bytes with ⟨hbytes', -⟩ | ⟨-, hshort, -⟩
      · exact List.append_cancel_left (hbytes.symm.trans hbytes')
      · rw [hbytes, List.length_append] at hshort
        omega
    have hsame := htakes.processed
    rw [hprocessed] at hsame
    cases hsame
    obtain ⟨session'', hrest, -⟩ := htakes.buffered
    rw [processIfOver, hover, ← hleft] at hrest
    exact absurd (processBufferedTlsRecords_feeds hrest).1 htail

theorem Handshake.loop_of_goesOn (kernel : KernelTls) (hstep : h.GoesOn tls h') :
    h.loop tls kernel = h'.loop tls kernel := by
  obtain ⟨hround, hgoing⟩ := hstep
  conv => lhs; unfold Handshake.loop
  split
  · rename_i e herror
    rw [hround] at herror
    cases herror
  · rename_i h'' hok
    rw [hround] at hok
    cases hok
    rw [if_pos hgoing]

/-- Rounds in which the handshake goes on. -/
theorem Handshake.goesOn_run (kernel : KernelTls)
    (hrun : Relation.ReflTransGen (Handshake.GoesOn tls) h h') (hinv : h.Inv initial socket) :
    h'.Inv initial socket ∧ h.loop tls kernel = h'.loop tls kernel := by
  induction hrun with
  | refl => exact ⟨hinv, rfl⟩
  | tail _ hstep ih =>
    exact ⟨ih.1.round hstep.1 hstep.2, ih.2.trans (Handshake.loop_of_goesOn kernel hstep)⟩

/-- A tail that is cut inside a record ends the loop with an error. -/
theorem Handshake.loop_of_tail {kernel : KernelTls} {record tail plaintext : Bytes}
    {session : Session σ} (hinv : h.Inv initial socket)
    (hinitial : initial = h.session.fed ++ record ++ tail) (hrecord : IsTlsRecord record)
    (hprocessed : processTlsRecord tls h.session record h.plaintext = .ok (session, plaintext))
    (hover : session.isHandshaking tls = false) (htail : ¬WholeRecords tail) :
    ∃ e, h.loop tls kernel = .error e := by
  have hbytes : h.bytes = record ++ tail := by
    rcases hinv.bytes with ⟨hfed, -⟩ | ⟨-, hcovers, -⟩
    · rw [hinitial, List.append_assoc] at hfed
      exact List.append_cancel_left hfed
    · -- the record is not fed yet
      have hle := hcovers.length_le
      have hpos := hrecord.1
      rw [hinitial, List.length_append, List.length_append] at hle
      omega
  obtain ⟨e, hround⟩ := Handshake.round_of_tail hbytes hrecord hprocessed hover htail
  refine ⟨e, ?_⟩
  unfold Handshake.loop
  split
  · rename_i e' herror
    rw [hround] at herror
    cases herror
    rfl
  · rename_i h' hok
    rw [hround] at hok
    cases hok

end Rounds

/-- **Handing over to the kernel.** A handshake that succeeds stops at an exact record boundary
of the stream `bytes ++ stream.unread`. If it ends with a record that had been read before, and
the bytes read behind that record end inside another one, then it fails. -/
theorem tlsHandshake_handsOver (kernel : KernelTls) (stream : TcpStream) (bytes : Bytes) :
    (∀ h, tlsHandshake tls kernel stream bytes = .ok h → h.HandsOver tls bytes stream.unread) ∧
    ∀ state h record tail session plaintext, tls.new = .ok state →
      Relation.ReflTransGen (Handshake.GoesOn tls) (Handshake.start state stream bytes) h →
      bytes = h.session.fed ++ record ++ tail → IsTlsRecord record →
      processTlsRecord tls h.session record h.plaintext = .ok (session, plaintext) →
      session.isHandshaking tls = false → ¬WholeRecords tail →
        ∃ e, tlsHandshake tls kernel stream bytes = .error e := by
  have hstart : ∀ state : σ, (Handshake.start state stream bytes).Inv bytes stream.unread :=
    fun state => Handshake.inv_start ..
  refine ⟨fun h hok => ?_, fun state h record tail session plaintext hnew hrun hbytes hrecord
    hprocessed hover htail => ?_⟩
  · unfold tlsHandshake at hok
    split at hok
    · cases hok
    · rename_i state hnew
      exact Handshake.loop_handsOver (hstart state) (tls.new_handshaking hnew) hok
  · obtain ⟨hinv, hloop⟩ := Handshake.goesOn_run kernel hrun (hstart state)
    obtain ⟨e, he⟩ := Handshake.loop_of_tail hinv hbytes hrecord hprocessed hover htail
    refine ⟨e, ?_⟩
    rw [tlsHandshake, hnew]
    exact hloop.trans he

end Model

/-! ## A sample server -/

/-- The state of the sample server: the records it has processed, what it has read and not
processed, its plaintext, and what it has to write. -/
structure SampleTls where
  records : ℕ
  input : Bytes
  plaintext : Bytes
  output : Bytes

/-- A server that answers the first record, finishes the handshake with the second one, and
takes the payloads of the others for plaintext. -/
def sampleTls : ServerConnection SampleTls where
  new := .ok ⟨0, [], [], []⟩
  readTls s input := .ok (input.length, { s with input := s.input ++ input })
  processNewPackets s :=
    let plaintext := if s.records < 2 then s.plaintext else s.plaintext ++ s.input.drop 5
    .ok (plaintext.length,
      { records := s.records + 1
        input := []
        plaintext := plaintext
        output := if s.records = 0 then s.output ++ [22, 3, 3, 0, 1, 2] else s.output })
  readExact s count :=
    if count ≤ s.plaintext.length then
      .ok (s.plaintext.take count, { s with plaintext := s.plaintext.drop count })
    else .error "failed to fill whole buffer"
  isHandshaking s := s.records < 2
  sendable s := s.output.length
  writeTls s := .ok (s.output, { s with output := [] })
  negotiatedCipherSuite _ := some 0x1301
  dangerousExtractSecrets _ := .ok ([], [])
  new_handshaking := by
    intro s h
    cases h
    rfl
  readTls_le := by
    intro s input n s' h
    cases h
    exact le_rfl
  readExact_length := by
    intro s count out s' h
    split at h
    · cases h
      exact List.length_take_of_le ‹_›
    · cases h
  writeTls_lt := by
    intro s out s' hpos h
    cases h
    exact hpos
  writeTls_handshaking := by
    intro s out s' h
    cases h
    rfl
  readTls_over := by
    intro s input n s' h hover
    cases h
    exact hover
  processNewPackets_over := by
    intro s n s' h hover
    cases h
    simp only [decide_eq_false_iff_not, not_lt] at hover ⊢
    exact Nat.le_succ_of_le hover
  readExact_over := by
    intro s count out s' h hover
    split at h
    · cases h
      exact hover
    · cases h

def sampleKernel : KernelTls := ⟨true, fun _ keys => .ok keys, fun _ => true, fun _ => true⟩

/-- A client whose remaining bytes are `unread`. -/
def sampleStream (unread : Bytes) : TcpStream :=
  ⟨unread, [], none, .ok (.v4 0xc6336401 1000), .ok (.v4 0xc0000201 443)⟩

/-- What follows a record in whole records are whole records. -/
theorem WholeRecords.of_append {record bytes : Bytes} (h : WholeRecords (record ++ bytes))
    (hrecord : IsTlsRecord record) : WholeRecords bytes := by
  obtain ⟨records, hrecords, heq⟩ := h
  cases records with
  | nil =>
    have hpos := hrecord.1
    rw [(List.append_eq_nil_iff.mp heq).1] at hpos
    cases hpos
  | cons first rest =>
    rw [List.flatten_cons] at heq
    have hpre : first <+: record ++ bytes := heq.symm ▸ List.prefix_append ..
    obtain rfl : record = first :=
      hrecord.eq_of_prefix (hrecords first List.mem_cons_self) (List.prefix_append ..) hpre
    exact ⟨rest, fun r hr => hrecords r (List.mem_cons_of_mem _ hr), List.append_cancel_left heq⟩

theorem WholeRecords.five_le {bytes : Bytes} (h : WholeRecords bytes) (hne : bytes ≠ []) :
    5 ≤ bytes.length := by
  obtain ⟨records, hrecords, rfl⟩ := h
  cases records with
  | nil => exact absurd rfl hne
  | cons first rest =>
    have hpos := (hrecords first List.mem_cons_self).1
    rw [List.flatten_cons, List.length_append]
    omega

/-- The start of a record. -/
theorem not_wholeRecords_sample : ¬WholeRecords [23, 3] := by
  intro hwhole
  have htail := hwhole.five_le (by decide)
  revert htail
  decide

/-- Two records of the handshake were read, and the start of another one. With the first of them
the handshake goes on, with the second one it is over. -/
theorem sample_goesOn :
    ∃ h session plaintext, (Handshake.start ⟨0, [], [], []⟩ (sampleStream [3, 0, 1, 9])
        [22, 3, 1, 0, 1, 1, 23, 3, 3, 0, 1, 7, 23, 3]).GoesOn sampleTls h ∧
      h.session.fed = [22, 3, 1, 0, 1, 1] ∧
      processTlsRecord sampleTls h.session [23, 3, 3, 0, 1, 7] h.plaintext =
        .ok (session, plaintext) ∧
      session.isHandshaking sampleTls = false := by
  have heval :
      (match (Handshake.start ⟨0, [], [], []⟩ (sampleStream [3, 0, 1, 9])
          [22, 3, 1, 0, 1, 1, 23, 3, 3, 0, 1, 7, 23, 3]).round sampleTls with
      | .ok h =>
        h.session.isHandshaking sampleTls && decide (h.session.fed = [22, 3, 1, 0, 1, 1]) &&
          match processTlsRecord sampleTls h.session [23, 3, 3, 0, 1, 7] h.plaintext with
          | .ok (session, _) => !session.isHandshaking sampleTls
          | .error _ => false
      | .error _ => false) = true := by decide +kernel
  split at heval
  · rename_i h hround
    simp only [Bool.and_eq_true, decide_eq_true_eq] at heval
    obtain ⟨⟨hgoing, hfed⟩, hover⟩ := heval
    split at hover
    · exact ⟨h, _, _, ⟨hround, hgoing⟩, hfed, ‹_›, by simpa using hover⟩
    · cases hover
  · cases heval

/-- Of two records of the handshake, the second one was read up to its second byte, and one more
record stays with the kernel. If the second record was read, and the third up to its second byte,
then the handshake fails. -/
theorem tlsHandshake_handsOver_sample :
    (∃ h, tlsHandshake sampleTls sampleKernel (sampleStream [3, 0, 1, 7, 23, 3, 3, 0, 1, 9])
        [22, 3, 1, 0, 1, 1, 23, 3] = .ok h ∧
      h.HandsOver sampleTls [22, 3, 1, 0, 1, 1, 23, 3] [3, 0, 1, 7, 23, 3, 3, 0, 1, 9]) ∧
    ∃ e, tlsHandshake sampleTls sampleKernel (sampleStream [3, 0, 1, 9])
      [22, 3, 1, 0, 1, 1, 23, 3, 3, 0, 1, 7, 23, 3] = .error e := by
  constructor
  · have hok : (tlsHandshake sampleTls sampleKernel
        (sampleStream [3, 0, 1, 7, 23, 3, 3, 0, 1, 9])
        [22, 3, 1, 0, 1, 1, 23, 3]).isOk = true := by decide +kernel
    cases h : tlsHandshake sampleTls sampleKernel
        (sampleStream [3, 0, 1, 7, 23, 3, 3, 0, 1, 9]) [22, 3, 1, 0, 1, 1, 23, 3] with
    | error e =>
      rw [h] at hok
      cases hok
    | ok result =>
      exact ⟨result, rfl, (tlsHandshake_handsOver sampleTls sampleKernel _ _).1 result h⟩
  · obtain ⟨h, session, plaintext, hstep, hfed, hprocessed, hover⟩ := sample_goesOn
    refine (tlsHandshake_handsOver sampleTls sampleKernel _ _).2 _ h [23, 3, 3, 0, 1, 7] [23, 3]
      session plaintext rfl (.single hstep) ?_ ⟨by decide, by decide⟩ hprocessed hover
      not_wholeRecords_sample
    rw [hfed]
    rfl

/-- Bytes read before that end inside a record do not make the handshake fail as long as it goes
on: the record is completed from the socket. -/
theorem not_tlsHandshake_fails : ¬∀ (σ : Type) (tls : ServerConnection σ) (kernel : KernelTls)
    (stream : TcpStream) (bytes : Bytes), ¬WholeRecords bytes →
      ∃ e, tlsHandshake tls kernel stream bytes = .error e := by
  intro hall
  have hinside : ¬WholeRecords ([22, 3, 1, 0, 1, 1] ++ [23, 3]) := fun hwhole =>
    not_wholeRecords_sample (hwhole.of_append ⟨by decide, by decide⟩)
  obtain ⟨e, he⟩ := hall SampleTls sampleTls sampleKernel
    (sampleStream [3, 0, 1, 7, 23, 3, 3, 0, 1, 9]) [22, 3, 1, 0, 1, 1, 23, 3] hinside
  have hok : (tlsHandshake sampleTls sampleKernel (sampleStream [3, 0, 1, 7, 23, 3, 3, 0, 1, 9])
      [22, 3, 1, 0, 1, 1, 23, 3]).isOk = true := by decide +kernel
  rw [he] at hok
  cases hok

end SniRouter
