import SniRouter.Net

/-!
# Reading a ClientHello from a TCP client

`readTlsClienthello` reads TLS records, some of which may have been read before, until they
contain a whole ClientHello. The stream is the list of the bytes that have not been read, and
it ends after the last of them. What is read is specified by the records it consists of:
`Decides w n inner` says that the first `n` bytes of the stream `w` decide about the
ClientHello, `Ends w e` that the stream ends before.
-/

namespace SniRouter

/-! ## The reader -/

/-- If needed, reads more bytes: `bytes` and the unread `rest` afterwards. -/
def ensureBytesAvailable (rest bytes : Bytes) (len : ℕ) : Except String (Bytes × Bytes) :=
  if bytes.length ≥ len then .ok (bytes, rest)
  else
    let missing := len - bytes.length
    if rest.length < missing then .error "early eof"
    else .ok (bytes ++ rest.take missing, rest.drop missing)

theorem ensureBytesAvailable_ok {rest bytes bytes' rest' : Bytes} {len : ℕ}
    (h : ensureBytesAvailable rest bytes len = .ok (bytes', rest')) :
    bytes'.length + rest'.length = bytes.length + rest.length ∧ len ≤ bytes'.length := by
  unfold ensureBytesAvailable at h
  dsimp only at h
  split at h
  · cases h
    omega
  split at h
  · cases h
  · cases h
    simp only [List.length_append, List.length_take, List.length_drop]
    omega

/-- `REC_HDR_LEN`. -/
def recHdrLen : ℕ := 5

/-- All bytes read or supplied, the bytes still unread, and the ClientHello or why there is
none. -/
structure HelloRead where
  bytes : Bytes
  unread : Bytes
  clienthello : Except String Bytes
deriving DecidableEq

def unexpectedContentType (contentType : ℕ) : String :=
  s!"unexpected TLS content_type {contentType}, want 22 (handshake)"

def unexpectedMsgType (msgType : ℕ) : String :=
  s!"first handshake msg is type {msgType}, expected 1 (ClientHello)"

/-- The loop of `read_tls_clienthello` over the records. -/
def readRecords (rest bytes hello : Bytes) (pos : ℕ) (needed : Option ℕ) :
    Except String HelloRead :=
  if needed.all fun n => hello.length < n then
    match h : ensureBytesAvailable rest bytes (pos + recHdrLen) with
    | .error _ => .error "reading TLS record header bytes"
    | .ok (bytes₁, rest₁) =>
      let contentType := byteAt bytes₁ pos
      let recLen := u16At bytes₁ (pos + 3)
      if contentType ≠ 22 then
        .ok ⟨bytes₁, rest₁, .error (unexpectedContentType contentType)⟩
      else if recLen = 0 then .ok ⟨bytes₁, rest₁, .error "zero-length TLS record"⟩
      else
        match h' : ensureBytesAvailable rest₁ bytes₁ (pos + recHdrLen + recLen) with
        | .error _ => .error "reading TLS record payload bytes"
        | .ok (bytes₂, rest₂) =>
          let hello' := hello ++ slice bytes₂ (pos + recHdrLen) (pos + recHdrLen + recLen)
          let pos' := pos + recHdrLen + recLen
          have := ensureBytesAvailable_ok h
          have := ensureBytesAvailable_ok h'
          match needed with
          | some n => readRecords rest₂ bytes₂ hello' pos' (some n)
          | none =>
            -- If we haven't established how many bytes we need, try now.
            if hello'.length < 4 then readRecords rest₂ bytes₂ hello' pos' none
            else
              let msgType := byteAt hello' 0
              if msgType ≠ 1 then .ok ⟨bytes₂, rest₂, .error (unexpectedMsgType msgType)⟩
              else readRecords rest₂ bytes₂ hello' pos' (some (4 + u24At hello' 1))
  else
    -- the loop ends only with `needed` set
    let n := needed.getD 0
    .ok ⟨bytes, rest, .ok (if hello.length > n then hello.take n else hello)⟩
termination_by bytes.length + rest.length - pos
decreasing_by all_goals simp only [recHdrLen] at *; omega

/-- Reads the ClientHello of a client that sent `initialBytes` before. -/
def readTlsClienthello (rest initialBytes : Bytes) : Except String HelloRead :=
  readRecords rest initialBytes [] 0 none

/-! ## Records -/

/-- A TLS record of content type 22 that is not empty. -/
structure HandshakeRecord where
  version : UInt8 × UInt8
  payload : Bytes
  nonempty : 0 < payload.length
  fits : payload.length < 65536

/-- The record on the wire. -/
def HandshakeRecord.wire (r : HandshakeRecord) : Bytes :=
  [22, r.version.1, r.version.2, UInt8.ofNat (r.payload.length / 256),
    UInt8.ofNat r.payload.length] ++ r.payload

def wires (rs : List HandshakeRecord) : Bytes := rs.flatMap HandshakeRecord.wire

/-- The handshake messages the records carry. -/
def payloads (rs : List HandshakeRecord) : Bytes := rs.flatMap HandshakeRecord.payload

theorem HandshakeRecord.length_wire (r : HandshakeRecord) :
    r.wire.length = 5 + r.payload.length := by
  simp only [wire, List.length_append, List.length_cons, List.length_nil]

theorem length_wires_concat (rs : List HandshakeRecord) (r : HandshakeRecord) :
    (wires (rs ++ [r])).length = (wires rs).length + 5 + r.payload.length := by
  simp only [wires, List.flatMap_append, List.flatMap_singleton, List.length_append,
    r.length_wire]
  omega

theorem HandshakeRecord.header_wire (r : HandshakeRecord) (tail : Bytes) :
    byteAt (r.wire ++ tail) 0 = 22 ∧ u16At (r.wire ++ tail) 3 = r.payload.length := by
  have hfits := r.fits
  refine ⟨rfl, ?_⟩
  simp only [u16At, byteAt, wire, List.cons_append, List.getD_cons_succ, List.getD_cons_zero,
    UInt8.toNat_ofNat']
  omega

/-- A header with a payload behind it is a record. -/
theorem exists_wire {tail : Bytes} (htype : byteAt tail 0 = 22) (hlen : 0 < u16At tail 3)
    (hlong : 5 + u16At tail 3 ≤ tail.length) :
    ∃ (r : HandshakeRecord) (tail' : Bytes), tail = r.wire ++ tail' := by
  obtain ⟨a, b, c, d, e, t, rfl⟩ : ∃ a b c d e t, tail = a :: b :: c :: d :: e :: t := by
    have h5 : 5 ≤ tail.length := by omega
    rcases tail with _ | ⟨a, _ | ⟨b, _ | ⟨c, _ | ⟨d, _ | ⟨e, t⟩⟩⟩⟩⟩
    case cons.cons.cons.cons.cons => exact ⟨a, b, c, d, e, t, rfl⟩
    all_goals simp at h5
  have hu16 : u16At (a :: b :: c :: d :: e :: t) 3 = d.toNat * 256 + e.toNat := rfl
  have ha : a = 22 := UInt8.toNat_inj.mp htype
  have hd := d.toNat_lt
  have he := e.toNat_lt
  rw [hu16] at hlen hlong
  simp only [List.length_cons] at hlong
  have hpayload : (t.take (d.toNat * 256 + e.toNat)).length = d.toNat * 256 + e.toNat := by
    rw [List.length_take]
    omega
  have hhi : UInt8.ofNat ((d.toNat * 256 + e.toNat) / 256) = d := by
    apply UInt8.toNat_inj.mp
    rw [UInt8.toNat_ofNat']
    omega
  have hlo : UInt8.ofNat (d.toNat * 256 + e.toNat) = e := by
    apply UInt8.toNat_inj.mp
    rw [UInt8.toNat_ofNat']
    omega
  refine ⟨⟨(b, c), t.take (d.toNat * 256 + e.toNat), by omega, by omega⟩,
    t.drop (d.toNat * 256 + e.toNat), ?_⟩
  simp only [HandshakeRecord.wire, hpayload, hhi, hlo, ha, List.cons_append, List.nil_append,
    List.take_append_drop]

/-! ## What the records decide -/

/-- The handshake bytes `p` do not decide yet: more of the first message is needed. -/
def Undecided (p : Bytes) : Prop :=
  p.length < 4 ∨ byteAt p 0 = 1 ∧ p.length < 4 + u24At p 1

/-- They start with a whole ClientHello. -/
def ContainsHello (p : Bytes) : Prop :=
  4 ≤ p.length ∧ byteAt p 0 = 1 ∧ 4 + u24At p 1 ≤ p.length

/-- They start with a message of another type. -/
def ContainsOther (p : Bytes) : Prop := 4 ≤ p.length ∧ byteAt p 0 ≠ 1

instance (p : Bytes) : Decidable (ContainsOther p) :=
  inferInstanceAs (Decidable (4 ≤ p.length ∧ byteAt p 0 ≠ 1))

/-- The first `n` bytes of the stream `w` decide: the ClientHello, or why there is none. -/
inductive Decides (w : Bytes) : ℕ → Except String Bytes → Prop where
  | hello {rs : List HandshakeRecord} {r : HandshakeRecord} {tail : Bytes}
      (hw : w = wires (rs ++ [r]) ++ tail) (hbefore : Undecided (payloads rs))
      (hhello : ContainsHello (payloads (rs ++ [r]))) :
      Decides w (wires (rs ++ [r])).length
        (.ok ((payloads (rs ++ [r])).take (4 + u24At (payloads (rs ++ [r])) 1)))
  | other {rs : List HandshakeRecord} {r : HandshakeRecord} {tail : Bytes}
      (hw : w = wires (rs ++ [r]) ++ tail) (hbefore : Undecided (payloads rs))
      (hother : ContainsOther (payloads (rs ++ [r]))) :
      Decides w (wires (rs ++ [r])).length
        (.error (unexpectedMsgType (byteAt (payloads (rs ++ [r])) 0)))
  | contentType {rs : List HandshakeRecord} {tail : Bytes} (hw : w = wires rs ++ tail)
      (hbefore : Undecided (payloads rs)) (hheader : 5 ≤ tail.length)
      (htype : byteAt tail 0 ≠ 22) :
      Decides w ((wires rs).length + 5) (.error (unexpectedContentType (byteAt tail 0)))
  | emptyRecord {rs : List HandshakeRecord} {tail : Bytes} (hw : w = wires rs ++ tail)
      (hbefore : Undecided (payloads rs)) (hheader : 5 ≤ tail.length)
      (htype : byteAt tail 0 = 22) (hlen : u16At tail 3 = 0) :
      Decides w ((wires rs).length + 5) (.error "zero-length TLS record")

/-- The stream `w` ends before anything is decided. -/
inductive Ends (w : Bytes) : String → Prop where
  | header {rs : List HandshakeRecord} {tail : Bytes} (hw : w = wires rs ++ tail)
      (hbefore : Undecided (payloads rs)) (hshort : tail.length < 5) :
      Ends w "reading TLS record header bytes"
  | payload {rs : List HandshakeRecord} {tail : Bytes} (hw : w = wires rs ++ tail)
      (hbefore : Undecided (payloads rs)) (hheader : 5 ≤ tail.length)
      (htype : byteAt tail 0 = 22) (hlen : 0 < u16At tail 3)
      (hshort : tail.length < 5 + u16At tail 3) :
      Ends w "reading TLS record payload bytes"

/-- A prefix is undecided, or starts a ClientHello or another message. -/
theorem decided_or (p : Bytes) : Undecided p ∨ ContainsHello p ∨ ContainsOther p := by
  unfold Undecided ContainsHello ContainsOther
  omega

theorem Undecided.of_prefix {p q : Bytes} (h : Undecided q) (hpq : p <+: q) : Undecided p := by
  have hlen := hpq.length_le
  by_cases h4 : p.length < 4
  · exact Or.inl h4
  · have hbyte := byteAt_prefix_eq hpq (show 0 < p.length by omega)
    have hu24 := u24At_prefix_eq hpq (show 1 + 2 < p.length by omega)
    unfold Undecided at h ⊢
    omega

theorem payloads_concat (rs : List HandshakeRecord) (r : HandshakeRecord) :
    payloads (rs ++ [r]) = payloads rs ++ r.payload := by
  simp [payloads]

theorem wires_concat (rs : List HandshakeRecord) (r : HandshakeRecord) :
    wires (rs ++ [r]) = wires rs ++ r.wire := by
  simp [wires]

/-- Every stream decides or ends. -/
theorem decides_or_ends (w : Bytes) : (∃ n inner, Decides w n inner) ∨ ∃ e, Ends w e := by
  suffices h : ∀ m rs tail, tail.length ≤ m → w = wires rs ++ tail → Undecided (payloads rs) →
      (∃ n inner, Decides w n inner) ∨ ∃ e, Ends w e from
    h w.length [] w (le_refl _) rfl (Or.inl (by simp [payloads]))
  intro m
  induction m with
  | zero =>
    intro rs tail htail hw hbefore
    exact Or.inr ⟨_, .header hw hbefore (by omega)⟩
  | succ m ih =>
    intro rs tail htail hw hbefore
    by_cases hheader : 5 ≤ tail.length
    · by_cases htype : byteAt tail 0 = 22
      · by_cases hlen : u16At tail 3 = 0
        · exact Or.inl ⟨_, _, .emptyRecord hw hbefore hheader htype hlen⟩
        · by_cases hlong : 5 + u16At tail 3 ≤ tail.length
          · -- one more record
            obtain ⟨r, tail', rfl⟩ := exists_wire htype (Nat.pos_of_ne_zero hlen) hlong
            have hw' : w = wires (rs ++ [r]) ++ tail' := by
              rw [hw, wires_concat, List.append_assoc]
            rcases decided_or (payloads (rs ++ [r])) with h | h | h
            · rw [List.length_append, r.length_wire] at htail
              exact ih (rs ++ [r]) tail' (by omega) hw' h
            · exact Or.inl ⟨_, _, .hello hw' hbefore h⟩
            · exact Or.inl ⟨_, _, .other hw' hbefore h⟩
          · exact Or.inr ⟨_, .payload hw hbefore hheader htype (Nat.pos_of_ne_zero hlen)
              (not_le.mp hlong)⟩
      · exact Or.inl ⟨_, _, .contentType hw hbefore hheader htype⟩
    · exact Or.inr ⟨_, .header hw hbefore (not_le.mp hheader)⟩

/-! ## The reader follows the records -/

/-- On a stream that is cut at `b`, the cut moves to the length that is needed. -/
theorem ensureBytesAvailable_take {w : Bytes} {b : ℕ} (hb : b ≤ w.length) (len : ℕ) :
    ensureBytesAvailable (w.drop b) (w.take b) len =
      if len ≤ w.length then .ok (w.take (max b len), w.drop (max b len))
      else .error "early eof" := by
  have htake : (w.take b).length = b := by
    rw [List.length_take, min_eq_left hb]
  have hdrop : (w.drop b).length = w.length - b := List.length_drop ..
  unfold ensureBytesAvailable
  dsimp only
  rw [htake, hdrop]
  by_cases hlen : b ≥ len
  · rw [if_pos hlen, if_pos (by omega), max_eq_left hlen]
  · rw [if_neg hlen]
    by_cases hend : len ≤ w.length
    · have hsum : b + (len - b) = len := by omega
      rw [if_neg (by omega), if_pos hend, max_eq_right (by omega), ← List.take_add, List.drop_drop,
        hsum]
    · rw [if_pos (by omega), if_neg hend]

/-- How many handshake bytes are needed, once the first four are there. -/
def neededLen (p : Bytes) : Option ℕ := if p.length < 4 then none else some (4 + u24At p 1)

/-- The loop after the records `rs`, when `b` bytes of the stream have been read. -/
def readAfter (w : Bytes) (b : ℕ) (rs : List HandshakeRecord) : Except String HelloRead :=
  readRecords (w.drop b) (w.take b) (payloads rs) (wires rs).length (neededLen (payloads rs))

section ReadAfter

variable {w tail : Bytes} {b : ℕ} {rs : List HandshakeRecord}

/-- An undecided payload is not long enough yet. -/
theorem needed_of_undecided {p : Bytes} (h : Undecided p) :
    ((neededLen p).all fun n => p.length < n) = true := by
  by_cases hshort : p.length < 4
  · rw [neededLen, if_pos hshort]
    rfl
  · have hlen : p.length < 4 + u24At p 1 := (h.resolve_left hshort).2
    rw [neededLen, if_neg hshort, Option.all_some]
    exact decide_eq_true hlen

/-- The header of the next record, in the bytes read so far. -/
theorem header_take (hw : w = wires rs ++ tail) {b' : ℕ} (hb' : (wires rs).length + 5 ≤ b') :
    byteAt (w.take b') (wires rs).length = byteAt tail 0 ∧
      u16At (w.take b') ((wires rs).length + 3) = u16At tail 3 := by
  have hbyte : ∀ i < 5, byteAt (w.take b') ((wires rs).length + i) = byteAt tail i := by
    intro i hi
    rw [hw]
    simp only [byteAt, List.getD_eq_getElem?_getD]
    rw [List.getElem?_take_of_lt (by omega), List.getElem?_append_right (by omega)]
    simp
  refine ⟨hbyte 0 (by omega), ?_⟩
  simp only [u16At]
  rw [hbyte 3 (by omega), Nat.add_assoc, hbyte 4 (by omega)]

theorem slice_take (hw : w = wires rs ++ tail) (n : ℕ) {b' : ℕ}
    (hb' : (wires rs).length + 5 + n ≤ b') :
    slice (w.take b') ((wires rs).length + 5) ((wires rs).length + 5 + n) =
      slice tail 5 (5 + n) := by
  rw [slice, List.take_take, min_eq_left hb', hw, Nat.add_assoc, List.take_length_add_append,
    List.drop_length_add_append]
  rfl

/-- The loop goes on with the handshake bytes `p'`, unless they start with another message. -/
def readOn (w : Bytes) (b pos : ℕ) (p' : Bytes) : Except String HelloRead :=
  if ContainsOther p' then
    .ok ⟨w.take b, w.drop b, .error (unexpectedMsgType (byteAt p' 0))⟩
  else readRecords (w.drop b) (w.take b) p' pos (neededLen p')

/-- The length of the message is taken when four bytes are there, and kept. -/
theorem readOn_eq {p p' : Bytes} (hp : Undecided p) (hpp' : p <+: p') (w : Bytes) (b pos : ℕ) :
    (match neededLen p with
      | some n => readRecords (w.drop b) (w.take b) p' pos (some n)
      | none =>
        if p'.length < 4 then readRecords (w.drop b) (w.take b) p' pos none
        else if byteAt p' 0 ≠ 1 then
          .ok ⟨w.take b, w.drop b, .error (unexpectedMsgType (byteAt p' 0))⟩
        else readRecords (w.drop b) (w.take b) p' pos (some (4 + u24At p' 1))) =
      readOn w b pos p' := by
  unfold readOn
  have hlen := hpp'.length_le
  by_cases h4 : p.length < 4
  · simp only [neededLen, h4, if_true]
    by_cases h4' : p'.length < 4
    · have hno : ¬ContainsOther p' := fun h => absurd h.1 (by omega)
      rw [if_pos h4', if_neg hno, if_pos h4']
    · rw [if_neg h4', if_neg h4']
      by_cases h1 : byteAt p' 0 = 1
      · have hno : ¬ContainsOther p' := fun h => h.2 h1
        rw [if_neg (not_not.mpr h1), if_neg hno]
      · have hother : ContainsOther p' := ⟨by omega, h1⟩
        rw [if_pos h1, if_pos hother]
  -- the type and the length are known already and stay what they were
  · have hbyte := byteAt_prefix_eq hpp' (show 0 < p.length by omega)
    have hu24 := u24At_prefix_eq hpp' (show 1 + 2 < p.length by omega)
    have h1 : byteAt p' 0 = 1 := by
      rw [← hbyte]
      exact (hp.resolve_left h4).1
    have hno : ¬ContainsOther p' := fun h => h.2 h1
    rw [if_neg hno]
    simp only [neededLen, if_neg h4, if_neg (show ¬p'.length < 4 by omega), hu24]

/-- One round of the loop, by what the stream goes on with. -/
theorem readAfter_eq (hw : w = wires rs ++ tail) (hb : b ≤ w.length)
    (hbefore : Undecided (payloads rs)) :
    readAfter w b rs =
      if tail.length < 5 then .error "reading TLS record header bytes"
      else if byteAt tail 0 ≠ 22 then
        .ok ⟨w.take (max b ((wires rs).length + 5)), w.drop (max b ((wires rs).length + 5)),
          .error (unexpectedContentType (byteAt tail 0))⟩
      else if u16At tail 3 = 0 then
        .ok ⟨w.take (max b ((wires rs).length + 5)), w.drop (max b ((wires rs).length + 5)),
          .error "zero-length TLS record"⟩
      else if tail.length < 5 + u16At tail 3 then .error "reading TLS record payload bytes"
      else readOn w (max b ((wires rs).length + 5 + u16At tail 3))
        ((wires rs).length + 5 + u16At tail 3)
        (payloads rs ++ slice tail 5 (5 + u16At tail 3)) := by
  have hlen : w.length = (wires rs).length + tail.length := by rw [hw, List.length_append]
  -- the header is read first, then the payload: both reads may meet the end of the stream
  rw [readAfter, readRecords, if_pos (needed_of_undecided hbefore)]
  simp only [recHdrLen]
  split
  · rename_i h
    rw [ensureBytesAvailable_take hb] at h
    split at h
    · cases h
    · rw [if_pos (by omega)]
  · rename_i h
    rw [ensureBytesAvailable_take hb] at h
    split at h
    · rename_i hheader
      cases h
      have h5 : ¬tail.length < 5 := by omega
      rw [if_neg h5]
      obtain ⟨htype, hu16⟩ := header_take hw (le_max_right b ((wires rs).length + 5))
      simp only [htype, hu16]
      split
      · rfl
      split
      · rfl
      split
      · rename_i h
        rw [hu16, ensureBytesAvailable_take (by omega)] at h
        split at h
        · cases h
        · have hshort : tail.length < 5 + u16At tail 3 := by omega
          rw [if_pos hshort]
      · rename_i h
        rw [hu16, ensureBytesAvailable_take (by omega)] at h
        split at h
        · cases h
          have hlong : ¬tail.length < 5 + u16At tail 3 := by omega
          have hmax : max (max b ((wires rs).length + 5)) ((wires rs).length + 5 + u16At tail 3) =
              max b ((wires rs).length + 5 + u16At tail 3) := by omega
          rw [if_neg hlong, slice_take hw _ (le_max_right ..), hmax]
          exact readOn_eq hbefore (List.prefix_append ..) ..
        · cases h
    · cases h

/-- A record is read as a whole. -/
theorem readAfter_record {r : HandshakeRecord} (hw : w = wires (rs ++ [r]) ++ tail)
    (hb : b ≤ w.length) (hbefore : Undecided (payloads rs)) :
    readAfter w b rs = readOn w (max b (wires (rs ++ [r])).length) (wires (rs ++ [r])).length
      (payloads (rs ++ [r])) := by
  have hw' : w = wires rs ++ (r.wire ++ tail) := by
    rw [hw, wires_concat, List.append_assoc]
  obtain ⟨htype, hu16⟩ := r.header_wire tail
  have hnonempty := r.nonempty
  have hlen : (r.wire ++ tail).length = 5 + r.payload.length + tail.length := by
    rw [List.length_append, r.length_wire]
  have hslice : slice (r.wire ++ tail) 5 (5 + r.payload.length) = r.payload := by
    rw [slice, ← r.length_wire, List.take_left]
    rfl
  rw [readAfter_eq hw' hb hbefore, htype, hu16, hslice, ← length_wires_concat, ← payloads_concat,
    if_neg (by omega), if_neg (by simp), if_neg (by omega), if_neg (by omega)]

/-- Records that decide nothing are read one after the other. -/
theorem readAfter_nil (hw : w = wires rs ++ tail) (hb : b ≤ w.length)
    (hundecided : Undecided (payloads rs)) :
    readAfter w b [] = readAfter w (max b (wires rs).length) rs := by
  induction rs using List.reverseRecOn generalizing tail with
  | nil => simp [wires]
  | append_singleton rs r ih =>
    have hw' : w = wires rs ++ (r.wire ++ tail) := by
      rw [hw, wires_concat, List.append_assoc]
    have hlen : w.length = (wires rs).length + (r.wire ++ tail).length := by
      rw [hw', List.length_append]
    have hbefore : Undecided (payloads rs) := hundecided.of_prefix (by
      rw [payloads_concat]
      exact List.prefix_append ..)
    have hno : ¬ContainsOther (payloads (rs ++ [r])) := by
      unfold Undecided at hundecided
      unfold ContainsOther
      omega
    have hmax : max (max b (wires rs).length) (wires (rs ++ [r])).length =
        max b (wires (rs ++ [r])).length := by
      rw [length_wires_concat]
      omega
    rw [ih hw' hbefore, readAfter_record hw (by omega) hbefore, readOn, if_neg hno, hmax]
    rfl

/-- The record after records that decide nothing. -/
theorem readAfter_nil_record {r : HandshakeRecord} (hw : w = wires (rs ++ [r]) ++ tail)
    (hb : b ≤ w.length) (hbefore : Undecided (payloads rs)) :
    readAfter w b [] = readOn w (max (max b (wires rs).length) (wires (rs ++ [r])).length)
        (wires (rs ++ [r])).length (payloads (rs ++ [r])) ∧
      max (max b (wires rs).length) (wires (rs ++ [r])).length =
        max b (wires (rs ++ [r])).length := by
  have hw' : w = wires rs ++ (r.wire ++ tail) := by
    rw [hw, wires_concat, List.append_assoc]
  have hlen : w.length = (wires rs).length + (r.wire ++ tail).length := by
    rw [hw', List.length_append]
  refine ⟨?_, ?_⟩
  · rw [readAfter_nil hw' hb hbefore, readAfter_record hw (by omega) hbefore]
  · rw [length_wires_concat]
    omega

/-- With the bytes that are needed the loop ends. -/
theorem readRecords_done {p : Bytes} {needed : ℕ} (hlen : needed ≤ p.length) (rest bytes : Bytes)
    (pos : ℕ) :
    readRecords rest bytes p pos (some needed) = .ok ⟨bytes, rest, .ok (p.take needed)⟩ := by
  rw [readRecords, if_neg (by simpa using hlen)]
  simp only [Option.getD_some]
  split
  · rfl
  · rename_i hle
    rw [List.take_of_length_le (not_lt.mp hle)]

/-- A payload that holds the ClientHello ends the loop. -/
theorem readRecords_hello {p : Bytes} (hp : ContainsHello p) (rest bytes : Bytes) (pos : ℕ) :
    readRecords rest bytes p pos (neededLen p) =
      .ok ⟨bytes, rest, .ok (p.take (4 + u24At p 1))⟩ := by
  obtain ⟨h4, -, hlen⟩ := hp
  rw [neededLen, if_neg (not_lt.mpr h4)]
  exact readRecords_done hlen rest bytes pos

/-- The loop stops at the record that decides. -/
theorem readAfter_of_decides (hb : b ≤ w.length) {n : ℕ} {inner : Except String Bytes}
    (h : Decides w n inner) :
    readAfter w b [] = .ok ⟨w.take (max b n), w.drop (max b n), inner⟩ := by
  cases h with
  | @hello rs r tail hw hbefore hhello =>
    obtain ⟨hrecord, hmax⟩ := readAfter_nil_record hw hb hbefore
    have hno : ¬ContainsOther (payloads (rs ++ [r])) := fun h => h.2 hhello.2.1
    rw [hrecord, readOn, if_neg hno, hmax, readRecords_hello hhello]
  | @other rs r tail hw hbefore hother =>
    obtain ⟨hrecord, hmax⟩ := readAfter_nil_record hw hb hbefore
    rw [hrecord, readOn, if_pos hother, hmax]
  | @contentType rs tail hw hbefore hheader htype =>
    have hlen : w.length = (wires rs).length + tail.length := by rw [hw, List.length_append]
    have hmax : max (max b (wires rs).length) ((wires rs).length + 5) =
        max b ((wires rs).length + 5) := by omega
    rw [readAfter_nil hw hb hbefore, readAfter_eq hw (by omega) hbefore,
      if_neg (not_lt.mpr hheader), if_pos htype, hmax]
  | @emptyRecord rs tail hw hbefore hheader htype hempty =>
    have hlen : w.length = (wires rs).length + tail.length := by rw [hw, List.length_append]
    have hmax : max (max b (wires rs).length) ((wires rs).length + 5) =
        max b ((wires rs).length + 5) := by omega
    rw [readAfter_nil hw hb hbefore, readAfter_eq hw (by omega) hbefore,
      if_neg (not_lt.mpr hheader), if_neg (not_not.mpr htype), if_pos hempty, hmax]

/-- It fails where the stream ends before that. -/
theorem readAfter_of_ends (hb : b ≤ w.length) {e : String} (h : Ends w e) :
    readAfter w b [] = .error e := by
  cases h with
  | @header rs tail hw hbefore hshort =>
    have hlen : w.length = (wires rs).length + tail.length := by rw [hw, List.length_append]
    rw [readAfter_nil hw hb hbefore, readAfter_eq hw (by omega) hbefore, if_pos hshort]
  | @payload rs tail hw hbefore hheader htype hlen hshort =>
    have hlen' : w.length = (wires rs).length + tail.length := by rw [hw, List.length_append]
    rw [readAfter_nil hw hb hbefore, readAfter_eq hw (by omega) hbefore,
      if_neg (not_lt.mpr hheader), if_neg (not_not.mpr htype), if_neg hlen.ne', if_pos hshort]

end ReadAfter

/-! ## The ClientHello of a stream -/

theorem Decides.le_length {w : Bytes} {n : ℕ} {inner : Except String Bytes}
    (h : Decides w n inner) : n ≤ w.length := by
  cases h with
  | hello hw _ _ => simp [hw]
  | other hw _ _ => simp [hw]
  | contentType hw _ hheader _ => simp [hw, hheader]
  | emptyRecord hw _ hheader _ _ => simp [hw, hheader]

/-- However the ClientHello is cut into records, it is found. -/
theorem decides_of_containsHello {w tail : Bytes} {rs : List HandshakeRecord}
    (hw : w = wires rs ++ tail) (hhello : ContainsHello (payloads rs)) :
    ∃ n, Decides w n (.ok ((payloads rs).take (4 + u24At (payloads rs) 1))) := by
  induction rs using List.reverseRecOn generalizing tail with
  | nil => exact absurd hhello.1 (by simp [payloads])
  | append_singleton rs r ih =>
    by_cases hbefore : Undecided (payloads rs)
    · exact ⟨_, .hello hw hbefore hhello⟩
    -- the records before contain it already
    have hpre : payloads rs <+: payloads (rs ++ [r]) := by
      rw [payloads_concat]
      exact List.prefix_append ..
    have h4 : 4 ≤ (payloads rs).length := by
      by_contra h
      exact hbefore (Or.inl (not_le.mp h))
    have hbyte := byteAt_prefix_eq hpre (show 0 < (payloads rs).length by omega)
    have hu24 := u24At_prefix_eq hpre (show 1 + 2 < (payloads rs).length by omega)
    have hhello' : ContainsHello (payloads rs) := by
      refine ⟨h4, hbyte.trans hhello.2.1, ?_⟩
      by_contra h
      exact hbefore (Or.inr ⟨hbyte.trans hhello.2.1, not_le.mp h⟩)
    have hw' : w = wires rs ++ (r.wire ++ tail) := by
      rw [hw, wires_concat, List.append_assoc]
    obtain ⟨n, hn⟩ := ih hw' hhello'
    refine ⟨n, ?_⟩
    have htake : (payloads (rs ++ [r])).take (4 + u24At (payloads rs) 1) =
        (payloads rs).take (4 + u24At (payloads rs) 1) := by
      rw [payloads_concat, List.take_append_of_le_length hhello'.2.2]
    rw [← hu24, htake]
    exact hn

theorem readTlsClienthello_eq (initialBytes rest : Bytes) :
    readTlsClienthello rest initialBytes =
      readAfter (initialBytes ++ rest) initialBytes.length [] := by
  simp [readTlsClienthello, readAfter, payloads, wires, neededLen]

section Stream

variable {initialBytes rest : Bytes}

/-- What is returned depends on the whole stream, and on the cut only for the bytes read. -/
theorem readTlsClienthello_of_decides {n : ℕ} {inner : Except String Bytes}
    (h : Decides (initialBytes ++ rest) n inner) :
    readTlsClienthello rest initialBytes =
      .ok ⟨(initialBytes ++ rest).take (max initialBytes.length n),
        (initialBytes ++ rest).drop (max initialBytes.length n), inner⟩ := by
  rw [readTlsClienthello_eq]
  exact readAfter_of_decides (by simp) h

/-- A stream that ends too early is an error, wherever it is cut. -/
theorem readTlsClienthello_of_ends {e : String} (h : Ends (initialBytes ++ rest) e) :
    readTlsClienthello rest initialBytes = .error e := by
  rw [readTlsClienthello_eq]
  exact readAfter_of_ends (by simp) h

/-- What is read is what the stream decides. -/
theorem readTlsClienthello_ok_iff {read : HelloRead} :
    readTlsClienthello rest initialBytes = .ok read ↔
      ∃ n inner, Decides (initialBytes ++ rest) n inner ∧
        read = ⟨(initialBytes ++ rest).take (max initialBytes.length n),
          (initialBytes ++ rest).drop (max initialBytes.length n), inner⟩ := by
  constructor
  · intro h
    rcases decides_or_ends (initialBytes ++ rest) with ⟨n, inner, hn⟩ | ⟨e, he⟩
    · rw [readTlsClienthello_of_decides hn] at h
      exact ⟨n, inner, hn, (Except.ok.inj h).symm⟩
    · rw [readTlsClienthello_of_ends he] at h
      cases h
  · rintro ⟨n, inner, hn, rfl⟩
    exact readTlsClienthello_of_decides hn

/-- There is no other reason for an error. -/
theorem readTlsClienthello_error_iff {e : String} :
    readTlsClienthello rest initialBytes = .error e ↔ Ends (initialBytes ++ rest) e := by
  constructor
  · intro h
    rcases decides_or_ends (initialBytes ++ rest) with ⟨n, inner, hn⟩ | ⟨e', he'⟩
    · rw [readTlsClienthello_of_decides hn] at h
      cases h
    · rw [readTlsClienthello_of_ends he'] at h
      cases h
      exact he'
  · exact readTlsClienthello_of_ends

/-- No byte is lost: what was read and what is unread is the stream. -/
theorem readTlsClienthello_append {read : HelloRead}
    (h : readTlsClienthello rest initialBytes = .ok read) :
    read.bytes ++ read.unread = initialBytes ++ rest := by
  obtain ⟨n, inner, -, rfl⟩ := readTlsClienthello_ok_iff.mp h
  exact List.take_append_drop ..

/-- Reading again from where a reader has stopped finds the same. -/
theorem readTlsClienthello_again {read : HelloRead}
    (h : readTlsClienthello rest initialBytes = .ok read) :
    readTlsClienthello read.unread read.bytes = .ok read := by
  obtain ⟨n, inner, hn, rfl⟩ := readTlsClienthello_ok_iff.mp h
  have hle := hn.le_length
  have hmax : max ((initialBytes ++ rest).take (max initialBytes.length n)).length n =
      max initialBytes.length n := by
    rw [List.length_append] at hle
    rw [List.length_take, List.length_append]
    omega
  refine readTlsClienthello_ok_iff.mpr ⟨n, inner, ?_, ?_⟩
  · rw [List.take_append_drop]
    exact hn
  · rw [List.take_append_drop, hmax]

/-- A ClientHello is found exactly when the stream starts with records that carry it. -/
theorem readTlsClienthello_hello_iff {hello : Bytes} :
    (∃ read, readTlsClienthello rest initialBytes = .ok read ∧ read.clienthello = .ok hello) ↔
      ∃ rs tail, initialBytes ++ rest = wires rs ++ tail ∧ ContainsHello (payloads rs) ∧
        hello = (payloads rs).take (4 + u24At (payloads rs) 1) := by
  constructor
  · rintro ⟨read, hread, hhello⟩
    obtain ⟨n, inner, hn, rfl⟩ := readTlsClienthello_ok_iff.mp hread
    cases hhello
    cases hn with
    | hello hw hbefore hcontains => exact ⟨_, _, hw, hcontains, rfl⟩
  · rintro ⟨rs, tail, hw, hcontains, rfl⟩
    obtain ⟨n, hn⟩ := decides_of_containsHello hw hcontains
    exact ⟨_, readTlsClienthello_of_decides hn, rfl⟩

end Stream

/-- **Reading a ClientHello.** What is found depends on the stream `initialBytes ++ rest`, not
on how much of it was read before: it is what the stream decides, or an error when the
stream ends before. The bytes returned are the part of the stream that decides or was
supplied, whichever is longer, and the rest is still unread. -/
theorem readTlsClienthello_spec (initialBytes rest : Bytes) :
    (∀ read, readTlsClienthello rest initialBytes = .ok read ↔
      ∃ n inner, Decides (initialBytes ++ rest) n inner ∧
        read = ⟨(initialBytes ++ rest).take (max initialBytes.length n),
          (initialBytes ++ rest).drop (max initialBytes.length n), inner⟩) ∧
    (∀ e, readTlsClienthello rest initialBytes = .error e ↔ Ends (initialBytes ++ rest) e) ∧
    (∀ hello, (∃ read, readTlsClienthello rest initialBytes = .ok read ∧
        read.clienthello = .ok hello) ↔
      ∃ rs tail, initialBytes ++ rest = wires rs ++ tail ∧ ContainsHello (payloads rs) ∧
        hello = (payloads rs).take (4 + u24At (payloads rs) 1)) ∧
    (∀ initialBytes' rest', initialBytes' ++ rest' = initialBytes ++ rest →
      (readTlsClienthello rest' initialBytes').map HelloRead.clienthello =
        (readTlsClienthello rest initialBytes).map HelloRead.clienthello) ∧
    ∀ read, readTlsClienthello rest initialBytes = .ok read →
      read.bytes ++ read.unread = initialBytes ++ rest := by
  refine ⟨fun read => readTlsClienthello_ok_iff, fun e => readTlsClienthello_error_iff,
    fun hello => readTlsClienthello_hello_iff, fun initialBytes' rest' hsame => ?_,
    fun read => readTlsClienthello_append⟩
  rcases decides_or_ends (initialBytes ++ rest) with ⟨n, inner, hn⟩ | ⟨e, he⟩
  · have hn' : Decides (initialBytes' ++ rest') n inner := hsame ▸ hn
    rw [readTlsClienthello_of_decides hn, readTlsClienthello_of_decides hn']
    rfl
  · have he' : Ends (initialBytes' ++ rest') e := hsame ▸ he
    rw [readTlsClienthello_of_ends he, readTlsClienthello_of_ends he']

/-- A ClientHello in two records, the first of which was read before up to the middle of its
header. -/
example : (readTlsClienthello [0, 2, 1, 0, 22, 3, 1, 0, 3, 0, 0, 9] [22, 3, 1]).map
    HelloRead.clienthello = .ok (.ok [1, 0, 0, 0]) := by decide +kernel

end SniRouter
