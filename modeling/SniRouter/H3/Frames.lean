import SniRouter.Wire

/-!
# The frames of an Initial packet

The grammar `read_crypto_frames` accepts. A frame is its type and its fields, every integer of them
in any width that can hold it, so the encodings of one frame differ in length. The reader is proved
to accept exactly the concatenations of such encodings: one lemma for every part of a frame in each
direction, then the loop by induction.
-/

namespace SniRouter

/-! ## The grammar -/

/-- The gap and length pairs of an ACK frame. -/
def encodeRanges (ranges : List (Varint × Varint)) : Bytes :=
  ranges.flatMap fun range => range.1.encode ++ range.2.encode

/-- What follows the type of a frame. -/
inductive FrameBody where
  | padding
  | ping
  | ack (largestAcknowledged ackDelay ackRangeCount firstAckRange : Varint)
    (ranges : List (Varint × Varint)) (count_eq : ackRangeCount.value = ranges.length)
  | ackEcn (largestAcknowledged ackDelay ackRangeCount firstAckRange : Varint)
    (ranges : List (Varint × Varint)) (count_eq : ackRangeCount.value = ranges.length)
    (ect0Count ect1Count ecnCeCount : Varint)
  | crypto (offset len : Varint) (data : Bytes) (len_eq : len.value = data.length)
  | transportClose (errorCode frameType reasonLen : Varint) (reason : Bytes)
    (len_eq : reasonLen.value = reason.length)
  | applicationClose (errorCode reasonLen : Varint) (reason : Bytes)
    (len_eq : reasonLen.value = reason.length)

namespace FrameBody

def frameType : FrameBody → ℕ
  | padding => 0x00
  | ping => 0x01
  | ack .. => 0x02
  | ackEcn .. => 0x03
  | crypto .. => 0x06
  | transportClose .. => 0x1c
  | applicationClose .. => 0x1d

def encode : FrameBody → Bytes
  | padding => []
  | ping => []
  | ack largest delay count first ranges _ =>
    largest.encode ++ delay.encode ++ count.encode ++ first.encode ++ encodeRanges ranges
  | ackEcn largest delay count first ranges _ ect0 ect1 ce =>
    largest.encode ++ delay.encode ++ count.encode ++ first.encode ++ encodeRanges ranges ++
      (ect0.encode ++ ect1.encode ++ ce.encode)
  | crypto offset len data _ => offset.encode ++ len.encode ++ data
  | transportClose errorCode frameType reasonLen reason _ =>
    errorCode.encode ++ frameType.encode ++ (reasonLen.encode ++ reason)
  | applicationClose errorCode reasonLen reason _ =>
    errorCode.encode ++ (reasonLen.encode ++ reason)

/-- The offset and data of a CRYPTO frame. -/
def crypto? : FrameBody → Option (ℕ × Bytes)
  | crypto offset _ data _ => some (offset.value, data)
  | _ => none

end FrameBody

/-- A frame. Its type is an integer like the others, in any width. -/
structure Frame where
  frameType : Varint
  body : FrameBody
  type_eq : frameType.value = body.frameType

namespace Frame

def encode (frame : Frame) : Bytes := frame.frameType.encode ++ frame.body.encode

def crypto? (frame : Frame) : Option (ℕ × Bytes) := frame.body.crypto?

end Frame

def encodeFrames (frames : List Frame) : Bytes := frames.flatMap Frame.encode

/-- The types of the frames an Initial packet may carry. -/
def initialFrameTypes : List ℕ := [0x00, 0x01, 0x02, 0x03, 0x06, 0x1c, 0x1d]

/-- Every frame of the grammar has a type that an Initial may have. -/
theorem FrameBody.frameType_mem (body : FrameBody) : body.frameType ∈ initialFrameTypes := by
  cases body <;> simp [frameType, initialFrameTypes]

/-! ## The parts of a frame -/

section Parts

variable {payload : Bytes} {i j : ℕ}

/-- Ranges that were encoded are skipped. -/
theorem skipAckRanges_encode {ranges : List (Varint × Varint)}
    (h : Reads payload i (encodeRanges ranges) j) :
    skipAckRanges payload ranges.length i = .ok j := by
  induction ranges generalizing i with
  | nil =>
    have : j = i := h.stop_eq
    rw [this]
    rfl
  | cons range ranges ih =>
    obtain ⟨hrange, hrest⟩ := reads_append.mp h
    obtain ⟨hgap, hlength⟩ := reads_append.mp hrange
    simp only [List.length_cons, skipAckRanges, readVarint_encode _ hgap,
      readVarint_encode _ hlength, except_ok_bind]
    exact ih hrest

theorem skipAckRanges_reads {count : ℕ} (hi : i ≤ payload.length)
    (h : skipAckRanges payload count i = .ok j) :
    ∃ ranges : List (Varint × Varint), ranges.length = count ∧
      Reads payload i (encodeRanges ranges) j := by
  induction count generalizing i with
  | zero =>
    cases h
    exact ⟨[], rfl, reads_nil hi⟩
  | succ count ih =>
    obtain ⟨⟨v₁, i₁⟩, h₁, h⟩ := except_bind_eq_ok h
    obtain ⟨⟨v₂, i₂⟩, h₂, h⟩ := except_bind_eq_ok h
    obtain ⟨gap, -, hgap⟩ := readVarint_eq_ok.mp h₁
    obtain ⟨length, -, hlength⟩ := readVarint_eq_ok.mp h₂
    obtain ⟨ranges, hcount, hranges⟩ := ih hlength.stop_le h
    exact ⟨(gap, length) :: ranges, by simp [hcount], (hgap.append hlength).append hranges⟩

/-- The fields both ACK frames start with. -/
theorem skipAckFrame_encode {largest delay count first : Varint}
    {ranges : List (Varint × Varint)} (hcount : count.value = ranges.length) (hasEcn : Bool)
    (h : Reads payload i (largest.encode ++ delay.encode ++ count.encode ++ first.encode ++
      encodeRanges ranges) j) :
    skipAckFrame payload i hasEcn =
      if hasEcn then do
        let (_, i) ← readVarint payload j
        let (_, i) ← readVarint payload i
        let (_, i) ← readVarint payload i
        return i
      else .ok j := by
  obtain ⟨h, hranges⟩ := reads_append.mp h
  obtain ⟨h, hfirst⟩ := reads_append.mp h
  obtain ⟨h, hcountAt⟩ := reads_append.mp h
  obtain ⟨hlargest, hdelay⟩ := reads_append.mp h
  simp only [skipAckFrame, readVarint_encode _ hlargest, readVarint_encode _ hdelay,
    readVarint_encode _ hcountAt, readVarint_encode _ hfirst, except_ok_bind, hcount,
    skipAckRanges_encode hranges]
  rfl

/-- What is skipped as an ACK frame is one. -/
theorem skipAckFrame_reads {hasEcn : Bool} (h : skipAckFrame payload i hasEcn = .ok j) :
    ∃ (largest delay count first : Varint) (ranges : List (Varint × Varint)) (k : ℕ),
      count.value = ranges.length ∧
      Reads payload i (largest.encode ++ delay.encode ++ count.encode ++ first.encode ++
        encodeRanges ranges) k ∧
      if hasEcn then ∃ ect0 ect1 ce : Varint,
        Reads payload k (ect0.encode ++ ect1.encode ++ ce.encode) j
      else j = k := by
  obtain ⟨⟨v₁, i₁⟩, h₁, h⟩ := except_bind_eq_ok h
  obtain ⟨⟨v₂, i₂⟩, h₂, h⟩ := except_bind_eq_ok h
  obtain ⟨⟨v₃, i₃⟩, h₃, h⟩ := except_bind_eq_ok h
  obtain ⟨⟨v₄, i₄⟩, h₄, h⟩ := except_bind_eq_ok h
  obtain ⟨i₅, h₅, h⟩ := except_bind_eq_ok h
  obtain ⟨largest, -, hlargest⟩ := readVarint_eq_ok.mp h₁
  obtain ⟨delay, -, hdelay⟩ := readVarint_eq_ok.mp h₂
  obtain ⟨count, hcount, hcountAt⟩ := readVarint_eq_ok.mp h₃
  obtain ⟨first, -, hfirst⟩ := readVarint_eq_ok.mp h₄
  obtain ⟨ranges, hlength, hranges⟩ := skipAckRanges_reads hfirst.stop_le h₅
  refine ⟨largest, delay, count, first, ranges, i₅, hcount.trans hlength.symm,
    (((hlargest.append hdelay).append hcountAt).append hfirst).append hranges, ?_⟩
  cases hasEcn with
  | false =>
    cases h
    exact rfl
  | true =>
    obtain ⟨⟨v₆, i₆⟩, h₆, h⟩ := except_bind_eq_ok h
    obtain ⟨⟨v₇, i₇⟩, h₇, h⟩ := except_bind_eq_ok h
    obtain ⟨⟨v₈, i₈⟩, h₈, h⟩ := except_bind_eq_ok h
    obtain ⟨ect0, -, hect0⟩ := readVarint_eq_ok.mp h₆
    obtain ⟨ect1, -, hect1⟩ := readVarint_eq_ok.mp h₇
    obtain ⟨ce, -, hce⟩ := readVarint_eq_ok.mp h₈
    cases h
    exact ⟨ect0, ect1, ce, (hect0.append hect1).append hce⟩

/-- A length that was checked is the length of the bytes it announces. -/
theorem value_eq_length_slice {len : Varint} {v : ℕ} (hval : len.value = v)
    (h : i + v ≤ payload.length) : len.value = (slice payload i (i + v)).length := by
  rw [length_slice (by omega) h, hval]
  omega

theorem skipReason_encode {reasonLen : Varint} {reason : Bytes}
    (hlen : reasonLen.value = reason.length) (h : Reads payload i (reasonLen.encode ++ reason) j) :
    skipReason payload i = .ok j := by
  obtain ⟨hl, hreason⟩ := reads_append.mp h
  have hj := hreason.stop_eq
  have hstop := hreason.stop_le
  simp only [skipReason, readVarint_encode _ hl, except_ok_bind, hlen]
  rw [if_neg (by omega), ← hj]

theorem skipReason_reads (h : skipReason payload i = .ok j) :
    ∃ (reasonLen : Varint) (reason : Bytes), reasonLen.value = reason.length ∧
      Reads payload i (reasonLen.encode ++ reason) j := by
  obtain ⟨⟨v, k⟩, hv, h⟩ := except_bind_eq_ok h
  obtain ⟨reasonLen, hval, hl⟩ := readVarint_eq_ok.mp hv
  dsimp only at h
  split at h
  · cases h
  · rename_i hlen
    cases h
    have hreason := reads_slice (show k ≤ k + v by omega) (not_lt.mp hlen)
    exact ⟨reasonLen, _, value_eq_length_slice hval (not_lt.mp hlen), hl.append hreason⟩

theorem skipTransportCloseFrame_reads (h : skipTransportCloseFrame payload i = .ok j) :
    ∃ (errorCode frameType reasonLen : Varint) (reason : Bytes),
      reasonLen.value = reason.length ∧
      Reads payload i (errorCode.encode ++ frameType.encode ++ (reasonLen.encode ++ reason)) j := by
  obtain ⟨⟨v₁, i₁⟩, h₁, h⟩ := except_bind_eq_ok h
  obtain ⟨⟨v₂, i₂⟩, h₂, h⟩ := except_bind_eq_ok h
  obtain ⟨errorCode, -, hcode⟩ := readVarint_eq_ok.mp h₁
  obtain ⟨frameType, -, htype⟩ := readVarint_eq_ok.mp h₂
  obtain ⟨reasonLen, reason, hlen, hreason⟩ := skipReason_reads h
  exact ⟨errorCode, frameType, reasonLen, reason, hlen, (hcode.append htype).append hreason⟩

theorem skipApplicationCloseFrame_reads (h : skipApplicationCloseFrame payload i = .ok j) :
    ∃ (errorCode reasonLen : Varint) (reason : Bytes), reasonLen.value = reason.length ∧
      Reads payload i (errorCode.encode ++ (reasonLen.encode ++ reason)) j := by
  obtain ⟨⟨v₁, i₁⟩, h₁, h⟩ := except_bind_eq_ok h
  obtain ⟨errorCode, -, hcode⟩ := readVarint_eq_ok.mp h₁
  obtain ⟨reasonLen, reason, hlen, hreason⟩ := skipReason_reads h
  exact ⟨errorCode, reasonLen, reason, hlen, hcode.append hreason⟩

end Parts

/-! ## Whole frames -/

section Frames

variable {payload : Bytes} {i j : ℕ}

/-- A frame that was encoded is read. -/
theorem readFrame_encode (frame : Frame) (h : Reads payload i frame.encode j) :
    readFrame payload i = .ok (j, frame.crypto?) := by
  obtain ⟨frameType, body, htype⟩ := frame
  obtain ⟨hty, h⟩ : Reads payload i frameType.encode (i + frameType.encode.length) ∧
      Reads payload (i + frameType.encode.length) body.encode j := reads_append.mp h
  cases body with
  | padding | ping =>
    have hj := h.stop_eq
    simp only [FrameBody.encode, List.length_nil, Nat.add_zero] at hj
    simp only [readFrame, readVarint_encode _ hty, except_ok_bind, htype, FrameBody.frameType, hj]
    rfl
  | ack largest delay count first ranges hcount =>
    simp only [readFrame, readVarint_encode _ hty, except_ok_bind, htype, FrameBody.frameType,
      skipAckFrame_encode hcount false h]
    rfl
  | ackEcn largest delay count first ranges hcount ect0 ect1 ce =>
    obtain ⟨hack, hecn⟩ := reads_append.mp h
    obtain ⟨h, hce⟩ := reads_append.mp hecn
    obtain ⟨hect0, hect1⟩ := reads_append.mp h
    simp only [readFrame, readVarint_encode _ hty, except_ok_bind, htype, FrameBody.frameType,
      skipAckFrame_encode hcount true hack, readVarint_encode _ hect0, readVarint_encode _ hect1,
      readVarint_encode _ hce]
    rfl
  | crypto offset len data hlen =>
    obtain ⟨h, hdata⟩ := reads_append.mp h
    obtain ⟨hoffset, hl⟩ := reads_append.mp h
    have hj := hdata.stop_eq
    have hstop := hdata.stop_le
    simp only [readFrame, readVarint_encode _ hty, except_ok_bind, htype, FrameBody.frameType,
      readVarint_encode _ hoffset, readVarint_encode _ hl, hlen]
    rw [if_neg (by omega), ← hj, slice_eq_of_reads hdata]
    rfl
  | transportClose errorCode type reasonLen reason hlen =>
    obtain ⟨h, hreason⟩ := reads_append.mp h
    obtain ⟨hcode, hframe⟩ := reads_append.mp h
    simp only [readFrame, readVarint_encode _ hty, except_ok_bind, htype, FrameBody.frameType,
      skipTransportCloseFrame, readVarint_encode _ hcode, readVarint_encode _ hframe,
      skipReason_encode hlen hreason]
    rfl
  | applicationClose errorCode reasonLen reason hlen =>
    obtain ⟨hcode, hreason⟩ := reads_append.mp h
    simp only [readFrame, readVarint_encode _ hty, except_ok_bind, htype, FrameBody.frameType,
      skipApplicationCloseFrame, readVarint_encode _ hcode, skipReason_encode hlen hreason]
    rfl

/-- What is read as a frame is one. -/
theorem readFrame_reads {crypto : Option (ℕ × Bytes)}
    (h : readFrame payload i = .ok (j, crypto)) :
    ∃ frame : Frame, Reads payload i frame.encode j ∧ frame.crypto? = crypto := by
  obtain ⟨⟨ty, i₁⟩, h₁, h⟩ := except_bind_eq_ok h
  obtain ⟨frameType, hval, hty⟩ := readVarint_eq_ok.mp h₁
  dsimp only at h
  -- one case for each frame type the reader knows, with the frame of that type
  split at h
  case h_1 =>
    cases h
    exact ⟨⟨frameType, .padding, hval⟩, hty.append (reads_nil hty.stop_le), rfl⟩
  case h_2 =>
    cases h
    exact ⟨⟨frameType, .ping, hval⟩, hty.append (reads_nil hty.stop_le), rfl⟩
  case h_3 =>
    obtain ⟨i₂, h₂, h⟩ := except_bind_eq_ok h
    obtain ⟨largest, delay, count, first, ranges, k, hcount, hack, hk⟩ := skipAckFrame_reads h₂
    have hk : i₂ = k := hk
    subst hk
    cases h
    exact ⟨⟨frameType, .ack largest delay count first ranges hcount, hval⟩, hty.append hack, rfl⟩
  case h_4 =>
    obtain ⟨i₂, h₂, h⟩ := except_bind_eq_ok h
    obtain ⟨largest, delay, count, first, ranges, k, hcount, hack, ect0, ect1, ce, hecn⟩ :=
      skipAckFrame_reads h₂
    cases h
    exact ⟨⟨frameType, .ackEcn largest delay count first ranges hcount ect0 ect1 ce, hval⟩,
      hty.append (hack.append hecn), rfl⟩
  case h_5 =>
    obtain ⟨⟨v₂, i₂⟩, h₂, h⟩ := except_bind_eq_ok h
    obtain ⟨⟨v₃, i₃⟩, h₃, h⟩ := except_bind_eq_ok h
    obtain ⟨offset, hoffset, hoffsetAt⟩ := readVarint_eq_ok.mp h₂
    obtain ⟨len, hlen, hlenAt⟩ := readVarint_eq_ok.mp h₃
    dsimp only at h
    split at h
    · cases h
    rename_i hfits
    cases h
    have hdata := reads_slice (show i₃ ≤ i₃ + v₃ by omega) (not_lt.mp hfits)
    have hdataLen := value_eq_length_slice hlen (not_lt.mp hfits)
    refine ⟨⟨frameType, .crypto offset len _ hdataLen, hval⟩,
      hty.append ((hoffsetAt.append hlenAt).append hdata), ?_⟩
    rw [← hoffset]
    rfl
  case h_6 =>
    obtain ⟨i₂, h₂, h⟩ := except_bind_eq_ok h
    obtain ⟨errorCode, type, reasonLen, reason, hlen, hclose⟩ := skipTransportCloseFrame_reads h₂
    cases h
    exact ⟨⟨frameType, .transportClose errorCode type reasonLen reason hlen, hval⟩,
      hty.append hclose, rfl⟩
  case h_7 =>
    obtain ⟨i₂, h₂, h⟩ := except_bind_eq_ok h
    obtain ⟨errorCode, reasonLen, reason, hlen, hclose⟩ := skipApplicationCloseFrame_reads h₂
    cases h
    exact ⟨⟨frameType, .applicationClose errorCode reasonLen reason hlen, hval⟩,
      hty.append hclose, rfl⟩
  case h_8 => cases h

/-- Only the frame types of the grammar are read. -/
theorem readFrame_type {frameType : Varint} {crypto : Option (ℕ × Bytes)} {k : ℕ}
    (hty : Reads payload i frameType.encode k) (h : readFrame payload i = .ok (j, crypto)) :
    frameType.value ∈ initialFrameTypes := by
  obtain ⟨frame, hr, -⟩ := readFrame_reads h
  obtain ⟨hty', -⟩ := reads_append.mp hr
  have hsame := (readVarint_encode _ hty).symm.trans (readVarint_encode _ hty')
  have hval : frameType.value = frame.body.frameType := by
    rw [← frame.type_eq]
    exact congrArg Prod.fst (Except.ok.inj hsame)
  rw [hval]
  exact frame.body.frameType_mem

/-- A frame that is read does not depend on what follows it. -/
theorem readFrame_append (rest : Bytes) {crypto : Option (ℕ × Bytes)}
    (h : readFrame payload i = .ok (j, crypto)) :
    readFrame (payload ++ rest) i = .ok (j, crypto) := by
  obtain ⟨frame, hr, rfl⟩ := readFrame_reads h
  exact readFrame_encode frame (hr.mono (List.prefix_append ..))

end Frames

/-! ## The loop -/

section Loop

variable {payload : Bytes} {i j : ℕ}

/-- One turn of the loop. -/
theorem readCryptoFramesFrom_ok {crypto : Option (ℕ × Bytes)}
    (h : readFrame payload i = .ok (j, crypto)) :
    readCryptoFramesFrom payload i =
      (readCryptoFramesFrom payload j).map fun frames => crypto.toList ++ frames := by
  have hbounds := readFrame_bounds h
  rw [readCryptoFramesFrom, if_pos (by omega)]
  split
  · rename_i e he
    rw [h] at he
    cases he
  · rename_i j' crypto' he
    rw [h] at he
    cases he
    cases readCryptoFramesFrom payload j <;> rfl

/-- The first frame that fails ends the loop. -/
theorem readCryptoFramesFrom_error {e : String} (hi : i < payload.length)
    (h : readFrame payload i = .error e) : readCryptoFramesFrom payload i = .error e := by
  rw [readCryptoFramesFrom, if_pos hi]
  split
  · rename_i e' he
    rw [h] at he
    cases he
    rfl
  · rename_i j' crypto' he
    rw [h] at he
    cases he

/-- The loop passes over whole frames and keeps the data of those that are CRYPTO frames. -/
theorem readCryptoFramesFrom_frames {frames : List Frame}
    (h : Reads payload i (encodeFrames frames) j) :
    readCryptoFramesFrom payload i =
      (readCryptoFramesFrom payload j).map fun rest => frames.filterMap Frame.crypto? ++ rest := by
  induction frames generalizing i with
  | nil =>
    have : j = i := h.stop_eq
    rw [this]
    cases readCryptoFramesFrom payload i <;> rfl
  | cons frame frames ih =>
    obtain ⟨hframe, hrest⟩ := reads_append.mp h
    rw [readCryptoFramesFrom_ok (readFrame_encode frame hframe), ih hrest]
    cases readCryptoFramesFrom payload j with
    | error e => rfl
    | ok rest =>
      cases hcrypto : frame.crypto? with
      | none => simp [Except.map, hcrypto]
      | some data => simp [Except.map, hcrypto]

/-- A payload that is read to its end is made of frames. -/
theorem readCryptoFramesFrom_reads {crypto : List (ℕ × Bytes)} (hi : i ≤ payload.length)
    (h : readCryptoFramesFrom payload i = .ok crypto) :
    ∃ frames : List Frame, Reads payload i (encodeFrames frames) payload.length ∧
      frames.filterMap Frame.crypto? = crypto := by
  fun_induction readCryptoFramesFrom payload i generalizing crypto with
  | case1 => cases h
  | case2 i hlt j data hframe _ ih =>
    have hbounds := readFrame_bounds hframe
    obtain ⟨rest, hrest, h⟩ := except_bind_eq_ok h
    obtain ⟨frame, hr, hdata⟩ := readFrame_reads hframe
    obtain ⟨frames, hframes, hcrypto⟩ := ih hbounds.2.1 hrest
    cases h
    refine ⟨frame :: frames, hr.append hframes, ?_⟩
    cases data with
    | none => simp [hdata, hcrypto]
    | some f => simp [hdata, hcrypto]
  | case3 i hge =>
    cases h
    have : i = payload.length := by omega
    subst this
    exact ⟨[], reads_nil le_rfl, rfl⟩

/-- The frames before a place where no frame can be read do not help. -/
theorem readCryptoFrames_error {frames : List Frame} {rest : Bytes} (hne : rest ≠ [])
    (h : ∀ j crypto, readFrame (encodeFrames frames ++ rest) (encodeFrames frames).length ≠
      .ok (j, crypto)) :
    ∃ e, readCryptoFrames (encodeFrames frames ++ rest) = .error e := by
  have hr : Reads (encodeFrames frames ++ rest) 0 (encodeFrames frames)
      (encodeFrames frames).length := by
    have := reads_middle [] (encodeFrames frames) rest
    simpa using this
  have hlt : (encodeFrames frames).length < (encodeFrames frames ++ rest).length := by
    have := List.length_pos_iff.mpr hne
    rw [List.length_append]
    omega
  rw [readCryptoFrames, readCryptoFramesFrom_frames hr]
  cases hframe : readFrame (encodeFrames frames ++ rest) (encodeFrames frames).length with
  | error e => exact ⟨e, by rw [readCryptoFramesFrom_error hlt hframe]; rfl⟩
  | ok result => exact absurd hframe (h result.1 result.2)

end Loop

/-- Frames that were encoded are read, and their CRYPTO data is kept in order. -/
theorem readCryptoFrames_encode (frames : List Frame) :
    readCryptoFrames (encodeFrames frames) = .ok (frames.filterMap Frame.crypto?) := by
  have hwhole := reads_whole.mpr (rfl : encodeFrames frames = encodeFrames frames)
  have hend : readCryptoFramesFrom (encodeFrames frames) (encodeFrames frames).length =
      .ok [] := by
    rw [readCryptoFramesFrom, if_neg (by omega)]
  rw [readCryptoFrames, readCryptoFramesFrom_frames hwhole, hend]
  simp [Except.map]

/-- A payload that ends inside a frame is refused: what is read from it would also be read from
the payload with the rest of the frame, and that is the whole frame. -/
theorem readCryptoFrames_cut (frames : List Frame) (frame : Frame) {cut rest : Bytes}
    (hframe : frame.encode = cut ++ rest) (hcut : cut ≠ []) (hrest : rest ≠ []) :
    ∃ e, readCryptoFrames (encodeFrames frames ++ cut) = .error e := by
  refine readCryptoFrames_error hcut ?_
  intro j crypto h
  have hbound := (readFrame_bounds h).2.1
  have hlong := readFrame_append rest h
  rw [List.append_assoc, ← hframe] at hlong
  have hr : Reads (encodeFrames frames ++ frame.encode) (encodeFrames frames).length frame.encode
      ((encodeFrames frames).length + frame.encode.length) := by
    have := reads_middle (encodeFrames frames) frame.encode []
    simpa using this
  have hsame := hlong.symm.trans (readFrame_encode frame hr)
  have hj : j = (encodeFrames frames).length + frame.encode.length :=
    congrArg Prod.fst (Except.ok.inj hsame)
  have hpos := List.length_pos_iff.mpr hrest
  rw [hj, hframe] at hbound
  simp only [List.length_append] at hbound
  omega

/-- A frame of any other type is an error, after whatever frames. -/
theorem readCryptoFrames_other (frames : List Frame) {frameType : Varint} (rest : Bytes)
    (hother : frameType.value ∉ initialFrameTypes) :
    ∃ e, readCryptoFrames (encodeFrames frames ++ (frameType.encode ++ rest)) = .error e := by
  have hty := reads_middle (encodeFrames frames) frameType.encode rest
  rw [List.append_assoc] at hty
  refine readCryptoFrames_error (by simp [Varint.encode_ne_nil]) ?_
  intro j crypto h
  exact hother (readFrame_type hty h)

/-- The reader succeeds exactly on the concatenations of encoded frames, with their CRYPTO frames
in order. A payload that ends inside a frame is refused, and so is one in which another frame type
follows some frames. -/
theorem readCryptoFrames_grammar :
    (∀ frames : List Frame, readCryptoFrames (encodeFrames frames) =
      .ok (frames.filterMap Frame.crypto?)) ∧
    (∀ (payload : Bytes) (crypto : List (ℕ × Bytes)), readCryptoFrames payload = .ok crypto →
      ∃ frames : List Frame, payload = encodeFrames frames ∧
        frames.filterMap Frame.crypto? = crypto) ∧
    (∀ (frames : List Frame) (frame : Frame) (cut rest : Bytes), frame.encode = cut ++ rest →
      cut ≠ [] → rest ≠ [] → ∃ e, readCryptoFrames (encodeFrames frames ++ cut) = .error e) ∧
    (∀ (frames : List Frame) (frameType : Varint) (rest : Bytes),
      frameType.value ∉ initialFrameTypes →
      ∃ e, readCryptoFrames (encodeFrames frames ++ (frameType.encode ++ rest)) = .error e) := by
  refine ⟨readCryptoFrames_encode, ?_, ?_, ?_⟩
  · intro payload crypto h
    obtain ⟨frames, hr, hcrypto⟩ := readCryptoFramesFrom_reads (Nat.zero_le _) h
    exact ⟨frames, (reads_whole.mp hr).symm, hcrypto⟩
  · intro frames frame cut rest hframe hcut hrest
    exact readCryptoFrames_cut frames frame hframe hcut hrest
  · intro frames frameType rest hother
    exact readCryptoFrames_other frames rest hother

/-- A PING frame with its type in two bytes. -/
def widePing : Frame := ⟨⟨1, 1, by decide, by decide⟩, .ping, rfl⟩

/-- A CRYPTO frame with the data `ab`. -/
def cryptoAb : Frame :=
  ⟨.short 6 (by decide),
    .crypto (.short 0 (by decide)) (.short 2 (by decide)) [0x61, 0x62] rfl, rfl⟩

/-- The grammar on the two frames, on the two frames without the last byte, and on the first
followed by a frame of type `8`. -/
theorem readCryptoFrames_grammar_widePing :
    (∃ frames : List Frame, [0x40, 0x01, 0x06, 0x00, 0x02, 0x61, 0x62] = encodeFrames frames ∧
      frames.filterMap Frame.crypto? = [(0, [0x61, 0x62])]) ∧
    (∃ e, readCryptoFrames [0x40, 0x01, 0x06, 0x00, 0x02, 0x61] = .error e) ∧
    (∃ e, readCryptoFrames [0x40, 0x01, 0x08, 0x61] = .error e) := by
  have hping : encodeFrames [widePing] = [0x40, 0x01] := by decide
  have hcut := readCryptoFrames_grammar.2.2.1 [widePing] cryptoAb [0x06, 0x00, 0x02, 0x61] [0x62]
    (by decide) (by decide) (by decide)
  have hother := readCryptoFrames_grammar.2.2.2 [widePing] (.short 8 (by decide)) [0x61]
    (by decide)
  rw [hping] at hcut hother
  exact ⟨readCryptoFrames_grammar.2.1 _ _ (by decide +kernel), hcut, hother⟩

end SniRouter
