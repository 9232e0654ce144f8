import SniRouter.H3.Checked
import SniRouter.Wire

/-!
# Packets on a machine

The readers of `Checked` compute what their mathematical versions do, with or without overflow
checks, on every datagram: no addition or shift leaves its type, no index or slice is out of
range, no `expect` fails, and no loop runs out of fuel. Where a length that was read is added to
a cursor this needs a 64-bit machine (`cursor_add_lt`); everything else holds on both.
-/

namespace SniRouter.Checked

open Exec

variable {m : Target}

theorem range_slice {buf : Bytes} {start stop : ℕ} (hstart : start ≤ stop)
    (hstop : stop ≤ buf.length) : range buf start stop = .ok (slice buf start stop) :=
  range_eq hstart hstop

/-! ## Integers -/

/-- A byte is put into the free lowest bits, so `|` adds it. -/
theorem or_byte_eq (value : ℕ) (b : UInt8) : value * 2 ^ 8 ||| b.toNat = value * 256 + b.toNat := by
  rw [Nat.mul_comm, ← Nat.two_pow_add_eq_or_of_lt b.toNat_lt]
  omega

/-- Shifting a byte into a value of at most 56 bits loses nothing. -/
theorem shiftIn_eq {value : ℕ} (h : value * 256 < 2 ^ 64) (b : UInt8) :
    shiftIn m value b = .ok (value * 256 + b.toNat) := by
  rw [shiftIn, Target.shl_eq (by decide) (by omega), ok_bind, or_byte_eq]
  rfl

/-- An integer that leaves room for `n + 1` bytes leaves room for `n` behind the next one. -/
theorem shift_room {value n : ℕ} (h : (value + 1) * 256 ^ (n + 1) ≤ 2 ^ 64) (b : UInt8) :
    value * 256 < 2 ^ 64 ∧ (value * 256 + b.toNat + 1) * 256 ^ n ≤ 2 ^ 64 := by
  have hb : b.toNat < 256 := b.toNat_lt
  have hpow : 1 ≤ 256 ^ n := Nat.one_le_pow _ _ (by decide)
  have hstep : (value * 256 + 256) * 256 ^ n ≤ 2 ^ 64 := by
    rw [pow_succ'] at h
    linarith
  have hvalue : value * 256 + 256 ≤ 2 ^ 64 := (Nat.le_mul_of_pos_right _ hpow).trans hstep
  exact ⟨by omega, (Nat.mul_le_mul_right _ (by omega)).trans hstep⟩

/-- No bit of the integer is shifted out. -/
theorem foldlM_shiftIn (bytes : Bytes) {value : ℕ} (h : (value + 1) * 256 ^ bytes.length ≤ 2 ^ 64) :
    bytes.foldlM (shiftIn m) value =
      .ok (bytes.foldl (fun value b => value * 256 + b.toNat) value) := by
  induction bytes generalizing value with
  | nil => rfl
  | cons b bytes ih =>
    obtain ⟨hvalue, hnext⟩ := shift_room h b
    rw [List.foldlM_cons, shiftIn_eq hvalue, ok_bind, ih hnext]
    rfl

theorem width_lt (first : UInt8) : (first >>> 6).toNat < 4 := by
  have hfirst : first.toNat < 256 := first.toNat_lt
  rw [varint_width_byte]
  omega

section Buffer

variable {buf : Bytes} (hbuf : buf.length ≤ 65535)

include hbuf

/-- A varint is read without a panic, at any position. -/
theorem readVarintAt_eq (i : ℕ) :
    readVarintAt m buf i = liftError (SniRouter.readVarintAt buf i) := by
  unfold readVarintAt SniRouter.readVarintAt
  cases hget : buf[i]? with
  | none => rfl
  | some first =>
    obtain ⟨hi, -⟩ := List.getElem?_eq_some_iff.mp hget
    have hm := m.width.two_pow_le_modulus
    have hwidth := width_lt first
    have hpow : 1 ≤ 2 ^ (first >>> 6).toNat := Nat.one_le_two_pow
    have hlen : 2 ^ (first >>> 6).toNat ≤ 2 ^ 3 := Nat.pow_le_pow_right (by decide) (by omega)
    have hbits : 32 ≤ m.width.bits := by cases m.width <;> decide
    have hfit : 1 * 2 ^ (first >>> 6).toNat < 2 ^ m.width.bits := by
      have := Nat.pow_lt_pow_right (a := 2) (by decide) (show 3 < m.width.bits by omega)
      omega
    simp only [orBail, ok_bind, Target.shl_eq (m := m) (show _ < m.width.bits by omega) hfit,
      Nat.one_mul, Nat.one_shiftLeft]
    refine Target.exceeds_ite (by omega) (fun _ => rfl) fun hle => ?_
    have hvalue : (first &&& 0x3f).toNat < 64 := by
      rw [varint_value_byte]
      omega
    rw [Target.add_eq (by omega), ok_bind, Target.add_eq (by omega), ok_bind,
      range_eq (by omega) (by omega), ok_bind, foldlM_shiftIn]
    · rfl
    · have hmore : ((buf.take (i + 2 ^ (first >>> 6).toNat)).drop (i + 1)).length ≤ 7 := by
        rw [List.length_drop, List.length_take]
        omega
      have h256 := Nat.pow_le_pow_right (n := 256) (by decide) hmore
      calc _ ≤ 64 * 256 ^ 7 := Nat.mul_le_mul (by omega) h256
        _ ≤ 2 ^ 64 := by decide

theorem readVarint_eq (i : ℕ) : readVarint m buf i = liftError (SniRouter.readVarint buf i) := by
  refine liftError_bind (readVarintAt_eq hbuf i) fun ⟨value, len⟩ h => ?_
  have hm := m.width.two_pow_le_modulus
  have hbounds := readVarintAt_bounds h
  show (m.add i len >>= fun offset => _) = _
  rw [Target.add_eq (by omega)]
  rfl

/-! ## Headers -/

omit hbuf in
/-- The four bytes of the version. -/
theorem slice_version (h : 5 ≤ buf.length) :
    slice buf 1 5 = [buf.getD 1 0, buf.getD 2 0, buf.getD 3 0, buf.getD 4 0] := by
  match buf, h with
  | _ :: _ :: _ :: _ :: _ :: _, _ => rfl

/-- `parse_long_packet_cids` panics on no input. -/
theorem parseLongPacketCids_eq :
    parseLongPacketCids m buf = liftError (SniRouter.parseLongPacketCids buf) := by
  unfold parseLongPacketCids SniRouter.parseLongPacketCids
  cases hhead : buf.head? with
  | none => rfl
  | some first =>
    refine liftError_ite (fun _ => rfl) fun _ => ?_
    refine liftError_ite (fun _ => rfl) fun h7 => ?_
    have hm := m.width.two_pow_le_modulus
    have hfirst : buf.getD 0 0 = first := by
      rw [List.getD_eq_getElem?_getD, ← List.head?_eq_getElem?, hhead]
      rfl
    have hdcid : (buf.getD 5 0).toNat = byteAt buf 5 := rfl
    have hdcidLt := byteAt_lt buf 5
    rw [index_eq (show 0 < buf.length by omega) 0, ok_bind,
      index_eq (show 1 < buf.length by omega) 0, ok_bind,
      index_eq (show 2 < buf.length by omega) 0, ok_bind,
      index_eq (show 3 < buf.length by omega) 0, ok_bind,
      index_eq (show 4 < buf.length by omega) 0, ok_bind,
      index_eq (show 5 < buf.length by omega) 0, ok_bind, hfirst, hdcid,
      ← slice_version (show 5 ≤ buf.length by omega)]
    rw [Target.add_eq (by omega), ok_bind, Target.add_eq (by omega), ok_bind]
    refine Target.exceeds_ite (by omega) (fun _ => rfl) fun hdcidEnd => ?_
    have hscid : (buf.getD (5 + 1 + byteAt buf 5) 0).toNat = byteAt buf (6 + byteAt buf 5) := rfl
    have hscidLt := byteAt_lt buf (6 + byteAt buf 5)
    rw [range_eq (by omega) (by omega), ok_bind, ok_bind, index_eq (by omega) 0, ok_bind, hscid,
      Target.add_eq (by omega), ok_bind]
    refine Target.exceeds_ite (by omega) (fun _ => rfl) fun hscidEnd => ?_
    rw [Target.add_eq (by omega), ok_bind, range_eq (by omega) (by omega)]
    rfl

omit hbuf in
/-- The connection IDs end inside the packet. -/
theorem parseLongPacketCids_length {cids : LongPacketCids}
    (h : SniRouter.parseLongPacketCids buf = .ok (some cids)) :
    5 + 1 + cids.dcid.length + 1 + cids.scid.length ≤ buf.length := by
  unfold SniRouter.parseLongPacketCids at h
  split at h
  · cases h
  split at h
  · cases h
  split at h
  · cases h
  dsimp only at h
  split at h
  · cases h
  split at h
  · cases h
  · cases h
    have hdcid := length_slice_le buf 6 (6 + byteAt buf 5)
    have hscid := length_slice_le buf (6 + byteAt buf 5 + 1)
      (6 + byteAt buf 5 + 1 + byteAt buf (6 + byteAt buf 5))
    simp only
    omega

omit hbuf in
theorem readVarint_value_lt {i value j : ℕ} (h : SniRouter.readVarint buf i = .ok (value, j)) :
    value < 2 ^ 62 := by
  obtain ⟨x, rfl, -⟩ := readVarint_eq_ok.mp h
  exact x.value_lt

/-- `skipVector` without the bounds of a machine. -/
def exactSkip (truncated : String) (buf : Bytes) (i : ℕ) : Except String ℕ := do
  let (len, i) ← SniRouter.readVarint buf i
  if buf.length < i + len then .error truncated else .ok (i + len)

omit hbuf in
theorem exactSkip_bind {β : Type} (truncated : String) (i : ℕ) (f : ℕ → Except String β) :
    (exactSkip truncated buf i >>= f) = (do
      let (len, i) ← SniRouter.readVarint buf i
      if buf.length < i + len then .error truncated else f (i + len)) := by
  unfold exactSkip
  cases SniRouter.readVarint buf i with
  | error e => rfl
  | ok r =>
    obtain ⟨len, j⟩ := r
    simp only [except_ok_bind]
    split <;> rfl

/-- `headerBehindToken` without the bounds of a machine. -/
def exactBehindToken (cids : LongPacketCids) (packet : Bytes) (i : ℕ) :
    Except String InitialHeader := do
  let (packetLen, i) ← SniRouter.readVarint packet i
  if i + packetLen > packet.length then .error "truncated QUIC Initial packet payload"
  else .ok ⟨cids, i, i + packetLen⟩

/-- A vector is skipped without a panic if the sum of its length check does not overflow. -/
theorem skipVector_eq {i : ℕ} (tooLarge truncated : String)
    (hsum : ∀ len j, SniRouter.readVarint buf i = .ok (len, j) → j + len < m.width.modulus) :
    skipVector m tooLarge truncated buf i = liftError (exactSkip truncated buf i) := by
  refine liftError_bind (readVarint_eq hbuf i) fun ⟨len, j⟩ h => ?_
  have hsum := hsum len j h
  simp only [Target.tryFromU64_eq (m := m) (show len < _ by omega), orBail, ok_bind]
  exact Target.exceeds_ite hsum (fun _ => rfl) fun _ => Target.add_eq hsum

section Wide

variable (hwide : m.width = .bits64)

include hwide

omit hbuf in
theorem modulus_eq : m.width.modulus = 2 ^ 64 := by rw [hwide]; rfl

/-- On a 64-bit machine no sum of a cursor and a length wraps around. -/
theorem cursor_add_lt {i len j : ℕ} (h : SniRouter.readVarint buf i = .ok (len, j)) :
    j + len < m.width.modulus := by
  have hlen := readVarint_value_lt h
  have hj := readVarint_bounds h
  rw [modulus_eq hwide]
  omega

/-- With 64 bits no length check overflows. -/
theorem skipVector_eq_wide (tooLarge truncated : String) (i : ℕ) :
    skipVector m tooLarge truncated buf i = liftError (exactSkip truncated buf i) :=
  skipVector_eq hbuf tooLarge truncated fun _ _ h => cursor_add_lt hbuf hwide h

theorem headerBehindToken_eq (cids : LongPacketCids) (i : ℕ) :
    headerBehindToken m cids buf i = liftError (exactBehindToken cids buf i) := by
  refine liftError_bind (readVarint_eq hbuf i) fun ⟨packetLen, j⟩ h => ?_
  have hsum := cursor_add_lt hbuf hwide h
  simp only [Target.tryFromU64_eq (m := m) (show packetLen < _ by omega),
    Target.checkedAdd_eq hsum, orBail, ok_bind]
  exact liftError_ite (fun _ => rfl) fun _ => rfl

/-- With 64 bits, `parse_initial_header` panics on no input. -/
theorem parseInitialHeader_eq :
    parseInitialHeader m buf = liftError (SniRouter.parseInitialHeader buf) := by
  refine liftError_bind (parseLongPacketCids_eq hbuf) fun long hlong => ?_
  have hm := m.width.two_pow_le_modulus
  cases long with
  | none => rfl
  | some cids =>
    have hcids := parseLongPacketCids_length hlong
    refine liftError_ite (fun _ => rfl) fun _ => ?_
    refine liftError_ite (fun _ => rfl) fun _ => ?_
    rw [Target.add_eq (by omega), ok_bind, Target.add_eq (by omega), ok_bind,
      Target.add_eq (by omega), ok_bind]
    refine Eq.trans ?_ (congrArg liftError
      (exactSkip_bind "truncated QUIC Initial token" _ (exactBehindToken cids buf)))
    exact liftError_bind (skipVector_eq_wide hbuf hwide _ _ _) fun i _ =>
      headerBehindToken_eq hbuf hwide cids i

end Wide

end Buffer

/-- The packet number lies between the connection IDs and the end of the packet. -/
theorem parseInitialHeader_offset {packet : Bytes} {header : InitialHeader}
    (h : SniRouter.parseInitialHeader packet = .ok header) :
    0 < header.packetNumberOffset ∧ header.packetNumberOffset ≤ header.packetEnd ∧
      header.packetEnd ≤ packet.length := by
  have hend := (parseInitialHeader_ok h).2.2.2
  obtain ⟨long, hlong, h⟩ := except_bind_eq_ok h
  cases long with
  | none => cases h
  | some cids =>
    dsimp only at h
    split at h
    · cases h
    split at h
    · cases h
    obtain ⟨⟨tokenLen, i₁⟩, h₁, h⟩ := except_bind_eq_ok h
    dsimp only at h
    split at h
    · cases h
    obtain ⟨⟨packetLen, i₂⟩, h₂, h⟩ := except_bind_eq_ok h
    have b₂ := readVarint_bounds h₂
    dsimp only at h
    split at h
    · cases h
    · cases h
      exact ⟨by show 0 < i₂; omega, Nat.le_add_right _ _, hend⟩

/-! ## Decryption -/

/-- What is relied on of the cryptographic library: a header protection mask has five bytes,
opening never makes a payload longer, and an expansion fills its output. -/
structure RingLaws (cr : Crypto) : Prop where
  mask_length : ∀ key sample mask : Bytes, cr.newMask key sample = some mask → mask.length = 5
  open_length : ∀ key nonce associatedData ciphertext payload : Bytes,
    cr.openInPlace key nonce associatedData ciphertext = some payload →
      payload.length ≤ ciphertext.length
  expand_length : ∀ (prk info : Bytes) (len : ℕ) (out : Bytes),
    cr.hkdfExpand prk info len = some out → out.length = len

section Decrypt

variable {cr : Crypto}

/-- No sum in `hkdf_expand_label` overflows for a label of at most 65535 bytes. -/
theorem hkdfExpandLabel_eq (secret label : Bytes) (len : ℕ) (hlabel : label.length ≤ 65535) :
    hkdfExpandLabel m cr secret label len =
      liftError (SniRouter.hkdfExpandLabel cr secret label len) := by
  have hm := m.width.two_pow_le_modulus
  have htls : tls13Label.length = 6 := rfl
  unfold hkdfExpandLabel SniRouter.hkdfExpandLabel
  rw [Target.add_eq (by omega), ok_bind]
  refine liftError_ite (fun _ => rfl) fun _ => ?_
  refine liftError_ite (fun _ => rfl) fun _ => ?_
  rw [Target.add_eq (by omega), ok_bind, Target.add_eq (by omega), ok_bind]
  dsimp only
  generalize toBeBytes 2 len ++ _ ++ _ ++ _ ++ _ = info
  cases cr.hkdfExpand secret info len <;> rfl

theorem hkdfExpandLabel_length (laws : RingLaws cr) {secret label out : Bytes} {len : ℕ}
    (h : SniRouter.hkdfExpandLabel cr secret label len = .ok out) : out.length = len := by
  unfold SniRouter.hkdfExpandLabel at h
  dsimp only at h
  split at h
  · cases h
  split at h
  · cases h
  split at h
  · cases h
  · rename_i hout
    cases h
    exact laws.expand_length _ _ _ _ hout

/-- The keys of a connection are derived without a panic. -/
theorem initialKeyBytes_eq (laws : RingLaws cr) (dcid : Bytes) :
    initialKeyBytes m cr dcid = liftError (SniRouter.initialKeyBytes cr dcid) := by
  refine liftError_bind (hkdfExpandLabel_eq _ _ _ (by decide)) fun secret _ => ?_
  refine liftError_bind (hkdfExpandLabel_eq _ _ _ (by decide)) fun key hkey => ?_
  refine liftError_bind (hkdfExpandLabel_eq _ _ _ (by decide)) fun iv hiv => ?_
  refine liftError_bind (hkdfExpandLabel_eq _ _ _ (by decide)) fun hp hhp => ?_
  rw [array_eq (hkdfExpandLabel_length laws hkey), ok_bind,
    array_eq (hkdfExpandLabel_length laws hiv), ok_bind,
    array_eq (hkdfExpandLabel_length laws hhp), ok_bind]
  rfl

theorem initialKeyBytes_iv_length (laws : RingLaws cr) {dcid : Bytes} {keys : InitialKeyBytes}
    (h : SniRouter.initialKeyBytes cr dcid = .ok keys) : keys.iv.length = 12 := by
  obtain ⟨secret, -, h⟩ := except_bind_eq_ok h
  obtain ⟨key, -, h⟩ := except_bind_eq_ok h
  obtain ⟨iv, hiv, h⟩ := except_bind_eq_ok h
  obtain ⟨hp, -, h⟩ := except_bind_eq_ok h
  cases h
  exact hkdfExpandLabel_length laws hiv

/-- The packet number is mixed into a nonce of twelve bytes. -/
theorem packetNonce_eq {iv : Bytes} (hiv : iv.length = 12) (packetNumber : ℕ) :
    packetNonce iv packetNumber = .ok (SniRouter.packetNonce iv packetNumber) := by
  rw [packetNonce, range_eq (by omega) (le_refl _), ok_bind, List.take_length]
  rfl

/-- The mask has a byte for every byte of the packet number. -/
theorem unmaskNumber_eq {mask : Bytes} (bytes : Bytes) {i packetNumber : ℕ}
    (hmask : i + bytes.length < mask.length) (hsmall : mask.length ≤ 65535)
    (hnumber : (packetNumber + 1) * 256 ^ bytes.length ≤ 2 ^ 64) :
    unmaskNumber m mask i packetNumber bytes =
      let number := List.zipWith (· ^^^ ·) bytes (mask.drop (i + 1))
      .ok (number, number.foldl (fun value b => value * 256 + b.toNat) packetNumber) := by
  have hm := m.width.two_pow_le_modulus
  induction bytes generalizing i packetNumber with
  | nil => rfl
  | cons byte bytes ih =>
    rw [List.length_cons] at hmask hnumber
    have hdrop : mask.drop (i + 1) = mask.getD (i + 1) 0 :: mask.drop (i + 1 + 1) := by
      have hi : i + 1 < mask.length := by omega
      rw [List.drop_eq_getElem_cons hi, List.getD_eq_getElem?_getD, List.getElem?_eq_getElem hi]
      rfl
    obtain ⟨hvalue, hnext⟩ := shift_room hnumber (byte ^^^ mask.getD (i + 1) 0)
    rw [unmaskNumber, Target.add_eq (by omega), ok_bind, index_eq (by omega) 0, ok_bind,
      shiftIn_eq hvalue, ok_bind, ih (by omega) hnext, hdrop]
    rfl

/-- The header as associated data, before the packet number is unmasked. -/
theorem associatedData_eq (packet : Bytes) (first : UInt8) {offset stop : ℕ} (hoffset : 0 < offset)
    (hstop : offset ≤ stop) (hpacket : stop ≤ packet.length) :
    let data := (packet.take stop).set 0 first
    data.length = stop ∧ data.take offset = first :: slice packet 1 offset ∧
      data.drop offset = slice packet offset stop := by
  cases packet with
  | nil =>
    rw [List.length_nil] at hpacket
    omega
  | cons b packet =>
    obtain ⟨offset, rfl⟩ := Nat.exists_eq_succ_of_ne_zero hoffset.ne'
    obtain ⟨stop, rfl⟩ := Nat.exists_eq_succ_of_ne_zero (show stop ≠ 0 by omega)
    rw [List.length_cons] at hpacket
    refine ⟨?_, ?_, ?_⟩
    · simp only [List.length_set, List.length_take, List.length_cons]
      omega
    · show first :: (packet.take stop).take offset = first :: packet.take offset
      rw [List.take_take, Nat.min_eq_left (by omega)]
    · rfl

/-- `decrypt_initial_packet_with_dcid` panics on no datagram. -/
theorem decryptInitialPacketWithDcid_eq (laws : RingLaws cr) {packet : Bytes}
    (hpacket : packet.length ≤ 65535) (hwide : m.width = .bits64) (keyDcid : Option Bytes) :
    decryptInitialPacketWithDcid m cr packet keyDcid =
      liftError (SniRouter.decryptInitialPacketWithDcid cr packet keyDcid) := by
  refine liftError_bind (parseInitialHeader_eq hpacket hwide) fun header hheader => ?_
  refine liftError_bind (initialKeyBytes_eq laws _) fun keys hkeys => ?_
  obtain ⟨hpos, hoffset, hend⟩ := parseInitialHeader_offset hheader
  have hm := m.width.two_pow_le_modulus
  rw [Target.add_eq (by omega), ok_bind]
  refine Target.exceeds_ite (by omega) (fun _ => rfl) fun hlong => ?_
  rw [Target.add_eq (by omega), ok_bind, range_slice (by omega) (by omega), ok_bind]
  cases hmask : cr.newMask keys.hp
      (slice packet (header.packetNumberOffset + 4) (header.packetNumberOffset + 4 + 16)) with
  | none => rfl
  | some mask =>
    have hmasklen := laws.mask_length _ _ _ hmask
    rw [orBail, ok_bind, index_eq (show 0 < packet.length by omega) 0, ok_bind,
      index_eq (show 0 < mask.length by omega) 0, ok_bind]
    dsimp only
    generalize packet.getD 0 0 ^^^ (mask.getD 0 0 &&& 0x0f) = first
    have hlen : (first &&& 0x03).toNat < 4 := by
      rw [UInt8.toNat_and]
      exact Nat.and_lt_two_pow first.toNat (show (0x03 : UInt8).toNat < 2 ^ 2 by decide)
    rw [Target.add_eq (by omega), ok_bind, Target.add_eq (by omega), ok_bind]
    refine liftError_ite (fun _ => rfl) fun hnumber => ?_
    -- the packet number has at most four bytes, one for each byte of the mask behind the first
    obtain ⟨hdatalen, htake, hdrop⟩ := associatedData_eq packet first hpos
      (show header.packetNumberOffset ≤ header.packetNumberOffset + ((first &&& 0x03).toNat + 1)
        by omega) (by omega)
    have hnumberlen : (slice packet header.packetNumberOffset
        (header.packetNumberOffset + ((first &&& 0x03).toNat + 1))).length =
          (first &&& 0x03).toNat + 1 := by
      rw [length_slice (by omega) (by omega)]
      omega
    have hroom : (0 + 1) * 256 ^ ((first &&& 0x03).toNat + 1) ≤ 2 ^ 64 := by
      have hpow := Nat.pow_le_pow_right (n := 256) (by decide)
        (show (first &&& 0x03).toNat + 1 ≤ 4 by omega)
      omega
    rw [range_eq (Nat.zero_le _) (by omega), ok_bind, List.drop_zero,
      index_eq (by rw [List.length_take]; omega) 0, ok_bind,
      range_eq (by omega) (le_refl _), ok_bind, List.take_length, hdrop,
      unmaskNumber_eq _ (by omega) (by omega) (by rw [hnumberlen]; exact hroom), ok_bind, htake]
    rw [range_slice (by omega) (by omega), ok_bind,
      packetNonce_eq (initialKeyBytes_iv_length laws hkeys), ok_bind]
    simp only [beNat, Nat.zero_add]
    generalize cr.openInPlace _ _ _ _ = opened
    cases opened <;> rfl

end Decrypt

/-! ## Frames -/

section Frames

variable {payload : Bytes} (hpayload : payload.length ≤ 65535)

include hpayload

/-- Every pair takes two bytes at least, so that the loop ends with the payload however many
pairs are announced. -/
theorem skipAckRanges_eq {fuel count i : ℕ} (hi : i ≤ payload.length)
    (hfuel : payload.length < i + fuel) :
    skipAckRanges m payload fuel count i = liftError (SniRouter.skipAckRanges payload count i) := by
  induction fuel generalizing count i with
  | zero => omega
  | succ fuel ih =>
    cases count with
    | zero => rfl
    | succ count =>
      refine liftError_bind (readVarint_eq hpayload i) fun ⟨_, i₁⟩ h₁ => ?_
      refine liftError_bind (readVarint_eq hpayload i₁) fun ⟨_, i₂⟩ h₂ => ?_
      have b₁ := readVarint_bounds h₁
      have b₂ := readVarint_bounds h₂
      exact ih b₂.2 (by omega)

/-- An ACK frame is skipped without a panic, with fuel for all its ranges. -/
theorem skipAckFrame_eq {fuel : ℕ} (hfuel : payload.length < fuel) (i : ℕ) (hasEcn : Bool) :
    skipAckFrame m fuel payload i hasEcn =
      liftError (SniRouter.skipAckFrame payload i hasEcn) := by
  refine liftError_bind (readVarint_eq hpayload i) fun ⟨_, i₁⟩ _ => ?_
  refine liftError_bind (readVarint_eq hpayload i₁) fun ⟨_, i₂⟩ _ => ?_
  refine liftError_bind (readVarint_eq hpayload i₂) fun ⟨count, i₃⟩ _ => ?_
  refine liftError_bind (readVarint_eq hpayload i₃) fun ⟨_, i₄⟩ h₄ => ?_
  refine liftError_bind (skipAckRanges_eq hpayload (readVarint_bounds h₄).2 (by omega))
    fun i₅ _ => ?_
  cases hasEcn with
  | false => rfl
  | true =>
    refine liftError_bind (readVarint_eq hpayload i₅) fun ⟨_, i₆⟩ _ => ?_
    refine liftError_bind (readVarint_eq hpayload i₆) fun ⟨_, i₇⟩ _ => ?_
    exact liftError_bind (readVarint_eq hpayload i₇) fun _ _ => rfl

/-- `readCryptoFrame` without the bounds of a machine. -/
def exactCryptoFrame (payload : Bytes) (i : ℕ) : Except String (ℕ × Option (ℕ × Bytes)) := do
  let (offset, i) ← SniRouter.readVarint payload i
  let (len, i) ← SniRouter.readVarint payload i
  if payload.length < i + len then .error "truncated CRYPTO frame"
  else return (i + len, some (offset, slice payload i (i + len)))

/-- A CRYPTO frame is read without a panic if the sum of its length check does not overflow. -/
theorem readCryptoFrame_eq {i : ℕ}
    (hsum : ∀ offset i₁ len i₂, SniRouter.readVarint payload i = .ok (offset, i₁) →
      SniRouter.readVarint payload i₁ = .ok (len, i₂) → i₂ + len < m.width.modulus) :
    readCryptoFrame m payload i = liftError (exactCryptoFrame payload i) := by
  refine liftError_bind (readVarint_eq hpayload i) fun ⟨offset, i₁⟩ h₁ => ?_
  refine liftError_bind (readVarint_eq hpayload i₁) fun ⟨len, i₂⟩ h₂ => ?_
  have hsum := hsum offset i₁ len i₂ h₁ h₂
  simp only [Target.tryFromU64_eq (m := m) (show len < _ by omega), orBail, ok_bind]
  refine Target.exceeds_ite hsum (fun _ => rfl) fun hle => ?_
  rw [Target.add_eq hsum, ok_bind, range_slice (by omega) (by omega), ok_bind]
  rfl

section Wide

variable (hwide : m.width = .bits64)

include hwide

theorem skipTransportCloseFrame_eq (i : ℕ) : skipTransportCloseFrame m payload i =
    liftError (SniRouter.skipTransportCloseFrame payload i) := by
  refine liftError_bind (readVarint_eq hpayload i) fun ⟨_, i₁⟩ _ => ?_
  refine liftError_bind (readVarint_eq hpayload i₁) fun ⟨_, i₂⟩ _ => ?_
  exact skipVector_eq_wide hpayload hwide _ _ i₂

theorem skipApplicationCloseFrame_eq (i : ℕ) : skipApplicationCloseFrame m payload i =
    liftError (SniRouter.skipApplicationCloseFrame payload i) := by
  refine liftError_bind (readVarint_eq hpayload i) fun ⟨_, i₁⟩ _ => ?_
  exact skipVector_eq_wide hpayload hwide _ _ i₁

theorem readFrame_eq {fuel : ℕ} (hfuel : payload.length < fuel) (i : ℕ) :
    readFrame m fuel payload i = liftError (SniRouter.readFrame payload i) := by
  refine liftError_bind (readVarint_eq hpayload i) fun ⟨frameType, i₁⟩ _ => ?_
  dsimp only
  split
  -- PADDING and PING
  case h_1 | h_2 => rfl
  -- ACK, without and with ECN counts
  case h_3 | h_4 =>
    exact liftError_bind (skipAckFrame_eq hpayload hfuel i₁ _) fun _ _ => rfl
  case h_5 =>
    exact readCryptoFrame_eq hpayload fun _ _ _ _ _ h => cursor_add_lt hpayload hwide h
  case h_6 =>
    exact liftError_bind (skipTransportCloseFrame_eq hpayload hwide i₁) fun _ _ => rfl
  case h_7 =>
    exact liftError_bind (skipApplicationCloseFrame_eq hpayload hwide i₁) fun _ _ => rfl
  -- any other type, so that the last case applies on both sides
  case h_8 => grind [liftError, bail]

/-- The loop over the frames uses up the payload, so the fuel lasts. -/
theorem readCryptoFramesFrom_eq {fuel : ℕ} (hfuel : payload.length < fuel) {n i : ℕ}
    (hi : i ≤ payload.length) (hn : payload.length < i + n) :
    readCryptoFramesFrom m fuel payload n i =
      liftError (SniRouter.readCryptoFramesFrom payload i) := by
  induction n generalizing i with
  | zero => omega
  | succ n ih =>
    rw [readCryptoFramesFrom, SniRouter.readCryptoFramesFrom]
    refine liftError_ite (fun hlt => ?_) fun _ => rfl
    rw [readFrame_eq hpayload hwide hfuel]
    split
    next e h =>
      rw [h]
      rfl
    next j frame h =>
      have hframe := readFrame_bounds h
      show (liftError (SniRouter.readFrame payload i) >>= _) =
        liftError (SniRouter.readCryptoFramesFrom payload j >>= fun frames =>
          return frame.toList ++ frames)
      rw [h]
      exact liftError_bind (ih hframe.2.1 (by omega)) fun _ _ => rfl

/-- `read_crypto_frames` panics on no payload. -/
theorem readCryptoFrames_eq {fuel : ℕ} (hfuel : payload.length < fuel) :
    readCryptoFrames m fuel payload = liftError (SniRouter.readCryptoFrames payload) :=
  readCryptoFramesFrom_eq hpayload hwide hfuel (Nat.zero_le _) (by omega)

end Wide

end Frames

end SniRouter.Checked
