import SniRouter.Lib.Cursor
import SniRouter.H3.Packet

/-!
# Encodings of the wire formats

What the readers read, as lists of bytes: big-endian integers of a fixed width, vectors with
their length in front, and the variable-length integers of QUIC. For each there is one lemma for
every direction: the reader finds the value of an encoding that stands at the cursor, and where
the reader succeeds an encoding of its result stands at the cursor.
-/

namespace SniRouter

/-! ## Big-endian integers -/

@[simp] theorem length_toBeBytes (n v : ℕ) : (toBeBytes n v).length = n := by
  induction n with
  | zero => rfl
  | succ n ih => simp [toBeBytes, ih]

@[simp] theorem beNat_nil : beNat [] = 0 := rfl

/-- Reading further bytes shifts what was read before. -/
theorem beNat_foldl (m : ℕ) (bytes : Bytes) :
    bytes.foldl (fun n b => n * 256 + b.toNat) m = m * 256 ^ bytes.length + beNat bytes := by
  induction bytes generalizing m with
  | nil => simp
  | cons b bytes ih =>
    have hcons : beNat (b :: bytes) = (0 * 256 + b.toNat) * 256 ^ bytes.length + beNat bytes := ih _
    rw [List.foldl_cons, ih, hcons, List.length_cons]
    ring

/-- The first byte has the highest weight. -/
theorem beNat_cons (b : UInt8) (bytes : Bytes) :
    beNat (b :: bytes) = b.toNat * 256 ^ bytes.length + beNat bytes := by
  rw [beNat, List.foldl_cons, beNat_foldl]
  simp

theorem beNat_lt (bytes : Bytes) : beNat bytes < 256 ^ bytes.length := by
  induction bytes with
  | nil => simp
  | cons b bytes ih =>
    have hb : b.toNat + 1 ≤ 256 := b.toNat_lt
    rw [beNat_cons, List.length_cons, pow_succ]
    calc b.toNat * 256 ^ bytes.length + beNat bytes
        < b.toNat * 256 ^ bytes.length + 256 ^ bytes.length := by omega
      _ = (b.toNat + 1) * 256 ^ bytes.length := by ring
      _ ≤ 256 * 256 ^ bytes.length := Nat.mul_le_mul_right _ hb
      _ = 256 ^ bytes.length * 256 := by ring

/-- Only the low bytes are written. -/
theorem toBeBytes_add_mul (n v m : ℕ) : toBeBytes n (m * 256 ^ n + v) = toBeBytes n v := by
  induction n generalizing v m with
  | zero => rfl
  | succ n ih =>
    have hpos : 0 < 256 ^ n := Nat.pow_pos (by omega)
    rw [toBeBytes, toBeBytes, pow_succ, show m * (256 ^ n * 256) = m * 256 * 256 ^ n by ring, ih]
    rw [Nat.add_comm (m * 256 * 256 ^ n), Nat.add_mul_div_right _ _ hpos]
    congr 1
    apply UInt8.toNat_inj.mp
    rw [UInt8.toNat_ofNat', UInt8.toNat_ofNat']
    omega

/-- A number that fits is read back from its bytes. -/
theorem beNat_toBeBytes {n v : ℕ} (h : v < 256 ^ n) : beNat (toBeBytes n v) = v := by
  induction n generalizing v with
  | zero =>
    rw [pow_zero] at h
    show 0 = v
    omega
  | succ n ih =>
    have hpos : 0 < 256 ^ n := Nat.pow_pos (by omega)
    have hhigh : v / 256 ^ n < 256 := by
      rw [Nat.div_lt_iff_lt_mul hpos, Nat.mul_comm]
      rwa [pow_succ] at h
    have hlow : toBeBytes n v = toBeBytes n (v % 256 ^ n) := by
      conv_lhs => rw [← Nat.div_add_mod' v (256 ^ n)]
      exact toBeBytes_add_mul ..
    rw [toBeBytes, beNat_cons, length_toBeBytes, hlow, ih (Nat.mod_lt _ hpos),
      UInt8.toNat_ofNat', Nat.mod_eq_of_lt hhigh]
    exact Nat.div_add_mod' ..

/-- Bytes are written back from their number. -/
theorem toBeBytes_beNat (bytes : Bytes) : toBeBytes bytes.length (beNat bytes) = bytes := by
  induction bytes with
  | nil => rfl
  | cons b bytes ih =>
    have hpos : 0 < 256 ^ bytes.length := Nat.pow_pos (by omega)
    rw [List.length_cons, toBeBytes, beNat_cons, toBeBytes_add_mul, ih, Nat.add_comm,
      Nat.add_mul_div_right _ _ hpos, Nat.div_eq_of_lt (beNat_lt bytes), Nat.zero_add,
      UInt8.ofNat_toNat]

/-! ### At a cursor -/

/-- What is read between two positions is the slice between them. -/
theorem slice_eq_of_reads {buf enc : Bytes} {i j : ℕ} (h : Reads buf i enc j) :
    slice buf i j = enc :=
  h.eq_slice.symm

theorem length_slice {buf : Bytes} {i j : ℕ} (hij : i ≤ j) (hj : j ≤ buf.length) :
    (slice buf i j).length = j - i := by
  have : j = i + (slice buf i j).length := (reads_slice hij hj).stop_eq
  omega

theorem byteAt_eq_of_reads {buf : Bytes} {i j : ℕ} {b : UInt8} (h : Reads buf i [b] j) :
    byteAt buf i = b.toNat := by
  rw [byteAt, List.getD_eq_getElem?_getD, (reads_singleton.mp h).1, Option.getD_some]

/-- One byte can be read anywhere inside the buffer. -/
theorem reads_byte {buf : Bytes} {i : ℕ} (h : i < buf.length) :
    ∃ b : UInt8, Reads buf i [b] (i + 1) ∧ byteAt buf i = b.toNat := by
  have hr : Reads buf i [buf[i]] (i + 1) := reads_singleton.mpr ⟨List.getElem?_eq_getElem h, rfl⟩
  exact ⟨buf[i], hr, byteAt_eq_of_reads hr⟩

theorem u16At_eq_of_reads {buf enc : Bytes} {i j : ℕ} (h : Reads buf i enc j)
    (hlen : enc.length = 2) : u16At buf i = beNat enc := by
  obtain ⟨a, b, rfl⟩ := List.length_eq_two.mp hlen
  obtain ⟨ha, hb⟩ := reads_cons.mp h
  rw [u16At, byteAt_eq_of_reads ha, byteAt_eq_of_reads hb]
  simp [beNat]

theorem u24At_eq_of_reads {buf enc : Bytes} {i j : ℕ} (h : Reads buf i enc j)
    (hlen : enc.length = 3) : u24At buf i = beNat enc := by
  obtain ⟨a, b, c, rfl⟩ := List.length_eq_three.mp hlen
  obtain ⟨ha, h⟩ := reads_cons.mp h
  obtain ⟨hb, hc⟩ := reads_cons.mp h
  rw [u24At, byteAt_eq_of_reads ha, byteAt_eq_of_reads hb, byteAt_eq_of_reads hc]
  simp only [beNat, List.foldl_cons, List.foldl_nil]
  ring

theorem byteAt_lt (buf : Bytes) (i : ℕ) : byteAt buf i < 256 := UInt8.toNat_lt _

theorem u16At_lt (buf : Bytes) (i : ℕ) : u16At buf i < 65536 := by
  have := byteAt_lt buf i
  have := byteAt_lt buf (i + 1)
  unfold u16At
  omega

theorem u24At_lt (buf : Bytes) (i : ℕ) : u24At buf i < 16777216 := by
  have := byteAt_lt buf i
  have := byteAt_lt buf (i + 1)
  have := byteAt_lt buf (i + 2)
  unfold u24At
  omega

/-! ## Vectors -/

/-- A vector with its length in `n` bytes in front. -/
def lengthVec (n : ℕ) (bytes : Bytes) : Bytes := toBeBytes n bytes.length ++ bytes

@[simp] theorem length_lengthVec (n : ℕ) (bytes : Bytes) :
    (lengthVec n bytes).length = n + bytes.length := by
  simp [lengthVec]

section Vectors

variable {buf bytes : Bytes} {i j n : ℕ}

/-- A vector is its length followed by its bytes. -/
theorem reads_lengthVec :
    Reads buf i (lengthVec n bytes) j ↔
      Reads buf i (toBeBytes n bytes.length) (i + n) ∧ Reads buf (i + n) bytes j := by
  have happ : Reads buf i (toBeBytes n bytes.length ++ bytes) j ↔ _ := reads_append
  rwa [length_toBeBytes] at happ

theorem toBeBytes_one {v : ℕ} (b : UInt8) (h : b.toNat = v) : toBeBytes 1 v = [b] := by
  subst h
  simp [toBeBytes]

/-- A vector with a one-byte length, read at the cursor. -/
theorem lengthVec_one_at (h : Reads buf i (lengthVec 1 bytes) j) (hlen : bytes.length < 256) :
    byteAt buf i = bytes.length ∧ Reads buf (i + 1) bytes j := by
  obtain ⟨hl, hb⟩ := reads_lengthVec.mp h
  refine ⟨?_, hb⟩
  have hbyte : (UInt8.ofNat bytes.length).toNat = bytes.length := by
    rw [UInt8.toNat_ofNat']
    omega
  rw [toBeBytes_one _ hbyte] at hl
  rw [byteAt_eq_of_reads hl, hbyte]

/-- A vector with a length of one byte is read wherever it fits. -/
theorem reads_lengthVec_one (buf : Bytes) (i : ℕ) (h : i + 1 + byteAt buf i ≤ buf.length) :
    Reads buf i (lengthVec 1 (slice buf (i + 1) (i + 1 + byteAt buf i)))
      (i + 1 + byteAt buf i) := by
  obtain ⟨b, hb, hval⟩ := reads_byte (show i < buf.length by omega)
  have hr : Reads buf (i + 1) (slice buf (i + 1) (i + 1 + byteAt buf i)) (i + 1 + byteAt buf i) :=
    reads_slice (by omega) h
  have hlen : b.toNat = (slice buf (i + 1) (i + 1 + byteAt buf i)).length := by
    rw [length_slice (by omega) h]
    omega
  refine reads_lengthVec.mpr ⟨?_, hr⟩
  rw [toBeBytes_one b hlen]
  exact hb

/-- A vector with a two-byte length, read at the cursor. -/
theorem lengthVec_two_at (h : Reads buf i (lengthVec 2 bytes) j)
    (hlen : bytes.length < 65536) : u16At buf i = bytes.length ∧ Reads buf (i + 2) bytes j := by
  obtain ⟨hl, hb⟩ := reads_lengthVec.mp h
  refine ⟨?_, hb⟩
  rw [u16At_eq_of_reads hl (length_toBeBytes ..), beNat_toBeBytes (by omega)]

/-- Every `n` bytes at the cursor are an integer of that width. -/
theorem reads_beNat (h : i + n ≤ buf.length) :
    Reads buf i (slice buf i (i + n)) (i + n) ∧ (slice buf i (i + n)).length = n ∧
      toBeBytes n (beNat (slice buf i (i + n))) = slice buf i (i + n) := by
  have hr : Reads buf i (slice buf i (i + n)) (i + n) := reads_slice (by omega) h
  have hlen : (slice buf i (i + n)).length = n := by
    rw [length_slice (by omega) h]
    omega
  have hself := toBeBytes_beNat (slice buf i (i + n))
  rw [hlen] at hself
  exact ⟨hr, hlen, hself⟩

theorem reads_u16 (buf : Bytes) (i : ℕ) (h : i + 2 ≤ buf.length) :
    Reads buf i (toBeBytes 2 (u16At buf i)) (i + 2) := by
  obtain ⟨hr, hlen, hself⟩ := reads_beNat h
  rw [u16At_eq_of_reads hr hlen, hself]
  exact hr

theorem reads_u24 (buf : Bytes) (i : ℕ) (h : i + 3 ≤ buf.length) :
    Reads buf i (toBeBytes 3 (u24At buf i)) (i + 3) := by
  obtain ⟨hr, hlen, hself⟩ := reads_beNat h
  rw [u24At_eq_of_reads hr hlen, hself]
  exact hr

/-- A vector with a length of two bytes is read wherever it fits. -/
theorem reads_lengthVec_two (buf : Bytes) (i : ℕ) (h : i + 2 + u16At buf i ≤ buf.length) :
    Reads buf i (lengthVec 2 (slice buf (i + 2) (i + 2 + u16At buf i)))
      (i + 2 + u16At buf i) := by
  have hr : Reads buf (i + 2) (slice buf (i + 2) (i + 2 + u16At buf i)) (i + 2 + u16At buf i) :=
    reads_slice (by omega) h
  have hlen : u16At buf i = (slice buf (i + 2) (i + 2 + u16At buf i)).length := by
    rw [length_slice (by omega) h]
    omega
  refine reads_lengthVec.mpr ⟨?_, hr⟩
  rw [← hlen]
  exact reads_u16 buf i (by omega)

end Vectors

/-! ## Variable-length integers -/

/-- An integer in one of the four widths that can hold it: `2 ^ width` bytes, of which the two
top bits name the width. -/
structure Varint where
  value : ℕ
  width : ℕ
  width_lt : width < 4
  fits : value < 2 ^ (8 * 2 ^ width - 2)

namespace Varint

/-- An integer in one byte. -/
def short (value : ℕ) (h : value < 64) : Varint := ⟨value, 0, Nat.zero_lt_succ 3, h⟩

/-- The number of bytes after the first. -/
def more (x : Varint) : ℕ := 2 ^ x.width - 1

/-- The bits of the value in the first byte. -/
def high (x : Varint) : ℕ := x.value / 256 ^ x.more

def encode (x : Varint) : Bytes :=
  UInt8.ofNat (x.width * 64 + x.high) :: toBeBytes x.more x.value

@[simp] theorem length_encode (x : Varint) : x.encode.length = 2 ^ x.width := by
  have : 0 < 2 ^ x.width := Nat.two_pow_pos _
  simp only [encode, more, List.length_cons, length_toBeBytes]
  omega

theorem encode_ne_nil (x : Varint) : x.encode ≠ [] := by simp [encode]

end Varint

/-- Six bits of the value are in the first byte. -/
theorem two_pow_varint {width : ℕ} (h : width < 4) :
    2 ^ (8 * 2 ^ width - 2) = 64 * 256 ^ (2 ^ width - 1) := by
  interval_cases width <;> norm_num

theorem Varint.high_lt (x : Varint) : x.high < 64 := by
  rw [high, Nat.div_lt_iff_lt_mul (Nat.pow_pos (by omega))]
  have := x.fits
  rwa [two_pow_varint x.width_lt] at this

/-- A varint has 62 bits. -/
theorem Varint.value_lt (x : Varint) : x.value < 2 ^ 62 := by
  have hwidth := x.width_lt
  have hbits : 2 ^ x.width ≤ 2 ^ 3 := Nat.pow_le_pow_right (by decide) (by omega)
  exact x.fits.trans_le (Nat.pow_le_pow_right (by decide) (by omega))

theorem varint_width_byte (b : UInt8) : (b >>> 6).toNat = b.toNat / 64 := by
  rw [UInt8.toNat_shiftRight, Nat.shiftRight_eq_div_pow]
  rfl

theorem varint_value_byte (b : UInt8) : (b &&& 0x3f).toNat = b.toNat % 64 := by
  rw [UInt8.toNat_and]
  exact Nat.and_two_pow_sub_one_eq_mod b.toNat 6

/-- The first byte holds the width and the highest bits. -/
theorem Varint.first_toNat (x : Varint) :
    (UInt8.ofNat (x.width * 64 + x.high)).toNat =
      x.width * 64 + x.high := by
  have := x.width_lt
  have := x.high_lt
  rw [UInt8.toNat_ofNat']
  omega

/-- The value of a first byte and of the bytes after it. -/
theorem varint_fold (high : ℕ) (bytes : Bytes) (v : ℕ) (hhigh : high = v / 256 ^ bytes.length)
    (hlow : beNat bytes = v % 256 ^ bytes.length) :
    bytes.foldl (fun n b => n * 256 + b.toNat) high = v := by
  rw [beNat_foldl, hhigh, hlow]
  exact Nat.div_add_mod' ..

/-- A number that is too large loses its highest bytes. -/
theorem beNat_toBeBytes_mod (n v : ℕ) : beNat (toBeBytes n v) = v % 256 ^ n := by
  have hpos : 0 < 256 ^ n := Nat.pow_pos (by omega)
  conv_lhs => rw [← Nat.div_add_mod' v (256 ^ n), toBeBytes_add_mul]
  exact beNat_toBeBytes (Nat.mod_lt _ hpos)

section Reader

variable {buf : Bytes} {i j v len : ℕ}

/-- The reader finds the integer that is encoded at the cursor. -/
theorem readVarintAt_encode (x : Varint) (h : Reads buf i x.encode j) :
    readVarintAt buf i = .ok (x.value, 2 ^ x.width) := by
  have hj := h.stop_eq
  have hstop := h.stop_le
  rw [Varint.length_encode] at hj
  obtain ⟨hfirst, hmore⟩ := reads_cons.mp h
  obtain ⟨hget, -⟩ := reads_singleton.mp hfirst
  have hwidth : 1 <<< (UInt8.ofNat (x.width * 64 + x.high) >>> 6).toNat =
      2 ^ x.width := by
    have := x.high_lt
    rw [varint_width_byte, x.first_toNat, Nat.one_shiftLeft]
    congr 1
    omega
  have hvalue : (UInt8.ofNat (x.width * 64 + x.high) &&& 0x3f).toNat =
      x.high := by
    have := x.high_lt
    rw [varint_value_byte, x.first_toNat]
    omega
  have hslice : slice buf (i + 1) (i + 2 ^ x.width) = toBeBytes x.more x.value := by
    rw [← hj]
    exact slice_eq_of_reads hmore
  simp only [readVarintAt, hget, hwidth, hvalue, hslice]
  rw [if_neg (by omega), varint_fold _ _ x.value (by rw [length_toBeBytes, Varint.high])
    (by rw [length_toBeBytes, beNat_toBeBytes_mod])]

/-- Where the reader succeeds, an encoding of the integer stands at the cursor. -/
theorem readVarintAt_reads (h : readVarintAt buf i = .ok (v, len)) :
    ∃ x : Varint, x.value = v ∧ 2 ^ x.width = len ∧ Reads buf i x.encode (i + len) := by
  unfold readVarintAt at h
  split at h
  · cases h
  rename_i first hget
  dsimp only at h
  split at h
  · cases h
  rename_i hlen
  rw [Nat.one_shiftLeft, varint_width_byte] at h hlen
  rw [varint_value_byte] at h
  have hfirst : first.toNat < 256 := first.toNat_lt
  have hwidth : first.toNat / 64 < 4 := by omega
  have hpos : 0 < 2 ^ (first.toNat / 64) := Nat.two_pow_pos _
  have hmore : Reads buf (i + 1) (slice buf (i + 1) (i + 2 ^ (first.toNat / 64)))
      (i + 2 ^ (first.toNat / 64)) := reads_slice (by omega) (by omega)
  have hmorelen := hmore.stop_eq
  -- the integer is encoded in the width of its first byte, which need not be the shortest
  generalize hrest : slice buf (i + 1) (i + 2 ^ (first.toNat / 64)) = rest at h hmore hmorelen
  have hrestlen : rest.length = 2 ^ (first.toNat / 64) - 1 := by omega
  cases h
  have hfits : rest.foldl (fun n b => n * 256 + b.toNat) (first.toNat % 64) <
      2 ^ (8 * 2 ^ (first.toNat / 64) - 2) := by
    rw [two_pow_varint hwidth, beNat_foldl, ← hrestlen]
    have hlt := beNat_lt rest
    have hle : (first.toNat % 64 + 1) * 256 ^ rest.length ≤ 64 * 256 ^ rest.length :=
      Nat.mul_le_mul_right _ (by omega)
    rw [Nat.add_mul, Nat.one_mul] at hle
    omega
  refine ⟨⟨_, first.toNat / 64, hwidth, hfits⟩, rfl, rfl, ?_⟩
  have hfold := beNat_foldl (first.toNat % 64) rest
  have hpow : 0 < 256 ^ rest.length := Nat.pow_pos (by omega)
  simp only [Varint.encode, Varint.high, Varint.more, ← hrestlen]
  rw [hfold, toBeBytes_add_mul, toBeBytes_beNat, Nat.add_comm (first.toNat % 64 * _),
    Nat.add_mul_div_right _ _ hpow, Nat.div_eq_of_lt (beNat_lt rest), Nat.zero_add]
  have hsame : UInt8.ofNat (first.toNat / 64 * 64 + first.toNat % 64) = first := by
    rw [Nat.div_add_mod']
    exact UInt8.ofNat_toNat
  rw [hsame]
  exact reads_cons.mpr ⟨reads_singleton.mpr ⟨hget, rfl⟩, hmore⟩

/-- What `readVarint` reads. -/
theorem readVarint_eq_ok :
    readVarint buf i = .ok (v, j) ↔ ∃ x : Varint, x.value = v ∧ Reads buf i x.encode j := by
  constructor
  · intro h
    obtain ⟨⟨v', len⟩, hv, h⟩ := except_bind_eq_ok h
    obtain ⟨x, rfl, -, hx⟩ := readVarintAt_reads hv
    cases h
    exact ⟨x, rfl, hx⟩
  · intro h
    obtain ⟨x, rfl, hx⟩ := h
    have hj := hx.stop_eq
    rw [Varint.length_encode] at hj
    rw [readVarint, readVarintAt_encode x hx, hj]
    rfl

/-- A varint is read back in the width it was written in. -/
theorem readVarint_encode (x : Varint) (h : Reads buf i x.encode j) :
    readVarint buf i = .ok (x.value, j) :=
  readVarint_eq_ok.mpr ⟨x, rfl, h⟩

end Reader

end SniRouter
