import SniRouter.H3.Sni

/-!
# QUIC packets

The parts of a QUIC v1 packet the router reads: the connection IDs of a long header, the
header of an Initial packet, its decryption with the public Initial secrets, and the CRYPTO
frames of its payload. HKDF, AES-GCM, header protection and AES itself come from libraries;
`Crypto` collects them as a parameter.
-/

namespace SniRouter

/-- The cryptographic primitives the router calls. -/
structure Crypto where
  /-- `hkdf::Salt::new(HKDF_SHA256, salt).extract(ikm)`. -/
  hkdfExtract : Bytes → Bytes → Bytes
  /-- `Prk::expand` and `fill`: pseudo-random key, info, output length. -/
  hkdfExpand : Bytes → Bytes → ℕ → Option Bytes
  /-- `HeaderProtectionKey::new_mask`: key, sample. -/
  newMask : Bytes → Bytes → Option Bytes
  /-- `LessSafeKey::open_in_place`: key, nonce, associated data, ciphertext with tag. -/
  openInPlace : Bytes → Bytes → Bytes → Bytes → Option Bytes
  /-- `Aes128::decrypt_block`: key, block. -/
  decryptBlock : Bytes → Bytes → Bytes

def quicVersion1 : ℕ := 1
def quicPacketTypeInitial : ℕ := 0
def quicPacketTypeZeroRtt : ℕ := 1
def quicPacketTypeHandshake : ℕ := 2
def quicPacketTypeRetry : ℕ := 3

/-- `QUIC_V1_INITIAL_SALT`. -/
def quicV1InitialSalt : Bytes :=
  [0x38, 0x76, 0x2c, 0xf7, 0xf5, 0x59, 0x34, 0xb3, 0x4d, 0x17, 0x9a, 0xe6, 0xa4, 0xc8, 0x0c, 0xad,
    0xcc, 0xbb, 0x7f, 0x0a]

/-! ## Headers -/

structure LongPacketCids where
  version : ℕ
  packetType : ℕ
  dcid : Bytes
  scid : Bytes
deriving DecidableEq

structure InitialHeader where
  cids : LongPacketCids
  packetNumberOffset : ℕ
  packetEnd : ℕ

structure DecryptedInitial where
  dcid : Bytes
  scid : Bytes
  payload : Bytes
deriving DecidableEq

/-- A QUIC variable-length integer at `offset`: its value and its length in bytes. -/
def readVarintAt (buf : Bytes) (offset : ℕ) : Except String (ℕ × ℕ) :=
  match buf[offset]? with
  | none => .error "missing QUIC varint"
  | some first =>
    let len := 1 <<< (first >>> 6).toNat
    if buf.length < offset + len then .error "truncated QUIC varint"
    else
      let value := (slice buf (offset + 1) (offset + len)).foldl
        (fun value b => value * 256 + b.toNat) (first &&& 0x3f).toNat
      .ok (value, len)

/-- `readVarintAt` with the cursor moved past the integer. -/
def readVarint (buf : Bytes) (offset : ℕ) : Except String (ℕ × ℕ) := do
  let (value, len) ← readVarintAt buf offset
  return (value, offset + len)

/-- The connection IDs of a long-header packet; `none` for an empty or short-header one. -/
def parseLongPacketCids (packet : Bytes) : Except String (Option LongPacketCids) :=
  match packet.head? with
  | none => .ok none
  | some first =>
    if first &&& 0x80 = 0 then .ok none
    else if packet.length < 7 then .error "truncated QUIC long header"
    else
      let version := beNat (slice packet 1 5)
      let packetType := ((first &&& 0x30) >>> 4).toNat
      let dcidLen := byteAt packet 5
      if packet.length < 6 + dcidLen + 1 then
        .error "truncated QUIC destination connection ID"
      else
        let dcid := slice packet 6 (6 + dcidLen)
        let scidLen := byteAt packet (6 + dcidLen)
        let i := 6 + dcidLen + 1
        if packet.length < i + scidLen then .error "truncated QUIC source connection ID"
        else .ok (some ⟨version, packetType, dcid, slice packet i (i + scidLen)⟩)

/-- Where the packet number of an Initial packet starts and where the packet ends. The
conversions to `usize` and the addition cannot fail on a 64-bit machine. -/
def parseInitialHeader (packet : Bytes) : Except String InitialHeader := do
  match ← parseLongPacketCids packet with
  | none => .error "not a QUIC long-header packet"
  | some cids =>
    if cids.version ≠ quicVersion1 then .error "unsupported QUIC version"
    else if cids.packetType ≠ quicPacketTypeInitial then .error "not a QUIC Initial packet"
    else
      let i := 5 + 1 + cids.dcid.length + 1 + cids.scid.length
      let (tokenLen, i) ← readVarint packet i
      if packet.length < i + tokenLen then .error "truncated QUIC Initial token"
      else
        let (packetLen, i) ← readVarint packet (i + tokenLen)
        if i + packetLen > packet.length then .error "truncated QUIC Initial packet payload"
        else .ok ⟨cids, i, i + packetLen⟩

/-! ## Initial keys -/

structure InitialKeyBytes where
  key : Bytes
  iv : Bytes
  hp : Bytes

/-- The `n` low bytes of `v`, most significant first (`to_be_bytes`). -/
def toBeBytes : ℕ → ℕ → Bytes
  | 0, _ => []
  | n + 1, v => UInt8.ofNat (v / 256 ^ n) :: toBeBytes n v

/-- `b"tls13 "`. -/
def tls13Label : Bytes := [0x74, 0x6c, 0x73, 0x31, 0x33, 0x20]

/-- `b"client in"`. -/
def clientInLabel : Bytes := [0x63, 0x6c, 0x69, 0x65, 0x6e, 0x74, 0x20, 0x69, 0x6e]

/-- `b"quic key"`. -/
def quicKeyLabel : Bytes := [0x71, 0x75, 0x69, 0x63, 0x20, 0x6b, 0x65, 0x79]

/-- `b"quic iv"`. -/
def quicIvLabel : Bytes := [0x71, 0x75, 0x69, 0x63, 0x20, 0x69, 0x76]

/-- `b"quic hp"`. -/
def quicHpLabel : Bytes := [0x71, 0x75, 0x69, 0x63, 0x20, 0x68, 0x70]

section Decrypt

variable (cr : Crypto)

/-- HKDF-Expand-Label of TLS 1.3 with an empty context. -/
def hkdfExpandLabel (secret label : Bytes) (len : ℕ) : Except String Bytes :=
  let fullLabelLen := tls13Label.length + label.length
  if fullLabelLen > 255 then .error "HKDF label too long"
  else if len > 65535 then .error "HKDF output length too large"
  else
    let info := toBeBytes 2 len ++ [UInt8.ofNat fullLabelLen] ++ tls13Label ++ label ++ [0]
    match cr.hkdfExpand secret info len with
    | none => .error "HKDF expand failed"
    | some out => .ok out

def initialKeyBytes (dcid : Bytes) : Except String InitialKeyBytes := do
  let initialSecret := cr.hkdfExtract quicV1InitialSalt dcid
  let clientInitialSecret ← hkdfExpandLabel cr initialSecret clientInLabel 32
  let key ← hkdfExpandLabel cr clientInitialSecret quicKeyLabel 16
  let iv ← hkdfExpandLabel cr clientInitialSecret quicIvLabel 12
  let hp ← hkdfExpandLabel cr clientInitialSecret quicHpLabel 16
  return ⟨key, iv, hp⟩

/-- The packet number, as eight bytes, folded into the last eight bytes of the IV. -/
def packetNonce (iv : Bytes) (packetNumber : ℕ) : Bytes :=
  iv.take 4 ++ List.zipWith (· ^^^ ·) (iv.drop 4) (toBeBytes 8 packetNumber)

/-- Decrypts an Initial packet with the client keys of `keyDcid`, or of its own destination
connection ID. The first byte and the packet number are unmasked before they are used as
associated data. -/
def decryptInitialPacketWithDcid (packet : Bytes) (keyDcid : Option Bytes) :
    Except String DecryptedInitial := do
  let header ← parseInitialHeader packet
  let keys ← initialKeyBytes cr (keyDcid.getD header.cids.dcid)
  let sampleOffset := header.packetNumberOffset + 4
  if header.packetEnd < sampleOffset + 16 then
    .error "QUIC Initial packet too short for header protection sample"
  else
    match cr.newMask keys.hp (slice packet sampleOffset (sampleOffset + 16)) with
    | none => .error "QUIC Initial header protection failed"
    | some mask =>
      let first := packet.getD 0 0 ^^^ (mask.getD 0 0 &&& 0x0f)
      let packetNumberLen := (first &&& 0x03).toNat + 1
      let packetNumberEnd := header.packetNumberOffset + packetNumberLen
      if packetNumberEnd > header.packetEnd then .error "truncated QUIC Initial packet number"
      else
        let numberBytes := List.zipWith (· ^^^ ·)
          (slice packet header.packetNumberOffset packetNumberEnd) (mask.drop 1)
        let associatedData :=
          first :: slice packet 1 header.packetNumberOffset ++ numberBytes
        match cr.openInPlace keys.key (packetNonce keys.iv (beNat numberBytes)) associatedData
            (slice packet packetNumberEnd header.packetEnd) with
        | none => .error "QUIC Initial decrypt failed"
        | some payload => .ok ⟨header.cids.dcid, header.cids.scid, payload⟩

def decryptInitialPacket (packet : Bytes) : Except String DecryptedInitial :=
  decryptInitialPacketWithDcid cr packet none

end Decrypt

/-! ## Frames -/

/-- The `count` gap and length pairs of an ACK frame. -/
def skipAckRanges (payload : Bytes) : ℕ → ℕ → Except String ℕ
  | 0, i => .ok i
  | count + 1, i => do
    let (_, i) ← readVarint payload i
    let (_, i) ← readVarint payload i
    skipAckRanges payload count i

def skipAckFrame (payload : Bytes) (i : ℕ) (hasEcn : Bool) : Except String ℕ := do
  let (_, i) ← readVarint payload i
  let (_, i) ← readVarint payload i
  let (ackRangeCount, i) ← readVarint payload i
  let (_, i) ← readVarint payload i
  let i ← skipAckRanges payload ackRangeCount i
  if hasEcn then
    let (_, i) ← readVarint payload i
    let (_, i) ← readVarint payload i
    let (_, i) ← readVarint payload i
    return i
  else return i

/-- The length-prefixed reason phrase both close frames end with. -/
def skipReason (payload : Bytes) (i : ℕ) : Except String ℕ := do
  let (reasonLen, i) ← readVarint payload i
  if payload.length < i + reasonLen then .error "truncated CONNECTION_CLOSE reason"
  else .ok (i + reasonLen)

def skipTransportCloseFrame (payload : Bytes) (i : ℕ) : Except String ℕ := do
  let (_, i) ← readVarint payload i
  let (_, i) ← readVarint payload i
  skipReason payload i

def skipApplicationCloseFrame (payload : Bytes) (i : ℕ) : Except String ℕ := do
  let (_, i) ← readVarint payload i
  skipReason payload i

/-- The body of the loop of `read_crypto_frames`: one frame at `i`, the cursor after it, and
its offset and data when it is a CRYPTO frame. -/
def readFrame (payload : Bytes) (i : ℕ) : Except String (ℕ × Option (ℕ × Bytes)) := do
  let (frameType, i) ← readVarint payload i
  match frameType with
  | 0x00 | 0x01 => return (i, none)
  | 0x02 => return (← skipAckFrame payload i false, none)
  | 0x03 => return (← skipAckFrame payload i true, none)
  | 0x06 =>
    let (offset, i) ← readVarint payload i
    let (len, i) ← readVarint payload i
    if payload.length < i + len then .error "truncated CRYPTO frame"
    else return (i + len, some (offset, slice payload i (i + len)))
  | 0x1c => return (← skipTransportCloseFrame payload i, none)
  | 0x1d => return (← skipApplicationCloseFrame payload i, none)
  | _ => .error "unexpected frame type in Initial packet"

/-! ### The cursor moves forward

Every reader leaves the cursor behind what it read, and inside the buffer. -/

/-- A varint ends inside the buffer. -/
theorem readVarintAt_bounds {buf : Bytes} {i value len : ℕ}
    (h : readVarintAt buf i = .ok (value, len)) : 0 < len ∧ i + len ≤ buf.length := by
  unfold readVarintAt at h
  split at h
  · cases h
  · rename_i first _
    dsimp only at h
    split at h
    · cases h
    · rename_i hlen
      cases h
      refine ⟨?_, by omega⟩
      rw [Nat.one_shiftLeft]
      exact Nat.two_pow_pos _

theorem readVarint_bounds {buf : Bytes} {i value j : ℕ} (h : readVarint buf i = .ok (value, j)) :
    i < j ∧ j ≤ buf.length := by
  obtain ⟨⟨v, len⟩, hv, hj⟩ := except_bind_eq_ok h
  have := readVarintAt_bounds hv
  cases hj
  omega

theorem skipAckRanges_bounds {payload : Bytes} {count i j : ℕ} (hi : i ≤ payload.length)
    (h : skipAckRanges payload count i = .ok j) : i ≤ j ∧ j ≤ payload.length := by
  induction count generalizing i with
  | zero =>
    cases h
    exact ⟨le_refl _, hi⟩
  | succ count ih =>
    obtain ⟨⟨_, i₁⟩, h₁, h⟩ := except_bind_eq_ok h
    obtain ⟨⟨_, i₂⟩, h₂, h⟩ := except_bind_eq_ok h
    have b₁ := readVarint_bounds h₁
    have b₂ := readVarint_bounds h₂
    have := ih b₂.2 h
    omega

theorem skipAckFrame_bounds {payload : Bytes} {i j : ℕ} {hasEcn : Bool}
    (h : skipAckFrame payload i hasEcn = .ok j) : i ≤ j ∧ j ≤ payload.length := by
  obtain ⟨⟨_, i₁⟩, h₁, h⟩ := except_bind_eq_ok h
  obtain ⟨⟨_, i₂⟩, h₂, h⟩ := except_bind_eq_ok h
  obtain ⟨⟨count, i₃⟩, h₃, h⟩ := except_bind_eq_ok h
  obtain ⟨⟨_, i₄⟩, h₄, h⟩ := except_bind_eq_ok h
  obtain ⟨i₅, h₅, h⟩ := except_bind_eq_ok h
  have b₁ := readVarint_bounds h₁
  have b₂ := readVarint_bounds h₂
  have b₃ := readVarint_bounds h₃
  have b₄ := readVarint_bounds h₄
  have b₅ := skipAckRanges_bounds b₄.2 h₅
  cases hasEcn with
  | false =>
    cases h
    omega
  | true =>
    obtain ⟨⟨_, i₆⟩, h₆, h⟩ := except_bind_eq_ok h
    obtain ⟨⟨_, i₇⟩, h₇, h⟩ := except_bind_eq_ok h
    obtain ⟨⟨_, i₈⟩, h₈, h⟩ := except_bind_eq_ok h
    have b₆ := readVarint_bounds h₆
    have b₇ := readVarint_bounds h₇
    have b₈ := readVarint_bounds h₈
    cases h
    omega

theorem skipReason_bounds {payload : Bytes} {i j : ℕ} (h : skipReason payload i = .ok j) :
    i ≤ j ∧ j ≤ payload.length := by
  obtain ⟨⟨len, i₁⟩, h₁, h⟩ := except_bind_eq_ok h
  have b₁ := readVarint_bounds h₁
  dsimp only at h
  split at h
  · cases h
  · cases h
    omega

/-- A frame ends behind its start and inside the payload, and the data of a CRYPTO frame is
no longer than the frame. -/
theorem readFrame_bounds {payload : Bytes} {i j : ℕ} {frame : Option (ℕ × Bytes)}
    (h : readFrame payload i = .ok (j, frame)) :
    i < j ∧ j ≤ payload.length ∧ ∀ offset data, frame = some (offset, data) →
      data.length ≤ j - i := by
  obtain ⟨⟨frameType, i₁⟩, h₁, h⟩ := except_bind_eq_ok h
  have b₁ := readVarint_bounds h₁
  dsimp only at h
  split at h
  -- PADDING and PING
  case h_1 | h_2 =>
    cases h
    exact ⟨b₁.1, b₁.2, by simp⟩
  -- ACK, without and with ECN counts
  case h_3 | h_4 =>
    obtain ⟨i₂, h₂, h⟩ := except_bind_eq_ok h
    have b₂ := skipAckFrame_bounds h₂
    cases h
    exact ⟨by omega, b₂.2, by simp⟩
  -- CRYPTO: the only frame with data that is kept
  case h_5 =>
    obtain ⟨⟨offset, i₂⟩, h₂, h⟩ := except_bind_eq_ok h
    obtain ⟨⟨len, i₃⟩, h₃, h⟩ := except_bind_eq_ok h
    have b₂ := readVarint_bounds h₂
    have b₃ := readVarint_bounds h₃
    dsimp only at h
    split at h
    · cases h
    · cases h
      refine ⟨by omega, by omega, ?_⟩
      rintro _ _ ⟨⟩
      have := length_slice_le payload i₃ (i₃ + len)
      omega
  -- CONNECTION_CLOSE, of the transport and of the application
  case h_6 =>
    obtain ⟨i₂, h₂, h⟩ := except_bind_eq_ok h
    obtain ⟨⟨_, i₃⟩, h₃, h₂⟩ := except_bind_eq_ok h₂
    obtain ⟨⟨_, i₄⟩, h₄, h₂⟩ := except_bind_eq_ok h₂
    have b₃ := readVarint_bounds h₃
    have b₄ := readVarint_bounds h₄
    have b₂ := skipReason_bounds h₂
    cases h
    exact ⟨by omega, b₂.2, by simp⟩
  case h_7 =>
    obtain ⟨i₂, h₂, h⟩ := except_bind_eq_ok h
    obtain ⟨⟨_, i₃⟩, h₃, h₂⟩ := except_bind_eq_ok h₂
    have b₃ := readVarint_bounds h₃
    have b₂ := skipReason_bounds h₂
    cases h
    exact ⟨by omega, b₂.2, by simp⟩
  case h_8 => cases h

/-- The loop of `read_crypto_frames` from the cursor `i` on. -/
def readCryptoFramesFrom (payload : Bytes) (i : ℕ) : Except String (List (ℕ × Bytes)) :=
  if i < payload.length then
    match h : readFrame payload i with
    | .error e => .error e
    | .ok (j, frame) => do
      have := readFrame_bounds h
      let frames ← readCryptoFramesFrom payload j
      return frame.toList ++ frames
  else .ok []
termination_by payload.length - i

/-- The offset and data of every CRYPTO frame of an Initial payload, in order. -/
def readCryptoFrames (payload : Bytes) : Except String (List (ℕ × Bytes)) :=
  readCryptoFramesFrom payload 0

/-- CRYPTO data is part of the payload it was read from. -/
theorem readCryptoFramesFrom_length {payload : Bytes} {i : ℕ} {frames : List (ℕ × Bytes)}
    (hi : i ≤ payload.length) (h : readCryptoFramesFrom payload i = .ok frames) :
    (frames.map fun f => f.2.length).sum ≤ payload.length - i := by
  fun_induction readCryptoFramesFrom payload i generalizing frames with
  | case1 => cases h
  | case2 i hlt j frame hframe _ ih =>
    obtain ⟨hij, hj, hdata⟩ := readFrame_bounds hframe
    obtain ⟨rest, hrest, h⟩ := except_bind_eq_ok h
    have hrest := ih hj hrest
    cases h
    cases frame with
    | none =>
      simp only [Option.toList_none, List.nil_append]
      omega
    | some f =>
      have := hdata f.1 f.2 rfl
      simp only [Option.toList_some, List.cons_append, List.nil_append, List.map_cons,
        List.sum_cons]
      omega
  | case3 =>
    cases h
    simp

/-- The CRYPTO data of a packet is no longer than its payload. -/
theorem readCryptoFrames_length {payload : Bytes} {frames : List (ℕ × Bytes)}
    (h : readCryptoFrames payload = .ok frames) :
    (frames.map fun f => f.2.length).sum ≤ payload.length :=
  readCryptoFramesFrom_length (Nat.zero_le _) h

/-! ### What a decrypted packet was -/

/-- An accepted header is that of an Initial of QUIC version 1, inside the datagram. -/
theorem parseInitialHeader_ok {packet : Bytes} {header : InitialHeader}
    (h : parseInitialHeader packet = .ok header) :
    parseLongPacketCids packet = .ok (some header.cids) ∧
      header.cids.version = quicVersion1 ∧ header.cids.packetType = quicPacketTypeInitial ∧
      header.packetEnd ≤ packet.length := by
  obtain ⟨long, hlong, h⟩ := except_bind_eq_ok h
  cases long with
  | none => cases h
  | some cids =>
    dsimp only at h
    split at h
    · cases h
    rename_i hversion
    split at h
    · cases h
    rename_i htype
    obtain ⟨⟨tokenLen, i₁⟩, h₁, h⟩ := except_bind_eq_ok h
    dsimp only at h
    split at h
    · cases h
    obtain ⟨⟨packetLen, i₂⟩, h₂, h⟩ := except_bind_eq_ok h
    dsimp only at h
    split at h
    · cases h
    · rename_i hend
      cases h
      exact ⟨hlong, not_not.mp hversion, not_not.mp htype, not_lt.mp hend⟩

/-- A packet that decrypts is a QUIC v1 Initial whose header carries the same connection
IDs. -/
theorem decryptInitialPacketWithDcid_ok {cr : Crypto} {packet : Bytes} {keyDcid : Option Bytes}
    {decrypted : DecryptedInitial}
    (h : decryptInitialPacketWithDcid cr packet keyDcid = .ok decrypted) :
    parseLongPacketCids packet =
      .ok (some ⟨quicVersion1, quicPacketTypeInitial, decrypted.dcid, decrypted.scid⟩) ∧
    ∃ key nonce associatedData ciphertext,
      cr.openInPlace key nonce associatedData ciphertext = some decrypted.payload ∧
      ciphertext.length ≤ packet.length := by
  obtain ⟨header, hheader, h⟩ := except_bind_eq_ok h
  obtain ⟨keys, -, h⟩ := except_bind_eq_ok h
  obtain ⟨hlong, hversion, htype, -⟩ := parseInitialHeader_ok hheader
  dsimp only at h
  split at h
  · cases h
  split at h
  · cases h
  split at h
  · cases h
  split at h
  · cases h
  · rename_i payload hopen
    cases h
    refine ⟨?_, _, _, _, _, hopen, ?_⟩
    · rw [hlong, ← hversion, ← htype]
    · simp only [slice, List.length_drop, List.length_take]
      omega

/-! ## Sample packets

Initial packets of one client, encrypted with the keys of their destination CIDs, and the
primitives on exactly the inputs that occur when these packets are decrypted. -/

/-- `b"initial1"`. -/
def sampleCid : Bytes := toBeBytes 8 0x696e697469616c31

/-- `b"initial1x"`. -/
def longerCid : Bytes := sampleCid ++ [0x78]

/-- An Initial with the whole ClientHello `[1, 0, 0, 0]`, which carries no server name. -/
def helloPacket : Bytes :=
  toBeBytes 41 0xca0000000108696e697469616c310000188a81cd3cc528fb95e07a482288cd0bd777a250cb363f944a

/-- A ClientHello for the server name `b`. -/
def namedHello : Bytes :=
  toBeBytes 24 0x010000350303000000000000000000000000000000000000 ++
    toBeBytes 33 0x000000000000000000000000000000000213010100000a00000006000400000162

/-- A later Initial of the same client with a whole ClientHello for the server name `b`. -/
def namedHelloPacket : Bytes :=
  toBeBytes 32 0xca0000000108696e697469616c310000404d5223df3c6177d8ec4d16a4ca28d7 ++
    toBeBytes 32 0xc35ba7d1e511bdcb057dd9bcd51d43e8f21369c29077911dd8f3dca324194537 ++
    toBeBytes 31 0x04bd0df9e9e2d816d31b5a41bc97771ff69fa37d98b5a68180357ccd3d1f11

/-- An Initial with the first four bytes of a ClientHello that is one byte shorter than the
one of `namedHelloPacket`. -/
def headerPacket : Bytes :=
  toBeBytes 41 0xc40000000108696e697469616c310000181681cd3cc528fba1bcc6c6d73de59f95ae5748969d534c27

/-- An Initial with the last two bytes of `[1, 0, 0, 0]`. -/
def tailPacket : Bytes :=
  toBeBytes 39 0xc80000000108696e697469616c310000165381cf3ac428d91ddf7e0a2671a69530e4066e3fd8d8

/-- A later Initial with its first three bytes. -/
def headPacket : Bytes :=
  toBeBytes 40 0xce0000000108696e697469616c31000017cb23df066177d85887f7ea38a3e621fa5d3319b5ba0b71

/-- An Initial like `helloPacket` whose destination CID is one byte longer. -/
def longerCidPacket : Bytes :=
  toBeBytes 42
    0xc00000000109696e697469616c31780000183aeb7f2320bedc226461d3e7b0105fd5cdffdacc14350a10

/-- The secrets and keys of `sampleCid`. -/
def sampleSecret : Bytes :=
  toBeBytes 32 0x950ab398448ff257a0f6b4b870a24caf3e50b3f3cac62c5584034d0df3e585d3
def sampleClientSecret : Bytes :=
  toBeBytes 32 0xd428cc2a0dbdc15d88fbe95d170a5ca36bb736cb3487decdae725fe594a83fe4
def sampleKeys : InitialKeyBytes where
  key := toBeBytes 16 0x55ade6b8eaf99f44d35afb029b47d09f
  iv := toBeBytes 12 0x4c0dd14ea64142f2b353f763
  hp := toBeBytes 16 0xb48427d1432645d70c1a73e8e146c26f

/-- The secrets and keys of `longerCid`. -/
def longerSecret : Bytes :=
  toBeBytes 32 0xccaa401911febc0f110c67a14e537072d525b63c1d40f0c85597b6c6686b6603
def longerClientSecret : Bytes :=
  toBeBytes 32 0x9b619cf9d93015a0dd3543f79f21fe01b17781e4af700836edbc6d6a95bab635
def longerKeys : InitialKeyBytes where
  key := toBeBytes 16 0x9416bedaccf11021ced0f9c19069d441
  iv := toBeBytes 12 0x58dc710c02d7ffe77c254028
  hp := toBeBytes 16 0x24fa2b207b4bb70c7653583ea4cc8a0f

/-- The entry of `openInPlace` for a packet with a one-byte packet number at `offset`. -/
def openedEntry (keys : InitialKeyBytes) (packet : Bytes) (offset number : ℕ) (payload : Bytes) :
    (Bytes × Bytes × Bytes × Bytes) × Bytes :=
  ((keys.key, packetNonce keys.iv number, 0xc0 :: slice packet 1 offset ++ [UInt8.ofNat number],
    packet.drop (offset + 1)), payload)

/-- The payloads of the sample packets. -/
def sampleOpened : List ((Bytes × Bytes × Bytes × Bytes) × Bytes) :=
  [openedEntry sampleKeys helloPacket 17 0 [0x06, 0x00, 0x04, 0x01, 0x00, 0x00, 0x00],
    openedEntry sampleKeys namedHelloPacket 18 1 ([0x06, 0x00, 0x39] ++ namedHello),
    openedEntry sampleKeys headerPacket 17 0 [0x06, 0x00, 0x04, 0x01, 0x00, 0x00, 0x34],
    openedEntry sampleKeys tailPacket 17 0 [0x06, 0x02, 0x02, 0x00, 0x00],
    openedEntry sampleKeys headPacket 17 1 [0x06, 0x00, 0x03, 0x01, 0x00, 0x00],
    openedEntry longerKeys longerCidPacket 18 0 [0x06, 0x00, 0x04, 0x01, 0x00, 0x00, 0x00]]

/-- The header protection masks of the sample packets. -/
def sampleMasks : List ((Bytes × Bytes) × Bytes) :=
  [((sampleKeys.hp, slice helloPacket 21 37), toBeBytes 5 0x0a8ab6e8f7),
    ((sampleKeys.hp, slice namedHelloPacket 22 38), toBeBytes 5 0x3a5362232d),
    ((sampleKeys.hp, slice headerPacket 21 37), toBeBytes 5 0x2416823af2),
    ((sampleKeys.hp, slice tailPacket 21 37), toBeBytes 5 0x78539ddfbb),
    ((sampleKeys.hp, slice headPacket 21 37), toBeBytes 5 0x7eca28748b),
    ((longerKeys.hp, slice longerCidPacket 22 38), toBeBytes 5 0xb03a18a0de)]

/-- The expansions of the secrets of the two CIDs. -/
def sampleExpansions : List ((Bytes × Bytes) × Bytes) :=
  [((sampleSecret, toBeBytes 19 0x00200f746c73313320636c69656e7420696e00), sampleClientSecret),
    ((sampleClientSecret, toBeBytes 18 0x00100e746c7331332071756963206b657900), sampleKeys.key),
    ((sampleClientSecret, toBeBytes 17 0x000c0d746c733133207175696320697600), sampleKeys.iv),
    ((sampleClientSecret, toBeBytes 17 0x00100d746c733133207175696320687000), sampleKeys.hp),
    ((longerSecret, toBeBytes 19 0x00200f746c73313320636c69656e7420696e00), longerClientSecret),
    ((longerClientSecret, toBeBytes 18 0x00100e746c7331332071756963206b657900), longerKeys.key),
    ((longerClientSecret, toBeBytes 17 0x000c0d746c733133207175696320697600), longerKeys.iv),
    ((longerClientSecret, toBeBytes 17 0x00100d746c733133207175696320687000), longerKeys.hp)]

/-- The primitives on the sample packets. -/
def sampleCrypto : Crypto where
  hkdfExtract _ dcid :=
    if dcid = sampleCid then sampleSecret else if dcid = longerCid then longerSecret else []
  hkdfExpand prk info _ := sampleExpansions.lookup (prk, info)
  newMask key sample := sampleMasks.lookup (key, sample)
  openInPlace key nonce associatedData ciphertext :=
    sampleOpened.lookup (key, nonce, associatedData, ciphertext)
  decryptBlock _ block := block

example : decryptInitialPacket sampleCrypto namedHelloPacket =
    .ok ⟨sampleCid, [], [0x06, 0x00, 0x39] ++ namedHello⟩ := by decide +kernel

end SniRouter
