import SniRouter.Wire

/-!
# Protected Initial packets

The sender's side of `decryptInitialPacketWithDcid`: an Initial packet is sealed with the header up
to the packet number as associated data, and then the low bits of the first byte and the packet
number are masked with a mask that depends on a sample of the result. The receiver finds the sample
without knowing how long the packet number is, because it is taken four bytes after the start of the
number whatever its length.

`sealInPlace` stands for AES-GCM encryption; it is the only primitive the router does not call
itself.
-/

namespace SniRouter

/-! ## The sender -/

/-- The contents of an Initial packet. The packet number is sent in its low `packetNumberLen`
bytes, and the two lengths of the header in any width that can hold them. -/
structure InitialPacket where
  dcid : Bytes
  scid : Bytes
  token : Bytes
  payload : Bytes
  packetNumber : ℕ
  packetNumberLen : ℕ
  tokenLen : Varint
  packetLen : Varint
  dcid_lt : dcid.length < 256
  scid_lt : scid.length < 256
  packetNumberLen_pos : 1 ≤ packetNumberLen
  packetNumberLen_le : packetNumberLen ≤ 4
  packetNumber_lt : packetNumber < 256 ^ packetNumberLen
  payload_long : 4 ≤ packetNumberLen + payload.length
  tokenLen_eq : tokenLen.value = token.length
  packetLen_eq : packetLen.value = packetNumberLen + payload.length + 16

namespace InitialPacket

variable (p : InitialPacket)

/-- The long header form with the fixed bit, the type Initial and the length of the packet
number. -/
def first : UInt8 := UInt8.ofNat (0xc0 + (p.packetNumberLen - 1))

def cids : Bytes := toBeBytes 4 quicVersion1 ++ lengthVec 1 p.dcid ++ lengthVec 1 p.scid

/-- The header between the first byte and the packet number. -/
def headerTail : Bytes := p.cids ++ (p.tokenLen.encode ++ p.token) ++ p.packetLen.encode

def packetNumberOffset : ℕ := 1 + p.headerTail.length

def number : Bytes := toBeBytes p.packetNumberLen p.packetNumber

def associatedData : Bytes := p.first :: p.headerTail ++ p.number

end InitialPacket

/-- Seals and masks an Initial packet with the client keys of `keyDcid`. -/
def protectInitialPacket (cr : Crypto) (sealInPlace : Bytes → Bytes → Bytes → Bytes → Bytes)
    (keyDcid : Bytes) (p : InitialPacket) : Except String Bytes := do
  let keys ← initialKeyBytes cr keyDcid
  let ciphertext :=
    sealInPlace keys.key (packetNonce keys.iv p.packetNumber) p.associatedData p.payload
  let sampleOffset := p.packetNumberOffset + 4
  match cr.newMask keys.hp
      (slice (p.associatedData ++ ciphertext) sampleOffset (sampleOffset + 16)) with
  | none => .error "QUIC Initial header protection failed"
  | some mask =>
    .ok ((p.first ^^^ (mask.getD 0 0 &&& 0x0f)) :: p.headerTail ++
      List.zipWith (· ^^^ ·) p.number (mask.drop 1) ++ ciphertext)

/-! ## The first byte -/

/-- Masking the low bits does not change the high ones. -/
theorem xor_low_and {a m c : UInt8} (hc : 0x0f &&& c = 0) :
    (a ^^^ (m &&& 0x0f)) &&& c = a &&& c := by
  have hmc : m &&& 0x0f &&& c = 0 := by
    rw [UInt8.and_assoc, hc, UInt8.and_zero]
  have hdist : (a ^^^ (m &&& 0x0f)) &&& c = (a &&& c) ^^^ (m &&& 0x0f &&& c) := by
    apply UInt8.toBitVec_inj.1
    simp only [UInt8.toBitVec_and, UInt8.toBitVec_xor]
    ext i hi
    simp [Bool.and_xor_distrib_right]
  rw [hdist, hmc, UInt8.xor_zero]

theorem xor_xor_self (a b : UInt8) : a ^^^ b ^^^ b = a := by
  rw [UInt8.xor_assoc, UInt8.xor_self, UInt8.xor_zero]

/-- Masking twice with bytes that are at least as many gives the bytes back. -/
theorem zipWith_xor_xor {a m : Bytes} (h : a.length ≤ m.length) :
    List.zipWith (· ^^^ ·) (List.zipWith (· ^^^ ·) a m) m = a := by
  induction a generalizing m with
  | nil => simp
  | cons x a ih =>
    cases m with
    | nil => simp at h
    | cons y m =>
      have hlen : a.length ≤ m.length := by simpa using h
      simp only [List.zipWith_cons_cons, xor_xor_self, ih hlen]

namespace InitialPacket

variable (p : InitialPacket)

theorem first_long : p.first &&& 0x80 ≠ 0 := by
  have hpos := p.packetNumberLen_pos
  have hle := p.packetNumberLen_le
  unfold first
  interval_cases p.packetNumberLen <;> decide

theorem first_type : ((p.first &&& 0x30) >>> 4).toNat = quicPacketTypeInitial := by
  have hpos := p.packetNumberLen_pos
  have hle := p.packetNumberLen_le
  unfold first
  interval_cases p.packetNumberLen <;> decide

theorem first_numberLen : (p.first &&& 0x03).toNat + 1 = p.packetNumberLen := by
  have hpos := p.packetNumberLen_pos
  have hle := p.packetNumberLen_le
  unfold first
  interval_cases p.packetNumberLen <;> decide

@[simp] theorem length_number : p.number.length = p.packetNumberLen := by
  simp [number]

theorem beNat_number : beNat p.number = p.packetNumber := beNat_toBeBytes p.packetNumber_lt

end InitialPacket

/-! ## The header at the receiver -/

section Header

variable {packet dcid scid : Bytes} {first : UInt8} {i : ℕ}

/-- The CIDs of a long header are read back. -/
theorem parseLongPacketCids_encode (hdcid : dcid.length < 256) (hscid : scid.length < 256)
    (hlong : first &&& 0x80 ≠ 0)
    (h : Reads packet 0
      (first :: (toBeBytes 4 quicVersion1 ++ lengthVec 1 dcid ++ lengthVec 1 scid)) i) :
    parseLongPacketCids packet =
      .ok (some ⟨quicVersion1, ((first &&& 0x30) >>> 4).toNat, dcid, scid⟩) := by
  have hstop := h.stop_le
  have hi := h.stop_eq
  simp only [List.length_cons, List.length_append, length_toBeBytes, length_lengthVec] at hi
  obtain ⟨hfirst, h⟩ := reads_cons.mp h
  obtain ⟨h, hs⟩ := reads_append.mp h
  obtain ⟨hversion, hd⟩ := reads_append.mp h
  simp only [List.length_append, length_toBeBytes, length_lengthVec] at hversion hd hs
  obtain ⟨hdLen, hd⟩ := lengthVec_one_at hd hdcid
  obtain ⟨hsLen, hs⟩ := lengthVec_one_at hs hscid
  have hhead : packet.head? = some first := by
    rw [List.head?_eq_getElem?]
    exact (reads_singleton.mp hfirst).1
  have hv : beNat (slice packet 1 5) = quicVersion1 := by
    have hslice : slice packet 1 5 = toBeBytes 4 quicVersion1 := slice_eq_of_reads hversion
    rw [hslice]
    rfl
  have hd5 : byteAt packet 5 = dcid.length := hdLen
  have hdcidAt : slice packet 6 (6 + dcid.length) = dcid := by
    have hend := hd.stop_eq
    have : 6 + dcid.length = 0 + 1 + (4 + (1 + dcid.length)) := by omega
    rw [this]
    exact slice_eq_of_reads hd
  have hsAt : 0 + 1 + (4 + (1 + dcid.length)) = 6 + dcid.length := by omega
  rw [hsAt] at hsLen hs
  have hscidAt : slice packet (6 + dcid.length + 1) (6 + dcid.length + 1 + scid.length) = scid := by
    rw [← hs.stop_eq]
    exact slice_eq_of_reads hs
  simp only [parseLongPacketCids, hhead]
  rw [if_neg hlong, if_neg (by omega)]
  simp only [hv, hd5]
  rw [if_neg (by omega)]
  simp only [hsLen]
  rw [if_neg (by omega), hdcidAt, hscidAt]

/-- The packet number of an Initial packet starts after its length, wherever that is, and the
packet ends as many bytes later as the length says. -/
theorem parseInitialHeader_encode {token : Bytes} {tokenLen packetLen : Varint}
    (hdcid : dcid.length < 256) (hscid : scid.length < 256) (hlong : first &&& 0x80 ≠ 0)
    (htype : ((first &&& 0x30) >>> 4).toNat = quicPacketTypeInitial)
    (htoken : tokenLen.value = token.length)
    (h : Reads packet 0 (first :: (toBeBytes 4 quicVersion1 ++ lengthVec 1 dcid ++
      lengthVec 1 scid) ++ (tokenLen.encode ++ token) ++ packetLen.encode) i)
    (hend : i + packetLen.value ≤ packet.length) :
    parseInitialHeader packet =
      .ok ⟨⟨quicVersion1, quicPacketTypeInitial, dcid, scid⟩, i, i + packetLen.value⟩ := by
  obtain ⟨h, hplen⟩ := reads_append.mp h
  obtain ⟨hcids, h⟩ := reads_append.mp h
  have hparse := parseLongPacketCids_encode hdcid hscid hlong hcids
  simp only [List.length_cons, List.length_append, length_toBeBytes, length_lengthVec] at h
  obtain ⟨htlen, htok⟩ := reads_append.mp h
  have hstart : 0 + (4 + (1 + dcid.length) + (1 + scid.length) + 1) =
      5 + 1 + dcid.length + 1 + scid.length := by omega
  rw [hstart] at htlen htok
  have htokEnd := htok.stop_eq
  have htokLe := htok.stop_le
  have hplen : Reads packet (5 + 1 + dcid.length + 1 + scid.length + tokenLen.encode.length +
      token.length) packetLen.encode i := by
    convert hplen using 1
    simp only [List.length_cons, List.length_append, length_toBeBytes, length_lengthVec]
    omega
  simp only [parseInitialHeader, hparse, except_ok_bind, htype]
  rw [if_neg (by simp), if_neg (by simp)]
  simp only [readVarint_encode _ htlen, except_ok_bind, htoken]
  rw [if_neg (by omega)]
  simp only [readVarint_encode _ hplen, except_ok_bind]
  rw [if_neg (by omega)]

end Header

/-! ## Unprotecting -/

theorem slice_append_right (a b : Bytes) (i j : ℕ) :
    slice (a ++ b) (a.length + i) (a.length + j) = slice b i j := by
  simp [slice, List.take_append, List.drop_append]

theorem slice_append_left {a : Bytes} (b : Bytes) {i j : ℕ} (h : j ≤ a.length) :
    slice (a ++ b) i j = slice a i j := by
  rw [slice, List.take_append_of_le_length h, slice]

/-- What is promised of the primitives: opening inverts sealing, a tag is 16 bytes long, a mask of
five bytes exists for every sample of 16 bytes, and HKDF-SHA256 expands to every length up to 255
blocks. -/
structure SealLaws (cr : Crypto) (sealInPlace : Bytes → Bytes → Bytes → Bytes → Bytes) : Prop where
  open_seal : ∀ key nonce associatedData payload : Bytes, key.length = 16 → nonce.length = 12 →
    cr.openInPlace key nonce associatedData (sealInPlace key nonce associatedData payload) =
      some payload
  length_seal : ∀ key nonce associatedData payload : Bytes, key.length = 16 → nonce.length = 12 →
    (sealInPlace key nonce associatedData payload).length = payload.length + 16
  newMask_ok : ∀ key sample : Bytes, key.length = 16 → sample.length = 16 →
    ∃ mask, cr.newMask key sample = some mask ∧ mask.length = 5
  hkdfExpand_ok : ∀ (prk info : Bytes) (len : ℕ), len ≤ 255 * 32 →
    ∃ out, cr.hkdfExpand prk info len = some out ∧ out.length = len

section Unprotect

variable {cr : Crypto} {sealInPlace : Bytes → Bytes → Bytes → Bytes → Bytes}

/-- Keys of the lengths that QUIC asks for can be derived. -/
theorem SealLaws.hkdfExpandLabel_ok (laws : SealLaws cr sealInPlace) (secret : Bytes)
    (label : Bytes) (len : ℕ) (hlabel : label.length ≤ 200) (hlen : len ≤ 255 * 32) :
    ∃ out, hkdfExpandLabel cr secret label len = .ok out ∧ out.length = len := by
  have htls : tls13Label.length = 6 := rfl
  obtain ⟨out, hout, houtLen⟩ := laws.hkdfExpand_ok secret
    (toBeBytes 2 len ++ [UInt8.ofNat (tls13Label.length + label.length)] ++ tls13Label ++ label ++
      [0]) len hlen
  refine ⟨out, ?_, houtLen⟩
  unfold hkdfExpandLabel
  dsimp only
  rw [if_neg (by omega), if_neg (by omega), hout]

/-- The client keys exist for every connection ID, with the lengths the ciphers need. -/
theorem SealLaws.initialKeyBytes_ok (laws : SealLaws cr sealInPlace) (dcid : Bytes) :
    ∃ keys, initialKeyBytes cr dcid = .ok keys ∧ keys.key.length = 16 ∧ keys.iv.length = 12 ∧
      keys.hp.length = 16 := by
  obtain ⟨secret, hsecret, -⟩ := laws.hkdfExpandLabel_ok
    (cr.hkdfExtract quicV1InitialSalt dcid) clientInLabel 32 (by decide)
    (by decide)
  obtain ⟨key, hkey, hkeyLen⟩ := laws.hkdfExpandLabel_ok secret quicKeyLabel 16 (by decide)
    (by decide)
  obtain ⟨iv, hiv, hivLen⟩ := laws.hkdfExpandLabel_ok secret quicIvLabel 12
    (by decide) (by decide)
  obtain ⟨hp, hhp, hhpLen⟩ := laws.hkdfExpandLabel_ok secret quicHpLabel 16
    (by decide) (by decide)
  refine ⟨⟨key, iv, hp⟩, ?_, hkeyLen, hivLen, hhpLen⟩
  simp only [initialKeyBytes, hsecret, hkey, hiv, hhp, except_ok_bind]
  rfl

theorem length_packetNonce {iv : Bytes} (h : iv.length = 12) (packetNumber : ℕ) :
    (packetNonce iv packetNumber).length = 12 := by
  simp [packetNonce, h]

/-- The receiver's sample, and the sender's: both are taken from the ciphertext only, since the
packet number has at most four bytes. -/
theorem slice_sample {header : Bytes} (ciphertext tail : Bytes) {len : ℕ} (hlen : len ≤ 4)
    (hlong : 20 - len ≤ ciphertext.length) {offset : ℕ} (hheader : header.length = offset + len) :
    slice (header ++ ciphertext ++ tail) (offset + 4) (offset + 4 + 16) =
      slice ciphertext (4 - len) (20 - len) := by
  have hstart : offset + 4 = header.length + (4 - len) := by omega
  have hstop : offset + 4 + 16 = header.length + (20 - len) := by omega
  rw [hstop, hstart, List.append_assoc, slice_append_right, slice_append_left tail hlong]

/-- Where the parts of a protected packet are, whatever its first byte and its number look like
and whatever follows it. -/
theorem protected_reads (p : InitialPacket) {first : UInt8} {number ciphertext : Bytes}
    (tail : Bytes) (hnumber : number.length = p.packetNumberLen)
    (hciphertext : ciphertext.length = p.payload.length + 16) {packet : Bytes}
    (hpacket : first :: p.headerTail ++ number ++ ciphertext ++ tail = packet) :
    Reads packet 0 (first :: p.headerTail) p.packetNumberOffset ∧
    Reads packet p.packetNumberOffset number (p.packetNumberOffset + p.packetNumberLen) ∧
    Reads packet (p.packetNumberOffset + p.packetNumberLen) ciphertext
      (p.packetNumberOffset + p.packetLen.value) := by
  have hoffset : (first :: p.headerTail).length = p.packetNumberOffset := by
    rw [List.length_cons, InitialPacket.packetNumberOffset]
    omega
  have hend : (first :: p.headerTail ++ number).length =
      p.packetNumberOffset + p.packetNumberLen := by
    rw [List.length_append, hoffset, hnumber]
  subst hpacket
  refine ⟨?_, ?_, ?_⟩
  · have := reads_middle [] (first :: p.headerTail) (number ++ ciphertext ++ tail)
    simpa [hoffset] using this
  · have := reads_middle (first :: p.headerTail) number (ciphertext ++ tail)
    rwa [hoffset, hnumber, ← List.append_assoc] at this
  · have := reads_middle (first :: p.headerTail ++ number) ciphertext tail
    rw [hend, hciphertext] at this
    rwa [p.packetLen_eq, Nat.add_assoc p.packetNumberLen, ← Nat.add_assoc]

/-- Decryption of a protected packet once the keys and the mask are there. -/
theorem decryptInitialPacketWithDcid_masked (p : InitialPacket) {keys : InitialKeyBytes}
    {mask ciphertext : Bytes} {keyDcid : Option Bytes} (tail : Bytes)
    (hkeys : initialKeyBytes cr (keyDcid.getD p.dcid) = .ok keys) (hmaskLen : mask.length = 5)
    (hciphertextLen : ciphertext.length = p.payload.length + 16)
    (hmask : cr.newMask keys.hp (slice ciphertext (4 - p.packetNumberLen)
      (20 - p.packetNumberLen)) = some mask)
    (hopen : cr.openInPlace keys.key (packetNonce keys.iv p.packetNumber) p.associatedData
      ciphertext = some p.payload) :
    decryptInitialPacketWithDcid cr ((p.first ^^^ (mask.getD 0 0 &&& 0x0f)) :: p.headerTail ++
      List.zipWith (· ^^^ ·) p.number (mask.drop 1) ++ ciphertext ++ tail) keyDcid =
      .ok ⟨p.dcid, p.scid, p.payload⟩ := by
  have hlong := p.payload_long
  have hle := p.packetNumberLen_le
  have hpacketLen := p.packetLen_eq
  have hmaskDrop : (mask.drop 1).length = 4 := by rw [List.length_drop, hmaskLen]
  generalize hfirst : p.first ^^^ (mask.getD 0 0 &&& 0x0f) = first
  generalize hnumber : List.zipWith (· ^^^ ·) p.number (mask.drop 1) = number
  have hnumberLen : number.length = p.packetNumberLen := by
    rw [← hnumber, List.length_zipWith, hmaskDrop, p.length_number]
    omega
  generalize hpacket : first :: p.headerTail ++ number ++ ciphertext ++ tail = packet
  obtain ⟨hheader, hnumberAt, hciphertextAt⟩ :=
    protected_reads p tail hnumberLen hciphertextLen hpacket
  have hparse : parseInitialHeader packet = .ok ⟨⟨quicVersion1, quicPacketTypeInitial, p.dcid,
      p.scid⟩, p.packetNumberOffset, p.packetNumberOffset + p.packetLen.value⟩ := by
    -- the mask leaves the bits alone that tell the form and the type of the packet
    refine parseInitialHeader_encode p.dcid_lt p.scid_lt ?_ ?_ p.tokenLen_eq
      hheader hciphertextAt.stop_le
    · rw [← hfirst, xor_low_and rfl]
      exact p.first_long
    · rw [← hfirst, xor_low_and rfl]
      exact p.first_type
  have hsample : slice packet (p.packetNumberOffset + 4) (p.packetNumberOffset + 4 + 16) =
      slice ciphertext (4 - p.packetNumberLen) (20 - p.packetNumberLen) := by
    rw [← hpacket]
    refine slice_sample ciphertext tail hle (by omega) ?_
    rw [List.length_append, List.length_cons, hnumberLen, InitialPacket.packetNumberOffset]
    omega
  have hfirstAt : packet.getD 0 0 = first := by
    rw [← hpacket]
    rfl
  have htailAt : slice packet 1 p.packetNumberOffset = p.headerTail :=
    slice_eq_of_reads (reads_cons.mp hheader).2
  have hunmasked : List.zipWith (· ^^^ ·) number (mask.drop 1) = p.number := by
    rw [← hnumber]
    apply zipWith_xor_xor
    rw [p.length_number, hmaskDrop]
    exact hle
  have hplain : first ^^^ (mask.getD 0 0 &&& 0x0f) = p.first := by
    rw [← hfirst, xor_xor_self]
  simp only [decryptInitialPacketWithDcid, hparse, hkeys, except_ok_bind]
  rw [if_neg (by omega)]
  simp only [hsample, hmask, hfirstAt, hplain, p.first_numberLen]
  rw [if_neg (by omega)]
  simp only [slice_eq_of_reads hnumberAt, hunmasked, p.beNat_number, htailAt,
    slice_eq_of_reads hciphertextAt]
  rw [show p.first :: p.headerTail ++ p.number = p.associatedData from rfl, hopen]

/-- Decryption undoes protection: every Initial packet can be protected with the keys of any
connection ID, and the protected packet, with any other packets after it, is decrypted with these
keys to the IDs and the payload that went in. -/
theorem decryptInitialPacketWithDcid_protect (laws : SealLaws cr sealInPlace) (keyDcid : Bytes)
    (p : InitialPacket) :
    ∃ packet, protectInitialPacket cr sealInPlace keyDcid p = .ok packet ∧ ∀ tail : Bytes,
      decryptInitialPacketWithDcid cr (packet ++ tail) (some keyDcid) =
        .ok ⟨p.dcid, p.scid, p.payload⟩ ∧
      (keyDcid = p.dcid → decryptInitialPacketWithDcid cr (packet ++ tail) none =
        .ok ⟨p.dcid, p.scid, p.payload⟩) := by
  obtain ⟨keys, hkeys, hkeyLen, hivLen, hhpLen⟩ := laws.initialKeyBytes_ok keyDcid
  have hnonceLen := length_packetNonce hivLen p.packetNumber
  have hopen := laws.open_seal _ _ p.associatedData p.payload hkeyLen hnonceLen
  have hsealLen := laws.length_seal _ _ p.associatedData p.payload hkeyLen hnonceLen
  generalize hseal : sealInPlace keys.key (packetNonce keys.iv p.packetNumber) p.associatedData
    p.payload = ciphertext at hopen hsealLen
  have hlong := p.payload_long
  have hle := p.packetNumberLen_le
  -- the sample is part of the ciphertext, so that masking the header does not change it
  have hsample : slice (p.associatedData ++ ciphertext) (p.packetNumberOffset + 4)
      (p.packetNumberOffset + 4 + 16) =
      slice ciphertext (4 - p.packetNumberLen) (20 - p.packetNumberLen) := by
    have hheader : p.associatedData.length = p.packetNumberOffset + p.packetNumberLen := by
      rw [InitialPacket.associatedData, List.length_append, List.length_cons, p.length_number,
        InitialPacket.packetNumberOffset]
      omega
    have := slice_sample ciphertext [] hle (by omega) hheader
    rwa [List.append_nil] at this
  have hsampleLen : (slice ciphertext (4 - p.packetNumberLen) (20 - p.packetNumberLen)).length =
      16 := by
    rw [length_slice (by omega) (by omega)]
    omega
  obtain ⟨mask, hmask, hmaskLen⟩ := laws.newMask_ok keys.hp _ hhpLen hsampleLen
  have hpacket : protectInitialPacket cr sealInPlace keyDcid p =
      .ok ((p.first ^^^ (mask.getD 0 0 &&& 0x0f)) :: p.headerTail ++
        List.zipWith (· ^^^ ·) p.number (mask.drop 1) ++ ciphertext) := by
    simp only [protectInitialPacket, hkeys, except_ok_bind, hseal, hsample, hmask]
  refine ⟨_, hpacket, ?_⟩
  intro tail
  constructor
  · exact decryptInitialPacketWithDcid_masked p tail hkeys hmaskLen hsealLen hmask hopen
  · intro hdcid
    subst hdcid
    exact decryptInitialPacketWithDcid_masked p tail hkeys hmaskLen hsealLen hmask hopen

end Unprotect

/-! ## The sample packet

`helloPacket` is what the sender makes of its contents. The primitives below are the real ones on
the inputs that occur there, and somewhere else simple ones that keep the same promises. -/

/-- The contents of `helloPacket`. -/
def helloInitial : InitialPacket where
  dcid := sampleCid
  scid := []
  token := []
  payload := [0x06, 0x00, 0x04, 0x01, 0x00, 0x00, 0x00]
  packetNumber := 0
  packetNumberLen := 1
  tokenLen := .short 0 (Nat.zero_lt_succ 63)
  packetLen := .short 24 (by decide)
  dcid_lt := by decide
  scid_lt := by decide
  packetNumberLen_pos := by decide
  packetNumberLen_le := by decide
  packetNumber_lt := by decide
  payload_long := by decide
  tokenLen_eq := rfl
  packetLen_eq := rfl

/-- The key, nonce and associated data of `helloPacket`. -/
def helloInputs : Bytes × Bytes × Bytes :=
  (sampleKeys.key, packetNonce sampleKeys.iv 0, helloInitial.associatedData)

def helloSeal (key nonce associatedData payload : Bytes) : Bytes :=
  if (key, nonce, associatedData) = helloInputs ∧ payload = helloInitial.payload then
    helloPacket.drop 18
  else payload ++ List.replicate 16 0

def helloCrypto : Crypto where
  hkdfExtract := sampleCrypto.hkdfExtract
  hkdfExpand prk info len :=
    match sampleExpansions.lookup (prk, info) with
    | some out => if out.length = len then some out else some (List.replicate len 0)
    | none => some (List.replicate len 0)
  newMask key sample :=
    if (key, sample) = (sampleKeys.hp, slice helloPacket 21 37) then
      some (toBeBytes 5 0x0a8ab6e8f7)
    else some (List.replicate 5 0)
  openInPlace key nonce associatedData ciphertext :=
    if (key, nonce, associatedData) = helloInputs ∧ ciphertext = helloPacket.drop 18 then
      some helloInitial.payload
    else some (ciphertext.take (ciphertext.length - 16))
  decryptBlock _ block := block

/-- No other payload is sealed to the bytes of `helloPacket`: its tag is not zero. -/
theorem append_zeros_ne_hello (payload : Bytes) :
    payload ++ List.replicate 16 0 ≠ helloPacket.drop 18 := by
  intro h
  have hzero : (payload ++ List.replicate 16 (0 : UInt8)).getLast? = some 0 := by
    rw [List.getLast?_append, List.getLast?_replicate]
    rfl
  have htag : (helloPacket.drop 18).getLast? = some 0x4a := by decide
  rw [h, htag] at hzero
  exact absurd hzero (by decide)

theorem helloLaws : SealLaws helloCrypto helloSeal where
  open_seal key nonce associatedData payload _ _ := by
    simp only [helloCrypto, helloSeal]
    by_cases hin : (key, nonce, associatedData) = helloInputs ∧ payload = helloInitial.payload
    · rw [if_pos hin, if_pos ⟨hin.1, rfl⟩, hin.2]
    · rw [if_neg hin, if_neg (fun h => append_zeros_ne_hello payload h.2)]
      simp
  length_seal key nonce associatedData payload _ _ := by
    simp only [helloSeal]
    split
    · rename_i hin
      rw [hin.2]
      decide
    · simp
  newMask_ok key sample _ _ := by
    simp only [helloCrypto]
    split
    · exact ⟨_, rfl, by decide⟩
    · exact ⟨_, rfl, by decide⟩
  hkdfExpand_ok prk info len _ := by
    simp only [helloCrypto]
    split
    · split
      · rename_i hlen
        exact ⟨_, rfl, hlen⟩
      · exact ⟨_, rfl, List.length_replicate⟩
    · exact ⟨_, rfl, List.length_replicate⟩

/-- `helloPacket` is what protection makes of its contents, and with another packet after it
decryption gives them back. -/
theorem decryptInitialPacketWithDcid_protect_hello :
    protectInitialPacket helloCrypto helloSeal sampleCid helloInitial = .ok helloPacket ∧
    decryptInitialPacketWithDcid helloCrypto (helloPacket ++ tailPacket) none =
      .ok ⟨sampleCid, [], helloInitial.payload⟩ := by
  have hpacket : protectInitialPacket helloCrypto helloSeal sampleCid helloInitial =
      .ok helloPacket := by decide +kernel
  obtain ⟨packet, hprotect, hdecrypt⟩ :=
    decryptInitialPacketWithDcid_protect helloLaws sampleCid helloInitial
  have hsame : helloPacket = packet := Except.ok.inj (hpacket.symm.trans hprotect)
  rw [← hsame] at hdecrypt
  exact ⟨hpacket, (hdecrypt tailPacket).2 rfl⟩

end SniRouter
