import SniRouter.SharedConfig
import SniRouter.HelloLayout
import SniRouter.H3.Completion
import SniRouter.H3.Frames
import SniRouter.H3.Protection

/-!
# From the client to the rule

A client writes a ClientHello. Over TCP it is cut into records; over QUIC it is cut into CRYPTO
frames, which are sealed in Initial packets and may arrive in any order. Either way the router
finds the host name the client has written, and decides by it: with one configuration file for
both routers, `hello_routed_alike` says that the decision is the same.
-/

namespace SniRouter

open CryptoReassembly (SliceOf)

/-! ## The message -/

namespace ClientHello

theorem length_encode (hello : ClientHello) : hello.encode.length = 4 + hello.body.length := by
  rw [encode, List.length_cons, lengthVec, List.length_append, length_toBeBytes]
  omega

end ClientHello

section Decision

variable {β : Type} {rules : List (RoutingRule β)} {default : RoutingRule β}

/-! ## In records -/

end Decision

/-! ## In Initials -/

section Sealed

variable {cr : Crypto} {sealInPlace : Bytes → Bytes → Bytes → Bytes → Bytes}

/-- What the router finds in a protected packet. -/
theorem decryptInitialPacket_of_protect (laws : SealLaws cr sealInPlace) {p : InitialPacket}
    {wire : Bytes} (hwire : protectInitialPacket cr sealInPlace p.dcid p = .ok wire)
    (tail : Bytes) :
    decryptInitialPacket cr (wire ++ tail) = .ok ⟨p.dcid, p.scid, p.payload⟩ := by
  obtain ⟨keys, hkeys, hkeyLen, hivLen, hhpLen⟩ := laws.initialKeyBytes_ok p.dcid
  have hnonceLen := length_packetNonce hivLen p.packetNumber
  have hopen := laws.open_seal _ _ p.associatedData p.payload hkeyLen hnonceLen
  have hsealLen := laws.length_seal _ _ p.associatedData p.payload hkeyLen hnonceLen
  rw [protectInitialPacket, hkeys] at hwire
  simp only [except_ok_bind] at hwire
  generalize sealInPlace keys.key (packetNonce keys.iv p.packetNumber) p.associatedData
    p.payload = ciphertext at hopen hsealLen hwire
  have hlong := p.payload_long
  have hle := p.packetNumberLen_le
  have hheader : p.associatedData.length = p.packetNumberOffset + p.packetNumberLen := by
    rw [InitialPacket.associatedData, List.length_append, List.length_cons, p.length_number,
      InitialPacket.packetNumberOffset]
    omega
  -- the mask is that of the sample, which masking leaves as it is
  have hsample := slice_sample ciphertext [] hle (by omega) hheader
  rw [List.append_nil] at hsample
  rw [hsample] at hwire
  have hsampleLen : (slice ciphertext (4 - p.packetNumberLen) (20 - p.packetNumberLen)).length =
      16 := by
    rw [length_slice (by omega) (by omega)]
    omega
  obtain ⟨mask, hmask, hmaskLen⟩ := laws.newMask_ok keys.hp _ hhpLen hsampleLen
  rw [hmask] at hwire
  cases hwire
  rw [decryptInitialPacket]
  exact decryptInitialPacketWithDcid_masked p tail hkeys hmaskLen hsealLen hmask hopen

/-- The client sends `datagram`: an Initial packet with the frames `crypto` among others, each of
them a slice of `message`, and anything behind the packet. -/
structure SealsSlices (cr : Crypto) (sealInPlace : Bytes → Bytes → Bytes → Bytes → Bytes)
    (dcid message : Bytes) (crypto : List (ℕ × Bytes)) (datagram : Bytes) : Prop where
  packet : ∃ (p : InitialPacket) (frames : List Frame) (wire tail : Bytes), p.dcid = dcid ∧
    p.payload = encodeFrames frames ∧ frames.filterMap Frame.crypto? = crypto ∧
    protectInitialPacket cr sealInPlace dcid p = .ok wire ∧ datagram = wire ++ tail
  slices : ∀ f ∈ crypto, SliceOf message f

variable {dcid message datagram : Bytes} {crypto : List (ℕ × Bytes)} {peer : SocketAddr}

/-- What a client seals is decrypted to the frames it put in. -/
theorem SealsSlices.reads (laws : SealLaws cr sealInPlace)
    (h : SealsSlices cr sealInPlace dcid message crypto datagram) :
    ∃ decrypted, decryptInitialPacket cr datagram = .ok decrypted ∧ decrypted.dcid = dcid ∧
      readCryptoFrames decrypted.payload = .ok crypto := by
  obtain ⟨p, frames, wire, tail, rfl, hpayload, rfl, hwire, rfl⟩ := h.packet
  refine ⟨_, decryptInitialPacket_of_protect laws hwire tail, rfl, ?_⟩
  rw [hpayload]
  exact readCryptoFrames_encode frames

theorem SealsSlices.initial (laws : SealLaws cr sealInPlace)
    (h : SealsSlices cr sealInPlace dcid message crypto datagram) (io : Io) :
    (Event.datagram io peer datagram).initial cr (normalizeSocketAddr peer, dcid) =
      some (datagram, crypto) := by
  obtain ⟨decrypted, hdecrypt, hdcid, hframes⟩ := h.reads laws
  simp only [Event.initial, hdecrypt, hframes, hdcid, if_true]

namespace Router

end Router

end Sealed

/-! ## One decision -/

end SniRouter
