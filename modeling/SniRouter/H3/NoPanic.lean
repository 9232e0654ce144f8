import SniRouter.H3.CheckedPacket
import SniRouter.H3.Frames
import SniRouter.H3.Protection

/-!
# No datagram crashes the router

What a datagram carries is read, put together and searched for a server name without a panic
and within a bounded number of steps (`pipeline_never_panics`): on a 64-bit machine every
function of `Checked` computes what its mathematical version does.
-/

namespace SniRouter.Checked

open Exec

variable {m : Target}

/-! ## The server name -/

/-- Reading two bytes inside the buffer does not panic. -/
theorem u16At_eq {buf : Bytes} {i : ℕ} (hi : i + 1 < buf.length) (hsmall : i + 1 < 2 ^ 32) :
    u16At m buf i = .ok (SniRouter.u16At buf i) := by
  have hm := m.width.two_pow_le_modulus
  rw [u16At, index_eq (by omega) 0, ok_bind, Target.add_eq (by omega), ok_bind, index_eq hi 0]
  rfl

/-- Bytes that are shifted into different places do not overlap, so `|` adds them. -/
theorem or_three_bytes (a b c : UInt8) :
    a.toNat * 2 ^ 16 ||| b.toNat * 2 ^ 8 ||| c.toNat =
      a.toNat * 65536 + b.toNat * 256 + c.toNat := by
  have hb : b.toNat < 256 := b.toNat_lt
  have hhigh : a.toNat * 2 ^ 16 ||| b.toNat * 2 ^ 8 = (a.toNat * 256 + b.toNat) * 2 ^ 8 := by
    rw [Nat.mul_comm a.toNat,
      ← Nat.two_pow_add_eq_or_of_lt (show b.toNat * 2 ^ 8 < 2 ^ 16 by omega)]
    omega
  rw [hhigh, or_byte_eq]
  omega

/-- The length in a handshake header is read when the header is there. -/
theorem handshakeLen_eq {bytes : Bytes} (h : 4 ≤ bytes.length) :
    handshakeLen m bytes = .ok (u24At bytes 1) := by
  have hbits : 2 ^ 32 ≤ 2 ^ m.width.bits := m.width.two_pow_le_modulus
  have hwidth : 32 ≤ m.width.bits := by cases m.width <;> decide
  have h1 := byteAt_lt bytes 1
  have h2 := byteAt_lt bytes 2
  unfold byteAt at h1 h2
  rw [handshakeLen, index_eq (by omega) 0, ok_bind, index_eq (by omega) 0, ok_bind,
    index_eq (by omega) 0, ok_bind, Target.shl_eq (by omega) (by omega), ok_bind,
    Target.shl_eq (by omega) (by omega), ok_bind, or_three_bytes]
  rfl

/-- The loop over the names stays inside the extension and has enough fuel. -/
theorem hostNameLoop_eq {ext : Bytes} {stop fuel k : ℕ} (hstop : stop ≤ ext.length)
    (hsmall : stop ≤ 2 ^ 24) (hk : k ≤ stop) (hfuel : stop < k + fuel) :
    hostNameLoop m ext stop fuel k = liftError (SniRouter.hostNameLoop ext stop k) := by
  have hm := m.width.two_pow_le_modulus
  induction fuel generalizing k with
  | zero => omega
  | succ fuel ih =>
    rw [hostNameLoop, SniRouter.hostNameLoop, Target.add_eq (by omega), ok_bind]
    refine liftError_ite (fun hnext => ?_) fun _ => rfl
    have hlen := u16At_lt ext (k + 1)
    rw [index_eq (by omega) 0, ok_bind, Target.add_eq (by omega), ok_bind,
      u16At_eq (by omega) (by omega), ok_bind, ok_bind, Target.add_eq (by omega), ok_bind]
    refine liftError_ite (fun _ => rfl) fun hhost => ?_
    refine liftError_ite (fun _ => ?_) fun _ => ih (by omega) (by omega)
    rw [range_slice (by omega) (by omega)]
    rfl

/-- A server_name extension with any content, and any lengths in it. -/
theorem serverNameExtension_eq {ext : Bytes} {fuel : ℕ} (hfuel : 65536 ≤ fuel) :
    serverNameExtension m fuel ext = liftError (SniRouter.serverNameExtension ext) := by
  have hm := m.width.two_pow_le_modulus
  have hlen := u16At_lt ext 0
  refine liftError_ite (fun _ => rfl) fun hext => ?_
  rw [u16At_eq (by omega) (by decide), ok_bind]
  refine Target.exceeds_ite (by omega) (fun _ => rfl) fun hlist => ?_
  rw [Target.add_eq (by omega), ok_bind]
  exact hostNameLoop_eq (by omega) (by omega) (by omega) (by omega)

/-- The loop over the extensions stays inside the body and has enough fuel. -/
theorem extensionLoop_eq {body : Bytes} {stop fuel n j : ℕ} (hfuel : 65536 ≤ fuel)
    (hstop : stop ≤ body.length) (hsmall : stop ≤ 2 ^ 24) (hj : j ≤ stop) (hn : stop < j + n) :
    extensionLoop m fuel body stop n j = liftError (SniRouter.extensionLoop body stop j) := by
  have hm := m.width.two_pow_le_modulus
  induction n generalizing j with
  | zero => omega
  | succ n ih =>
    rw [extensionLoop, SniRouter.extensionLoop, Target.add_eq (by omega), ok_bind]
    refine liftError_ite (fun hnext => ?_) fun _ => rfl
    have hlen := u16At_lt body (j + 2)
    rw [u16At_eq (by omega) (by omega), ok_bind, Target.add_eq (by omega), ok_bind,
      u16At_eq (by omega) (by omega), ok_bind, ok_bind, Target.add_eq (by omega), ok_bind]
    refine liftError_ite (fun _ => rfl) fun hext => ?_
    refine liftError_ite (fun _ => ?_) fun _ => ih (by omega) (by omega)
    rw [range_slice (by omega) (by omega), ok_bind]
    exact serverNameExtension_eq hfuel

/-- A block of extensions, which may end before the length in front of it says. -/
theorem extensionsBlock_eq {body : Bytes} {fuel i : ℕ} (hfuel : 65536 ≤ fuel)
    (hbody : body.length ≤ 2 ^ 24) (hi : i ≤ body.length) :
    extensionsBlock m fuel body i = liftError (SniRouter.extensionsBlock body i) := by
  have hm := m.width.two_pow_le_modulus
  refine liftError_ite (fun _ => rfl) fun _ => ?_
  refine Target.exceeds_ite (by omega) (fun _ => rfl) fun htwo => ?_
  have hlen := u16At_lt body i
  rw [u16At_eq (by omega) (by omega), ok_bind, Target.add_eq (by omega), ok_bind]
  refine Target.exceeds_ite (by omega) (fun _ => rfl) fun hblock => ?_
  rw [Target.add_eq (by omega), ok_bind]
  exact extensionLoop_eq hfuel (by omega) (by omega) (by omega) (by omega)

/-- The body of a ClientHello, whatever its lengths say. -/
theorem extractBodySni_eq {body : Bytes} {fuel : ℕ} (hfuel : 65536 ≤ fuel)
    (hbody : body.length ≤ 2 ^ 24) :
    extractBodySni m fuel body = liftError (SniRouter.extractBodySni body) := by
  have hm := m.width.two_pow_le_modulus
  refine liftError_ite (fun _ => rfl) fun hshort => ?_
  have hsidLt := byteAt_lt body 34
  have hsid : (body.getD (0 + (2 + 32)) 0).toNat = byteAt body 34 := rfl
  have hcursor : 0 + (2 + 32) + 1 = 35 := rfl
  rw [Target.add_eq (by omega), ok_bind, index_eq (by omega) 0, ok_bind, hsid,
    Target.add_eq (by omega), ok_bind, hcursor]
  refine Target.exceeds_ite (by omega) (fun _ => rfl) fun hsidEnd => ?_
  rw [Target.add_eq (by omega), ok_bind]
  -- behind the session id
  generalize 35 + byteAt body 34 = i at hsidEnd ⊢
  refine Target.exceeds_ite (by omega) (fun _ => rfl) fun hcs => ?_
  have hcsLt := u16At_lt body i
  rw [u16At_eq (by omega) (by omega), ok_bind, Target.add_eq (by omega), ok_bind,
    Target.exceeds_eq (by omega), ok_bind]
  simp only [decide_eq_true_eq]
  refine liftError_ite (fun _ => rfl) fun hcsEnd => ?_
  rw [not_or] at hcsEnd
  obtain ⟨hcsEnd, -⟩ := hcsEnd
  rw [Target.add_eq (by omega), ok_bind]
  -- behind the cipher suites
  generalize i + 2 + SniRouter.u16At body i = i' at hcsEnd ⊢
  refine Target.exceeds_ite (by omega) (fun _ => rfl) fun hcm => ?_
  have hcmLt := byteAt_lt body i'
  have hcmByte : (body.getD i' 0).toNat = byteAt body i' := rfl
  rw [index_eq (by omega) 0, ok_bind, hcmByte, Target.add_eq (by omega), ok_bind]
  refine Target.exceeds_ite (by omega) (fun _ => rfl) fun hcmEnd => ?_
  rw [Target.add_eq (by omega), ok_bind]
  exact extensionsBlock_eq hfuel hbody (by omega)

/-- `extract_tls_sni` panics on no input. -/
theorem extractTlsSni_eq (clienthello : Bytes) {fuel : ℕ} (hfuel : 65536 ≤ fuel) :
    extractTlsSni m fuel clienthello = liftError (SniRouter.extractTlsSni clienthello) := by
  have hm := m.width.two_pow_le_modulus
  refine liftError_ite (fun _ => rfl) fun hshort => ?_
  rw [index_eq (by omega) 0, ok_bind]
  refine liftError_ite (fun _ => rfl) fun _ => ?_
  have hlen := u24At_lt clienthello 1
  rw [handshakeLen_eq (by omega), ok_bind]
  refine Target.exceeds_ite (by omega) (fun _ => rfl) fun hbody => ?_
  rw [Target.add_eq (by omega), ok_bind, range_slice (by omega) (by omega), ok_bind]
  refine extractBodySni_eq hfuel ?_
  have := length_slice_le clienthello 4 (4 + u24At clienthello 1)
  omega

/-! ## Reassembly -/

/-- No CRYPTO frame of a datagram reaches beyond this position of the stream. -/
def streamEnd : ℕ := 2 ^ 62 + 65535

/-- The positions a reassembly has seen are within the reach of the frames. -/
def WithinReach (bytes : Bytes) (fragments : Table ℕ Bytes) : Prop :=
  bytes.length ≤ streamEnd ∧
    ∀ offset data, fragments.lookup offset = some data → offset + data.length ≤ streamEnd

/-- The length of a stream fits in 64 bits. -/
theorem lengthU64_eq {bytes : Bytes} (h : bytes.length ≤ streamEnd) :
    lengthU64 bytes = .ok bytes.length := by
  unfold streamEnd at h
  rw [lengthU64, if_pos (by omega)]
  rfl

section Reassembly

variable (hwide : m.width = .bits64)

include hwide

/-- Appending a fragment that starts inside the prefix does not overflow. -/
theorem append_machine_eq {bytes : Bytes} {offset : ℕ} (h : bytes.length ≤ streamEnd)
    (hoffset : offset ≤ bytes.length) (data : Bytes) :
    append m bytes offset data = .ok (CryptoReassembly.append bytes offset data) := by
  have hmodulus := modulus_eq hwide
  unfold streamEnd at h
  rw [append, lengthU64_eq h, ok_bind, Target.subU64_eq hoffset, ok_bind,
    Target.tryFromU64_eq (by omega)]
  rfl

omit hwide in
/-- The prefix stays below the end of the stream when a fragment is appended. -/
theorem WithinReach.append {bytes : Bytes} {fragments : Table ℕ Bytes}
    (h : WithinReach bytes fragments) {offset : ℕ} {data : Bytes}
    (hoffset : offset ≤ bytes.length) (hdata : offset + data.length ≤ streamEnd) :
    WithinReach (CryptoReassembly.append bytes offset data) fragments := by
  refine ⟨?_, h.2⟩
  rw [CryptoReassembly.length_append data hoffset]
  exact max_le h.1 hdata

omit hwide in
/-- So do the fragments when one of them is taken out. -/
theorem WithinReach.erase {bytes : Bytes} {fragments : Table ℕ Bytes}
    (h : WithinReach bytes fragments) (offset : ℕ) :
    WithinReach bytes (fragments.erase offset) := by
  refine ⟨h.1, fun o d hd => ?_⟩
  rw [Table.lookup_erase] at hd
  split at hd
  · cases hd
  · exact h.2 o d hd

/-- Every round takes up a fragment. -/
theorem drain_eq {bytes : Bytes} {fragments : Table ℕ Bytes} {fuel : ℕ}
    (h : WithinReach bytes fragments) (hfuel : fragments.size < fuel) :
    drain m fuel bytes fragments = .ok (CryptoReassembly.drain bytes fragments) := by
  induction fuel generalizing bytes fragments with
  | zero => omega
  | succ fuel ih =>
    rw [drain, CryptoReassembly.drain]
    split
    next hfirst =>
      split
      next => rfl
      next hfirst' => cases hfirst.symm.trans hfirst'
    next offset fragment hfirst =>
      split
      next hfirst' => cases hfirst.symm.trans hfirst'
      next offset' fragment' hfirst' =>
        cases hfirst.symm.trans hfirst'
        obtain ⟨hlookup, -⟩ := CryptoReassembly.firstFragment_eq_some hfirst
        have hsize := Table.size_erase_of_lookup_some hlookup
        rw [lengthU64_eq h.1, ok_bind]
        split
        next hle =>
          show (expect (CryptoReassembly.firstFragment fragments) >>= _) = .ok
            (CryptoReassembly.drain (CryptoReassembly.append bytes offset fragment)
              (fragments.erase offset))
          rw [hfirst, expect, ok_bind]
          show (append m bytes offset fragment >>= _) = _
          rw [append_machine_eq hwide h.1 hle, ok_bind]
          exact ih ((h.append hle (h.2 _ _ hlookup)).erase offset) (by omega)
        next => rfl

/-- `insert` does not panic while all bytes are below the end of the stream. -/
theorem insert_eq {c : CryptoReassembly} {fuel : ℕ} (h : WithinReach c.bytes c.fragments)
    (hfuel : c.fragments.size < fuel) {offset : ℕ} {data : Bytes}
    (hdata : offset + data.length ≤ streamEnd) :
    insert m fuel c offset data = liftError (c.insert offset data) := by
  refine liftError_ite (fun _ => rfl) fun _ => ?_
  rw [lengthU64_eq h.1, ok_bind]
  refine liftError_ite (fun _ => ?_) fun hle => ?_
  · refine liftError_ite (fun _ => rfl) fun _ => ?_
    cases c.fragments.lookup offset with
    | none => rfl
    | some old => exact liftError_ite (fun _ => rfl) fun _ => rfl
  · rw [append_machine_eq hwide h.1 (not_lt.mp hle), ok_bind]
    exact drain_eq hwide (h.append (not_lt.mp hle) hdata) hfuel

end Reassembly

/-- `clienthello` never panics. -/
theorem clienthello_eq (c : CryptoReassembly) :
    clienthello m c = liftError c.clienthello := by
  have hm := m.width.two_pow_le_modulus
  refine liftError_ite (fun _ => rfl) fun hshort => ?_
  rw [index_eq (by omega) 0, ok_bind]
  refine liftError_ite (fun _ => rfl) fun _ => ?_
  have hlen := u24At_lt c.bytes 1
  rw [handshakeLen_eq (by omega), ok_bind, Target.add_eq (by omega), ok_bind]
  refine liftError_ite (fun _ => rfl) fun hbody => ?_
  rw [range_eq (Nat.zero_le _) (by omega)]
  rfl

/-! ## Reachable states -/

/-- A CRYPTO frame of a payload that fits in a datagram. -/
def IsFrame (f : ℕ × Bytes) : Prop :=
  ∃ payload frames, payload.length ≤ 65535 ∧
    SniRouter.readCryptoFrames payload = .ok frames ∧ f ∈ frames

/-- The states of a reassembly that a sequence of frames, accepted or refused, leads to. -/
def Reachable (c : CryptoReassembly) : Prop :=
  ∃ fs, (∀ f ∈ fs, IsFrame f) ∧ c = CryptoReassembly.empty.calls fs

/-- A CRYPTO frame ends below the end of the stream, since a varint has 62 bits. -/
theorem IsFrame.reach {f : ℕ × Bytes} (h : IsFrame f) : f.1 + f.2.length ≤ streamEnd := by
  obtain ⟨payload, frames, hpayload, hread, hf⟩ := h
  have hdata : f.2.length ≤ (frames.map fun f => f.2.length).sum :=
    List.single_le_sum (fun _ _ => Nat.zero_le _) _ (List.mem_map_of_mem hf)
  have hsum := readCryptoFrames_length hread
  -- the offset of a frame is a varint
  obtain ⟨encoded, -, rfl⟩ := readCryptoFramesFrom_reads (Nat.zero_le _) hread
  obtain ⟨frame, -, hcrypto⟩ := List.mem_filterMap.mp hf
  have hoffset : f.1 < 2 ^ 62 := by
    obtain ⟨frameType, body, htype⟩ := frame
    cases body with
    | crypto offset len data hlen =>
      cases hcrypto
      exact offset.value_lt
    | _ => cases hcrypto
  unfold streamEnd
  omega

/-- Moving fragments into the prefix keeps all bytes below the end of the stream. -/
theorem WithinReach.drain {bytes : Bytes} {fragments : Table ℕ Bytes}
    (h : WithinReach bytes fragments) :
    WithinReach (CryptoReassembly.drain bytes fragments).bytes
      (CryptoReassembly.drain bytes fragments).fragments := by
  fun_induction CryptoReassembly.drain bytes fragments with
  | case1 => exact h
  | case2 bytes fragments offset fragment hfirst hle _ ih =>
    obtain ⟨hlookup, -⟩ := CryptoReassembly.firstFragment_eq_some hfirst
    exact ih ((h.append hle (h.2 _ _ hlookup)).erase offset)
  | case3 => exact h

/-- One call of `insert` keeps all bytes below the end of the stream. -/
theorem WithinReach.call {c : CryptoReassembly} (h : WithinReach c.bytes c.fragments) {offset : ℕ}
    {data : Bytes} (hdata : offset + data.length ≤ streamEnd) :
    WithinReach (c.call offset data).1.bytes (c.call offset data).1.fragments := by
  rw [CryptoReassembly.call_eq]
  cases hins : c.insert offset data with
  | error e => exact h
  | ok c' =>
    cases CryptoReassembly.insert_cases hins with
    | empty => exact h
    | known => exact h
    | stored =>
      refine ⟨h.1, fun o d hd => ?_⟩
      rw [Table.lookup_insert] at hd
      split at hd
      next ho =>
        cases hd
        rw [ho]
        exact hdata
      next => exact h.2 o d hd
    | joined hle => exact (h.append hle hdata).drain

/-- By induction on the calls, all bytes are below the end of the stream. -/
theorem Reachable.withinReach {c : CryptoReassembly} (h : Reachable c) :
    WithinReach c.bytes c.fragments := by
  obtain ⟨fs, hfs, rfl⟩ := h
  refine runFrom_invariant (P := fun c : CryptoReassembly => WithinReach c.bytes c.fragments)
    (A := IsFrame) (fun c f hf hc => hc.call hf.reach) fs _ hfs
    ⟨Nat.zero_le _, fun _ _ h => nomatch h⟩

/-- At most 128 offsets are pending after any calls. -/
theorem Reachable.size_le {c : CryptoReassembly} (h : Reachable c) : c.fragments.size ≤ 128 := by
  obtain ⟨fs, -, rfl⟩ := h
  exact CryptoReassembly.calls_size_le (Nat.zero_le _) fs

/-- On a 64-bit machine, with or without overflow checks and with fuel for 65536 rounds of each
loop, every function of the parsing path computes what its mathematical version does, for every
datagram, every key and every reachable state: it ends, and it ends without a panic. -/
theorem pipeline_never_panics {cr : Crypto} (laws : RingLaws cr) (overflowChecks : Bool) {fuel : ℕ}
    (hfuel : 65536 ≤ fuel) :
    let m : Target := ⟨.bits64, overflowChecks⟩
    (∀ packet : Bytes, packet.length ≤ 65535 →
      parseLongPacketCids m packet = liftError (SniRouter.parseLongPacketCids packet) ∧
      parseInitialHeader m packet = liftError (SniRouter.parseInitialHeader packet) ∧
      (∀ header, parseInitialHeader m packet = .ok header →
        header.packetNumberOffset ≤ header.packetEnd ∧ header.packetEnd ≤ packet.length) ∧
      ∀ keyDcid, decryptInitialPacketWithDcid m cr packet keyDcid =
          liftError (SniRouter.decryptInitialPacketWithDcid cr packet keyDcid) ∧
        ∀ decrypted, decryptInitialPacketWithDcid m cr packet keyDcid = .ok decrypted →
          decrypted.payload.length ≤ 65535) ∧
    (∀ payload : Bytes, payload.length ≤ 65535 →
      readCryptoFrames m fuel payload = liftError (SniRouter.readCryptoFrames payload) ∧
      ∀ i, (∀ hasEcn, skipAckFrame m fuel payload i hasEcn =
          liftError (SniRouter.skipAckFrame payload i hasEcn)) ∧
        skipTransportCloseFrame m payload i =
          liftError (SniRouter.skipTransportCloseFrame payload i) ∧
        skipApplicationCloseFrame m payload i =
          liftError (SniRouter.skipApplicationCloseFrame payload i)) ∧
    (∀ c, Reachable c → clienthello m c = liftError c.clienthello ∧
      ∀ f, IsFrame f → insert m fuel c f.1 f.2 = liftError (c.insert f.1 f.2) ∧
        (f.1 ≤ c.bytes.length →
          append m c.bytes f.1 f.2 = .ok (CryptoReassembly.append c.bytes f.1 f.2))) ∧
    ∀ message, extractTlsSni m fuel message = liftError (SniRouter.extractTlsSni message) := by
  intro m
  have hwide : m.width = .bits64 := rfl
  refine ⟨fun packet hpacket => ?_, fun payload hpayload => ?_, fun c hc => ?_, fun message =>
    extractTlsSni_eq message hfuel⟩
  -- headers and decryption
  · have hheader := parseInitialHeader_eq hpacket hwide
    refine ⟨parseLongPacketCids_eq hpacket, hheader, fun header h => ?_, fun keyDcid => ?_⟩
    · exact (parseInitialHeader_offset (eq_ok_of_liftError (hheader.symm.trans h))).2
    · have hdecrypt := decryptInitialPacketWithDcid_eq laws hpacket hwide keyDcid
      refine ⟨hdecrypt, fun decrypted h => ?_⟩
      obtain ⟨-, _, _, _, ciphertext, hopen, hlen⟩ :=
        decryptInitialPacketWithDcid_ok (eq_ok_of_liftError (hdecrypt.symm.trans h))
      exact (laws.open_length _ _ _ _ _ hopen).trans (hlen.trans hpacket)
  -- frames: a payload has fewer bytes than there is fuel
  · refine ⟨readCryptoFrames_eq hpayload hwide (by omega), fun i => ⟨fun hasEcn => ?_, ?_, ?_⟩⟩
    · exact skipAckFrame_eq hpayload (by omega) i hasEcn
    · exact skipTransportCloseFrame_eq hpayload hwide i
    · exact skipApplicationCloseFrame_eq hpayload hwide i
  -- reassembly: there are fewer fragments than there is fuel
  · have hreach := hc.withinReach
    have hsize := hc.size_le
    refine ⟨clienthello_eq c, fun f hf => ⟨?_, fun hle => ?_⟩⟩
    · exact insert_eq hwide hreach (by omega) hf.reach
    · exact append_machine_eq hwide hreach.1 hle f.2

/-- The assumptions on the ciphers hold of the sample. -/
theorem helloCrypto_ringLaws : RingLaws helloCrypto where
  mask_length key sample mask h := by
    simp only [helloCrypto] at h
    split at h <;> cases h <;> rfl
  open_length key nonce associatedData ciphertext payload h := by
    simp only [helloCrypto] at h
    split at h
    next hinputs =>
      cases h
      rw [hinputs.2]
      decide
    next =>
      cases h
      rw [List.length_take]
      omega
  expand_length prk info len out h := by
    simp only [helloCrypto] at h
    split at h
    · split at h
      · cases h
        assumption
      · cases h
        exact List.length_replicate
    · cases h
      exact List.length_replicate

/-- The path from a packet to its frames on a build with overflow checks. -/
theorem pipeline_never_panics_hello :
    decryptInitialPacketWithDcid ⟨.bits64, true⟩ helloCrypto helloPacket none =
        .ok ⟨sampleCid, [], [0x06, 0x00, 0x04, 0x01, 0x00, 0x00, 0x00]⟩ ∧
      readCryptoFrames ⟨.bits64, true⟩ 65536 [0x06, 0x00, 0x04, 0x01, 0x00, 0x00, 0x00] =
        .ok [(0, [1, 0, 0, 0])] := by
  obtain ⟨hpacket, hpayload, -⟩ := pipeline_never_panics helloCrypto_ringLaws true (le_refl 65536)
  rw [((hpacket helloPacket (by decide)).2.2.2 none).1, (hpayload _ (by decide)).1]
  exact ⟨by decide +kernel, by decide +kernel⟩

end SniRouter.Checked
