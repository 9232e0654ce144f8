import SniRouter.H3.CheckedPacket

/-!
# Length checks and the width of a `usize`

Four places check a length that was read by `buf.len() < i + len`, with an addition that can
overflow: the token of an Initial header, the data of a CRYPTO frame and the reasons of the two
close frames. On a 64-bit machine no sum of a cursor and a varint overflows. On a 32-bit machine
it does from `2 ^ 32` on, and there the check lets through what it should refuse, or panics
(`lengthChecks_exact_iff`).
-/

namespace SniRouter.Checked

open Exec

/-- The check agrees with mathematics at the cursor `i`, and what it lets through lies in the
buffer from the cursor on. -/
structure LengthCheckExact (m : Target) (buf : Bytes) (i len : ℕ) : Prop where
  check : m.exceeds buf.length i len = .ok (decide (buf.length < i + len))
  forward : m.exceeds buf.length i len = .ok false →
    ∃ stop, m.add i len = .ok stop ∧ i ≤ stop ∧ stop ≤ buf.length

variable {m : Target} {buf : Bytes} {i len : ℕ}

/-- A check whose sum fits is exact. -/
theorem lengthCheckExact_of_lt (h : i + len < m.width.modulus) : LengthCheckExact m buf i len where
  check := Target.exceeds_eq h
  forward hpass := by
    rw [Target.exceeds_eq h] at hpass
    have hle : buf.length < i + len ↔ False := by simpa using hpass
    exact ⟨i + len, Target.add_eq h, Nat.le_add_right _ _, not_lt.mp hle.mp⟩

/-- A varint that fits in a `usize`, added to a cursor, overflows on a 32-bit machine only. -/
theorem add_lt_modulus_iff (hi : i ≤ 65535) (hlen : len < 2 ^ 62) :
    i + len < m.width.modulus ↔ (m.width = .bits32 → i + len < 2 ^ 32) := by
  cases hw : m.width with
  | bits32 => exact ⟨fun h _ => h, fun h => h rfl⟩
  | bits64 =>
    have hmodulus : UsizeWidth.bits64.modulus = 2 ^ 64 := rfl
    rw [hmodulus]
    exact ⟨fun _ h => (nomatch h), fun _ => by omega⟩

section Overflow

variable (hbuf : buf.length ≤ 65535) (hi : i ≤ buf.length) (hlen : len < m.width.modulus)
  (hover : m.width.modulus ≤ i + len)

include hbuf hi hlen hover

/-- Where the sum overflows, the check panics, or passes and the cursor moves backwards. -/
theorem exceeds_of_overflow :
    (m.exceeds buf.length i len = .error .panic ∧ m.add i len = .error .panic) ∨
      (m.exceeds buf.length i len = .ok false ∧ ∃ stop, m.add i len = .ok stop ∧ stop < i) := by
  have hm := m.width.two_pow_le_modulus
  obtain hadd | hadd := Target.add_of_overflow (show i < _ by omega) hlen hover
  · left
    rw [Target.exceeds, hadd]
    exact ⟨rfl, rfl⟩
  · right
    refine ⟨?_, _, hadd, by omega⟩
    rw [Target.exceeds, hadd]
    have hpass : ¬buf.length < i + len - m.width.modulus := by omega
    show Except.ok (decide _) = _
    rw [decide_eq_false hpass]

/-- A check whose sum overflows is not exact, as it panics or passes. -/
theorem not_lengthCheckExact_of_overflow : ¬LengthCheckExact m buf i len := by
  have hm := m.width.two_pow_le_modulus
  intro h
  have hcheck := h.check
  rw [decide_eq_true (show buf.length < i + len by omega)] at hcheck
  obtain ⟨hpanic, -⟩ | ⟨hpass, -⟩ := exceeds_of_overflow hbuf hi hlen hover
  · cases hcheck.symm.trans hpanic
  · cases hcheck.symm.trans hpass

end Overflow

/-! ## The four places -/

section Places

variable {i j len : ℕ} (hbuf : buf.length ≤ 65535)

include hbuf

/-- A check is exact if and only if its sum fits. -/
theorem lengthCheckExact_iff (hi : i ≤ buf.length) (hlen : len < m.width.modulus) :
    LengthCheckExact m buf i len ↔ i + len < m.width.modulus := by
  refine ⟨fun h => ?_, lengthCheckExact_of_lt⟩
  by_contra hover
  exact not_lengthCheckExact_of_overflow hbuf hi hlen (not_lt.mp hover) h

/-- The check of a vector: a token or a reason phrase. -/
theorem skipVector_exact_iff (tooLarge truncated : String)
    (h : SniRouter.readVarint buf i = .ok (len, j)) (hlen : len < m.width.modulus) :
    skipVector m tooLarge truncated buf i = liftError (exactSkip truncated buf i) ↔
      j + len < m.width.modulus := by
  have hm := m.width.two_pow_le_modulus
  have hj := readVarint_bounds h
  constructor
  · intro hsame
    by_contra hover
    have hexact : exactSkip truncated buf i = .error truncated := by
      rw [exactSkip, h, except_ok_bind]
      exact if_pos (show buf.length < j + len by omega)
    rw [hexact, skipVector, readVarint_eq hbuf, h, liftError_ok, ok_bind] at hsame
    simp only [Target.tryFromU64_eq hlen, orBail, ok_bind] at hsame
    obtain ⟨hcheck, hadd⟩ | ⟨hcheck, stop, hadd, -⟩ :=
      exceeds_of_overflow hbuf hj.2 hlen (not_lt.mp hover)
    · rw [hcheck] at hsame
      cases hsame
    · rw [hcheck, hadd] at hsame
      cases hsame
  · intro hsum
    refine skipVector_eq hbuf tooLarge truncated fun len' j' h' => ?_
    cases h.symm.trans h'
    exact hsum

/-- The check of a CRYPTO frame. -/
theorem readCryptoFrame_exact_iff {offset i₁ : ℕ}
    (h₁ : SniRouter.readVarint buf i = .ok (offset, i₁))
    (h₂ : SniRouter.readVarint buf i₁ = .ok (len, j)) (hlen : len < m.width.modulus) :
    readCryptoFrame m buf i = liftError (exactCryptoFrame buf i) ↔ j + len < m.width.modulus := by
  have hm := m.width.two_pow_le_modulus
  have hj := readVarint_bounds h₂
  constructor
  · intro hsame
    by_contra hover
    have hexact : exactCryptoFrame buf i = .error "truncated CRYPTO frame" := by
      rw [exactCryptoFrame, h₁, except_ok_bind]
      show (SniRouter.readVarint buf i₁ >>= _) = _
      rw [h₂, except_ok_bind]
      exact if_pos (show buf.length < j + len by omega)
    rw [hexact, readCryptoFrame, readVarint_eq hbuf, h₁, liftError_ok, ok_bind] at hsame
    simp only [readVarint_eq hbuf, h₂, liftError_ok, Target.tryFromU64_eq hlen, orBail,
      ok_bind] at hsame
    obtain ⟨hcheck, hadd⟩ | ⟨hcheck, stop, hadd, hback⟩ :=
      exceeds_of_overflow hbuf hj.2 hlen (not_lt.mp hover)
    · rw [hcheck] at hsame
      cases hsame
    · -- the slice would end before it starts
      have hrange : range buf j stop = .error .panic := if_neg fun h => by omega
      simp only [hcheck, hadd, ok_bind, hrange] at hsame
      cases hsame
  · intro hsum
    refine readCryptoFrame_eq hbuf fun offset' i₁' len' j' h₁' h₂' => ?_
    cases h₁.symm.trans h₁'
    cases h₂.symm.trans h₂'
    exact hsum

theorem skipApplicationCloseFrame_exact_iff {errorCode i₁ : ℕ}
    (h₁ : SniRouter.readVarint buf i = .ok (errorCode, i₁))
    (h₂ : SniRouter.readVarint buf i₁ = .ok (len, j)) (hlen : len < m.width.modulus) :
    skipApplicationCloseFrame m buf i =
        liftError (SniRouter.skipApplicationCloseFrame buf i) ↔ j + len < m.width.modulus := by
  rw [skipApplicationCloseFrame, SniRouter.skipApplicationCloseFrame, readVarint_eq hbuf, h₁,
    liftError_ok, ok_bind, except_ok_bind]
  exact skipVector_exact_iff hbuf _ _ h₂ hlen

theorem skipTransportCloseFrame_exact_iff {errorCode i₁ frameType i₂ : ℕ}
    (h₁ : SniRouter.readVarint buf i = .ok (errorCode, i₁))
    (h₂ : SniRouter.readVarint buf i₁ = .ok (frameType, i₂))
    (h₃ : SniRouter.readVarint buf i₂ = .ok (len, j)) (hlen : len < m.width.modulus) :
    skipTransportCloseFrame m buf i =
        liftError (SniRouter.skipTransportCloseFrame buf i) ↔ j + len < m.width.modulus := by
  rw [skipTransportCloseFrame, SniRouter.skipTransportCloseFrame, readVarint_eq hbuf, h₁,
    liftError_ok, ok_bind, except_ok_bind]
  exact skipApplicationCloseFrame_exact_iff hbuf h₂ h₃ hlen

end Places

theorem lt_modulus_of_tryFromU64 (h : m.tryFromU64 len = some len) : len < m.width.modulus := by
  unfold Target.tryFromU64 at h
  split at h
  · assumption
  · cases h

/-- For every buffer, cursor and length that fits in a `usize`: the check is exact, and each of
the four places does what mathematics says, if and only if the machine has 64 bits or the sum of
the cursor and the length is less than `2 ^ 32`. -/
theorem lengthChecks_exact_iff (m : Target) (buf : Bytes) (hbuf : buf.length ≤ 65535) (i : ℕ) :
    (∀ len, i ≤ buf.length → len < 2 ^ 62 → m.tryFromU64 len = some len →
      (LengthCheckExact m buf i len ↔ (m.width = .bits32 → i + len < 2 ^ 32))) ∧
    (∀ len j, SniRouter.readVarint buf i = .ok (len, j) → m.tryFromU64 len = some len →
      (skipToken m buf i = liftError (exactSkip "truncated QUIC Initial token" buf i) ↔
        (m.width = .bits32 → j + len < 2 ^ 32))) ∧
    (∀ offset i₁ len j, SniRouter.readVarint buf i = .ok (offset, i₁) →
      SniRouter.readVarint buf i₁ = .ok (len, j) → m.tryFromU64 len = some len →
      (readCryptoFrame m buf i = liftError (exactCryptoFrame buf i) ↔
        (m.width = .bits32 → j + len < 2 ^ 32))) ∧
    (∀ errorCode i₁ len j, SniRouter.readVarint buf i = .ok (errorCode, i₁) →
      SniRouter.readVarint buf i₁ = .ok (len, j) → m.tryFromU64 len = some len →
      (skipApplicationCloseFrame m buf i =
          liftError (SniRouter.skipApplicationCloseFrame buf i) ↔
        (m.width = .bits32 → j + len < 2 ^ 32))) ∧
    (∀ errorCode i₁ frameType i₂ len j, SniRouter.readVarint buf i = .ok (errorCode, i₁) →
      SniRouter.readVarint buf i₁ = .ok (frameType, i₂) →
      SniRouter.readVarint buf i₂ = .ok (len, j) → m.tryFromU64 len = some len →
      (skipTransportCloseFrame m buf i = liftError (SniRouter.skipTransportCloseFrame buf i) ↔
        (m.width = .bits32 → j + len < 2 ^ 32))) := by
  have hread : ∀ {k len j}, SniRouter.readVarint buf k = .ok (len, j) →
      (j + len < m.width.modulus ↔ (m.width = .bits32 → j + len < 2 ^ 32)) := by
    intro k len j h
    exact add_lt_modulus_iff ((readVarint_bounds h).2.trans hbuf) (readVarint_value_lt h)
  refine ⟨?_, ?_, ?_, ?_, ?_⟩
  · intro len hi hvarint hlen
    rw [lengthCheckExact_iff hbuf hi (lt_modulus_of_tryFromU64 hlen)]
    exact add_lt_modulus_iff (hi.trans hbuf) hvarint
  · intro len j h hlen
    exact (skipVector_exact_iff hbuf _ _ h (lt_modulus_of_tryFromU64 hlen)).trans (hread h)
  · intro offset i₁ len j h₁ h₂ hlen
    exact (readCryptoFrame_exact_iff hbuf h₁ h₂ (lt_modulus_of_tryFromU64 hlen)).trans (hread h₂)
  · intro errorCode i₁ len j h₁ h₂ hlen
    exact (skipApplicationCloseFrame_exact_iff hbuf h₁ h₂ (lt_modulus_of_tryFromU64 hlen)).trans
      (hread h₂)
  · intro errorCode i₁ frameType i₂ len j h₁ h₂ h₃ hlen
    exact (skipTransportCloseFrame_exact_iff hbuf h₁ h₂ h₃ (lt_modulus_of_tryFromU64 hlen)).trans
      (hread h₃)

/-- A close frame with a reason of two bytes, on a 32-bit machine. -/
theorem lengthChecks_exact_iff_close :
    skipApplicationCloseFrame ⟨.bits32, false⟩ [0x1d, 0x00, 0x02, 0x61, 0x62] 1 = .ok 5 := by
  obtain ⟨-, -, -, hclose, -⟩ :=
    lengthChecks_exact_iff ⟨.bits32, false⟩ [0x1d, 0x00, 0x02, 0x61, 0x62] (by decide) 1
  rw [(hclose 0 2 2 3 (by decide) (by decide) (by decide)).mpr fun _ => by decide]
  decide

/-- On a 32-bit machine without overflow checks: a CRYPTO frame of 10 bytes that announces
`2 ^ 32 - 1` bytes of data passes the check, and the slice that follows panics; a close frame
that announces `2 ^ 32 - 10` bytes passes it, and the cursor is back where the frame starts. -/
theorem lengthCheck_wraps :
    let m : Target := ⟨.bits32, false⟩
    let crypto : Bytes := [0x06, 0x00, 0xc0, 0x00, 0x00, 0x00, 0xff, 0xff, 0xff, 0xff]
    let close : Bytes := [0x1d, 0x00, 0xc0, 0x00, 0x00, 0x00, 0xff, 0xff, 0xff, 0xf6]
    SniRouter.readVarint crypto 2 = .ok (2 ^ 32 - 1, 10) ∧
      m.tryFromU64 (2 ^ 32 - 1) = some (2 ^ 32 - 1) ∧
      m.exceeds crypto.length 10 (2 ^ 32 - 1) = .ok false ∧ crypto.length < 10 + (2 ^ 32 - 1) ∧
      ¬LengthCheckExact m crypto 10 (2 ^ 32 - 1) ∧
      readCryptoFrames m 16 crypto = .error .panic ∧
      skipApplicationCloseFrame m close 1 = .ok 0 := by
  intro m crypto close
  have hpass : m.exceeds crypto.length 10 (2 ^ 32 - 1) = .ok false := by decide
  refine ⟨by decide, by decide, hpass, by decide, fun h => ?_, by decide, by decide⟩
  exact absurd (h.check.symm.trans hpass) (by decide)

end SniRouter.Checked
