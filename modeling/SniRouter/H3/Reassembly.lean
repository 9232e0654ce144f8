import SniRouter.H3.Packet
import SniRouter.Lib.Run

/-!
# Reassembly of the CRYPTO stream

`CryptoReassembly` collects the CRYPTO frames of a handshake: `bytes` is the part of the
stream received without a gap, `fragments` the data beyond a gap, keyed by offset, the
longest piece per offset. `Reassembles` relates a state to the frames inserted so far: when
all of them are slices of one stream, no covered position is ever lost, so `bytes` is exactly
the covered prefix of that stream whatever the order of arrival.
-/

namespace SniRouter

/-- `MAX_CRYPTO_FRAGMENTS`. -/
def maxCryptoFragments : ℕ := 128

structure CryptoReassembly where
  bytes : Bytes
  fragments : Table ℕ Bytes

namespace CryptoReassembly

/-- `CryptoReassembly::default()`. -/
def empty : CryptoReassembly := ⟨[], ∅⟩

/-- The smallest key of an ordered map with its value (`first_key_value`). -/
def firstFragment (fragments : Table ℕ Bytes) : Option (ℕ × Bytes) := do
  let offset ← fragments.keys.min?
  let fragment ← fragments.lookup offset
  return (offset, fragment)

theorem firstFragment_eq_some {fragments : Table ℕ Bytes} {offset : ℕ} {fragment : Bytes}
    (h : firstFragment fragments = some (offset, fragment)) :
    fragments.lookup offset = some fragment ∧
      ∀ o d, fragments.lookup o = some d → offset ≤ o := by
  obtain ⟨o, ho, h⟩ := Option.bind_eq_some_iff.mp h
  obtain ⟨d, hd, h⟩ := Option.bind_eq_some_iff.mp h
  cases h
  refine ⟨hd, fun o' d' h' => ?_⟩
  have hmin := (List.min?_eq_some_iff.mp ho).2
  exact hmin o' (Table.mem_keys.mpr ⟨d', h'⟩)

theorem firstFragment_eq_none {fragments : Table ℕ Bytes} (h : firstFragment fragments = none)
    (o : ℕ) : fragments.lookup o = none := by
  have h := Option.bind_eq_none_iff.mp h
  cases hmin : fragments.keys.min? with
  | none =>
    rw [List.min?_eq_none_iff] at hmin
    cases hlook : fragments.lookup o with
    | none => rfl
    | some d =>
      have hmem := Table.mem_keys.mpr ⟨d, hlook⟩
      rw [hmin] at hmem
      cases hmem
  | some offset =>
    obtain ⟨d, hd⟩ := Table.mem_keys.mp (List.min?_eq_some_iff.mp hmin).1
    have := h offset hmin
    rw [hd] at this
    cases this

/-- `CryptoReassembly::append` for `offset ≤ bytes.length`: the part of `data` past the end
of `bytes`. -/
def append (bytes : Bytes) (offset : ℕ) (data : Bytes) : Bytes :=
  let skip := bytes.length - offset
  if skip ≤ data.length then bytes ++ data.drop skip else bytes

/-- What is appended is what a fragment has beyond the prefix. -/
theorem append_eq (bytes : Bytes) (offset : ℕ) (data : Bytes) :
    append bytes offset data = bytes ++ data.drop (bytes.length - offset) := by
  unfold append
  dsimp only
  split
  · rfl
  · rw [List.drop_eq_nil_of_le (by omega), List.append_nil]

theorem prefix_append (bytes : Bytes) (offset : ℕ) (data : Bytes) :
    bytes <+: append bytes offset data := by
  rw [append_eq]
  exact List.prefix_append ..

/-- The prefix ends where the fragment does, unless it was there already. -/
theorem length_append {bytes : Bytes} {offset : ℕ} (data : Bytes) (h : offset ≤ bytes.length) :
    (append bytes offset data).length = max bytes.length (offset + data.length) := by
  rw [append_eq, List.length_append, List.length_drop]
  omega

theorem length_append_le (bytes : Bytes) (offset : ℕ) (data : Bytes) :
    (append bytes offset data).length ≤ bytes.length + data.length := by
  rw [append_eq, List.length_append, List.length_drop]
  omega

/-- The loop of `insert` that takes up, lowest offset first, the fragments `bytes` has
reached. -/
def drain (bytes : Bytes) (fragments : Table ℕ Bytes) : CryptoReassembly :=
  match h : firstFragment fragments with
  | none => ⟨bytes, fragments⟩
  | some (offset, fragment) =>
    if offset ≤ bytes.length then
      have := Table.size_erase_of_lookup_some (firstFragment_eq_some h).1
      drain (append bytes offset fragment) (fragments.erase offset)
    else ⟨bytes, fragments⟩
termination_by fragments.size

def insert (c : CryptoReassembly) (offset : ℕ) (data : Bytes) : Except String CryptoReassembly :=
  if data.isEmpty then .ok c
  else if offset > c.bytes.length then
    if c.fragments.lookup offset = none ∧ c.fragments.size ≥ maxCryptoFragments then
      .error "too many pending CRYPTO fragments"
    else
      match c.fragments.lookup offset with
      | some old =>
        if old.length < data.length then .ok { c with fragments := c.fragments.insert offset data }
        else .ok c
      | none => .ok { c with fragments := c.fragments.insert offset data }
  else .ok (drain (append c.bytes offset data) c.fragments)

/-- The frames of one datagram, in order, up to the first that is refused. The flag says
whether all were taken. -/
def insertFrames (c : CryptoReassembly) : List (ℕ × Bytes) → CryptoReassembly × Bool
  | [] => (c, true)
  | (offset, data) :: frames =>
    match c.insert offset data with
    | .error _ => (c, false)
    | .ok c => c.insertFrames frames

/-- The complete ClientHello, once the stream holds it. -/
def clienthello (c : CryptoReassembly) : Except String (Option Bytes) :=
  if c.bytes.length < 4 then .ok none
  else if byteAt c.bytes 0 ≠ 1 then
    .error "first TLS handshake message in QUIC Initial is not a ClientHello"
  else
    let needed := 4 + u24At c.bytes 1
    if c.bytes.length < needed then .ok none
    else .ok (some (c.bytes.take needed))

/-- What an accepted piece does: nothing, because it is empty or a piece at least as long is at
its offset already; it is stored beyond a gap; or it joins the contiguous part. -/
inductive Inserted (c : CryptoReassembly) (offset : ℕ) (data : Bytes) :
    CryptoReassembly → Prop where
  | empty (hempty : data = []) : Inserted c offset data c
  | known {old : Bytes} (hold : c.fragments.lookup offset = some old)
      (hle : data.length ≤ old.length) : Inserted c offset data c
  | stored (hgap : c.bytes.length < offset)
      (hlonger : ∀ old, c.fragments.lookup offset = some old → old.length < data.length)
      (hroom : c.fragments.lookup offset = none → c.fragments.size < maxCryptoFragments) :
      Inserted c offset data { c with fragments := c.fragments.insert offset data }
  | joined (hle : offset ≤ c.bytes.length) :
      Inserted c offset data (drain (append c.bytes offset data) c.fragments)

/-- The ways in which a fragment can be inserted. -/
theorem insert_cases {c c' : CryptoReassembly} {offset : ℕ} {data : Bytes}
    (h : c.insert offset data = .ok c') : Inserted c offset data c' := by
  unfold insert at h
  split at h
  · rename_i hempty
    cases h
    exact .empty (List.isEmpty_iff.mp hempty)
  split at h
  · rename_i hgap
    split at h
    · cases h
    rename_i hfull
    have hroom : c.fragments.lookup offset = none → c.fragments.size < maxCryptoFragments :=
      fun hnone => not_le.mp fun hge => hfull ⟨hnone, hge⟩
    cases hold : c.fragments.lookup offset with
    | none =>
      rw [hold] at h
      cases h
      refine .stored hgap (fun old hold' => ?_) hroom
      cases hold.symm.trans hold'
    | some old =>
      simp only [hold] at h
      split at h
      · rename_i hlt
        cases h
        refine .stored hgap (fun old' hold' => ?_) hroom
        cases hold.symm.trans hold'
        exact hlt
      · rename_i hle
        cases h
        exact .known hold (not_lt.mp hle)
  · rename_i hle
    cases h
    exact .joined (not_lt.mp hle)

/-! ## Memory

The stream and the fragments together never hold more than what was inserted. -/

/-- The bytes held by a reassembly. -/
def held (c : CryptoReassembly) : ℕ :=
  c.bytes.length + c.fragments.total fun _ d => d.length

/-- Moving fragments into the prefix does not take more memory. -/
theorem held_drain (bytes : Bytes) (fragments : Table ℕ Bytes) :
    (drain bytes fragments).held ≤ bytes.length + fragments.total fun _ d => d.length := by
  fun_induction drain bytes fragments with
  | case1 => exact le_refl _
  | case2 bytes fragments offset fragment hfirst hle _ ih =>
    have hsum := Table.total_erase_add (fun (_ : ℕ) (d : Bytes) => d.length) fragments offset
    rw [(firstFragment_eq_some hfirst).1] at hsum
    have := length_append_le bytes offset fragment
    simp only [Option.elim_some] at hsum
    omega
  | case3 => exact le_refl _

theorem size_drain (bytes : Bytes) (fragments : Table ℕ Bytes) :
    (drain bytes fragments).fragments.size ≤ fragments.size := by
  fun_induction drain bytes fragments with
  | case1 => exact le_refl _
  | case2 bytes fragments offset fragment hfirst hle _ ih =>
    have := Table.size_erase_le fragments offset
    omega
  | case3 => exact le_refl _

/-- A fragment takes at most its own length of memory. -/
theorem insert_memory {c c' : CryptoReassembly} {offset : ℕ} {data : Bytes}
    (h : c.insert offset data = .ok c') (hsize : c.fragments.size ≤ maxCryptoFragments) :
    c'.held ≤ c.held + data.length ∧ c'.fragments.size ≤ maxCryptoFragments := by
  cases insert_cases h with
  | empty => exact ⟨Nat.le_add_right .., hsize⟩
  | known => exact ⟨Nat.le_add_right .., hsize⟩
  | stored hgap hlonger hroom =>
    have hsum := Table.total_erase_add (fun (_ : ℕ) (d : Bytes) => d.length) c.fragments offset
    refine ⟨?_, ?_⟩
    · -- a piece that is replaced is given up first
      simp only [held, Table.total_insert]
      omega
    · cases hold : c.fragments.lookup offset with
      | none =>
        rw [Table.size_insert_of_lookup_none _ hold]
        exact hroom hold
      | some old =>
        rw [Table.size_insert_of_lookup_some _ hold]
        exact hsize
  | joined hle =>
    refine ⟨?_, (size_drain _ _).trans hsize⟩
    have hdrain := held_drain (append c.bytes offset data) c.fragments
    have happend := length_append_le c.bytes offset data
    unfold held at hdrain ⊢
    omega

theorem insertFrames_memory {c c' : CryptoReassembly} {frames : List (ℕ × Bytes)}
    (h : c.insertFrames frames = (c', true)) (hsize : c.fragments.size ≤ maxCryptoFragments) :
    c'.held ≤ c.held + (frames.map fun f => f.2.length).sum ∧
      c'.fragments.size ≤ maxCryptoFragments := by
  induction frames generalizing c with
  | nil =>
    cases h
    exact ⟨by simp, hsize⟩
  | cons f frames ih =>
    obtain ⟨offset, data⟩ := f
    simp only [insertFrames] at h
    split at h
    · cases h
    · rename_i c₁ hins
      have h₁ := insert_memory hins hsize
      have h₂ := ih h h₁.2
      simp only [List.map_cons, List.sum_cons]
      omega

/-! ## The covered prefix -/

/-- Position `p` of the stream lies in one of the frames. -/
def Covers (frames : List (ℕ × Bytes)) (p : ℕ) : Prop :=
  ∃ f ∈ frames, f.1 ≤ p ∧ p < f.1 + f.2.length

instance (frames : List (ℕ × Bytes)) (p : ℕ) : Decidable (Covers frames p) :=
  inferInstanceAs (Decidable (∃ f ∈ frames, f.1 ≤ p ∧ p < f.1 + f.2.length))

theorem covers_append {fs gs : List (ℕ × Bytes)} {p : ℕ} :
    Covers (fs ++ gs) p ↔ Covers fs p ∨ Covers gs p := by
  simp only [Covers, List.mem_append, or_and_right, exists_or]

theorem covers_singleton {f : ℕ × Bytes} {p : ℕ} :
    Covers [f] p ↔ f.1 ≤ p ∧ p < f.1 + f.2.length := by
  simp [Covers]

/-- A frame is a slice of the stream `S` at its true offset. -/
def SliceOf (S : Bytes) (f : ℕ × Bytes) : Prop := f.2 <+: S.drop f.1

instance (S : Bytes) (f : ℕ × Bytes) : Decidable (SliceOf S f) :=
  inferInstanceAs (Decidable (f.2 <+: S.drop f.1))

/-- Position `p` is held, in the contiguous part or in a fragment. -/
def Holds (bytes : Bytes) (fragments : Table ℕ Bytes) (p : ℕ) : Prop :=
  p < bytes.length ∨ ∃ o d, fragments.lookup o = some d ∧ o ≤ p ∧ p < o + d.length

/-- Everything held is part of the stream `S`. -/
structure Within (S bytes : Bytes) (fragments : Table ℕ Bytes) : Prop where
  bytes_prefix : bytes <+: S
  fragment_slice : ∀ o d, fragments.lookup o = some d → SliceOf S (o, d)

/-- The state after inserting the slices `fs` of the stream `S`: what is held is part of `S`
and is exactly what the slices cover, and every fragment lies beyond a gap. -/
structure Reassembles (S : Bytes) (fs : List (ℕ × Bytes)) (c : CryptoReassembly) : Prop where
  within : Within S c.bytes c.fragments
  covers_iff : ∀ p, Covers fs p ↔ Holds c.bytes c.fragments p
  gap : ∀ o d, c.fragments.lookup o = some d → c.bytes.length < o

/-- A slice of a stream that starts inside its prefix makes the prefix longer. -/
theorem append_prefix_of {S bytes data : Bytes} {offset : ℕ} (hbytes : bytes <+: S)
    (hdata : SliceOf S (offset, data)) (hle : offset ≤ bytes.length) :
    append bytes offset data <+: S := by
  obtain ⟨t, rfl⟩ := hbytes
  have hdrop : data.drop (bytes.length - offset) <+:
      ((bytes ++ t).drop offset).drop (bytes.length - offset) := List.IsPrefix.drop hdata _
  rw [List.drop_drop, show offset + (bytes.length - offset) = bytes.length by omega,
    List.drop_left] at hdrop
  rw [append_eq]
  exact (List.prefix_append_right_inj bytes).mpr hdrop

/-- A fragment that has been reached moves to the contiguous part, and nothing is lost. -/
theorem holds_append_erase {bytes fragment : Bytes} {fragments : Table ℕ Bytes} {offset : ℕ}
    (hlook : fragments.lookup offset = some fragment) (hle : offset ≤ bytes.length) (p : ℕ) :
    Holds (append bytes offset fragment) (fragments.erase offset) p ↔ Holds bytes fragments p := by
  simp only [Holds, length_append fragment hle, Table.lookup_erase]
  constructor
  · rintro (h | ⟨o, d, h, hp⟩)
    · -- behind `bytes` it is the fragment that holds `p`
      by_cases hp : p < bytes.length
      · exact Or.inl hp
      · exact Or.inr ⟨offset, fragment, hlook, by omega, by omega⟩
    · split at h
      · cases h
      · exact Or.inr ⟨o, d, h, hp⟩
  · rintro (h | ⟨o, d, h, hp⟩)
    · exact Or.inl (by omega)
    · by_cases ho : o = offset
      · subst ho
        cases hlook.symm.trans h
        exact Or.inl (by omega)
      · exact Or.inr ⟨o, d, by rw [if_neg ho, h], hp⟩

/-- Draining the fragments `bytes` has reached keeps what is held and leaves a gap before the
rest. -/
theorem drain_spec {S : Bytes} (bytes : Bytes) (fragments : Table ℕ Bytes)
    (hw : Within S bytes fragments) :
    Within S (drain bytes fragments).bytes (drain bytes fragments).fragments ∧
      (∀ p, Holds (drain bytes fragments).bytes (drain bytes fragments).fragments p ↔
        Holds bytes fragments p) ∧
      ∀ o d, (drain bytes fragments).fragments.lookup o = some d →
        (drain bytes fragments).bytes.length < o := by
  fun_induction drain bytes fragments with
  | case1 bytes fragments hnone =>
    refine ⟨hw, fun _ => Iff.rfl, fun o d h => ?_⟩
    rw [firstFragment_eq_none hnone o] at h
    cases h
  | case2 bytes fragments offset fragment hfirst hle _ ih =>
    obtain ⟨hlook, hmin⟩ := firstFragment_eq_some hfirst
    have hw' : Within S (append bytes offset fragment) (fragments.erase offset) := by
      refine ⟨append_prefix_of hw.bytes_prefix (hw.fragment_slice _ _ hlook) hle, ?_⟩
      intro o d h
      rw [Table.lookup_erase] at h
      split at h
      · cases h
      · exact hw.fragment_slice o d h
    obtain ⟨hwithin, hholds, hgap⟩ := ih hw'
    exact ⟨hwithin, fun p => (hholds p).trans (holds_append_erase hlook hle p), hgap⟩
  | case3 bytes fragments offset fragment hfirst hle =>
    refine ⟨hw, fun _ => Iff.rfl, fun o d h => ?_⟩
    have := (firstFragment_eq_some hfirst).2 o d h
    exact lt_of_lt_of_le (not_le.mp hle) this

theorem reassembles_empty (S : Bytes) : Reassembles S [] empty := by
  refine ⟨⟨List.nil_prefix, ?_⟩, ?_, ?_⟩ <;> simp [empty, Covers, Holds]

/-- A fragment that is at least as long as the one it replaces adds its own range. -/
theorem holds_insert {bytes data : Bytes} {fragments : Table ℕ Bytes} {offset : ℕ}
    (hold : ∀ old, fragments.lookup offset = some old → old.length ≤ data.length) (p : ℕ) :
    Holds bytes (fragments.insert offset data) p ↔
      Holds bytes fragments p ∨ offset ≤ p ∧ p < offset + data.length := by
  simp only [Holds, Table.lookup_insert]
  constructor
  · rintro (h | ⟨o, d, h, hp⟩)
    · exact Or.inl (Or.inl h)
    · split at h
      · rename_i ho
        cases h
        exact Or.inr (ho ▸ hp)
      · exact Or.inl (Or.inr ⟨o, d, h, hp⟩)
  · rintro ((h | ⟨o, d, h, hp⟩) | hp)
    · exact Or.inl h
    · by_cases ho : o = offset
      · subst ho
        have := hold d h
        exact Or.inr ⟨o, data, by simp, hp.1, by omega⟩
      · exact Or.inr ⟨o, d, by simp [ho, h], hp⟩
    · exact Or.inr ⟨offset, data, by simp, hp⟩

/-- Storing a slice beyond the contiguous part keeps the state inside the stream. -/
theorem within_insert {S bytes data : Bytes} {fragments : Table ℕ Bytes} {offset : ℕ}
    (hw : Within S bytes fragments) (hdata : SliceOf S (offset, data)) :
    Within S bytes (fragments.insert offset data) := by
  refine ⟨hw.bytes_prefix, fun o d ho => ?_⟩
  rw [Table.lookup_insert] at ho
  split at ho
  · rename_i heq
    cases ho
    rw [heq]
    exact hdata
  · exact hw.fragment_slice o d ho

/-- Joining a slice to the contiguous part adds its range: there is no gap before it. -/
theorem holds_append {bytes data : Bytes} {fragments : Table ℕ Bytes} {offset : ℕ}
    (hle : offset ≤ bytes.length) (p : ℕ) :
    Holds (append bytes offset data) fragments p ↔
      Holds bytes fragments p ∨ offset ≤ p ∧ p < offset + data.length := by
  simp only [Holds, length_append data hle]
  constructor
  · rintro (h | h)
    · by_cases hp : p < bytes.length
      · exact Or.inl (Or.inl hp)
      · exact Or.inr ⟨by omega, by omega⟩
    · exact Or.inl (Or.inr h)
  · rintro ((h | h) | hp)
    · exact Or.inl (by omega)
    · exact Or.inr h
    · exact Or.inl (by omega)

/-- Inserting one more slice of the stream. -/
theorem Reassembles.insert {S : Bytes} {fs : List (ℕ × Bytes)} {c c' : CryptoReassembly}
    {offset : ℕ} {data : Bytes} (hc : Reassembles S fs c) (hdata : SliceOf S (offset, data))
    (h : c.insert offset data = .ok c') : Reassembles S (fs ++ [(offset, data)]) c' := by
  have hcov : ∀ p, Covers (fs ++ [(offset, data)]) p ↔
      Holds c.bytes c.fragments p ∨ offset ≤ p ∧ p < offset + data.length := by
    intro p
    rw [covers_append, covers_singleton, hc.covers_iff]
  cases insert_cases h with
  | empty hempty =>
    refine ⟨hc.within, fun p => (hcov p).trans ?_, hc.gap⟩
    rw [hempty, List.length_nil]
    exact or_iff_left (by omega)
  | @known old hold hle =>
    -- the piece already there covers the new one
    refine ⟨hc.within, fun p => (hcov p).trans (or_iff_left_of_imp fun hp => ?_), hc.gap⟩
    exact Or.inr ⟨offset, old, hold, hp.1, by omega⟩
  | stored hgap hlonger hroom =>
    refine ⟨within_insert hc.within hdata, fun p => (hcov p).trans ?_, fun o d ho => ?_⟩
    · exact (holds_insert (fun old hold => (hlonger old hold).le) p).symm
    · rw [Table.lookup_insert] at ho
      split at ho
      · rename_i heq
        rw [heq]
        exact hgap
      · exact hc.gap o d ho
  | joined hle =>
    obtain ⟨hwithin, hholds, hgap⟩ := drain_spec (append c.bytes offset data) c.fragments
      ⟨append_prefix_of hc.within.bytes_prefix hdata hle, hc.within.fragment_slice⟩
    refine ⟨hwithin, fun p => (hcov p).trans ?_, hgap⟩
    rw [hholds, holds_append hle]

/-- Slices of a stream are reassembled to a prefix of it. -/
theorem Reassembles.insertFrames {S : Bytes} {fs frames : List (ℕ × Bytes)}
    {c c' : CryptoReassembly} (hc : Reassembles S fs c) (hframes : ∀ f ∈ frames, SliceOf S f)
    (h : c.insertFrames frames = (c', true)) : Reassembles S (fs ++ frames) c' := by
  induction frames generalizing c fs with
  | nil =>
    cases h
    simpa using hc
  | cons f frames ih =>
    obtain ⟨offset, data⟩ := f
    simp only [CryptoReassembly.insertFrames] at h
    split at h
    · cases h
    · rename_i c₁ hins
      have hc₁ := hc.insert (hframes _ List.mem_cons_self) hins
      have := ih hc₁ (fun f hf => hframes f (List.mem_cons_of_mem _ hf)) h
      rwa [List.append_assoc] at this

/-- **The covered prefix.** `bytes` ends at the first position no slice covers. -/
theorem Reassembles.length_iff {S : Bytes} {fs : List (ℕ × Bytes)} {c : CryptoReassembly}
    (hc : Reassembles S fs c) (n : ℕ) :
    n ≤ c.bytes.length ↔ ∀ p < n, Covers fs p := by
  constructor
  · intro hn p hp
    exact (hc.covers_iff p).mpr (Or.inl (by omega))
  · intro hcov
    by_contra hn
    -- the position just behind `bytes` would be covered by a fragment that starts beyond it
    rcases (hc.covers_iff c.bytes.length).mp (hcov _ (by omega)) with h | ⟨o, d, hd, hp⟩
    · omega
    · have := hc.gap o d hd
      omega

/-! ## The ClientHello -/

/-- A ClientHello handshake message: type 1 and a 24-bit length that matches. -/
structure IsClientHello (ch : Bytes) : Prop where
  header : 4 ≤ ch.length
  msgType : byteAt ch 0 = 1
  length : ch.length = 4 + u24At ch 1

/-- The length of a ClientHello is known from its first four bytes. -/
theorem IsClientHello.needed_of_prefix {ch l : Bytes} (hch : IsClientHello ch)
    (hl : l <+: ch ∨ ch <+: l) (h4 : 4 ≤ l.length) :
    byteAt l 0 = 1 ∧ 4 + u24At l 1 = ch.length := by
  have := hch.header
  rcases hl with hl | hl
  · rw [byteAt_prefix_eq hl (by omega), u24At_prefix_eq hl (by omega)]
    exact ⟨hch.msgType, hch.length.symm⟩
  · rw [← byteAt_prefix_eq hl (by omega), ← u24At_prefix_eq hl (by omega)]
    exact ⟨hch.msgType, hch.length.symm⟩

/-- A stream starts with at most one ClientHello. -/
theorem IsClientHello.eq_of_prefix {ch ch' S : Bytes} (hch : IsClientHello ch)
    (hch' : IsClientHello ch') (h : ch <+: S) (h' : ch' <+: S) : ch = ch' := by
  have hlen : ch.length = ch'.length := by
    have h4 := hch.header
    have h4' := hch'.header
    rw [hch.length, hch'.length, u24At_prefix_eq h (by omega), u24At_prefix_eq h' (by omega)]
  rw [List.prefix_iff_eq_take.mp h, List.prefix_iff_eq_take.mp h', hlen]

/-- What `clienthello` returns is a ClientHello message. -/
theorem isClientHello_of_clienthello {c : CryptoReassembly} {ch : Bytes}
    (h : c.clienthello = .ok (some ch)) : IsClientHello ch ∧ ch <+: c.bytes := by
  unfold clienthello at h
  split at h
  · cases h
  split at h
  · cases h
  rename_i htype
  dsimp only at h
  split at h
  · cases h
  · rename_i hneeded
    cases h
    have hpre : c.bytes.take (4 + u24At c.bytes 1) <+: c.bytes := List.take_prefix ..
    have hlen : (c.bytes.take (4 + u24At c.bytes 1)).length = 4 + u24At c.bytes 1 :=
      List.length_take_of_le (by omega)
    refine ⟨⟨by omega, ?_, ?_⟩, hpre⟩
    · rw [byteAt_prefix_eq hpre (by omega)]
      exact not_not.mp htype
    · rw [u24At_prefix_eq hpre (by omega), hlen]

/-- While the stream is a proper prefix of a ClientHello there is nothing to return. -/
theorem clienthello_of_proper_prefix {c : CryptoReassembly} {ch : Bytes}
    (hch : IsClientHello ch) (hpre : c.bytes <+: ch) (hlen : c.bytes.length < ch.length) :
    c.clienthello = .ok none := by
  unfold clienthello
  split
  · rfl
  rename_i h4
  obtain ⟨htype, hneeded⟩ := hch.needed_of_prefix (Or.inl hpre) (by omega)
  rw [if_neg (by simp [htype])]
  dsimp only
  rw [if_pos (by omega)]

/-- Once the stream starts with a whole ClientHello, that message is returned. -/
theorem clienthello_of_prefix {c : CryptoReassembly} {ch : Bytes} (hch : IsClientHello ch)
    (hpre : ch <+: c.bytes) : c.clienthello = .ok (some ch) := by
  have h4 := hch.header
  have hlen := hpre.length_le
  obtain ⟨htype, hneeded⟩ := hch.needed_of_prefix (Or.inr hpre) (by omega)
  unfold clienthello
  rw [if_neg (by omega), if_neg (by simp [htype])]
  dsimp only
  rw [if_neg (by omega), hneeded, ← List.prefix_iff_eq_take.mp hpre]

/-- **Order-insensitive ClientHello.** For slices of a stream that starts with the
ClientHello `ch`, the message is returned exactly when the slices cover it. -/
theorem Reassembles.clienthello_complete {S ch : Bytes} {fs : List (ℕ × Bytes)}
    {c : CryptoReassembly} (hc : Reassembles S fs c) (hch : IsClientHello ch) (hS : ch <+: S)
    (hcov : ∀ p < ch.length, Covers fs p) : c.clienthello = .ok (some ch) := by
  have hlen := (hc.length_iff ch.length).mpr hcov
  exact clienthello_of_prefix hch (List.prefix_of_prefix_length_le hS hc.within.bytes_prefix hlen)

/-- A ClientHello with a gap is not taken for complete. -/
theorem Reassembles.clienthello_incomplete {S ch : Bytes} {fs : List (ℕ × Bytes)}
    {c : CryptoReassembly} (hc : Reassembles S fs c) (hch : IsClientHello ch) (hS : ch <+: S)
    (hcov : ¬∀ p < ch.length, Covers fs p) : c.clienthello = .ok none := by
  have hlen : c.bytes.length < ch.length := by
    by_contra h
    exact hcov ((hc.length_iff ch.length).mp (not_lt.mp h))
  exact clienthello_of_proper_prefix hch
    (List.prefix_of_prefix_length_le hc.within.bytes_prefix hS hlen.le) hlen

/-! ## Sequences of calls

The frames of a handshake arrive in any order and may contradict each other. `call` is
`insert` as a method on `&mut self`: it says which state is left behind an error too. -/

/-- A call of `insert`: the state it leaves and what it returns. -/
def call (c : CryptoReassembly) (offset : ℕ) (data : Bytes) :
    CryptoReassembly × Except String Unit :=
  if data.isEmpty then (c, .ok ())
  else if offset > c.bytes.length then
    if c.fragments.lookup offset = none ∧ c.fragments.size ≥ maxCryptoFragments then
      (c, .error "too many pending CRYPTO fragments")
    -- `is_none_or`
    else if (c.fragments.lookup offset).all fun old => old.length < data.length then
      ({ c with fragments := c.fragments.insert offset data }, .ok ())
    else (c, .ok ())
  else (drain (append c.bytes offset data) c.fragments, .ok ())

theorem call_eq (c : CryptoReassembly) (offset : ℕ) (data : Bytes) :
    c.call offset data = match c.insert offset data with
      | .ok c' => (c', .ok ())
      | .error e => (c, .error e) := by
  unfold call insert
  split
  · rfl
  split
  · split
    · rfl
    cases c.fragments.lookup offset with
    | none => rfl
    | some old =>
      simp only [Option.all_some, decide_eq_true_eq]
      split <;> rfl
  · rfl

theorem call_of_ok {c c' : CryptoReassembly} {offset : ℕ} {data : Bytes}
    (h : c.insert offset data = .ok c') : c.call offset data = (c', .ok ()) := by
  rw [call_eq, h]

theorem insert_eq_ok_of_call {c : CryptoReassembly} {offset : ℕ} {data : Bytes}
    (h : (c.call offset data).2 = .ok ()) :
    c.insert offset data = .ok (c.call offset data).1 := by
  rw [call_eq] at h ⊢
  cases hins : c.insert offset data with
  | ok c' => rfl
  | error e =>
    rw [hins] at h
    cases h

/-- A refused fragment is not stored, nor is anything else changed. -/
theorem call_of_error {c : CryptoReassembly} {offset : ℕ} {data : Bytes} {e : String}
    (h : (c.call offset data).2 = .error e) : (c.call offset data).1 = c := by
  rw [call_eq] at h ⊢
  cases hins : c.insert offset data with
  | ok c' =>
    rw [hins] at h
    cases h
  | error e' => rfl

/-- The state after the calls `fs`, some of which may have returned an error. -/
def calls (c : CryptoReassembly) (fs : List (ℕ × Bytes)) : CryptoReassembly :=
  runFrom (fun c f => (c.call f.1 f.2).1) c fs

/-- None of the calls `fs` returns an error. -/
def Accepts : CryptoReassembly → List (ℕ × Bytes) → Prop
  | _, [] => True
  | c, f :: fs => (c.call f.1 f.2).2 = .ok () ∧ Accepts (c.call f.1 f.2).1 fs

/-- Accepted slices of one stream are put together. -/
theorem Reassembles.calls {S : Bytes} {fs gs : List (ℕ × Bytes)} {c : CryptoReassembly}
    (hc : Reassembles S fs c) (hgs : ∀ f ∈ gs, SliceOf S f) (hok : c.Accepts gs) :
    Reassembles S (fs ++ gs) (c.calls gs) := by
  induction gs generalizing c fs with
  | nil =>
    rw [List.append_nil]
    exact hc
  | cons f gs ih =>
    have hc' := hc.insert (hgs f List.mem_cons_self) (insert_eq_ok_of_call hok.1)
    have := ih hc' (fun g hg => hgs g (List.mem_cons_of_mem _ hg)) hok.2
    rwa [List.append_assoc] at this

/-- The prefix only grows when fragments are moved into it. -/
theorem bytes_isPrefix_drain (bytes : Bytes) (fragments : Table ℕ Bytes) :
    bytes <+: (drain bytes fragments).bytes := by
  fun_induction drain bytes fragments with
  | case1 => exact List.prefix_rfl
  | case2 bytes fragments offset fragment hfirst hle _ ih =>
    exact (prefix_append bytes offset fragment).trans ih
  | case3 => exact List.prefix_rfl

/-- The prefix only grows. -/
theorem bytes_isPrefix_call (c : CryptoReassembly) (offset : ℕ) (data : Bytes) :
    c.bytes <+: (c.call offset data).1.bytes := by
  unfold call
  split
  · exact List.prefix_rfl
  split
  · split
    · exact List.prefix_rfl
    split <;> exact List.prefix_rfl
  · exact (prefix_append ..).trans (bytes_isPrefix_drain ..)

/-- What was accepted once is never rewritten, whatever else is inserted. -/
theorem bytes_isPrefix_calls (c : CryptoReassembly) (fs : List (ℕ × Bytes)) :
    c.bytes <+: (c.calls fs).bytes :=
  runFrom_invariant (P := fun c' : CryptoReassembly => c.bytes <+: c'.bytes) (A := fun _ => True)
    (fun c' f _ h => h.trans (bytes_isPrefix_call c' f.1 f.2)) fs c (fun _ _ => trivial)
    List.prefix_rfl

/-- There are never more fragments than allowed. -/
theorem calls_size_le {c : CryptoReassembly} (hc : c.fragments.size ≤ maxCryptoFragments)
    (fs : List (ℕ × Bytes)) : (c.calls fs).fragments.size ≤ maxCryptoFragments := by
  refine runFrom_invariant
    (P := fun c : CryptoReassembly => c.fragments.size ≤ maxCryptoFragments)
    (A := fun _ => True) (fun c f _ h => ?_) fs c (fun _ _ => trivial) hc
  cases hins : c.insert f.1 f.2 with
  | ok c' =>
    rw [call_of_ok hins]
    exact (insert_memory hins h).2
  | error e =>
    rw [call_eq, hins]
    exact h

/-- With at most `MAX_CRYPTO_FRAGMENTS` pending offsets, exactly one more is refused. -/
theorem call_error_iff {c : CryptoReassembly} (hc : c.fragments.size ≤ maxCryptoFragments)
    (offset : ℕ) (data : Bytes) :
    (∃ e, (c.call offset data).2 = .error e) ↔ data ≠ [] ∧ c.bytes.length < offset ∧
      c.fragments.lookup offset = none ∧ c.fragments.size = maxCryptoFragments := by
  unfold call
  split
  · rename_i hempty
    simp [List.isEmpty_iff.mp hempty]
  rename_i hempty
  have hne : data ≠ [] := fun h => hempty (by simp [h])
  split
  · rename_i hgt
    split
    · rename_i hfull
      exact ⟨fun _ => ⟨hne, hgt, hfull.1, le_antisymm hc hfull.2⟩, fun _ => ⟨_, rfl⟩⟩
    · rename_i hroom
      have hiff : ¬(data ≠ [] ∧ c.bytes.length < offset ∧ c.fragments.lookup offset = none ∧
          c.fragments.size = maxCryptoFragments) :=
        fun h => hroom ⟨h.2.2.1, h.2.2.2.ge⟩
      split <;> simp [hiff]
  · rename_i hle
    simp [hle]

/-- A complete ClientHello is not changed by later calls. -/
theorem clienthello_calls {c : CryptoReassembly} {ch : Bytes}
    (h : c.clienthello = .ok (some ch)) (fs : List (ℕ × Bytes)) :
    (c.calls fs).clienthello = .ok (some ch) := by
  obtain ⟨hch, hpre⟩ := isClientHello_of_clienthello h
  exact clienthello_of_prefix hch (hpre.trans (bytes_isPrefix_calls c fs))

/-- **Exact reassembly.** Slices of a stream `S`, inserted in any order without an error,
leave exactly the prefix of `S` they cover, with the rest beyond a gap. Arbitrary calls never
rewrite what was accepted, and a call fails, without any effect, exactly when it would add one
pending offset too many. -/
theorem calls_exact :
    (∀ (S : Bytes) (fs : List (ℕ × Bytes)), (∀ f ∈ fs, SliceOf S f) → empty.Accepts fs →
      (∃ n, (empty.calls fs).bytes = S.take n ∧ n ≤ S.length ∧
        ∀ m, m ≤ n ↔ ∀ p < m, Covers fs p) ∧
      (∀ o d, (empty.calls fs).fragments.lookup o = some d →
        (empty.calls fs).bytes.length < o) ∧
      ∀ gs, gs.Perm fs → empty.Accepts gs → (empty.calls gs).bytes = (empty.calls fs).bytes) ∧
    ∀ (fs : List (ℕ × Bytes)),
      (∀ gs, (empty.calls fs).bytes <+: ((empty.calls fs).calls gs).bytes ∧
        ∀ ch, (empty.calls fs).clienthello = .ok (some ch) →
          ((empty.calls fs).calls gs).clienthello = .ok (some ch)) ∧
      ∀ offset data,
        (∀ e, ((empty.calls fs).call offset data).2 = .error e →
          ((empty.calls fs).call offset data).1 = empty.calls fs) ∧
        ((∃ e, ((empty.calls fs).call offset data).2 = .error e) ↔
          data ≠ [] ∧ (empty.calls fs).bytes.length < offset ∧
            (empty.calls fs).fragments.lookup offset = none ∧
            (empty.calls fs).fragments.size = maxCryptoFragments) := by
  refine ⟨fun S fs hfs hok => ?_, fun fs => ⟨fun gs => ?_, fun offset data => ?_⟩⟩
  · have hc : Reassembles S fs (empty.calls fs) := (reassembles_empty S).calls hfs hok
    have htake := List.prefix_iff_eq_take.mp hc.within.bytes_prefix
    refine ⟨⟨_, htake, hc.within.bytes_prefix.length_le, hc.length_iff⟩, hc.gap, ?_⟩
    intro gs hperm hok'
    have hgs : ∀ f ∈ gs, SliceOf S f := fun f hf => hfs f (hperm.mem_iff.mp hf)
    have hc' : Reassembles S gs (empty.calls gs) := (reassembles_empty S).calls hgs hok'
    -- a permutation covers the same positions, so both prefixes have the same length
    have hcovers : ∀ p, Covers gs p ↔ Covers fs p := by
      intro p
      simp only [Covers, hperm.mem_iff]
    have hlen : (empty.calls gs).bytes.length = (empty.calls fs).bytes.length := by
      refine le_antisymm ((hc.length_iff _).mpr fun p hp => ?_)
        ((hc'.length_iff _).mpr fun p hp => ?_)
      · exact (hcovers p).mp ((hc'.length_iff _).mp (le_refl _) p hp)
      · exact (hcovers p).mpr ((hc.length_iff _).mp (le_refl _) p hp)
    rw [htake, List.prefix_iff_eq_take.mp hc'.within.bytes_prefix, hlen]
  · exact ⟨bytes_isPrefix_calls _ gs, fun ch hch => clienthello_calls hch gs⟩
  · exact ⟨fun e he => call_of_error he,
      call_error_iff (calls_size_le (Nat.zero_le _) fs) offset data⟩

/-- Three slices of a stream, the first of which arrives behind a gap. -/
theorem calls_exact_gap :
    (empty.calls [(4, [5, 6]), (0, [1, 2]), (1, [2, 3])]).bytes = [1, 2, 3] ∧
    (∃ n, (empty.calls [(4, [5, 6]), (0, [1, 2]), (1, [2, 3])]).bytes =
        [1, 2, 3, 4, 5, 6].take n ∧ n ≤ 6 ∧
      ∀ m, m ≤ n ↔ ∀ p < m, Covers [(4, [5, 6]), (0, [1, 2]), (1, [2, 3])] p) ∧
    (empty.calls [(1, [2, 3]), (4, [5, 6]), (0, [1, 2])]).bytes = [1, 2, 3] := by
  have hbytes : (empty.calls [(4, [5, 6]), (0, [1, 2]), (1, [2, 3])]).bytes = [1, 2, 3] := by
    decide +kernel
  obtain ⟨hcovered, -, hperm⟩ := calls_exact.1 [1, 2, 3, 4, 5, 6]
    [(4, [5, 6]), (0, [1, 2]), (1, [2, 3])] (by decide)
    ⟨by decide +kernel, by decide +kernel, by decide +kernel, trivial⟩
  refine ⟨hbytes, hcovered, (hperm _ (by decide) ?_).trans hbytes⟩
  exact ⟨by decide +kernel, by decide +kernel, by decide +kernel, trivial⟩

end CryptoReassembly

end SniRouter
