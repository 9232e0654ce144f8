import Mathlib.Data.List.Basic
import Mathlib.Tactic

/-!
# Reading a buffer through a cursor

A reader that walks over a buffer with an offset reads a piece `enc` when it moves the offset
from the start of `enc` to its end. `Reads buf i enc j` says that `enc` stands in `buf` from `i`
to `j`. Pieces compose (`reads_append`), a piece is determined by its ends (`Reads.eq_slice`), and
a whole buffer is read from `0` to its length (`reads_whole`), so a grammar that is stated piece by
piece can be compared with an encoding that is one append.
-/

section Cursor

variable {α : Type} {buf buf' enc enc' : List α} {i j k n : ℕ}

/-- The piece `enc` of `buf` starts at `i` and ends at `j`. -/
def Reads (buf : List α) (i : ℕ) (enc : List α) (j : ℕ) : Prop :=
  i ≤ buf.length ∧ j = i + enc.length ∧ enc <+: buf.drop i

theorem Reads.stop_eq (h : Reads buf i enc j) : j = i + enc.length := h.2.1

theorem Reads.start_le (h : Reads buf i enc j) : i ≤ j := by
  have := h.stop_eq
  omega

theorem Reads.stop_le (h : Reads buf i enc j) : j ≤ buf.length := by
  have hlen := h.2.2.length_le
  rw [List.length_drop] at hlen
  have := h.1
  have := h.stop_eq
  omega

theorem reads_nil (hi : i ≤ buf.length) : Reads buf i [] i :=
  ⟨hi, rfl, List.nil_prefix⟩

/-- A piece is the part of the buffer between its ends. -/
theorem Reads.eq_slice (h : Reads buf i enc j) : enc = (buf.take j).drop i := by
  obtain ⟨_, rfl, hpre⟩ := h
  rw [List.drop_take, Nat.add_sub_cancel_left]
  exact List.prefix_iff_eq_take.mp hpre

theorem reads_slice (hij : i ≤ j) (hj : j ≤ buf.length) :
    Reads buf i ((buf.take j).drop i) j := by
  refine ⟨by omega, ?_, ?_⟩
  · rw [List.length_drop, List.length_take]
    omega
  · rw [List.drop_take]
    exact List.take_prefix ..

/-- Two encodings that follow each other are read as one. -/
theorem Reads.append (h : Reads buf i enc j) (h' : Reads buf j enc' k) :
    Reads buf i (enc ++ enc') k := by
  obtain ⟨hi, rfl, t, ht⟩ := h
  obtain ⟨_, rfl, hpre'⟩ := h'
  refine ⟨hi, ?_, ?_⟩
  · rw [List.length_append]
    omega
  · rw [← List.drop_drop, ← ht, List.drop_left] at hpre'
    rw [← ht]
    exact (List.prefix_append_right_inj enc).mpr hpre'

/-- The range between two offsets, when it starts with a piece. -/
theorem Reads.slice_eq_append (h : Reads buf i enc k) (hkj : k ≤ j) (hj : j ≤ buf.length) :
    (buf.take j).drop i = enc ++ (buf.take j).drop k :=
  (h.append (reads_slice hkj hj)).eq_slice.symm

/-- Reading two pieces one after the other is reading their concatenation. -/
theorem reads_append :
    Reads buf i (enc ++ enc') k ↔
      Reads buf i enc (i + enc.length) ∧ Reads buf (i + enc.length) enc' k := by
  constructor
  · intro h
    have hstop := h.stop_le
    obtain ⟨hi, rfl, hpre⟩ := h
    rw [List.length_append] at hstop ⊢
    obtain ⟨t, ht⟩ := hpre
    refine ⟨⟨hi, rfl, ?_⟩, by omega, by omega, ?_⟩
    · rw [← ht, List.append_assoc]
      exact List.prefix_append ..
    · rw [← List.drop_drop, ← ht, List.append_assoc, List.drop_left]
      exact List.prefix_append ..
  · intro h
    exact h.1.append h.2

theorem reads_cons {a : α} :
    Reads buf i (a :: enc) k ↔ Reads buf i [a] (i + 1) ∧ Reads buf (i + 1) enc k := by
  have happ : Reads buf i ([a] ++ enc) k ↔ _ := reads_append
  simpa using happ

/-- The one element at the cursor. -/
theorem reads_singleton {a : α} : Reads buf i [a] j ↔ buf[i]? = some a ∧ j = i + 1 := by
  constructor
  · intro h
    obtain ⟨hi, rfl, t, ht⟩ := h
    refine ⟨?_, rfl⟩
    have : (buf.drop i)[0]? = some a := by simp [← ht]
    simpa using this
  · intro h
    obtain ⟨ha, rfl⟩ := h
    have hi : i < buf.length := (List.getElem?_eq_some_iff.mp ha).1
    refine ⟨hi.le, rfl, buf.drop (i + 1), ?_⟩
    rw [List.drop_eq_getElem_cons hi]
    simp [(List.getElem?_eq_some_iff.mp ha).2]

/-- The whole buffer is the only piece between its ends. -/
theorem reads_whole : Reads buf 0 enc buf.length ↔ enc = buf := by
  constructor
  · intro h
    simpa using h.eq_slice
  · intro h
    subst h
    exact ⟨Nat.zero_le _, by simp, by simp⟩

/-- What stands between two other pieces is read between their ends. -/
theorem reads_middle (before enc after : List α) :
    Reads (before ++ enc ++ after) before.length enc (before.length + enc.length) := by
  refine ⟨by simp, rfl, after, ?_⟩
  rw [List.append_assoc, List.drop_left]

/-- A piece of the start of a buffer is a piece of the buffer. -/
theorem Reads.mono (h : Reads buf i enc j) (hpre : buf <+: buf') : Reads buf' i enc j := by
  obtain ⟨t, rfl⟩ := hpre
  obtain ⟨hi, hj, s, hs⟩ := h
  refine ⟨by rw [List.length_append]; omega, hj, s ++ t, ?_⟩
  rw [List.drop_append_of_le_length hi, ← hs, List.append_assoc]

end Cursor
