import Mathlib.Logic.Relation
import Mathlib.Tactic

/-!
# Ledgers of numbered resources

A ledger hands out ids from a counter and keeps a value for each id that is in use. `Grows R`
is what a well-behaved system does to it: an id in use keeps its resource, whose value
changes along `R` only, ids leave, and new resources get ids the counter has not reached
before. Ids are then never reused: two states that both know an id below the first counter
know the same resource.
-/

/-- The next id and the resources in use. -/
structure Ledger (V : Type) where
  next : ℕ
  get : ℕ → Option V

namespace Ledger

variable {V : Type} {R : V → V → Prop} {L L' L'' : Ledger V}

/-- A later state of a ledger whose resources change along `R`. -/
structure Grows (R : V → V → Prop) (L L' : Ledger V) : Prop where
  next_le : L.next ≤ L'.next
  origin : ∀ k v', L'.get k = some v' → (∃ v, L.get k = some v ∧ R v v') ∨ L.next ≤ k

theorem Grows.refl (hR : ∀ v, R v v) (L : Ledger V) : Grows R L L :=
  ⟨le_refl _, fun _ v hv => Or.inl ⟨v, hv, hR v⟩⟩

theorem Grows.trans (hR : ∀ u v w, R u v → R v w → R u w) (h : Grows R L L')
    (h' : Grows R L' L'') : Grows R L L'' := by
  refine ⟨h.next_le.trans h'.next_le, fun k w hw => ?_⟩
  rcases h'.origin k w hw with ⟨v, hv, hvw⟩ | hk
  · rcases h.origin k v hv with ⟨u, hu, huv⟩ | hk
    · exact Or.inl ⟨u, hu, hR u v w huv hvw⟩
    · exact Or.inr hk
  · exact Or.inr (h.next_le.trans hk)

/-- An id that was handed out earlier names the same resource, if it is still in use. -/
theorem Grows.of_lt (h : Grows R L L') {k : ℕ} {v' : V} (hk : k < L.next)
    (hv' : L'.get k = some v') : ∃ v, L.get k = some v ∧ R v v' := by
  rcases h.origin k v' hv' with h | h
  · exact h
  · omega

/-- A resource that left does not come back. -/
theorem Grows.get_eq_none (h : Grows R L L') {k : ℕ} (hk : k < L.next) (hnone : L.get k = none) :
    L'.get k = none := by
  cases hv' : L'.get k with
  | none => rfl
  | some v' =>
    obtain ⟨v, hv, -⟩ := h.of_lt hk hv'
    rw [hnone] at hv
    cases hv

end Ledger
