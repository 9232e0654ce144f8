import Mathlib.Data.List.Basic
import Mathlib.Tactic

/-!
# Reference-counted values with copy on write

A heap of values that are shared through handles. A cell counts its handles and goes with the last
one. `makeMut` gives a handle nobody else holds: in place when the handle is the only one, on a copy
when it is not. `Counts` says that every cell counts the handles there are and that there is no
other cell; each operation keeps it, and none changes what another handle shows.
-/

/-- A heap of values of type `α`. A cell holds a value and the number of its handles. -/
structure ArcHeap (α : Type) where
  cell : ℕ → Option (α × ℕ)
  next : ℕ

/-- One handle to the cell `i`. -/
def oneHandle (i : ℕ) : ℕ → ℕ := fun j => if j = i then 1 else 0

namespace ArcHeap

variable {α : Type}

def empty : ArcHeap α := ⟨fun _ => none, 0⟩

def get (h : ArcHeap α) (i : ℕ) : Option α := (h.cell i).map Prod.fst

def set (h : ArcHeap α) (i : ℕ) (c : Option (α × ℕ)) : ArcHeap α :=
  { h with cell := fun j => if j = i then c else h.cell j }

/-- `Arc::new`. -/
def new (h : ArcHeap α) (a : α) : ℕ × ArcHeap α :=
  (h.next, { h.set h.next (some (a, 1)) with next := h.next + 1 })

/-- `Arc::clone`. -/
def clone (h : ArcHeap α) (i : ℕ) : ArcHeap α :=
  h.set i ((h.cell i).map fun (a, n) => (a, n + 1))

/-- Drops a handle. -/
def drop (h : ArcHeap α) (i : ℕ) : ArcHeap α :=
  match h.cell i with
  | some (a, n + 2) => h.set i (some (a, n + 1))
  | _ => h.set i none

/-- `Arc::make_mut`: the handle that takes the place of `i`, which is the only one to its
value. -/
def makeMut (h : ArcHeap α) (i : ℕ) : ℕ × ArcHeap α :=
  match h.cell i with
  | some (a, _ + 2) => (h.drop i).new a
  | _ => (i, h)

/-- Changes a value through the only handle to it. -/
def modify (h : ArcHeap α) (i : ℕ) (f : α → α) : ArcHeap α :=
  h.set i ((h.cell i).map fun (a, n) => (f a, n))

/-- The heap has one cell for every value that has handles, `handles i` of them. -/
structure Counts (h : ArcHeap α) (handles : ℕ → ℕ) : Prop where
  /-- A cell is there exactly while there are handles, and counts them. -/
  cell : ∀ i, (h.cell i).elim 0 Prod.snd = handles i
  live : ∀ i, (h.cell i).isSome = true → 0 < handles i
  fresh : ∀ i, h.next ≤ i → handles i = 0

variable {h : ArcHeap α} {handles rest : ℕ → ℕ} {i j : ℕ}

theorem get_set (h : ArcHeap α) (i j : ℕ) (c : Option (α × ℕ)) :
    (h.set i c).get j = if j = i then c.map Prod.fst else h.get j := by
  unfold set get
  dsimp only
  split <;> rfl

theorem empty_counts : Counts (empty : ArcHeap α) 0 := by
  refine ⟨fun _ => rfl, fun i hi => ?_, fun _ _ => rfl⟩
  have hnone : (none : Option (α × ℕ)).isSome = true := hi
  cases hnone

/-- What a handle shows. -/
theorem Counts.cell_eq (hc : Counts h handles) (hi : 0 < handles i) :
    ∃ a, h.cell i = some (a, handles i) ∧ h.get i = some a := by
  have hcell := hc.cell i
  unfold get
  cases hlook : h.cell i with
  | none =>
    rw [hlook] at hcell
    have hzero : 0 = handles i := hcell
    omega
  | some c =>
    rw [hlook] at hcell
    obtain ⟨a, n⟩ := c
    exact ⟨a, by rw [← hcell]; rfl, rfl⟩

/-- A value is there as long as it has handles. -/
theorem Counts.get_isSome_iff (hc : Counts h handles) : (h.get i).isSome = true ↔ 0 < handles i := by
  constructor
  · intro hi
    apply hc.live
    rwa [get, Option.isSome_map] at hi
  · intro hi
    obtain ⟨a, -, ha⟩ := hc.cell_eq hi
    rw [ha]
    rfl

theorem Counts.lt_next (hc : Counts h handles) (hi : 0 < handles i) : i < h.next := by
  by_contra hge
  have := hc.fresh i (by omega)
  omega

/-- Only the cell `i` and its handles change. -/
theorem Counts.set (hc : Counts h handles) {handles' : ℕ → ℕ} {c : Option (α × ℕ)}
    (hcell : c.elim 0 Prod.snd = handles' i) (hlive : c.isSome = true → 0 < handles' i)
    (hother : ∀ j, j ≠ i → handles' j = handles j) (hfresh : i < h.next) :
    Counts (h.set i c) handles' := by
  refine ⟨fun j => ?_, fun j hj => ?_, fun j hj => ?_⟩
  · unfold ArcHeap.set
    dsimp only
    split
    · rename_i hji
      rw [hji]
      exact hcell
    · rename_i hji
      rw [hother j hji]
      exact hc.cell j
  · unfold ArcHeap.set at hj
    dsimp only at hj
    split at hj
    · rename_i hji
      rw [hji]
      exact hlive hj
    · rename_i hji
      rw [hother j hji]
      exact hc.live j hj
  · have hlt : h.next ≤ j := hj
    rw [hother j (by omega)]
    exact hc.fresh j hlt

/-- A new value has one handle, and all others are as before. -/
theorem new_counts (hc : Counts h handles) (a : α) :
    Counts (h.new a).2 (handles + oneHandle (h.new a).1) ∧
      (h.new a).2.get (h.new a).1 = some a ∧
      ∀ j, 0 < handles j → (h.new a).2.get j = h.get j := by
  have hzero : handles h.next = 0 := hc.fresh _ (le_refl _)
  have hget : ∀ j, (h.new a).2.get j = if j = h.next then some a else h.get j :=
    fun j => get_set h h.next j _
  refine ⟨⟨fun j => ?_, fun j hj => ?_, fun j hj => ?_⟩, ?_, fun j hj => ?_⟩
  · show (if j = h.next then some (a, 1) else h.cell j).elim 0 Prod.snd =
      handles j + if j = h.next then 1 else 0
    split
    · rename_i heq
      rw [heq, hzero]
      rfl
    · exact hc.cell j
  · show 0 < handles j + if j = h.next then 1 else 0
    split
    · omega
    · rename_i hne
      have hj : (if j = h.next then some (a, 1) else h.cell j).isSome = true := hj
      rw [if_neg hne] at hj
      have := hc.live j hj
      omega
  · have hlt : h.next + 1 ≤ j := hj
    show handles j + (if j = h.next then 1 else 0) = 0
    rw [hc.fresh j (by omega), if_neg (by omega)]
  · rw [hget]
    exact if_pos rfl
  · rw [hget]
    have := hc.lt_next hj
    exact if_neg (by omega)

/-- Cloning adds a handle and changes no value. -/
theorem clone_counts (hc : Counts h handles) (hi : 0 < handles i) :
    Counts (h.clone i) (handles + oneHandle i) ∧ ∀ j, (h.clone i).get j = h.get j := by
  obtain ⟨a, hcell, hget⟩ := hc.cell_eq hi
  unfold clone
  rw [hcell]
  refine ⟨?_, fun j => ?_⟩
  · apply hc.set _ _ _ (hc.lt_next hi)
    · show handles i + 1 = handles i + if i = i then 1 else 0
      rw [if_pos rfl]
    · intro _
      show 0 < handles i + if i = i then 1 else 0
      omega
    · intro j hj
      show handles j + (if j = i then 1 else 0) = handles j
      rw [if_neg hj, Nat.add_zero]
  · rw [get_set]
    split
    · rename_i hji
      rw [hji, hget]
      rfl
    · rfl

/-- The heap when one of the handles is gone. -/
theorem Counts.release (hc : Counts h (rest + oneHandle i)) {a : α} {n : ℕ}
    (hcell : h.cell i = some (a, n)) :
    n = rest i + 1 ∧ ∀ j, j ≠ i → rest j = (rest + oneHandle i) j := by
  have hcount := hc.cell i
  rw [hcell] at hcount
  have hcount : n = rest i + if i = i then 1 else 0 := hcount
  rw [if_pos rfl] at hcount
  refine ⟨hcount, fun j hj => ?_⟩
  show rest j = rest j + if j = i then 1 else 0
  rw [if_neg hj, Nat.add_zero]

theorem Counts.held (hc : Counts h (rest + oneHandle i)) :
    ∃ a, h.cell i = some (a, rest i + 1) ∧ h.get i = some a := by
  have hi : (rest + oneHandle i) i = rest i + 1 := by
    show rest i + (if i = i then 1 else 0) = _
    rw [if_pos rfl]
  obtain ⟨a, hcell, hget⟩ := hc.cell_eq (by rw [hi]; omega)
  rw [hi] at hcell
  exact ⟨a, hcell, hget⟩

/-- Dropping a handle keeps every value that has another one. -/
theorem drop_counts (hc : Counts h (rest + oneHandle i)) :
    Counts (h.drop i) rest ∧ ∀ j, 0 < rest j → (h.drop i).get j = h.get j := by
  obtain ⟨a, hcell, hget⟩ := hc.held
  obtain ⟨-, hother⟩ := hc.release hcell
  have hlt : i < h.next := hc.lt_next (by
    show 0 < rest i + if i = i then 1 else 0
    rw [if_pos rfl]
    omega)
  unfold drop
  rw [hcell]
  cases hn : rest i with
  | zero =>
    refine ⟨hc.set (by rw [hn]; rfl) (fun hnone => by cases hnone) hother hlt, ?_⟩
    intro j hj
    rw [get_set, if_neg fun hji => ?_]
    rw [hji, hn] at hj
    exact lt_irrefl 0 hj
  | succ n =>
    refine ⟨hc.set (by rw [hn]; rfl) (fun _ => by omega) hother hlt, ?_⟩
    intro j hj
    rw [get_set]
    split
    · rename_i hji
      rw [hji, hget]
      rfl
    · rfl

/-- A value is changed in place for all its handles. -/
theorem modify_counts (hc : Counts h (rest + oneHandle i)) (f : α → α) :
    Counts (h.modify i f) (rest + oneHandle i) ∧ (h.modify i f).get i = (h.get i).map f ∧
      ∀ j, j ≠ i → (h.modify i f).get j = h.get j := by
  obtain ⟨a, hcell, hget⟩ := hc.held
  have hi : (rest + oneHandle i) i = rest i + 1 := by
    show rest i + (if i = i then 1 else 0) = _
    rw [if_pos rfl]
  have hlt : i < h.next := hc.lt_next (by rw [hi]; omega)
  unfold modify
  rw [hcell]
  refine ⟨hc.set hi.symm (fun _ => by rw [hi]; omega) (fun _ _ => rfl) hlt, ?_, fun j hj => ?_⟩
  · rw [get_set, if_pos rfl, hget]
    rfl
  · rw [get_set, if_neg hj]

/-- The new handle shows the value, and is the only one that does. -/
theorem makeMut_counts (hc : Counts h (rest + oneHandle i)) :
    Counts (h.makeMut i).2 (rest + oneHandle (h.makeMut i).1) ∧
      (h.makeMut i).2.get (h.makeMut i).1 = h.get i ∧ rest (h.makeMut i).1 = 0 ∧
      ∀ j, 0 < rest j → (h.makeMut i).2.get j = h.get j := by
  obtain ⟨a, hcell, hget⟩ := hc.held
  unfold makeMut
  rw [hcell]
  cases hn : rest i with
  | zero => exact ⟨hc, rfl, hn, fun j _ => rfl⟩
  | succ n =>
    -- the handle is not the only one
    obtain ⟨hdrop, hkept⟩ := drop_counts hc
    obtain ⟨hnew, hshows, hothers⟩ := new_counts hdrop a
    refine ⟨hnew, hshows.trans hget.symm, hdrop.fresh _ (le_refl _), fun j hj => ?_⟩
    exact (hothers j hj).trans (hkept j hj)

/-- Copy on write: the new handle shows the changed value, the others show what they did. -/
theorem makeMut_modify_counts (hc : Counts h (rest + oneHandle i)) (f : α → α) :
    Counts ((h.makeMut i).2.modify (h.makeMut i).1 f) (rest + oneHandle (h.makeMut i).1) ∧
      ((h.makeMut i).2.modify (h.makeMut i).1 f).get (h.makeMut i).1 = (h.get i).map f ∧
      ∀ j, 0 < rest j → ((h.makeMut i).2.modify (h.makeMut i).1 f).get j = h.get j := by
  obtain ⟨hmut, hshows, halone, hkept⟩ := makeMut_counts hc
  obtain ⟨hmodified, hchanged, hothers⟩ := modify_counts hmut f
  refine ⟨hmodified, hchanged.trans (congrArg (Option.map f) hshows), fun j hj => ?_⟩
  have hne : j ≠ (h.makeMut i).1 := by
    intro heq
    rw [heq, halone] at hj
    exact lt_irrefl 0 hj
  exact (hothers j hne).trans (hkept j hj)

end ArcHeap
