import Mathlib.Algebra.BigOperators.Group.List.Basic
import Mathlib.Data.List.AList
import Mathlib.Data.List.Dedup
import Mathlib.Tactic

/-!
# Finite tables and sets

A hash map is an association list with distinct keys (`AList`), a hash set a list
without repetitions. Mathlib has the lookup laws of `AList`; what a resource table needs
on top of them is collected here:

* `Table.retain`, the sub-table of the entries a predicate keeps;
* `Table.total`, a sum over the entries with values in any commutative monoid. Counting
  entries, adding up buffer sizes and collecting the buffered contents into a multiset are
  the same function at three monoids, so the laws of `insert`, `erase` and `retain` are
  proved once;
* `HashSet`, which carries the absence of repetitions as a field.
-/

/-- A finite map from `K` to `V`. -/
def Table (K V : Type) : Type := AList (fun _ : K => V)

namespace Table

variable {K V M : Type} [AddCommMonoid M]

instance : EmptyCollection (Table K V) := ⟨(∅ : AList (fun _ : K => V))⟩

/-- The entries, in no particular order. -/
def toList (m : Table K V) : List (K × V) := (AList.entries m).map fun e => (e.1, e.2)

/-- The keys, in no particular order. -/
def keys (m : Table K V) : List K := m.toList.map Prod.fst

/-- The values, in no particular order. -/
def values (m : Table K V) : List V := m.toList.map Prod.snd

variable [DecidableEq K]

/-- The value stored under `k` (`HashMap::get`). -/
def lookup (m : Table K V) (k : K) : Option V := AList.lookup k m

/-- The table with `v` stored under `k`. -/
def insert (m : Table K V) (k : K) (v : V) : Table K V := AList.insert k v m

/-- The table without `k`. -/
def erase (m : Table K V) (k : K) : Table K V := AList.erase k m

/-! ## Lookups -/

@[simp] theorem lookup_empty (k : K) : (∅ : Table K V).lookup k = none := rfl

/-- An inserted value is found under its key, and all others are as before. -/
theorem lookup_insert (m : Table K V) (k k' : K) (v : V) :
    (m.insert k v).lookup k' = if k' = k then some v else m.lookup k' := by
  by_cases h : k' = k
  · subst h
    rw [if_pos rfl]
    exact AList.lookup_insert m
  · rw [if_neg h]
    exact AList.lookup_insert_ne h

/-- An erased key is not found, and all others are as before. -/
theorem lookup_erase (m : Table K V) (k k' : K) :
    (m.erase k).lookup k' = if k' = k then none else m.lookup k' := by
  by_cases h : k' = k
  · subst h
    rw [if_pos rfl]
    exact AList.lookup_erase k' m
  · rw [if_neg h]
    exact AList.lookup_erase_ne h

@[simp] theorem lookup_insert_self (m : Table K V) (k : K) (v : V) :
    (m.insert k v).lookup k = some v := by
  simp [lookup_insert]

@[simp] theorem lookup_erase_self (m : Table K V) (k : K) : (m.erase k).lookup k = none := by
  simp [lookup_erase]

theorem erase_insert_self (m : Table K V) (k : K) (v : V) :
    (m.insert k v).erase k = m.erase k := by
  apply AList.ext
  exact List.kerase_cons_eq (s := ⟨k, v⟩) (l := List.kerase k (AList.entries m)) rfl

/-- A key is listed with the value that is found under it. -/
theorem mem_toList {m : Table K V} {k : K} {v : V} :
    (k, v) ∈ m.toList ↔ m.lookup k = some v := by
  have h : v ∈ AList.lookup k m ↔ Sigma.mk k v ∈ AList.entries m := AList.mem_lookup_iff
  rw [toList, List.mem_map]
  constructor
  · rintro ⟨⟨k', v'⟩, hmem, heq⟩
    cases heq
    exact h.mpr hmem
  · intro hlook
    exact ⟨⟨k, v⟩, h.mp hlook, rfl⟩

theorem mem_keys {m : Table K V} {k : K} : k ∈ m.keys ↔ ∃ v, m.lookup k = some v := by
  simp only [keys, List.mem_map, Prod.exists, exists_and_right, exists_eq_right, mem_toList]

/-! ## Keeping a part of a table -/

/-- The entries that `p` accepts (`HashMap::retain`). -/
def retain (p : K → V → Bool) (m : Table K V) : Table K V :=
  (⟨(AList.entries m).filter fun e => p e.1 e.2, m.nodupKeys.sublist List.filter_sublist⟩ :
    AList (fun _ : K => V))

omit [DecidableEq K] in
/-- Retaining entries filters them and keeps their order. -/
theorem toList_retain (p : K → V → Bool) (m : Table K V) :
    (m.retain p).toList = m.toList.filter fun e => p e.1 e.2 := by
  simp only [toList, retain, List.filter_map]
  rfl

/-- The retained entries are those that meet the condition. -/
theorem lookup_retain_eq_some {p : K → V → Bool} {m : Table K V} {k : K} {v : V} :
    (m.retain p).lookup k = some v ↔ m.lookup k = some v ∧ p k v = true := by
  rw [← mem_toList, ← mem_toList, toList_retain, List.mem_filter]

/-! ## Sums over the entries -/

omit [DecidableEq K] in
/-- The sum of `f key value` over the entries. -/
def total (f : K → V → M) (m : Table K V) : M := (m.toList.map fun e => f e.1 e.2).sum

omit [DecidableEq K] in
@[simp] theorem total_empty (f : K → V → M) : total f (∅ : Table K V) = 0 := rfl

theorem total_congr {f g : K → V → M} {m : Table K V}
    (h : ∀ k v, m.lookup k = some v → f k v = g k v) : total f m = total g m := by
  unfold total
  congr 1
  exact List.map_congr_left fun e he => h e.1 e.2 (mem_toList.mp he)

/-- Taking a key out of a table takes its summand out of the total. -/
theorem total_erase_add (f : K → V → M) (m : Table K V) (k : K) :
    total f (m.erase k) + (m.lookup k).elim 0 (f k) = total f m := by
  obtain ⟨l, hl⟩ := m
  show ((l.kerase k).map _ |>.map _).sum + (l.dlookup k).elim 0 (f k) = (l.map _ |>.map _).sum
  induction l with
  | nil => simp
  | cons e l ih =>
    rw [List.nodupKeys_cons] at hl
    by_cases he : k = e.1
    · subst he
      have hlook : List.dlookup e.1 (e :: l) = some e.2 := List.dlookup_cons_eq ..
      rw [List.kerase_cons_eq rfl, hlook]
      simp [add_comm]
    · rw [List.kerase_cons_ne he, List.dlookup_cons_ne _ _ he]
      simp only [List.map_cons, List.sum_cons, add_assoc, ih hl.2]

/-- Inserting a key replaces its summand. -/
theorem total_insert (f : K → V → M) (m : Table K V) (k : K) (v : V) :
    total f (m.insert k v) = total f (m.erase k) + f k v := by
  rw [add_comm]
  rfl

/-- A new entry is added to the total. -/
theorem total_insert_of_lookup_none (f : K → V → M) {m : Table K V} {k : K} (v : V)
    (h : m.lookup k = none) : total f (m.insert k v) = total f m + f k v := by
  have := total_erase_add f m k
  rw [h] at this
  rw [total_insert, ← this]
  simp

/-- A summand of a natural-number total is at most the total. -/
theorem le_total {f : K → V → ℕ} {m : Table K V} {k : K} {v : V} (h : m.lookup k = some v) :
    f k v ≤ total f m := by
  have := total_erase_add f m k
  rw [h] at this
  simp only [Option.elim_some] at this
  omega

omit [DecidableEq K] in
/-- The kept and the removed part of a table make up its total. -/
theorem total_retain_add (f : K → V → M) (p : K → V → Bool) (m : Table K V) :
    total f (m.retain p) +
      ((m.toList.filter fun e => !p e.1 e.2).map fun e => f e.1 e.2).sum = total f m := by
  simp only [total, toList_retain]
  induction m.toList with
  | nil => simp
  | cons e l ih =>
    rw [List.map_cons, List.sum_cons, ← ih]
    by_cases h : p e.1 e.2 = true
    · simp [h, add_assoc]
    · simp only [h, Bool.not_false, List.filter_cons_of_pos, List.map_cons, List.sum_cons,
        List.filter_cons_of_neg, not_false_eq_true, Bool.false_eq_true]
      exact add_left_comm ..

omit [DecidableEq K] in
/-- The number of entries (`HashMap::len`). -/
def size (m : Table K V) : ℕ := m.toList.length

omit [DecidableEq K] in
/-- The size is a total, so that it follows its rules. -/
theorem size_eq_total (m : Table K V) : size m = total (fun _ _ => 1) m := by
  simp [size, total]

theorem lookup_of_size_eq_zero {m : Table K V} (h : m.size = 0) (k : K) : m.lookup k = none := by
  have hnil : m.toList = [] := List.length_eq_zero_iff.mp h
  cases hk : m.lookup k with
  | none => rfl
  | some v =>
    rw [← mem_toList, hnil] at hk
    cases hk

omit [DecidableEq K] in
theorem total_of_size_eq_zero (f : K → V → M) {m : Table K V} (h : m.size = 0) :
    total f m = 0 := by
  rw [total, List.length_eq_zero_iff.mp h]
  rfl

theorem size_ne_zero_of_lookup_some {m : Table K V} {k : K} {v : V} (h : m.lookup k = some v) :
    m.size ≠ 0 := by
  intro hsize
  rw [lookup_of_size_eq_zero hsize] at h
  cases h

theorem exists_lookup_of_size_ne_zero {m : Table K V} (h : m.size ≠ 0) :
    ∃ k v, m.lookup k = some v := by
  obtain ⟨⟨k, v⟩, hmem⟩ := List.exists_mem_of_length_pos (Nat.pos_of_ne_zero h)
  exact ⟨k, v, mem_toList.mp hmem⟩

theorem size_insert_ne_zero (m : Table K V) (k : K) (v : V) : (m.insert k v).size ≠ 0 :=
  size_ne_zero_of_lookup_some (lookup_insert_self m k v)

theorem size_insert_of_lookup_none {m : Table K V} {k : K} (v : V) (h : m.lookup k = none) :
    size (m.insert k v) = size m + 1 := by
  rw [size_eq_total, size_eq_total, total_insert_of_lookup_none _ _ h]

theorem size_insert_of_lookup_some {m : Table K V} {k : K} {w : V} (v : V)
    (h : m.lookup k = some w) : size (m.insert k v) = size m := by
  have := total_erase_add (fun _ _ => 1) m k
  rw [h] at this
  rw [size_eq_total, size_eq_total, total_insert, ← this]
  rfl

theorem size_erase_of_lookup_some {m : Table K V} {k : K} {w : V} (h : m.lookup k = some w) :
    size (m.erase k) + 1 = size m := by
  have := total_erase_add (fun _ _ => 1) m k
  rw [h] at this
  rw [size_eq_total, size_eq_total]
  simpa using this

theorem size_erase_le (m : Table K V) (k : K) : size (m.erase k) ≤ size m := by
  have := total_erase_add (fun _ _ => 1) m k
  rw [← size_eq_total, ← size_eq_total] at this
  omega

end Table

/-! ## Sets -/

/-- A finite set, as the list of its elements. -/
structure HashSet (α : Type) where
  toList : List α
  nodup : toList.Nodup

namespace HashSet

variable {α : Type}

instance : Membership α (HashSet α) := ⟨fun s a => a ∈ s.toList⟩

instance : EmptyCollection (HashSet α) := ⟨⟨[], List.nodup_nil⟩⟩

@[simp] theorem notMem_empty (a : α) : a ∉ (∅ : HashSet α) := List.not_mem_nil

variable [DecidableEq α]

instance (a : α) (s : HashSet α) : Decidable (a ∈ s) :=
  inferInstanceAs (Decidable (a ∈ s.toList))

/-- The set with `a` added. -/
def insert (s : HashSet α) (a : α) : HashSet α :=
  ⟨s.toList.insert a, s.nodup.insert⟩

/-- The set with `a` taken out. -/
def erase (s : HashSet α) (a : α) : HashSet α :=
  ⟨s.toList.erase a, s.nodup.erase a⟩

/-- The elements of a list, each once. -/
def ofList (l : List α) : HashSet α := ⟨l.dedup, l.nodup_dedup⟩

omit [DecidableEq α] in
/-- The number of elements. -/
def size (s : HashSet α) : ℕ := s.toList.length

@[simp] theorem mem_insert {s : HashSet α} {a b : α} : b ∈ s.insert a ↔ b = a ∨ b ∈ s :=
  List.mem_insert_iff

@[simp] theorem mem_erase {s : HashSet α} {a b : α} : b ∈ s.erase a ↔ b ≠ a ∧ b ∈ s :=
  s.nodup.mem_erase_iff

@[simp] theorem mem_ofList {l : List α} {a : α} : a ∈ ofList l ↔ a ∈ l := List.mem_dedup

theorem size_insert_le (s : HashSet α) (a : α) : (s.insert a).size ≤ s.size + 1 := by
  simp only [size, insert, List.insert]
  split <;> simp

theorem size_insert_of_mem {s : HashSet α} {a : α} (h : a ∈ s) : (s.insert a).size = s.size :=
  List.length_insert_of_mem h

omit [DecidableEq α] in
theorem toList_eq_nil_iff {s : HashSet α} : s.toList = [] ↔ ∀ a, a ∉ s :=
  List.eq_nil_iff_forall_not_mem

end HashSet
