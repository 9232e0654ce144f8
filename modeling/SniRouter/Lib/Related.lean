import SniRouter.Lib.Table

/-!
# Tables and sets up to order

A program that iterates over a hash map sees its entries in an arbitrary order. Two tables are
`Related R` when they have the same keys and `R` relates the values under each of them, and two
sets are `Similar` when they have the same elements. Lookups and sizes cannot tell such tables
apart, and what an iteration sees is the same up to a permutation (`Related.perm`).
-/

namespace Table

variable {K V W : Type} [DecidableEq K]

/-- The same keys, and related values under each of them. -/
def Related (R : V → W → Prop) (m : Table K V) (m' : Table K W) : Prop :=
  ∀ k, Option.Rel R (m.lookup k) (m'.lookup k)

variable {R : V → W → Prop} {m : Table K V} {m' : Table K W}

theorem Related.refl {R : V → V → Prop} (hR : ∀ v, R v v) (m : Table K V) : Related R m m := by
  intro k
  cases m.lookup k with
  | none => exact .none
  | some v => exact .some (hR v)

/-- Relations between tables compose as those between their values do. -/
theorem Related.trans {U : Type} {S : W → U → Prop} {T : V → U → Prop} {m'' : Table K U}
    (h : Related R m m') (h' : Related S m' m'') (hRST : ∀ v w u, R v w → S w u → T v u) :
    Related T m m'' := by
  intro k
  have hk := h k
  have hk' := h' k
  generalize m.lookup k = x at hk ⊢
  generalize m'.lookup k = y at hk hk'
  generalize m''.lookup k = z at hk' ⊢
  cases hk with
  | none =>
    cases hk'
    exact .none
  | some hvw =>
    cases hk' with
    | some hwu => exact .some (hRST _ _ _ hvw hwu)

/-- A key is in neither table, or in both with related values. -/
theorem Related.cases (h : Related R m m') (k : K) :
    (m.lookup k = none ∧ m'.lookup k = none) ∨
      ∃ v w, m.lookup k = some v ∧ m'.lookup k = some w ∧ R v w := by
  have hk := h k
  generalize m.lookup k = x at hk ⊢
  generalize m'.lookup k = y at hk ⊢
  cases hk with
  | none => exact Or.inl ⟨rfl, rfl⟩
  | some hvw => exact Or.inr ⟨_, _, rfl, rfl, hvw⟩

/-- A key has a value with a property in both tables, or in neither. -/
theorem Related.exists_iff (h : Related R m m') (k : K) {p : V → Prop} {q : W → Prop}
    (hpq : ∀ v w, R v w → (p v ↔ q w)) :
    (∃ v, m.lookup k = some v ∧ p v) ↔ ∃ w, m'.lookup k = some w ∧ q w := by
  rcases h.cases k with ⟨hnone, hnone'⟩ | ⟨v, w, hv, hw, hvw⟩
  · simp [hnone, hnone']
  · simp [hv, hw, hpq v w hvw]

/-- A value of the second table comes from a related one of the first. -/
theorem Related.lookup_eq_some (h : Related R m m') {k : K} {w : W}
    (hk : m'.lookup k = some w) : ∃ v, m.lookup k = some v ∧ R v w := by
  rcases h.cases k with ⟨-, hnone⟩ | ⟨v, w', hv, hw', hvw⟩
  · cases hk.symm.trans hnone
  · cases hk.symm.trans hw'
    exact ⟨v, hv, hvw⟩

/-- Tables with equal values under each key are those with the same lookups. -/
theorem related_eq_iff {m m' : Table K V} :
    Related Eq m m' ↔ ∀ k, m'.lookup k = m.lookup k := by
  constructor
  · intro h k
    rcases h.cases k with ⟨hnone, hnone'⟩ | ⟨v, w, hv, hw, rfl⟩
    · rw [hnone, hnone']
    · rw [hv, hw]
  · intro h k
    rw [h k]
    cases m.lookup k with
    | none => exact .none
    | some v => exact .some rfl

theorem related_eq_trans {m m' m'' : Table K V} (h : Related Eq m m') (h' : Related Eq m' m'') :
    Related Eq m m'' := h.trans h' fun _ _ _ => Eq.trans

theorem Related.insert (h : Related R m m') (k : K) {v : V} {w : W} (hvw : R v w) :
    Related R (m.insert k v) (m'.insert k w) := by
  intro k'
  rw [lookup_insert, lookup_insert]
  split
  · exact .some hvw
  · exact h k'

theorem Related.erase (h : Related R m m') (k : K) : Related R (m.erase k) (m'.erase k) := by
  intro k'
  rw [lookup_erase, lookup_erase]
  split
  · exact .none
  · exact h k'

/-- Retaining entries by conditions that agree on related values. -/
theorem Related.retain (h : Related R m m') {p : K → V → Bool} {q : K → W → Bool}
    (hpq : ∀ k v w, R v w → p k v = q k w) : Related R (m.retain p) (m'.retain q) := by
  intro k
  have hleft := fun v => lookup_retain_eq_some (p := p) (m := m) (k := k) (v := v)
  have hright := fun w => lookup_retain_eq_some (p := q) (m := m') (k := k) (v := w)
  rcases h.cases k with ⟨hnone, hnone'⟩ | ⟨v, w, hv, hw, hvw⟩
  · have hkeep : (m.retain p).lookup k = none := by
      refine Option.eq_none_iff_forall_ne_some.mpr fun v hv => ?_
      cases hnone.symm.trans ((hleft v).mp hv).1
    have hkeep' : (m'.retain q).lookup k = none := by
      refine Option.eq_none_iff_forall_ne_some.mpr fun w hw => ?_
      cases hnone'.symm.trans ((hright w).mp hw).1
    rw [hkeep, hkeep']
    exact .none
  · by_cases hp : p k v = true
    · rw [(hleft v).mpr ⟨hv, hp⟩, (hright w).mpr ⟨hw, hpq k v w hvw ▸ hp⟩]
      exact .some hvw
    · have hkeep : (m.retain p).lookup k = none := by
        refine Option.eq_none_iff_forall_ne_some.mpr fun v' hv' => ?_
        obtain ⟨hlook, hp'⟩ := (hleft v').mp hv'
        cases hv.symm.trans hlook
        exact hp hp'
      have hkeep' : (m'.retain q).lookup k = none := by
        refine Option.eq_none_iff_forall_ne_some.mpr fun w' hw' => ?_
        obtain ⟨hlook, hq⟩ := (hright w').mp hw'
        cases hw.symm.trans hlook
        exact hp (hpq k v w hvw ▸ hq)
      rw [hkeep, hkeep']
      exact .none

/-! ## What an iteration sees -/

omit [DecidableEq K] in
theorem nodup_keys (m : Table K V) : m.keys.Nodup := by
  have h : (AList.entries m).NodupKeys := m.nodupKeys
  unfold keys toList
  rw [List.map_map]
  exact h

omit [DecidableEq K] in
theorem nodup_toList (m : Table K V) : m.toList.Nodup := .of_map _ m.nodup_keys

/-- The entries of related tables are related one by one, up to the order of the one table. -/
theorem Related.perm (h : Related R m m') :
    ∃ l, l.Perm m.toList ∧ List.Forall₂ (fun e e' => e.1 = e'.1 ∧ R e.2 e'.2) l m'.toList := by
  -- the entries of `m`, in the order in which `m'` has their keys
  have hpick : ∀ es : List (K × W), (∀ e ∈ es, m'.lookup e.1 = some e.2) →
      ∃ l : List (K × V), List.Forall₂ (fun e e' => e.1 = e'.1 ∧ R e.2 e'.2) l es ∧
        l.map Prod.fst = es.map Prod.fst ∧ ∀ e ∈ l, m.lookup e.1 = some e.2 := by
    intro es hes
    induction es with
    | nil => exact ⟨[], .nil, rfl, nofun⟩
    | cons e es ih =>
      obtain ⟨l, hl, hkeys, hlook⟩ := ih fun e' he' => hes e' (List.mem_cons_of_mem _ he')
      obtain ⟨v, hv, hvw⟩ := h.lookup_eq_some (hes e List.mem_cons_self)
      refine ⟨(e.1, v) :: l, .cons ⟨rfl, hvw⟩ hl, by rw [List.map_cons, List.map_cons, hkeys], ?_⟩
      intro e' he'
      rcases List.mem_cons.mp he' with rfl | he'
      · exact hv
      · exact hlook e' he'
  obtain ⟨l, hl, hkeys, hlook⟩ := hpick m'.toList fun e he => mem_toList.mp he
  refine ⟨l, ?_, hl⟩
  have hnodup : l.Nodup := by
    have hmap : (l.map Prod.fst).Nodup := by
      rw [hkeys]
      exact m'.nodup_keys
    exact .of_map _ hmap
  refine (List.perm_ext_iff_of_nodup hnodup m.nodup_toList).mpr fun e => ?_
  refine ⟨fun he => ?_, fun he => ?_⟩
  · exact mem_toList.mpr (hlook e he)
  · have hv := mem_toList.mp he
    rcases h.cases e.1 with ⟨hnone, -⟩ | ⟨v, w, hv', hw, -⟩
    · cases hv.symm.trans hnone
    · have hkey : e.1 ∈ l.map Prod.fst := by
        rw [hkeys]
        exact mem_keys.mpr ⟨w, hw⟩
      obtain ⟨e', he', hfst⟩ := List.mem_map.mp hkey
      have hsnd := hlook e' he'
      rw [hfst, hv] at hsnd
      have heq : e' = e := Prod.ext hfst (Option.some.inj hsnd).symm
      exact heq ▸ he'

theorem Related.size_eq (h : Related R m m') : m.size = m'.size := by
  obtain ⟨l, hperm, hl⟩ := h.perm
  exact hperm.length_eq.symm.trans hl.length_eq

end Table

namespace HashSet

variable {α : Type} {s t : HashSet α}

/-- The same elements. -/
def Similar (s t : HashSet α) : Prop := ∀ a, a ∈ s ↔ a ∈ t

theorem Similar.trans {u : HashSet α} (hst : Similar s t) (htu : Similar t u) : Similar s u :=
  fun a => (hst a).trans (htu a)

theorem Similar.perm (h : Similar s t) : s.toList.Perm t.toList :=
  (List.perm_ext_iff_of_nodup s.nodup t.nodup).mpr h

theorem Similar.size_eq (h : Similar s t) : s.size = t.size := h.perm.length_eq

variable [DecidableEq α]

theorem Similar.insert (h : Similar s t) (a : α) : Similar (s.insert a) (t.insert a) := by
  intro b
  rw [mem_insert, mem_insert, h b]

end HashSet
