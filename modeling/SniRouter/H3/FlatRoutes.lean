import SniRouter.Lib.Run
import SniRouter.H3.CidRoutes

/-!
# The connection ID index is a flat map

The index replaced a plain map from CIDs to connections that was scanned for every short header.
Here the plain map is written out again, with `scan` as the lookup, and the index is proved to
refine it: along every sequence of insertions and removals the two agree on what is registered, and
on every byte string they find the same owner. The scan over the lengths of the index is taken as
the source has it, over the buckets that exist, longest first.
-/

namespace SniRouter

/-! ## The two systems -/

/-- A call that changes the index. -/
inductive CidOp where
  | insert (cid : Bytes) (connId : ℕ)
  | remove (cid : Bytes)

/-- The index after a call. -/
def CidRoutes.apply (routes : CidRoutes) : CidOp → CidRoutes
  | .insert cid connId => (routes.insert cid connId).1
  | .remove cid => (routes.remove cid).1

/-- The plain map after a call: a CID keeps its first owner, and the empty CID has none. -/
def flatApply (flat : Table Bytes ℕ) : CidOp → Table Bytes ℕ
  | .insert cid connId =>
    if cid ≠ [] ∧ flat.lookup cid = none then flat.insert cid connId else flat
  | .remove cid => flat.erase cid

/-- The last element with the largest key (`Iterator::max_by_key`). -/
def maxByKey {α : Type} (key : α → ℕ) : List α → Option α
  | [] => none
  | a :: l => some (l.foldl (fun best b => if key best > key b then best else b) a)

/-- The lookup in the plain map: of the registered CIDs that are a prefix of `bytes`, the owner of
the longest. -/
def scan (flat : Table Bytes ℕ) (bytes : Bytes) : Option ℕ :=
  (maxByKey (fun e => e.1.length)
    (flat.toList.filter fun e => !e.1.isEmpty && e.1.isPrefixOf bytes)).map Prod.snd

/-- The buckets of at most a length, longest first (`range(..=n).rev()`). -/
def CidRoutes.bucketsUpTo (routes : CidRoutes) (n : ℕ) : List (ℕ × Table Bytes ℕ) :=
  (routes.byLength.toList.filter fun e => e.1 ≤ n).mergeSort fun a b => b.1 ≤ a.1

/-- The first bucket with a match. -/
def CidRoutes.matchPrefixByRange (routes : CidRoutes) (bytes : Bytes) : Option ℕ :=
  (routes.bucketsUpTo bytes.length).findSome? fun e => e.2.lookup (bytes.take e.1)

/-! ## Maxima -/

section Max

variable {α : Type} {key : α → ℕ}

theorem foldl_max_spec (l : List α) (a : α) :
    l.foldl (fun best b => if key best > key b then best else b) a ∈ a :: l ∧
      ∀ b ∈ a :: l,
        key b ≤ key (l.foldl (fun best b => if key best > key b then best else b) a) := by
  induction l generalizing a with
  | nil => simp
  | cons b l ih =>
    rw [List.foldl_cons]
    by_cases h : key a > key b
    · rw [if_pos h]
      obtain ⟨hmem, hle⟩ := ih a
      refine ⟨?_, ?_⟩
      · rcases List.mem_cons.mp hmem with heq | hin
        · rw [heq]
          exact List.mem_cons_self
        · exact List.mem_cons_of_mem _ (List.mem_cons_of_mem _ hin)
      · intro c hc
        have ha := hle a List.mem_cons_self
        rcases List.mem_cons.mp hc with rfl | hc
        · exact ha
        rcases List.mem_cons.mp hc with rfl | hc
        · exact h.le.trans ha
        · exact hle c (List.mem_cons_of_mem _ hc)
    · rw [if_neg h]
      obtain ⟨hmem, hle⟩ := ih b
      refine ⟨List.mem_cons_of_mem _ hmem, ?_⟩
      intro c hc
      rcases List.mem_cons.mp hc with rfl | hc
      · exact (not_lt.mp h).trans (hle b List.mem_cons_self)
      · exact hle c hc

/-- What is found is one of the largest. -/
theorem maxByKey_eq_some {l : List α} {a : α} (h : maxByKey key l = some a) :
    a ∈ l ∧ ∀ b ∈ l, key b ≤ key a := by
  cases l with
  | nil => cases h
  | cons b l =>
    cases h
    exact foldl_max_spec l b

theorem maxByKey_eq_none {l : List α} (h : maxByKey key l = none) : l = [] := by
  cases l with
  | nil => rfl
  | cons b l => cases h

end Max

/-! ## The scan over the lengths -/

namespace CidRoutes

variable {routes : CidRoutes} {bytes : Bytes}

/-- The buckets that a match looks at are those that are short enough. -/
theorem mem_bucketsUpTo {n len : ℕ} {bucket : Table Bytes ℕ} :
    (len, bucket) ∈ routes.bucketsUpTo n ↔
      routes.byLength.lookup len = some bucket ∧ len ≤ n := by
  rw [bucketsUpTo, List.mem_mergeSort, List.mem_filter, Table.mem_toList]
  simp

/-- They are looked at from the longest on. -/
theorem bucketsUpTo_sorted (routes : CidRoutes) (n : ℕ) :
    (routes.bucketsUpTo n).Pairwise fun a b => b.1 ≤ a.1 := by
  have hsorted : (routes.bucketsUpTo n).Pairwise fun a b => decide (b.1 ≤ a.1) = true := by
    apply List.pairwise_mergeSort
    · intro a b c
      simp only [decide_eq_true_eq]
      omega
    · intro a b
      simp only [Bool.or_eq_true, decide_eq_true_eq]
      omega
  exact hsorted.imp fun h => of_decide_eq_true h

/-- What is registered under the prefix of a length is in the bucket of that length. -/
theorem get_take {l : ℕ} (hl : l ≤ bytes.length) :
    routes.get (bytes.take l) = (routes.byLength.lookup l).bind fun bucket =>
      bucket.lookup (bytes.take l) := by
  rw [get, List.length_take_of_le hl]
  rfl

/-- The scan over the existing buckets is the countdown over all lengths. -/
theorem matchPrefixByRange_eq (routes : CidRoutes) (bytes : Bytes) :
    routes.matchPrefixByRange bytes = routes.matchPrefix bytes := by
  cases h : routes.matchPrefixByRange bytes with
  | none =>
    symm
    rw [matchPrefix_eq_none]
    intro l hl
    rw [get_take hl]
    cases hbucket : routes.byLength.lookup l with
    | none => rfl
    | some bucket =>
      exact List.findSome?_eq_none_iff.mp h (l, bucket) (mem_bucketsUpTo.mpr ⟨hbucket, hl⟩)
  | some connId =>
    symm
    obtain ⟨before, ⟨len, bucket⟩, after, hlist, hfound, hbefore⟩ :=
      List.findSome?_eq_some_iff.mp h
    have hmem : (len, bucket) ∈ routes.bucketsUpTo bytes.length := by
      rw [hlist]
      simp
    obtain ⟨hbucket, hlen⟩ := mem_bucketsUpTo.mp hmem
    rw [matchPrefix_eq_some]
    refine ⟨len, hlen, ?_, ?_⟩
    · rw [get_take hlen, hbucket]
      exact hfound
    · intro l hl hlt
      rw [get_take hl]
      cases hbucket' : routes.byLength.lookup l with
      | none => rfl
      | some bucket' =>
        -- a longer bucket stands before the one with the match
        have hmem' := mem_bucketsUpTo.mpr ⟨hbucket', hl⟩
        have hsorted := routes.bucketsUpTo_sorted bytes.length
        rw [hlist] at hmem' hsorted
        rcases List.mem_append.mp hmem' with hin | hin
        · exact hbefore (l, bucket') hin
        · have hle : ∀ e ∈ (len, bucket) :: after, e.1 ≤ len := by
            intro e he
            rcases List.mem_cons.mp he with rfl | he
            · exact le_rfl
            · exact List.rel_of_pairwise_cons (List.pairwise_append.mp hsorted).2.1 he
          exact absurd (hle (l, bucket') hin) (by simpa using hlt)

/-! ## The refinement -/

/-- The index holds what the plain map holds, and the empty CID is not registered. -/
structure Represents (routes : CidRoutes) (flat : Table Bytes ℕ) : Prop where
  get_eq : ∀ cid, routes.get cid = flat.lookup cid
  lookup_nil : flat.lookup [] = none

theorem Represents.empty : Represents CidRoutes.empty ∅ := by
  constructor
  · intro cid
    rfl
  · rfl

/-- One call keeps the two in step. -/
theorem Represents.apply {flat : Table Bytes ℕ} (h : Represents routes flat) (op : CidOp) :
    Represents (routes.apply op) (flatApply flat op) := by
  cases op with
  | insert cid connId =>
    constructor
    · intro cid'
      show (routes.insert cid connId).1.get cid' = _
      rw [get_insert, h.get_eq cid, h.get_eq cid']
      simp only [flatApply]
      by_cases hfree : cid ≠ [] ∧ flat.lookup cid = none
      · rw [if_pos hfree, Table.lookup_insert]
        simp only [hfree.1, hfree.2, ne_eq, not_false_eq_true, and_self, and_true]
      · rw [if_neg hfree, if_neg (fun hc => hfree hc.2)]
    · simp only [flatApply]
      split
      · rename_i hfree
        rw [Table.lookup_insert, if_neg (fun hc => hfree.1 hc.symm)]
        exact h.lookup_nil
      · exact h.lookup_nil
  | remove cid =>
    constructor
    · intro cid'
      show (routes.remove cid).1.get cid' = (flat.erase cid).lookup cid'
      rw [get_remove, Table.lookup_erase, h.get_eq cid']
    · show (flat.erase cid).lookup [] = none
      rw [Table.lookup_erase, h.lookup_nil]
      simp

/-- Both have the same entries after any operations. -/
theorem represents_runFrom (ops : List CidOp) :
    Represents (runFrom CidRoutes.apply CidRoutes.empty ops) (runFrom flatApply ∅ ops) :=
  runFrom_simulation (fun _ _ op h => h.apply op) ops _ _ .empty

/-- `insert` says whether the CID belongs to the connection afterwards. -/
theorem Represents.insert_snd {flat : Table Bytes ℕ} (h : Represents routes flat) (cid : Bytes)
    (connId : ℕ) :
    (routes.insert cid connId).2 = true ↔
      (flatApply flat (.insert cid connId)).lookup cid = some connId := by
  rw [CidRoutes.insert_snd, h.get_eq cid]
  simp only [flatApply]
  by_cases hempty : cid = []
  · subst hempty
    simp [h.lookup_nil]
  by_cases hnone : flat.lookup cid = none
  · simp [hempty, hnone]
  · simp [hempty, hnone]

/-- No bucket stands under the length zero: it would hold the empty CID. -/
theorem Represents.length_pos {flat : Table Bytes ℕ} (h : Represents routes flat) {len : ℕ}
    {bucket : Table Bytes ℕ} (hbucket : routes.byLength.lookup len = some bucket) : 0 < len := by
  obtain ⟨cid, connId, hcid⟩ :=
    Table.exists_lookup_of_size_ne_zero (routes.bucketed.filled len bucket hbucket)
  have hlen := routes.bucketed.length len bucket hbucket cid connId hcid
  rw [Nat.pos_iff_ne_zero]
  intro hzero
  have hnil : cid = [] := List.length_eq_zero_iff.mp (hlen.trans hzero)
  have hget : routes.get cid = some connId := by
    rw [get, hlen, hbucket]
    exact hcid
  rw [h.get_eq, hnil, h.lookup_nil] at hget
  cases hget

theorem mem_scan {flat : Table Bytes ℕ} {cid : Bytes} {connId : ℕ} :
    (cid, connId) ∈ (flat.toList.filter fun e => !e.1.isEmpty && e.1.isPrefixOf bytes) ↔
      flat.lookup cid = some connId ∧ cid ≠ [] ∧ cid <+: bytes := by
  rw [List.mem_filter, Table.mem_toList]
  simp

/-- On every byte string the index finds what the scan of the plain map finds. -/
theorem Represents.matchPrefix_eq_scan {flat : Table Bytes ℕ} (h : Represents routes flat)
    (bytes : Bytes) : routes.matchPrefix bytes = scan flat bytes := by
  have hmem : ∀ l ≤ bytes.length, ∀ connId, routes.get (bytes.take l) = some connId →
      (bytes.take l, connId) ∈
        (flat.toList.filter fun e => !e.1.isEmpty && e.1.isPrefixOf bytes) := by
    intro l hl connId hget
    rw [h.get_eq] at hget
    refine mem_scan.mpr ⟨hget, ?_, List.take_prefix ..⟩
    intro hnil
    rw [hnil, h.lookup_nil] at hget
    cases hget
  unfold scan
  cases hmax : maxByKey (fun e : Bytes × ℕ => e.1.length)
      (flat.toList.filter fun e => !e.1.isEmpty && e.1.isPrefixOf bytes) with
  | none =>
    rw [Option.map_none, matchPrefix_eq_none]
    intro l hl
    cases hget : routes.get (bytes.take l) with
    | none => rfl
    | some connId =>
      have := hmem l hl connId hget
      rw [maxByKey_eq_none hmax] at this
      cases this
  | some e =>
    obtain ⟨cid, connId⟩ := e
    obtain ⟨hin, hlongest⟩ := maxByKey_eq_some hmax
    obtain ⟨hlook, -, hpre⟩ := mem_scan.mp hin
    have htake : bytes.take cid.length = cid := (List.prefix_iff_eq_take.mp hpre).symm
    rw [Option.map_some, matchPrefix_eq_some]
    refine ⟨cid.length, hpre.length_le, ?_, ?_⟩
    · rw [htake, h.get_eq]
      exact hlook
    · intro l hl hlt
      cases hget : routes.get (bytes.take l) with
      | none => rfl
      | some connId' =>
        have hle : (bytes.take l).length ≤ cid.length := hlongest _ (hmem l hl connId' hget)
        rw [List.length_take_of_le hl] at hle
        omega

end CidRoutes

/-- The index refines the plain map. After any sequence of insertions and removals, starting from
the empty index: it holds what the plain map holds; `insert` returns whether the CID then belongs to
the connection; no bucket is empty or stands under zero, and a bucket holds CIDs of its own length;
and for every byte string the first bucket with a match, longest first, gives the owner the scan of
the plain map gives. -/
theorem cidRoutes_refines_flat (ops : List CidOp) :
    let routes := runFrom CidRoutes.apply CidRoutes.empty ops
    let flat := runFrom flatApply ∅ ops
    (∀ cid, routes.get cid = flat.lookup cid) ∧
    (∀ cid connId, (routes.insert cid connId).2 = true ↔
      (routes.apply (.insert cid connId)).get cid = some connId) ∧
    (∀ cid connId, (routes.insert cid connId).2 = true ↔
      (flatApply flat (.insert cid connId)).lookup cid = some connId) ∧
    (∀ len bucket, routes.byLength.lookup len = some bucket → 0 < len ∧ bucket.size ≠ 0 ∧
      ∀ cid connId, bucket.lookup cid = some connId → cid.length = len) ∧
    (∀ bytes, routes.matchPrefixByRange bytes = scan flat bytes) ∧
    (∀ bytes, routes.matchPrefix bytes = scan flat bytes) := by
  have h := CidRoutes.represents_runFrom ops
  refine ⟨h.get_eq, ?_, h.insert_snd, ?_, ?_, h.matchPrefix_eq_scan⟩
  · intro cid connId
    rw [(h.apply (.insert cid connId)).get_eq]
    exact h.insert_snd cid connId
  · intro len bucket hbucket
    exact ⟨h.length_pos hbucket, CidRoutes.bucketed _ |>.filled len bucket hbucket,
      CidRoutes.bucketed _ |>.length len bucket hbucket⟩
  · intro bytes
    rw [CidRoutes.matchPrefixByRange_eq]
    exact h.matchPrefix_eq_scan bytes

/-- One CID starts with another one. Both lookups find the owner of the longer one, and of the
other one when it is removed. -/
theorem cidRoutes_refines_flat_nested :
    let ops := [CidOp.insert [0x61] 7, .insert [0x61, 0x62] 8]
    (∃ bucket, (runFrom CidRoutes.apply CidRoutes.empty ops).byLength.lookup 2 = some bucket ∧
      bucket.size ≠ 0) ∧
      scan (runFrom flatApply ∅ ops) [0x61, 0x62, 0x63] = some 8 ∧
      scan (runFrom flatApply ∅ (ops ++ [.remove [0x61, 0x62]])) [0x61, 0x62, 0x63] = some 7 := by
  intro ops
  have hbucket : (runFrom CidRoutes.apply CidRoutes.empty ops).byLength.lookup 2 =
      some ((∅ : Table Bytes ℕ).insert [0x61, 0x62] 8) := rfl
  have hlonger : (runFrom CidRoutes.apply CidRoutes.empty ops).matchPrefix [0x61, 0x62, 0x63] =
      some 8 := rfl
  have hshorter : (runFrom CidRoutes.apply CidRoutes.empty
      (ops ++ [.remove [0x61, 0x62]])).matchPrefix [0x61, 0x62, 0x63] = some 7 := rfl
  obtain ⟨-, -, -, hfilled, -, hscan⟩ := cidRoutes_refines_flat ops
  obtain ⟨-, -, -, -, -, hscan'⟩ := cidRoutes_refines_flat (ops ++ [.remove [0x61, 0x62]])
  exact ⟨⟨_, hbucket, (hfilled 2 _ hbucket).2.1⟩, (hscan _).symm.trans hlonger,
    (hscan' _).symm.trans hshorter⟩

end SniRouter
