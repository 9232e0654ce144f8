import SniRouter.Net

/-!
# The connection ID index

CIDs are indexed by length, so that a short header, which does not say how long its CID is,
is matched against one bucket per length, longest first. A bucket holds CIDs of its length
only, and goes with the last of them; the type carries this. The lookup laws below present
the two-level table as one flat partial function `get`, which is all the router's proofs see.
-/

namespace SniRouter

/-- Every bucket has an entry, and all its CIDs have the length it stands under. -/
structure Bucketed (byLength : Table ℕ (Table Bytes ℕ)) : Prop where
  filled : ∀ len bucket, byLength.lookup len = some bucket → bucket.size ≠ 0
  length : ∀ len bucket, byLength.lookup len = some bucket →
    ∀ cid connId, bucket.lookup cid = some connId → cid.length = len

namespace Bucketed

variable {byLength : Table ℕ (Table Bytes ℕ)}

theorem empty : Bucketed ∅ := by
  constructor
  · intro len bucket h
    cases h
  · intro len bucket h
    cases h

theorem insert (h : Bucketed byLength) {len : ℕ} {bucket : Table Bytes ℕ}
    (hfilled : bucket.size ≠ 0)
    (hlength : ∀ cid connId, bucket.lookup cid = some connId → cid.length = len) :
    Bucketed (byLength.insert len bucket) := by
  constructor
  · intro len' bucket' hlook
    rw [Table.lookup_insert] at hlook
    split at hlook
    · cases hlook
      exact hfilled
    · exact h.filled len' bucket' hlook
  · intro len' bucket' hlook
    rw [Table.lookup_insert] at hlook
    split at hlook
    · rename_i hlen
      cases hlook
      exact hlen ▸ hlength
    · exact h.length len' bucket' hlook

theorem erase (h : Bucketed byLength) (len : ℕ) : Bucketed (byLength.erase len) := by
  have hold : ∀ len' bucket, (byLength.erase len).lookup len' = some bucket →
      byLength.lookup len' = some bucket := by
    intro len' bucket hlook
    rw [Table.lookup_erase] at hlook
    split at hlook
    · cases hlook
    · exact hlook
  exact ⟨fun len' bucket hlook => h.filled len' bucket (hold len' bucket hlook),
    fun len' bucket hlook => h.length len' bucket (hold len' bucket hlook)⟩

/-- The bucket a CID goes to (`entry(len).or_default()`) holds CIDs of that length. -/
theorem length_getD (h : Bucketed byLength) {len : ℕ} {cid : Bytes} {connId : ℕ}
    (hlook : ((byLength.lookup len).getD ∅).lookup cid = some connId) : cid.length = len := by
  cases hbucket : byLength.lookup len with
  | none =>
    rw [hbucket] at hlook
    cases hlook
  | some bucket =>
    rw [hbucket] at hlook
    exact h.length len bucket hbucket cid connId hlook

end Bucketed

/-- `by_length` maps a CID length to the CIDs of that length and their connection. -/
structure CidRoutes where
  byLength : Table ℕ (Table Bytes ℕ)
  bucketed : Bucketed byLength

namespace CidRoutes

/-- `CidRoutes::default()`. -/
def empty : CidRoutes := ⟨∅, .empty⟩

/-- Writes back the bucket of a length that was borrowed mutably. -/
def setBucket (routes : CidRoutes) (len : ℕ) (bucket : Table Bytes ℕ)
    (hfilled : bucket.size ≠ 0)
    (hlength : ∀ cid connId, bucket.lookup cid = some connId → cid.length = len) : CidRoutes :=
  ⟨routes.byLength.insert len bucket, routes.bucketed.insert hfilled hlength⟩

/-- Registers a CID without replacing another connection's ownership. -/
def insert (routes : CidRoutes) (cid : Bytes) (connId : ℕ) : CidRoutes × Bool :=
  if cid.isEmpty then (routes, false)
  else
    let bucket := (routes.byLength.lookup cid.length).getD ∅
    match h : bucket.lookup cid with
    | none =>
      (routes.setBucket cid.length (bucket.insert cid connId) (Table.size_insert_ne_zero _ _ _)
        (by
          intro cid' connId' hlook
          rw [Table.lookup_insert] at hlook
          split at hlook
          · rename_i hcid
            rw [hcid]
          · exact routes.bucketed.length_getD hlook), true)
    | some owner =>
      (routes.setBucket cid.length bucket (Table.size_ne_zero_of_lookup_some h)
        (fun _ _ hlook => routes.bucketed.length_getD hlook), owner == connId)

def get (routes : CidRoutes) (cid : Bytes) : Option ℕ := do
  let bucket ← routes.byLength.lookup cid.length
  bucket.lookup cid

/-- Takes a CID out, and its length with the last CID of that length. -/
def remove (routes : CidRoutes) (cid : Bytes) : CidRoutes × Option ℕ :=
  match h : routes.byLength.lookup cid.length with
  | none => (routes, none)
  | some bucket =>
    let removed := bucket.lookup cid
    if hempty : (bucket.erase cid).size = 0 then
      (⟨routes.byLength.erase cid.length, routes.bucketed.erase _⟩, removed)
    else
      (routes.setBucket cid.length (bucket.erase cid) hempty
        (by
          intro cid' connId hlook
          rw [Table.lookup_erase] at hlook
          split at hlook
          · cases hlook
          · exact routes.bucketed.length _ bucket h cid' connId hlook), removed)

/-- The lengths at most `n`, in descending order, until one has a match. -/
def matchPrefixUpTo (routes : CidRoutes) (bytes : Bytes) : ℕ → Option ℕ
  | 0 => do (← routes.byLength.lookup 0).lookup (bytes.take 0)
  | n + 1 =>
    match (do (← routes.byLength.lookup (n + 1)).lookup (bytes.take (n + 1))) with
    | some connId => some connId
    | none => matchPrefixUpTo routes bytes n

/-- The owner of the longest registered CID that is a prefix of `bytes`. -/
def matchPrefix (routes : CidRoutes) (bytes : Bytes) : Option ℕ :=
  routes.matchPrefixUpTo bytes bytes.length

/-! ## The flat map -/

/-- The bucket a CID goes to, with the CIDs of other lengths untouched. -/
theorem get_setBucket (routes : CidRoutes) (len : ℕ) (bucket : Table Bytes ℕ)
    (hfilled : bucket.size ≠ 0)
    (hlength : ∀ cid connId, bucket.lookup cid = some connId → cid.length = len) (cid : Bytes) :
    (routes.setBucket len bucket hfilled hlength).get cid =
      if cid.length = len then bucket.lookup cid else routes.get cid := by
  simp only [get, setBucket, Table.lookup_insert]
  split <;> rfl

/-- A CID is looked up in the bucket of its length. -/
theorem lookup_bucket (routes : CidRoutes) (cid : Bytes) :
    ((routes.byLength.lookup cid.length).getD ∅).lookup cid = routes.get cid := by
  simp only [get]
  cases routes.byLength.lookup cid.length <;> rfl

/-- Inserting registers a non-empty CID that is not registered, and changes nothing else. -/
theorem get_insert (routes : CidRoutes) (cid : Bytes) (connId : ℕ) (cid' : Bytes) :
    (routes.insert cid connId).1.get cid' =
      if cid' = cid ∧ cid ≠ [] ∧ routes.get cid = none then some connId else routes.get cid' := by
  unfold insert
  by_cases hempty : cid = []
  · simp [hempty]
  rw [if_neg (by simpa using hempty)]
  dsimp only
  split
  · rename_i hnone
    rw [lookup_bucket] at hnone
    rw [get_setBucket, Table.lookup_insert]
    by_cases hcid : cid' = cid
    · subst hcid
      simp [hempty, hnone]
    · simp only [hcid, false_and, if_false]
      split
      · rename_i hlen
        rw [← hlen, lookup_bucket]
      · rfl
  · rename_i owner howner
    rw [lookup_bucket] at howner
    rw [get_setBucket]
    rw [if_neg (show ¬(cid' = cid ∧ cid ≠ [] ∧ routes.get cid = none) by simp [howner])]
    split
    · rename_i hlen
      rw [← hlen, lookup_bucket]
    · rfl

/-- `insert` reports whether the CID now belongs to the connection. -/
theorem insert_snd (routes : CidRoutes) (cid : Bytes) (connId : ℕ) :
    (routes.insert cid connId).2 = true ↔
      cid ≠ [] ∧ (routes.get cid = none ∨ routes.get cid = some connId) := by
  unfold insert
  by_cases hempty : cid = []
  · simp [hempty]
  rw [if_neg (by simpa using hempty)]
  dsimp only
  split
  · rename_i hnone
    rw [lookup_bucket] at hnone
    simp [hempty, hnone]
  · rename_i owner howner
    rw [lookup_bucket] at howner
    simp [hempty, howner]

/-- Removing a CID leaves all others. -/
theorem get_remove (routes : CidRoutes) (cid cid' : Bytes) :
    (routes.remove cid).1.get cid' = if cid' = cid then none else routes.get cid' := by
  unfold remove
  split
  · rename_i hnone
    split
    · rename_i hcid
      simp [hcid, get, hnone]
    · rfl
  · rename_i bucket hbucket
    dsimp only
    have hother : ∀ c : Bytes, c.length = cid.length →
        (bucket.erase cid).lookup c = if c = cid then none else routes.get c := by
      intro c hc
      rw [Table.lookup_erase]
      simp [get, hc, hbucket]
    split
    · -- the last CID of its length: the bucket goes with it
      rename_i hsize
      simp only [get, Table.lookup_erase]
      by_cases hlen : cid'.length = cid.length
      · have hnone := Table.lookup_of_size_eq_zero hsize cid'
        rw [hother cid' hlen] at hnone
        rw [if_pos hlen]
        simp only [get] at hnone
        exact hnone.symm
      · rw [if_neg hlen, if_neg (fun h => hlen (congrArg _ h))]
    · rw [get_setBucket]
      by_cases hlen : cid'.length = cid.length
      · rw [if_pos hlen, hother cid' hlen]
      · rw [if_neg hlen, if_neg (fun h => hlen (congrArg _ h))]

/-- An index in which nothing is registered has no buckets left. -/
theorem byLength_size_eq_zero {routes : CidRoutes} (h : ∀ cid, routes.get cid = none) :
    routes.byLength.size = 0 := by
  by_contra hsize
  obtain ⟨len, bucket, hbucket⟩ := Table.exists_lookup_of_size_ne_zero hsize
  obtain ⟨cid, connId, hcid⟩ :=
    Table.exists_lookup_of_size_ne_zero (routes.bucketed.filled len bucket hbucket)
  have hlen := routes.bucketed.length len bucket hbucket cid connId hcid
  have hnone := h cid
  simp only [get, hlen, hbucket] at hnone
  rw [show bucket.lookup cid = none from hnone] at hcid
  cases hcid

/-! ## Longest prefix -/

/-- The longest registered prefix of at most `n` bytes is found. -/
theorem matchPrefixUpTo_eq_some {routes : CidRoutes} {bytes : Bytes} {n connId : ℕ}
    (hn : n ≤ bytes.length) :
    routes.matchPrefixUpTo bytes n = some connId ↔
      ∃ l ≤ n, routes.get (bytes.take l) = some connId ∧
        ∀ l' ≤ n, l < l' → routes.get (bytes.take l') = none := by
  have hget : ∀ l ≤ bytes.length,
      (do (← routes.byLength.lookup l).lookup (bytes.take l)) = routes.get (bytes.take l) := by
    intro l hl
    simp only [get, List.length_take_of_le hl]
  induction n with
  | zero =>
    simp only [matchPrefixUpTo, hget 0 hn, Nat.le_zero]
    constructor
    · intro h
      exact ⟨0, rfl, h, fun l' hl' hlt => by omega⟩
    · rintro ⟨l, rfl, h, -⟩
      exact h
  | succ n ih =>
    simp only [matchPrefixUpTo, hget (n + 1) hn]
    split
    · rename_i owner howner
      constructor
      · rintro ⟨⟩
        exact ⟨n + 1, le_refl _, howner, fun l' hl' hlt => by omega⟩
      · rintro ⟨l, hl, h, hlonger⟩
        -- a shorter match would contradict that nothing longer is registered
        rcases Nat.lt_or_ge l (n + 1) with hlt | hge
        · rw [hlonger (n + 1) (le_refl _) hlt] at howner
          cases howner
        · obtain rfl : l = n + 1 := by omega
          rw [← h, howner]
    · rename_i hnone
      refine (ih (by omega)).trans ?_
      constructor
      · rintro ⟨l, hl, h, hlonger⟩
        refine ⟨l, by omega, h, fun l' hl' hlt => ?_⟩
        rcases Nat.lt_or_ge l' (n + 1) with hlt' | hge'
        · exact hlonger l' (by omega) hlt
        · obtain rfl : l' = n + 1 := by omega
          exact hnone
      · rintro ⟨l, hl, h, hlonger⟩
        have hne : l ≠ n + 1 := by
          rintro rfl
          rw [hnone] at h
          cases h
        exact ⟨l, by omega, h, fun l' hl' hlt => hlonger l' (by omega) hlt⟩

/-- The match is registered, is a prefix, and no longer prefix is registered. -/
theorem matchPrefix_eq_some {routes : CidRoutes} {bytes : Bytes} {connId : ℕ} :
    routes.matchPrefix bytes = some connId ↔
      ∃ l ≤ bytes.length, routes.get (bytes.take l) = some connId ∧
        ∀ l' ≤ bytes.length, l < l' → routes.get (bytes.take l') = none :=
  matchPrefixUpTo_eq_some (le_refl _)

/-- Nothing is found if and only if no prefix is registered. -/
theorem matchPrefix_eq_none {routes : CidRoutes} {bytes : Bytes} :
    routes.matchPrefix bytes = none ↔
      ∀ l ≤ bytes.length, routes.get (bytes.take l) = none := by
  constructor
  · intro h
    by_contra hex
    push Not at hex
    obtain ⟨l, hl, hsome⟩ := hex
    -- the longest registered prefix would be a match
    have hP := Nat.findGreatest_spec (P := fun l => routes.get (bytes.take l) ≠ none) hl hsome
    obtain ⟨connId, hconn⟩ := Option.ne_none_iff_exists'.mp hP
    have hmatch := matchPrefix_eq_some.mpr ⟨_, Nat.findGreatest_le _, hconn,
      fun l' hl' hlt => not_not.mp (Nat.findGreatest_is_greatest hlt hl')⟩
    rw [h] at hmatch
    cases hmatch
  · intro h
    cases hm : routes.matchPrefix bytes with
    | none => rfl
    | some connId =>
      obtain ⟨l, hl, hget, -⟩ := matchPrefix_eq_some.mp hm
      rw [h l hl] at hget
      cases hget

end CidRoutes

end SniRouter
