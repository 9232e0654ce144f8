import SniRouter.H3.Router
import SniRouter.Lib.Ledger

/-!
# The abstract path tables

`Paths` is what the router's four maps mean: partial functions from ids to connections, from
connection IDs to their owner, from client and server address to the shared QUIC-LB path, and
from client address to the ids of its connections. `PathStep m k` lists everything a handler
does to them, always at one id `k` and with at most `m` CIDs per connection; `Indexed` says
that the three indexes agree with the connections. Each path step keeps `Indexed`, so every
handler that is a sequence of path steps does.
-/

namespace SniRouter

/-! ## Connections over time -/

/-- What stays the same while a connection lives: its upstream, its client up to
normalization and its creation time. CIDs are only added, and a deadline only moves
earlier. -/
structure Connection.Evolves (c c' : Connection) : Prop where
  upstream : c'.upstream = c.upstream
  client : normalizeSocketAddr c'.clientAddr = normalizeSocketAddr c.clientAddr
  created : c'.created = c.created
  deadline : ∀ d, c.deadline = some d → ∃ d' ≤ d, c'.deadline = some d'
  cids : ∀ cid ∈ c.cids, cid ∈ c'.cids

theorem Connection.Evolves.refl (c : Connection) : c.Evolves c :=
  ⟨rfl, rfl, rfl, fun d hd => ⟨d, le_refl d, hd⟩, fun _ h => h⟩

theorem Connection.Evolves.trans (a b c : Connection) (hab : a.Evolves b) (hbc : b.Evolves c) :
    a.Evolves c where
  upstream := hbc.upstream.trans hab.upstream
  client := hbc.client.trans hab.client
  created := hbc.created.trans hab.created
  deadline := by
    intro d hd
    obtain ⟨d', hd', h'⟩ := hab.deadline d hd
    obtain ⟨d'', hd'', h''⟩ := hbc.deadline d' h'
    exact ⟨d'', hd''.trans hd', h''⟩
  cids := fun cid h => hbc.cids cid (hab.cids cid h)

/-! ## The tables as functions -/

@[ext] structure Paths where
  next : ℕ
  conn : ℕ → Option Connection
  owner : Bytes → Option ℕ
  lb : SocketAddr × SocketAddr → Option ℕ
  clients : SocketAddr → Option (HashSet ℕ)

/-- The meaning of the router's maps. -/
def PathTables.paths (t : PathTables) : Paths where
  next := t.nextConnectionId
  conn := t.connections.lookup
  owner := t.cidRoutes.get
  lb := t.lbPaths.lookup
  clients := t.clientRoutes.lookup

namespace Paths

/-- The connections as a ledger of numbered resources. -/
def ledger (p : Paths) : Ledger Connection := ⟨p.next, p.conn⟩

/-- Connection `k` is listed under the client address `a`. -/
def Lists (p : Paths) (a : SocketAddr) (k : ℕ) : Prop := ∃ ids, p.clients a = some ids ∧ k ∈ ids

/-- The CID index and the client index agree with the connections. -/
structure Owned (p : Paths) : Prop where
  owner_iff : ∀ cid k, p.owner cid = some k ↔
    cid ≠ [] ∧ ∃ c, p.conn k = some c ∧ cid ∈ c.cids
  lists_iff : ∀ a k, p.Lists a k ↔
    ∃ c, p.conn k = some c ∧ normalizeSocketAddr c.clientAddr = a
  clients_nonempty : ∀ a ids, p.clients a = some ids → ∃ k, k ∈ ids
  below : ∀ k c, p.conn k = some c → k < p.next

/-- A shared QUIC-LB path is a connection of that client to that server. -/
def LbIndexed (p : Paths) : Prop :=
  ∀ key k, p.lb key = some k →
    ∃ c, p.conn k = some c ∧ key = (normalizeSocketAddr c.clientAddr, c.upstream)

/-- **Index consistency.** All three indexes agree with the connections. -/
structure Indexed (p : Paths) : Prop extends Owned p where
  lbIndexed : p.LbIndexed

/-- The tables with the connection `c` opened under the id `k`. -/
def opened (p : Paths) (k : ℕ) (c : Connection) (lbKey : Option (SocketAddr × SocketAddr)) :
    Paths where
  next := k + 1
  conn := Function.update p.conn k (some c)
  owner := fun cid => if cid ∈ c.cids then some k else p.owner cid
  lb := match lbKey with
    | some key => Function.update p.lb key (some k)
    | none => p.lb
  clients := Function.update p.clients (normalizeSocketAddr c.clientAddr)
    (some (((p.clients (normalizeSocketAddr c.clientAddr)).getD ∅).insert k))

theorem opened_conn_self (p : Paths) (k : ℕ) (c : Connection)
    (lbKey : Option (SocketAddr × SocketAddr)) : (p.opened k c lbKey).conn k = some c :=
  Function.update_self ..

theorem opened_conn_of_ne (p : Paths) {j k : ℕ} (c : Connection)
    (lbKey : Option (SocketAddr × SocketAddr)) (hj : j ≠ k) :
    (p.opened k c lbKey).conn j = p.conn j :=
  Function.update_of_ne hj ..

theorem opened_lb (p : Paths) (k : ℕ) (c : Connection)
    (lbKey : Option (SocketAddr × SocketAddr)) (key : SocketAddr × SocketAddr) :
    (p.opened k c lbKey).lb key = if lbKey = some key then some k else p.lb key := by
  cases lbKey with
  | none => simp [opened]
  | some key' => simp [opened, Function.update_apply, eq_comm]

end Paths

/-- What a handler does to the tables, at the id `k`, when a connection may have `m` CIDs. -/
inductive PathStep (m k : ℕ) : Paths → Paths → Prop where
  /-- The connection is written back with its CIDs unchanged. -/
  | touch {p : Paths} {c c' : Connection} (hc : p.conn k = some c) (he : c.Evolves c')
      (hcids : c'.cids = c.cids) :
      PathStep m k p { p with conn := Function.update p.conn k (some c') }
  /-- The connection takes a CID that nobody owns. -/
  | learn {p : Paths} {c : Connection} {cid : Bytes} (hc : p.conn k = some c) (hne : cid ≠ [])
      (hfree : p.owner cid = none) (hroom : c.cids.size < m) :
      PathStep m k p { p with
        conn := Function.update p.conn k (some { c with cids := c.cids.insert cid })
        owner := Function.update p.owner cid (some k) }
  /-- The next id is used up without a connection. -/
  | burn {p : Paths} (hk : k = p.next) : PathStep m k p { p with next := p.next + 1 }
  /-- A connection is opened under the next id with CIDs that nobody owns. -/
  | create {p : Paths} {c : Connection} {lbKey : Option (SocketAddr × SocketAddr)}
      (hk : k = p.next) (hcids : ∀ cid ∈ c.cids, cid ≠ [] ∧ p.owner cid = none)
      (hroom : c.cids.size ≤ m)
      (hlb : ∀ key, lbKey = some key →
        key = (normalizeSocketAddr c.clientAddr, c.upstream) ∧ p.lb key = none) :
      PathStep m k p (p.opened k c lbKey)

/-- A sequence of path steps at one id. -/
abbrev PathSteps (m k : ℕ) : Paths → Paths → Prop := Relation.ReflTransGen (PathStep m k)

namespace PathStep

variable {m k : ℕ} {p p' : Paths}

/-! ## One step keeps the indexes -/

/-- A step keeps the owners of the CIDs. -/
theorem owned (h : PathStep m k p p') (hp : p.Owned) : p'.Owned := by
  cases h with
  | @touch c c' hc he hcids =>
    refine ⟨fun cid j => ?_, fun a j => ?_, hp.clients_nonempty, fun j d hd => ?_⟩
    · refine (hp.owner_iff cid j).trans (and_congr_right fun _ => ?_)
      by_cases hj : j = k
      · subst hj
        simp [hc, hcids]
      · simp [Function.update_of_ne hj]
    · refine (hp.lists_iff a j).trans ?_
      by_cases hj : j = k
      · subst hj
        simp [hc, he.client]
      · simp [Function.update_of_ne hj]
    · by_cases hj : j = k
      · subst hj
        exact hp.below j c hc
      · simp only [Function.update_of_ne hj] at hd
        exact hp.below j d hd
  | @learn c cid hc hne hfree hroom =>
    refine ⟨fun cid' j => ?_, fun a j => ?_, hp.clients_nonempty, fun j d hd => ?_⟩
    · by_cases hcid : cid' = cid
      · subst hcid
        simp only [Function.update_self, Option.some.injEq]
        constructor
        · rintro rfl
          exact ⟨hne, _, Function.update_self .., by simp⟩
        · rintro ⟨-, d, hd, hmem⟩
          by_contra hj
          -- another connection that holds the CID would own it
          rw [Function.update_of_ne (Ne.symm hj)] at hd
          have := (hp.owner_iff cid' j).mpr ⟨hne, d, hd, hmem⟩
          rw [hfree] at this
          cases this
      · simp only [Function.update_of_ne hcid]
        refine (hp.owner_iff cid' j).trans (and_congr_right fun _ => ?_)
        by_cases hj : j = k
        · subst hj
          simp [hc, hcid]
        · simp [Function.update_of_ne hj]
    · refine (hp.lists_iff a j).trans ?_
      by_cases hj : j = k
      · subst hj
        simp [hc]
      · simp [Function.update_of_ne hj]
    · by_cases hj : j = k
      · subst hj
        exact hp.below j c hc
      · simp only [Function.update_of_ne hj] at hd
        exact hp.below j d hd
  | burn hk =>
    exact ⟨hp.owner_iff, hp.lists_iff, hp.clients_nonempty,
      fun j d hd => Nat.lt_succ_of_lt (hp.below j d hd)⟩
  | @create c lbKey hk hcids hroom hlb =>
    -- nothing refers to the next id yet
    have hnone : p.conn k = none := by
      cases h : p.conn k with
      | none => rfl
      | some d =>
        have := hp.below k d h
        omega
    refine ⟨fun cid j => ?_, fun a j => ?_, fun a ids hids => ?_, fun j d hd => ?_⟩
    · simp only [Paths.opened]
      by_cases hcid : cid ∈ c.cids
      · obtain ⟨hne, hfree⟩ := hcids cid hcid
        rw [if_pos hcid, Option.some.injEq]
        constructor
        · rintro rfl
          exact ⟨hne, c, Function.update_self .., hcid⟩
        · rintro ⟨-, d, hd, hmem⟩
          by_contra hj
          rw [Function.update_of_ne (Ne.symm hj)] at hd
          have := (hp.owner_iff cid j).mpr ⟨hne, d, hd, hmem⟩
          rw [hfree] at this
          cases this
      · rw [if_neg hcid]
        refine (hp.owner_iff cid j).trans (and_congr_right fun _ => ?_)
        by_cases hj : j = k
        · subst hj
          simp [hnone, hcid]
        · simp [Function.update_of_ne hj]
    · have hold := hp.lists_iff a j
      simp only [Paths.Lists, Paths.opened] at hold ⊢
      by_cases ha : a = normalizeSocketAddr c.clientAddr
      · subst ha
        simp only [Function.update_self, Option.some.injEq, exists_eq_left', HashSet.mem_insert]
        by_cases hj : j = k
        · subst hj
          simp
        · simp only [hj, false_or, Function.update_of_ne hj, ← hold]
          cases hids : p.clients (normalizeSocketAddr c.clientAddr) with
          | none => simp
          | some ids => simp
      · rw [Function.update_of_ne ha, hold]
        by_cases hj : j = k
        · subst hj
          simp only [hnone, reduceCtorEq, false_and, exists_false, Function.update_self,
            Option.some.injEq, exists_eq_left', false_iff]
          exact Ne.symm ha
        · simp [Function.update_of_ne hj]
    · simp only [Paths.opened] at hids
      by_cases ha : a = normalizeSocketAddr c.clientAddr
      · subst ha
        simp only [Function.update_self, Option.some.injEq] at hids
        subst hids
        exact ⟨k, by simp⟩
      · rw [Function.update_of_ne ha] at hids
        exact hp.clients_nonempty a ids hids
    · simp only [Paths.opened] at hd ⊢
      by_cases hj : j = k
      · omega
      · rw [Function.update_of_ne hj] at hd
        have := hp.below j d hd
        omega

/-! ## What one step does to the connections -/

/-- Connections under other ids are left alone. -/
theorem conn_of_ne (h : PathStep m k p p') {j : ℕ} (hj : j ≠ k) : p'.conn j = p.conn j := by
  cases h with
  | touch => exact Function.update_of_ne hj ..
  | learn => exact Function.update_of_ne hj ..
  | burn => rfl
  | create => exact Function.update_of_ne hj ..

/-- A connection only evolves, and a new one gets the next id. -/
theorem grows (h : PathStep m k p p') : Ledger.Grows Connection.Evolves p.ledger p'.ledger := by
  have hother : ∀ j c', j ≠ k → p'.ledger.get j = some c' →
      (∃ c, p.ledger.get j = some c ∧ c.Evolves c') ∨ p.ledger.next ≤ j := by
    intro j c' hj hc'
    rw [show p'.ledger.get j = p.ledger.get j from h.conn_of_ne hj] at hc'
    exact Or.inl ⟨c', hc', .refl c'⟩
  cases h with
  | @touch c c' hc he =>
    refine ⟨le_refl _, fun j d hd => ?_⟩
    by_cases hj : j = k
    · subst hj
      simp only [Paths.ledger, Function.update_self, Option.some.injEq] at hd
      subst hd
      exact Or.inl ⟨c, hc, he⟩
    · exact hother j d hj hd
  | @learn c cid hc =>
    refine ⟨le_refl _, fun j d hd => ?_⟩
    by_cases hj : j = k
    · subst hj
      simp only [Paths.ledger, Function.update_self, Option.some.injEq] at hd
      subst hd
      refine Or.inl ⟨c, hc, ?_⟩
      exact ⟨rfl, rfl, rfl, fun d hd => ⟨d, le_refl d, hd⟩, fun cid h => by simp [h]⟩
    · exact hother j d hj hd
  | burn => exact ⟨Nat.le_succ _, fun j d hd => Or.inl ⟨d, hd, .refl d⟩⟩
  | create hk =>
    refine ⟨by simp [Paths.ledger, Paths.opened, hk], fun j d hd => ?_⟩
    by_cases hj : j = k
    · exact Or.inr (by simp [Paths.ledger, hj, hk])
    · exact hother j d hj hd

/-- A connection that is there stays there. -/
theorem conn_isSome (h : PathStep m k p p') (hp : p.Owned) {j : ℕ} {c : Connection}
    (hc : p.conn j = some c) : ∃ c', p'.conn j = some c' ∧ c.Evolves c' := by
  have hsome : ∃ c', p'.conn j = some c' := by
    by_cases hj : j = k
    · subst hj
      cases h with
      | touch => exact ⟨_, Function.update_self ..⟩
      | learn => exact ⟨_, Function.update_self ..⟩
      | burn => exact ⟨c, hc⟩
      | create => exact ⟨_, Function.update_self ..⟩
    · exact ⟨c, by rw [h.conn_of_ne hj, hc]⟩
  obtain ⟨c', hc'⟩ := hsome
  obtain ⟨d, hd, he⟩ := h.grows.of_lt (hp.below j c hc) hc'
  obtain rfl : d = c := by
    have : p.conn j = some d := hd
    rw [hc] at this
    exact (Option.some.inj this).symm
  exact ⟨c', hc', he⟩

/-- A registered CID keeps its owner. -/
theorem owner_of_some (h : PathStep m k p p') {cid : Bytes} {j : ℕ} (ho : p.owner cid = some j) :
    p'.owner cid = some j := by
  cases h with
  | touch => exact ho
  | @learn c cid' hc hne hfree hroom =>
    have hcid : cid ≠ cid' := by
      rintro rfl
      rw [hfree] at ho
      cases ho
    simpa only [Function.update_of_ne hcid] using ho
  | burn => exact ho
  | @create c lbKey hk hcids =>
    have hcid : cid ∉ c.cids := by
      intro hmem
      rw [(hcids cid hmem).2] at ho
      cases ho
    simpa only [Paths.opened, if_neg hcid] using ho

/-- No connection gets more than `m` CIDs. -/
theorem cids_size_le (h : PathStep m k p p') (hp : ∀ j c, p.conn j = some c → c.cids.size ≤ m)
    {j : ℕ} {c : Connection} (hc : p'.conn j = some c) : c.cids.size ≤ m := by
  by_cases hj : j = k
  · subst hj
    cases h with
    | @touch d c' hd he hcids =>
      simp only [Function.update_self, Option.some.injEq] at hc
      rw [← hc, hcids]
      exact hp j d hd
    | @learn d cid hd hne hfree hroom =>
      simp only [Function.update_self, Option.some.injEq] at hc
      rw [← hc]
      exact (HashSet.size_insert_le d.cids cid).trans hroom
    | burn => exact hp j c hc
    | @create d lbKey hk hcids hroom hlb =>
      simp only [Paths.opened, Function.update_self, Option.some.injEq] at hc
      rw [← hc]
      exact hroom
  · rw [h.conn_of_ne hj] at hc
    exact hp j c hc

theorem indexed (h : PathStep m k p p') (hp : p.Indexed) : p'.Indexed := by
  refine ⟨h.owned hp.toOwned, fun key j hkey => ?_⟩
  have hold : p.lb key = some j →
      ∃ c, p'.conn j = some c ∧ key = (normalizeSocketAddr c.clientAddr, c.upstream) := by
    intro hkey
    obtain ⟨c, hc, rfl⟩ := hp.lbIndexed key j hkey
    obtain ⟨c', hc', he⟩ := h.conn_isSome hp.toOwned hc
    exact ⟨c', hc', by rw [he.client, he.upstream]⟩
  cases h with
  | touch => exact hold hkey
  | learn => exact hold hkey
  | burn => exact hold hkey
  | @create c lbKey hk hcids hroom hlb =>
    cases lbKey with
    | none => exact hold hkey
    | some key' =>
      by_cases hk' : key = key'
      · subst hk'
        simp only [Paths.opened, Function.update_self, Option.some.injEq] at hkey
        subst hkey
        exact ⟨c, Function.update_self .., (hlb key rfl).1⟩
      · simp only [Paths.opened, Function.update_of_ne hk'] at hkey
        exact hold hkey

end PathStep

/-! ## Forgetting a connection -/

namespace Paths

/-- The tables without the connection `c` of id `k`, except for the QUIC-LB index. -/
def forgotten (p : Paths) (k : ℕ) (c : Connection) : Paths where
  next := p.next
  conn := Function.update p.conn k none
  owner := fun cid => if p.owner cid = some k then none else p.owner cid
  lb := p.lb
  clients := match p.clients (normalizeSocketAddr c.clientAddr) with
    | none => p.clients
    | some ids => Function.update p.clients (normalizeSocketAddr c.clientAddr)
        (if (ids.erase k).toList.isEmpty then none else some (ids.erase k))

/-- A set of ids loses `k`, and its entry when it is empty then. -/
theorem lists_forgotten {p : Paths} {k : ℕ} {c : Connection} (hp : p.Owned)
    (hc : p.conn k = some c) (a : SocketAddr) (j : ℕ) :
    (p.forgotten k c).Lists a j ↔ p.Lists a j ∧ j ≠ k := by
  obtain ⟨ids, hids, hk⟩ := (hp.lists_iff _ k).mpr ⟨c, hc, rfl⟩
  have hj : p.Lists a j → j = k → a = normalizeSocketAddr c.clientAddr := by
    rintro hlists rfl
    obtain ⟨d, hd, rfl⟩ := (hp.lists_iff a j).mp hlists
    rw [hc] at hd
    cases hd
    rfl
  simp only [Lists, forgotten, hids]
  by_cases ha : a = normalizeSocketAddr c.clientAddr
  · subst ha
    simp only [Function.update_self, hids, Option.some.injEq, exists_eq_left']
    split
    · rename_i hempty
      have hnone := HashSet.toList_eq_nil_iff.mp (List.isEmpty_iff.mp hempty) j
      simp only [HashSet.mem_erase, not_and] at hnone
      simp only [reduceCtorEq, false_and, exists_false, false_iff, not_and, not_not]
      exact fun hmem => by_contra fun hne => hnone hne hmem
    · simp only [Option.some.injEq, exists_eq_left', HashSet.mem_erase]
      exact and_comm
  · simp only [Function.update_of_ne ha]
    exact ⟨fun h => ⟨h, fun hjk => ha (hj h hjk)⟩, And.left⟩

/-- Forgetting a connection keeps the owners of the CIDs. -/
theorem Owned.forgotten {p : Paths} {k : ℕ} {c : Connection} (hp : p.Owned)
    (hc : p.conn k = some c) : (p.forgotten k c).Owned := by
  -- every index is its old contents restricted to the ids other than `k`
  have hconn : ∀ j d, (p.forgotten k c).conn j = some d ↔ p.conn j = some d ∧ j ≠ k := by
    intro j d
    by_cases hj : j = k
    · simp [Paths.forgotten, hj]
    · simp [Paths.forgotten, hj]
  refine ⟨fun cid j => ?_, fun a j => ?_, fun a ids hids => ?_, fun j d hd => ?_⟩
  · have hold := hp.owner_iff cid j
    simp only [hconn]
    have howner : (p.forgotten k c).owner cid = some j ↔ p.owner cid = some j ∧ j ≠ k := by
      simp only [Paths.forgotten]
      by_cases hk : p.owner cid = some k
      · simp [hk, eq_comm]
      · rw [if_neg hk]
        exact ⟨fun h => ⟨h, fun hj => hk (hj ▸ h)⟩, And.left⟩
    rw [howner, hold]
    tauto
  · rw [lists_forgotten hp hc, hp.lists_iff]
    simp only [hconn]
    tauto
  -- the set of the client is dropped when `k` was its last id
  · cases hold : p.clients (normalizeSocketAddr c.clientAddr) with
    | none =>
      simp only [Paths.forgotten, hold] at hids
      exact hp.clients_nonempty a ids hids
    | some old =>
      simp only [Paths.forgotten, hold] at hids
      by_cases ha : a = normalizeSocketAddr c.clientAddr
      · subst ha
        rw [Function.update_self] at hids
        split at hids
        · cases hids
        · rename_i hne
          cases hids
          exact List.exists_mem_of_ne_nil _ (fun h => hne (by simp [h]))
      · rw [Function.update_of_ne ha] at hids
        exact hp.clients_nonempty a ids hids
  · exact hp.below j d ((hconn j d).mp hd).1

end Paths

/-! ## Sequences of steps -/

namespace PathSteps

variable {m k : ℕ} {p p' : Paths}

theorem indexed (h : PathSteps m k p p') (hp : p.Indexed) : p'.Indexed := by
  induction h with
  | refl => exact hp
  | tail _ hstep ih => exact hstep.indexed ih

theorem conn_of_ne (h : PathSteps m k p p') {j : ℕ} (hj : j ≠ k) : p'.conn j = p.conn j := by
  induction h with
  | refl => rfl
  | tail _ hstep ih => rw [hstep.conn_of_ne hj, ih]

/-- Steps use new ids in order and change connections only as they may evolve. -/
theorem grows (h : PathSteps m k p p') : Ledger.Grows Connection.Evolves p.ledger p'.ledger := by
  induction h with
  | refl => exact .refl Connection.Evolves.refl _
  | tail _ hstep ih => exact ih.trans Connection.Evolves.trans hstep.grows

theorem conn_isSome (h : PathSteps m k p p') (hp : p.Indexed) {j : ℕ} {c : Connection}
    (hc : p.conn j = some c) : ∃ c', p'.conn j = some c' ∧ c.Evolves c' := by
  induction h with
  | refl => exact ⟨c, hc, .refl c⟩
  | tail hsteps hstep ih =>
    obtain ⟨c', hc', he⟩ := ih
    obtain ⟨c'', hc'', he'⟩ := hstep.conn_isSome (PathSteps.indexed hsteps hp).toOwned hc'
    exact ⟨c'', hc'', he.trans _ _ _ he'⟩

theorem cids_size_le (h : PathSteps m k p p') (hp : ∀ j c, p.conn j = some c → c.cids.size ≤ m) :
    ∀ j c, p'.conn j = some c → c.cids.size ≤ m := by
  induction h with
  | refl => exact hp
  | tail _ hstep ih => exact fun j c hc => hstep.cids_size_le ih hc

theorem owner_of_some (h : PathSteps m k p p') {cid : Bytes} {j : ℕ} (ho : p.owner cid = some j) :
    p'.owner cid = some j := by
  induction h with
  | refl => exact ho
  | tail _ hstep ih => exact hstep.owner_of_some ih

end PathSteps

end SniRouter
