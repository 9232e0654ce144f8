import SniRouter.H3.Dispatch

/-!
# Cleanup

`cleanup` forgets the connections that are expired, one after the other, then drops the
QUIC-LB entries that point nowhere, then the handshakes that timed out. While connections
are being forgotten the QUIC-LB index lags behind, so only `Owned` holds in between.
-/

namespace SniRouter

namespace Router

/-! ## Forgetting connections -/

/-- Removing the CIDs of the connection `k` leaves those that others own. -/
theorem get_foldl_remove (k : ℕ) (cids : List Bytes) (routes : CidRoutes) (cid : Bytes) :
    (cids.foldl (fun routes cid =>
      if routes.get cid = some k then (routes.remove cid).1 else routes) routes).get cid =
      if cid ∈ cids ∧ routes.get cid = some k then none else routes.get cid := by
  induction cids generalizing routes with
  | nil => simp
  | cons cid' cids ih =>
    rw [List.foldl_cons, ih]
    by_cases hk : routes.get cid' = some k
    · rw [if_pos hk]
      simp only [CidRoutes.get_remove, List.mem_cons]
      by_cases hcid : cid = cid'
      · subst hcid
        simp [hk]
      · simp [hcid]
    · simp only [if_neg hk, List.mem_cons]
      by_cases hcid : cid = cid'
      · subst hcid
        simp [hk]
      · simp [hcid]

/-- `forget` takes a connection out of every index. -/
theorem forget_paths {r : Router} {k : ℕ} {c : Connection} (hr : r.paths.Owned)
    (hc : r.connections.lookup k = some c) : (r.forget k).paths = r.paths.forgotten k c := by
  simp only [forget, hc]
  ext1
  case next => rfl
  case conn =>
    funext j
    simp only [PathTables.paths, Paths.forgotten, Table.lookup_erase, Function.update_apply]
  case owner =>
    funext cid
    have hget := get_foldl_remove k c.cids.toList r.cidRoutes cid
    refine hget.trans ?_
    -- everything that `k` owns is in its set
    have hmem : r.cidRoutes.get cid = some k → cid ∈ c.cids.toList := by
      intro h
      obtain ⟨-, d, hd, hmem⟩ := (hr.owner_iff cid k).mp h
      have hd : r.connections.lookup k = some d := hd
      rw [hc] at hd
      cases hd
      exact hmem
    exact if_congr ⟨And.right, fun h => ⟨hmem h, h⟩⟩ rfl rfl
  case lb => rfl
  case clients =>
    simp only [PathTables.paths, Paths.forgotten]
    cases r.clientRoutes.lookup (normalizeSocketAddr c.clientAddr) with
    | none => rfl
    | some ids =>
      funext a
      dsimp only
      split <;> simp only [Table.lookup_erase, Table.lookup_insert, Function.update_apply]

/-- What forgetting the connections `ids` does to the state. -/
structure Forgets (ids : List ℕ) (r r' : Router) : Prop where
  owned : r'.paths.Owned
  conn : ∀ j, r'.connections.lookup j = if j ∈ ids then none else r.connections.lookup j
  lb : r'.lbPaths = r.lbPaths
  next : r'.nextConnectionId = r.nextConnectionId
  buffers : r'.buffers = r.buffers
  dropTotal : r'.metrics.dropTotal = r.metrics.dropTotal
  gauge : r'.pathGaugeError = r.pathGaugeError
  size : r'.connections.size ≤ r.connections.size

/-- Forgetting one connection. -/
theorem forget_forgets {r : Router} (hr : r.paths.Owned) (k : ℕ) :
    Forgets [k] r (r.forget k) := by
  cases hc : r.connections.lookup k with
  | none =>
    have heq : r.forget k = r := by simp only [forget, hc]
    rw [heq]
    refine ⟨hr, fun j => ?_, rfl, rfl, rfl, rfl, rfl, le_refl _⟩
    by_cases hj : j = k <;> simp [hj, hc]
  | some c =>
    have hsize := Table.size_erase_of_lookup_some hc
    have howned := hr.forgotten hc
    rw [← forget_paths hr hc] at howned
    refine ⟨howned, fun j => ?_, ?_, ?_, ?_, ?_, ?_, ?_⟩
    all_goals simp only [forget, hc]
    · simp [Table.lookup_erase]
    · rfl
    · rfl
    · simp only [pathGaugeError, ← hsize]
      push_cast
      ring
    · omega

/-- Forgetting several, by induction on their ids. -/
theorem foldl_forget_forgets {r : Router} (hr : r.paths.Owned) (ids : List ℕ) :
    Forgets ids r (ids.foldl forget r) := by
  induction ids generalizing r with
  | nil => exact ⟨hr, by simp, rfl, rfl, rfl, rfl, rfl, le_refl _⟩
  | cons k ids ih =>
    have hone := forget_forgets hr k
    have hrest := ih hone.owned
    refine ⟨hrest.owned, fun j => ?_, hrest.lb.trans hone.lb, hrest.next.trans hone.next,
      hrest.buffers.trans hone.buffers, hrest.dropTotal.trans hone.dropTotal,
      hrest.gauge.trans hone.gauge, hrest.size.trans hone.size⟩
    rw [List.foldl_cons, hrest.conn, hone.conn]
    by_cases hj : j = k <;> simp [hj]

/-- The ids of the connections that are expired at `now`. -/
def expiredIds (r : Router) (now : Instant) : List ℕ :=
  (r.connections.toList.filter fun e => e.2.expired now r.idleTimeout).map Prod.fst

/-- The ids that `cleanup` collects are those of the expired connections. -/
theorem mem_expiredIds {r : Router} {now : Instant} {k : ℕ} :
    k ∈ r.expiredIds now ↔
      ∃ c, r.connections.lookup k = some c ∧ c.expired now r.idleTimeout = true := by
  simp only [expiredIds, List.mem_map, List.mem_filter, Prod.exists, exists_and_right,
    exists_eq_right, Table.mem_toList]

/-- The first half of `cleanup`: the connections `ids` are forgotten and the QUIC-LB index is
repaired. -/
def withoutPaths (r : Router) (ids : List ℕ) : Router :=
  { ids.foldl forget r with
    lbPaths := (ids.foldl forget r).lbPaths.retain fun _ id =>
      ((ids.foldl forget r).connections.lookup id).isSome }

/-- Removing paths keeps the indexes consistent. -/
theorem withoutPaths_indexed {r : Router} (hr : r.paths.Indexed) (ids : List ℕ) :
    (r.withoutPaths ids).paths.Indexed := by
  have hf := foldl_forget_forgets hr.toOwned ids
  refine ⟨⟨hf.owned.owner_iff, hf.owned.lists_iff, hf.owned.clients_nonempty, hf.owned.below⟩,
    fun key k hkey => ?_⟩
  have hkey : (r.withoutPaths ids).lbPaths.lookup key = some k := hkey
  obtain ⟨hlb, hsome⟩ := Table.lookup_retain_eq_some.mp hkey
  rw [hf.lb] at hlb
  obtain ⟨c, hc, rfl⟩ := exists_of_lbPaths hr hlb
  refine ⟨c, ?_, rfl⟩
  -- the entry was kept because the connection was
  have hconn := hf.conn k
  split at hconn
  · rw [hconn] at hsome
    cases hsome
  · exact hconn.trans hc

/-- The connections that remain are those that have not expired. -/
theorem lookup_withoutPaths_expired {r : Router} (hr : r.paths.Indexed) (now : Instant) (k : ℕ)
    (c : Connection) : (r.withoutPaths (r.expiredIds now)).connections.lookup k = some c ↔
      r.connections.lookup k = some c ∧ c.expired now r.idleTimeout = false := by
  have hconn : (r.withoutPaths (r.expiredIds now)).connections.lookup k = _ :=
    (foldl_forget_forgets hr.toOwned (r.expiredIds now)).conn k
  rw [hconn]
  split
  · rename_i hmem
    obtain ⟨d, hd, hexp⟩ := mem_expiredIds.mp hmem
    rw [hd]
    constructor
    · rintro ⟨⟩
    · rintro ⟨⟨⟩, hlive⟩
      rw [hexp] at hlive
      cases hlive
  · rename_i hmem
    refine ⟨fun hc => ⟨hc, ?_⟩, And.left⟩
    by_contra hexp
    exact hmem (mem_expiredIds.mpr ⟨c, hc, by simpa using hexp⟩)

end Router

/-! ## Handshakes that time out -/

namespace Buffers

/-- A handshake that is kept at `now`. -/
def keeps (b : Buffers) (now : Instant) (pending : PendingConnection) : Bool :=
  let timeout := min (b.config.handshakeTimeout.getD b.idleTimeout) b.idleTimeout
  now - pending.lastSeen < timeout ∧ now - pending.created < timeout

/-- The handshakes that are dropped at `now`. -/
def timedOut (b : Buffers) (now : Instant) : List PendingConnection :=
  (b.pending.toList.filter fun e => !b.keeps now e.2).map Prod.snd

/-- The buffers without the handshakes that timed out. -/
def expire (b : Buffers) (now : Instant) : Buffers :=
  let kept := b.pending.retain fun _ pending => b.keeps now pending
  let bytes := b.pendingBytes - ((b.timedOut now).map fun p => p.bufferedBytes).sum
  { b with
    pending := kept
    pendingBytes := bytes
    pendingGauge := kept.size
    pendingBytesGauge := bytes }

end Buffers

namespace Router

/-- The second half of `cleanup`. -/
def expirePending (r : Router) (now : Instant) : Router :=
  let timedOut := r.pending.toList.filter fun e => !r.keepPending now e.2
  let kept := r.pending.retain fun _ pending => r.keepPending now pending
  let r := (timedOut.map Prod.snd).foldl dropPending { r with pending := kept }
  { r with metrics := { r.metrics with pending := kept.size, pendingBytes := r.pendingBytes } }

/-- `cleanup` removes the expired paths, then the handshakes that timed out. -/
theorem cleanup_eq (r : Router) (now : Instant) :
    r.cleanup now = (r.withoutPaths (r.expiredIds now)).expirePending now := rfl

/-- `r'` is `r` with the handshakes `ps` counted as dropped. -/
structure DropsPending (ps : List PendingConnection) (r r' : Router) : Prop where
  tables : r'.toPathTables = r.toPathTables
  gauge : r'.pathGaugeError = r.pathGaugeError
  dropTotal : r'.metrics.dropTotal =
    r.metrics.dropTotal + (ps.map fun p => p.datagrams.length).sum
  buffers : r'.buffers = { r.buffers with
    pendingBytes := r.pendingBytes - (ps.map fun p => p.bufferedBytes).sum }

/-- Dropping handshakes gives their bytes back and counts their datagrams. -/
theorem foldl_dropPending (r : Router) (ps : List PendingConnection) :
    DropsPending ps r (ps.foldl dropPending r) := by
  induction ps generalizing r with
  | nil => exact ⟨rfl, rfl, rfl, rfl⟩
  | cons p ps ih =>
    obtain ⟨htables, hgauge, hdrops, hbuffers⟩ := ih (r.dropPending p)
    refine ⟨htables, hgauge, ?_, ?_⟩
    · rw [List.foldl_cons, hdrops, dropPending, dropTotal_dropped, List.map_cons, List.sum_cons,
        Nat.add_assoc]
    · rw [List.foldl_cons, hbuffers, List.map_cons, List.sum_cons, Nat.sub_add_eq]
      rfl

/-- Dropping the handshakes that timed out does not touch the paths. -/
theorem expirePending_spec (r : Router) (now : Instant) :
    (r.expirePending now).toPathTables = r.toPathTables ∧
      (r.expirePending now).pathGaugeError = r.pathGaugeError ∧
      (r.expirePending now).metrics.dropTotal = r.metrics.dropTotal +
        ((r.buffers.timedOut now).map fun p => p.datagrams.length).sum ∧
      (r.expirePending now).buffers = r.buffers.expire now := by
  obtain ⟨htables, hgauge, hdrops, hbuffers⟩ := foldl_dropPending
    { r with pending := r.pending.retain fun _ pending => r.keepPending now pending }
    (r.buffers.timedOut now)
  refine ⟨htables, hgauge, hdrops, ?_⟩
  refine (congrArg (fun b : Buffers => { b with
    pendingGauge := ((r.pending.retain fun _ pending => r.keepPending now pending).size : ℤ)
    pendingBytesGauge := (b.pendingBytes : ℤ) }) hbuffers).trans ?_
  rfl

/-! ## The whole cleanup -/

/-- What `cleanup` does at `now`: the expired connections leave, the others stay as they are,
and the handshakes that timed out are counted as dropped. -/
structure Cleans (now : Instant) (r r' : Router) : Prop where
  indexed : r'.paths.Indexed
  conn : ∀ k c, r'.connections.lookup k = some c ↔
    r.connections.lookup k = some c ∧ c.expired now r.idleTimeout = false
  next : r'.nextConnectionId = r.nextConnectionId
  gauge : r'.pathGaugeError = r.pathGaugeError
  size : r'.connections.size ≤ r.connections.size
  dropTotal : r'.metrics.dropTotal =
    r.metrics.dropTotal + ((r.buffers.timedOut now).map fun p => p.datagrams.length).sum
  buffers : r'.buffers = r.buffers.expire now

/-- `cleanup` removes what has expired, and nothing else. -/
theorem cleanup_cleans {r : Router} (hr : r.paths.Indexed) (now : Instant) :
    Cleans now r (r.cleanup now) := by
  have hf := foldl_forget_forgets hr.toOwned (r.expiredIds now)
  have hbuffers : (r.withoutPaths (r.expiredIds now)).buffers = r.buffers := hf.buffers
  obtain ⟨htables, hgauge, hdrops, hbuf⟩ :=
    expirePending_spec (r.withoutPaths (r.expiredIds now)) now
  rw [hbuffers] at hdrops hbuf
  rw [cleanup_eq]
  refine ⟨?_, fun k c => ?_, ?_, hgauge.trans hf.gauge, ?_, ?_, hbuf⟩
  · rw [htables]
    exact withoutPaths_indexed hr _
  · rw [htables]
    exact lookup_withoutPaths_expired hr now k c
  · rw [htables]
    exact hf.next
  · rw [htables]
    exact hf.size
  · exact hdrops.trans (congrArg (· + _) hf.dropTotal)

/-- The QUIC-LB entries that are kept are those of the connections that are kept. -/
theorem lookup_lbPaths_cleanup {r : Router} (hr : r.paths.Indexed) (now : Instant)
    (key : SocketAddr × SocketAddr) (k : ℕ) :
    (r.cleanup now).lbPaths.lookup key = some k ↔
      r.lbPaths.lookup key = some k ∧ ((r.cleanup now).connections.lookup k).isSome := by
  have hf := foldl_forget_forgets hr.toOwned (r.expiredIds now)
  have htables := (expirePending_spec (r.withoutPaths (r.expiredIds now)) now).1
  rw [cleanup_eq, htables, ← hf.lb]
  exact Table.lookup_retain_eq_some

end Router

end SniRouter
