import SniRouter.H3.Expiry

/-!
# What stays and what leaves

Two sides of one invariant. While a connection exists it keeps every connection ID that was
registered to it, whatever other handshakes, headers and cleanups do (`run_keepsOwners`). When
`cleanup` removes connections, every index loses exactly what referred to them, so that a
router whose connections and handshakes are all over is left with empty tables
(`run_cleanedExactly`).
-/

namespace SniRouter

namespace Router

/-! ## Ownership of connection IDs -/

/-- From `r` to `r'` no connection that still exists lost a CID. -/
structure KeepsOwners (r r' : Router) : Prop where
  owner : ∀ cid k, r.cidRoutes.get cid = some k → (r'.connections.lookup k).isSome →
    r'.cidRoutes.get cid = some k
  cids : ∀ k c c', r.connections.lookup k = some c → r'.connections.lookup k = some c' →
    ∀ cid ∈ c.cids, cid ∈ c'.cids

/-- Connections that only evolve keep their CIDs, and the index follows the connections. -/
theorem keepsOwners_of_grows {r r' : Router} (hr : r.paths.Indexed) (hr' : r'.paths.Indexed)
    (hgrows : Ledger.Grows Connection.Evolves r.paths.ledger r'.paths.ledger) :
    KeepsOwners r r' := by
  have hcids : ∀ k c c', r.connections.lookup k = some c → r'.connections.lookup k = some c' →
      ∀ cid ∈ c.cids, cid ∈ c'.cids := by
    intro k c c' hc hc'
    -- the id was not handed out again, so `c'` is what became of `c`
    obtain ⟨d, hd, hevolves⟩ := hgrows.of_lt (hr.below k c hc) hc'
    cases hc.symm.trans hd
    exact hevolves.cids
  refine ⟨fun cid k howner hsome => ?_, hcids⟩
  obtain ⟨hne, c, hc, hmem⟩ := (hr.owner_iff cid k).mp howner
  obtain ⟨c', hc'⟩ := Option.isSome_iff_exists.mp hsome
  exact (hr'.owner_iff cid k).mpr ⟨hne, c', hc', hcids k c c' hc hc' cid hmem⟩

/-- **A registered CID keeps its owner.** From every reachable state, no single step and no
further run moves or deletes a CID of a connection that still exists. -/
theorem run_keepsOwners (cr : Crypto) (config : Config) (idleTimeout : Duration)
    (limits : Limits) (es : List Event) :
    (∀ e, KeepsOwners ((start config idleTimeout limits).run cr es)
      (((start config idleTimeout limits).run cr es).step cr e)) ∧
    ∀ fs, KeepsOwners ((start config idleTimeout limits).run cr es)
      (((start config idleTimeout limits).run cr es).run cr fs) := by
  have hr := run_indexed cr config idleTimeout limits es
  constructor
  · intro e
    exact keepsOwners_of_grows hr (step_indexed cr hr e) (step_grows cr hr e)
  · intro fs
    exact keepsOwners_of_grows hr (run_keeps_indexed cr hr fs) (run_grows cr hr fs)

/-! ## Exact cleanup -/

/-- The connection `k` is there and not expired at `now`. -/
def Survives (r : Router) (now : Instant) (k : ℕ) : Prop :=
  ∃ c, r.connections.lookup k = some c ∧ c.expired now r.idleTimeout = false

/-- `r'` is `r` restricted to what is not over at `now`. -/
structure CleanedExactly (now : Instant) (r r' : Router) : Prop where
  connections : ∀ k c, r'.connections.lookup k = some c ↔
    r.connections.lookup k = some c ∧ c.expired now r.idleTimeout = false
  cidRoutes : ∀ cid k, r'.cidRoutes.get cid = some k ↔
    r.cidRoutes.get cid = some k ∧ r.Survives now k
  /-- The lookups of `cidRoutes` see every entry, and no bucket is empty. -/
  buckets : ∀ len bucket, r'.cidRoutes.byLength.lookup len = some bucket →
    bucket.size ≠ 0 ∧ ∀ cid k, bucket.lookup cid = some k → cid.length = len
  clientRoutes : ∀ a k, (∃ ids, r'.clientRoutes.lookup a = some ids ∧ k ∈ ids) ↔
    (∃ ids, r.clientRoutes.lookup a = some ids ∧ k ∈ ids) ∧ r.Survives now k
  clients_nonempty : ∀ a ids, r'.clientRoutes.lookup a = some ids → ids.toList ≠ []
  lbPaths : ∀ key k, r'.lbPaths.lookup key = some k ↔
    r.lbPaths.lookup key = some k ∧ r.Survives now k
  pending : ∀ key p, r'.pending.lookup key = some p ↔ r.pending.lookup key = some p ∧
    now - p.lastSeen < r.pendingTimeout ∧ now - p.created < r.pendingTimeout
  pendingBytes : r'.pendingBytes = r'.pending.total fun _ p => p.bufferedBytes

/-- Nothing is left. -/
structure Emptied (r : Router) : Prop where
  connections : r.connections.size = 0
  cidRoutes : r.cidRoutes.byLength.size = 0
  clientRoutes : r.clientRoutes.size = 0
  lbPaths : r.lbPaths.size = 0
  pending : r.pending.size = 0
  pendingBytes : r.pendingBytes = 0

theorem Cleans.survives_iff {now : Instant} {r r' : Router} (h : Cleans now r r') {k : ℕ} :
    r.Survives now k ↔ ∃ c, r'.connections.lookup k = some c := by
  simp only [Survives, h.conn]

theorem cleanup_cleanedExactly {r : Router} (hr : r.paths.Indexed) (htally : r.buffers.Tallied)
    (now : Instant) : CleanedExactly now r (r.cleanup now) := by
  have h := cleanup_cleans hr now
  have hpending : (r.cleanup now).pending = (r.buffers.expire now).pending :=
    congrArg Buffers.pending h.buffers
  have htally' : (r.cleanup now).buffers.Tallied := h.buffers ▸ htally.expire now
  refine ⟨h.conn, fun cid k => ?_, ?_, fun a k => ?_, fun a ids hids => ?_, fun key k => ?_,
    fun key p => ?_, htally'.bytes⟩
  · -- both indexes list the CIDs of their connections, and these are the same
    refine (h.indexed.owner_iff cid k).trans (Iff.trans ?_
      (and_congr_left fun _ => (hr.owner_iff cid k).symm))
    simp only [h.survives_iff]
    constructor
    · rintro ⟨hne, c, hc, hmem⟩
      exact ⟨⟨hne, c, ((h.conn k c).mp hc).1, hmem⟩, c, hc⟩
    · rintro ⟨⟨hne, c, hc, hmem⟩, c', hc'⟩
      cases hc.symm.trans ((h.conn k c').mp hc').1
      exact ⟨hne, c, hc', hmem⟩
  · intro len bucket hbucket
    exact ⟨(r.cleanup now).cidRoutes.bucketed.filled len bucket hbucket,
      (r.cleanup now).cidRoutes.bucketed.length len bucket hbucket⟩
  -- the same for the clients: a set lists the connections of its client
  · refine (h.indexed.lists_iff a k).trans (Iff.trans ?_
      (and_congr_left fun _ => (hr.lists_iff a k).symm))
    simp only [h.survives_iff]
    constructor
    · rintro ⟨c, hc, ha⟩
      exact ⟨⟨c, ((h.conn k c).mp hc).1, ha⟩, c, hc⟩
    · rintro ⟨⟨c, hc, ha⟩, c', hc'⟩
      cases hc.symm.trans ((h.conn k c').mp hc').1
      exact ⟨c, hc', ha⟩
  · obtain ⟨k, hk⟩ := h.indexed.clients_nonempty a ids hids
    exact List.ne_nil_of_mem hk
  · rw [lookup_lbPaths_cleanup hr, h.survives_iff, Option.isSome_iff_exists]
  · rw [hpending]
    refine Table.lookup_retain_eq_some.trans (and_congr_right fun _ => ?_)
    simp only [Buffers.keeps, decide_eq_true_eq]
    rfl

/-- When nothing survives, the tables are empty: what is left in one would refer to a
connection or handshake that is over. -/
theorem CleanedExactly.emptied {now : Instant} {r r' : Router} (h : CleanedExactly now r r')
    (hconns : ∀ k c, r.connections.lookup k = some c → c.expired now r.idleTimeout = true)
    (hpending : ∀ key p, r.pending.lookup key = some p →
      r.pendingTimeout ≤ now - p.lastSeen ∨ r.pendingTimeout ≤ now - p.created) :
    Emptied r' := by
  -- nothing survives, so an entry of any table would belong to nothing
  have hnone : ∀ k, ¬r.Survives now k := by
    rintro k ⟨c, hc, hlive⟩
    rw [hconns k c hc] at hlive
    cases hlive
  have hpending' : r'.pending.size = 0 := by
    by_contra hsize
    obtain ⟨key, p, hp⟩ := Table.exists_lookup_of_size_ne_zero hsize
    obtain ⟨hold, hidle, hage⟩ := (h.pending key p).mp hp
    rcases hpending key p hold with hover | hover
    · exact absurd hidle (not_lt.mpr hover)
    · exact absurd hage (not_lt.mpr hover)
  refine ⟨?_, ?_, ?_, ?_, hpending', ?_⟩
  · by_contra hsize
    obtain ⟨k, c, hc⟩ := Table.exists_lookup_of_size_ne_zero hsize
    exact hnone k ⟨c, (h.connections k c).mp hc⟩
  · refine CidRoutes.byLength_size_eq_zero fun cid => ?_
    cases howner : r'.cidRoutes.get cid with
    | none => rfl
    | some k => exact absurd ((h.cidRoutes cid k).mp howner).2 (hnone k)
  · by_contra hsize
    obtain ⟨a, ids, hids⟩ := Table.exists_lookup_of_size_ne_zero hsize
    obtain ⟨k, hk⟩ := List.exists_mem_of_ne_nil _ (h.clients_nonempty a ids hids)
    exact hnone k ((h.clientRoutes a k).mp ⟨ids, hids, hk⟩).2
  · by_contra hsize
    obtain ⟨key, k, hkey⟩ := Table.exists_lookup_of_size_ne_zero hsize
    exact hnone k ((h.lbPaths key k).mp hkey).2
  · rw [h.pendingBytes]
    exact Table.total_of_size_eq_zero _ hpending'

/-- **Cleanup is exact.** In every reachable state and at every time, `cleanup` keeps exactly
what is not over, in every table; when everything is over, nothing is left. -/
theorem run_cleanedExactly (cr : Crypto) (config : Config) (idleTimeout : Duration)
    (limits : Limits) (es : List Event) (now : Instant) :
    CleanedExactly now ((start config idleTimeout limits).run cr es)
      (((start config idleTimeout limits).run cr es).cleanup now) ∧
    ((∀ k c, ((start config idleTimeout limits).run cr es).connections.lookup k = some c →
        c.expired now idleTimeout = true) →
      (∀ key p, ((start config idleTimeout limits).run cr es).pending.lookup key = some p →
        ((start config idleTimeout limits).run cr es).pendingTimeout ≤ now - p.lastSeen ∨
          ((start config idleTimeout limits).run cr es).pendingTimeout ≤ now - p.created) →
      Emptied (((start config idleTimeout limits).run cr es).cleanup now)) := by
  have hexact := cleanup_cleanedExactly (run_indexed cr config idleTimeout limits es)
    (run_tallied cr config idleTimeout limits es) now
  refine ⟨hexact, fun hconns hpending => hexact.emptied ?_ hpending⟩
  rw [(run_settings cr config idleTimeout limits es).2]
  exact hconns

/-- A handshake that has only begun, and the path of another client. -/
theorem run_cleanedExactly_over :
    let es := [.datagram (sampleIo 0) samplePeer headerPacket,
      .datagram (sampleIo 0) otherPeer helloPacket]
    let r := (start sampleConfig 60 .default).run sampleCrypto es
    r.connections.size = 1 ∧ r.pending.size = 1 ∧ Emptied (r.cleanup 60) := by
  intro es r
  have hconns : r.connections.toList.all (fun e => e.2.expired 60 60) = true := by
    decide +kernel
  have hpending : r.pending.toList.all (fun e => decide (r.pendingTimeout ≤ 60 - e.2.lastSeen)) =
      true := by decide +kernel
  refine ⟨by decide +kernel, by decide +kernel,
    (run_cleanedExactly sampleCrypto sampleConfig 60 .default es 60).2 (fun k c hc => ?_)
      fun key p hp => ?_⟩
  · exact List.all_eq_true.mp hconns (k, c) (Table.mem_toList.mpr hc)
  · exact Or.inl (of_decide_eq_true
      (List.all_eq_true.mp hpending (key, p) (Table.mem_toList.mpr hp)))

end Router

end SniRouter
