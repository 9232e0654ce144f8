import SniRouter.H3.Cleanup

/-!
# Index consistency

The invariant that every step keeps, `Indexed`, read back on the router's own maps: in every
reachable state the CID index, the client index and the QUIC-LB index say exactly what the
connections say. The three lookups that the source makes without a check therefore succeed.
-/

namespace SniRouter

namespace Router

/-! ## One step -/

/-- An event other than a cleanup works at one id. -/
theorem handle_routes (cr : Crypto) {r : Router} (hr : r.paths.Indexed) {e : Event}
    (he : ∀ now, e ≠ .cleanup now) : ∃ k, Routes e.now k r (r.handle cr e) := by
  cases e with
  | datagram io peer packet =>
    obtain ⟨k, h⟩ := (handleDatagram_effect cr io hr peer packet).routes
    exact ⟨k, h.steps, h.live, h.sends, h.gauge, h.noPanic⟩
  | backend io k packet =>
    obtain ⟨j, h⟩ := (handleBackendDatagram_effect cr io hr k packet).routes
    exact ⟨j, h.steps, h.live, h.sends, h.gauge, h.noPanic⟩
  | cleanup now => exact absurd rfl (he now)
  | setConfig config => exact routes_of_paths_eq _ rfl rfl rfl nofun

/-- A step is a cleanup or works at one id. -/
theorem cleanup_or_routes (cr : Crypto) {r : Router} (hr : r.paths.Indexed) (e : Event) :
    (∃ now, e = .cleanup now) ∨ ∃ k, Routes e.now k r (r.handle cr e) := by
  by_cases he : ∃ now, e = .cleanup now
  · exact Or.inl he
  · push Not at he
    exact Or.inr (handle_routes cr hr he)

/-- No event panics while the indexes are consistent. -/
theorem handle_ne_panic (cr : Crypto) {r : Router} (hr : r.paths.Indexed) (e : Event)
    (message : String) : (r.handle cr e).outcome ≠ .panic message := by
  rcases cleanup_or_routes cr hr e with ⟨now, rfl⟩ | ⟨k, hroutes⟩
  · nofun
  · exact hroutes.noPanic message

/-- One step keeps the indexes consistent. -/
theorem step_indexed (cr : Crypto) {r : Router} (hr : r.paths.Indexed) (e : Event) :
    (r.step cr e).paths.Indexed := by
  rcases cleanup_or_routes cr hr e with ⟨now, rfl⟩ | ⟨k, hroutes⟩
  · exact (cleanup_cleans hr now).indexed
  · exact PathSteps.indexed hroutes.steps hr

/-! ## Whole runs -/

theorem start_indexed (config : Config) (idleTimeout : Duration) (limits : Limits) :
    (start config idleTimeout limits).paths.Indexed := by
  refine ⟨⟨fun cid k => ?_, fun a k => ?_, fun a ids h => ?_, fun k c h => ?_⟩, fun key k h => ?_⟩
  · constructor
    · rintro ⟨⟩
    · rintro ⟨-, c, ⟨⟩, -⟩
  · constructor
    · rintro ⟨ids, ⟨⟩, -⟩
    · rintro ⟨c, ⟨⟩, -⟩
  · cases h
  · cases h
  · cases h

/-- A whole run keeps the indexes consistent. -/
theorem run_keeps_indexed (cr : Crypto) {r : Router} (hr : r.paths.Indexed) (es : List Event) :
    (r.run cr es).paths.Indexed :=
  runFrom_invariant (P := fun r : Router => r.paths.Indexed) (A := fun _ => True)
    (fun _ e _ hr => step_indexed cr hr e) es r (fun _ _ => trivial) hr

/-- The indexes of every reachable router are consistent. -/
theorem run_indexed (cr : Crypto) (config : Config) (idleTimeout : Duration) (limits : Limits)
    (es : List Event) : ((start config idleTimeout limits).run cr es).paths.Indexed :=
  run_keeps_indexed cr (start_indexed config idleTimeout limits) es

/-- All three indexes agree with `connections`. -/
structure IndexConsistent (r : Router) : Prop where
  cid_iff : ∀ cid k, r.cidRoutes.get cid = some k ↔
    cid ≠ [] ∧ ∃ c, r.connections.lookup k = some c ∧ cid ∈ c.cids
  client_iff : ∀ a k, (∃ ids, r.clientRoutes.lookup a = some ids ∧ k ∈ ids) ↔
    ∃ c, r.connections.lookup k = some c ∧ normalizeSocketAddr c.clientAddr = a
  client_nonempty : ∀ a ids, r.clientRoutes.lookup a = some ids → ids.toList ≠ []
  lb_entry : ∀ key k, r.lbPaths.lookup key = some k →
    ∃ c, r.connections.lookup k = some c ∧ key = (normalizeSocketAddr c.clientAddr, c.upstream)
  lb_injective : ∀ key key' k, r.lbPaths.lookup key = some k → r.lbPaths.lookup key' = some k →
    key = key'
  below_next : ∀ k c, r.connections.lookup k = some c → k < r.nextConnectionId

/-- The parts of the invariant that the rest of the router relies on. -/
theorem indexConsistent_of_indexed {r : Router} (hr : r.paths.Indexed) : IndexConsistent r where
  cid_iff := hr.owner_iff
  client_iff := hr.lists_iff
  client_nonempty := by
    intro a ids hids
    obtain ⟨k, hk⟩ := hr.clients_nonempty a ids hids
    exact List.ne_nil_of_mem hk
  lb_entry := hr.lbIndexed
  lb_injective := by
    -- both keys are read off the one connection
    intro key key' k hkey hkey'
    obtain ⟨c, hc, rfl⟩ := hr.lbIndexed key k hkey
    obtain ⟨c', hc', rfl⟩ := hr.lbIndexed key' k hkey'
    rw [hc] at hc'
    cases hc'
    rfl
  below_next := hr.below

/-- **Index consistency.** After any events, also ones whose handler returned an error, the
indexes agree with the connections, and no handler of a next event panics. -/
theorem run_indexConsistent (cr : Crypto) (config : Config) (idleTimeout : Duration)
    (limits : Limits) (es : List Event) :
    IndexConsistent ((start config idleTimeout limits).run cr es) ∧
      ∀ e message, (((start config idleTimeout limits).run cr es).handle cr e).outcome ≠
        .panic message :=
  have hr := run_indexed cr config idleTimeout limits es
  ⟨indexConsistent_of_indexed hr, fun e message => handle_ne_panic cr hr e message⟩

end Router

end SniRouter
