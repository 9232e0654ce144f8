import SniRouter.H3.Conservation

/-!
# Expiry is absorbing

A connection that is expired at one time is expired at every later time, and a handler works
on a connection only after it found it live. So an expired connection stays exactly as it is,
and nothing goes through it, until `cleanup` removes it; its id is not used again either.
-/

namespace SniRouter

theorem Connection.expired_mono {c : Connection} {t u : Instant} {idleTimeout : Duration}
    (h : c.expired t idleTimeout = true) (htu : t ≤ u) : c.expired u idleTimeout = true := by
  simp only [expired, Bool.or_eq_true, decide_eq_true_eq, Option.any_eq_true] at h ⊢
  rcases h with hidle | ⟨d, hd, hdeadline⟩
  · exact Or.inl (hidle.trans (Nat.sub_le_sub_right htu _))
  · exact Or.inr ⟨d, hd, hdeadline.trans htu⟩

/-- The clock readings of a step, in the order in which they are made. -/
def Event.reads : Event → List Instant
  | .datagram io _ _ => [io.now₁, io.now₂]
  | .backend io _ _ => [io.now₂]
  | .cleanup now => [now]
  | .setConfig _ => []

namespace Router

/-! ## Connections over a run -/

/-- A cleanup removes connections and changes none. -/
theorem Cleans.grows {now : Instant} {r r' : Router} (h : Cleans now r r') :
    Ledger.Grows Connection.Evolves r.paths.ledger r'.paths.ledger := by
  refine ⟨h.next.ge, fun k c hc => Or.inl ⟨c, ?_, .refl c⟩⟩
  exact ((h.conn k c).mp hc).1

/-- One step changes connections only as they may evolve. -/
theorem step_grows (cr : Crypto) {r : Router} (hr : r.paths.Indexed) (e : Event) :
    Ledger.Grows Connection.Evolves r.paths.ledger (r.step cr e).paths.ledger := by
  rcases cleanup_or_routes cr hr e with ⟨now, rfl⟩ | ⟨k, hroutes⟩
  · exact (cleanup_cleans hr now).grows
  · exact PathSteps.grows hroutes.steps

/-- Over a run ids keep their connection, which only evolves, and are not reused. -/
theorem run_grows (cr : Crypto) {r : Router} (hr : r.paths.Indexed) (es : List Event) :
    Ledger.Grows Connection.Evolves r.paths.ledger (r.run cr es).paths.ledger := by
  induction es generalizing r with
  | nil => exact .refl Connection.Evolves.refl _
  | cons e es ih =>
    exact (step_grows cr hr e).trans Connection.Evolves.trans (ih (step_indexed cr hr e))

/-! ## A dead id -/

/-- The id `k` was handed out, and its connection, if it is still there, is expired at `t`. -/
structure Dead (k : ℕ) (t : Instant) (r : Router) : Prop where
  below : k < r.nextConnectionId
  expired : ∀ c, r.connections.lookup k = some c → c.expired t r.idleTimeout = true

/-- A handler does not work on a dead id. -/
theorem Routes.ne_of_dead {now t : Instant} {j k : ℕ} {r : Router} {reply : Reply}
    (h : Routes now j r reply) (hdead : Dead k t r) (ht : t ≤ now) : j ≠ k := by
  rintro rfl
  rcases h.live with hnext | ⟨c, hc, hlive⟩
  · exact absurd hdead.below (by omega)
  · rw [Connection.expired_mono (hdead.expired c hc) ht] at hlive
    cases hlive

/-- A step at or after `t` leaves a dead connection as it is or, as a cleanup, removes it, and
nothing goes through it. -/
theorem step_dead (cr : Crypto) {r : Router} (hr : r.paths.Indexed) {k : ℕ} {t : Instant}
    (hdead : Dead k t r) {e : Event} (ht : ∀ u ∈ e.reads, t ≤ u) :
    Dead k t (r.step cr e) ∧
      ((r.step cr e).connections.lookup k = r.connections.lookup k ∨
        (∃ now, e = .cleanup now) ∧ (r.step cr e).connections.lookup k = none) ∧
      ∀ s ∈ (r.handle cr e).sends, s.connId ≠ k := by
  have hnext : k < (r.step cr e).nextConnectionId :=
    hdead.below.trans_le (step_grows cr hr e).next_le
  have hidle := (step_settings cr hr e).2
  have hdead' : (r.step cr e).connections.lookup k = r.connections.lookup k ∨
      (r.step cr e).connections.lookup k = none → Dead k t (r.step cr e) := by
    intro hlook
    refine ⟨hnext, fun c hc => ?_⟩
    rw [hidle]
    rcases hlook with hsame | hnone
    · exact hdead.expired c (hsame ▸ hc)
    · rw [hnone] at hc
      cases hc
  -- whatever a handler works on is alive or new, so it is not `k`
  have hother : (∀ now, e ≠ .cleanup now) → t ≤ e.now → Dead k t (r.step cr e) ∧
      ((r.step cr e).connections.lookup k = r.connections.lookup k ∨
        (∃ now, e = .cleanup now) ∧ (r.step cr e).connections.lookup k = none) ∧
      ∀ s ∈ (r.handle cr e).sends, s.connId ≠ k := by
    intro he hnow
    obtain ⟨j, hroutes⟩ := handle_routes cr hr he
    have hne := hroutes.ne_of_dead hdead hnow
    have hsame : (r.step cr e).connections.lookup k = r.connections.lookup k :=
      PathSteps.conn_of_ne hroutes.steps hne.symm
    exact ⟨hdead' (Or.inl hsame), Or.inl hsame, fun s hs => hroutes.sends s hs ▸ hne⟩
  cases e with
  | cleanup now =>
    have hcleans := cleanup_cleans hr now
    have hgone : (r.step cr (.cleanup now)).connections.lookup k = none := by
      cases hc : (r.step cr (.cleanup now)).connections.lookup k with
      | none => rfl
      | some c =>
        obtain ⟨hold, hlive⟩ := (hcleans.conn k c).mp hc
        have hexpired := Connection.expired_mono (hdead.expired c hold)
          (ht now (by simp [Event.reads]))
        rw [hexpired] at hlive
        cases hlive
    exact ⟨hdead' (Or.inr hgone), Or.inr ⟨⟨now, rfl⟩, hgone⟩, nofun⟩
  | setConfig config => exact ⟨hdead' (Or.inl rfl), Or.inl rfl, nofun⟩
  | datagram io peer packet =>
    exact hother (by simp) (ht _ (by simp [Event.reads, Event.now]))
  | backend io i packet =>
    exact hother (by simp) (ht _ (by simp [Event.reads, Event.now]))

/-- A dead connection is unchanged until a cleanup removes it. -/
theorem run_dead (cr : Crypto) {r : Router} (hr : r.paths.Indexed) {k : ℕ} {t : Instant}
    (hdead : Dead k t r) {es : List Event} (ht : ∀ e ∈ es, ∀ u ∈ e.reads, t ≤ u) :
    ((r.run cr es).connections.lookup k = r.connections.lookup k ∨
        (∃ now, .cleanup now ∈ es) ∧ (r.run cr es).connections.lookup k = none) ∧
      ∀ s ∈ sends cr r es, s.connId ≠ k := by
  induction es generalizing r with
  | nil => exact ⟨Or.inl rfl, nofun⟩
  | cons e es ih =>
    obtain ⟨hdead', hlook, hsends⟩ := step_dead cr hr hdead (ht e (by simp))
    obtain ⟨hlook', hsends'⟩ := ih (step_indexed cr hr e) hdead' fun e' he' => ht e' (by simp [he'])
    refine ⟨?_, fun s hs => ?_⟩
    · have hrun : r.run cr (e :: es) = (r.step cr e).run cr es := rfl
      rw [hrun]
      rcases hlook' with hsame' | ⟨⟨now, hnow⟩, hnone⟩
      · rcases hlook with hsame | ⟨⟨now, rfl⟩, hnone⟩
        · exact Or.inl (hsame'.trans hsame)
        · exact Or.inr ⟨⟨now, by simp⟩, hsame'.trans hnone⟩
      · exact Or.inr ⟨⟨now, by simp [hnow]⟩, hnone⟩
    · rcases List.mem_append.mp hs with hs | hs
      · exact hsends s hs
      · exact hsends' s hs

/-- **Expiry is absorbing.** A deadline never moves later. Once a connection is expired, it
stays the same and expired, and nothing goes to its backend or comes back from it, in every
continuation of the run until a cleanup removes it. -/
theorem run_expired (cr : Crypto) (config : Config) (idleTimeout : Duration) (limits : Limits)
    (es₁ es₂ : List Event) (k : ℕ) (c : Connection)
    (hc : ((start config idleTimeout limits).run cr es₁).connections.lookup k = some c) :
    (∀ c', ((start config idleTimeout limits).run cr (es₁ ++ es₂)).connections.lookup k = some c' →
      ∀ d, c.deadline = some d → ∃ d' ≤ d, c'.deadline = some d') ∧
    ∀ t, c.expired t idleTimeout = true → (∀ e ∈ es₂, ∀ u ∈ e.reads, t ≤ u) →
      (∀ u, t ≤ u → c.expired u idleTimeout = true) ∧
      (((start config idleTimeout limits).run cr (es₁ ++ es₂)).connections.lookup k = some c ∨
        (∃ now, .cleanup now ∈ es₂) ∧
          ((start config idleTimeout limits).run cr (es₁ ++ es₂)).connections.lookup k = none) ∧
      ∀ s ∈ sends cr ((start config idleTimeout limits).run cr es₁) es₂, s.connId ≠ k := by
  have hr := run_indexed cr config idleTimeout limits es₁
  have hidle := (run_settings cr config idleTimeout limits es₁).2
  have hrun : (start config idleTimeout limits).run cr (es₁ ++ es₂) =
      ((start config idleTimeout limits).run cr es₁).run cr es₂ := runFrom_append ..
  rw [hrun]
  generalize (start config idleTimeout limits).run cr es₁ = r at *
  have hbelow : k < r.nextConnectionId := hr.below k c hc
  refine ⟨fun c' hc' d hd => ?_, fun t hexp ht => ⟨fun u => Connection.expired_mono hexp, ?_⟩⟩
  · obtain ⟨c₀, hc₀, he⟩ := (run_grows cr hr es₂).of_lt hbelow hc'
    have hc₀ : r.connections.lookup k = some c₀ := hc₀
    rw [hc] at hc₀
    cases hc₀
    exact he.deadline d hd
  · have hdead : Dead k t r := by
      refine ⟨hbelow, fun c' hc' => ?_⟩
      rw [hc] at hc'
      cases hc'
      rw [hidle]
      exact hexp
    rw [← hc]
    exact run_dead cr hr hdead ht

/-- The path of the sample client is expired after 60 units; a datagram for its CID does not
change it then. -/
theorem run_expired_sample : ∃ c, sampleRouter.connections.lookup 0 = some c ∧
    c.expired 60 60 = true ∧ ((start sampleConfig 60 .default).run sampleCrypto
      ([.datagram (sampleIo 0) samplePeer helloPacket] ++
        [.datagram (sampleIo 60) samplePeer (0x40 :: sampleCid)])).connections.lookup 0 =
      some c := by
  have hsome : (sampleRouter.connections.lookup 0).any (fun c => c.expired 60 60) = true := by
    decide +kernel
  obtain ⟨c, hc, hexpired⟩ := (Option.any_eq_true ..).mp hsome
  refine ⟨c, hc, hexpired, ?_⟩
  obtain ⟨-, h | ⟨⟨now, hnow⟩, -⟩, -⟩ := (run_expired sampleCrypto sampleConfig 60 .default
    [.datagram (sampleIo 0) samplePeer helloPacket]
    [.datagram (sampleIo 60) samplePeer (0x40 :: sampleCid)] 0 c hc).2 60 hexpired (by decide)
  · exact h
  · cases List.mem_singleton.mp hnow

end Router

end SniRouter
