import SniRouter.H3.Expiry

/-!
# Peer affinity and other clients

What one client sends, and what the servers answer to it, leaves the connections of another
client alone (`Spares`), but not the registered CIDs: a short header does not tell the length
of its CID, so it is matched by the longest registered prefix, whoever registered it. A
short-header datagram therefore keeps its way exactly as long as no CID that is registered
meanwhile matches more of it.
-/

namespace SniRouter

/-! ## Frame -/

/-- Between the tables `p` and `p'` the connections of the client `a` stay, and get no CIDs. -/
structure Spares (a : SocketAddr) (p p' : Paths) : Prop where
  conn_iff : ∀ k c, normalizeSocketAddr c.clientAddr = a → (p'.conn k = some c ↔ p.conn k = some c)
  owner : ∀ cid k, p.owner cid = some k → p'.owner cid = some k
  learned : ∀ cid k c, p'.owner cid = some k → p'.conn k = some c →
    normalizeSocketAddr c.clientAddr = a → p.owner cid = some k

theorem Spares.refl (a : SocketAddr) (p : Paths) : Spares a p p :=
  ⟨fun _ _ _ => Iff.rfl, fun _ _ h => h, fun _ _ _ h _ _ => h⟩

theorem Spares.trans {a : SocketAddr} {p p' p'' : Paths} (h : Spares a p p')
    (h' : Spares a p' p'') : Spares a p p'' := by
  refine ⟨fun k c hc => (h'.conn_iff k c hc).trans (h.conn_iff k c hc),
    fun cid k ho => h'.owner cid k (h.owner cid k ho), fun cid k c ho hconn hc => ?_⟩
  exact h.learned cid k c (h'.learned cid k c ho hconn hc) ((h'.conn_iff k c hc).mp hconn) hc

/-- A step gives CIDs to the connection it works at only. -/
theorem PathStep.owner_or {m k : ℕ} {p p' : Paths} (h : PathStep m k p p') {cid : Bytes} {j : ℕ}
    (ho : p'.owner cid = some j) : p.owner cid = some j ∨ j = k := by
  cases h with
  | touch => exact Or.inl ho
  | @learn _ cid' _ _ _ _ =>
    dsimp only at ho
    by_cases hcid : cid = cid'
    · subst hcid
      rw [Function.update_self] at ho
      exact Or.inr (Option.some.inj ho).symm
    · rw [Function.update_of_ne hcid] at ho
      exact Or.inl ho
  | burn => exact Or.inl ho
  | create =>
    simp only [Paths.opened] at ho
    split at ho
    · exact Or.inr (Option.some.inj ho).symm
    · exact Or.inl ho

/-- So do several. -/
theorem PathSteps.owner_or {m k : ℕ} {p p' : Paths} (h : PathSteps m k p p') {cid : Bytes}
    {j : ℕ} (ho : p'.owner cid = some j) : p.owner cid = some j ∨ j = k := by
  induction h with
  | refl => exact Or.inl ho
  | tail _ hstep ih =>
    rcases hstep.owner_or ho with ho | hj
    · exact ih ho
    · exact Or.inr hj

/-- Steps at a connection that is not one of the client spare the client. -/
theorem PathSteps.spares {m k : ℕ} {p p' : Paths} (h : PathSteps m k p p') (hp : p.Indexed)
    {a : SocketAddr} (hother : ∀ c, p'.conn k = some c → normalizeSocketAddr c.clientAddr ≠ a) :
    Spares a p p' := by
  have hne : ∀ j c, p.conn j = some c → normalizeSocketAddr c.clientAddr = a → j ≠ k := by
    rintro j c hc ha rfl
    obtain ⟨c', hc', he⟩ := PathSteps.conn_isSome h hp hc
    exact hother c' hc' (he.client.trans ha)
  refine ⟨fun j c ha => ⟨fun hc => ?_, fun hc => ?_⟩, fun cid j => PathSteps.owner_of_some h,
    fun cid j c ho hc ha => ?_⟩
  · rw [← PathSteps.conn_of_ne h (by rintro rfl; exact hother c hc ha)]
    exact hc
  · rw [PathSteps.conn_of_ne h (hne j c hc ha)]
    exact hc
  · rcases PathSteps.owner_or h ho with ho | rfl
    · exact ho
    · exact absurd ha (hother c hc)

/-- The event is not one of the client `a`, nor a reply on its connection `k`. -/
def Event.IsOther (a : SocketAddr) (k : ℕ) : Event → Prop
  | .datagram _ peer _ => normalizeSocketAddr peer ≠ a
  | .backend _ j _ => j ≠ k
  | _ => False

theorem Event.IsOther.ne_setConfig {a : SocketAddr} {k : ℕ} {e : Event} (h : e.IsOther a k)
    (config : Config) : e ≠ .setConfig config := by
  rintro rfl
  exact h

namespace Router

/-! ## One step of somebody else -/

/-- A handler works at one id, whose connection is one of the client `a` afterwards. -/
def ActsFor (a : SocketAddr) (r r' : Router) : Prop :=
  ∃ m k, PathSteps m k r.paths r'.paths ∧
    ∀ c, r'.connections.lookup k = some c → normalizeSocketAddr c.clientAddr = a

theorem actsFor_of_paths_eq (a : SocketAddr) {r r' : Router} (hr : r.paths.Indexed)
    (hpaths : r'.paths = r.paths) : ActsFor a r r' := by
  refine ⟨0, r.nextConnectionId, by rw [hpaths], fun c hc => ?_⟩
  have hc : r'.paths.conn r.nextConnectionId = some c := hc
  rw [hpaths] at hc
  exact absurd (hr.below _ c hc) (lt_irrefl _)

theorem ActsOn.actsFor {k : ℕ} {r r' : Router} (h : ActsOn k r r') (hr : r.paths.Indexed)
    {c : Connection} (hc : r.connections.lookup k = some c) {a : SocketAddr}
    (ha : normalizeSocketAddr c.clientAddr = a) : ActsFor a r r' := by
  refine ⟨_, k, h.steps, fun c' hc' => ?_⟩
  obtain ⟨c'', hc'', he⟩ := PathSteps.conn_isSome h.steps hr hc
  cases hc''.symm.trans hc'
  exact he.client.trans ha

/-- A handshake acts for its client. -/
theorem EstablishEffect.actsFor {io : Io} {r : Router} {pending : PendingConnection}
    {route : Route} {reply : Reply} (h : EstablishEffect io r pending route reply)
    (hr : r.paths.Indexed) : ActsFor (normalizeSocketAddr pending.clientAddr) r reply.router := by
  cases h with
  | refuse hdrops => exact actsFor_of_paths_eq _ hr hdrops.paths
  | share hroute hc hclient hupstream hlive hacts => exact hacts.actsFor hr hc hclient
  | fail =>
    refine ⟨0, r.nextConnectionId, .single (PathStep.burn rfl), fun c hc => ?_⟩
    exact absurd (hr.below _ c hc) (lt_irrefl _)
  | @create addr upstream cids lbKey r' message hroute hupstream hroom hopens =>
    refine ⟨_, r.nextConnectionId, .single hopens.step, fun c hc => ?_⟩
    cases hopens.lookup_next.symm.trans hc
    rfl

/-- A client datagram makes the router work for that client only. -/
theorem handleDatagram_actsFor (cr : Crypto) {es : List Event} {r : Router}
    (hr : r.paths.Indexed) (hcollected : AllCollected cr es r) (io : Io) (peer : SocketAddr)
    (packet : Bytes) :
    ActsFor (normalizeSocketAddr peer) r (r.step cr (.datagram io peer packet)) := by
  have heffect := handleDatagram_effect cr io hr peer packet
  simp only [step, handle]
  generalize handleDatagram .. = reply at heffect
  cases heffect with
  | drop reason => exact actsFor_of_paths_eq _ hr rfl
  | forward hc hpeer hlive hacts => exact hacts.actsFor hr hc hpeer.symm
  | tooLong => exact actsFor_of_paths_eq _ hr rfl
  | decoded hlong haddr heffect => exact heffect.actsFor hr
  | @initial decrypted frames _ hdecrypt hframes hfree hlb heffect =>
    cases heffect with
    | drop => exact actsFor_of_paths_eq _ hr rfl
    | discard hrefused hreleases => exact actsFor_of_paths_eq _ hr hreleases.paths
    | wait => exact actsFor_of_paths_eq _ hr rfl
    | unroutable haccepts hhello hreleases => exact actsFor_of_paths_eq _ hr hreleases.paths
    | routed haccepts hhello hreleases hroute heffect =>
      have hcollected' : AllCollected cr es (r.receivedClient packet.length) := hcollected
      have hkey : (normalizeSocketAddr peer, decrypted.dcid).1 = normalizeSocketAddr peer := rfl
      obtain ⟨items, -, hentry⟩ := entry_collects hcollected' hkey io.now₁
      obtain ⟨m, k, hsteps, hclient⟩ := heffect.actsFor (hreleases.paths ▸ hr)
      rw [hreleases.paths] at hsteps
      exact ⟨m, k, hsteps, fun c hc => (hclient c hc).trans hentry.client⟩

/-- Apart from `k`, every connection of the client `a` is expired at `t`. -/
def OnlyLive (a : SocketAddr) (k : ℕ) (t : Instant) (r : Router) : Prop :=
  ∀ j c, r.connections.lookup j = some c → normalizeSocketAddr c.clientAddr = a → j ≠ k →
    c.expired t r.idleTimeout = true

/-- An event of others leaves the paths of the client alone. -/
theorem step_spares (cr : Crypto) {es : List Event} {r : Router} (hr : r.paths.Indexed)
    (hcollected : AllCollected cr es r) {a : SocketAddr} {k : ℕ} {t : Instant}
    (honly : OnlyLive a k t r) {e : Event} (he : e.IsOther a k) (ht : ∀ u ∈ e.reads, t ≤ u) :
    Spares a r.paths (r.step cr e).paths := by
  cases e with
  | datagram io peer packet =>
    obtain ⟨m, j, hsteps, hclient⟩ := handleDatagram_actsFor cr hr hcollected io peer packet
    exact PathSteps.spares hsteps hr fun c hc ha => he ((hclient c hc).symm.trans ha)
  | backend io j packet =>
    have heffect := handleBackendDatagram_effect cr io hr j packet
    simp only [step, handle]
    generalize handleBackendDatagram .. = reply at heffect
    -- a connection of the client other than `k` is expired, so nothing is done with it
    have hacts : ∀ {c : Connection} {r' : Router}, r.connections.lookup j = some c →
        c.expired io.now₂ r.idleTimeout = false →
        ActsOn j (r.receivedBackend packet.length) r' → Spares a r.paths r'.paths := by
      intro c r' hc hlive hacts
      obtain ⟨m, j', hsteps, hclient⟩ := hacts.actsFor hr hc rfl
      refine PathSteps.spares hsteps hr fun c' hc' ha => ?_
      have hexpired := honly j c hc ((hclient c' hc').symm.trans ha) he
      rw [Connection.expired_mono hexpired (ht io.now₂ (by simp [Event.reads]))] at hlive
      cases hlive
    cases heffect with
    | drop => exact .refl ..
    | fail hc hlive hacts' => exact hacts hc hlive hacts'
    | reply hc hlive hdest hacts' => exact hacts hc hlive hacts'
  | cleanup now => exact he.elim
  | setConfig config => exact he.elim

/-- What others do leaves the connections of a client alone, and the configuration. -/
theorem run_spares (cr : Crypto) (config : Config) (idleTimeout : Duration) (limits : Limits)
    {es : List Event} {r : Router} (hr : r = (start config idleTimeout limits).run cr es)
    {a : SocketAddr} {k : ℕ} {t : Instant} (honly : OnlyLive a k t r) {es' : List Event}
    (hothers : ∀ e ∈ es', e.IsOther a k) (ht : ∀ e ∈ es', ∀ u ∈ e.reads, t ≤ u) :
    Spares a r.paths (r.run cr es').paths ∧ OnlyLive a k t (r.run cr es') ∧
      (r.run cr es').config = r.config := by
  induction es' using List.reverseRecOn with
  | nil => exact ⟨.refl .., honly, rfl⟩
  | append_singleton es' e ih =>
    obtain ⟨hspares, honly', hconfig⟩ := ih (fun e he => hothers e (by simp [he]))
      (fun e he => ht e (by simp [he]))
    have hall : r.run cr es' = (start config idleTimeout limits).run cr (es ++ es') := by
      rw [hr]
      exact (runFrom_append ..).symm
    have hindexed : (r.run cr es').paths.Indexed :=
      hall ▸ run_indexed cr config idleTimeout limits _
    have hcollected : AllCollected cr (es ++ es') (r.run cr es') :=
      hall ▸ run_collected cr config idleTimeout limits _
    have hstep := step_spares cr hindexed hcollected honly' (hothers e (by simp))
      (ht e (by simp))
    have hrun : r.run cr (es' ++ [e]) = (r.run cr es').step cr e := runFrom_concat ..
    rw [hrun]
    refine ⟨hspares.trans hstep, fun j c hc ha hj => ?_, ?_⟩
    · rw [(step_settings cr hindexed e).2]
      exact honly' j c ((hstep.conn_iff j c ha).mp hc) ha hj
    · rw [step_config cr hindexed (hothers e (by simp)).ne_setConfig, hconfig]

/-! ## Short headers -/

/-- The datagram is handed to the server of the connection `k`. -/
def Forwards (cr : Crypto) (r : Router) (io : Io) (peer : SocketAddr) (packet : Bytes) (k : ℕ) :
    Prop :=
  ∃ ok, .backend k packet ok ∈ (r.handleDatagram cr io peer packet).sends

/-- The connection `k` is one of the client, and it is live where it is used. -/
def Usable (r : Router) (io : Io) (peer : SocketAddr) (k : ℕ) : Prop :=
  ∃ c, r.connections.lookup k = some c ∧
    normalizeSocketAddr c.clientAddr = normalizeSocketAddr peer ∧
    c.expired io.now₂ r.idleTimeout = false

section Short

variable {cr : Crypto} {r : Router} {io : Io} {peer : SocketAddr} {first : UInt8} {rest : Bytes}
  {j k : ℕ}

/-- A datagram is forwarded exactly on the live connection of its sender. -/
theorem mem_sends_forward_iff (cr : Crypto) {c : Connection} (hc : r.connections.lookup j = some c)
    (hclient : normalizeSocketAddr c.clientAddr = normalizeSocketAddr peer) (packet : Bytes) :
    (∃ ok, .backend k packet ok ∈ ((r.receivedClient packet.length).forwardEstablishedClientDatagram
      cr io j peer packet none).sends) ↔ j = k ∧ r.Usable io peer k := by
  have hc' : (r.receivedClient packet.length).connections.lookup j = some c := hc
  have hidle : (r.receivedClient packet.length).idleTimeout = r.idleTimeout := rfl
  rw [sends_forwardEstablishedClientDatagram cr peer packet none hc', hidle]
  constructor
  · rintro ⟨ok, hok⟩
    split at hok
    · cases hok
    · rename_i hlive
      cases List.mem_singleton.mp hok
      exact ⟨rfl, c, hc, hclient, by simpa using hlive⟩
  · rintro ⟨rfl, c', hc'', -, hlive⟩
    cases hc.symm.trans hc''
    exact ⟨io.send 0, by simp [hlive]⟩

/-- A short header is looked up by the longest registered prefix. -/
theorem packetConnectionId_short (r : Router) (rest : Bytes) (hshort : first &&& 0x80 = 0) :
    r.packetConnectionId (first :: rest) = .ok (none, r.cidRoutes.matchPrefix rest) := by
  have hlong : parseLongPacketCids (first :: rest) = .ok none := by
    simp [parseLongPacketCids, hshort]
  have hmatch : r.matchShortHeaderRoute (first :: rest) = r.cidRoutes.matchPrefix rest := by
    simp [matchShortHeaderRoute, hshort]
  rw [packetConnectionId, hlong, ← hmatch]
  rfl

/-- Without QUIC-LB no CID decodes. -/
theorem routableCid_bind_lbBackend (hlb : r.config.quicLb = []) (packet : Bytes)
    (long : Option LongPacketCids) :
    (routableCid packet long).bind (r.config.lbBackend cr) = none := by
  cases routableCid packet long with
  | none => rfl
  | some cid => exact Config.lbBackend_of_no_quicLb hlb

/-- With a registered prefix, the datagram is for the owner of the CID. -/
theorem forwards_registered_iff (hr : r.paths.Indexed) (hlb : r.config.quicLb = [])
    (hshort : first &&& 0x80 = 0) (hmatch : r.cidRoutes.matchPrefix rest = some j) :
    Forwards cr r io peer (first :: rest) k ↔ j = k ∧ r.Usable io peer k := by
  obtain ⟨l, -, hget, -⟩ := CidRoutes.matchPrefix_eq_some.mp hmatch
  obtain ⟨c, hc, -⟩ := exists_of_cidRoutes hr hget
  have hids := packetConnectionId_short r rest hshort
  rw [hmatch] at hids
  unfold Forwards
  rw [handleDatagram_eq_forward cr io r peer (List.cons_ne_nil first rest) hids
    (routableCid_bind_lbBackend hlb ..) hc]
  split
  · rename_i hpeer
    exact mem_sends_forward_iff cr hc (socketAddrsEqual_iff.mp hpeer).symm _
  · rename_i hpeer
    constructor
    · rintro ⟨ok, hok⟩
      cases hok
    · rintro ⟨rfl, c', hc', hclient, -⟩
      cases hc.symm.trans hc'
      exact absurd (socketAddrsEqual_iff.mpr hclient.symm) hpeer

/-- Without one, it is for the only live connection of the client. -/
theorem forwards_unknown_iff (hr : r.paths.Indexed) (hlb : r.config.quicLb = [])
    (hshort : first &&& 0x80 = 0) (hmatch : r.cidRoutes.matchPrefix rest = none) :
    Forwards cr r io peer (first :: rest) k ↔
      r.peerConnectionId peer io.now₁ = some k ∧ r.Usable io peer k := by
  have hids : (r.receivedClient (first :: rest).length).packetConnectionId (first :: rest) =
      .ok (none, r.cidRoutes.matchPrefix rest) := packetConnectionId_short _ rest hshort
  rw [hmatch] at hids
  have hroutable : (routableCid (first :: rest) none).bind
      ((r.receivedClient (first :: rest).length).config.lbBackend cr) = none :=
    routableCid_bind_lbBackend hlb ..
  have hreply : r.handleDatagram cr io peer (first :: rest) =
      (r.receivedClient (first :: rest).length).forwardByPeerAffinity cr io peer
        (first :: rest) none false := by
    simp only [handleDatagram, List.isEmpty_cons, hids, hroutable, Bool.false_eq_true, if_false,
      handleUnroutedClientDatagram]
  have hpeer : (r.receivedClient (first :: rest).length).peerConnectionId peer io.now₁ =
      r.peerConnectionId peer io.now₁ := rfl
  unfold Forwards
  rw [hreply, forwardByPeerAffinity, hpeer]
  cases hid : r.peerConnectionId peer io.now₁ with
  | none =>
    constructor
    · rintro ⟨ok, hok⟩
      cases hok
    · rintro ⟨hnone, -⟩
      cases hnone
  | some j =>
    obtain ⟨⟨c, hc, hclient, -⟩, -⟩ := (peerConnectionId_eq_some_iff hr).mp hid
    rw [Option.some.injEq]
    exact mem_sends_forward_iff cr hc hclient _

end Short

/-- **Peer affinity.** Let a short-header datagram of a client be forwarded to its only live
connection `k`. After any events of others it still is, if and only if no CID that was
registered meanwhile is a longer prefix of it than every CID that was registered before. -/
theorem run_forwards_iff (cr : Crypto) (config : Config) (idleTimeout : Duration)
    (limits : Limits) (es : List Event) {r : Router}
    (hr : r = (start config idleTimeout limits).run cr es) (hlb : r.config.quicLb = [])
    {io : Io} {peer : SocketAddr} {first : UInt8} {rest : Bytes} (hshort : first &&& 0x80 = 0)
    {k : ℕ} (honly : OnlyLive (normalizeSocketAddr peer) k io.now₁ r)
    (hforwards : Forwards cr r io peer (first :: rest) k) {es' : List Event}
    (hothers : ∀ e ∈ es', e.IsOther (normalizeSocketAddr peer) k)
    (hclock : ∀ e ∈ es', ∀ u ∈ e.reads, io.now₁ ≤ u) {io' : Io} (hlater : io.now₁ ≤ io'.now₁)
    (hlive : ∀ c, (r.run cr es').connections.lookup k = some c →
      c.expired io'.now₁ r.idleTimeout = false ∧ c.expired io'.now₂ r.idleTimeout = false) :
    Forwards cr (r.run cr es') io' peer (first :: rest) k ↔
      ∀ cid, r.cidRoutes.get cid = none → (r.run cr es').cidRoutes.get cid ≠ none → cid <+: rest →
        ∃ cid', r.cidRoutes.get cid' ≠ none ∧ cid' <+: rest ∧ cid.length < cid'.length := by
  have hindexed : r.paths.Indexed := hr ▸ run_indexed cr config idleTimeout limits es
  have hindexed' := run_keeps_indexed cr hindexed es'
  obtain ⟨hspares, honly', hconfig⟩ :=
    run_spares cr config idleTimeout limits hr honly hothers hclock
  have hidle : (r.run cr es').idleTimeout = r.idleTimeout := by
    have hall : r.run cr es' = (start config idleTimeout limits).run cr (es ++ es') := by
      rw [hr]
      exact (runFrom_append ..).symm
    rw [hall, (run_settings cr config idleTimeout limits _).2, hr,
      (run_settings cr config idleTimeout limits es).2]
  -- the connection is the same as before, and usable
  obtain ⟨c, hc, hclient, -⟩ : r.Usable io peer k := by
    cases hmatch : r.cidRoutes.matchPrefix rest with
    | some j => exact ((forwards_registered_iff hindexed hlb hshort hmatch).mp hforwards).2
    | none => exact ((forwards_unknown_iff hindexed hlb hshort hmatch).mp hforwards).2
  have hc' : (r.run cr es').connections.lookup k = some c := (hspares.conn_iff k c hclient).mpr hc
  obtain ⟨hlive₁, hlive₂⟩ := hlive c hc'
  rw [← hidle] at hlive₁ hlive₂
  have husable : (r.run cr es').Usable io' peer k := ⟨c, hc', hclient, hlive₂⟩
  have hlb' : (r.run cr es').config.quicLb = [] := hconfig ▸ hlb
  constructor
  · intro hf cid hfree hreg hpre
    rw [List.prefix_iff_eq_take.mp hpre] at hreg
    cases hmatch : (r.run cr es').cidRoutes.matchPrefix rest with
    | none =>
      exact absurd (CidRoutes.matchPrefix_eq_none.mp hmatch _ hpre.length_le) hreg
    | some j =>
      -- the match is a CID of the connection, which was registered before
      obtain ⟨rfl, -⟩ := (forwards_registered_iff hindexed' hlb' hshort hmatch).mp hf
      obtain ⟨l, hl, hget, hbeyond⟩ := CidRoutes.matchPrefix_eq_some.mp hmatch
      have hold : r.cidRoutes.get (rest.take l) = some j :=
        hspares.learned _ j c hget hc' hclient
      have hle : cid.length ≤ l := by
        by_contra hlt
        exact hreg (hbeyond _ hpre.length_le (not_le.mp hlt))
      have hne : cid.length ≠ l := by
        rintro rfl
        rw [← List.prefix_iff_eq_take.mp hpre, hfree] at hold
        cases hold
      refine ⟨rest.take l, by simp [hold], List.take_prefix .., ?_⟩
      rw [List.length_take, min_eq_left hl]
      omega
  · intro hshorter
    -- a new match would have to be longer than some CID that was registered before
    have hnew : ∀ l ≤ rest.length, r.cidRoutes.get (rest.take l) = none →
        (∀ l' ≤ rest.length, l < l' → r.cidRoutes.get (rest.take l') = none) →
        (r.run cr es').cidRoutes.get (rest.take l) = none := by
      intro l hl hfree hbeyond
      by_contra hreg
      obtain ⟨cid, hold, hpre, hlt⟩ := hshorter _ hfree hreg (List.take_prefix ..)
      rw [List.length_take, min_eq_left hl] at hlt
      rw [List.prefix_iff_eq_take.mp hpre] at hold
      exact hold (hbeyond _ hpre.length_le hlt)
    cases hmatch : r.cidRoutes.matchPrefix rest with
    | some j =>
      obtain ⟨rfl, -⟩ := (forwards_registered_iff hindexed hlb hshort hmatch).mp hforwards
      obtain ⟨l, hl, hget, hbeyond⟩ := CidRoutes.matchPrefix_eq_some.mp hmatch
      have hmatch' : (r.run cr es').cidRoutes.matchPrefix rest = some j :=
        CidRoutes.matchPrefix_eq_some.mpr ⟨l, hl, hspares.owner _ j hget, fun l' hl' hlt =>
          hnew l' hl' (hbeyond l' hl' hlt) fun l'' hl'' hlt' => hbeyond l'' hl'' (hlt.trans hlt')⟩
      exact (forwards_registered_iff hindexed' hlb' hshort hmatch').mpr ⟨rfl, husable⟩
    | none =>
      have hfree := CidRoutes.matchPrefix_eq_none.mp hmatch
      have hmatch' : (r.run cr es').cidRoutes.matchPrefix rest = none :=
        CidRoutes.matchPrefix_eq_none.mpr fun l hl =>
          hnew l hl (hfree l hl) fun l' hl' _ => hfree l' hl'
      refine (forwards_unknown_iff hindexed' hlb' hshort hmatch').mpr ⟨?_, husable⟩
      refine (peerConnectionId_eq_some_iff hindexed').mpr ⟨⟨c, hc', hclient, hlive₁⟩, ?_⟩
      exact fun j d hd hd' hj => Connection.expired_mono (honly' j d hd hd' hj) hlater

/-! ## A CID that is taken in between -/

/-- No events of others take a short-header datagram from the only live connection of its
client. -/
def KeepsForwarding (cr : Crypto) (r : Router) : Prop :=
  ∀ io peer first rest k es' io', first &&& 0x80 = 0 →
    OnlyLive (normalizeSocketAddr peer) k io.now₁ r → Forwards cr r io peer (first :: rest) k →
    (∀ e ∈ es', e.IsOther (normalizeSocketAddr peer) k) →
    (∀ e ∈ es', ∀ u ∈ e.reads, io.now₁ ≤ u) → io.now₁ ≤ io'.now₁ →
    (∀ c, (r.run cr es').connections.lookup k = some c →
      c.expired io'.now₁ r.idleTimeout = false ∧ c.expired io'.now₂ r.idleTimeout = false) →
    Forwards cr (r.run cr es') io' peer (first :: rest) k

/-- The sample client has one path. -/
theorem onlyLive_sample (t : Instant) : OnlyLive (normalizeSocketAddr samplePeer) 0 t
    sampleRouter := by
  have hkeys : sampleRouter.connections.keys = [0] := by decide +kernel
  intro j c hc _ hj
  have hmem := Table.mem_keys.mpr ⟨c, hc⟩
  rw [hkeys] at hmem
  exact absurd (List.mem_singleton.mp hmem) hj

/-- The path stays live while another client registers a longer CID. -/
theorem live_sample (c : Connection)
    (hc : (sampleRouter.run sampleCrypto
      [.datagram (sampleIo 1) otherPeer longerCidPacket]).connections.lookup 0 = some c) :
    c.expired 2 sampleRouter.idleTimeout = false := by
  have hall : ((sampleRouter.run sampleCrypto
      [.datagram (sampleIo 1) otherPeer longerCidPacket]).connections.lookup 0).all
      (fun c => !c.expired 2 sampleRouter.idleTimeout) = true := by decide +kernel
  rw [hc] at hall
  simpa using hall

theorem isOther_sample : ∀ e ∈ [Event.datagram (sampleIo 1) otherPeer longerCidPacket],
    e.IsOther (normalizeSocketAddr samplePeer) 0 := by
  intro e he
  cases List.mem_singleton.mp he
  change normalizeSocketAddr otherPeer ≠ normalizeSocketAddr samplePeer
  decide

/-- A datagram for `initial1` is still forwarded after another client registered
`initial1x`, when it does not go on with `x`. -/
theorem run_forwards_iff_sample :
    Forwards sampleCrypto (sampleRouter.run sampleCrypto
      [.datagram (sampleIo 1) otherPeer longerCidPacket]) (sampleIo 2) samplePeer
      (0x40 :: (sampleCid ++ [0x79])) 0 := by
  have hforwards : Forwards sampleCrypto sampleRouter (sampleIo 1) samplePeer
      (0x40 :: (sampleCid ++ [0x79])) 0 := ⟨true, by decide +kernel⟩
  have hclock : ∀ e ∈ [Event.datagram (sampleIo 1) otherPeer longerCidPacket],
      ∀ u ∈ e.reads, (sampleIo 1).now₁ ≤ u := by decide
  have hregistered : ∀ l ≤ 9, (sampleRouter.run sampleCrypto
      [.datagram (sampleIo 1) otherPeer longerCidPacket]).cidRoutes.get
        ((sampleCid ++ [0x79]).take l) ≠ none →
      sampleRouter.cidRoutes.get
          ((sampleCid ++ [0x79]).take l) ≠ none := by decide +kernel
  have hlater : (sampleIo 1).now₁ ≤ (sampleIo 2).now₁ := by decide
  refine (run_forwards_iff sampleCrypto sampleConfig 60 .default
    [.datagram (sampleIo 0) samplePeer helloPacket] rfl (by decide +kernel) (by decide)
    (onlyLive_sample 1) hforwards isOther_sample hclock hlater
    (fun c hc => ⟨live_sample c hc, live_sample c hc⟩)).mpr ?_
  intro cid hfree hnew hpre
  have hcid := List.prefix_iff_eq_take.mp hpre
  have hlen : cid.length ≤ 9 := hpre.length_le
  rw [hcid] at hfree hnew
  exact absurd hfree (hregistered _ hlen hnew)

/-- A datagram that goes on with `x` is then taken for a CID of the other client, and dropped. -/
theorem not_keepsForwarding :
    ¬KeepsForwarding sampleCrypto sampleRouter := by
  intro h
  obtain ⟨ok, hok⟩ := h (sampleIo 1) samplePeer 0x40 (sampleCid ++ [0x78]) 0
    [.datagram (sampleIo 1) otherPeer longerCidPacket] (sampleIo 2) (by decide)
    (onlyLive_sample 1) ⟨true, by decide +kernel⟩ isOther_sample (by decide) (by decide)
    (fun c hc => ⟨live_sample c hc, live_sample c hc⟩)
  have hnone : ((sampleRouter.run sampleCrypto
      [.datagram (sampleIo 1) otherPeer longerCidPacket]).handleDatagram sampleCrypto (sampleIo 2)
      samplePeer (0x40 :: (sampleCid ++ [0x78]))).sends = [] := by decide +kernel
  rw [hnone] at hok
  cases hok

end Router

end SniRouter
