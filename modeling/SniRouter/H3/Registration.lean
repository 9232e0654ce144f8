import SniRouter.H3.Indexes

/-!
# Registration of a handshake

`establish_and_flush` checks a handshake as a whole and then registers its connection IDs, all
at once for a new path and one by one for a path that is shared. The one-by-one registration
has checks of its own; `Room` is what the checks made before guarantee, and under it none of
the later ones can fail. So without a socket error a handshake is registered completely or
not at all.

With socket errors this is so for a new path only, which is registered before anything is
sent. The shared path is given its connection IDs after the last datagram and its deadline
before the first; `FlushSafe` is the exact condition under which that makes no difference.
-/

namespace SniRouter

namespace Router

/-! ## Adding CIDs one by one -/

/-- Connection `k` may take all of `cids`: its own CIDs are among them, nobody else owns one,
and together they are within the limit. -/
structure Room (r : Router) (k : ℕ) (cids : Finset Bytes) : Prop where
  conn : ∃ c, r.connections.lookup k = some c ∧ ∀ cid ∈ c.cids, cid ∈ cids
  free : ∀ cid ∈ cids, ∀ j, r.cidRoutes.get cid = some j → j = k
  card : cids.card ≤ r.limits.maxCidsPerPath

/-- A connection that does not have all of `cids` has fewer. -/
theorem Room.size_lt {r : Router} {k : ℕ} {cids : Finset Bytes} (h : Room r k cids)
    {c : Connection} (hc : r.connections.lookup k = some c) {cid : Bytes} (hcid : cid ∈ cids)
    (hmem : cid ∉ c.cids) : c.cids.size < r.limits.maxCidsPerPath := by
  obtain ⟨d, hd, hsub⟩ := h.conn
  cases hc.symm.trans hd
  have hcard : (insert cid c.cids.toList.toFinset).card = c.cids.size + 1 := by
    rw [Finset.card_insert_of_notMem fun h => hmem (List.mem_toFinset.mp h),
      List.toFinset_card_of_nodup c.cids.nodup]
    rfl
  have hle : (insert cid c.cids.toList.toFinset).card ≤ cids.card := by
    refine Finset.card_le_card (Finset.insert_subset hcid fun cid' hcid' => ?_)
    exact hsub cid' (List.mem_toFinset.mp hcid')
  have := h.card
  omega

/-- With room for it, a CID that is neither empty nor decoded gets registered, and nothing
else changes. -/
theorem Room.addCidRoute (cr : Crypto) {r : Router} {k : ℕ} {cids : Finset Bytes}
    (h : Room r k cids) (hr : r.paths.Indexed) {cid : Bytes} (hcid : cid ≠ [] → cid ∈ cids) :
    Room (r.addCidRoute cr k cid) k cids ∧
      ∀ cid', (r.addCidRoute cr k cid).cidRoutes.get cid' =
        if cid' = cid ∧ cid ≠ [] ∧ r.config.lbBackend cr cid = none then some k
        else r.cidRoutes.get cid' := by
  obtain ⟨c, hc, hsub⟩ := h.conn
  have hcases := addCidRoute_cases cr hr k cid
  generalize r.addCidRoute cr k cid = r' at hcases ⊢
  cases hcases with
  | skip hskip =>
    refine ⟨h, fun cid' => (if_neg ?_).symm⟩
    rintro ⟨-, hne, hnone⟩
    exact hskip hne hnone
  | gone hnone => cases hc.symm.trans hnone
  | @known c' hc' hmem =>
    refine ⟨h, fun cid' => ?_⟩
    split
    · rename_i hcid'
      rw [hcid'.1]
      exact (hr.owner_iff cid k).mpr ⟨hcid'.2.1, c', hc', hmem⟩
    · rfl
  | full hnew hfull =>
    have hlt := h.size_lt hnew.conn (hcid hnew.nonempty) hnew.notMem
    exact absurd hfull (not_le.mpr hlt)
  | owned hnew hget hj => exact absurd (h.free cid (hcid hnew.nonempty) _ hget) hj
  | @learn c' routes hnew hroom hfree hroutes =>
    have hget : ∀ cid', routes.get cid' =
        if cid' = cid ∧ cid ≠ [] ∧ r.config.lbBackend cr cid = none then some k
        else r.cidRoutes.get cid' := by
      intro cid'
      rw [hroutes, Function.update_apply]
      exact if_congr (by simp [hnew.nonempty, hnew.undecoded]) rfl rfl
    cases hc.symm.trans hnew.conn
    refine ⟨⟨⟨_, Table.lookup_insert_self .., fun cid' hcid' => ?_⟩, fun cid' hcid' j hj => ?_,
      h.card⟩, hget⟩
    · rcases HashSet.mem_insert.mp hcid' with rfl | hold
      · exact hcid hnew.nonempty
      · exact hsub cid' hold
    · have hj := (hget cid').symm.trans hj
      split at hj
      · exact (Option.some.inj hj).symm
      · exact h.free cid' hcid' j hj

theorem config_addCidRoute (cr : Crypto) {r : Router} (hr : r.paths.Indexed) (k : ℕ)
    (cid : Bytes) : (r.addCidRoute cr k cid).config = r.config :=
  congrArg Buffers.config (addCidRoute_actsOn cr hr k cid).buffers

/-- With room for all of them, the CIDs of a list that are neither empty nor decoded get
registered. -/
theorem Room.get_addCidRoutes (cr : Crypto) {r : Router} {k : ℕ} {cids : Finset Bytes}
    (h : Room r k cids) (hr : r.paths.Indexed) {list : List Bytes}
    (hlist : ∀ cid ∈ list, cid ≠ [] → cid ∈ cids) (cid : Bytes) :
    (r.addCidRoutes cr k list).cidRoutes.get cid =
      if cid ∈ list ∧ cid ≠ [] ∧ r.config.lbBackend cr cid = none then some k
      else r.cidRoutes.get cid := by
  induction list generalizing r with
  | nil => simp [addCidRoutes]
  | cons cid' list ih =>
    obtain ⟨hroom, hget⟩ := h.addCidRoute cr hr (hlist cid' List.mem_cons_self)
    have hrest := ih hroom ((addCidRoute_actsOn cr hr k cid').indexed hr)
      (fun c hc => hlist c (List.mem_cons_of_mem _ hc))
    rw [config_addCidRoute cr hr, hget] at hrest
    refine hrest.trans ?_
    by_cases hcid : cid = cid'
    · subst hcid
      simp only [List.mem_cons, true_or, true_and]
      split
      · rename_i hin
        rw [if_pos hin.2]
      · rfl
    · simp [hcid]

/-- The CIDs of a connection together with those a handshake claims. -/
def claimedBy (c : Connection) (pending : PendingConnection) : Finset Bytes :=
  (c.cids.toList ++ (requestedCids pending).toList.filter fun cid => cid ∉ c.cids).toFinset

/-- The checks made before a path is shared leave room for every CID of the handshake. -/
theorem Registers.room {io : Io} {r : Router} {pending : PendingConnection} {addr : SocketAddr}
    (h : r.Registers io pending addr) (hr : r.paths.Indexed) {k : ℕ} {c c' : Connection}
    (hshared : r.sharedPath pending.clientAddr addr = some k)
    (hc : r.connections.lookup k = some c) (hcids : c'.cids = c.cids) :
    Room (r.setConnection k c') k (claimedBy c pending) := by
  refine ⟨⟨c', Table.lookup_insert_self .., fun cid hcid => ?_⟩, fun cid hcid j hj => ?_, ?_⟩
  · rw [hcids] at hcid
    exact List.mem_toFinset.mpr (List.mem_append_left _ hcid)
  · have hj : r.cidRoutes.get cid = some j := hj
    rcases List.mem_append.mp (List.mem_toFinset.mp hcid) with hold | hnew
    · -- the index has one owner for it, which is the connection that has it
      have hne : cid ≠ [] := ((hr.owner_iff cid j).mp hj).1
      have hk := (hr.owner_iff cid k).mpr ⟨hne, c, hc, hold⟩
      exact (Option.some.inj (hk.symm.trans hj)).symm
    · have hclaimed := (mem_requestedCids.mp (List.mem_of_mem_filter hnew)).1
      have hcol := h.cids
      rw [hshared, Option.getD_some] at hcol
      exact get_of_not_cidCollision (Bool.eq_false_iff.mp hcol) hclaimed hj
  · refine (List.toFinset_card_le _).trans ?_
    rw [List.length_append, ← List.countP_eq_length_filter]
    exact (h.shared k c hshared hc).2

theorem mem_claimedBy {c : Connection} {pending : PendingConnection} {cid : Bytes}
    (hcid : cid ∈ claimedCids pending) (hne : cid ≠ []) : cid ∈ claimedBy c pending := by
  refine List.mem_toFinset.mpr ?_
  by_cases hmem : cid ∈ c.cids
  · exact List.mem_append_left _ hmem
  · refine List.mem_append_right _ (List.mem_filter.mpr ⟨?_, by simpa using hmem⟩)
    exact mem_requestedCids.mpr ⟨hcid, hne⟩

/-! ## All or nothing -/

/-- On a shared path the claimed CIDs end up registered, except for those that are decoded. -/
theorem get_shared (cr : Crypto) {io : Io} {r : Router} {k : ℕ} {c : Connection}
    {pending : PendingConnection} {addr : SocketAddr} (hr : r.paths.Indexed)
    (hregisters : r.Registers io pending addr)
    (hshared : r.sharedPath pending.clientAddr addr = some k)
    (hc : r.connections.lookup k = some c) (route : Route) (cid : Bytes) :
    (shared cr io r k c pending route).cidRoutes.get cid =
      if cid ∈ claimedCids pending ∧ cid ≠ [] ∧ r.config.lbBackend cr cid = none then some k
      else r.cidRoutes.get cid := by
  have hset := joined_actsOn hc io.now₂ route.timeout
  have hroom := hregisters.room hr hshared hc (cids_joined c io.now₂ route.timeout)
  exact hroom.get_addCidRoutes cr (hset.indexed hr)
    (fun cid hcid hne => mem_claimedBy hcid hne) cid

/-- Whether a CID of a handshake that goes to `addr` is left unregistered: QUIC-LB decodes it,
and the client has a path to share. -/
def Exempt (cr : Crypto) (r : Router) (clientAddr addr : SocketAddr) (cid : Bytes) : Prop :=
  (r.sharedPath clientAddr addr).isSome ∧ (r.config.lbBackend cr cid).isSome

/-- The handshake is refused without any effect but on the drop counters. -/
structure Refused (io : Io) (r : Router) (pending : PendingConnection) (route : Route)
    (reply : Reply) : Prop where
  reason : ∀ addr, route.backend = .udp addr → ¬r.Registers io pending addr
  tables : reply.router.toPathTables = r.toPathTables
  sends : reply.sends = []

/-- The handshake is accepted: connection `k` is given all its datagrams and its CIDs. -/
structure Accepted (cr : Crypto) (io : Io) (r : Router) (pending : PendingConnection)
    (route : Route) (k : ℕ) (reply : Reply) : Prop where
  reason : ∃ addr, route.backend = .udp addr ∧ r.Registers io pending addr
  sends : reply.sends = pending.datagrams.map fun d => .backend k d true
  conn : ∃ c, reply.router.connections.lookup k = some c ∧
    ∀ addr, route.backend = .udp addr →
      ∀ cid ∈ claimedCids pending, cid ≠ [] → ¬r.Exempt cr pending.clientAddr addr cid →
        reply.router.cidRoutes.get cid = some k ∧ cid ∈ c.cids
  exempt : ∀ addr, route.backend = .udp addr → ∀ cid, r.Exempt cr pending.clientAddr addr cid →
    reply.router.cidRoutes.get cid = r.cidRoutes.get cid

/-- A registered CID is in the set of its connection. -/
theorem mem_cids_of_get {r : Router} (hr : r.paths.Indexed) {k : ℕ} {c : Connection}
    (hc : r.connections.lookup k = some c) {cid : Bytes} (hget : r.cidRoutes.get cid = some k) :
    cid ∈ c.cids := by
  obtain ⟨d, hd, hmem⟩ := exists_of_cidRoutes hr hget
  cases hc.symm.trans hd
  exact hmem

theorem establishAndFlush_refused_or_accepted (cr : Crypto) {io : Io} {r : Router}
    (hr : r.paths.Indexed) (pending : PendingConnection) (route : Route)
    (hconnect : io.connect = true) (hsend : ∀ i, io.send i = true) :
    Refused io r pending route (r.establishAndFlush cr io pending route) ∨
      ∃ k, Accepted cr io r pending route k (r.establishAndFlush cr io pending route) := by
  have hcases := establishAndFlush_cases cr io hr pending route
  generalize r.establishAndFlush cr io pending route = reply at hcases ⊢
  have hflush : ∀ k, (flush io k 0 pending.datagrams).2 = true :=
    fun k => flush_snd_iff.mpr fun j _ => hsend (0 + j)
  have hsends : ∀ k, (flush io k 0 pending.datagrams).1 = _ :=
    fun k => (flush_spec io k 0 pending.datagrams).2.2 (hflush k)
  cases hcases with
  | refuse hdrops hrefused => exact Or.inl ⟨hrefused, hdrops.tables, rfl⟩
  | @share addr k c hroute hregisters hshared hc =>
    -- an existing path: decoded CIDs stay out of the index
    refine Or.inr ⟨k, ?_⟩
    rw [sharePath_sent cr (hregisters.shared k c hshared hc).1 (hflush k), hsends k]
    have hget := get_shared cr hr hregisters hshared hc route
    have hacts := shared_actsOn cr io hr hc pending route
    obtain ⟨c', hc', -⟩ := PathSteps.conn_isSome hacts.steps hr hc
    refine ⟨⟨addr, hroute, hregisters⟩, rfl, ⟨c', hc', ?_⟩, ?_⟩
    · intro addr' haddr' cid hcid hne hexempt
      cases hroute.symm.trans haddr'
      have hnone : r.config.lbBackend cr cid = none :=
        Option.not_isSome_iff_eq_none.mp fun h => hexempt ⟨by simp [hshared], h⟩
      have hreg := (hget cid).trans (if_pos ⟨hcid, hne, hnone⟩)
      exact ⟨hreg, mem_cids_of_get (hacts.indexed hr) hc' hreg⟩
    · intro addr' haddr' cid hexempt
      refine (hget cid).trans (if_neg ?_)
      rintro ⟨-, -, hnone⟩
      rw [Exempt, hnone] at hexempt
      cases hexempt.2
  | @create addr hroute hregisters hshared =>
    -- a new path: everything requested is registered, nothing is exempt
    refine Or.inr ⟨r.nextConnectionId, ?_⟩
    rw [openPath_connected hconnect, hsends r.nextConnectionId]
    have hopens := registerPath_opens_of_registers hr hregisters hshared route
    refine ⟨⟨addr, hroute, hregisters⟩, rfl, ⟨_, hopens.lookup_next, ?_⟩, ?_⟩
    · intro addr' haddr' cid hcid hne hexempt
      have hmem := mem_requestedCids.mpr ⟨hcid, hne⟩
      have howner := congrFun (congrArg Paths.owner hopens.paths) cid
      exact ⟨howner.trans (if_pos hmem), hmem⟩
    · intro addr' haddr' cid hexempt
      cases hroute.symm.trans haddr'
      rw [Exempt, hshared] at hexempt
      cases hexempt.1

/-- **Registration is all or nothing.** In every reachable state a routed handshake for which
no socket operation fails is refused, and then no table changes and nothing is sent, or it is
accepted, and then one connection gets all its datagrams in order and all its CIDs. -/
theorem run_refused_or_accepted (cr : Crypto) (config : Config) (idleTimeout : Duration)
    (limits : Limits) (es : List Event) (io : Io) (pending : PendingConnection) (route : Route)
    (hconnect : io.connect = true) (hsend : ∀ i, io.send i = true) :
    Refused io ((start config idleTimeout limits).run cr es) pending route
        (((start config idleTimeout limits).run cr es).establishAndFlush cr io pending route) ∨
      ∃ k, Accepted cr io ((start config idleTimeout limits).run cr es) pending route k
        (((start config idleTimeout limits).run cr es).establishAndFlush cr io pending route) :=
  establishAndFlush_refused_or_accepted cr (run_indexed cr config idleTimeout limits es) pending
    route hconnect hsend

/-- The second handshake of the sample client shares the path of the first. -/
theorem run_refused_or_accepted_sample :
    ∃ k, Accepted sampleCrypto (sampleIo 1)
      ((start lbConfig 60 .default).run sampleCrypto
        [.datagram (sampleIo 0) samplePeer helloPacket]) secondHandshake
      ⟨.udp sampleServer, none, none⟩ k
      (((start lbConfig 60 .default).run sampleCrypto
        [.datagram (sampleIo 0) samplePeer helloPacket]).establishAndFlush sampleCrypto
          (sampleIo 1) secondHandshake ⟨.udp sampleServer, none, none⟩) := by
  rcases run_refused_or_accepted sampleCrypto lbConfig 60 .default
    [.datagram (sampleIo 0) samplePeer helloPacket] (sampleIo 1) secondHandshake
    ⟨.udp sampleServer, none, none⟩ rfl (fun _ => rfl) with hrefused | haccepted
  · have hsends : (((start lbConfig 60 .default).run sampleCrypto
        [.datagram (sampleIo 0) samplePeer helloPacket]).establishAndFlush sampleCrypto
          (sampleIo 1) secondHandshake ⟨.udp sampleServer, none, none⟩).sends.length = 2 := by
      decide +kernel
    rw [hrefused.sends] at hsends
    cases hsends
  · exact haccepted

/-! ## Sends that fail -/

/-- A handshake is not left half registered. Once a datagram was handed to a connection, all
CIDs of the handshake that QUIC-LB does not decode are registered to it; as long as none was,
no deadline and no index has changed, unless by a new connection with all its CIDs. -/
structure NotHalfRegistered (cr : Crypto) (r : Router) (pending : PendingConnection)
    (reply : Reply) : Prop where
  sent : ∀ k d, .backend k d true ∈ reply.sends →
    ∀ cid ∈ claimedCids pending, cid ≠ [] → r.config.lbBackend cr cid = none →
      reply.router.cidRoutes.get cid = some k ∧
        ∃ c, reply.router.connections.lookup k = some c ∧ cid ∈ c.cids
  deadline : (∀ k d, .backend k d true ∉ reply.sends) →
    ∀ k c, r.connections.lookup k = some c →
      ∃ c', reply.router.connections.lookup k = some c' ∧ c'.deadline = c.deadline
  indexes : (∀ k d, .backend k d true ∉ reply.sends) →
    (reply.router.cidRoutes.get = r.cidRoutes.get ∧
      reply.router.lbPaths.lookup = r.lbPaths.lookup ∧
      reply.router.clientRoutes.lookup = r.clientRoutes.lookup) ∨
    ∃ c key, reply.router.paths = r.paths.opened r.nextConnectionId c key ∧
      ∀ cid ∈ claimedCids pending, cid ≠ [] → cid ∈ c.cids

/-- The CIDs of the handshake that would be registered are registered to `k` already. -/
def KnownCids (cr : Crypto) (r : Router) (pending : PendingConnection) (k : ℕ) : Prop :=
  ∀ cid ∈ claimedCids pending, cid ≠ [] → r.config.lbBackend cr cid = none →
    r.cidRoutes.get cid = some k

/-- The route does not shorten the life of the connection at `now`. -/
def KeepsDeadline (c : Connection) (now : Instant) (timeout : Option Duration) : Prop :=
  ∀ t, timeout = some t → ∃ d, c.deadline = some d ∧ d ≤ now + t

/-- When a handshake joins a path: if some but not all of its datagrams are handed over, the
path has its CIDs already; if none is, the path keeps its deadline. -/
structure FlushSafe (cr : Crypto) (io : Io) (r : Router) (pending : PendingConnection)
    (route : Route) : Prop where
  cids : ∀ addr k, route.backend = .udp addr → r.Registers io pending addr →
    r.sharedPath pending.clientAddr addr = some k →
    (pending.datagrams = [] ∨
      io.send 0 = true ∧ ∃ i < pending.datagrams.length, io.send i = false) →
    KnownCids cr r pending k
  deadline : ∀ addr k c, route.backend = .udp addr → r.Registers io pending addr →
    r.sharedPath pending.clientAddr addr = some k → r.connections.lookup k = some c →
    (pending.datagrams = [] ∨ io.send 0 = false) → KeepsDeadline c io.now₂ route.timeout

theorem deadline_shortenDeadline_iff (c : Connection) (now : Instant)
    (timeout : Option Duration) :
    (shortenDeadline c now timeout).deadline = c.deadline ↔ KeepsDeadline c now timeout := by
  cases timeout with
  | none => simp [shortenDeadline, KeepsDeadline]
  | some t =>
    simp only [shortenDeadline, KeepsDeadline, Option.some.injEq, forall_eq']
    cases hd : c.deadline with
    | none => simp
    | some d => simp

/-- CIDs that are known, empty or decoded are not added again. -/
theorem addCidRoutes_of_known (cr : Crypto) {r : Router} (hr : r.paths.Indexed) {k : ℕ}
    {c : Connection} (hc : r.connections.lookup k = some c) {cids : List Bytes}
    (hcids : ∀ cid ∈ cids, cid ≠ [] → r.config.lbBackend cr cid = none → cid ∈ c.cids) :
    r.addCidRoutes cr k cids = r := by
  induction cids with
  | nil => rfl
  | cons cid cids ih =>
    have hold : ∀ {c'}, ¬NewCid cr r k cid c' := by
      intro c' hnew
      cases hc.symm.trans hnew.conn
      exact hnew.notMem (hcids cid List.mem_cons_self hnew.nonempty hnew.undecoded)
    have hone : r.addCidRoute cr k cid = r := by
      have hcases := addCidRoute_cases cr hr k cid
      generalize r.addCidRoute cr k cid = r' at hcases
      cases hcases with
      | skip => rfl
      | gone => rfl
      | known => rfl
      | full hnew => exact absurd hnew hold
      | owned hnew => exact absurd hnew hold
      | learn hnew => exact absurd hnew hold
    rw [addCidRoutes, List.foldl_cons, hone]
    exact ih fun cid' hcid' => hcids cid' (List.mem_cons_of_mem _ hcid')

/-- A refused handshake and one that opens a path are never left half registered. -/
theorem notHalfRegistered_of_drops (cr : Crypto) {r r' : Router} {n : ℕ}
    (hdrops : Drops n r r') (pending : PendingConnection) :
    NotHalfRegistered cr r pending (.done r') := by
  have htables := hdrops.tables
  refine ⟨fun k d hsent => ?_, fun _ k c hc => ⟨c, ?_, rfl⟩, fun _ => Or.inl ⟨?_, ?_, ?_⟩⟩
  · cases hsent
  · rw [Reply.done, htables]
    exact hc
  all_goals rw [Reply.done, htables]

theorem openPath_notHalfRegistered (cr : Crypto) {io : Io} {r : Router}
    {pending : PendingConnection} {route : Route} {addr : SocketAddr} (hr : r.paths.Indexed)
    (hregisters : r.Registers io pending addr)
    (hshared : r.sharedPath pending.clientAddr addr = none) :
    NotHalfRegistered cr r pending
      (r.openPath io (upstreamAddr r.config addr) (requestedCids pending)
        (lbKey r.config pending.clientAddr addr) pending route) := by
  cases hconnect : io.connect with
  | false =>
    rw [openPath_unconnected hconnect]
    refine ⟨fun k d hsent => ?_, fun _ k c hc => ⟨c, hc, rfl⟩, fun _ => Or.inl ⟨rfl, rfl, rfl⟩⟩
    cases hsent
  | true =>
    rw [openPath_connected hconnect]
    have hopens := registerPath_opens_of_registers hr hregisters hshared route
    have hmem : ∀ cid ∈ claimedCids pending, cid ≠ [] → cid ∈ requestedCids pending :=
      fun cid hcid hne => mem_requestedCids.mpr ⟨hcid, hne⟩
    refine ⟨fun k d hsent cid hcid hne _ => ?_, fun _ k c hc => ⟨c, ?_, rfl⟩,
      fun _ => Or.inr ⟨_, _, hopens.paths, hmem⟩⟩
    · have hk : k = r.nextConnectionId := connId_of_mem_flush hsent
      subst hk
      refine ⟨?_, _, hopens.lookup_next, hmem cid hcid hne⟩
      exact (congrFun (congrArg Paths.owner hopens.paths) cid).trans (if_pos (hmem cid hcid hne))
    · have hk : k ≠ r.nextConnectionId := (hr.below k c hc).ne
      refine (congrFun (congrArg Paths.conn hopens.paths) k).trans ?_
      exact (Paths.opened_conn_of_ne _ _ _ hk).trans hc

section Shared

variable (cr : Crypto) {io : Io} {r : Router} {k : ℕ} {c : Connection}
  {pending : PendingConnection} {route : Route} {addr : SocketAddr}

/-- All datagrams are handed over: the CIDs are registered after the last one. -/
theorem shared_notHalfRegistered (hr : r.paths.Indexed)
    (hregisters : r.Registers io pending addr)
    (hshared : r.sharedPath pending.clientAddr addr = some k)
    (hc : r.connections.lookup k = some c) (hne : pending.datagrams ≠ [])
    (hsend : io.send 0 = true) :
    NotHalfRegistered cr r pending
      ⟨shared cr io r k c pending route, (flush io k 0 pending.datagrams).1, .ok⟩ := by
  have hget := get_shared cr hr hregisters hshared hc route
  have hacts := shared_actsOn cr io hr hc pending route
  obtain ⟨c', hc', -⟩ := PathSteps.conn_isSome hacts.steps hr hc
  obtain ⟨j, d, hsent⟩ := (exists_sent_of_flush (k := k)).mpr ⟨hne, hsend⟩
  refine ⟨fun j' d' hsent' cid hcid hcidne hnone => ?_, fun h => absurd hsent (h j d),
    fun h => absurd hsent (h j d)⟩
  have hj : j' = k := connId_of_mem_flush hsent'
  subst hj
  have hreg := (hget cid).trans (if_pos ⟨hcid, hcidne, hnone⟩)
  exact ⟨hreg, c', hc', mem_cids_of_get (hacts.indexed hr) hc' hreg⟩

/-- A later datagram cannot be handed over: the CIDs must have been known. -/
theorem failed_notHalfRegistered_iff (hr : r.paths.Indexed)
    (hc : r.connections.lookup k = some c) (hne : pending.datagrams ≠ [])
    (hsend : io.send 0 = true) (message : String) :
    NotHalfRegistered cr r pending ⟨r.setConnection k (shortenDeadline c io.now₂ route.timeout),
        (flush io k 0 pending.datagrams).1, .err message⟩ ↔ KnownCids cr r pending k := by
  obtain ⟨j, d, hsent⟩ := (exists_sent_of_flush (k := k)).mpr ⟨hne, hsend⟩
  have hj : ∀ j d, .backend j d true ∈ (flush io k 0 pending.datagrams).1 → j = k :=
    fun _ _ h => connId_of_mem_flush h
  constructor
  · intro h cid hcid hcidne hnone
    have hget := (h.sent j d hsent cid hcid hcidne hnone).1
    rw [hj j d hsent] at hget
    exact hget
  · intro hknown
    refine ⟨fun j' d' hsent' cid hcid hcidne hnone => ?_, fun h => absurd hsent (h j d),
      fun h => absurd hsent (h j d)⟩
    rw [hj j' d' hsent']
    have hget := hknown cid hcid hcidne hnone
    refine ⟨hget, _, Table.lookup_insert_self .., ?_⟩
    rw [cids_shortenDeadline]
    exact mem_cids_of_get hr hc hget

/-- The first datagram cannot be handed over: the deadline must not have been shortened. -/
theorem unsent_notHalfRegistered_iff (hc : r.connections.lookup k = some c)
    (hsend : io.send 0 = false) (message : String) :
    NotHalfRegistered cr r pending ⟨r.setConnection k (shortenDeadline c io.now₂ route.timeout),
        (flush io k 0 pending.datagrams).1, .err message⟩ ↔
      KeepsDeadline c io.now₂ route.timeout := by
  have hunsent : ∀ j d, .backend j d true ∉ (flush io k 0 pending.datagrams).1 := by
    intro j d h
    have hsent := (exists_sent_of_flush.mp ⟨j, d, h⟩).2
    rw [hsend] at hsent
    cases hsent
  rw [← deadline_shortenDeadline_iff]
  constructor
  · intro h
    obtain ⟨c', hc', hd⟩ := h.deadline hunsent k c hc
    cases (Table.lookup_insert_self ..).symm.trans hc'
    exact hd
  · intro hd
    refine ⟨fun j d h => absurd h (hunsent j d), fun _ j d hj => ?_,
      fun _ => Or.inl ⟨rfl, rfl, rfl⟩⟩
    simp only [setConnection, Table.lookup_insert]
    split
    · rename_i hjk
      subst hjk
      cases hc.symm.trans hj
      exact ⟨_, rfl, hd⟩
    · exact ⟨d, hj, rfl⟩

/-- The deadline of a shared path is the shortened one or an earlier one. -/
theorem deadline_shared_le (hr : r.paths.Indexed) (hc : r.connections.lookup k = some c)
    {t : Duration} (ht : route.timeout = some t) {c' : Connection}
    (hc' : (shared cr io r k c pending route).connections.lookup k = some c') :
    ∃ d ≤ io.now₂ + t, c'.deadline = some d := by
  have hset := joined_actsOn hc io.now₂ route.timeout
  have hadd := addCidRoutes_actsOn cr (hset.indexed hr) k (claimedCids pending)
  obtain ⟨d, hd, hevolves⟩ := PathSteps.conn_isSome hadd.steps (hset.indexed hr)
    (Table.lookup_insert_self ..)
  cases hc'.symm.trans hd
  have hshort : ∃ m ≤ io.now₂ + t, (joined c io.now₂ route.timeout).deadline = some m := by
    rw [ht]
    cases hold : c.deadline with
    | none => exact ⟨_, le_refl _, by simp [joined, shortenDeadline, hold]⟩
    | some old => exact ⟨_, Nat.min_le_right old _, by simp [joined, shortenDeadline, hold]⟩
  obtain ⟨m, hm, hdeadline⟩ := hshort
  obtain ⟨d', hd', hdeadline'⟩ := hevolves.deadline m hdeadline
  exact ⟨d', hd'.trans hm, hdeadline'⟩

/-- A handshake without datagrams is registered although nothing is handed over. -/
theorem empty_notHalfRegistered_iff (hr : r.paths.Indexed)
    (hregisters : r.Registers io pending addr)
    (hshared : r.sharedPath pending.clientAddr addr = some k)
    (hc : r.connections.lookup k = some c) :
    NotHalfRegistered cr r pending ⟨shared cr io r k c pending route, [], .ok⟩ ↔
      KnownCids cr r pending k ∧ KeepsDeadline c io.now₂ route.timeout := by
  have hget := get_shared cr hr hregisters hshared hc route
  have hacts := shared_actsOn cr io hr hc pending route
  have hunsent : ∀ j d, Send.backend j d true ∉ ([] : List Send) :=
    fun _ _ => List.not_mem_nil
  constructor
  · intro h
    refine ⟨fun cid hcid hne hnone => ?_, fun t ht => ?_⟩
    · have hreg := (hget cid).trans (if_pos ⟨hcid, hne, hnone⟩)
      rcases h.indexes hunsent with ⟨hsame, -, -⟩ | ⟨c', key, hopened, -⟩
      · exact (congrFun hsame cid).symm.trans hreg
      · -- a shared path opens no connection
        have hk : r.nextConnectionId ≠ k := (hr.below k c hc).ne'
        have hnew : (shared cr io r k c pending route).paths.conn r.nextConnectionId = some c' :=
          (congrFun (congrArg Paths.conn hopened) _).trans (Paths.opened_conn_self ..)
        rw [PathSteps.conn_of_ne hacts.steps hk] at hnew
        exact absurd (hr.below _ c' hnew) (lt_irrefl _)
    · obtain ⟨c', hc', hd⟩ := h.deadline hunsent k c hc
      obtain ⟨d, hle, hd'⟩ := deadline_shared_le cr hr hc ht hc'
      exact ⟨d, hd ▸ hd', hle⟩
  · rintro ⟨hknown, hkeeps⟩
    have hset : shared cr io r k c pending route =
        r.setConnection k (joined c io.now₂ route.timeout) := by
      refine addCidRoutes_of_known cr ((joined_actsOn hc io.now₂ route.timeout).indexed hr)
        (Table.lookup_insert_self ..) fun cid hcid hne hnone => ?_
      rw [cids_joined]
      exact mem_cids_of_get hr hc (hknown cid hcid hne hnone)
    rw [hset]
    refine ⟨fun j d h => absurd h (hunsent j d), fun _ j d hj => ?_,
      fun _ => Or.inl ⟨rfl, rfl, rfl⟩⟩
    simp only [setConnection, Table.lookup_insert]
    split
    · rename_i hjk
      subst hjk
      cases hc.symm.trans hj
      exact ⟨_, rfl, (deadline_shortenDeadline_iff ..).mpr hkeeps⟩
    · exact ⟨d, hj, rfl⟩

theorem sharePath_notHalfRegistered_iff (hr : r.paths.Indexed)
    (hregisters : r.Registers io pending addr)
    (hshared : r.sharedPath pending.clientAddr addr = some k)
    (hc : r.connections.lookup k = some c) :
    NotHalfRegistered cr r pending (r.sharePath cr io k c pending route) ↔
      ((pending.datagrams = [] ∨
        io.send 0 = true ∧ ∃ i < pending.datagrams.length, io.send i = false) →
        KnownCids cr r pending k) ∧
      ((pending.datagrams = [] ∨ io.send 0 = false) → KeepsDeadline c io.now₂ route.timeout) := by
  have hlive := (hregisters.shared k c hshared hc).1
  -- without datagrams the flush succeeds although nothing is handed over
  by_cases hempty : pending.datagrams = []
  · have hflush : flush io k 0 pending.datagrams = ([], true) := by rw [hempty]; rfl
    rw [sharePath_sent cr hlive (by rw [hflush]), hflush]
    refine (empty_notHalfRegistered_iff cr hr hregisters hshared hc).trans ?_
    simp [hempty]
  have hfails : (∃ i < pending.datagrams.length, io.send i = false) ↔
      (flush io k 0 pending.datagrams).2 = false := by
    rw [← Bool.not_eq_true, flush_snd_iff]
    simp
  rw [hfails]
  -- the deadline is at stake when the first send fails, the CIDs when a later one does
  cases hsend : io.send 0 with
  | false =>
    have hflush : (flush io k 0 pending.datagrams).2 = false :=
      hfails.mp ⟨0, List.length_pos_iff.mpr hempty, hsend⟩
    rw [sharePath_failed cr hlive hflush]
    refine (unsent_notHalfRegistered_iff cr hc hsend _).trans ?_
    simp [hempty]
  | true =>
    cases hflush : (flush io k 0 pending.datagrams).2 with
    | true =>
      rw [sharePath_sent cr hlive hflush]
      refine iff_of_true
        (shared_notHalfRegistered cr hr hregisters hshared hc hempty hsend) ?_
      simp [hempty]
    | false =>
      rw [sharePath_failed cr hlive hflush]
      refine (failed_notHalfRegistered_iff cr hr hc hempty hsend _).trans ?_
      simp [hempty]

end Shared

theorem establishAndFlush_notHalfRegistered_iff (cr : Crypto) {io : Io} {r : Router}
    (hr : r.paths.Indexed) (pending : PendingConnection) (route : Route) :
    NotHalfRegistered cr r pending (r.establishAndFlush cr io pending route) ↔
      FlushSafe cr io r pending route := by
  have hcases := establishAndFlush_cases cr io hr pending route
  generalize r.establishAndFlush cr io pending route = reply at hcases ⊢
  cases hcases with
  | refuse hdrops hrefused =>
    refine iff_of_true (notHalfRegistered_of_drops cr hdrops pending) ⟨?_, ?_⟩
    · intro addr k haddr hregisters
      exact absurd hregisters (hrefused addr haddr)
    · intro addr k c haddr hregisters
      exact absurd hregisters (hrefused addr haddr)
  | @share addr k c hroute hregisters hshared hc =>
    refine (sharePath_notHalfRegistered_iff cr hr hregisters hshared hc).trans ⟨?_, ?_⟩
    · rintro ⟨hcids, hdeadline⟩
      refine ⟨fun addr' k' haddr' _ hshared' => ?_, fun addr' k' c' haddr' _ hshared' hc' => ?_⟩
      · cases hroute.symm.trans haddr'
        cases hshared.symm.trans hshared'
        exact hcids
      · cases hroute.symm.trans haddr'
        cases hshared.symm.trans hshared'
        cases hc.symm.trans hc'
        exact hdeadline
    · intro h
      exact ⟨h.cids addr k hroute hregisters hshared,
        h.deadline addr k c hroute hregisters hshared hc⟩
  | @create addr hroute hregisters hshared =>
    refine iff_of_true (openPath_notHalfRegistered cr hr hregisters hshared) ⟨?_, ?_⟩
    · intro addr' k haddr' _ hshared'
      cases hroute.symm.trans haddr'
      cases hshared.symm.trans hshared'
    · intro addr' k c haddr' _ hshared'
      cases hroute.symm.trans haddr'
      cases hshared.symm.trans hshared'

/-- **A send that fails.** In every reachable state a handshake is not left half registered
exactly when sharing a path is safe: a path that gets some but not all of the datagrams has
the CIDs of the handshake already, and one that gets none keeps its deadline. -/
theorem run_notHalfRegistered_iff (cr : Crypto) (config : Config) (idleTimeout : Duration)
    (limits : Limits) (es : List Event) (io : Io) (pending : PendingConnection) (route : Route) :
    NotHalfRegistered cr ((start config idleTimeout limits).run cr es) pending
        (((start config idleTimeout limits).run cr es).establishAndFlush cr io pending route) ↔
      FlushSafe cr io ((start config idleTimeout limits).run cr es) pending route :=
  establishAndFlush_notHalfRegistered_iff cr (run_indexed cr config idleTimeout limits es)
    pending route

/-- The first send succeeds, the second fails. -/
def failingIo : Io := { sampleIo 1 with send := fun i => i == 0 }

/-- The sample client's second handshake is handed to the server up to its first datagram, but
its CID is not registered. -/
theorem not_notHalfRegistered :
    ¬NotHalfRegistered sampleCrypto
      ((start lbConfig 60 .default).run sampleCrypto
        [.datagram (sampleIo 0) samplePeer helloPacket]) secondHandshake
      (((start lbConfig 60 .default).run sampleCrypto
        [.datagram (sampleIo 0) samplePeer helloPacket]).establishAndFlush sampleCrypto failingIo
          secondHandshake ⟨.udp sampleServer, none, none⟩) := by
  intro h
  have hsent : Send.backend 0 longerCidPacket true ∈
      (((start lbConfig 60 .default).run sampleCrypto
        [.datagram (sampleIo 0) samplePeer helloPacket]).establishAndFlush sampleCrypto failingIo
          secondHandshake ⟨.udp sampleServer, none, none⟩).sends := by
    decide +kernel
  have hget := (h.sent 0 longerCidPacket hsent longerCid List.mem_cons_self (by decide)
    (by decide +kernel)).1
  have hnone : (((start lbConfig 60 .default).run sampleCrypto
      [.datagram (sampleIo 0) samplePeer helloPacket]).establishAndFlush sampleCrypto failingIo
        secondHandshake ⟨.udp sampleServer, none, none⟩).router.cidRoutes.get longerCid =
      none := by
    decide +kernel
  rw [hnone] at hget
  cases hget

end Router

end SniRouter
