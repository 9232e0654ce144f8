import SniRouter.H3.Effects

/-!
# Opening and sharing a path

`Registers` is the guard of `establish_and_flush` as one condition: the registration is refused
exactly when it fails. `EstablishCase` says how the function goes on after it, and
`EstablishEffect` what each way does to the state and the sockets.
-/

namespace SniRouter

namespace Router

/-- `r'` is `r` with `n` more datagrams counted as dropped. -/
structure Drops (n : ℕ) (r r' : Router) : Prop where
  tables : r'.toPathTables = r.toPathTables
  buffers : r'.buffers = r.buffers
  dropTotal : r'.metrics.dropTotal = r.metrics.dropTotal + n
  gauge : r'.pathGaugeError = r.pathGaugeError
  size : r'.connections.size = r.connections.size

theorem Drops.paths {n : ℕ} {r r' : Router} (h : Drops n r r') : r'.paths = r.paths :=
  congrArg PathTables.paths h.tables

theorem drops_dropped (r : Router) (reason : DropReason) (n : ℕ) :
    Drops n r (r.dropped reason n) :=
  ⟨rfl, rfl, dropTotal_dropped .., rfl, rfl⟩

/-! ## Opening a path -/

/-- `r'` is `r` with the connection `c` opened under the next id. -/
structure Opens (c : Connection) (lbKey : Option (SocketAddr × SocketAddr)) (r r' : Router) :
    Prop where
  step : PathStep r.limits.maxCidsPerPath r.nextConnectionId r.paths r'.paths
  paths : r'.paths = r.paths.opened r.nextConnectionId c lbKey
  buffers : r'.buffers = r.buffers
  dropTotal : r'.metrics.dropTotal = r.metrics.dropTotal
  gauge : r'.pathGaugeError = r.pathGaugeError
  size : r'.connections.size = r.connections.size + 1

theorem Opens.lookup_next {c : Connection} {lbKey : Option (SocketAddr × SocketAddr)}
    {r r' : Router} (h : Opens c lbKey r r') :
    r'.connections.lookup r.nextConnectionId = some c :=
  (congrFun (congrArg Paths.conn h.paths) _).trans (Paths.opened_conn_self ..)

/-- The connection `openPath` creates. -/
def newConnection (io : Io) (addr : SocketAddr) (cids : HashSet Bytes)
    (pending : PendingConnection) (route : Route) : Connection where
  upstream := addr
  clientAddr := pending.clientAddr
  initialKeyDcid := pending.initialDcid
  cids := cids
  created := io.now₂
  lastSeen := io.now₂
  deadline := route.timeout.map fun timeout => io.now₂ + timeout
  sni := route.sni

/-- Registering a list of free CIDs one after the other. -/
theorem get_foldl_insert (k : ℕ) (cids : List Bytes) (routes : CidRoutes)
    (hcids : ∀ cid ∈ cids, cid ≠ [] ∧
      (routes.get cid = none ∨ routes.get cid = some k)) (cid : Bytes) :
    (cids.foldl (fun routes cid => (routes.insert cid k).1) routes).get cid =
      if cid ∈ cids then some k else routes.get cid := by
  induction cids generalizing routes with
  | nil => simp
  | cons cid' cids ih =>
    obtain ⟨hne, hfree⟩ := hcids cid' (by simp)
    have hins : ∀ c, (routes.insert cid' k).1.get c =
        if c = cid' then some k else routes.get c := by
      intro c
      rw [CidRoutes.get_insert]
      by_cases hc : c = cid'
      · subst hc
        rcases hfree with h | h <;> simp [h, hne]
      · simp [hc]
    rw [List.foldl_cons, ih]
    · rw [hins]
      by_cases h : cid = cid' <;> simp [h]
    · intro c hc
      refine ⟨(hcids c (by simp [hc])).1, ?_⟩
      rw [hins]
      split
      · exact Or.inr rfl
      · exact (hcids c (by simp [hc])).2

/-- A new connection is entered into all tables at once. -/
theorem registerPath_opens {r : Router} {c : Connection}
    {lbKey : Option (SocketAddr × SocketAddr)} (hr : r.paths.Indexed)
    (hcids : ∀ cid ∈ c.cids, cid ≠ [] ∧ r.cidRoutes.get cid = none)
    (hroom : c.cids.size ≤ r.limits.maxCidsPerPath)
    (hlb : ∀ key, lbKey = some key →
      key = (normalizeSocketAddr c.clientAddr, c.upstream) ∧ r.lbPaths.lookup key = none) :
    Opens c lbKey r
      ({ r with nextConnectionId := r.nextConnectionId + 1 }.registerPath
        r.nextConnectionId c lbKey) := by
  -- the next id is not in use
  have hnone : r.connections.lookup r.nextConnectionId = none := by
    cases h : r.connections.lookup r.nextConnectionId with
    | none => rfl
    | some d => exact absurd (hr.below _ d h) (lt_irrefl _)
  have hsize := Table.size_insert_of_lookup_none c hnone
  have hpaths : ({ r with nextConnectionId := r.nextConnectionId + 1 }.registerPath
      r.nextConnectionId c lbKey).paths = r.paths.opened r.nextConnectionId c lbKey := by
    ext1
    case next => rfl
    case conn =>
      funext j
      simp only [PathTables.paths, registerPath, Paths.opened, Table.lookup_insert,
        Function.update_apply]
    case owner =>
      funext cid
      have hget := get_foldl_insert r.nextConnectionId c.cids.toList r.cidRoutes
        (fun cid h => ⟨(hcids cid h).1, Or.inl (hcids cid h).2⟩) cid
      exact hget.trans (if_congr Iff.rfl rfl rfl)
    case lb =>
      cases lbKey with
      | none => rfl
      | some key =>
        funext key'
        simp only [PathTables.paths, registerPath, Paths.opened, Table.lookup_insert,
          Function.update_apply]
    case clients =>
      funext a
      simp only [PathTables.paths, registerPath, Paths.opened, Table.lookup_insert,
        Function.update_apply]
  refine ⟨?_, hpaths, rfl, rfl, ?_, hsize⟩
  · rw [hpaths]
    exact PathStep.create rfl hcids hroom hlb
  · simp only [pathGaugeError, registerPath, hsize]
    push_cast
    ring

/-- The path of a client to the QUIC-LB server `addr`, if it has one. -/
def sharedPath (r : Router) (clientAddr addr : SocketAddr) : Option ℕ :=
  if r.config.isLbServer (normalizeSocketAddr addr) then
    r.lbPaths.lookup (normalizeSocketAddr clientAddr, normalizeSocketAddr addr)
  else none

/-- The registration of a handshake with the server `addr` is accepted: none of its CIDs
belongs to another connection, and the path it shares or opens is within the limits. -/
structure Registers (io : Io) (r : Router) (pending : PendingConnection) (addr : SocketAddr) :
    Prop where
  cids : r.cidCollision ((r.sharedPath pending.clientAddr addr).getD r.nextConnectionId)
    (claimedCids pending) = false
  shared : ∀ k c, r.sharedPath pending.clientAddr addr = some k →
    r.connections.lookup k = some c →
      c.expired io.now₂ r.idleTimeout = false ∧
      c.cids.size + (HashSet.ofList ((claimedCids pending).filter fun cid =>
        !cid.isEmpty)).toList.countP (fun cid => cid ∉ c.cids) ≤ r.limits.maxCidsPerPath
  opened : r.sharedPath pending.clientAddr addr = none →
    (HashSet.ofList ((claimedCids pending).filter fun cid => !cid.isEmpty)).size ≤
      r.limits.maxCidsPerPath ∧ r.connections.size < r.limits.maxPaths

/-- The non-empty CIDs a handshake claims, each once. -/
def requestedCids (pending : PendingConnection) : HashSet Bytes :=
  HashSet.ofList ((claimedCids pending).filter fun cid => !cid.isEmpty)

/-- A handshake asks for the CIDs it claims, but the empty one. -/
theorem mem_requestedCids {pending : PendingConnection} {cid : Bytes} :
    cid ∈ requestedCids pending ↔ cid ∈ claimedCids pending ∧ cid ≠ [] := by
  rw [requestedCids, HashSet.mem_ofList, List.mem_filter]
  simp

/-- The address a new path to the backend `addr` is connected to: QUIC-LB servers are reached
under their normal form. -/
def upstreamAddr (config : Config) (addr : SocketAddr) : SocketAddr :=
  if config.isLbServer (normalizeSocketAddr addr) then normalizeSocketAddr addr else addr

/-- The entry a new path to the backend `addr` gets in the QUIC-LB index. -/
def lbKey (config : Config) (clientAddr addr : SocketAddr) : Option (SocketAddr × SocketAddr) :=
  if config.isLbServer (normalizeSocketAddr addr) then
    some (normalizeSocketAddr clientAddr, normalizeSocketAddr addr)
  else none

/-- What `establish_and_flush` does after its checks. -/
inductive EstablishCase (cr : Crypto) (io : Io) (r : Router) (pending : PendingConnection)
    (route : Route) : Reply → Prop where
  /-- Nothing is sent, and all its datagrams are dropped. -/
  | refuse {r' : Router} (hdrops : Drops pending.datagrams.length r r')
      (hrefused : ∀ addr, route.backend = .udp addr → ¬r.Registers io pending addr) :
      EstablishCase cr io r pending route (.done r')
  /-- The client has a path to the server. -/
  | share {addr : SocketAddr} {k : ℕ} {c : Connection} (hroute : route.backend = .udp addr)
      (hregisters : r.Registers io pending addr)
      (hshared : r.sharedPath pending.clientAddr addr = some k)
      (hc : r.connections.lookup k = some c) :
      EstablishCase cr io r pending route (r.sharePath cr io k c pending route)
  /-- The client has no path to share. -/
  | create {addr : SocketAddr} (hroute : route.backend = .udp addr)
      (hregisters : r.Registers io pending addr)
      (hshared : r.sharedPath pending.clientAddr addr = none) :
      EstablishCase cr io r pending route
        (r.openPath io (upstreamAddr r.config addr) (requestedCids pending)
          (lbKey r.config pending.clientAddr addr) pending route)

theorem lookup_of_sharedPath {r : Router} {clientAddr addr : SocketAddr} {k : ℕ}
    (h : r.sharedPath clientAddr addr = some k) :
    r.lbPaths.lookup (normalizeSocketAddr clientAddr, normalizeSocketAddr addr) = some k := by
  unfold sharedPath at h
  split at h
  · exact h
  · cases h

/-- The ways in which a handshake can end. -/
theorem establishAndFlush_cases (cr : Crypto) (io : Io) {r : Router} (hr : r.paths.Indexed)
    (pending : PendingConnection) (route : Route) :
    EstablishCase cr io r pending route (r.establishAndFlush cr io pending route) := by
  unfold establishAndFlush
  split
  · rename_i hnull
    refine .refuse (drops_dropped ..) fun addr haddr => ?_
    rw [hnull] at haddr
    cases haddr
  rename_i addr hroute
  dsimp only
  have hroute' : ∀ addr', route.backend = .udp addr' → addr = addr' := fun addr' haddr' =>
    Backend.udp.inj (hroute.symm.trans haddr')
  generalize hexisting : (if r.config.isLbServer (normalizeSocketAddr addr) = true then
    r.lbPaths.lookup (normalizeSocketAddr pending.clientAddr, normalizeSocketAddr addr)
    else none) = existing
  have hshared : r.sharedPath pending.clientAddr addr = existing := hexisting
  split
  · rename_i hcollision
    refine .refuse (drops_dropped ..) fun addr' haddr' h => ?_
    cases hroute' addr' haddr'
    rw [← hshared, h.cids] at hcollision
    cases hcollision
  rename_i hcollision
  have hcids : r.cidCollision ((r.sharedPath pending.clientAddr addr).getD r.nextConnectionId)
      (claimedCids pending) = false := by
    rw [hshared]
    exact Bool.eq_false_iff.mpr hcollision
  have hrefuse : ¬r.Registers io pending addr → EstablishCase cr io r pending route (.done
      ({ r with metrics := { r.metrics with cidLimit := r.metrics.cidLimit + 1 } }.dropped
        .cidLimit pending.datagrams.length)) := fun hlimit =>
    .refuse ⟨rfl, rfl, dropTotal_dropped .., rfl, rfl⟩
      fun addr' haddr' => hroute' addr' haddr' ▸ hlimit
  cases existing with
  | some k =>
    obtain ⟨c, hc, -⟩ := exists_of_lbPaths hr (lookup_of_sharedPath hshared)
    simp only [hc]
    split
    · rename_i hlimit
      exact hrefuse fun h => absurd (h.shared k c hshared hc).2 (not_le.mpr hlimit)
    rename_i hroom
    cases hlive : c.expired io.now₂ r.idleTimeout with
    | true =>
      -- the expired path is found out last, but before anything is changed
      have hdone : r.sharePath cr io k c pending route =
          .done (r.dropped .expired pending.datagrams.length) := by
        rw [sharePath, if_pos hlive]
      rw [hdone]
      refine .refuse (drops_dropped ..) fun addr' haddr' h => ?_
      cases hroute' addr' haddr'
      rw [(h.shared k c hshared hc).1] at hlive
      cases hlive
    | false =>
      refine .share hroute ⟨hcids, ?_, ?_⟩ hshared hc
      · intro k' c' hk' hc'
        cases hshared.symm.trans hk'
        cases hc.symm.trans hc'
        exact ⟨hlive, not_lt.mp hroom⟩
      · intro hnone
        cases hshared.symm.trans hnone
  | none =>
    dsimp only
    split
    · rename_i hlimit
      exact hrefuse fun h => absurd (h.opened hshared).1 (not_le.mpr hlimit)
    rename_i hroom
    split
    · rename_i hfull
      refine .refuse (drops_dropped ..) fun addr' haddr' h => ?_
      cases hroute' addr' haddr'
      exact absurd (h.opened hshared).2 (not_lt.mpr hfull)
    rename_i hpaths
    refine .create hroute ⟨hcids, ?_, fun _ => ⟨not_lt.mp hroom, not_le.mp hpaths⟩⟩ hshared
    intro k' c' hk'
    cases hshared.symm.trans hk'

/-! ## What happens then -/

/-- How a routed handshake ends. -/
inductive EstablishEffect (io : Io) (r : Router) (pending : PendingConnection) (route : Route) :
    Reply → Prop where
  /-- Nothing is sent, and all its datagrams are dropped. -/
  | refuse {r' : Router} (hdrops : Drops pending.datagrams.length r r')
      (hrefused : ∀ addr, route.backend = .udp addr → ¬r.Registers io pending addr) :
      EstablishEffect io r pending route (.done r')
  /-- An existing path of the client to the server takes the datagrams. -/
  | share {addr : SocketAddr} {k : ℕ} {c : Connection} {r' : Router} {message : String}
      (hroute : route.backend = .udp addr) (hc : r.connections.lookup k = some c)
      (hclient : normalizeSocketAddr c.clientAddr = normalizeSocketAddr pending.clientAddr)
      (hupstream : normalizeSocketAddr c.upstream = normalizeSocketAddr addr)
      (hlive : c.expired io.now₂ r.idleTimeout = false) (hacts : ActsOn k r r')
      (hregisters : r.Registers io pending addr)
      (hshared : r.sharedPath pending.clientAddr addr = some k) :
      EstablishEffect io r pending route ⟨r', (flush io k 0 pending.datagrams).1,
        if (flush io k 0 pending.datagrams).2 then .ok else .err message⟩
  /-- The socket cannot be connected. -/
  | fail {addr : SocketAddr} {message : String} (hroute : route.backend = .udp addr)
      (hconnect : io.connect = false) (hregisters : r.Registers io pending addr)
      (hshared : r.sharedPath pending.clientAddr addr = none) :
      EstablishEffect io r pending route
        ⟨{ r with nextConnectionId := r.nextConnectionId + 1 }, [], .err message⟩
  /-- A new path takes the datagrams. -/
  | create {addr upstream : SocketAddr} {cids : HashSet Bytes}
      {lbKey : Option (SocketAddr × SocketAddr)} {r' : Router} {message : String}
      (hroute : route.backend = .udp addr)
      (hupstream : normalizeSocketAddr upstream = normalizeSocketAddr addr)
      (hroom : r.connections.size < r.limits.maxPaths)
      (hopens : Opens (newConnection io upstream cids pending route) lbKey r r')
      (hregisters : r.Registers io pending addr)
      (hshared : r.sharedPath pending.clientAddr addr = none)
      (hplace : upstream = upstreamAddr r.config addr ∧
        lbKey = Router.lbKey r.config pending.clientAddr addr)
      (hconnect : io.connect = true) :
      EstablishEffect io r pending route ⟨r', (flush io r.nextConnectionId 0 pending.datagrams).1,
        if (flush io r.nextConnectionId 0 pending.datagrams).2 then .ok else .err message⟩

/-- Shortening its deadline is a way in which a connection may evolve. -/
theorem shortenDeadline_evolves (c : Connection) (now : Instant) (timeout : Option Duration) :
    c.Evolves (shortenDeadline c now timeout) := by
  cases timeout with
  | none => exact .refl c
  | some timeout =>
    refine ⟨rfl, rfl, rfl, fun d hd => ?_, fun _ h => h⟩
    exact ⟨min d (now + timeout), Nat.min_le_left .., by simp [shortenDeadline, hd]⟩

theorem cids_shortenDeadline (c : Connection) (now : Instant) (timeout : Option Duration) :
    (shortenDeadline c now timeout).cids = c.cids := by
  cases timeout <;> rfl

/-- The connection of a shared path that was handed all datagrams of a handshake. -/
def joined (c : Connection) (now : Instant) (timeout : Option Duration) : Connection :=
  { shortenDeadline c now timeout with lastSeen := now }

/-- The state a shared path is left in when all datagrams were handed to it. -/
def shared (cr : Crypto) (io : Io) (r : Router) (k : ℕ) (c : Connection)
    (pending : PendingConnection) (route : Route) : Router :=
  (r.setConnection k (joined c io.now₂ route.timeout)).addCidRoutes cr k (claimedCids pending)

theorem cids_joined (c : Connection) (now : Instant) (timeout : Option Duration) :
    (joined c now timeout).cids = c.cids :=
  cids_shortenDeadline c now timeout

/-- Joining a path acts on its connection only. -/
theorem joined_actsOn {r : Router} {k : ℕ} {c : Connection}
    (hc : r.connections.lookup k = some c) (now : Instant) (timeout : Option Duration) :
    ActsOn k r (r.setConnection k (joined c now timeout)) := by
  have he := shortenDeadline_evolves c now timeout
  exact actsOn_setConnection hc ⟨he.upstream, he.client, he.created, he.deadline, he.cids⟩
    (cids_joined c now timeout)

theorem shared_actsOn (cr : Crypto) (io : Io) {r : Router} {k : ℕ} {c : Connection}
    (hr : r.paths.Indexed) (hc : r.connections.lookup k = some c) (pending : PendingConnection)
    (route : Route) : ActsOn k r (shared cr io r k c pending route) := by
  have hset := joined_actsOn hc io.now₂ route.timeout
  exact hset.trans (addCidRoutes_actsOn cr (hset.indexed hr) k _)

section Branches

variable {io : Io} {r : Router} {k : ℕ} {c : Connection} {pending : PendingConnection}
  {route : Route}

/-- The datagrams are all handed to the shared path, which then takes the CIDs. -/
theorem sharePath_sent (cr : Crypto) (hlive : c.expired io.now₂ r.idleTimeout = false)
    (hflush : (flush io k 0 pending.datagrams).2 = true) :
    r.sharePath cr io k c pending route =
      ⟨shared cr io r k c pending route, (flush io k 0 pending.datagrams).1, .ok⟩ := by
  rw [sharePath, if_neg (by simp [hlive])]
  cases hfl : flush io k 0 pending.datagrams with
  | mk sends ok =>
    rw [hfl] at hflush
    cases hflush
    rfl

/-- A send fails: only the deadline has been changed by then. -/
theorem sharePath_failed (cr : Crypto) (hlive : c.expired io.now₂ r.idleTimeout = false)
    (hflush : (flush io k 0 pending.datagrams).2 = false) :
    r.sharePath cr io k c pending route =
      ⟨r.setConnection k (shortenDeadline c io.now₂ route.timeout),
        (flush io k 0 pending.datagrams).1, .err "sending UDP datagram"⟩ := by
  rw [sharePath, if_neg (by simp [hlive])]
  cases hfl : flush io k 0 pending.datagrams with
  | mk sends ok =>
    rw [hfl] at hflush
    cases hflush
    rfl

/-- A new path is registered before the first datagram is handed to it. -/
theorem openPath_connected {addr : SocketAddr} {cids : HashSet Bytes}
    {key : Option (SocketAddr × SocketAddr)} (hconnect : io.connect = true) :
    r.openPath io addr cids key pending route =
      ⟨{ r with nextConnectionId := r.nextConnectionId + 1 }.registerPath r.nextConnectionId
          (newConnection io addr cids pending route) key,
        (flush io r.nextConnectionId 0 pending.datagrams).1,
        if (flush io r.nextConnectionId 0 pending.datagrams).2 then .ok
          else .err "flushing pending Initial datagram to backend"⟩ := by
  simp only [openPath, hconnect, Bool.not_true, Bool.false_eq_true, if_false]
  cases flush io r.nextConnectionId 0 pending.datagrams with
  | mk sends ok => cases ok <;> rfl

/-- Without a socket the id is used up and nothing else changes. -/
theorem openPath_unconnected {addr : SocketAddr} {cids : HashSet Bytes}
    {key : Option (SocketAddr × SocketAddr)} (hconnect : io.connect = false) :
    r.openPath io addr cids key pending route =
      ⟨{ r with nextConnectionId := r.nextConnectionId + 1 }, [],
        .err "connecting backend UDP socket"⟩ := by
  simp only [openPath, hconnect, Bool.not_false, if_true]

end Branches

theorem sharePath_effect (cr : Crypto) {io : Io} {r : Router} {k : ℕ} {c : Connection}
    {pending : PendingConnection} {route : Route} {addr : SocketAddr} (hr : r.paths.Indexed)
    (hroute : route.backend = .udp addr) (hregisters : r.Registers io pending addr)
    (hshared : r.sharedPath pending.clientAddr addr = some k)
    (hc : r.connections.lookup k = some c) :
    EstablishEffect io r pending route (r.sharePath cr io k c pending route) := by
  obtain ⟨d, hd, hkey⟩ := exists_of_lbPaths hr (lookup_of_sharedPath hshared)
  cases hc.symm.trans hd
  obtain ⟨hclient, hupstream⟩ := Prod.mk.inj hkey
  have hlive := (hregisters.shared k c hshared hc).1
  have hshare : ∀ r' message, ActsOn k r r' →
      EstablishEffect io r pending route ⟨r', (flush io k 0 pending.datagrams).1,
        if (flush io k 0 pending.datagrams).2 then .ok else .err message⟩ :=
    fun _ _ hacts => .share hroute hc hclient.symm
      (by rw [← hupstream, normalizeSocketAddr_idem]) hlive hacts hregisters hshared
  cases hflush : (flush io k 0 pending.datagrams).2 with
  | false =>
    rw [sharePath_failed cr hlive hflush]
    have hset := actsOn_setConnection hc (shortenDeadline_evolves c io.now₂ route.timeout)
      (cids_shortenDeadline c io.now₂ route.timeout)
    have heffect := hshare _ "sending UDP datagram" hset
    rwa [hflush] at heffect
  | true =>
    rw [sharePath_sent cr hlive hflush]
    have heffect := hshare _ "" (shared_actsOn cr io hr hc pending route)
    rwa [hflush] at heffect

/-- The CIDs of a handshake that passes the collision check for the id `k`. -/
theorem get_of_not_cidCollision {r : Router} {k : ℕ} {cids : List Bytes}
    (h : ¬r.cidCollision k cids = true) {cid : Bytes} (hcid : cid ∈ cids) {j : ℕ}
    (hj : r.cidRoutes.get cid = some j) : j = k := by
  by_contra hne
  refine h (List.any_eq_true.mpr ⟨cid, hcid, ?_⟩)
  simp [hj, hne]

/-- What a new path claims is free. -/
theorem Registers.requestedCids_free {io : Io} {r : Router} {pending : PendingConnection}
    {addr : SocketAddr} (h : r.Registers io pending addr) (hr : r.paths.Indexed)
    (hshared : r.sharedPath pending.clientAddr addr = none) {cid : Bytes}
    (hcid : cid ∈ requestedCids pending) : cid ≠ [] ∧ r.cidRoutes.get cid = none := by
  obtain ⟨hmem, hne⟩ := mem_requestedCids.mp hcid
  refine ⟨hne, ?_⟩
  -- an owner would be the next id, which owns nothing yet
  cases hget : r.cidRoutes.get cid with
  | none => rfl
  | some j =>
    have hcids := h.cids
    rw [hshared, Option.getD_none] at hcids
    have hj := get_of_not_cidCollision (Bool.eq_false_iff.mp hcids) hmem hget
    obtain ⟨d, hd, -⟩ := exists_of_cidRoutes hr hget
    have hlt : j < r.nextConnectionId := hr.below j d hd
    omega

/-- A new path gets an entry in the QUIC-LB index only where there is none. -/
theorem lbKey_eq_some {r : Router} {clientAddr addr : SocketAddr}
    {key : SocketAddr × SocketAddr} (hshared : r.sharedPath clientAddr addr = none)
    (h : lbKey r.config clientAddr addr = some key) :
    key = (normalizeSocketAddr clientAddr, upstreamAddr r.config addr) ∧
      r.lbPaths.lookup key = none := by
  unfold lbKey at h
  unfold sharedPath at hshared
  unfold upstreamAddr
  split at h
  · rename_i hlb
    cases h
    rw [if_pos hlb] at hshared ⊢
    exact ⟨rfl, hshared⟩
  · cases h

/-- The address of the server is the same, up to its form. -/
theorem normalize_upstreamAddr (config : Config) (addr : SocketAddr) :
    normalizeSocketAddr (upstreamAddr config addr) = normalizeSocketAddr addr := by
  unfold upstreamAddr
  split
  · exact normalizeSocketAddr_idem addr
  · rfl

/-- The registration of a new path, before anything is sent. -/
theorem registerPath_opens_of_registers {io : Io} {r : Router} {pending : PendingConnection}
    {addr : SocketAddr} (hr : r.paths.Indexed) (hregisters : r.Registers io pending addr)
    (hshared : r.sharedPath pending.clientAddr addr = none) (route : Route) :
    Opens (newConnection io (upstreamAddr r.config addr) (requestedCids pending) pending route)
      (lbKey r.config pending.clientAddr addr) r
      ({ r with nextConnectionId := r.nextConnectionId + 1 }.registerPath r.nextConnectionId
        (newConnection io (upstreamAddr r.config addr) (requestedCids pending) pending route)
        (lbKey r.config pending.clientAddr addr)) :=
  registerPath_opens hr (fun _ hcid => hregisters.requestedCids_free hr hshared hcid)
    (hregisters.opened hshared).1 (fun _ hkey => lbKey_eq_some hshared hkey)

theorem openPath_effect {io : Io} {r : Router} {pending : PendingConnection} {route : Route}
    {addr : SocketAddr} (hr : r.paths.Indexed) (hroute : route.backend = .udp addr)
    (hregisters : r.Registers io pending addr)
    (hshared : r.sharedPath pending.clientAddr addr = none) :
    EstablishEffect io r pending route
      (r.openPath io (upstreamAddr r.config addr) (requestedCids pending)
        (lbKey r.config pending.clientAddr addr) pending route) := by
  cases hconnect : io.connect with
  | false =>
    rw [openPath_unconnected hconnect]
    exact .fail hroute hconnect hregisters hshared
  | true =>
    rw [openPath_connected hconnect]
    exact .create hroute (normalize_upstreamAddr ..) (hregisters.opened hshared).2
      (registerPath_opens_of_registers hr hregisters hshared route) hregisters hshared ⟨rfl, rfl⟩
      hconnect

/-- What a complete handshake does, case by case. -/
theorem establishAndFlush_effect (cr : Crypto) (io : Io) {r : Router} (hr : r.paths.Indexed)
    (pending : PendingConnection) (route : Route) :
    EstablishEffect io r pending route (r.establishAndFlush cr io pending route) := by
  have hcases := establishAndFlush_cases cr io hr pending route
  generalize r.establishAndFlush cr io pending route = reply at hcases ⊢
  cases hcases with
  | refuse hdrops hrefused => exact .refuse hdrops hrefused
  | share hroute hregisters hshared hc => exact sharePath_effect cr hr hroute hregisters hshared hc
  | create hroute hregisters hshared => exact openPath_effect hr hroute hregisters hshared

end Router

end SniRouter
