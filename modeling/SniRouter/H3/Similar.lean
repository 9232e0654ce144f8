import SniRouter.H3.Registration
import SniRouter.Lib.Related

/-!
# States that differ in the order of their hash maps

The router keeps its state in hash maps and hash sets, whose iteration order is random.
`Router.Similar` relates states that differ in that order only. What is sent over established
paths is the same in similar states, and so is what opens a path or joins one.
-/

namespace SniRouter

/-! ## Similar states -/

/-- Two connections that differ in the order of their CIDs. -/
structure Connection.Similar (c c' : Connection) : Prop where
  upstream : c'.upstream = c.upstream
  clientAddr : c'.clientAddr = c.clientAddr
  initialKeyDcid : c'.initialKeyDcid = c.initialKeyDcid
  cids : c.cids.Similar c'.cids
  created : c'.created = c.created
  lastSeen : c'.lastSeen = c.lastSeen
  deadline : c'.deadline = c.deadline
  sni : c'.sni = c.sni

/-- Two handshakes that differ in the order of the client's CIDs. -/
structure PendingConnection.Similar (p p' : PendingConnection) : Prop where
  clientAddr : p'.clientAddr = p.clientAddr
  initialDcid : p'.initialDcid = p.initialDcid
  clientCids : p.clientCids.Similar p'.clientCids
  datagrams : p'.datagrams = p.datagrams
  bufferedBytes : p'.bufferedBytes = p.bufferedBytes
  crypto : p'.crypto = p.crypto
  created : p'.created = p.created
  lastSeen : p'.lastSeen = p.lastSeen

structure LbConfig.Similar (lb lb' : LbConfig) : Prop where
  codec : lb'.codec = lb.codec
  servers : lb.servers.Related Eq lb'.servers

/-- Two configurations that differ in the order of the QUIC-LB servers of an entry. -/
structure Config.Similar (config config' : Config) : Prop where
  quicLb : List.Forall₂ LbConfig.Similar config.quicLb config'.quicLb
  maxLifetime : config'.maxLifetime = config.maxLifetime
  handshakeTimeout : config'.handshakeTimeout = config.handshakeTimeout
  rules : config'.rules = config.rules
  default : config'.default = config.default

/-- Two sets of counters with the same readings. -/
structure Metrics.Similar (m m' : Metrics) : Prop where
  paths : m'.paths = m.paths
  activePaths : m'.activePaths = m.activePaths
  pending : m'.pending = m.pending
  pendingBytes : m'.pendingBytes = m.pendingBytes
  sni : m.sni.Related Eq m'.sni
  client : m'.client = m.client
  backend : m'.backend = m.backend
  drops : m.drops.Related Eq m'.drops
  cidLimit : m'.cidLimit = m.cidLimit

/-- Two states that differ in the order of their maps and sets only. -/
structure Router.Similar (r r' : Router) : Prop where
  next : r'.nextConnectionId = r.nextConnectionId
  connections : r.connections.Related Connection.Similar r'.connections
  owner : ∀ cid, r'.cidRoutes.get cid = r.cidRoutes.get cid
  lbPaths : r.lbPaths.Related Eq r'.lbPaths
  clients : r.clientRoutes.Related HashSet.Similar r'.clientRoutes
  limits : r'.limits = r.limits
  pendingBytes : r'.pendingBytes = r.pendingBytes
  labels : r.sniMetricLabels.Similar r'.sniMetricLabels
  metrics : r.metrics.Similar r'.metrics
  config : r.config.Similar r'.config
  idleTimeout : r'.idleTimeout = r.idleTimeout
  pending : r.pending.Related PendingConnection.Similar r'.pending

/-- The same sends and the same outcome, in similar states. -/
structure Reply.Similar (a b : Reply) : Prop where
  router : a.router.Similar b.router
  sends : b.sends = a.sends
  outcome : b.outcome = a.outcome

theorem Connection.Similar.trans {a b c : Connection} (hab : a.Similar b) (hbc : b.Similar c) :
    a.Similar c where
  upstream := hbc.upstream.trans hab.upstream
  clientAddr := hbc.clientAddr.trans hab.clientAddr
  initialKeyDcid := hbc.initialKeyDcid.trans hab.initialKeyDcid
  cids := hab.cids.trans hbc.cids
  created := hbc.created.trans hab.created
  lastSeen := hbc.lastSeen.trans hab.lastSeen
  deadline := hbc.deadline.trans hab.deadline
  sni := hbc.sni.trans hab.sni

theorem PendingConnection.Similar.refl (p : PendingConnection) : p.Similar p :=
  ⟨rfl, rfl, fun _ => Iff.rfl, rfl, rfl, rfl, rfl, rfl⟩

theorem PendingConnection.Similar.trans {p q o : PendingConnection} (hpq : p.Similar q)
    (hqo : q.Similar o) : p.Similar o where
  clientAddr := hqo.clientAddr.trans hpq.clientAddr
  initialDcid := hqo.initialDcid.trans hpq.initialDcid
  clientCids := hpq.clientCids.trans hqo.clientCids
  datagrams := hqo.datagrams.trans hpq.datagrams
  bufferedBytes := hqo.bufferedBytes.trans hpq.bufferedBytes
  crypto := hqo.crypto.trans hpq.crypto
  created := hqo.created.trans hpq.created
  lastSeen := hqo.lastSeen.trans hpq.lastSeen

theorem LbConfig.Similar.refl (lb : LbConfig) : lb.Similar lb := ⟨rfl, .refl (fun _ => rfl) _⟩

theorem LbConfig.Similar.trans {a b c : LbConfig} (hab : a.Similar b) (hbc : b.Similar c) :
    a.Similar c :=
  ⟨hbc.codec.trans hab.codec, Table.related_eq_trans hab.servers hbc.servers⟩

theorem Config.Similar.refl (config : Config) : config.Similar config :=
  ⟨List.forall₂_same.mpr fun lb _ => .refl lb, rfl, rfl, rfl, rfl⟩

theorem Config.Similar.trans {a b c : Config} (hab : a.Similar b) (hbc : b.Similar c) :
    a.Similar c where
  quicLb := by
    have hleft := hab.quicLb
    have hright := hbc.quicLb
    generalize a.quicLb = x at hleft ⊢
    generalize b.quicLb = y at hleft hright
    generalize c.quicLb = z at hright ⊢
    induction hleft generalizing z with
    | nil =>
      cases hright
      exact .nil
    | cons hlb hrest ih =>
      cases hright with
      | cons hlb' hrest' => exact .cons (hlb.trans hlb') (ih _ hrest')
  maxLifetime := hbc.maxLifetime.trans hab.maxLifetime
  handshakeTimeout := hbc.handshakeTimeout.trans hab.handshakeTimeout
  rules := hbc.rules.trans hab.rules
  default := hbc.default.trans hab.default

theorem Metrics.Similar.trans {a b c : Metrics} (hab : a.Similar b) (hbc : b.Similar c) :
    a.Similar c where
  paths := hbc.paths.trans hab.paths
  activePaths := hbc.activePaths.trans hab.activePaths
  pending := hbc.pending.trans hab.pending
  pendingBytes := hbc.pendingBytes.trans hab.pendingBytes
  sni := Table.related_eq_trans hab.sni hbc.sni
  client := hbc.client.trans hab.client
  backend := hbc.backend.trans hab.backend
  drops := Table.related_eq_trans hab.drops hbc.drops
  cidLimit := hbc.cidLimit.trans hab.cidLimit

namespace Router.Similar

/-- A router is similar to itself. -/
theorem refl (r : Router) : r.Similar r where
  next := rfl
  connections := .refl (fun _ => ⟨rfl, rfl, rfl, fun _ => Iff.rfl, rfl, rfl, rfl, rfl⟩) _
  owner := fun _ => rfl
  lbPaths := .refl (fun _ => rfl) _
  clients := .refl (fun _ _ => Iff.rfl) _
  limits := rfl
  pendingBytes := rfl
  labels := fun _ => Iff.rfl
  metrics := ⟨rfl, rfl, rfl, rfl, .refl (fun _ => rfl) _, rfl, rfl, .refl (fun _ => rfl) _, rfl⟩
  config := .refl _
  idleTimeout := rfl
  pending := .refl .refl _

/-- Two reorderings after each other are one. -/
theorem trans {r s t : Router} (hrs : r.Similar s) (hst : s.Similar t) : r.Similar t where
  next := hst.next.trans hrs.next
  connections := hrs.connections.trans hst.connections fun _ _ _ => Connection.Similar.trans
  owner := fun cid => (hst.owner cid).trans (hrs.owner cid)
  lbPaths := Table.related_eq_trans hrs.lbPaths hst.lbPaths
  clients := hrs.clients.trans hst.clients fun _ _ _ => HashSet.Similar.trans
  limits := hst.limits.trans hrs.limits
  pendingBytes := hst.pendingBytes.trans hrs.pendingBytes
  labels := hrs.labels.trans hst.labels
  metrics := hrs.metrics.trans hst.metrics
  config := hrs.config.trans hst.config
  idleTimeout := hst.idleTimeout.trans hrs.idleTimeout
  pending := hrs.pending.trans hst.pending fun _ _ _ => PendingConnection.Similar.trans

end Router.Similar

/-- Index consistency does not depend on the order. -/
theorem Router.Similar.indexed {r r' : Router} (h : r.Similar r') (hr : r.paths.Indexed) :
    r'.paths.Indexed := by
  have hlists : ∀ a k, r'.paths.Lists a k ↔ r.paths.Lists a k := by
    intro a k
    exact (h.clients.exists_iff a fun ids ids' hids => hids k).symm
  constructor
  case toOwned =>
    constructor
    case owner_iff =>
      intro cid k
      refine (Eq.congr_left (h.owner cid)).trans ((hr.owner_iff cid k).trans ?_)
      exact and_congr_right fun _ => h.connections.exists_iff k fun c c' hcc' => hcc'.cids cid
    case lists_iff =>
      intro a k
      rw [hlists, hr.lists_iff]
      exact h.connections.exists_iff k fun c c' hcc' => by rw [hcc'.clientAddr]
    case clients_nonempty =>
      intro a ids' hids'
      obtain ⟨ids, hids, hsim⟩ := h.clients.lookup_eq_some hids'
      obtain ⟨k, hk⟩ := hr.clients_nonempty a ids hids
      exact ⟨k, (hsim k).mp hk⟩
    case below =>
      intro k c' hc'
      obtain ⟨c, hc, -⟩ := h.connections.lookup_eq_some hc'
      exact lt_of_lt_of_eq (hr.below k c hc) h.next.symm
  case lbIndexed =>
    intro key k hkey
    have hlb := hr.lbIndexed key k ((Table.related_eq_iff.mp h.lbPaths key).symm.trans hkey)
    refine (h.connections.exists_iff k fun c c' hcc' => ?_).mp hlb
    rw [hcc'.clientAddr, hcc'.upstream]

/-! ## Configurations -/

namespace Config.Similar

variable {config config' : Config}

/-- A CID decodes to the same server, whatever the order of the servers. -/
theorem lbBackend (h : config.Similar config') (cr : Crypto) (cid : Bytes) :
    config'.lbBackend cr cid = config.lbBackend cr cid := by
  unfold Config.lbBackend
  have hentries := h.quicLb
  generalize config.quicLb = lbs at hentries ⊢
  generalize config'.quicLb = lbs' at hentries ⊢
  induction hentries with
  | nil => rfl
  | @cons lb lb' lbs lbs' hlb hrest ih =>
    have hserver : (do
        let plaintext ← lb'.codec.decrypt cr cid
        lb'.servers.lookup (beNat (plaintext.take 4))) = (do
        let plaintext ← lb.codec.decrypt cr cid
        lb.servers.lookup (beNat (plaintext.take 4))) := by
      rw [hlb.codec]
      congr 1
      funext plaintext
      exact Table.related_eq_iff.mp hlb.servers _
    rw [List.findSome?_cons, List.findSome?_cons, hserver, ih]

/-- The same addresses are those of QUIC-LB servers. -/
theorem isLbServer (h : config.Similar config') (addr : SocketAddr) :
    config'.isLbServer addr = config.isLbServer addr := by
  unfold Config.isLbServer
  have hentries := h.quicLb
  generalize config.quicLb = lbs at hentries ⊢
  generalize config'.quicLb = lbs' at hentries ⊢
  induction hentries with
  | nil => rfl
  | @cons lb lb' lbs lbs' hlb hrest ih =>
    have hserver : lb'.servers.values.any (· == addr) = lb.servers.values.any (· == addr) := by
      rw [Bool.eq_iff_iff, List.any_eq_true, List.any_eq_true]
      have hmem : ∀ a, a ∈ lb'.servers.values ↔ a ∈ lb.servers.values := by
        intro a
        simp only [Table.values, List.mem_map, Prod.exists, exists_eq_right, Table.mem_toList,
          Table.related_eq_iff.mp hlb.servers]
      simp only [hmem]
    rw [List.any_cons, List.any_cons, hserver, ih]

/-- The rules are a list, which has the same order on both sides. -/
theorem routeForSni (h : config.Similar config') (peer : SocketAddr) (sni : Option Bytes) :
    config'.routeForSni peer sni = config.routeForSni peer sni := by
  have hdefault : ∀ name, config'.defaultRoute (peerIpV6 peer) name =
      config.defaultRoute (peerIpV6 peer) name := by
    intro name
    unfold Config.defaultRoute
    rw [h.default, h.maxLifetime]
  cases sni with
  | none => exact hdefault none
  | some name =>
    unfold Config.routeForSni
    rw [h.rules]
    dsimp only
    induction config.rules with
    | nil => exact hdefault _
    | cons rule rules ih => rw [routeByRules, routeByRules, h.maxLifetime, ih]

end Config.Similar

/-! ## Counters and single fields -/

/-- Counting an event under a label in both tables. -/
theorem lookup_incBy_related {L : Type} [DecidableEq L] {counters counters' : Table L ℕ}
    (h : counters.Related Eq counters') (label : L) (count : ℕ) :
    (incBy counters label count).Related Eq (incBy counters' label count) := by
  refine h.insert label ?_
  rw [Table.related_eq_iff.mp h]

namespace Router.Similar

variable {r r' : Router}

theorem dropped (h : r.Similar r') (reason : DropReason) (count : ℕ) :
    (r.dropped reason count).Similar (r'.dropped reason count) :=
  { h with
    metrics := { h.metrics with drops := lookup_incBy_related h.metrics.drops reason count } }

theorem receivedClient (h : r.Similar r') (bytes : ℕ) :
    (r.receivedClient bytes).Similar (r'.receivedClient bytes) :=
  { h with metrics := { h.metrics with client := congrArg (·.received bytes) h.metrics.client } }

theorem receivedBackend (h : r.Similar r') (bytes : ℕ) :
    (r.receivedBackend bytes).Similar (r'.receivedBackend bytes) :=
  { h with metrics := { h.metrics with backend := congrArg (·.received bytes) h.metrics.backend } }

theorem cidLimited (h : r.Similar r') :
    ({ r with metrics := { r.metrics with cidLimit := r.metrics.cidLimit + 1 } } : Router).Similar
      { r' with metrics := { r'.metrics with cidLimit := r'.metrics.cidLimit + 1 } } :=
  { h with metrics := { h.metrics with cidLimit := congrArg (· + 1) h.metrics.cidLimit } }

/-- Similar connections stay under the same id. -/
theorem setConnection (h : r.Similar r') (k : ℕ) {c c' : Connection} (hc : c.Similar c') :
    (r.setConnection k c).Similar (r'.setConnection k c') :=
  { h with connections := h.connections.insert k hc }

end Router.Similar

/-- Expiry does not look at the CIDs. -/
theorem Connection.Similar.expired {c c' : Connection} (h : c.Similar c') (now : Instant)
    (idleTimeout : Duration) : c'.expired now idleTimeout = c.expired now idleTimeout := by
  unfold Connection.expired
  rw [h.lastSeen, h.deadline]

theorem Reply.Similar.done {r r' : Router} (h : r.Similar r') :
    (Reply.done r).Similar (Reply.done r') := ⟨h, rfl, rfl⟩

/-! ## Connection IDs -/

/-- The longest match depends on what is registered only. -/
theorem CidRoutes.matchPrefix_congr {routes routes' : CidRoutes}
    (h : ∀ cid, routes'.get cid = routes.get cid) (bytes : Bytes) :
    routes'.matchPrefix bytes = routes.matchPrefix bytes := by
  have hsome : ∀ k, routes'.matchPrefix bytes = some k ↔ routes.matchPrefix bytes = some k := by
    intro k
    rw [matchPrefix_eq_some, matchPrefix_eq_some]
    simp only [h]
  exact Option.ext hsome

/-- Registering a CID succeeds in both indexes or in neither. -/
theorem CidRoutes.insert_congr {routes routes' : CidRoutes}
    (h : ∀ cid, routes'.get cid = routes.get cid) (cid : Bytes) (k : ℕ) :
    (∀ cid', (routes'.insert cid k).1.get cid' = (routes.insert cid k).1.get cid') ∧
      (routes'.insert cid k).2 = (routes.insert cid k).2 := by
  constructor
  · intro cid'
    rw [get_insert, get_insert, h, h]
  · rw [Bool.eq_iff_iff, insert_snd, insert_snd, h]

namespace Router.Similar

variable {r r' : Router}

/-- A CID is learned or refused on both sides. -/
theorem addCidRoute (h : r.Similar r') (cr : Crypto) (k : ℕ) (cid : Bytes) :
    (r.addCidRoute cr k cid).Similar (r'.addCidRoute cr k cid) := by
  unfold Router.addCidRoute
  rw [h.config.lbBackend]
  split
  · exact h
  rcases h.connections.cases k with ⟨hnone, hnone'⟩ | ⟨c, c', hc, hc', hcc'⟩
  · simp only [hnone, hnone']
    exact h
  simp only [hc, hc']
  by_cases hmem : cid ∈ c.cids
  · rw [if_pos hmem, if_pos ((hcc'.cids cid).mp hmem)]
    exact h
  rw [if_neg hmem, if_neg (fun hmem' => hmem ((hcc'.cids cid).mpr hmem'))]
  have hsize : c'.cids.size = c.cids.size := hcc'.cids.size_eq.symm
  by_cases hfull : c.cids.size ≥ r.limits.maxCidsPerPath
  · rw [if_pos hfull, if_pos (by rwa [hsize, h.limits])]
    exact h.cidLimited
  rw [if_neg hfull, if_neg (by rwa [hsize, h.limits])]
  obtain ⟨hget, hsnd⟩ := CidRoutes.insert_congr h.owner cid k
  generalize r.cidRoutes.insert cid k = inserted at hget hsnd ⊢
  generalize r'.cidRoutes.insert cid k = inserted' at hget hsnd ⊢
  obtain ⟨routes, new⟩ := inserted
  obtain ⟨routes', new'⟩ := inserted'
  obtain rfl : new' = new := hsnd
  cases new' with
  | false => exact { h with owner := hget }
  | true =>
    exact { h with
      owner := hget
      connections := h.connections.insert k { hcc' with cids := hcc'.cids.insert cid } }

/-- CIDs that come in the same order are learned alike. -/
theorem addCidRoutes (h : r.Similar r') (cr : Crypto) (k : ℕ) (cids : List Bytes) :
    (r.addCidRoutes cr k cids).Similar (r'.addCidRoutes cr k cids) := by
  induction cids generalizing r r' with
  | nil => exact h
  | cons cid cids ih => exact ih (h.addCidRoute cr k cid)

/-- A datagram belongs to the same connection on both sides. -/
theorem packetConnectionId (h : r.Similar r') (packet : Bytes) :
    r'.packetConnectionId packet = r.packetConnectionId packet := by
  have hshort : r'.matchShortHeaderRoute packet = r.matchShortHeaderRoute packet := by
    unfold matchShortHeaderRoute
    simp only [CidRoutes.matchPrefix_congr h.owner]
  unfold Router.packetConnectionId
  simp only [h.owner, hshort]

/-! ## Established paths -/

/-- A datagram for a connection is forwarded to the same server, with the same CIDs learned. -/
theorem forwardEstablishedClientDatagram (h : r.Similar r') (cr : Crypto) (io : Io) (k : ℕ)
    (peer : SocketAddr) (packet : Bytes) (long : Option LongPacketCids) :
    (r.forwardEstablishedClientDatagram cr io k peer packet long).Similar
      (r'.forwardEstablishedClientDatagram cr io k peer packet long) := by
  unfold Router.forwardEstablishedClientDatagram
  rcases h.connections.cases k with ⟨hnone, hnone'⟩ | ⟨c, c', hc, hc', hcc'⟩
  · simp only [hnone, hnone']
    exact .done h
  simp only [hc, hc', h.idleTimeout, hcc'.expired]
  split
  · exact .done (h.dropped .expired 1)
  have hseen : Connection.Similar { c with clientAddr := peer, lastSeen := io.now₂ }
      { c' with clientAddr := peer, lastSeen := io.now₂ } :=
    { hcc' with clientAddr := rfl, lastSeen := rfl }
  have hset := h.setConnection k hseen
  split
  · exact ⟨hset, rfl, rfl⟩
  split
  · exact ⟨hset.addCidRoute cr k _, rfl, rfl⟩
  · exact ⟨hset, rfl, rfl⟩

/-- The only live path of a client is the same whichever is looked at first. -/
theorem peerConnectionId (h : r.Similar r') (peer : SocketAddr) (now : Instant) :
    r'.peerConnectionId peer now = r.peerConnectionId peer now := by
  have hlive : ∀ id, (r'.connections.lookup id).any (fun c => !c.expired now r'.idleTimeout) =
      (r.connections.lookup id).any (fun c => !c.expired now r.idleTimeout) := by
    intro id
    rcases h.connections.cases id with ⟨hnone, hnone'⟩ | ⟨c, c', hc, hc', hcc'⟩
    · rw [hnone, hnone']
      rfl
    · rw [hc, hc', Option.any_some, Option.any_some, h.idleTimeout, hcc'.expired]
  unfold Router.peerConnectionId
  simp only [hlive]
  rcases h.clients.cases (normalizeSocketAddr peer) with
    ⟨hnone, hnone'⟩ | ⟨ids, ids', hids, hids', hsim⟩
  · rw [hnone, hnone']
  rw [hids, hids']
  simp only [Option.bind_eq_bind, Option.bind_some]
  -- a list with one element has one order
  have hperm := hsim.perm.filter fun id =>
    (r.connections.lookup id).any fun c => !c.expired now r.idleTimeout
  generalize ids.toList.filter _ = live at hperm ⊢
  generalize ids'.toList.filter _ = live' at hperm ⊢
  match live, hperm with
  | [], hperm =>
    cases hperm.nil_eq
    rfl
  | [id], hperm =>
    obtain rfl := List.perm_singleton.mp hperm.symm
    rfl
  | a :: b :: rest, hperm =>
    have hlen := hperm.length_eq
    match live', hlen with
    | a' :: b' :: rest', _ => rfl

/-- A datagram that only its sender identifies takes the same path. -/
theorem forwardByPeerAffinity (h : r.Similar r') (cr : Crypto) (io : Io) (peer : SocketAddr)
    (packet : Bytes) (long : Option LongPacketCids) (validateInitial : Bool) :
    (r.forwardByPeerAffinity cr io peer packet long validateInitial).Similar
      (r'.forwardByPeerAffinity cr io peer packet long validateInitial) := by
  unfold Router.forwardByPeerAffinity
  rw [h.peerConnectionId]
  split
  · exact .done (h.dropped .noUniquePeer 1)
  rename_i id hid
  split
  · rcases h.connections.cases id with ⟨hnone, hnone'⟩ | ⟨c, c', hc, hc', hcc'⟩
    · simp only [hnone, hnone']
      exact ⟨h, rfl, rfl⟩
    simp only [hc, hc', hcc'.initialKeyDcid]
    split
    · exact .done (h.dropped .invalidInitial 1)
    · exact h.forwardEstablishedClientDatagram cr io id peer packet long
  · exact h.forwardEstablishedClientDatagram cr io id peer packet long

/-- A datagram of a server goes to the same client. -/
theorem handleBackendDatagram (h : r.Similar r') (cr : Crypto) (io : Io) (k : ℕ)
    (packet : Bytes) :
    (r.handleBackendDatagram cr io k packet).Similar
      (r'.handleBackendDatagram cr io k packet) := by
  unfold Router.handleBackendDatagram
  replace h := h.receivedBackend packet.length
  generalize r.receivedBackend packet.length = r at h ⊢
  generalize r'.receivedBackend packet.length = r' at h ⊢
  dsimp only
  split
  · exact .done (h.dropped .malformedBackend 1)
  rename_i long hlong
  unfold forwardEstablishedBackendDatagram
  rcases h.connections.cases k with ⟨hnone, hnone'⟩ | ⟨c, c', hc, hc', hcc'⟩
  · simp only [hnone, hnone']
    exact .done (h.dropped .staleBackend 1)
  simp only [hc, hc', h.idleTimeout, hcc'.expired]
  split
  · exact .done (h.dropped .expired 1)
  have hseen : Connection.Similar
      { c with
        lastSeen := io.now₂
        initialKeyDcid := (retryKeyDcid long).getD c.initialKeyDcid }
      { c' with
        lastSeen := io.now₂
        initialKeyDcid := (retryKeyDcid long).getD c'.initialKeyDcid } :=
    { hcc' with
      lastSeen := rfl
      initialKeyDcid := congrArg (retryKeyDcid long).getD hcc'.initialKeyDcid }
  have hset := h.setConnection k hseen
  have hsend : sendToClient io k packet c'.clientAddr = sendToClient io k packet c.clientAddr := by
    rw [hcc'.clientAddr]
  cases advertisedCid long with
  | none => exact ⟨hset, congrArg Prod.fst hsend, congrArg Prod.snd hsend⟩
  | some cid =>
    exact ⟨hset.addCidRoute cr k cid, congrArg Prod.fst hsend, congrArg Prod.snd hsend⟩

end Router.Similar

/-! ## Opening a path -/

/-- Registering CIDs in a row takes those that are free, whatever their order. -/
theorem CidRoutes.get_foldl_insert_eq (k : ℕ) (cids : List Bytes) (routes : CidRoutes)
    (cid : Bytes) :
    (cids.foldl (fun routes cid => (routes.insert cid k).1) routes).get cid =
      if cid ∈ cids ∧ cid ≠ [] ∧ routes.get cid = none then some k else routes.get cid := by
  induction cids generalizing routes with
  | nil => simp
  | cons cid' cids ih =>
    rw [List.foldl_cons, ih, get_insert]
    by_cases hcid : cid = cid'
    · subst hcid
      by_cases hfree : cid ≠ [] ∧ routes.get cid = none
      · simp [hfree]
      · simp only [hfree, and_false, if_false, List.mem_cons, true_or]
    · simp [hcid]

/-- The claims of similar handshakes are the same, but for their order. -/
theorem PendingConnection.Similar.mem_claimedCids {p p' : PendingConnection} (h : p.Similar p')
    (cid : Bytes) : cid ∈ Router.claimedCids p ↔ cid ∈ Router.claimedCids p' := by
  unfold Router.claimedCids
  rw [List.mem_cons, List.mem_cons, h.initialDcid]
  exact or_congr_right (h.clientCids cid)

namespace Router

/-- What adding CIDs to the connection `k` changes when there is room for all of them: the
connection has those that are to be registered, and nobody else is touched. -/
structure Takes (cr : Crypto) (k : ℕ) (cids : List Bytes) (r r' : Router) : Prop where
  conn : ∀ c, r.connections.lookup k = some c → ∃ cids', (∀ cid, cid ∈ cids' ↔
      cid ∈ c.cids ∨ cid ∈ cids ∧ cid ≠ [] ∧ r.config.lbBackend cr cid = none) ∧
    r'.connections.lookup k = some { c with cids := cids' }
  others : ∀ j, j ≠ k → r'.connections.lookup j = r.connections.lookup j
  rest : r' = { r with cidRoutes := r'.cidRoutes, connections := r'.connections }

/-- Where there is room for all that is claimed, a claimed CID is taken in. -/
theorem Room.takes (cr : Crypto) {r : Router} {k : ℕ} {claims : Finset Bytes}
    (h : Room r k claims) (hr : r.paths.Indexed) {cid : Bytes} (hcid : cid ≠ [] → cid ∈ claims) :
    Takes cr k [cid] r (r.addCidRoute cr k cid) := by
  obtain ⟨d, hd, -⟩ := h.conn
  have hcases := addCidRoute_cases cr hr k cid
  generalize r.addCidRoute cr k cid = r' at hcases ⊢
  cases hcases with
  | skip hskip =>
    refine ⟨fun c hc => ⟨c.cids, fun cid' => ?_, hc⟩, fun _ _ => rfl, rfl⟩
    refine ⟨Or.inl, ?_⟩
    rintro (hmem | ⟨hmem, hne, hnone⟩)
    · exact hmem
    · cases List.mem_singleton.mp hmem
      exact absurd hnone (hskip hne)
  | gone hnone => cases hd.symm.trans hnone
  | @known c hc hmem =>
    refine ⟨fun c' hc' => ⟨c'.cids, fun cid' => ?_, hc'⟩, fun _ _ => rfl, rfl⟩
    cases hc.symm.trans hc'
    refine ⟨Or.inl, ?_⟩
    rintro (hmem' | ⟨hmem', -, -⟩)
    · exact hmem'
    · cases List.mem_singleton.mp hmem'
      exact hmem
  | full hnew hfull =>
    exact absurd hfull (not_le.mpr (h.size_lt hnew.conn (hcid hnew.nonempty) hnew.notMem))
  | owned hnew hget hj => exact absurd (h.free cid (hcid hnew.nonempty) _ hget) hj
  | @learn c routes hnew hroom hfree hroutes =>
    refine ⟨fun c' hc' => ?_, fun j hj => ?_, rfl⟩
    · cases hnew.conn.symm.trans hc'
      refine ⟨c.cids.insert cid, fun cid' => ?_, Table.lookup_insert_self ..⟩
      rw [HashSet.mem_insert, List.mem_singleton]
      constructor
      · rintro (rfl | hold)
        · exact Or.inr ⟨rfl, hnew.nonempty, hnew.undecoded⟩
        · exact Or.inl hold
      · rintro (hold | ⟨rfl, -, -⟩)
        · exact Or.inr hold
        · exact Or.inl rfl
    · exact (Table.lookup_insert ..).trans (if_neg hj)

/-- So are several, in any order. -/
theorem Room.takes_addCidRoutes (cr : Crypto) {r : Router} {k : ℕ} {claims : Finset Bytes}
    (h : Room r k claims) (hr : r.paths.Indexed) {cids : List Bytes}
    (hcids : ∀ cid ∈ cids, cid ≠ [] → cid ∈ claims) :
    Takes cr k cids r (r.addCidRoutes cr k cids) := by
  induction cids generalizing r with
  | nil => exact ⟨fun c hc => ⟨c.cids, by simp, hc⟩, fun _ _ => rfl, rfl⟩
  | cons cid cids ih =>
    have hone := h.takes cr hr (hcids cid List.mem_cons_self)
    have hrest := ih (h.addCidRoute cr hr (hcids cid List.mem_cons_self)).1
      ((addCidRoute_actsOn cr hr k cid).indexed hr)
      (fun cid' hcid' => hcids cid' (List.mem_cons_of_mem _ hcid'))
    have hconfig := config_addCidRoute cr hr k cid
    refine ⟨fun c hc => ?_, fun j hj => (hrest.others j hj).trans (hone.others j hj), ?_⟩
    · obtain ⟨cids₁, hmem₁, hc₁⟩ := hone.conn c hc
      obtain ⟨cids₂, hmem₂, hc₂⟩ := hrest.conn _ hc₁
      refine ⟨cids₂, fun cid' => ?_, hc₂⟩
      rw [hmem₂, hconfig]
      dsimp only
      rw [hmem₁, List.mem_singleton, List.mem_cons]
      tauto
    · have hrest₁ := hone.rest
      have hrest₂ := hrest.rest
      rw [show r.addCidRoutes cr k (cid :: cids) =
        (r.addCidRoute cr k cid).addCidRoutes cr k cids from rfl]
      generalize (r.addCidRoute cr k cid).addCidRoutes cr k cids = r₂ at hrest₂ ⊢
      generalize r.addCidRoute cr k cid = r₁ at hrest₁ hrest₂
      rw [hrest₁] at hrest₂
      exact hrest₂

end Router

/-- Similar handshakes ask for the same CIDs. -/
theorem PendingConnection.Similar.requestedCids {p p' : PendingConnection} (h : p.Similar p') :
    (Router.requestedCids p).Similar (Router.requestedCids p') := by
  intro cid
  rw [Router.mem_requestedCids, Router.mem_requestedCids, h.mem_claimedCids]

/-- The second handshake on a path shortens the deadline and joins it alike. -/
theorem Connection.Similar.joined {c c' : Connection} (h : c.Similar c') (now : Instant)
    (timeout : Option Duration) :
    (Router.shortenDeadline c now timeout).Similar (Router.shortenDeadline c' now timeout) ∧
      (Router.joined c now timeout).Similar (Router.joined c' now timeout) := by
  have hshort : (Router.shortenDeadline c now timeout).Similar
      (Router.shortenDeadline c' now timeout) := by
    cases timeout with
    | none => exact h
    | some timeout =>
      unfold Router.shortenDeadline
      dsimp only
      rw [h.deadline]
      exact { h with deadline := rfl }
  exact ⟨hshort, { hshort with lastSeen := rfl }⟩

/-- The checks that are made before a path is shared. -/
theorem Router.registers_of_shared {r : Router} (io : Io) {k : ℕ} {c : Connection}
    {p : PendingConnection} {addr : SocketAddr}
    (hshared : r.sharedPath p.clientAddr addr = some k)
    (hfree : r.cidCollision k (claimedCids p) = false) (hc : r.connections.lookup k = some c)
    (hlive : c.expired io.now₂ r.idleTimeout = false)
    (hroom : c.cids.size + (requestedCids p).toList.countP (fun cid => cid ∉ c.cids) ≤
      r.limits.maxCidsPerPath) : r.Registers io p addr := by
  refine ⟨?_, ?_, ?_⟩
  · rw [hshared]
    exact hfree
  · intro k' c' hk' hc'
    cases hshared.symm.trans hk'
    cases hc.symm.trans hc'
    exact ⟨hlive, hroom⟩
  · intro hnone
    cases hshared.symm.trans hnone

namespace Router.Similar

variable {r r' : Router}

/-- A collision does not depend on the order in which the CIDs are checked. -/
theorem cidCollision (h : r.Similar r') (k : ℕ) {cids cids' : List Bytes}
    (hcids : ∀ cid, cid ∈ cids ↔ cid ∈ cids') :
    r'.cidCollision k cids' = r.cidCollision k cids := by
  unfold Router.cidCollision
  rw [Bool.eq_iff_iff, List.any_eq_true, List.any_eq_true]
  simp only [h.owner, hcids]

/-- The QUIC-LB path of a client is the same. -/
theorem sharedPath (h : r.Similar r') (clientAddr addr : SocketAddr) :
    r'.sharedPath clientAddr addr = r.sharedPath clientAddr addr := by
  unfold Router.sharedPath
  rw [h.config.isLbServer, Table.related_eq_iff.mp h.lbPaths]

section Share

variable {cr : Crypto} {io : Io} {k : ℕ} {c c' : Connection} {p p' : PendingConnection}
  {addr : SocketAddr}

/-- Adding the CIDs of a handshake in whichever order the set has them. -/
theorem shared (h : r.Similar r') (hr : r.paths.Indexed) (hr' : r'.paths.Indexed)
    (hregisters : r.Registers io p addr) (hregisters' : r'.Registers io p' addr)
    (hshared : r.sharedPath p.clientAddr addr = some k)
    (hc : r.connections.lookup k = some c) (hc' : r'.connections.lookup k = some c')
    (hcc' : c.Similar c') (hp : p.Similar p') (route : Route) :
    (Router.shared cr io r k c p route).Similar (Router.shared cr io r' k c' p' route) := by
  have hshared' : r'.sharedPath p'.clientAddr addr = some k := by
    rw [hp.clientAddr, h.sharedPath, hshared]
  have hset := h.setConnection k (hcc'.joined io.now₂ route.timeout).2
  have htakes :=
    (hregisters.room hr hshared hc (cids_joined c io.now₂ route.timeout)).takes_addCidRoutes
    cr ((joined_actsOn hc io.now₂ route.timeout).indexed hr)
    (fun cid hcid hne => mem_claimedBy hcid hne)
  have htakes' := (hregisters'.room hr' hshared' hc'
    (cids_joined c' io.now₂ route.timeout)).takes_addCidRoutes cr
    ((joined_actsOn hc' io.now₂ route.timeout).indexed hr')
    (fun cid hcid hne => mem_claimedBy hcid hne)
  have hget : ∀ cid, (Router.shared cr io r' k c' p' route).cidRoutes.get cid =
      (Router.shared cr io r k c p route).cidRoutes.get cid := by
    intro cid
    rw [get_shared cr hr' hregisters' hshared' hc', get_shared cr hr hregisters hshared hc,
      h.owner, h.config.lbBackend]
    simp only [hp.mem_claimedCids]
  have hconn : (Router.shared cr io r k c p route).connections.Related Connection.Similar
      (Router.shared cr io r' k c' p' route).connections := by
    intro j
    by_cases hj : j = k
    · subst hj
      obtain ⟨cids, hmem, hlook⟩ := htakes.conn _ (Table.lookup_insert_self ..)
      obtain ⟨cids', hmem', hlook'⟩ := htakes'.conn _ (Table.lookup_insert_self ..)
      rw [Router.shared, Router.shared, hlook, hlook']
      refine .some { (hcc'.joined io.now₂ route.timeout).2 with cids := fun cid => ?_ }
      have hlb := hset.config.lbBackend cr cid
      rw [hmem, hmem', hlb, ((hcc'.joined io.now₂ route.timeout).2.cids cid),
        hp.mem_claimedCids]
    · rw [Router.shared, Router.shared, htakes.others j hj, htakes'.others j hj]
      exact hset.connections j
  have hrest : Router.shared cr io r k c p route = _ := htakes.rest
  have hrest' : Router.shared cr io r' k c' p' route = _ := htakes'.rest
  rw [← Router.shared] at hrest hrest'
  generalize Router.shared cr io r k c p route = s at hget hconn hrest ⊢
  generalize Router.shared cr io r' k c' p' route = s' at hget hconn hrest' ⊢
  rw [hrest, hrest']
  exact { hset with owner := hget, connections := hconn }

/-- As many of the requested CIDs are new to the path. -/
theorem countP_requestedCids (hcc' : c.Similar c') (hp : p.Similar p') :
    (requestedCids p').toList.countP (fun cid => cid ∉ c'.cids) =
      (requestedCids p).toList.countP fun cid => cid ∉ c.cids := by
  rw [← hp.requestedCids.perm.countP_eq]
  refine List.countP_congr fun cid _ => ?_
  simp only [← hcc'.cids cid]

/-- A handshake that has room for its CIDs shares its path alike. -/
theorem sharePath (h : r.Similar r') (hr : r.paths.Indexed) (hr' : r'.paths.Indexed)
    (hshared : r.sharedPath p.clientAddr addr = some k)
    (hfree : r.cidCollision k (claimedCids p) = false)
    (hc : r.connections.lookup k = some c) (hc' : r'.connections.lookup k = some c')
    (hcc' : c.Similar c') (hp : p.Similar p')
    (hroom : c.cids.size + (requestedCids p).toList.countP (fun cid => cid ∉ c.cids) ≤
      r.limits.maxCidsPerPath) (route : Route) :
    (r.sharePath cr io k c p route).Similar (r'.sharePath cr io k c' p' route) := by
  cases hlive : c.expired io.now₂ r.idleTimeout with
  | true =>
    have hlive' : c'.expired io.now₂ r'.idleTimeout = true := by
      rw [h.idleTimeout, hcc'.expired, hlive]
    rw [Router.sharePath, Router.sharePath, if_pos hlive, if_pos hlive', hp.datagrams]
    exact .done (h.dropped .expired _)
  | false =>
    have hlive' : c'.expired io.now₂ r'.idleTimeout = false := by
      rw [h.idleTimeout, hcc'.expired, hlive]
    cases hflush : (flush io k 0 p.datagrams).2 with
    | false =>
      rw [sharePath_failed cr hlive hflush, sharePath_failed cr hlive' (by rwa [hp.datagrams]),
        hp.datagrams]
      exact ⟨h.setConnection k (hcc'.joined io.now₂ route.timeout).1, rfl, rfl⟩
    | true =>
      have hregisters := registers_of_shared io hshared hfree hc hlive hroom
      have hshared' : r'.sharedPath p'.clientAddr addr = some k := by
        rw [hp.clientAddr, h.sharedPath, hshared]
      have hregisters' := registers_of_shared io hshared'
        (by rw [h.cidCollision k hp.mem_claimedCids, hfree]) hc' hlive'
        (by rwa [countP_requestedCids hcc' hp, ← hcc'.cids.size_eq, h.limits])
      rw [sharePath_sent cr hlive hflush, sharePath_sent cr hlive' (by rwa [hp.datagrams]),
        hp.datagrams]
      exact ⟨h.shared hr hr' hregisters hregisters' hshared hc hc' hcc' hp route, rfl, rfl⟩

end Share

/-- A new path enters all the indexes. -/
theorem registerPath (h : r.Similar r') (k : ℕ) {c c' : Connection} (hcc' : c.Similar c')
    (lbKey : Option (SocketAddr × SocketAddr)) :
    (r.registerPath k c lbKey).Similar (r'.registerPath k c' lbKey) := by
  have hget : ∀ cid, (r'.registerPath k c' lbKey).cidRoutes.get cid =
      (r.registerPath k c lbKey).cidRoutes.get cid := by
    intro cid
    have hmem : cid ∈ c'.cids.toList ↔ cid ∈ c.cids.toList := (hcc'.cids cid).symm
    unfold Router.registerPath
    dsimp only
    rw [CidRoutes.get_foldl_insert_eq, CidRoutes.get_foldl_insert_eq, h.owner]
    exact if_congr (and_congr_left' hmem) rfl rfl
  have hids : ((r.clientRoutes.lookup (normalizeSocketAddr c.clientAddr)).getD ∅).Similar
      ((r'.clientRoutes.lookup (normalizeSocketAddr c.clientAddr)).getD ∅) := by
    rcases h.clients.cases (normalizeSocketAddr c.clientAddr) with
      ⟨hnone, hnone'⟩ | ⟨ids, ids', hids, hids', hsim⟩
    · rw [hnone, hnone']
      exact fun _ => Iff.rfl
    · rw [hids, hids']
      exact hsim
  have hclients : (r.registerPath k c lbKey).clientRoutes.Related HashSet.Similar
      (r'.registerPath k c' lbKey).clientRoutes := by
    unfold Router.registerPath
    dsimp only
    rw [hcc'.clientAddr]
    exact h.clients.insert _ (hids.insert k)
  have hlb : (r.registerPath k c lbKey).lbPaths.Related Eq
      (r'.registerPath k c' lbKey).lbPaths := by
    cases lbKey with
    | none => exact h.lbPaths
    | some key => exact h.lbPaths.insert key rfl
  exact { h with
    connections := h.connections.insert k hcc'
    owner := hget
    lbPaths := hlb
    clients := hclients
    metrics := { h.metrics with
      paths := congrArg (· + 1) h.metrics.paths
      activePaths := congrArg (· + 1) h.metrics.activePaths } }

/-- A new path gets the same id, socket and deadline. -/
theorem openPath (h : r.Similar r') (io : Io) (addr : SocketAddr) {cids cids' : HashSet Bytes}
    (hcids : cids.Similar cids') (lbKey : Option (SocketAddr × SocketAddr))
    {p p' : PendingConnection} (hp : p.Similar p') (route : Route) :
    (r.openPath io addr cids lbKey p route).Similar (r'.openPath io addr cids' lbKey p' route) := by
  have hnext : ({ r with nextConnectionId := r.nextConnectionId + 1 } : Router).Similar
      { r' with nextConnectionId := r'.nextConnectionId + 1 } :=
    { h with next := congrArg (· + 1) h.next }
  cases hconnect : io.connect with
  | false =>
    rw [openPath_unconnected hconnect, openPath_unconnected hconnect]
    exact ⟨hnext, rfl, rfl⟩
  | true =>
    rw [openPath_connected hconnect, openPath_connected hconnect, h.next, hp.datagrams]
    rw [h.next] at hnext
    refine ⟨hnext.registerPath _ ?_ lbKey, rfl, rfl⟩
    exact {
      upstream := rfl
      clientAddr := hp.clientAddr
      initialKeyDcid := hp.initialDcid
      cids := hcids
      created := rfl
      lastSeen := rfl
      deadline := rfl
      sni := rfl }

/-- A complete handshake shares a path, opens one or is refused, the same on both sides. -/
theorem establishAndFlush (h : r.Similar r') (hr : r.paths.Indexed) (hr' : r'.paths.Indexed)
    (cr : Crypto) (io : Io) {p p' : PendingConnection} (hp : p.Similar p') (route : Route) :
    (r.establishAndFlush cr io p route).Similar (r'.establishAndFlush cr io p' route) := by
  unfold Router.establishAndFlush
  rw [hp.datagrams]
  split
  · exact .done (h.dropped .nullBackend _)
  rename_i addr haddr
  dsimp only
  rw [hp.clientAddr, h.config.isLbServer, Table.related_eq_iff.mp h.lbPaths,
    h.cidCollision _ hp.mem_claimedCids]
  generalize hexisting : (if r.config.isLbServer (normalizeSocketAddr addr) = true then
    r.lbPaths.lookup (normalizeSocketAddr p.clientAddr, normalizeSocketAddr addr)
    else none) = existing
  have hshared : r.sharedPath p.clientAddr addr = existing := hexisting
  rw [h.next]
  split
  · exact .done (h.dropped .cidCollision _)
  rename_i hfree
  have hfold : ∀ q, HashSet.ofList ((claimedCids q).filter fun cid => !cid.isEmpty) =
      requestedCids q := fun _ => rfl
  simp only [hfold]
  have hrefuse := h.cidLimited.dropped .cidLimit p.datagrams.length
  cases existing with
  | some k =>
    rcases h.connections.cases k with ⟨hnone, hnone'⟩ | ⟨c, c', hc, hc', hcc'⟩
    · simp only [hnone, hnone']
      exact ⟨h, rfl, rfl⟩
    simp only [hc, hc']
    have hsize : c'.cids.size = c.cids.size := hcc'.cids.size_eq.symm
    have hcount := countP_requestedCids hcc' hp
    by_cases hroom : c.cids.size + (requestedCids p).toList.countP (fun cid => cid ∉ c.cids) >
        r.limits.maxCidsPerPath
    · have hroom' : c'.cids.size +
          (requestedCids p').toList.countP (fun cid => cid ∉ c'.cids) >
          r'.limits.maxCidsPerPath := by
        rwa [hsize, hcount, h.limits]
      rw [if_pos hroom, if_pos hroom']
      exact .done hrefuse
    · have hroom' : ¬c'.cids.size +
          (requestedCids p').toList.countP (fun cid => cid ∉ c'.cids) >
          r'.limits.maxCidsPerPath := by
        rwa [hsize, hcount, h.limits]
      rw [if_neg hroom, if_neg hroom']
      exact h.sharePath hr hr' hshared (Bool.eq_false_iff.mpr hfree) hc hc' hcc' hp
        (not_lt.mp hroom) route
  | none =>
    dsimp only
    have hsize : (requestedCids p').size = (requestedCids p).size :=
      hp.requestedCids.size_eq.symm
    have hpaths : r'.connections.size = r.connections.size := h.connections.size_eq.symm
    by_cases hroom : (requestedCids p).size > r.limits.maxCidsPerPath
    · have hroom' : (requestedCids p').size > r'.limits.maxCidsPerPath := by
        rwa [hsize, h.limits]
      rw [if_pos hroom, if_pos hroom']
      exact .done hrefuse
    have hroom' : ¬(requestedCids p').size > r'.limits.maxCidsPerPath := by
      rwa [hsize, h.limits]
    rw [if_neg hroom, if_neg hroom']
    by_cases hfull : r.connections.size ≥ r.limits.maxPaths
    · have hfull' : r'.connections.size ≥ r'.limits.maxPaths := by rwa [hpaths, h.limits]
      rw [if_pos hfull, if_pos hfull']
      exact .done (h.dropped .pathLimit _)
    · have hfull' : ¬r'.connections.size ≥ r'.limits.maxPaths := by rwa [hpaths, h.limits]
      rw [if_neg hfull, if_neg hfull']
      exact h.openPath io _ hp.requestedCids _ hp route

end Router.Similar

end SniRouter
