import SniRouter.H3.CidRoutes
import SniRouter.H3.Config
import SniRouter.H3.Reassembly
import SniRouter.Lib.Run

/-!
# The HTTP/3 router

The state of `Router` and its handlers, as pure functions on that state. What the operating
system answers during a call (clock readings, whether a socket operation succeeds) is the
argument `Io`; what a handler hands to sockets is listed in its `Reply` together with the
state it leaves, which it also leaves when it returns an error.
-/

namespace SniRouter

/-- `MAX_PENDING_DATAGRAMS`. -/
def maxPendingDatagrams : ℕ := 32

/-- `MAX_PENDING_BYTES`. -/
def maxPendingBytes : ℕ := 128 * 1024

/-- `MAX_SNI_METRIC_LABELS`. -/
def maxSniMetricLabels : ℕ := 1024

/-- `MAX_SNI_METRIC_LABEL_BYTES`. -/
def maxSniMetricLabelBytes : ℕ := 255

/-! ## State -/

structure Limits where
  maxPaths : ℕ
  maxPendingHandshakes : ℕ
  maxPendingBytes : ℕ
  maxCidsPerPath : ℕ

/-- `Limits::default()`. -/
def Limits.default : Limits := ⟨1024, 1024, 16 * 1024 * 1024, 64⟩

/-- The reasons of the counter `quic_routing_dropped_datagrams_total`; each constructor is
the label of that name. -/
inductive DropReason where
  | malformed
  | expired
  | unexpectedPeer
  | noUniquePeer
  | invalidInitial
  | staleBackend
  | malformedBackend
  | unsupportedPacket
  | invalidFrames
  | pendingHandshakeLimit
  | pendingBytesLimit
  | cryptoFragmentLimit
  | nullBackend
  | cidCollision
  | cidLimit
  | pathLimit
  | pendingTimeout
deriving DecidableEq

/-- `IntCounterVec::with_label_values(label).inc_by(count)`: one counter per label, created
by the first use of it. -/
def incBy {L : Type} [DecidableEq L] (counters : Table L ℕ) (label : L) (count : ℕ) :
    Table L ℕ :=
  counters.insert label ((counters.lookup label).getD 0 + count)

theorem total_incBy {L : Type} [DecidableEq L] (counters : Table L ℕ) (label : L) (count : ℕ) :
    (incBy counters label count).total (fun _ n => n) = counters.total (fun _ n => n) + count := by
  have h := Table.total_erase_add (fun _ n => n) counters label
  rw [incBy, Table.total_insert, ← h]
  cases counters.lookup label <;> simp [add_assoc]

structure Traffic where
  datagrams : ℕ
  bytes : ℕ

def Traffic.received (t : Traffic) (bytes : ℕ) : Traffic := ⟨t.datagrams + 1, t.bytes + bytes⟩

structure Metrics where
  paths : ℕ
  activePaths : ℤ
  pending : ℤ
  pendingBytes : ℤ
  sni : Table Bytes ℕ
  client : Traffic
  backend : Traffic
  drops : Table DropReason ℕ
  cidLimit : ℕ

/-- `Metrics::default()`. -/
def Metrics.default : Metrics := ⟨0, 0, 0, 0, ∅, ⟨0, 0⟩, ⟨0, 0⟩, ∅, 0⟩

/-- A handshake whose ClientHello is not complete yet. -/
structure PendingConnection where
  clientAddr : SocketAddr
  initialDcid : Bytes
  clientCids : HashSet Bytes
  datagrams : List Bytes
  bufferedBytes : ℕ
  crypto : CryptoReassembly
  created : Instant
  lastSeen : Instant

/-- A backend path. `upstream` is the address its backend socket is connected to. -/
structure Connection where
  upstream : SocketAddr
  clientAddr : SocketAddr
  initialKeyDcid : Bytes
  cids : HashSet Bytes
  created : Instant
  lastSeen : Instant
  deadline : Option Instant
  sni : Option Bytes

def Connection.expired (conn : Connection) (now : Instant) (idleTimeout : Duration) : Bool :=
  now - conn.lastSeen ≥ idleTimeout || conn.deadline.any fun deadline => now ≥ deadline

/-- The paths and the three indexes into them. -/
structure PathTables where
  nextConnectionId : ℕ
  connections : Table ℕ Connection
  cidRoutes : CidRoutes
  lbPaths : Table (SocketAddr × SocketAddr) ℕ
  clientRoutes : Table SocketAddr (HashSet ℕ)

structure Router extends PathTables where
  limits : Limits
  pendingBytes : ℕ
  sniMetricLabels : HashSet Bytes
  metrics : Metrics
  config : Config
  idleTimeout : Duration
  pending : Table (SocketAddr × Bytes) PendingConnection

/-- `Router::new`. -/
def Router.new (config : Config) (idleTimeout : Duration) : Router where
  nextConnectionId := 0
  connections := ∅
  cidRoutes := CidRoutes.empty
  lbPaths := ∅
  clientRoutes := ∅
  limits := Limits.default
  pendingBytes := 0
  sniMetricLabels := ∅
  metrics := Metrics.default
  config := config
  idleTimeout := idleTimeout
  pending := ∅

/-! ## What a handler sees and does -/

/-- The answers of the operating system during one call of a handler. A handler reads the
clock at most twice for a decision: `now₁` is the reading made while it looks for a path,
`now₂` the one made where a path is used or created. -/
structure Io where
  now₁ : Instant
  now₂ : Instant
  /-- Whether `connect_backend_socket` succeeds. -/
  connect : Bool
  /-- Whether the `i`-th call of `send_or_queue` returns `Ok`. -/
  send : ℕ → Bool
  /-- `local_addr()` of the client socket. -/
  localAddr : Option SocketAddr

/-- A call of `send_or_queue`, with its result. -/
inductive Send where
  | backend (connId : ℕ) (datagram : Bytes) (ok : Bool)
  | client (connId : ℕ) (addr : SocketAddr) (datagram : Bytes) (ok : Bool)
deriving DecidableEq

/-- How a handler ends: `Ok(())`, an error, or a failed `expect` or map index. -/
inductive Outcome where
  | ok
  | err (message : String)
  | panic (message : String)
deriving DecidableEq

structure Reply where
  router : Router
  sends : List Send
  outcome : Outcome

/-- `Ok(())` without anything sent. -/
def Reply.done (r : Router) : Reply := ⟨r, [], .ok⟩

namespace Router

/-- `Metrics::dropped`. -/
def dropped (r : Router) (reason : DropReason) (count : ℕ) : Router :=
  { r with metrics := { r.metrics with drops := incBy r.metrics.drops reason count } }

def receivedClient (r : Router) (bytes : ℕ) : Router :=
  { r with metrics := { r.metrics with client := r.metrics.client.received bytes } }

def receivedBackend (r : Router) (bytes : ℕ) : Router :=
  { r with metrics := { r.metrics with backend := r.metrics.backend.received bytes } }

/-- Writes back a connection that was borrowed mutably. -/
def setConnection (r : Router) (connId : ℕ) (conn : Connection) : Router :=
  { r with connections := r.connections.insert connId conn }

def setConfig (r : Router) (config : Config) : Router := { r with config := config }

/-! ## Connection IDs -/

def addCidRoute (cr : Crypto) (r : Router) (connId : ℕ) (cid : Bytes) : Router :=
  if cid.isEmpty ∨ (r.config.lbBackend cr cid).isSome then r
  else
    match r.connections.lookup connId with
    | none => r
    | some conn =>
      if cid ∈ conn.cids then r
      else if conn.cids.size ≥ r.limits.maxCidsPerPath then
        { r with metrics := { r.metrics with cidLimit := r.metrics.cidLimit + 1 } }
      else
        match r.cidRoutes.insert cid connId with
        | (routes, false) => { r with cidRoutes := routes }
        | (routes, true) =>
          { r with
            cidRoutes := routes
            connections := r.connections.insert connId { conn with cids := conn.cids.insert cid } }

def addCidRoutes (cr : Crypto) (r : Router) (connId : ℕ) (cids : List Bytes) : Router :=
  cids.foldl (fun r cid => r.addCidRoute cr connId cid) r

def matchShortHeaderRoute (r : Router) (packet : Bytes) : Option ℕ :=
  match packet with
  | [] => none
  | first :: rest => if first &&& 0x80 ≠ 0 then none else r.cidRoutes.matchPrefix rest

def packetConnectionId (r : Router) (packet : Bytes) :
    Except String (Option LongPacketCids × Option ℕ) := do
  match ← parseLongPacketCids packet with
  | some long => return (some long, r.cidRoutes.get long.dcid)
  | none => return (none, r.matchShortHeaderRoute packet)

/-- The source connection ID a long header advertises, when it is not empty. -/
def advertisedCid (long : Option LongPacketCids) : Option Bytes :=
  long.bind fun long => if long.scid.isEmpty then none else some long.scid

/-! ## Established paths -/

def forwardEstablishedClientDatagram (cr : Crypto) (io : Io) (r : Router) (connId : ℕ)
    (peer : SocketAddr) (packet : Bytes) (long : Option LongPacketCids) : Reply :=
  match r.connections.lookup connId with
  | none => .done r
  | some conn =>
    if conn.expired io.now₂ r.idleTimeout then .done (r.dropped .expired 1)
    else
      let r := r.setConnection connId { conn with clientAddr := peer, lastSeen := io.now₂ }
      let sends := [.backend connId packet (io.send 0)]
      if !io.send 0 then ⟨r, sends, .err "sending UDP datagram"⟩
      else
        match advertisedCid long with
        | some cid => ⟨r.addCidRoute cr connId cid, sends, .ok⟩
        | none => ⟨r, sends, .ok⟩

/-- The only live connection of a client address. -/
def peerConnectionId (r : Router) (peer : SocketAddr) (now : Instant) : Option ℕ := do
  let ids ← r.clientRoutes.lookup (normalizeSocketAddr peer)
  let live := ids.toList.filter fun id =>
    (r.connections.lookup id).any fun conn => !conn.expired now r.idleTimeout
  match live with
  | [id] => some id
  | _ => none

def forwardByPeerAffinity (cr : Crypto) (io : Io) (r : Router) (peer : SocketAddr)
    (packet : Bytes) (long : Option LongPacketCids) (validateInitial : Bool) : Reply :=
  match r.peerConnectionId peer io.now₁ with
  | none => .done (r.dropped .noUniquePeer 1)
  | some id =>
    if validateInitial then
      match r.connections.lookup id with
      | none => ⟨r, [], .panic "live peer connection"⟩
      | some conn =>
        match decryptInitialPacketWithDcid cr packet (some conn.initialKeyDcid) with
        | .error _ => .done (r.dropped .invalidInitial 1)
        | .ok _ => r.forwardEstablishedClientDatagram cr io id peer packet long
    else r.forwardEstablishedClientDatagram cr io id peer packet long

/-- `ProxySockets::send_to_client`. -/
def sendToClient (io : Io) (connId : ℕ) (packet : Bytes) (addr : SocketAddr) :
    List Send × Outcome :=
  match io.localAddr with
  | none => ([], .err "getting UDP socket local addr")
  | some localAddr =>
    match sendAddrForSocket localAddr addr with
    | .error e => ([], .err e)
    | .ok dest =>
      ([.client connId dest packet (io.send 0)],
        if io.send 0 then .ok else .err "sending UDP datagram")

/-- The key of a Retry: the source connection ID the backend chose. -/
def retryKeyDcid (long : Option LongPacketCids) : Option Bytes :=
  (long.filter fun long =>
    long.version = quicVersion1 ∧ long.packetType = quicPacketTypeRetry ∧
      ¬long.scid.isEmpty).map (·.scid)

def forwardEstablishedBackendDatagram (cr : Crypto) (io : Io) (r : Router) (connId : ℕ)
    (packet : Bytes) (long : Option LongPacketCids) : Reply :=
  match r.connections.lookup connId with
  | none => .done (r.dropped .staleBackend 1)
  | some conn =>
    if conn.expired io.now₂ r.idleTimeout then .done (r.dropped .expired 1)
    else
      let r := r.setConnection connId { conn with
        lastSeen := io.now₂
        initialKeyDcid := (retryKeyDcid long).getD conn.initialKeyDcid }
      let r := match advertisedCid long with
        | some cid => r.addCidRoute cr connId cid
        | none => r
      let (sends, outcome) := sendToClient io connId packet conn.clientAddr
      ⟨r, sends, outcome⟩

def handleBackendDatagram (cr : Crypto) (io : Io) (r : Router) (connId : ℕ) (packet : Bytes) :
    Reply :=
  let r := r.receivedBackend packet.length
  match parseLongPacketCids packet with
  | .error _ => .done (r.dropped .malformedBackend 1)
  | .ok long => r.forwardEstablishedBackendDatagram cr io connId packet long

/-! ## Opening a path -/

/-- The `send_or_queue` calls for the buffered datagrams, up to the first that fails, and
whether all succeeded. `i` numbers the calls. -/
def flush (io : Io) (connId : ℕ) : ℕ → List Bytes → List Send × Bool
  | _, [] => ([], true)
  | i, datagram :: datagrams =>
    if io.send i then
      let (sends, ok) := flush io connId (i + 1) datagrams
      (.backend connId datagram true :: sends, ok)
    else ([.backend connId datagram false], false)

/-- The CIDs a handshake claims, with the empty one and repetitions. -/
def claimedCids (pending : PendingConnection) : List Bytes :=
  pending.initialDcid :: pending.clientCids.toList

/-- Some claimed CID is registered to another connection. -/
def cidCollision (r : Router) (connId : ℕ) (cids : List Bytes) : Bool :=
  cids.any fun cid => (r.cidRoutes.get cid).any fun owner => owner != connId

/-- A path that a new handshake joins lives no longer than the route of the handshake
allows. -/
def shortenDeadline (conn : Connection) (now : Instant) (timeout : Option Duration) : Connection :=
  match timeout with
  | some timeout =>
    let deadline := now + timeout
    { conn with deadline := some (conn.deadline.elim deadline fun old => min old deadline) }
  | none => conn

/-- The branch of `establish_and_flush` for a client that already has a path to the QUIC-LB
server: the path is shared. -/
def sharePath (cr : Crypto) (io : Io) (r : Router) (id : ℕ) (conn : Connection)
    (pending : PendingConnection) (route : Route) : Reply :=
  if conn.expired io.now₂ r.idleTimeout then
    .done (r.dropped .expired pending.datagrams.length)
  else
    let conn := shortenDeadline conn io.now₂ route.timeout
    match flush io id 0 pending.datagrams with
    | (sends, false) => ⟨r.setConnection id conn, sends, .err "sending UDP datagram"⟩
    | (sends, true) =>
      let r := r.setConnection id { conn with lastSeen := io.now₂ }
      let r := r.addCidRoute cr id pending.initialDcid
      ⟨r.addCidRoutes cr id pending.clientCids.toList, sends, .ok⟩

/-- The tables with a new connection and its entry in every index. -/
def registerPath (r : Router) (connId : ℕ) (conn : Connection)
    (lbKey : Option (SocketAddr × SocketAddr)) : Router :=
  let client := normalizeSocketAddr conn.clientAddr
  { r with
    connections := r.connections.insert connId conn
    metrics := { r.metrics with
      paths := r.metrics.paths + 1
      activePaths := r.metrics.activePaths + 1 }
    cidRoutes := conn.cids.toList.foldl (fun routes cid => (routes.insert cid connId).1) r.cidRoutes
    lbPaths := match lbKey with
      | some key => r.lbPaths.insert key connId
      | none => r.lbPaths
    clientRoutes := r.clientRoutes.insert client
      (((r.clientRoutes.lookup client).getD ∅).insert connId) }

/-- The branch of `establish_and_flush` that creates a socket. The id is used up even when
connecting the socket fails. -/
def openPath (io : Io) (r : Router) (addr : SocketAddr) (cids : HashSet Bytes)
    (lbKey : Option (SocketAddr × SocketAddr)) (pending : PendingConnection) (route : Route) :
    Reply :=
  let connId := r.nextConnectionId
  let r := { r with nextConnectionId := r.nextConnectionId + 1 }
  if !io.connect then ⟨r, [], .err "connecting backend UDP socket"⟩
  else
    let conn : Connection :=
      { upstream := addr
        clientAddr := pending.clientAddr
        initialKeyDcid := pending.initialDcid
        cids := cids
        created := io.now₂
        lastSeen := io.now₂
        deadline := route.timeout.map fun timeout => io.now₂ + timeout
        sni := route.sni }
    match flush io connId 0 pending.datagrams with
    | (sends, true) => ⟨r.registerPath connId conn lbKey, sends, .ok⟩
    | (sends, false) =>
      ⟨r.registerPath connId conn lbKey, sends,
        .err "flushing pending Initial datagram to backend"⟩

/-- Opens a path for a routed handshake, or shares an existing one, and hands it the buffered
datagrams. A registration that is refused is refused before anything is sent. -/
def establishAndFlush (cr : Crypto) (io : Io) (r : Router) (pending : PendingConnection)
    (route : Route) : Reply :=
  match route.backend with
  | .null => .done (r.dropped .nullBackend pending.datagrams.length)
  | .udp addr =>
    let pathKey := (normalizeSocketAddr pending.clientAddr, normalizeSocketAddr addr)
    let lbPath := r.config.isLbServer pathKey.2
    let existingId := if lbPath then r.lbPaths.lookup pathKey else none
    let cids := claimedCids pending
    if r.cidCollision (existingId.getD r.nextConnectionId) cids then
      .done (r.dropped .cidCollision pending.datagrams.length)
    else
      let requestedCids := HashSet.ofList (cids.filter fun cid => !cid.isEmpty)
      let refuseCids := fun (_ : Unit) =>
        Reply.done ({ r with
          metrics := { r.metrics with cidLimit := r.metrics.cidLimit + 1 } }.dropped
            .cidLimit pending.datagrams.length)
      match existingId with
      | some id =>
        match r.connections.lookup id with
        | none => ⟨r, [], .panic "indexed QUIC-LB path"⟩
        | some conn =>
          let additional := requestedCids.toList.countP fun cid => cid ∉ conn.cids
          if conn.cids.size + additional > r.limits.maxCidsPerPath then refuseCids ()
          else r.sharePath cr io id conn pending route
      | none =>
        if requestedCids.size > r.limits.maxCidsPerPath then refuseCids ()
        else if r.connections.size ≥ r.limits.maxPaths then
          .done (r.dropped .pathLimit pending.datagrams.length)
        else
          r.openPath io (if lbPath then pathKey.2 else addr) requestedCids
            (if lbPath then some pathKey else none) pending route

/-! ## Pending handshakes -/

end Router

/-- `PendingConnection::new`. -/
def PendingConnection.new (clientAddr : SocketAddr) (initialDcid : Bytes) (now : Instant) :
    PendingConnection where
  clientAddr := clientAddr
  initialDcid := initialDcid
  clientCids := ∅
  datagrams := []
  bufferedBytes := 0
  crypto := CryptoReassembly.empty
  created := now
  lastSeen := now

def PendingConnection.pushDatagram (pending : PendingConnection) (datagram : Bytes) :
    Except String PendingConnection :=
  if pending.datagrams.length ≥ maxPendingDatagrams then
    .error "too many pending Initial datagrams"
  else if pending.bufferedBytes + datagram.length > maxPendingBytes then
    .error "too many pending Initial bytes"
  else
    .ok { pending with
      bufferedBytes := pending.bufferedBytes + datagram.length
      datagrams := pending.datagrams ++ [datagram] }

namespace Router

def setPending (r : Router) (key : SocketAddr × Bytes) (pending : PendingConnection) : Router :=
  { r with pending := r.pending.insert key pending }

def removePending (r : Router) (key : SocketAddr × Bytes) : Option PendingConnection × Router :=
  match r.pending.lookup key with
  | none => (none, r)
  | some pending =>
    let bytes := r.pendingBytes - pending.bufferedBytes
    let table := r.pending.erase key
    (some pending,
      { r with
        pending := table
        pendingBytes := bytes
        metrics := { r.metrics with pendingBytes := bytes, pending := table.size } })

/-- `"<other>"`. -/
def otherLabel : Bytes := [0x3c, 0x6f, 0x74, 0x68, 0x65, 0x72, 0x3e]

/-- `"<unknown>"`. -/
def unknownLabel : Bytes := [0x3c, 0x75, 0x6e, 0x6b, 0x6e, 0x6f, 0x77, 0x6e, 0x3e]

/-- `"<missing>"`. -/
def missingLabel : Bytes := [0x3c, 0x6d, 0x69, 0x73, 0x73, 0x69, 0x6e, 0x67, 0x3e]

def recordSni (r : Router) (sni : Option Bytes) : Router :=
  let count (r : Router) (label : Bytes) : Router :=
    { r with metrics := { r.metrics with sni := incBy r.metrics.sni label 1 } }
  match sni with
  | some name =>
    if r.config.rules.any fun rule => rule.re name then
      if name.length > maxSniMetricLabelBytes ∨
          (name ∉ r.sniMetricLabels ∧ r.sniMetricLabels.size ≥ maxSniMetricLabels) then
        count r otherLabel
      else count { r with sniMetricLabels := r.sniMetricLabels.insert name } name
    else count r unknownLabel
  | none => count r missingLabel

/-- The entry of a handshake, created with its first Initial (`entry().or_insert_with`). -/
def pendingEntry (r : Router) (key : SocketAddr × Bytes) (peer : SocketAddr) (now : Instant) :
    PendingConnection × Router :=
  match r.pending.lookup key with
  | some pending => (pending, r)
  | none =>
    (PendingConnection.new peer key.2 now,
      { r with metrics := { r.metrics with pending := r.metrics.pending + 1 } })

/-- The closure `progress` of `handle_unrouted_client_datagram`: buffers the datagram, takes
its CRYPTO frames and says whether the ClientHello is complete, and then which server name
it carries. -/
def progress (r : Router) (key : SocketAddr × Bytes) (peer : SocketAddr) (packet scid : Bytes)
    (frames : List (ℕ × Bytes)) (now : Instant) :
    Router × Except DropReason (Option (Option Bytes)) :=
  let (pending, r) := r.pendingEntry key peer now
  -- Buffer first: a rejected datagram must not grow CID/CRYPTO state.
  match pending.pushDatagram packet with
  | .error _ => (r.setPending key pending, .error .pendingHandshakeLimit)
  | .ok pending =>
    let bytes := r.pendingBytes + packet.length
    let r := { r with
      pendingBytes := bytes
      metrics := { r.metrics with pendingBytes := bytes } }
    let (crypto, taken) := pending.crypto.insertFrames frames
    let pending := { pending with
      lastSeen := now
      clientCids := if scid.isEmpty then pending.clientCids else pending.clientCids.insert scid
      crypto := crypto }
    let r := r.setPending key pending
    if !taken then (r, .error .cryptoFragmentLimit)
    else
      match crypto.clienthello with
      | .error _ => (r, .error .invalidInitial)
      | .ok none => (r, .ok none)
      | .ok (some hello) => (r, .ok (some (routedSni hello)))

/-- An Initial that decrypts with the keys of its own destination CID: buffered until its
handshake is complete, then routed by server name. -/
def handleInitial (cr : Crypto) (io : Io) (r : Router) (peer : SocketAddr) (packet : Bytes)
    (decrypted : DecryptedInitial) (frames : List (ℕ × Bytes)) : Reply :=
  let key := (normalizeSocketAddr peer, decrypted.dcid)
  let bufferedCount := (r.pending.lookup key).elim 0 fun pending => pending.datagrams.length
  if r.pending.lookup key = none ∧ r.pending.size ≥ r.limits.maxPendingHandshakes then
    .done (r.dropped .pendingHandshakeLimit 1)
  else if r.pendingBytes + packet.length > r.limits.maxPendingBytes then
    .done (r.dropped .pendingBytesLimit 1)
  else
    match r.progress key peer packet decrypted.scid frames io.now₁ with
    | (r, .error reason) => .done ((r.removePending key).2.dropped reason (bufferedCount + 1))
    | (r, .ok none) => .done r
    | (r, .ok (some sni)) =>
      match (r.recordSni sni).removePending key with
      | (none, r) => .done r
      | (some pending, r) =>
        match r.config.routeForSni peer sni with
        | .error e => ⟨r, [], .err e⟩
        | .ok route => r.establishAndFlush cr io pending route

def handleUnroutedClientDatagram (cr : Crypto) (io : Io) (r : Router) (peer : SocketAddr)
    (packet : Bytes) (long : Option LongPacketCids) : Reply :=
  match long with
  | none => r.forwardByPeerAffinity cr io peer packet none false
  | some long =>
    if long.version = quicVersion1 ∧
        (long.packetType = quicPacketTypeHandshake ∨ long.packetType = quicPacketTypeZeroRtt) then
      r.forwardByPeerAffinity cr io peer packet (some long) false
    else if long.version ≠ quicVersion1 ∨ long.packetType ≠ quicPacketTypeInitial then
      .done (r.dropped .unsupportedPacket 1)
    else
      match decryptInitialPacket cr packet with
      | .error _ => r.forwardByPeerAffinity cr io peer packet (some long) true
      | .ok decrypted =>
        match readCryptoFrames decrypted.payload with
        | .error _ => .done (r.dropped .invalidFrames 1)
        | .ok frames => r.handleInitial cr io peer packet decrypted frames

/-! ## Client datagrams -/

/-- The connection ID that may encode a QUIC-LB server: of a long header its destination
CID, of a short header the bytes after the first. -/
def routableCid (packet : Bytes) (long : Option LongPacketCids) : Option Bytes :=
  match long with
  | some long => some long.dcid
  | none => slice? packet 1 (1 + quicLbCidLen)

/-- The QUIC-LB branch of `handle_datagram`: the CID names the server `addr`. -/
def handleLbDatagram (cr : Crypto) (io : Io) (r : Router) (peer : SocketAddr) (packet : Bytes)
    (addr : SocketAddr) : Reply :=
  match r.lbPaths.lookup (normalizeSocketAddr peer, addr) with
  | some id =>
    match r.connections.lookup id with
    | none => ⟨r, [], .panic "connections[&id]"⟩
    | some conn =>
      if conn.expired io.now₁ r.idleTimeout then .done (r.dropped .expired 1)
      else r.forwardEstablishedClientDatagram cr io id peer packet none
  | none =>
    match (PendingConnection.new peer [] io.now₁).pushDatagram packet with
    | .error e => ⟨r, [], .err e⟩
    | .ok pending => r.establishAndFlush cr io pending ⟨.udp addr, r.config.maxLifetime, none⟩

def handleDatagram (cr : Crypto) (io : Io) (r : Router) (peer : SocketAddr) (packet : Bytes) :
    Reply :=
  let r := r.receivedClient packet.length
  if packet.isEmpty then .done (r.dropped .malformed 1)
  else
    match r.packetConnectionId packet with
    | .error _ => .done (r.dropped .malformed 1)
    | .ok (long, connId) =>
      match (routableCid packet long).bind (r.config.lbBackend cr) with
      | some addr => r.handleLbDatagram cr io peer packet addr
      | none =>
        match connId with
        | none => r.handleUnroutedClientDatagram cr io peer packet long
        | some connId =>
          match r.connections.lookup connId with
          | none => .done r
          | some conn =>
            if socketAddrsEqual peer conn.clientAddr then
              r.forwardEstablishedClientDatagram cr io connId peer packet long
            else .done (r.dropped .unexpectedPeer 1)

/-! ## Cleanup -/

/-- One round of the first loop of `cleanup`: a connection leaves with its index entries. -/
def forget (r : Router) (connId : ℕ) : Router :=
  match r.connections.lookup connId with
  | none => r
  | some conn =>
    let client := normalizeSocketAddr conn.clientAddr
    { r with
      connections := r.connections.erase connId
      metrics := { r.metrics with activePaths := r.metrics.activePaths - 1 }
      cidRoutes := conn.cids.toList.foldl (fun routes cid =>
        if routes.get cid = some connId then (routes.remove cid).1 else routes) r.cidRoutes
      clientRoutes := match r.clientRoutes.lookup client with
        | none => r.clientRoutes
        | some ids =>
          let ids := ids.erase connId
          if ids.toList.isEmpty then r.clientRoutes.erase client
          else r.clientRoutes.insert client ids }

/-- How long a handshake may stay pending. -/
def pendingTimeout (r : Router) : Duration :=
  min (r.config.handshakeTimeout.getD r.idleTimeout) r.idleTimeout

/-- The test of `pending.retain` in `cleanup`. -/
def keepPending (r : Router) (now : Instant) (pending : PendingConnection) : Bool :=
  now - pending.lastSeen < r.pendingTimeout ∧ now - pending.created < r.pendingTimeout

/-- The bookkeeping for a pending handshake that timed out. -/
def dropPending (r : Router) (pending : PendingConnection) : Router :=
  { r with pendingBytes := r.pendingBytes - pending.bufferedBytes }.dropped .pendingTimeout
    pending.datagrams.length

def cleanup (r : Router) (now : Instant) : Router :=
  let expired := r.connections.toList.filter fun e => e.2.expired now r.idleTimeout
  let r := (expired.map Prod.fst).foldl forget r
  let r := { r with lbPaths := r.lbPaths.retain fun _ id => (r.connections.lookup id).isSome }
  let timedOut := r.pending.toList.filter fun e => !r.keepPending now e.2
  let kept := r.pending.retain fun _ pending => r.keepPending now pending
  let r := (timedOut.map Prod.snd).foldl dropPending { r with pending := kept }
  { r with metrics := { r.metrics with pending := kept.size, pendingBytes := r.pendingBytes } }

/-! ## Runs -/

end Router

/-- One iteration of the main loop. -/
inductive Event where
  /-- A datagram from a client. -/
  | datagram (io : Io) (peer : SocketAddr) (packet : Bytes)
  /-- A datagram read on the backend socket of a connection. -/
  | backend (io : Io) (connId : ℕ) (packet : Bytes)
  | cleanup (now : Instant)
  | setConfig (config : Config)

/-- The clock reading that decides which connections are expired. -/
def Event.now : Event → Instant
  | .datagram io _ _ | .backend io _ _ => io.now₂
  | .cleanup now => now
  | .setConfig _ => 0

namespace Router

def handle (cr : Crypto) (r : Router) : Event → Reply
  | .datagram io peer packet => r.handleDatagram cr io peer packet
  | .backend io connId packet => r.handleBackendDatagram cr io connId packet
  | .cleanup now => .done (r.cleanup now)
  | .setConfig config => .done (r.setConfig config)

/-- The state after an event, also when its handler returned an error. -/
def step (cr : Crypto) (r : Router) (e : Event) : Router := (r.handle cr e).router

/-- The state after the events `es`. -/
def run (cr : Crypto) (r : Router) (es : List Event) : Router := runFrom (step cr) r es

/-- The states a router starts in: `Router::new` with the limits of the command line. -/
def start (config : Config) (idleTimeout : Duration) (limits : Limits) : Router :=
  { Router.new config idleTimeout with limits := limits }

end Router

/-! ## A sample router -/

/-- The server of the sample router, `192.0.2.1:443`. -/
def sampleServer : SocketAddr := .v4 0xc0000201 443

/-- The server name `b` is denied, everything else goes to the server. -/
def sampleConfig : Config where
  quicLb := []
  maxLifetime := none
  handshakeTimeout := none
  rules := [⟨fun name => name = [0x62], .udp sampleServer, ⟨[], .drop⟩, none⟩]
  default := ⟨fun _ => true, .udp sampleServer, ⟨[], .accept⟩, none⟩

/-- Two clients, `198.51.100.1:1000` and `198.51.100.2:1000`. -/
def samplePeer : SocketAddr := .v4 0xc6336401 1000
def otherPeer : SocketAddr := .v4 0xc6336402 1000

/-- Every operation succeeds at the time `now`. -/
def sampleIo (now : Instant) : Io where
  now₁ := now
  now₂ := now
  connect := true
  send _ := true
  localAddr := some sampleServer

/-- The sample client has opened a path. -/
def sampleRouter : Router :=
  (Router.start sampleConfig 60 .default).run sampleCrypto
    [.datagram (sampleIo 0) samplePeer helloPacket]

/-- The server is also the QUIC-LB server 1. -/
def lbConfig : Config :=
  { sampleConfig with quicLb := [⟨⟨0, []⟩, (∅ : Table ℕ SocketAddr).insert 1 sampleServer⟩] }

/-- Another handshake of the sample client, in two datagrams. -/
def secondHandshake : PendingConnection :=
  { PendingConnection.new samplePeer longerCid 1 with
    datagrams := [longerCidPacket, longerCidPacket]
    bufferedBytes := 2 * longerCidPacket.length }

end SniRouter
