import SniRouter.H3.Config
import SniRouter.Tcp.Handshake

/-!
# Handling a TCP connection

`handleConn` reads a ClientHello, selects a backend for it, connects to that backend or to its
sorry server, and passes the client on to it: a `pass` backend gets the client's socket, a
`proxy` backend gets a copy of its bytes.

Everything the outside decides is in `Env`. The calls that can be made more than once for one
client, by falling back to a sorry server, are numbered by the attempt they belong to. A future
that is dropped has done a part of its work; which part is for the outside to say, too.
-/

namespace SniRouter

namespace Tcp

/-! ## Configuration -/

/-- `Arc<rustls::ServerConfig>`, by the message it is loaded from. -/
structure FrontendTls where
  certFile : String
  keyFile : String
  mtlsCa : String
deriving DecidableEq

/-- `Arc<rustls::ClientConfig>`, by the message it is loaded from. -/
structure BackendTls where
  certFile : String
  keyFile : String
  insecure : Bool
deriving DecidableEq

inductive Backend where
  /-- Just close the connection. -/
  | null
  /-- Pass the socket and the bytes read so far over a unix socket. -/
  | pass (path : String) (frontendTls : Option FrontendTls) (sorryServer : Option Backend)
  /-- Connect to `addr` and copy. -/
  | proxy (addr : String) (proxyHeader : Bool) (frontendTls : Option FrontendTls)
      (backendTls : Option BackendTls) (sorryServer : Option Backend)

/-- A routing rule. The compiled regex is the predicate it decides on a name. -/
structure Rule where
  re : Bytes → Bool
  backend : Backend
  acl : Acl
  timeout : Option Duration

structure Config where
  handshakeTimeout : Option Duration
  rules : List Rule
  default : Rule

/-! ## Selecting a backend -/

/-- The backend that was selected for a client. -/
structure Selected where
  sni : Option Bytes
  backend : Backend
  timeout : Option Duration

/-- Line by line the function of the HTTP/3 router. -/
def extractSni (clienthello : Bytes) : Except String (Option Bytes) := extractTlsSni clienthello

/-- What the default rule decides. -/
def Config.selectDefault (config : Config) (peer : Ipv6Addr) : Except String Selected :=
  match aclAction config.default.acl peer with
  | .accept => .ok ⟨none, config.default.backend, config.default.timeout⟩
  | .unspecified => .error "unspecified default ACL action"
  | .drop | .continue => .error "rejected by default ACL"

/-- The loop over the rules, and the default rule after it. -/
def Config.selectByRules (config : Config) (peer : Ipv6Addr) (sni : Bytes) :
    List Rule → Except String Selected
  | [] => config.selectDefault peer
  | rule :: rules =>
    if !rule.re sni then config.selectByRules peer sni rules
    else
      match aclAction rule.acl peer with
      | .unspecified => .error "unspecified ACL action"
      | .continue => config.selectByRules peer sni rules
      | .drop => .error "rejected by ACL"
      | .accept => .ok ⟨some sni, rule.backend, rule.timeout⟩

/-- The backend for what was read from a client. Without a ClientHello the default rule
decides; a ClientHello that cannot be parsed is an error. -/
def Config.selectBackend (config : Config) (peer : Ipv6Addr)
    (clienthello : Except String Bytes) : Except String Selected :=
  match clienthello with
  | .error _ => config.selectDefault peer
  | .ok clienthello =>
    match extractSni clienthello with
    | .error e => .error e
    | .ok (some sni) => config.selectByRules peer sni config.rules
    | .ok none => config.selectDefault peer

/-! ## The PROXY line -/

/-- The bytes of an ASCII text. -/
def ascii (text : List Char) : Bytes := text.map fun c => UInt8.ofNat c.toNat

/-- `Ipv4Addr::to_string`. -/
def ipv4Text (ip : Ipv4Addr) : List Char :=
  let octet (i : ℕ) : List Char := Nat.toDigits 10 (ip.toNat / 256 ^ i % 256)
  octet 3 ++ ['.'] ++ octet 2 ++ ['.'] ++ octet 1 ++ ['.'] ++ octet 0

/-- The start and the length of the first of the longest runs of zeros, from position `i` on;
`longest` and `current` are the runs found before. -/
def zeroRun (i : ℕ) (longest current : ℕ × ℕ) : List ℕ → ℕ × ℕ
  | [] => longest
  | segment :: rest =>
    if segment = 0 then
      let current := (if current.2 = 0 then i else current.1, current.2 + 1)
      zeroRun (i + 1) (if current.2 > longest.2 then current else longest) current rest
    else zeroRun (i + 1) longest (0, 0) rest

/-- Segments in hexadecimal, separated by colons. -/
def segmentsText (segments : List ℕ) : List Char :=
  List.intercalate [':'] (segments.map (Nat.toDigits 16))

/-- `Ipv6Addr::to_string`. -/
def ipv6Text (ip : Ipv6Addr) : List Char :=
  match toIpv4Mapped ip with
  | some ip4 => [':', ':', 'f', 'f', 'f', 'f', ':'] ++ ipv4Text ip4
  | none =>
    let segments := (List.range 8).map fun i => ip.toNat / 65536 ^ (7 - i) % 65536
    let run := zeroRun 0 (0, 0) (0, 0) segments
    if run.2 > 1 then
      segmentsText (segments.take run.1) ++ [':', ':'] ++
        segmentsText (segments.drop (run.1 + run.2))
    else segmentsText segments

/-- The text of the address and the port. -/
def addrText : SocketAddr → List Char × List Char
  | .v4 ip port => (ipv4Text ip, Nat.toDigits 10 port.toNat)
  | .v6 ip port _ _ => (ipv6Text ip, Nat.toDigits 10 port.toNat)

/-- The line for a client at `peer` that connected to `me`. -/
def proxyLine (peer me : SocketAddr) : Bytes :=
  let proto := match peer with
    | .v4 .. => "TCP4".toList
    | .v6 .. => "TCP6".toList
  let (srcAddr, srcPort) := addrText peer
  let (dstAddr, dstPort) := addrText me
  ascii ("PROXY ".toList ++ proto ++ [' '] ++ srcAddr ++ [' '] ++ dstAddr ++ [' '] ++ srcPort ++
    [' '] ++ dstPort ++ ['\r', '\n'])

/-! ## The outside -/

/-- What handling one connection asks of the outside. -/
structure Env (σ : Type) where
  /-- `rustls::ServerConnection` for a frontend configuration. -/
  tls : FrontendTls → ServerConnection σ
  kernel : KernelTls
  /-- `resolver::lookup_host`. -/
  lookupHost : ℕ → String → Except String (List SocketAddr)
  /-- `TcpStream::connect`. -/
  connect : ℕ → SocketAddr → Option TcpStream
  /-- The TLS handshake with a backend of that server name, and its kernel TLS setup: payload
  that came with it, and the connection. -/
  connectTls : ℕ → BackendTls → List Char → TcpStream → Except String (Option Bytes × TcpStream)
  /-- `UnixDatagram::unbound`. -/
  unbound : ℕ → Except String Unit
  /-- `UnixDatagram::connect`. -/
  connectUnix : ℕ → String → Except String Unit
  /-- `sendmsg` with the socket and the bytes: how many it sent. -/
  sendmsg : Bytes → Except String ℕ
  /-- The attempt during which the timer of the rule fires. -/
  connectTimer : Option ℕ
  /-- How many attempts were begun when the handshake timer fires; none while the ClientHello is
  being read. -/
  handshakeTimer : Option ℕ
  /-- The handshake timer fires during frontend TLS. -/
  frontendTimer : Bool
  /-- How much the backend has got when the half that writes to it is dropped, because the other
  half fails or because the timer of the rule fires. -/
  downstreamFails : Option ℕ
  lifetimeTimer : Option ℕ
  /-- Shutting down a writer succeeds. -/
  shutdownUpstream : Bool
  shutdownDownstream : Bool
  /-- Nothing has been written to a new connection. -/
  connect_fresh : ∀ {k addr conn}, connect k addr = some conn → conn.written = []
  connectTls_fresh : ∀ {k config host conn data conn'},
    connectTls k config host conn = .ok (data, conn') → conn'.written = []
  /-- A datagram is sent as a whole or not at all. -/
  sendmsg_whole : ∀ {bytes sent}, sendmsg bytes = .ok sent → sent = bytes.length

/-! ## Connecting to a backend -/

/-- `str::rsplit_once`. -/
def rsplitOnce (c : Char) (text : List Char) : Option (List Char × List Char) :=
  match text.reverse.dropWhile (· != c) with
  | [] => none
  | _ :: before => some (before.reverse, (text.reverse.takeWhile (· != c)).reverse)

/-- `str::parse::<u16>`. -/
def parseU16 (text : List Char) : Option ℕ :=
  let digits := match text with
    | '+' :: digits => digits
    | digits => digits
  if digits.isEmpty ∨ !digits.all Char.isDigit then none
  else
    let value := digits.foldl (fun value c => value * 10 + (c.toNat - 48)) 0
    if value < 65536 then some value else none

def splitHostPort (addr : List Char) : Option (List Char × ℕ) := do
  let (host, port) ← rsplitOnce ':' addr
  let port ← parseU16 port
  if host.head? = some '[' ∧ host.getLast? = some ']' then
    -- Raw IPv6.
    some ((host.take (host.length - 1)).drop 1, port)
  else if host.contains ':' then none
  else some (host, port)

section Model

variable {σ : Type} (env : Env σ)

/-- Does a connect for proxied connections: the first address that accepts, and TLS on top when
the backend wants it. -/
def connectForProxy (k : ℕ) (addr : String) (backendTls : Option BackendTls) :
    Except String TcpStream :=
  match env.lookupHost k addr with
  | .error _ => .error s!"parsing backend address {addr}"
  | .ok addrs =>
    match addrs.findSome? (env.connect k) with
    | none => .error s!"failed to connect to any backend with address {addr}"
    | some conn =>
      match backendTls with
      | none => .ok conn
      | some config =>
        let host := (splitHostPort addr.toList).elim "placeholder".toList Prod.fst
        match env.connectTls k config host conn with
        | .error e => .error e
        | .ok (some data, _) =>
          let n := data.length
          .error s!"backend sent {n} bytes of payload before client sent anything"
        | .ok (none, conn) => .ok conn

/-- Frontend TLS, when the backend has it. -/
def frontendHandshake (frontendTls : Option FrontendTls) (stream : TcpStream) (bytes : Bytes) :
    Except String (TcpStream × Bytes) :=
  match frontendTls with
  | none => .ok (stream, bytes)
  | some config =>
    match tlsHandshake (env.tls config) env.kernel stream bytes with
    | .error e => .error e
    | .ok handshake => .ok (handshake.stream, handshake.plaintext)

/-- A socket that was passed to another process, with the datagram that carried it. -/
structure Handoff where
  path : String
  frontendTls : Option FrontendTls
  payload : Bytes
  stream : TcpStream

/-- One call of `connect_or_handoff_backend`: its arguments. -/
structure Attempt where
  backend : Backend
  stream : TcpStream
  bytes : Bytes

/-- A connected `proxy` backend and what it is to be given. -/
structure ProxyConnection where
  stream : TcpStream
  bytes : Bytes
  conn : TcpStream
  proxyHeader : Bool
  frontendTls : Option FrontendTls

inductive ConnectedBackend where
  /-- Nothing more to do. -/
  | done
  | proxy (proxy : ProxyConnection)

/-- What connecting to a backend has done, and its result. -/
structure Connecting where
  attempts : List Attempt
  handoff : Option Handoff
  result : Except String ConnectedBackend

/-- Sends the socket and the bytes read so far. -/
def passFdOverUds (attempt : Attempt) (path : String) (frontendTls : Option FrontendTls)
    (stream : TcpStream) (bytes : Bytes) : Connecting :=
  match env.sendmsg bytes with
  | .error _ => ⟨[attempt], none, .error "sendmsg SCM_RIGHTS"⟩
  | .ok sent =>
    let n := bytes.length
    ⟨[attempt], some ⟨path, frontendTls, bytes.take sent, stream⟩,
      if sent ≠ n then .error s!"sendmsg: expected to send {n} bytes, sent {sent}"
      else .ok .done⟩

/-- Having found a matching backend, tries to connect to it, and to its sorry server when that
fails. The attempt has the number `k`. -/
def connectOrHandoffBackend (k : ℕ) (stream : TcpStream) (bytes : Bytes) : Backend → Connecting
  | .null => ⟨[⟨.null, stream, bytes⟩], none, .ok .done⟩
  | .pass path frontendTls sorryServer =>
    let attempt : Attempt := ⟨.pass path frontendTls sorryServer, stream, bytes⟩
    match env.unbound k with
    | .error _ => ⟨[attempt], none, .error "create UnixDatagram"⟩
    | .ok () =>
      match env.connectUnix k path with
      | .error _ =>
        match sorryServer with
        | none => ⟨[attempt], none, .error s!"connect to {repr path}"⟩
        | some s =>
          let c := connectOrHandoffBackend (k + 1) stream bytes s
          { c with attempts := attempt :: c.attempts }
      | .ok () =>
        match frontendHandshake env frontendTls stream bytes with
        | .error e => ⟨[attempt], none, .error e⟩
        | .ok (stream, bytes) => passFdOverUds env attempt path frontendTls stream bytes
  | .proxy addr proxyHeader frontendTls backendTls sorryServer =>
    let attempt : Attempt :=
      ⟨.proxy addr proxyHeader frontendTls backendTls sorryServer, stream, bytes⟩
    match connectForProxy env k addr backendTls with
    | .error e =>
      match sorryServer with
      | none => ⟨[attempt], none, .error e⟩
      | some s =>
        let c := connectOrHandoffBackend (k + 1) stream bytes s
        { c with attempts := attempt :: c.attempts }
    | .ok conn =>
      ⟨[attempt], none, .ok (.proxy ⟨stream, bytes, conn, proxyHeader, frontendTls⟩)⟩
termination_by structural backend => backend

/-- A timer drops the connecting future after `n` attempts were begun: nothing is handed off. -/
def Connecting.cancelled (c : Connecting) (n : ℕ) (message : String) : Connecting :=
  ⟨c.attempts.take n, none, .error message⟩

/-- The same, with the per rule timeout. -/
def connectOrHandoffBackendWithTimeout (stream : TcpStream) (bytes : Bytes) (backend : Backend)
    (timeout : Option Duration) : Connecting :=
  let c := connectOrHandoffBackend env 0 stream bytes backend
  match timeout, env.connectTimer with
  | some _, some k => c.cancelled (k + 1) "backend connect/handoff timeout"
  | _, _ => c

/-- A connection that was routed: what connecting has done, and the limits of the rest. -/
structure RoutedConnection where
  connecting : Connecting
  sni : Option Bytes
  timeout : Option Duration

def RoutedConnection.failed (e : String) : RoutedConnection := ⟨⟨[], none, .error e⟩, none, none⟩

/-- Finds the correct rule and connects to its backend. -/
def routeAndConnect (config : Config) (stream : TcpStream) (initialBytes : Bytes) :
    RoutedConnection :=
  match stream.peerAddr with
  | .error e => .failed e
  | .ok peer =>
    match readTlsClienthello stream.unread initialBytes with
    | .error e => .failed e
    | .ok read =>
      match config.selectBackend (peerIpV6 peer) read.clienthello with
      | .error e => .failed e
      | .ok selected =>
        ⟨connectOrHandoffBackendWithTimeout env { stream with unread := read.unread } read.bytes
          selected.backend selected.timeout, selected.sni, selected.timeout⟩

/-! ## Proxying -/

/-- A step of one half of a proxied connection: it writes or fails with `context`. The result
keeps the connection as it is left. -/
def writeOrFail (conn : TcpStream) (data : Bytes) (context : String) :
    Except String Unit × TcpStream :=
  match conn.writeAll data with
  | (true, conn) => (.ok (), conn)
  | (false, conn) => (.error context, conn)

/-- Goes on with `conn` unless the step before has failed. -/
def andThen (r : Except String Unit × TcpStream)
    (next : TcpStream → Except String Unit × TcpStream) : Except String Unit × TcpStream :=
  match r with
  | (.ok (), conn) => next conn
  | (.error e, conn) => (.error e, conn)

/-- The PROXY line, when the backend wants it. -/
def proxyHeaderLine (stream : TcpStream) (proxyHeader : Bool) : Except String Bytes :=
  if proxyHeader then
    match stream.localAddr, stream.peerAddr with
    | .error _, _ => .error "getting local address"
    | .ok _, .error _ => .error "getting peer address"
    | .ok me, .ok peer => .ok (proxyLine peer me)
  else .ok []

/-- From the client to the backend: the header, what was read before, and the rest of the
stream. -/
def upstream (stream : TcpStream) (bytes : Bytes) (conn : TcpStream) (proxyHeader : Bool) :
    Except String Unit × TcpStream :=
  match proxyHeaderLine stream proxyHeader with
  | .error e => (.error e, conn)
  | .ok line =>
    andThen (writeOrFail conn line "writing proxy line") fun conn =>
    andThen (writeOrFail conn bytes "writing preamble to proxied backend") fun conn =>
    andThen (writeOrFail conn stream.unread "upstream copying") fun conn =>
    (if env.shutdownUpstream then .ok () else .error "failed to shut down upstream writer", conn)

/-- From the backend to the client. -/
def downstream (stream conn : TcpStream) : Except String Unit × TcpStream :=
  andThen (writeOrFail stream conn.unread "downstream copying") fun stream =>
  (if env.shutdownDownstream then .ok () else .error "failed to shut down downstream writer",
    stream)

/-- A proxied connection when it has ended. -/
structure Proxied where
  proxyHeader : Bool
  frontendTls : Option FrontendTls
  /-- The connection to the backend, and what came of the connection. -/
  conn : TcpStream
  result : Except String Unit

/-- `try_join!` of the two halves. -/
def joinHalves (stream : TcpStream) (bytes : Bytes) (conn : TcpStream) (proxyHeader : Bool) :
    Except String Unit × TcpStream :=
  let up := upstream env stream bytes conn proxyHeader
  match (downstream env stream conn).1, env.downstreamFails with
  | .error e, some n => (.error e, up.2.droppedAt n)
  | .error e, none => (up.1.bind fun () => .error e, up.2)
  | .ok (), _ => up

/-- Does any frontend TLS and works with the already connected backend proxy. -/
def handleConnectedProxy (proxy : ProxyConnection) (handshakeDeadline : Bool) : Proxied :=
  let ended := fun (r : Except String Unit × TcpStream) =>
    Proxied.mk proxy.proxyHeader proxy.frontendTls r.2 r.1
  if proxy.frontendTls.isSome ∧ handshakeDeadline ∧ env.frontendTimer then
    ended (.error "handshake timeout during frontend TLS", proxy.conn)
  else
    match frontendHandshake env proxy.frontendTls proxy.stream proxy.bytes with
    | .error e => ended (.error e, proxy.conn)
    | .ok (stream, bytes) => ended (joinHalves env stream bytes proxy.conn proxy.proxyHeader)

/-- The same under the timeout of the rule, which drops both halves. -/
def handleWithTimeout (proxy : ProxyConnection) (handshakeDeadline : Bool)
    (timeout : Option Duration) : Proxied :=
  let proxied := handleConnectedProxy env proxy handshakeDeadline
  match timeout, env.lifetimeTimer with
  | some _, some n =>
    { proxied with
      conn := proxied.conn.droppedAt n
      result := .error "Connection to SNI timed out" }
  | _, _ => proxied

/-- `route_and_connect` under the handshake timeout. -/
def routeWithDeadline (config : Config) (stream : TcpStream) (initialBytes : Bytes) :
    RoutedConnection :=
  let routed := routeAndConnect env config stream initialBytes
  match config.handshakeTimeout, env.handshakeTimer with
  | some _, some n =>
    { routed with connecting := routed.connecting.cancelled n "handshake timeout" }
  | _, _ => routed

/-- Everything that was done for a connection. -/
structure ConnRun where
  attempts : List Attempt
  handoff : Option Handoff
  proxied : Option Proxied
  result : Except String Unit

/-- Handles a connection of which `initialBytes` were read before. -/
def handleConn (config : Config) (stream : TcpStream) (initialBytes : Bytes) : ConnRun :=
  let routed := routeWithDeadline env config stream initialBytes
  let c := routed.connecting
  match c.result with
  | .error e => ⟨c.attempts, c.handoff, none, .error e⟩
  | .ok .done => ⟨c.attempts, c.handoff, none, .ok ()⟩
  | .ok (.proxy proxy) =>
    let proxied := handleWithTimeout env proxy config.handshakeTimeout.isSome routed.timeout
    ⟨c.attempts, c.handoff, some proxied, proxied.result⟩

end Model

end Tcp

end SniRouter
