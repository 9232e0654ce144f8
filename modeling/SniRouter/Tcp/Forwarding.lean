import SniRouter.Tcp.Connection
import SniRouter.Tcp.Handover

/-!
# Transparent forwarding

Without frontend TLS the router is transparent: whatever a client sends, a backend gets all of
it, in order and once. This holds for the bytes that had been read before, for those read while
looking for a ClientHello, found or not, and for those still on the socket; it also holds for a
sorry server, which is given exactly what the backend that failed was given.
-/

namespace SniRouter

namespace Tcp

/-! ## Attempts -/

def Backend.sorryServer : Backend → Option Backend
  | .null => none
  | .pass _ _ sorryServer => sorryServer
  | .proxy _ _ _ _ sorryServer => sorryServer

/-- What connecting to `backend` has done. Every attempt was given the same stream and bytes; the
first was made at `backend`, each of the others at the sorry server of the one before it. What
was handed off or connected is the backend of the last attempt. -/
structure Connecting.Tries (backend : Backend) (stream : TcpStream) (bytes : Bytes)
    (c : Connecting) : Prop where
  first : ∃ rest, c.attempts = ⟨backend, stream, bytes⟩ :: rest
  same : ∀ a ∈ c.attempts, a.stream = stream ∧ a.bytes = bytes
  next : c.attempts.IsChain fun a b => a.backend.sorryServer = some b.backend
  handoff : ∀ h, c.handoff = some h → ∃ last, c.attempts.getLast? = some last ∧
    (∃ s, last.backend = .pass h.path h.frontendTls s) ∧
    (h.frontendTls = none → h.payload = bytes ∧ h.stream = stream)
  proxy : ∀ p, c.result = .ok (.proxy p) → ∃ last, c.attempts.getLast? = some last ∧
    (∃ addr tls s, last.backend = .proxy addr p.proxyHeader p.frontendTls tls s) ∧
    p.stream = stream ∧ p.bytes = bytes ∧ p.conn.written = []

section Attempts

variable {σ : Type} {env : Env σ} {backend : Backend} {stream : TcpStream} {bytes : Bytes}

/-- A single attempt that comes to nothing. -/
theorem tries_of_nothing {result : Except String ConnectedBackend}
    (h : ∀ p, result ≠ .ok (.proxy p)) :
    Connecting.Tries backend stream bytes ⟨[⟨backend, stream, bytes⟩], none, result⟩ := by
  refine ⟨⟨[], rfl⟩, ?_, .singleton _, ?_, fun p hp => absurd hp (h p)⟩
  · intro a ha
    cases List.mem_singleton.mp ha
    exact ⟨rfl, rfl⟩
  · intro h' hh'
    cases hh'

/-- The sorry server is tried after a backend that could not be connected. -/
theorem Connecting.Tries.cons {c : Connecting} {s : Backend} (h : c.Tries s stream bytes)
    (hnext : backend.sorryServer = some s) :
    Connecting.Tries backend stream bytes
      { c with attempts := ⟨backend, stream, bytes⟩ :: c.attempts } := by
  obtain ⟨rest, hrest⟩ := h.first
  -- the last attempt is the last one of the sorry server
  have hlast : (⟨backend, stream, bytes⟩ :: c.attempts).getLast? = c.attempts.getLast? := by
    rw [hrest, List.getLast?_cons_cons]
  refine ⟨⟨c.attempts, rfl⟩, ?_, ?_, ?_, ?_⟩
  · intro a ha
    rcases List.mem_cons.mp ha with rfl | ha
    · exact ⟨rfl, rfl⟩
    · exact h.same a ha
  · have hchain := h.next
    dsimp only
    rw [hrest] at hchain ⊢
    exact .cons_cons hnext hchain
  · dsimp only
    rw [hlast]
    exact h.handoff
  · dsimp only
    rw [hlast]
    exact h.proxy

/-- Nothing was written to a connection that is just made. -/
theorem connectForProxy_fresh {k : ℕ} {addr : String} {backendTls : Option BackendTls}
    {conn : TcpStream} (h : connectForProxy env k addr backendTls = .ok conn) :
    conn.written = [] := by
  unfold connectForProxy at h
  split at h
  · cases h
  split at h
  · cases h
  rename_i first hfirst
  split at h
  · cases h
    obtain ⟨addr', -, hconnect⟩ := List.exists_of_findSome?_eq_some hfirst
    exact env.connect_fresh hconnect
  · dsimp only at h
    split at h
    · cases h
    · cases h
    · rename_i htls
      cases h
      exact env.connectTls_fresh htls

/-- A socket passed on, after frontend TLS or without. -/
theorem passFdOverUds_tries {path : String} {frontendTls : Option FrontendTls}
    {s : Option Backend} {stream' : TcpStream} {bytes' : Bytes}
    (h : frontendHandshake env frontendTls stream bytes = .ok (stream', bytes')) :
    (passFdOverUds env ⟨.pass path frontendTls s, stream, bytes⟩ path frontendTls stream'
      bytes').Tries (.pass path frontendTls s) stream bytes := by
  unfold passFdOverUds
  split
  · exact tries_of_nothing (by simp)
  · rename_i sent hsent
    cases env.sendmsg_whole hsent
    refine ⟨⟨[], rfl⟩, ?_, .singleton _, ?_, ?_⟩
    · intro a ha
      cases List.mem_singleton.mp ha
      exact ⟨rfl, rfl⟩
    · intro handoff hhandoff
      cases hhandoff
      refine ⟨_, rfl, ⟨s, rfl⟩, ?_⟩
      rintro rfl
      cases h
      exact ⟨List.take_length, rfl⟩
    · intro p hp
      dsimp only at hp
      rw [if_neg (not_not.mpr rfl)] at hp
      cases hp

/-- The backend is tried, and each sorry server after the backend that has it. -/
theorem connectOrHandoffBackend_tries (k : ℕ) :
    (connectOrHandoffBackend env k stream bytes backend).Tries backend stream bytes := by
  fun_induction connectOrHandoffBackend env k stream bytes backend with
  | case1 k => exact tries_of_nothing (by simp)
  | case2 => exact tries_of_nothing (by simp)
  | case3 => exact tries_of_nothing (by simp)
  | case4 k path frontendTls hunbound e hconnect s attempt c ih => exact ih.cons rfl
  | case5 => exact tries_of_nothing (by simp)
  | case6 k path frontendTls s attempt hunbound hconnect stream' bytes' hfrontend =>
    exact passFdOverUds_tries hfrontend
  | case7 => exact tries_of_nothing (by simp)
  | case8 k addr proxyHeader frontendTls backendTls e hconnect s attempt c ih => exact ih.cons rfl
  | case9 k addr proxyHeader frontendTls backendTls s attempt conn hconnect =>
    refine ⟨⟨[], rfl⟩, ?_, .singleton _, ?_, ?_⟩
    · intro a ha
      cases List.mem_singleton.mp ha
      exact ⟨rfl, rfl⟩
    · intro handoff hhandoff
      cases hhandoff
    · intro p hp
      cases hp
      exact ⟨_, rfl, ⟨addr, backendTls, s, rfl⟩, rfl, rfl, connectForProxy_fresh hconnect⟩

/-- A timer that fires leaves a part of the attempts, and nothing else. -/
theorem Connecting.Tries.cancelled {c : Connecting} (h : c.Tries backend stream bytes) (k : ℕ)
    (message : String) : (c.cancelled (k + 1) message).Tries backend stream bytes := by
  obtain ⟨rest, hrest⟩ := h.first
  -- the first attempt is among those that were begun
  refine ⟨⟨rest.take k, ?_⟩, fun a ha => h.same a (List.mem_of_mem_take ha), h.next.take _, ?_, ?_⟩
  · rw [Connecting.cancelled, hrest, List.take_succ_cons]
  · intro handoff hhandoff
    cases hhandoff
  · intro p hp
    cases hp

/-- A timeout does not change what is tried. -/
theorem connectOrHandoffBackendWithTimeout_tries (timeout : Option Duration) :
    (connectOrHandoffBackendWithTimeout env stream bytes backend timeout).Tries backend stream
      bytes := by
  unfold connectOrHandoffBackendWithTimeout
  have htries : (connectOrHandoffBackend env 0 stream bytes backend).Tries backend stream bytes :=
    connectOrHandoffBackend_tries 0
  dsimp only
  split
  · exact htries.cancelled ..
  · exact htries

/-- A backend that cannot be connected in the attempt `k`. -/
def Env.Refuses (env : Env σ) (k : ℕ) : Backend → Prop
  | .null => False
  | .pass path _ _ => env.unbound k = .ok () ∧ ∃ e, env.connectUnix k path = .error e
  | .proxy addr _ _ backendTls _ => ∃ e, connectForProxy env k addr backendTls = .error e

/-- The sorry server takes over with the arguments of the backend that refuses. -/
theorem connectOrHandoffBackend_of_refuses {k : ℕ} (h : env.Refuses k backend) {s : Backend}
    (hnext : backend.sorryServer = some s) (stream : TcpStream) (bytes : Bytes) :
    connectOrHandoffBackend env k stream bytes backend =
      { connectOrHandoffBackend env (k + 1) stream bytes s with
        attempts := ⟨backend, stream, bytes⟩ ::
          (connectOrHandoffBackend env (k + 1) stream bytes s).attempts } := by
  cases backend with
  | null => exact h.elim
  | pass path frontendTls sorryServer =>
    obtain ⟨hunbound, e, hconnect⟩ := h
    cases hnext
    rw [connectOrHandoffBackend]
    simp only [hunbound, hconnect]
  | proxy addr proxyHeader frontendTls backendTls sorryServer =>
    obtain ⟨e, hconnect⟩ := h
    cases hnext
    rw [connectOrHandoffBackend]
    simp only [hconnect]

end Attempts

/-! ## Writing to a backend -/

/-- One half of a proxied connection writes a part of `target` and, when it does not fail, all of
it. -/
structure Delivers (target : Bytes) (r : Except String Unit × TcpStream) : Prop where
  part : r.2.written <+: target
  all : r.1 = .ok () → r.2.written = target

/-- A write delivers its bytes, or a prefix of them when it fails. -/
theorem writeOrFail_delivers (conn : TcpStream) (data : Bytes) (context : String) :
    Delivers (conn.written ++ data) (writeOrFail conn data context) := by
  unfold writeOrFail TcpStream.writeAll
  cases conn.room with
  | none => exact ⟨List.prefix_refl _, fun _ => rfl⟩
  | some room =>
    by_cases hroom : data.length ≤ room
    · simp only [hroom, decide_true]
      rw [List.take_of_length_le hroom]
      exact ⟨List.prefix_refl _, fun _ => rfl⟩
    · simp only [hroom, decide_false]
      refine ⟨(List.prefix_append_right_inj _).mpr (List.take_prefix ..), fun h => ?_⟩
      cases h

/-- Two steps, one after the other. -/
theorem Delivers.andThen {target target' : Bytes} {r : Except String Unit × TcpStream}
    {next : TcpStream → Except String Unit × TcpStream} (h : Delivers target r)
    (hpre : target <+: target')
    (hnext : ∀ conn, conn.written = target → Delivers target' (next conn)) :
    Delivers target' (andThen r next) := by
  obtain ⟨result, conn⟩ := r
  cases result with
  | error e =>
    refine ⟨h.part.trans hpre, fun hok => ?_⟩
    cases hok
  | ok u => exact hnext conn (h.all rfl)

theorem Delivers.droppedAt {target : Bytes} {r : Except String Unit × TcpStream}
    (h : Delivers target r) (n : ℕ) (e : String) :
    Delivers target (.error e, r.2.droppedAt n) := by
  refine ⟨(List.take_prefix ..).trans h.part, fun hok => ?_⟩
  cases hok

/-- The line a backend gets first: none when it does not want one, or when the addresses are not
known. -/
def sentHeader (stream : TcpStream) (proxyHeader : Bool) : Bytes :=
  match proxyHeaderLine stream proxyHeader with
  | .ok line => line
  | .error _ => []

section Proxy

variable {σ : Type} (env : Env σ)

/-- The backend gets the line, the bytes read before and the stream, in order. -/
theorem upstream_delivers (stream : TcpStream) (bytes : Bytes) {conn : TcpStream}
    (hfresh : conn.written = []) (proxyHeader : Bool) :
    Delivers (sentHeader stream proxyHeader ++ bytes ++ stream.unread)
        (upstream env stream bytes conn proxyHeader) ∧
      ((upstream env stream bytes conn proxyHeader).1 = .ok () →
        proxyHeaderLine stream proxyHeader = .ok (sentHeader stream proxyHeader)) := by
  unfold upstream sentHeader
  cases proxyHeaderLine stream proxyHeader with
  | error e =>
    refine ⟨⟨?_, fun hok => ?_⟩, fun hok => ?_⟩
    · rw [hfresh]
      exact List.nil_prefix
    all_goals cases hok
  | ok line =>
    refine ⟨?_, fun _ => rfl⟩
    -- the header, then what was read before, then the rest of the stream
    refine (hfresh ▸ writeOrFail_delivers conn line _).andThen ?_ fun conn₁ h₁ => ?_
    · rw [List.nil_append, List.append_assoc]
      exact List.prefix_append ..
    rw [List.nil_append] at h₁
    refine (h₁ ▸ writeOrFail_delivers conn₁ bytes _).andThen (List.prefix_append ..)
      fun conn₂ h₂ => ?_
    refine (h₂ ▸ writeOrFail_delivers conn₂ stream.unread _).andThen (List.prefix_refl _)
      fun conn₃ h₃ => ?_
    exact ⟨h₃ ▸ List.prefix_refl _, fun _ => h₃⟩

/-- Both halves together: a backend gets a part of what it is to get, and all of it when the
connection ends without an error. -/
theorem joinHalves_delivers (stream : TcpStream) (bytes : Bytes) {conn : TcpStream}
    (hfresh : conn.written = []) (proxyHeader : Bool) :
    Delivers (sentHeader stream proxyHeader ++ bytes ++ stream.unread)
        (joinHalves env stream bytes conn proxyHeader) ∧
      ((joinHalves env stream bytes conn proxyHeader).1 = .ok () →
        proxyHeaderLine stream proxyHeader = .ok (sentHeader stream proxyHeader)) := by
  obtain ⟨hdelivers, hheader⟩ := upstream_delivers env stream bytes hfresh proxyHeader
  unfold joinHalves
  dsimp only
  split
  · refine ⟨hdelivers.droppedAt .., fun hok => ?_⟩
    cases hok
  · rename_i e hdown hnone
    refine ⟨⟨hdelivers.part, fun hok => ?_⟩, fun hok => ?_⟩
    all_goals
      obtain ⟨u, -, hok⟩ := except_bind_eq_ok hok
      cases hok
  · exact ⟨hdelivers, hheader⟩

/-- A proxied connection without frontend TLS. -/
theorem handleConnectedProxy_delivers {proxy : ProxyConnection} (htls : proxy.frontendTls = none)
    (hfresh : proxy.conn.written = []) (deadline : Bool) :
    Delivers (sentHeader proxy.stream proxy.proxyHeader ++ proxy.bytes ++ proxy.stream.unread)
        ((handleConnectedProxy env proxy deadline).result,
          (handleConnectedProxy env proxy deadline).conn) ∧
      ((handleConnectedProxy env proxy deadline).result = .ok () →
        proxyHeaderLine proxy.stream proxy.proxyHeader =
          .ok (sentHeader proxy.stream proxy.proxyHeader)) := by
  have heq : handleConnectedProxy env proxy deadline =
      ⟨proxy.proxyHeader, proxy.frontendTls,
        (joinHalves env proxy.stream proxy.bytes proxy.conn proxy.proxyHeader).2,
        (joinHalves env proxy.stream proxy.bytes proxy.conn proxy.proxyHeader).1⟩ := by
    simp [handleConnectedProxy, frontendHandshake, htls]
  rw [heq]
  exact joinHalves_delivers env proxy.stream proxy.bytes hfresh proxy.proxyHeader

/-- The timeout of the rule leaves the backend with a part of it. -/
theorem handleWithTimeout_delivers {proxy : ProxyConnection} (htls : proxy.frontendTls = none)
    (hfresh : proxy.conn.written = []) (deadline : Bool) (timeout : Option Duration) :
    Delivers (sentHeader proxy.stream proxy.proxyHeader ++ proxy.bytes ++ proxy.stream.unread)
        ((handleWithTimeout env proxy deadline timeout).result,
          (handleWithTimeout env proxy deadline timeout).conn) ∧
      ((handleWithTimeout env proxy deadline timeout).result = .ok () →
        proxyHeaderLine proxy.stream proxy.proxyHeader =
          .ok (sentHeader proxy.stream proxy.proxyHeader)) := by
  obtain ⟨hdelivers, hheader⟩ := handleConnectedProxy_delivers env htls hfresh deadline
  unfold handleWithTimeout
  dsimp only
  split
  · refine ⟨hdelivers.droppedAt .., fun hok => ?_⟩
    cases hok
  · exact ⟨hdelivers, hheader⟩

theorem handleWithTimeout_backend (proxy : ProxyConnection) (deadline : Bool)
    (timeout : Option Duration) :
    (handleWithTimeout env proxy deadline timeout).proxyHeader = proxy.proxyHeader ∧
      (handleWithTimeout env proxy deadline timeout).frontendTls = proxy.frontendTls := by
  have hproxy : (handleConnectedProxy env proxy deadline).proxyHeader = proxy.proxyHeader ∧
      (handleConnectedProxy env proxy deadline).frontendTls = proxy.frontendTls := by
    unfold handleConnectedProxy
    dsimp only
    split
    · exact ⟨rfl, rfl⟩
    · split <;> exact ⟨rfl, rfl⟩
  unfold handleWithTimeout
  dsimp only
  split
  · exact hproxy
  · exact hproxy

/-! ## A whole connection -/

/-- Routing a client tries nothing, or the selected backend with all the client has sent. -/
theorem routeAndConnect_tries (config : Config) (stream : TcpStream) (initialBytes : Bytes) :
    (∃ e, routeAndConnect env config stream initialBytes = .failed e) ∨
      ∃ backend unread bytes,
        (routeAndConnect env config stream initialBytes).connecting.Tries backend
          { stream with unread := unread } bytes ∧
        bytes ++ unread = initialBytes ++ stream.unread := by
  unfold routeAndConnect
  cases stream.peerAddr with
  | error e => exact Or.inl ⟨e, rfl⟩
  | ok peer =>
    cases hread : readTlsClienthello stream.unread initialBytes with
    | error e => exact Or.inl ⟨e, rfl⟩
    | ok read =>
      dsimp only
      cases config.selectBackend (peerIpV6 peer) read.clienthello with
      | error e => exact Or.inl ⟨e, rfl⟩
      | ok selected =>
        exact Or.inr ⟨selected.backend, read.unread, read.bytes,
          connectOrHandoffBackendWithTimeout_tries _, readTlsClienthello_append hread⟩

/-- Routing fails, or tries the backend it selects with all the bytes. -/
theorem routeWithDeadline_tries (config : Config) (stream : TcpStream) (initialBytes : Bytes) :
    (∃ e, (routeWithDeadline env config stream initialBytes).connecting = ⟨[], none, .error e⟩) ∨
      ∃ backend unread bytes,
        (routeWithDeadline env config stream initialBytes).connecting.Tries backend
          { stream with unread := unread } bytes ∧
        bytes ++ unread = initialBytes ++ stream.unread := by
  unfold routeWithDeadline
  dsimp only
  rcases routeAndConnect_tries env config stream initialBytes with
    ⟨e, hfailed⟩ | ⟨backend, unread, bytes, htries, happend⟩
  · left
    rw [hfailed]
    split
    · exact ⟨"handshake timeout", by simp [Connecting.cancelled, RoutedConnection.failed]⟩
    · exact ⟨e, rfl⟩
  · split
    · rename_i n htimeout htimer
      cases n with
      | zero => exact Or.inl ⟨"handshake timeout", rfl⟩
      | succ k => exact Or.inr ⟨backend, unread, bytes, htries.cancelled k _, happend⟩
    · exact Or.inr ⟨backend, unread, bytes, htries, happend⟩

end Proxy

/-- What is done for a client whose stream is `initialBytes ++ stream.unread`. -/
structure ConnRun.Transparent (stream : TcpStream) (initialBytes : Bytes) (run : ConnRun) :
    Prop where
  /-- A backend is given the whole stream, and nothing has been written to the client. -/
  given : ∀ a ∈ run.attempts, a.bytes ++ a.stream.unread = initialBytes ++ stream.unread ∧
    a.stream.written = stream.written
  /-- A sorry server is given what the backend before it was given. -/
  same : ∀ a ∈ run.attempts, ∀ b ∈ run.attempts, b.stream = a.stream ∧ b.bytes = a.bytes
  next : run.attempts.IsChain fun a b => a.backend.sorryServer = some b.backend
  /-- A `proxy` backend gets the header and the stream: a part of it, or all of it when the
  connection ends without an error. -/
  proxied : ∀ p, run.proxied = some p → p.frontendTls = none →
    (∃ last addr tls s, run.attempts.getLast? = some last ∧
      last.backend = .proxy addr p.proxyHeader none tls s) ∧
    p.conn.written <+: sentHeader stream p.proxyHeader ++ (initialBytes ++ stream.unread) ∧
    (p.result = .ok () →
      p.conn.written = sentHeader stream p.proxyHeader ++ (initialBytes ++ stream.unread) ∧
      proxyHeaderLine stream p.proxyHeader = .ok (sentHeader stream p.proxyHeader))
  /-- A `pass` backend gets the stream in a datagram and a socket. -/
  handedOff : ∀ h, run.handoff = some h → h.frontendTls = none →
    (∃ last s, run.attempts.getLast? = some last ∧ last.backend = .pass h.path none s) ∧
    h.payload ++ h.stream.unread = initialBytes ++ stream.unread

section Connection

variable {σ : Type} (env : Env σ)

/-- Whatever the connecting comes to, the run has its attempts and its handoff. -/
theorem handleConn_connecting (config : Config) (stream : TcpStream) (initialBytes : Bytes) :
    (handleConn env config stream initialBytes).attempts =
        (routeWithDeadline env config stream initialBytes).connecting.attempts ∧
      (handleConn env config stream initialBytes).handoff =
        (routeWithDeadline env config stream initialBytes).connecting.handoff ∧
      ∀ p, (handleConn env config stream initialBytes).proxied = some p → ∃ proxy,
        (routeWithDeadline env config stream initialBytes).connecting.result =
            .ok (.proxy proxy) ∧
          p = handleWithTimeout env proxy config.handshakeTimeout.isSome
            (routeWithDeadline env config stream initialBytes).timeout := by
  unfold handleConn
  dsimp only
  split
  · exact ⟨rfl, rfl, by simp⟩
  · exact ⟨rfl, rfl, by simp⟩
  · rename_i proxy hproxy
    refine ⟨rfl, rfl, fun p hp => ⟨proxy, hproxy, ?_⟩⟩
    cases hp
    rfl

/-- A client that is closed before anything is tried. -/
theorem transparent_of_nothing {stream : TcpStream} {initialBytes : Bytes} {run : ConnRun}
    (hattempts : run.attempts = []) (hhandoff : run.handoff = none)
    (hproxied : run.proxied = none) : run.Transparent stream initialBytes := by
  refine ⟨?_, ?_, hattempts ▸ .nil, ?_, ?_⟩
  · intro a ha
    rw [hattempts] at ha
    cases ha
  · intro a ha
    rw [hattempts] at ha
    cases ha
  · intro p hp
    cases hproxied.symm.trans hp
  · intro h hh
    cases hhandoff.symm.trans hh

/-- What the backend of a connection without frontend TLS gets, given what was tried for it. -/
theorem Connecting.Tries.proxied {c : Connecting} {backend : Backend} {stream : TcpStream}
    {unread bytes initialBytes : Bytes}
    (h : c.Tries backend { stream with unread := unread } bytes)
    (happend : bytes ++ unread = initialBytes ++ stream.unread) {proxy : ProxyConnection}
    (hproxy : c.result = .ok (.proxy proxy)) (deadline : Bool) (timeout : Option Duration)
    {p : Proxied} (hp : p = handleWithTimeout env proxy deadline timeout)
    (htls : p.frontendTls = none) :
    (∃ last addr tls s, c.attempts.getLast? = some last ∧
      last.backend = .proxy addr p.proxyHeader none tls s) ∧
    p.conn.written <+: sentHeader stream p.proxyHeader ++ (initialBytes ++ stream.unread) ∧
    (p.result = .ok () →
      p.conn.written = sentHeader stream p.proxyHeader ++ (initialBytes ++ stream.unread) ∧
      proxyHeaderLine stream p.proxyHeader = .ok (sentHeader stream p.proxyHeader)) := by
  subst hp
  obtain ⟨last, hlast, ⟨addr, tls, s, hs⟩, hstream, hbytes, hfresh⟩ := h.proxy proxy hproxy
  obtain ⟨hheader, hfrontend⟩ := handleWithTimeout_backend env proxy deadline timeout
  rw [hfrontend] at htls
  obtain ⟨hdelivers, hline⟩ := handleWithTimeout_delivers env htls hfresh deadline timeout
  rw [htls] at hs
  -- the header depends on the addresses of the client, not on what is left to read
  rw [hstream, hbytes, List.append_assoc, happend] at hdelivers
  rw [hstream] at hline
  rw [hheader]
  exact ⟨⟨last, addr, tls, s, hlast, hs⟩, hdelivers.part,
    fun hok => ⟨hdelivers.all hok, hline hok⟩⟩

/-- Under any configuration the handler is transparent to the bytes of its client. -/
theorem handleConn_transparent (config : Config) (stream : TcpStream) (initialBytes : Bytes) :
    (handleConn env config stream initialBytes).Transparent stream initialBytes := by
  obtain ⟨hattempts, hhandoff, hproxied⟩ := handleConn_connecting env config stream initialBytes
  rcases routeWithDeadline_tries env config stream initialBytes with
    ⟨e, hnothing⟩ | ⟨backend, unread, bytes, htries, happend⟩
  · rw [hnothing] at hattempts hhandoff hproxied
    refine transparent_of_nothing hattempts hhandoff (Option.eq_none_iff_forall_ne_some.mpr ?_)
    intro p hp
    obtain ⟨proxy, hresult, -⟩ := hproxied p hp
    cases hresult
  · refine ⟨?_, ?_, hattempts ▸ htries.next, ?_, ?_⟩
    · intro a ha
      rw [hattempts] at ha
      obtain ⟨hs, hb⟩ := htries.same a ha
      rw [hs, hb]
      exact ⟨happend, rfl⟩
    · intro a ha b hb
      rw [hattempts] at ha hb
      obtain ⟨has, hab⟩ := htries.same a ha
      obtain ⟨hbs, hbb⟩ := htries.same b hb
      exact ⟨hbs.trans has.symm, hbb.trans hab.symm⟩
    · intro p hp htls
      obtain ⟨proxy, hresult, hp⟩ := hproxied p hp
      rw [hattempts]
      exact htries.proxied env happend hresult _ _ hp htls
    · intro h hh htls
      rw [hhandoff] at hh
      obtain ⟨last, hlast, ⟨s, hs⟩, hsent⟩ := htries.handoff h hh
      obtain ⟨hpayload, hsocket⟩ := hsent htls
      rw [htls] at hs
      rw [hattempts, hpayload, hsocket]
      exact ⟨⟨last, s, hlast, hs⟩, happend⟩

/-- **Transparent forwarding.** Without frontend TLS every backend gets the client's stream,
however much of it was read before and whatever it contains. When a backend cannot be connected,
its sorry server takes its place with the same stream and the same bytes, and nothing has been
written to the client until then. -/
theorem forwards_transparently (config : Config) (stream : TcpStream) (initialBytes : Bytes) :
    (handleConn env config stream initialBytes).Transparent stream initialBytes ∧
      ∀ k backend s, env.Refuses k backend → backend.sorryServer = some s → ∀ stream bytes,
        connectOrHandoffBackend env k stream bytes backend =
          { connectOrHandoffBackend env (k + 1) stream bytes s with
            attempts := ⟨backend, stream, bytes⟩ ::
              (connectOrHandoffBackend env (k + 1) stream bytes s).attempts } :=
  ⟨handleConn_transparent env config stream initialBytes,
    fun _ _ _ hrefuses hnext => connectOrHandoffBackend_of_refuses hrefuses hnext⟩

end Connection

/-- The first attempt to connect fails, the others succeed. -/
def sampleEnv : Env SampleTls where
  tls _ := sampleTls
  kernel := sampleKernel
  lookupHost _ _ := .ok [.v4 0xc0000202 443]
  connect k addr := if k = 0 then none else some ⟨[], [], none, .ok addr, .ok (.v4 0xc0000201 1001)⟩
  connectTls _ _ _ conn := .ok (none, { conn with written := [] })
  unbound _ := .ok ()
  connectUnix k _ := if k = 0 then .error "No such file or directory" else .ok ()
  sendmsg bytes := .ok bytes.length
  connectTimer := none
  handshakeTimer := none
  frontendTimer := false
  downstreamFails := none
  lifetimeTimer := none
  shutdownUpstream := true
  shutdownDownstream := true
  connect_fresh := by
    intro k addr conn h
    split at h
    · cases h
    · cases h
      rfl
  connectTls_fresh := by
    intro k config host conn data conn' h
    cases h
    rfl
  sendmsg_whole := by
    intro bytes sent h
    cases h
    rfl

/-- A server with a sorry server that wants the PROXY line. -/
def sampleConfig : Config where
  handshakeTimeout := none
  rules := []
  default := ⟨fun _ => true, .proxy "a:443" false none none
    (some (.proxy "b:443" true none none none)), ⟨[], .accept⟩, none⟩

/-- The server does not answer. Its sorry server gets the PROXY line, the three bytes that were
read before and the two on the socket. -/
theorem forwards_transparently_sample :
    (handleConn sampleEnv sampleConfig (sampleStream [4, 5]) [1, 2, 3]).Transparent
        (sampleStream [4, 5]) [1, 2, 3] ∧
      (handleConn sampleEnv sampleConfig (sampleStream [4, 5]) [1, 2, 3]).proxied.any
        (fun p => p.result.isOk ∧ p.conn.written =
          proxyLine (.v4 0xc6336401 1000) (.v4 0xc0000201 443) ++ [1, 2, 3, 4, 5]) = true := by
  refine ⟨(forwards_transparently sampleEnv sampleConfig (sampleStream [4, 5]) [1, 2, 3]).1, ?_⟩
  decide +kernel

end Tcp

end SniRouter
