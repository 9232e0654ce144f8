import SniRouter.Tcp.Forwarding
import SniRouter.Tcp.Backoff

/-!
# Where clients come from

A router gets its clients from a TCP listener, or from whoever sends their sockets to its unix
datagram socket: another router with a `pass` backend, or any other process. A message there is
accepted only if it has exactly one descriptor and fits in the buffer; whatever else it carries
is closed again. What the system does is a parameter: a call may fail, and a message is taken even
when there is no room for its descriptors. Then `cmsgs` fails, and nobody closes the descriptors
for which there was room (`recvFdOverUdsNow_cut`).

Routers can be chained in this way. Each of them reads the ClientHello for itself, from the bytes
that came with the socket; `handsOn_chain` says that this makes no difference to the client.
-/

namespace SniRouter

namespace Tcp

/-! ## Messages with descriptors -/

/-- `UDS_DGRAM_BUF_CAPACITY`. -/
def udsDgramBufCapacity : ℕ := 64 * 1024

/-- `UDS_CMSG_FD_CAPACITY`. -/
def udsCmsgFdCapacity : ℕ := 253

/-- `std::io::Error`. -/
inductive IoError where
  /-- What a system call failed with. -/
  | os (kind : ErrorKind)
  | custom (kind : ErrorKind) (message : String)
deriving DecidableEq

def IoError.kind : IoError → ErrorKind
  | .os kind => kind
  | .custom kind _ => kind

/-- A descriptor that was passed. It need not be one of a TCP socket: then it may be impossible
to make it non-blocking or to register it. -/
structure PassedFd where
  stream : TcpStream
  setNonblocking : Except IoError Unit
  fromStd : Except IoError Unit

/-- `ControlMessageOwned`. -/
inductive ControlMessage where
  | scmRights (fds : List PassedFd)
  | other

/-- What `recvmsg` returns: what it has put in the buffer, its flags and the control messages. -/
structure RecvMsg where
  data : Bytes
  trunc : Bool
  ctrunc : Bool
  cmsgs : Except IoError (List ControlMessage)
  /-- The descriptors that are now in the process's table. -/
  installed : List PassedFd

/-- A received client, or why there is none. -/
structure Received where
  result : Except IoError (TcpStream × Bytes)
  closed : List PassedFd
  /-- The descriptors in the process's table that nothing refers to. -/
  leaked : List PassedFd

def tcpStreamFromReceivedFd (fd : PassedFd) : Except IoError TcpStream :=
  match fd.setNonblocking, fd.fromStd with
  | .error e, _ => .error e
  | .ok (), .error e => .error e
  | .ok (), .ok () => .ok fd.stream

/-- The descriptors among the control messages, in order. -/
def scmRightsFds (cmsgs : List ControlMessage) : List PassedFd :=
  cmsgs.flatMap fun cmsg => match cmsg with
    | .scmRights fds => fds
    | .other => []

/-- `recv_fd_over_uds_now` with the message that was received. A descriptor that is not returned
is dropped, which closes it. -/
def recvFdOverUdsNow (msg : RecvMsg) : Received :=
  match msg.cmsgs with
  -- only the control messages say which descriptors were installed
  | .error e => ⟨.error e, [], msg.installed⟩
  | .ok cmsgs =>
    let fds := scmRightsFds cmsgs
    if msg.trunc then
      ⟨.error (.custom .invalidData
        s!"UDS datagram data truncated at {udsDgramBufCapacity} bytes"), fds, []⟩
    else if msg.ctrunc then
      ⟨.error (.custom .invalidData "UDS datagram control data truncated"), fds, []⟩
    else
      match fds with
      | [fd] =>
        match tcpStreamFromReceivedFd fd with
        | .error e => ⟨.error e, [fd], []⟩
        | .ok stream => ⟨.ok (stream, msg.data), [], []⟩
      | fds =>
        let n := fds.length
        ⟨.error (.custom .invalidData s!"expected exactly one passed fd, got {n}"), fds, []⟩

/-! ## The system -/

/-- A message on its way. -/
structure UdsDatagram where
  data : Bytes
  fds : List PassedFd

/-- What the system answers to the calls of one attempt to accept. -/
structure Syscalls where
  /-- The call that would take something off the listener fails, and takes nothing. -/
  fault : Option ErrorKind
  /-- `recvmsg`, with the size of the buffer and how many descriptors fit in the other one. -/
  recvmsg : ℕ → ℕ → UdsDatagram → RecvMsg
  /-- A connection that was taken off the backlog may be aborted, and may fail to register. -/
  established : TcpStream → Except ErrorKind Unit

/-- What is documented of `recvmsg` and of `cmsgs`. Descriptors for which there is no room, in the
buffer or in the process's table, are dropped from the end and `MSG_CTRUNC` is set. Then `cmsgs`
fails with `ENOBUFS`; otherwise it returns all of them. -/
structure RecvMsg.Of (capacity : ℕ) (datagram : UdsDatagram) (msg : RecvMsg) : Prop where
  data : msg.data = datagram.data.take capacity
  trunc : msg.trunc = decide (capacity < datagram.data.length)
  installed : msg.installed <+: datagram.fds
  complete : msg.ctrunc = false → msg.installed = datagram.fds ∧
    ∃ cmsgs, msg.cmsgs = .ok cmsgs ∧ scmRightsFds cmsgs = datagram.fds
  cut : msg.ctrunc = true → msg.cmsgs = .error (.os .other)

/-- The answers of the system are as documented. -/
def Syscalls.Documented (sys : Syscalls) : Prop :=
  ∀ capacity fdCapacity datagram, (sys.recvmsg capacity fdCapacity datagram).Of capacity datagram

/-- There is room for `free` more descriptors in the process's table, and no call fails. -/
def sampleSyscalls (free : ℕ) : Syscalls where
  fault := none
  recvmsg capacity fdCapacity datagram :=
    let installed := datagram.fds.take (min fdCapacity free)
    let ctrunc := decide (installed.length < datagram.fds.length)
    { data := datagram.data.take capacity
      trunc := capacity < datagram.data.length
      ctrunc := ctrunc
      cmsgs :=
        if ctrunc then .error (.os .other)
        else .ok (if installed.isEmpty then [] else [.scmRights installed])
      installed := installed }
  established _ := .ok ()

theorem sampleSyscalls_documented (free : ℕ) : (sampleSyscalls free).Documented := by
  intro capacity fdCapacity datagram
  refine ⟨rfl, rfl, List.take_prefix .., fun hctrunc => ?_, fun hctrunc => ?_⟩
  · have hall : datagram.fds.take (min fdCapacity free) = datagram.fds :=
      (List.take_prefix ..).eq_of_length_le (not_lt.mp (of_decide_eq_false hctrunc))
    refine ⟨hall, if datagram.fds.isEmpty then [] else [.scmRights datagram.fds], ?_, ?_⟩
    · dsimp only [sampleSyscalls]
      rw [hall, decide_eq_false (lt_irrefl _), if_neg Bool.false_ne_true]
    · cases hfds : datagram.fds <;> simp [scmRightsFds]
  · exact if_pos hctrunc

/-! ## Accepting -/

/-- A client, and what was read from it before. -/
structure AcceptedConnection where
  stream : TcpStream
  initialBytes : Bytes

/-- A listener, and what waits at it. -/
inductive IngressListener where
  | tcp (backlog : List TcpStream)
  | unixDatagram (queue : List UdsDatagram)

/-- An attempt to accept that has finished: its result, the sockets that were closed or leaked, and
the listener afterwards. -/
structure Accepting where
  result : Except AcceptError AcceptedConnection
  closed : List TcpStream
  leaked : List TcpStream
  listener : IngressListener

/-- An attempt finishes when something waits, or when the system call fails with another error
than that nothing does. -/
def IngressListener.accept (sys : Syscalls) (listener : IngressListener) : Option Accepting :=
  match sys.fault, listener with
  | some kind, listener => some ⟨.error (.io kind), [], [], listener⟩
  | none, .tcp [] => none
  | none, .tcp (stream :: backlog) =>
    match sys.established stream with
    | .error kind => some ⟨.error (.io kind), [stream], [], .tcp backlog⟩
    | .ok () => some ⟨.ok ⟨stream, []⟩, [], [], .tcp backlog⟩
  | none, .unixDatagram [] => none
  | none, .unixDatagram (datagram :: queue) =>
    let received :=
      recvFdOverUdsNow (sys.recvmsg udsDgramBufCapacity udsCmsgFdCapacity datagram)
    some
      { result := match received.result with
          | .error e => .error (.io e.kind)
          | .ok (stream, initialBytes) => .ok ⟨stream, initialBytes⟩
        closed := received.closed.map PassedFd.stream
        leaked := received.leaked.map PassedFd.stream
        listener := .unixDatagram queue }

/-! ## What is accepted -/

/-- The client a message carries, if all of it is received. -/
def UdsDatagram.client (datagram : UdsDatagram) : Option AcceptedConnection :=
  match datagram.fds with
  | [fd] =>
    if datagram.data.length ≤ udsDgramBufCapacity then
      (tcpStreamFromReceivedFd fd).toOption.map (⟨·, datagram.data⟩)
    else none
  | _ => none

/-- A message no sane process sends: it is too long, or it has not exactly one descriptor. -/
def UdsDatagram.Malformed (datagram : UdsDatagram) : Prop :=
  udsDgramBufCapacity < datagram.data.length ∨ datagram.fds.length ≠ 1

instance (datagram : UdsDatagram) : Decidable datagram.Malformed :=
  inferInstanceAs (Decidable (_ ∨ _))

section Received

variable {datagram : UdsDatagram} {msg : RecvMsg}

/-- The socket is the one that was sent. -/
theorem tcpStreamFromReceivedFd_ok {fd : PassedFd} {stream : TcpStream}
    (h : tcpStreamFromReceivedFd fd = .ok stream) : stream = fd.stream := by
  unfold tcpStreamFromReceivedFd at h
  split at h
  · cases h
  · cases h
  · exact (Except.ok.inj h).symm

theorem UdsDatagram.client_eq_some {c : AcceptedConnection} (h : datagram.client = some c) :
    ∃ fd, datagram.fds = [fd] ∧ tcpStreamFromReceivedFd fd = .ok c.stream ∧
      datagram.data.length ≤ udsDgramBufCapacity ∧ c.initialBytes = datagram.data := by
  unfold client at h
  split at h
  · rename_i fd hfds
    split at h
    · rename_i hfits
      cases hfd : tcpStreamFromReceivedFd fd with
      | error e =>
        rw [hfd] at h
        cases h
      | ok stream =>
        rw [hfd] at h
        cases h
        exact ⟨fd, hfds, hfd, hfits, rfl⟩
    · cases h
  · cases h

/-- All of a message that carries a client is received. -/
theorem recvFdOverUdsNow_client {c : AcceptedConnection} (hmsg : msg.Of udsDgramBufCapacity datagram)
    (hctrunc : msg.ctrunc = false) (h : datagram.client = some c) :
    recvFdOverUdsNow msg = ⟨.ok (c.stream, c.initialBytes), [], []⟩ := by
  obtain ⟨-, cmsgs, hcmsgs, hscm⟩ := hmsg.complete hctrunc
  obtain ⟨fd, hfds, hfd, hfits, hbytes⟩ := UdsDatagram.client_eq_some h
  have htrunc : msg.trunc = false := by rw [hmsg.trunc, decide_eq_false (not_lt.mpr hfits)]
  have hdata : msg.data = datagram.data := by rw [hmsg.data, List.take_of_length_le hfits]
  simp [recvFdOverUdsNow, hcmsgs, hscm, hctrunc, htrunc, hdata, hfds, hfd, hbytes]

/-- What does not carry a client is refused, and everything that came with it is closed. -/
theorem recvFdOverUdsNow_refused (hmsg : msg.Of udsDgramBufCapacity datagram)
    (hctrunc : msg.ctrunc = false) (h : datagram.client = none) :
    ∃ e, recvFdOverUdsNow msg = ⟨.error e, datagram.fds, []⟩ ∧
      (datagram.Malformed → e.kind = .invalidData) := by
  obtain ⟨-, cmsgs, hcmsgs, hscm⟩ := hmsg.complete hctrunc
  unfold recvFdOverUdsNow
  rw [hcmsgs]
  dsimp only
  rw [hscm, hctrunc]
  split
  · exact ⟨_, rfl, fun _ => rfl⟩
  · rename_i htrunc
    have hfits : datagram.data.length ≤ udsDgramBufCapacity := by
      simpa [hmsg.trunc] using htrunc
    rw [if_neg Bool.false_ne_true]
    split
    · rename_i fd hone
      cases hfd : tcpStreamFromReceivedFd fd with
      | error e =>
        refine ⟨e, by rw [hone], ?_⟩
        rintro (hlong | hmany)
        · omega
        · simp [hone] at hmany
      | ok stream => simp [UdsDatagram.client, hone, hfits, hfd, Except.toOption] at h
    · exact ⟨_, rfl, fun _ => rfl⟩

/-- If a descriptor is missing, the message is lost whatever it was: nothing is closed, and the
error calls for a delay. -/
theorem recvFdOverUdsNow_cut (hmsg : msg.Of udsDgramBufCapacity datagram)
    (hctrunc : msg.ctrunc = true) :
    recvFdOverUdsNow msg = ⟨.error (.os .other), [], msg.installed⟩ := by
  simp only [recvFdOverUdsNow, hmsg.cut hctrunc]

end Received

/-! ## Chains of routers -/

section Chain

variable {σ : Type} {env : Env σ} {config : Config} {stream : TcpStream} {initialBytes : Bytes}
  {read : HelloRead}

/-- A router does the same for a client that another one has read from. -/
theorem handleConn_again (h : readTlsClienthello stream.unread initialBytes = .ok read) :
    handleConn env config { stream with unread := read.unread } read.bytes =
      handleConn env config stream initialBytes := by
  have hroute : routeAndConnect env config { stream with unread := read.unread } read.bytes =
      routeAndConnect env config stream initialBytes := by
    unfold routeAndConnect
    rw [h, readTlsClienthello_again h]
  unfold handleConn routeWithDeadline
  rw [hroute]

/-- What is handed off without frontend TLS is the client as the ClientHello was read from it. -/
theorem handleConn_handoff {handoff : Handoff}
    (h : (handleConn env config stream initialBytes).handoff = some handoff)
    (htls : handoff.frontendTls = none) :
    ∃ read, readTlsClienthello stream.unread initialBytes = .ok read ∧
      handoff.payload = read.bytes ∧ handoff.stream = { stream with unread := read.unread } := by
  rw [(handleConn_connecting env config stream initialBytes).2.1] at h
  have hrouted : (routeAndConnect env config stream initialBytes).connecting.handoff =
      some handoff := by
    unfold routeWithDeadline at h
    dsimp only at h
    split at h
    · cases h
    · exact h
  unfold routeAndConnect at hrouted
  cases hpeer : stream.peerAddr with
  | error e =>
    rw [hpeer] at hrouted
    cases hrouted
  | ok peer =>
    cases hread : readTlsClienthello stream.unread initialBytes with
    | error e =>
      rw [hpeer, hread] at hrouted
      cases hrouted
    | ok read =>
      rw [hpeer, hread] at hrouted
      dsimp only at hrouted
      split at hrouted
      · cases hrouted
      · obtain ⟨-, -, -, hsent⟩ :=
          (connectOrHandoffBackendWithTimeout_tries _).handoff handoff hrouted
        exact ⟨read, rfl, hsent htls⟩

end Chain

/-- A router hands the client `c` on without frontend TLS, and `c'` is what the router at the
other end of the unix socket accepts. -/
def HandsOn (c c' : AcceptedConnection) : Prop :=
  ∃ (σ : Type) (env : Env σ) (config : Config) (handoff : Handoff) (datagram : UdsDatagram)
    (fd : PassedFd) (msg : RecvMsg),
    (handleConn env config c.stream c.initialBytes).handoff = some handoff ∧
      handoff.frontendTls = none ∧ datagram.data = handoff.payload ∧ datagram.fds = [fd] ∧
      fd.stream = handoff.stream ∧ msg.Of udsDgramBufCapacity datagram ∧
      (recvFdOverUdsNow msg).result = .ok (c'.stream, c'.initialBytes)

section HandsOn

variable {c c' c'' : AcceptedConnection}

/-- What is accepted after a hand-off does not depend on the router that handed the client on. -/
theorem HandsOn.read (h : HandsOn c c') :
    ∃ read, readTlsClienthello c.stream.unread c.initialBytes = .ok read ∧
      c' = ⟨{ c.stream with unread := read.unread }, read.bytes⟩ := by
  obtain ⟨σ, env, config, handoff, datagram, fd, msg, hhandoff, htls, hdata, hfds, hfd, hmsg,
    hresult⟩ := h
  obtain ⟨read, hread, hpayload, hstream⟩ := handleConn_handoff hhandoff htls
  refine ⟨read, hread, ?_⟩
  have hctrunc : msg.ctrunc = false := by
    by_contra hcut
    rw [recvFdOverUdsNow_cut hmsg (Bool.eq_true_of_not_eq_false hcut)] at hresult
    cases hresult
  cases hclient : datagram.client with
  | none =>
    obtain ⟨e, hrefused, -⟩ := recvFdOverUdsNow_refused hmsg hctrunc hclient
    rw [hrefused] at hresult
    cases hresult
  | some client =>
    rw [recvFdOverUdsNow_client hmsg hctrunc hclient] at hresult
    obtain ⟨fd', hfds', hfd', -, hbytes⟩ := UdsDatagram.client_eq_some hclient
    rw [hfds] at hfds'
    cases hfds'
    have hclient' : c' = client := by
      obtain ⟨stream', bytes'⟩ := c'
      cases hresult
      rfl
    rw [hclient', ← hpayload, ← hstream, ← hdata, ← hfd, ← hbytes,
      ← tcpStreamFromReceivedFd_ok hfd']

/-- The second hand-off carries the same as the first. -/
theorem HandsOn.again (h : HandsOn c c') (h' : HandsOn c' c'') : c'' = c' := by
  obtain ⟨read, hread, rfl⟩ := h.read
  obtain ⟨read', hread', rfl⟩ := h'.read
  rw [readTlsClienthello_again hread] at hread'
  cases hread'
  rfl

/-- A connection that is handed on is handled in the same way. -/
theorem HandsOn.handleConn (h : HandsOn c c') {σ : Type} (env : Env σ) (config : Config) :
    handleConn env config c'.stream c'.initialBytes =
      handleConn env config c.stream c.initialBytes := by
  obtain ⟨read, hread, rfl⟩ := h.read
  exact handleConn_again hread

/-- **Chains of routers.** A router that is handed a client by a chain of routers without
frontend TLS, of any length and with any configurations, does exactly what it would do for the
client itself. It gets the same bytes from every chain, no byte of the stream is lost, and it
hands on what it was given. -/
theorem handsOn_chain (h : Relation.TransGen HandsOn c c') :
    (∀ (σ : Type) (env : Env σ) (config : Config),
      handleConn env config c'.stream c'.initialBytes =
        handleConn env config c.stream c.initialBytes) ∧
    c'.initialBytes ++ c'.stream.unread = c.initialBytes ++ c.stream.unread ∧
    (∀ c'', Relation.TransGen HandsOn c c'' → c'' = c') ∧ ∀ c'', HandsOn c' c'' → c'' = c' := by
  -- the first router decides what is passed along the chain
  have hfirst : ∀ {c''}, Relation.TransGen HandsOn c c'' → HandsOn c c'' := by
    intro c'' hchain
    induction hchain with
    | single h => exact h
    | tail _ h' ih => exact ih.again h' ▸ ih
  have hhands := hfirst h
  obtain ⟨read, hread, heq⟩ := hhands.read
  refine ⟨fun σ env config => hhands.handleConn env config, ?_, fun c'' hchain => ?_,
    fun c'' h'' => hhands.again h''⟩
  · rw [heq]
    exact readTlsClienthello_append hread
  · obtain ⟨read', hread', heq'⟩ := (hfirst hchain).read
    rw [hread] at hread'
    cases hread'
    rw [heq, heq']

end HandsOn

/-- A host whose `pass` backends answer. -/
def samplePassEnv : Env SampleTls := { sampleEnv with connectUnix := fun _ _ => .ok () }

def samplePassConfig : Config where
  handshakeTimeout := none
  rules := []
  default := ⟨fun _ => true, .pass "/run/next" none none, ⟨[], .accept⟩, none⟩

def sampleFd : PassedFd := ⟨sampleStream [6], .ok (), .ok ()⟩

/-- A client that is handed on by two routers. It has sent no ClientHello, and the first router
reads five bytes to find out. -/
theorem handsOn_chain_two :
    (∀ (σ : Type) (env : Env σ) (config : Config),
      handleConn env config (sampleStream [6]) [1, 2, 3, 4, 5] =
        handleConn env config (sampleStream [1, 2, 3, 4, 5, 6]) []) ∧
    ∀ c'', HandsOn ⟨sampleStream [6], [1, 2, 3, 4, 5]⟩ c'' →
      c'' = ⟨sampleStream [6], [1, 2, 3, 4, 5]⟩ := by
  let handoff : Handoff := ⟨"/run/next", none, [1, 2, 3, 4, 5], sampleStream [6]⟩
  have hhands : ∀ unread initialBytes,
      readTlsClienthello unread initialBytes =
        .ok ⟨[1, 2, 3, 4, 5], [6], .error (unexpectedContentType 1)⟩ →
      HandsOn ⟨sampleStream unread, initialBytes⟩ ⟨sampleStream [6], [1, 2, 3, 4, 5]⟩ := by
    intro unread initialBytes hread
    refine ⟨SampleTls, samplePassEnv, samplePassConfig, handoff, ⟨handoff.payload, [sampleFd]⟩,
      sampleFd, _, ?_, rfl, rfl, rfl, rfl, sampleSyscalls_documented 1 _ udsCmsgFdCapacity _, rfl⟩
    unfold handleConn routeWithDeadline routeAndConnect
    rw [show (sampleStream unread).unread = unread from rfl, hread]
    rfl
  have hchain := (Relation.TransGen.single
    (hhands [1, 2, 3, 4, 5, 6] [] (by decide +kernel))).tail
    (hhands [6] [1, 2, 3, 4, 5] (by decide +kernel))
  obtain ⟨hsame, -, -, hfixed⟩ := handsOn_chain hchain
  exact ⟨hsame, hfixed⟩

end Tcp

end SniRouter
