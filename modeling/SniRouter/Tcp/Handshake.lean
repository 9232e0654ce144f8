import SniRouter.Tcp.ClientHello

/-!
# The frontend TLS handshake

`tlsHandshake` terminates TLS in front of a backend. It feeds the client's records to rustls
one by one until the handshake is over, and then gives the keys and the socket to the kernel,
which goes on where rustls has stopped. So rustls must have been fed whole records only, all
the bytes that had been read from the socket before, and nothing beyond: one byte too many or
too few and the kernel decrypts garbage.

rustls is the parameter `ServerConnection`, a state machine that is fed bytes. A `Session` is
such a machine together with what went in and out of it.
-/

namespace SniRouter

/-! ## Sockets -/

/-- A connected TCP socket. -/
structure TcpStream where
  /-- What the other end sends and nobody has read yet. The end of the stream follows. -/
  unread : Bytes
  /-- What has been written to the other end. -/
  written : Bytes
  /-- How much more can be written before a write fails, when one does. -/
  room : Option ℕ
  peerAddr : Except String SocketAddr
  localAddr : Except String SocketAddr

/-- `write_all`: whether it succeeds, and the socket afterwards. -/
def TcpStream.writeAll (stream : TcpStream) (data : Bytes) : Bool × TcpStream :=
  match stream.room with
  | none => (true, { stream with written := stream.written ++ data })
  | some room =>
    (data.length ≤ room,
      { stream with
        written := stream.written ++ data.take room
        room := some (room - data.length) })

/-- A writer that was dropped when it had written `n` bytes. -/
def TcpStream.droppedAt (conn : TcpStream) (n : ℕ) : TcpStream :=
  { conn with written := conn.written.take n }

@[simp] theorem TcpStream.writeAll_unread (stream : TcpStream) (data : Bytes) :
    (stream.writeAll data).2.unread = stream.unread := by
  unfold writeAll
  split <;> rfl

/-! ## rustls -/

/-- `rustls::ServerConnection`, with its states `σ`. The laws are what `tls_handshake` relies
on. -/
structure ServerConnection (σ : Type) where
  new : Except String σ
  /-- Reads from the start of the input, and says how much. -/
  readTls : σ → Bytes → Except String (ℕ × σ)
  /-- Processes what was read, and says how much plaintext there is. -/
  processNewPackets : σ → Except String (ℕ × σ)
  /-- `reader().read_exact(..)`. -/
  readExact : σ → ℕ → Except String (Bytes × σ)
  isHandshaking : σ → Bool
  /-- The number of bytes to be written; `wants_write` says whether there are any. -/
  sendable : σ → ℕ
  writeTls : σ → Except String (Bytes × σ)
  negotiatedCipherSuite : σ → Option ℕ
  /-- The keys for receiving and for sending. -/
  dangerousExtractSecrets : σ → Except String (Bytes × Bytes)
  new_handshaking : ∀ {s}, new = .ok s → isHandshaking s = true
  readTls_le : ∀ {s input n s'}, readTls s input = .ok (n, s') → n ≤ input.length
  readExact_length : ∀ {s count out s'}, readExact s count = .ok (out, s') → out.length = count
  writeTls_lt : ∀ {s out s'}, 0 < sendable s → writeTls s = .ok (out, s') → sendable s' < sendable s
  /-- Only processing records ends the handshake. -/
  writeTls_handshaking : ∀ {s out s'}, writeTls s = .ok (out, s') →
    isHandshaking s' = isHandshaking s
  /-- A handshake that is over stays over. -/
  readTls_over : ∀ {s input n s'}, readTls s input = .ok (n, s') → isHandshaking s = false →
    isHandshaking s' = false
  processNewPackets_over : ∀ {s n s'}, processNewPackets s = .ok (n, s') →
    isHandshaking s = false → isHandshaking s' = false
  readExact_over : ∀ {s count out s'}, readExact s count = .ok (out, s') →
    isHandshaking s = false → isHandshaking s' = false

/-- What kernel TLS asks of the system. -/
structure KernelTls where
  /-- `setsockopt(SOL_TCP, TCP_ULP)` succeeds. -/
  setUlp : Bool
  /-- `ktls::CryptoInfo::from_rustls`. -/
  cryptoInfo : ℕ → Bytes → Except String Bytes
  /-- `setsockopt(SOL_TLS, TLS_RX)` and `setsockopt(SOL_TLS, TLS_TX)` succeed. -/
  setRx : Bytes → Bool
  setTx : Bytes → Bool

/-- A connection with its history. -/
structure Session (σ : Type) where
  state : σ
  /-- What was fed, call by call, and whether the handshake was going on then. -/
  log : List (Bytes × Bool)
  /-- How much plaintext was announced, and the plaintext that was read. -/
  announced : ℕ
  emitted : Bytes

/-- Everything that was fed. -/
def Session.fed {σ : Type} (session : Session σ) : Bytes := session.log.flatMap Prod.fst

section Model

variable {σ : Type} (tls : ServerConnection σ)

namespace Session

def readTls (session : Session σ) (input : Bytes) : Except String (ℕ × Session σ) := do
  let (n, state) ← tls.readTls session.state input
  return (n, { session with
    state := state
    log := session.log ++ [(input.take n, tls.isHandshaking session.state)] })

def processNewPackets (session : Session σ) : Except String (ℕ × Session σ) := do
  let (count, state) ← tls.processNewPackets session.state
  return (count, { session with state := state, announced := session.announced + count })

def readExact (session : Session σ) (count : ℕ) : Except String (Bytes × Session σ) := do
  let (out, state) ← tls.readExact session.state count
  return (out, { session with state := state, emitted := session.emitted ++ out })

def isHandshaking (session : Session σ) : Bool := tls.isHandshaking session.state

end Session

/-! ## The record loops -/

/-- Length of one TLS record, including its five-byte header. -/
def tlsRecordLen (bytes : Bytes) : Except String ℕ :=
  if bytes.length < 5 then .error "incomplete pre-read TLS record header"
  else .ok (5 + u16At bytes 3)

/-- The rest of `processTlsRecord`, with the cursor at `pos`. -/
def processFrom (session : Session σ) (record plaintext : Bytes) (pos : ℕ) :
    Except String (Session σ × Bytes) :=
  if pos < record.length then
    match session.readTls tls (record.drop pos) with
    | .error _ => .error "reading TLS"
    | .ok (n, session) =>
      if n = 0 then .error "TLS handshake stopped consuming buffered input"
      else
        match session.processNewPackets tls with
        | .error _ => .error "processing TLS packets"
        | .ok (count, session) =>
          if count > 0 then
            match session.readExact tls count with
            | .error _ => .error "draining buffered TLS plaintext"
            | .ok (out, session) => processFrom session record (plaintext ++ out) (pos + n)
          else processFrom session record plaintext (pos + n)
  else .ok (session, plaintext)
termination_by record.length - pos

/-- Feeds exactly one complete record to rustls, preserving its record boundary. -/
def processTlsRecord (session : Session σ) (record plaintext : Bytes) :
    Except String (Session σ × Bytes) :=
  processFrom tls session record plaintext 0

/-- The length of a record is known from its header on, which it includes. -/
theorem tlsRecordLen_pos {bytes : Bytes} {len : ℕ} (h : tlsRecordLen bytes = .ok len) :
    5 ≤ len ∧ 5 ≤ bytes.length := by
  unfold tlsRecordLen at h
  split at h
  · cases h
  · cases h
    omega

/-- Processes only complete records already held in userspace. Later ciphertext belongs to the
kernel. -/
def processBufferedTlsRecords (session : Session σ) (bytes plaintext : Bytes) :
    Except String (Session σ × Bytes) :=
  if bytes.isEmpty then .ok (session, plaintext)
  else
    match hlen : tlsRecordLen bytes with
    | .error e => .error e
    | .ok len =>
      if bytes.length < len then .error "incomplete pre-read TLS record payload"
      else
        match processTlsRecord tls session (bytes.take len) plaintext with
        | .error e => .error e
        | .ok (session, plaintext) =>
          processBufferedTlsRecords session (bytes.drop len) plaintext
termination_by bytes.length
decreasing_by
  have := tlsRecordLen_pos hlen
  simp only [List.length_drop]
  omega

/-- When the handshake is over, the kernel gets nothing that is already buffered. -/
def processIfOver (session : Session σ) (bytes plaintext : Bytes) :
    Except String (Session σ × Bytes) :=
  if session.isHandshaking tls then .ok (session, plaintext)
  else processBufferedTlsRecords tls session bytes plaintext

/-- The loop over `wants_write`. -/
def writePending (session : Session σ) (stream : TcpStream) :
    Except String (Session σ × TcpStream) :=
  if hwants : tls.sendable session.state > 0 then
    match hwrite : tls.writeTls session.state with
    | .error _ => .error "writing TLS"
    | .ok (output, state) =>
      match stream.writeAll output with
      | (false, _) => .error "writing as part of handshake"
      | (true, stream) => writePending { session with state := state } stream
  else .ok (session, stream)
termination_by tls.sendable session.state
decreasing_by exact tls.writeTls_lt hwants hwrite

/-- The variables of the loop in `tls_handshake`. -/
structure Handshake (σ : Type) where
  session : Session σ
  stream : TcpStream
  bytes : Bytes
  plaintext : Bytes

/-- One round of the loop, up to the question whether the handshake is over. It reads no
further than the next record. -/
def Handshake.round (h : Handshake σ) : Except String (Handshake σ) := do
  let (bytes, unread) ← (ensureBytesAvailable h.stream.unread h.bytes 5).mapError fun _ =>
    "reading TLS handshake record header"
  let len ← tlsRecordLen bytes
  let (bytes, unread) ← (ensureBytesAvailable unread bytes len).mapError fun _ =>
    "reading TLS handshake record payload"
  let (session, plaintext) ← processTlsRecord tls h.session (bytes.take len) h.plaintext
  let bytes := bytes.drop len
  let (session, plaintext) ← processIfOver tls session bytes plaintext
  let (session, stream) ← writePending tls session { h.stream with unread := unread }
  return ⟨session, stream, bytes, plaintext⟩

/-- The kernel takes over the connection. -/
def enableKernelTls (kernel : KernelTls) (session : Session σ) : Except String Unit := do
  if !kernel.setUlp then .error "setsockopt(SOL_TCP/TCP_ULP)"
  let suite ← okOr (tls.negotiatedCipherSuite session.state)
    "failed to get negotiated cipher suite"
  let (rx, tx) ← (tls.dangerousExtractSecrets session.state).mapError fun _ => "extracting keys"
  let tlsRx ← (kernel.cryptoInfo suite rx).mapError fun _ => "extracting rx keys"
  let tlsTx ← (kernel.cryptoInfo suite tx).mapError fun _ => "extracting tx keys"
  if !kernel.setRx tlsRx || !kernel.setTx tlsTx then .error "setsockopt(SOL_TLS)"
  return ()

/-- Bytes are read from the socket only up to the length that is needed. -/
theorem ensureBytesAvailable_cases {rest bytes bytes' rest' : Bytes} {len : ℕ}
    (h : ensureBytesAvailable rest bytes len = .ok (bytes', rest')) :
    bytes <+: bytes' ∧ bytes' ++ rest' = bytes ++ rest ∧
      (len ≤ bytes.length ∧ bytes' = bytes ∨ bytes.length < len ∧ bytes'.length = len) := by
  unfold ensureBytesAvailable at h
  dsimp only at h
  split at h
  · rename_i hlen
    cases h
    exact ⟨List.prefix_refl _, rfl, Or.inl ⟨hlen, rfl⟩⟩
  rename_i hlen
  split at h
  · cases h
  · cases h
    refine ⟨List.prefix_append .., ?_, Or.inr ⟨not_le.mp hlen, ?_⟩⟩
    · rw [List.append_assoc, List.take_append_drop]
    · simp only [List.length_append, List.length_take]
      omega

/-- Writing to the client leaves the history of a session as it is. -/
structure Session.Wrote (c c' : Session σ) : Prop where
  log : c'.log = c.log
  announced : c'.announced = c.announced
  emitted : c'.emitted = c.emitted
  handshaking : c'.isHandshaking tls = c.isHandshaking tls

/-- Writing the answer takes nothing from the client. -/
theorem writePending_wrote {session session' : Session σ} {stream stream' : TcpStream}
    (h : writePending tls session stream = .ok (session', stream')) :
    session.Wrote tls session' ∧ stream'.unread = stream.unread := by
  fun_induction writePending tls session stream with
  | case1 => cases h
  | case2 => cases h
  | case3 session stream hwants output state hwrite stream₁ hall ih =>
    obtain ⟨hwrote, hunread⟩ := ih h
    have hkept := stream.writeAll_unread output
    rw [hall] at hkept
    refine ⟨⟨hwrote.log, hwrote.announced, hwrote.emitted, ?_⟩, hunread.trans hkept⟩
    exact hwrote.handshaking.trans (tls.writeTls_handshaking hwrite)
  | case4 =>
    cases h
    exact ⟨⟨rfl, rfl, rfl, rfl⟩, rfl⟩

/-- A TLS record, header included. -/
def IsTlsRecord (record : Bytes) : Prop := 5 ≤ record.length ∧ record.length = 5 + u16At record 3

/-- The bytes up to the length in the header are one record. -/
theorem isTlsRecord_take {bytes : Bytes} {len : ℕ} (h : tlsRecordLen bytes = .ok len)
    (hlen : len ≤ bytes.length) : IsTlsRecord (bytes.take len) := by
  obtain ⟨hpos, -⟩ := tlsRecordLen_pos h
  have hlength : (bytes.take len).length = len := List.length_take_of_le hlen
  refine ⟨hlength.symm ▸ hpos, ?_⟩
  have hu16 : u16At (bytes.take len) 3 = u16At bytes 3 :=
    u16At_prefix_eq (List.take_prefix ..) (by omega)
  rw [hlength, hu16]
  unfold tlsRecordLen at h
  split at h
  · cases h
  · cases h
    rfl

/-- The length of a record does not depend on what follows its header. -/
theorem tlsRecordLen_of_prefix {bytes bytes' : Bytes} {len : ℕ} (h : tlsRecordLen bytes = .ok len)
    (hpre : bytes <+: bytes') : tlsRecordLen bytes' = .ok len := by
  have hfive := (tlsRecordLen_pos h).2
  have hle := hpre.length_le
  have hu16 := u16At_prefix_eq hpre (show 3 + 1 < bytes.length by omega)
  unfold tlsRecordLen at h ⊢
  rw [if_neg (by omega)] at h ⊢
  rw [← hu16, h]

/-- Everything a successful round does. It takes the next record from the bytes that are
buffered, or completes it from the socket; then no bytes are left over. -/
structure Handshake.Takes (h h' : Handshake σ) (record : Bytes) (session : Session σ)
    (plaintext : Bytes) : Prop where
  isRecord : IsTlsRecord record
  bytes : (h.bytes = record ++ h'.bytes ∧ h'.stream.unread = h.stream.unread) ∨
    (h'.bytes = [] ∧ h.bytes.length < record.length ∧
      record ++ h'.stream.unread = h.bytes ++ h.stream.unread)
  processed : processTlsRecord tls h.session record h.plaintext = .ok (session, plaintext)
  buffered : ∃ session', processIfOver tls session h'.bytes plaintext =
    .ok (session', h'.plaintext) ∧ session'.Wrote tls h'.session

/-- A round takes exactly the next record of the client. -/
theorem Handshake.round_takes {h h' : Handshake σ} (hround : h.round tls = .ok h') :
    ∃ record session plaintext, h.Takes tls h' record session plaintext := by
  obtain ⟨⟨bytes₁, unread₁⟩, hheader, hround⟩ := except_bind_eq_ok hround
  obtain ⟨len, hlen, hround⟩ := except_bind_eq_ok hround
  obtain ⟨⟨bytes₂, unread₂⟩, hpayload, hround⟩ := except_bind_eq_ok hround
  obtain ⟨⟨session, plaintext⟩, hprocessed, hround⟩ := except_bind_eq_ok hround
  obtain ⟨⟨session', plaintext'⟩, hbuffered, hround⟩ := except_bind_eq_ok hround
  obtain ⟨⟨session'', stream⟩, hwritten, hround⟩ := except_bind_eq_ok hround
  cases hround
  obtain ⟨hwrote, hunread⟩ := writePending_wrote tls hwritten
  obtain ⟨hpre₁, happend₁, hcase₁⟩ := ensureBytesAvailable_cases (mapError_eq_ok.mp hheader)
  obtain ⟨hpre₂, happend₂, hcase₂⟩ := ensureBytesAvailable_cases (mapError_eq_ok.mp hpayload)
  have hlen₂ := tlsRecordLen_of_prefix hlen hpre₂
  have hpos := (tlsRecordLen_pos hlen).1
  have hlong : len ≤ bytes₂.length := by
    rcases hcase₂ with ⟨hle, rfl⟩ | ⟨-, heq⟩
    · exact hle
    · exact heq.ge
  refine ⟨bytes₂.take len, session, plaintext, isTlsRecord_take hlen₂ hlong, ?_, hprocessed,
    session', hbuffered, hwrote⟩
  by_cases hheld : len ≤ h.bytes.length
  · -- the record was buffered, so nothing was read
    left
    obtain rfl : bytes₁ = h.bytes := by
      rcases hcase₁ with ⟨-, hsame⟩ | ⟨hshort, -⟩
      · exact hsame
      · omega
    obtain rfl : bytes₂ = h.bytes := by
      rcases hcase₂ with ⟨-, hsame⟩ | ⟨hshort, -⟩
      · exact hsame
      · omega
    refine ⟨(List.take_append_drop ..).symm, ?_⟩
    rw [hunread]
    exact (List.append_cancel_left happend₂).trans (List.append_cancel_left happend₁)
  · -- it was not, so the socket was read up to its end
    right
    have hexact : bytes₂.length = len := by
      rcases hcase₂ with ⟨hle, rfl⟩ | ⟨-, heq⟩
      · rcases hcase₁ with ⟨-, rfl⟩ | ⟨-, heq⟩
        · omega
        · omega
      · exact heq
    rw [List.take_of_length_le hexact.le, hunread]
    refine ⟨List.drop_of_length_le hexact.le, by omega, ?_⟩
    exact happend₂.trans happend₁

/-- A round uses up bytes of the client, so the rounds end. -/
theorem Handshake.round_lt {h h' : Handshake σ} (hround : h.round tls = .ok h') :
    h'.bytes.length + h'.stream.unread.length < h.bytes.length + h.stream.unread.length := by
  obtain ⟨record, session, plaintext, htakes⟩ := h.round_takes tls hround
  have hpos := htakes.isRecord.1
  rcases htakes.bytes with ⟨hbytes, hunread⟩ | ⟨hnil, -, happend⟩
  · rw [hbytes, hunread, List.length_append]
    omega
  · have hlength := congrArg List.length happend
    simp only [List.length_append] at hlength
    rw [hnil, List.length_nil]
    omega

/-- The loop of `tls_handshake`, and the kernel's turn after it. -/
def Handshake.loop (kernel : KernelTls) (h : Handshake σ) : Except String (Handshake σ) :=
  match hround : h.round tls with
  | .error e => .error e
  | .ok h' =>
    if h'.session.isHandshaking tls then h'.loop kernel
    else
      match enableKernelTls tls kernel h'.session with
      | .error e => .error e
      | .ok () => .ok h'
termination_by h.bytes.length + h.stream.unread.length
decreasing_by exact h.round_lt tls hround

/-- The variables before the first round. -/
def Handshake.start (state : σ) (stream : TcpStream) (bytes : Bytes) : Handshake σ :=
  ⟨⟨state, [], 0, []⟩, stream, bytes, []⟩

/-- Performs the TLS handshake with a client that sent `bytes` before, and sets up kernel TLS.
Of the result the caller gets the stream and the plaintext. -/
def tlsHandshake (kernel : KernelTls) (stream : TcpStream) (bytes : Bytes) :
    Except String (Handshake σ) :=
  match tls.new with
  | .error _ =>
    .error "creating TLS server config: This is sorry-able, but is not implemented"
  | .ok state => (Handshake.start state stream bytes).loop tls kernel

end Model

end SniRouter
