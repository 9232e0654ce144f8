import SniRouter.H3.Indexes
import SniRouter.H3.SendQueue

/-!
# The receive path of backend datagrams

Every backend socket has a reader task of its own. A reader waits until its socket is readable,
waits for a permit of the channel to the main loop, checks a buffer out of the shared pool,
receives into it and sends it over the channel; the main loop hands the datagram to the router
and drops it, which returns the buffer. Buffers come back with the bytes of other connections in
them. Readers and main loop are modelled at the grain of their actions on what they share, and a
run interleaves them in any order.
-/

namespace SniRouter

/-- `MAX_CACHED_BUFFERS`. -/
def maxCachedBuffers : ℕ := 32

/-- The capacity of the channel that `mainloop` creates. -/
def channelCapacity : ℕ := 1024

/-! ## Packets -/

/-- `Packet`: a buffer on loan, of which the first `len` bytes are in use. -/
structure Packet where
  buffer : Bytes
  len : ℕ
  fits : len ≤ buffer.length
deriving DecidableEq

/-- `Packet::deref`. -/
def Packet.deref (packet : Packet) : Bytes := packet.buffer.take packet.len

/-- `Packet::set_len`, whose assertion may fail. -/
def Packet.setLen (packet : Packet) (len : ℕ) : Option Packet :=
  if h : len ≤ packet.buffer.length then some ⟨packet.buffer, len, h⟩ else none

/-- What `try_recv` on `buffer_mut` does to a packet: as much of the datagram as fits is put at
the start of the buffer, the rest of the datagram is lost. -/
def Packet.receive (packet : Packet) (datagram : Bytes) : Packet × ℕ :=
  let data := datagram.take packet.buffer.length
  (⟨data ++ packet.buffer.drop data.length, packet.len, by
    have hfits := packet.fits
    simp [data]
    omega⟩, data.length)

/-- `PacketPool`: the cached buffers, the one to be handed out next first. -/
structure PacketPool where
  buffers : List Bytes
deriving DecidableEq

namespace PacketPool

/-- `PacketPool::acquire`. A cached buffer is handed out as it came back. -/
def acquire (pool : PacketPool) : Packet × PacketPool :=
  match pool.buffers with
  | buffer :: buffers => (⟨buffer, 0, Nat.zero_le _⟩, ⟨buffers⟩)
  | [] => (⟨List.replicate maxDatagramSize 0, 0, Nat.zero_le _⟩, pool)

/-- `Packet::drop`. -/
def release (pool : PacketPool) (packet : Packet) : PacketPool :=
  if pool.buffers.length < maxCachedBuffers then ⟨packet.buffer :: pool.buffers⟩ else pool

end PacketPool

/-! ## Readers -/

/-- The next action of a reader task. -/
inductive ReaderPc where
  /-- In `readable`. -/
  | readable
  /-- In `reserve`. -/
  | reserve
  /-- Holds a permit, about to call `acquire`. -/
  | acquire
  /-- Holds a permit, about to call `try_recv`. -/
  | tryRecv (packet : Packet)
  /-- Holds a permit, about to `permit.send`. -/
  | send (packet : Packet)
  /-- Received nothing, about to drop the packet; `stop` when the loop was left. -/
  | dropPacket (packet : Packet) (stop : Bool)
  /-- About to drop the permit. -/
  | dropPermit (stop : Bool)
  | stopped
  /-- The assertion of `set_len` failed. -/
  | panicked
deriving DecidableEq

namespace ReaderPc

/-- The permits a reader holds. -/
def permits : ReaderPc → ℕ
  | .readable | .reserve | .stopped | .panicked => 0
  | .acquire | .tryRecv _ | .send _ | .dropPacket _ _ | .dropPermit _ => 1

/-- The packets a reader holds. -/
def packets : ReaderPc → List Packet
  | .tryRecv packet | .send packet | .dropPacket packet _ => [packet]
  | .readable | .reserve | .acquire | .dropPermit _ | .stopped | .panicked => []

/-- The datagram a reader has received and not sent on. -/
def received : ReaderPc → List Bytes
  | .send packet => [packet.deref]
  | _ => []

/-- Where the loop goes on, or ends. -/
def next (stop : Bool) : ReaderPc := if stop then .stopped else .readable

end ReaderPc

/-- A reader task and the receive queue of its socket. -/
structure BackendReader where
  queue : List Bytes
  pc : ReaderPc
deriving DecidableEq

/-- The router, its readers and what they share. -/
structure ReceivePath where
  router : Router
  readers : Table ℕ BackendReader
  pool : PacketPool
  /-- The permits of the channel that are left. -/
  free : ℕ
  channel : List (ℕ × Packet)
  /-- The datagram that the main loop took out of the channel and has not handled. -/
  taken : Option (ℕ × Packet)

inductive ReceiveEvent where
  /-- The kernel queues a datagram at the socket of connection `connId`. -/
  | arrive (connId : ℕ) (datagram : Bytes)
  /-- A reader runs its next action; `fail` when what it waits for or calls returns an error. -/
  | reader (connId : ℕ) (fail : Bool)
  /-- `readable` returns although nothing is queued. -/
  | wake (connId : ℕ)
  /-- The abort of a reader takes effect. -/
  | abort (connId : ℕ)
  /-- The main loop takes a datagram out of the channel. -/
  | recv
  /-- The main loop handles the datagram it took. -/
  | handle (io : Io)
  | datagram (io : Io) (peer : SocketAddr) (packet : Bytes)
  | cleanup (now : Instant)
  | setConfig (config : Config)

namespace ReceivePath

def setReader (s : ReceivePath) (k : ℕ) (reader : BackendReader) : ReceivePath :=
  { s with readers := s.readers.insert k reader }

/-- The next action of the loop of `spawn_backend_reader`. -/
def readerStep (s : ReceivePath) (k : ℕ) (reader : BackendReader) (fail : Bool) : ReceivePath :=
  match reader.pc with
  | .readable =>
    if fail then s.setReader k { reader with pc := .stopped }
    else if reader.queue = [] then s
    else s.setReader k { reader with pc := .reserve }
  | .reserve =>
    if fail then s.setReader k { reader with pc := .stopped }
    else if s.free = 0 then s
    else { s with free := s.free - 1 }.setReader k { reader with pc := .acquire }
  | .acquire =>
    let (packet, pool) := s.pool.acquire
    { s with pool := pool }.setReader k { reader with pc := .tryRecv packet }
  | .tryRecv packet =>
    if fail then s.setReader k { reader with pc := .dropPacket packet true }
    else
      match reader.queue with
      -- `WouldBlock`
      | [] => s.setReader k { reader with pc := .dropPacket packet false }
      | datagram :: queue =>
        let (packet, len) := packet.receive datagram
        match packet.setLen len with
        | some packet => s.setReader k { queue := queue, pc := .send packet }
        | none => s.setReader k { queue := queue, pc := .panicked }
  | .send packet =>
    { s with channel := s.channel ++ [(k, packet)] }.setReader k { reader with pc := .readable }
  | .dropPacket packet stop =>
    { s with pool := s.pool.release packet }.setReader k { reader with pc := .dropPermit stop }
  | .dropPermit stop =>
    { s with free := s.free + 1 }.setReader k { reader with pc := .next stop }
  | .stopped | .panicked => s

/-- The handler call an event makes. The main loop does one thing at a time. -/
def call (s : ReceivePath) : ReceiveEvent → Option Event
  | .handle io => s.taken.map fun entry => .backend io entry.1 entry.2.deref
  | .datagram io peer packet =>
    if s.taken.isNone then some (.datagram io peer packet) else none
  | .cleanup now => if s.taken.isNone then some (.cleanup now) else none
  | .setConfig config => if s.taken.isNone then some (.setConfig config) else none
  | _ => none

/-- The router after a handler call. A connection that the call opened gets its reader. -/
def callStep (cr : Crypto) (s : ReceivePath) (call : Event) : ReceivePath :=
  let router := s.router.step cr call
  { s with
    router := router
    readers :=
      if (router.connections.lookup s.router.nextConnectionId).isSome then
        s.readers.insert s.router.nextConnectionId ⟨[], .readable⟩
      else s.readers }

def step (cr : Crypto) (s : ReceivePath) (e : ReceiveEvent) : ReceivePath :=
  match e with
  | .arrive k datagram =>
    match s.readers.lookup k with
    | some reader => s.setReader k { reader with queue := reader.queue ++ [datagram] }
    | none => s
  | .reader k fail =>
    match s.readers.lookup k with
    | some reader => s.readerStep k reader fail
    | none => s
  | .wake k =>
    match s.readers.lookup k with
    | some ⟨queue, .readable⟩ => s.setReader k ⟨queue, .reserve⟩
    | _ => s
  | .abort k =>
    -- `cleanup` aborts the reader of a connection it removes; a task stops while it waits
    match s.router.connections.lookup k, s.readers.lookup k with
    | none, some ⟨queue, .readable⟩ => s.setReader k ⟨queue, .stopped⟩
    | none, some ⟨queue, .reserve⟩ => s.setReader k ⟨queue, .stopped⟩
    | _, _ => s
  | .recv =>
    match s.taken, s.channel with
    | none, entry :: channel =>
      { s with taken := some entry, channel := channel, free := s.free + 1 }
    | _, _ => s
  | .handle io =>
    match s.taken with
    | some entry =>
      { s.callStep cr (.backend io entry.1 entry.2.deref) with
        pool := s.pool.release entry.2
        taken := none }
    | none => s
  | .datagram _ _ _ | .cleanup _ | .setConfig _ => (s.call e).elim s (s.callStep cr)

def run (cr : Crypto) (s : ReceivePath) (es : List ReceiveEvent) : ReceivePath :=
  runFrom (step cr) s es

/-- The state that `mainloop` starts in. -/
def start (config : Config) (idleTimeout : Duration) (limits : Limits) : ReceivePath where
  router := Router.start config idleTimeout limits
  readers := ∅
  pool := ⟨[]⟩
  free := channelCapacity
  channel := []
  taken := none

/-- The handler calls of a run. -/
def calls (cr : Crypto) (s : ReceivePath) (es : List ReceiveEvent) : List Event :=
  traceFrom (step cr) (fun s e => (s.call e).toList) s es

end ReceivePath

/-! ## Packets and the pool -/

/-- The buffer has the size of a fresh one. -/
def Packet.Full (packet : Packet) : Prop := packet.buffer.length = maxDatagramSize

/-- A packet holds the datagram that was received into it and nothing of what was in the buffer
before, and the assertion of `set_len` holds. -/
theorem Packet.setLen_receive {packet : Packet} (hfull : packet.Full) (datagram : Bytes) :
    ∃ packet', (packet.receive datagram).1.setLen (packet.receive datagram).2 = some packet' ∧
      packet'.Full ∧ packet'.deref = datagram.take maxDatagramSize := by
  unfold Packet.Full at hfull
  have hfits : (packet.receive datagram).2 ≤ (packet.receive datagram).1.buffer.length := by
    simp [receive]
  refine ⟨⟨_, _, hfits⟩, dif_pos hfits, ?_, ?_⟩
  · simp only [Full, receive, List.length_append, List.length_take, List.length_drop, hfull]
    omega
  · unfold deref receive
    dsimp only
    rw [List.take_left, hfull]

namespace PacketPool

/-- At most `maxCachedBuffers` buffers, all of them of the size of a fresh one. -/
structure Sound (pool : PacketPool) : Prop where
  cached : pool.buffers.length ≤ maxCachedBuffers
  full : ∀ buffer ∈ pool.buffers, buffer.length = maxDatagramSize

/-- A buffer from the pool is of full size. -/
theorem Sound.acquire {pool : PacketPool} (h : pool.Sound) :
    pool.acquire.1.Full ∧ pool.acquire.2.Sound := by
  unfold PacketPool.acquire
  split
  · rename_i buffer buffers hbuffers
    have hcached := h.cached
    have hfull := h.full
    rw [hbuffers] at hcached hfull
    exact ⟨hfull buffer List.mem_cons_self, (Nat.le_succ _).trans hcached,
      fun b hb => hfull b (List.mem_cons_of_mem _ hb)⟩
  · exact ⟨List.length_replicate, h⟩

/-- A buffer of full size can be given back. -/
theorem Sound.release {pool : PacketPool} (h : pool.Sound) {packet : Packet}
    (hfull : packet.Full) : (pool.release packet).Sound := by
  unfold PacketPool.release
  split
  · rename_i hroom
    refine ⟨hroom, fun buffer hbuffer => ?_⟩
    rcases List.mem_cons.mp hbuffer with rfl | hbuffer
    · exact hfull
    · exact h.full buffer hbuffer
  · exact h

end PacketPool

/-! ## What a reader does -/

/-- What has arrived at the socket of a reader and is not in the channel. -/
def BackendReader.waiting (reader : BackendReader) : List Bytes :=
  reader.pc.received ++ reader.queue.map (·.take maxDatagramSize)

namespace ReceivePath

/-- The reader of connection `k` moves on from `reader` to `reader'`, sends `sent` over the
channel, and the datagrams `arrived` are queued at its socket. -/
structure Moves (k : ℕ) (reader reader' : BackendReader) (sent : List Packet)
    (arrived : List Bytes) (s s' : ReceivePath) : Prop where
  router : s'.router = s.router
  taken : s'.taken = s.taken
  readers : s'.readers = s.readers.insert k reader'
  channel : s'.channel = s.channel ++ sent.map (k, ·)
  permits : s'.free + reader'.pc.permits + sent.length = s.free + reader.pc.permits
  flow : sent.map Packet.deref ++ reader'.waiting =
    reader.waiting ++ arrived.map (·.take maxDatagramSize)
  pool : s'.pool.Sound
  full : ∀ packet ∈ sent ++ reader'.pc.packets, packet.Full
  noPanic : reader'.pc ≠ .panicked

variable {s : ReceivePath} {k : ℕ} {reader : BackendReader}

/-- A move that sends nothing over the channel. -/
theorem moves_silent {reader' : BackendReader} {pool : PacketPool} {free : ℕ}
    (hpermits : free + reader'.pc.permits = s.free + reader.pc.permits)
    (hflow : reader'.waiting = reader.waiting) (hpool : pool.Sound)
    (hfull : ∀ packet ∈ reader'.pc.packets, packet.Full) (hpanic : reader'.pc ≠ .panicked) :
    Moves k reader reader' [] [] s
      ({ s with pool := pool, free := free }.setReader k reader') where
  router := rfl
  taken := rfl
  readers := rfl
  channel := by simp [setReader]
  permits := hpermits
  flow := by simpa using hflow
  pool := hpool
  full := by simpa using hfull
  noPanic := hpanic

/-- A step of a reader does nothing, or moves it on. -/
theorem readerStep_moves (hpool : s.pool.Sound) (hfull : ∀ packet ∈ reader.pc.packets, packet.Full)
    (fail : Bool) :
    s.readerStep k reader fail = s ∨
      ∃ reader' sent, Moves k reader reader' sent [] s (s.readerStep k reader fail) := by
  obtain ⟨queue, pc⟩ := reader
  unfold readerStep
  cases pc with
  | readable =>
    dsimp only
    split
    · exact .inr ⟨_, [], moves_silent rfl rfl hpool nofun nofun⟩
    split
    · exact .inl rfl
    · exact .inr ⟨_, [], moves_silent rfl rfl hpool nofun nofun⟩
  | reserve =>
    dsimp only
    split
    · exact .inr ⟨_, [], moves_silent rfl rfl hpool nofun nofun⟩
    split
    · exact .inl rfl
    · rename_i hfree
      refine .inr ⟨_, [], moves_silent ?_ rfl hpool nofun nofun⟩
      simp only [ReaderPc.permits]
      omega
  | acquire =>
    obtain ⟨hacquired, hpool'⟩ := hpool.acquire
    exact .inr ⟨_, [], moves_silent rfl rfl hpool' (List.forall_mem_singleton.mpr hacquired) nofun⟩
  | tryRecv packet =>
    have hpacket : packet.Full := hfull packet (List.mem_singleton_self _)
    dsimp only
    split
    · exact .inr ⟨_, [], moves_silent rfl rfl hpool (List.forall_mem_singleton.mpr hpacket) nofun⟩
    cases queue with
    | nil =>
      exact .inr ⟨_, [], moves_silent rfl rfl hpool (List.forall_mem_singleton.mpr hpacket) nofun⟩
    | cons datagram queue =>
      obtain ⟨packet', hset, hfull', hderef⟩ := Packet.setLen_receive hpacket datagram
      dsimp only
      rw [hset]
      refine .inr ⟨_, [], moves_silent rfl ?_ hpool (List.forall_mem_singleton.mpr hfull') nofun⟩
      simp [BackendReader.waiting, ReaderPc.received, hderef]
  | send packet =>
    refine .inr ⟨_, [packet], rfl, rfl, rfl, rfl, rfl, ?_, hpool, ?_, nofun⟩
    · simp [BackendReader.waiting, ReaderPc.received]
    · simpa [ReaderPc.packets] using hfull packet (List.mem_singleton_self _)
  | dropPacket packet stop =>
    exact .inr ⟨_, [], moves_silent rfl rfl
      (hpool.release (hfull packet (List.mem_singleton_self _))) nofun nofun⟩
  | dropPermit stop =>
    cases stop with
    | false => exact .inr ⟨_, [], moves_silent rfl rfl hpool nofun nofun⟩
    | true => exact .inr ⟨_, [], moves_silent rfl rfl hpool nofun nofun⟩
  | stopped => exact .inl rfl
  | panicked => exact .inl rfl

/-! ## What a step does -/

/-- The datagrams that an event queues at the socket of connection `k`. -/
def arrivals (s : ReceivePath) (k : ℕ) : ReceiveEvent → List Bytes
  | .arrive j datagram => if j = k ∧ (s.readers.lookup j).isSome then [datagram] else []
  | _ => []

/-- The buffers have one size, the permits add up, no reader panicked, and every connection has
a reader. -/
structure Sound (s : ReceivePath) : Prop where
  indexed : s.router.paths.Indexed
  pool : s.pool.Sound
  channel : ∀ entry ∈ s.channel, entry.2.Full
  taken : ∀ entry, s.taken = some entry → entry.2.Full
  readers : ∀ k reader, s.readers.lookup k = some reader → ∀ packet ∈ reader.pc.packets, packet.Full
  noPanic : ∀ k reader, s.readers.lookup k = some reader → reader.pc ≠ .panicked
  below : ∀ k reader, s.readers.lookup k = some reader → k < s.router.nextConnectionId
  spawned : ∀ k c, s.router.connections.lookup k = some c →
    ∃ reader, s.readers.lookup k = some reader
  permits : s.free + s.readers.total (fun _ reader => reader.pc.permits) + s.channel.length =
    channelCapacity

/-- All that a step can do. -/
inductive Effect (cr : Crypto) (s : ReceivePath) : ReceiveEvent → ReceivePath → Prop
  | idle {e : ReceiveEvent} (hcall : s.call e = none) (harrivals : ∀ k, s.arrivals k e = []) :
    Effect cr s e s
  | move {e : ReceiveEvent} {s' : ReceivePath} {k : ℕ} {reader reader' : BackendReader}
    {sent : List Packet} {arrived : List Bytes} (hcall : s.call e = none)
    (hreader : s.readers.lookup k = some reader)
    (harrivals : ∀ j, s.arrivals j e = if j = k then arrived else [])
    (hmoves : Moves k reader reader' sent arrived s s') : Effect cr s e s'
  | recv {entry : ℕ × Packet} {channel : List (ℕ × Packet)} (htaken : s.taken = none)
    (hchannel : s.channel = entry :: channel) :
    Effect cr s .recv { s with taken := some entry, channel := channel, free := s.free + 1 }
  | handle {io : Io} {entry : ℕ × Packet} (htaken : s.taken = some entry) :
    Effect cr s (.handle io) { s.callStep cr (.backend io entry.1 entry.2.deref) with
      pool := s.pool.release entry.2
      taken := none }
  | call {e : ReceiveEvent} {call : Event} (hcall : s.call e = some call)
    (hbackend : ∀ io k packet, call ≠ .backend io k packet)
    (harrivals : ∀ k, s.arrivals k e = []) : Effect cr s e (s.callStep cr call)

/-- The steps that are a handler call of the main loop. -/
theorem callStep_effect {cr : Crypto} {e : ReceiveEvent} {s' : ReceivePath}
    (he : ∀ io, e ≠ .handle io) (harrivals : ∀ k, s.arrivals k e = [])
    (hs' : s' = (s.call e).elim s (s.callStep cr)) : Effect cr s e s' := by
  subst hs'
  cases hcall : s.call e with
  | none => exact .idle hcall harrivals
  | some call =>
    refine .call hcall (fun io k packet hbackend => ?_) harrivals
    subst hbackend
    cases e <;> simp_all [ReceivePath.call]

/-- What a step of the receive path does. -/
theorem step_effect (cr : Crypto) (hs : s.Sound) (e : ReceiveEvent) :
    Effect cr s e (s.step cr e) := by
  cases e with
  | arrive k datagram =>
    cases hreader : s.readers.lookup k with
    | none =>
      have hstep : s.step cr (.arrive k datagram) = s := by simp only [step, hreader]
      rw [hstep]
      exact .idle rfl fun j => by simp [arrivals, hreader]
    | some reader =>
      have hstep : s.step cr (.arrive k datagram) =
          s.setReader k { reader with queue := reader.queue ++ [datagram] } := by
        simp only [step, hreader]
      rw [hstep]
      have hmoves : Moves k reader { reader with queue := reader.queue ++ [datagram] } [] [datagram]
          s (s.setReader k { reader with queue := reader.queue ++ [datagram] }) :=
        ⟨rfl, rfl, rfl, by simp [setReader], rfl, by simp [BackendReader.waiting], hs.pool,
          hs.readers k reader hreader, hs.noPanic k reader hreader⟩
      exact .move rfl hreader (fun j => by simp [arrivals, hreader, eq_comm]) hmoves
  | reader k fail =>
    cases hreader : s.readers.lookup k with
    | none =>
      have hstep : s.step cr (.reader k fail) = s := by simp only [step, hreader]
      rw [hstep]
      exact .idle rfl fun j => rfl
    | some reader =>
      have hstep : s.step cr (.reader k fail) = s.readerStep k reader fail := by
        simp only [step, hreader]
      rw [hstep]
      rcases readerStep_moves hs.pool (hs.readers k reader hreader) fail with
        hidle | ⟨reader', sent, hmoves⟩
      · rw [hidle]
        exact .idle rfl fun j => rfl
      · exact .move rfl hreader (fun j => (ite_self _).symm) hmoves
  | wake k =>
    simp only [step]
    split
    · rename_i queue hreader
      exact .move rfl hreader (fun j => (ite_self _).symm)
        (moves_silent rfl rfl hs.pool nofun nofun)
    · exact .idle rfl fun j => rfl
  | abort k =>
    simp only [step]
    split
    · rename_i queue hconn hreader
      exact .move rfl hreader (fun j => (ite_self _).symm)
        (moves_silent rfl rfl hs.pool nofun nofun)
    · rename_i queue hconn hreader
      exact .move rfl hreader (fun j => (ite_self _).symm)
        (moves_silent rfl rfl hs.pool nofun nofun)
    · exact .idle rfl fun j => rfl
  | recv =>
    simp only [step]
    split
    · rename_i entry channel htaken hchannel
      exact .recv htaken hchannel
    · exact .idle rfl fun j => rfl
  | handle io =>
    cases htaken : s.taken with
    | none =>
      have hstep : s.step cr (.handle io) = s := by simp only [step, htaken]
      rw [hstep]
      exact .idle (by simp [ReceivePath.call, htaken]) fun j => rfl
    | some entry =>
      have hstep : s.step cr (.handle io) =
          { s.callStep cr (.backend io entry.1 entry.2.deref) with
            pool := s.pool.release entry.2
            taken := none } := by
        simp only [step, htaken]
      rw [hstep]
      exact .handle htaken
  | datagram io peer packet => exact callStep_effect nofun (fun j => rfl) rfl
  | cleanup now => exact callStep_effect nofun (fun j => rfl) rfl
  | setConfig config => exact callStep_effect nofun (fun j => rfl) rfl

end ReceivePath

end SniRouter
