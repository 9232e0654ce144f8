import SniRouter.Tcp.Ingress
import SniRouter.Tcp.Load

/-!
# The main loop of the TCP router

The loop waits for a client and for SIGHUP at once. A client is given to a task of its own,
together with the configuration of that moment; SIGHUP drops the `accept` future, whatever it is
waiting for, and loads the configuration file again. A run is any sequence of arrivals, polls and
signals, with any time between them. Three things are shown about all of them: nothing that
arrives is handled twice, and it is lost only if a call fails that had taken it
(`loses_no_arrival`), a client is handled with the configuration that was loaded last before it
was accepted (`client_config_lastLoaded`), and messages that are no clients do not delay the
clients behind them as long as there is room for their descriptors (`malformed_never_delay`).
-/

namespace SniRouter

namespace Tcp

/-! ## Arrivals -/

/-- What can arrive at a listener. -/
inductive Arrival where
  | tcp (stream : TcpStream)
  | uds (datagram : UdsDatagram)

def Arrival.client : Arrival → Option AcceptedConnection
  | .tcp stream => some ⟨stream, []⟩
  | .uds datagram => datagram.client

/-- A message that is too long, or has not exactly one descriptor. -/
def Arrival.Malformed : Arrival → Prop
  | .tcp _ => False
  | .uds datagram => datagram.Malformed

/-- A malformed message brings no client. -/
theorem Arrival.Malformed.client {arrival : Arrival} (h : arrival.Malformed) :
    arrival.client = none := by
  cases arrival with
  | tcp stream => exact h.elim
  | uds datagram =>
    cases hclient : datagram.client with
    | none => exact hclient
    | some c =>
      obtain ⟨fd, hfds, -, hfits, -⟩ := UdsDatagram.client_eq_some hclient
      rcases h with hlong | hmany
      · omega
      · simp [hfds] at hmany

/-! ## What becomes of an arrival -/

namespace Syscalls

variable (sys : Syscalls)

/-- The connection can be registered, or there is room for every descriptor of the message. -/
def delivers : Arrival → Bool
  | .tcp stream => (sys.established stream).toBool
  | .uds datagram => !(sys.recvmsg udsDgramBufCapacity udsCmsgFdCapacity datagram).ctrunc

/-- The client that is accepted when `arrival` is taken off the listener. -/
def client (arrival : Arrival) : Option AcceptedConnection :=
  if sys.delivers arrival then arrival.client else none

/-- The sockets that are closed then. -/
def closed : Arrival → List TcpStream
  | .tcp stream => if sys.delivers (.tcp stream) then [] else [stream]
  | .uds datagram =>
    if sys.delivers (.uds datagram) && datagram.client.isNone then
      datagram.fds.map PassedFd.stream
    else []

/-- The sockets that stay open then, although nothing refers to them. -/
def leaked : Arrival → List TcpStream
  | .tcp _ => []
  | .uds datagram =>
    if sys.delivers (.uds datagram) then []
    else
      (sys.recvmsg udsDgramBufCapacity udsCmsgFdCapacity datagram).installed.map PassedFd.stream

/-- No call fails while `arrivals` are taken. -/
structure Succeed (arrivals : List Arrival) : Prop where
  documented : sys.Documented
  fault : sys.fault = none
  delivers : ∀ a ∈ arrivals, sys.delivers a = true

variable {sys}

/-- A connection is delivered if its registration succeeds. -/
theorem delivers_tcp {stream : TcpStream} {registered : Except ErrorKind Unit}
    (h : sys.established stream = registered) :
    sys.delivers (.tcp stream) = registered.toBool := by
  rw [delivers, h]

/-- A message is delivered if none of its descriptors was dropped. -/
theorem delivers_uds {datagram : UdsDatagram} {ctrunc : Bool}
    (h : (sys.recvmsg udsDgramBufCapacity udsCmsgFdCapacity datagram).ctrunc = ctrunc) :
    sys.delivers (.uds datagram) = !ctrunc := by
  rw [delivers, h]

theorem client_of_delivers {arrival : Arrival} (h : sys.delivers arrival = true) :
    sys.client arrival = arrival.client := if_pos h

theorem leaked_of_delivers {arrival : Arrival} (h : sys.delivers arrival = true) :
    sys.leaked arrival = [] := by
  cases arrival with
  | tcp stream => rfl
  | uds datagram => exact if_pos h

end Syscalls

namespace IngressListener

def waiting : IngressListener → List Arrival
  | .tcp backlog => backlog.map .tcp
  | .unixDatagram queue => queue.map .uds

/-- A TCP client cannot arrive at a unix socket, nor a message at a TCP listener. -/
def takes : IngressListener → Arrival → Bool
  | .tcp _, .tcp _ | .unixDatagram _, .uds _ => true
  | .tcp _, .uds _ | .unixDatagram _, .tcp _ => false

def push : IngressListener → Arrival → IngressListener
  | .tcp backlog, .tcp stream => .tcp (backlog ++ [stream])
  | .unixDatagram queue, .uds datagram => .unixDatagram (queue ++ [datagram])
  | .tcp backlog, .uds _ => .tcp backlog
  | .unixDatagram queue, .tcp _ => .unixDatagram queue

end IngressListener

/-! ## The loop -/

/-- A task that handles a client. -/
structure Spawned where
  id : ℕ
  config : LoadedConfig
  conn : AcceptedConnection

structure MainLoop where
  config : LoadedConfig
  id : ℕ
  accept : AcceptState
  listener : IngressListener
  spawned : List Spawned
  /-- The sockets that were closed again without a task. -/
  closed : List TcpStream
  /-- The sockets that stay open without a task. -/
  leaked : List TcpStream

namespace MainLoop

def start (config : LoadedConfig) (listener : IngressListener) (now : Instant) : MainLoop :=
  ⟨config, 0, .new now, listener, [], [], []⟩

inductive Event where
  | arrive (arrival : Arrival)
  /-- The `accept` future is made if there is none, or polled. -/
  | poll (sys : Syscalls)
  /-- SIGHUP, and what is in the configuration file. -/
  | hup (env : LoadEnv) (file : Except String Protos.SniConfig)

/-- What `load_config` makes of a file. -/
def reload (env : LoadEnv) (file : Except String Protos.SniConfig) : Except String LoadedConfig :=
  file.bind (loadConfig env)

/-- The attempt to accept has finished. -/
def accepted (loop : MainLoop) (accepting : Accepting) : MainLoop :=
  let loop :=
    { loop with
      listener := accepting.listener
      closed := loop.closed ++ accepting.closed
      leaked := loop.leaked ++ accepting.leaked }
  match accepting.result with
  | .error e => { loop with accept := acceptAction loop.accept (.finish (some e)) }
  | .ok conn =>
    { loop with
      id := loop.id + 1
      accept := acceptAction loop.accept (.finish none)
      spawned := loop.spawned ++ [⟨loop.id, loop.config, conn⟩] }

def poll (loop : MainLoop) (sys : Syscalls) : MainLoop :=
  match loop.accept.future with
  | none => { loop with accept := acceptAction loop.accept .call }
  | some (.sleeping _) => { loop with accept := acceptAction loop.accept .poll }
  | some .accepting =>
    match loop.listener.accept sys with
    | none => loop
    | some accepting => loop.accepted accepting

def hup (loop : MainLoop) (env : LoadEnv) (file : Except String Protos.SniConfig) : MainLoop :=
  let loop := { loop with accept := acceptAction loop.accept .cancel }
  match reload env file with
  | .ok config => { loop with config := config }
  -- staying with old config
  | .error _ => loop

def act (loop : MainLoop) : Event → MainLoop
  | .arrive arrival => { loop with listener := loop.listener.push arrival }
  | .poll sys => loop.poll sys
  | .hup env file => loop.hup env file

def elapse (loop : MainLoop) (elapsed : Duration) : MainLoop :=
  { loop with accept := { loop.accept with now := loop.accept.now + elapsed } }

/-- An event, after the time `e.1` since the last one. -/
def step (loop : MainLoop) (e : Duration × Event) : MainLoop := (loop.elapse e.1).act e.2

/-! ## One attempt -/

section Attempt

variable {listener : IngressListener} {sys : Syscalls}

theorem accept_of_waiting_nil (hfault : sys.fault = none) (h : listener.waiting = []) :
    listener.accept sys = none := by
  cases listener with
  | tcp backlog =>
    obtain rfl := List.map_eq_nil_iff.mp h
    simp only [IngressListener.accept, hfault]
  | unixDatagram queue =>
    obtain rfl := List.map_eq_nil_iff.mp h
    simp only [IngressListener.accept, hfault]

/-- A connection is accepted, or closed. -/
theorem accept_tcp (hfault : sys.fault = none) (stream : TcpStream) (backlog : List TcpStream) :
    ∃ result, (IngressListener.tcp (stream :: backlog)).accept sys =
        some ⟨result, sys.closed (.tcp stream), sys.leaked (.tcp stream), .tcp backlog⟩ ∧
      ((∃ c, sys.client (.tcp stream) = some c ∧ result = .ok c) ∨
        ∃ e, sys.client (.tcp stream) = none ∧ result = .error e) := by
  cases hestablished : sys.established stream with
  | error kind =>
    have hlost : sys.delivers (.tcp stream) = false := Syscalls.delivers_tcp hestablished
    refine ⟨.error (.io kind), ?_, Or.inr ⟨_, ?_, rfl⟩⟩
    · simp [IngressListener.accept, hfault, hestablished, Syscalls.closed, Syscalls.leaked, hlost]
    · simp [Syscalls.client, hlost]
  | ok registered =>
    have hdelivers : sys.delivers (.tcp stream) = true := Syscalls.delivers_tcp hestablished
    refine ⟨.ok ⟨stream, []⟩, ?_, Or.inl ⟨_, ?_, rfl⟩⟩
    · simp [IngressListener.accept, hfault, hestablished, Syscalls.closed, Syscalls.leaked,
        hdelivers]
    · exact Syscalls.client_of_delivers hdelivers

/-- A message is accepted, or what was received of it is closed; if some of it was not received,
then the rest is leaked. -/
theorem accept_unixDatagram (hsys : sys.Documented) (hfault : sys.fault = none)
    (datagram : UdsDatagram) (queue : List UdsDatagram) :
    ∃ result, (IngressListener.unixDatagram (datagram :: queue)).accept sys =
        some ⟨result, sys.closed (.uds datagram), sys.leaked (.uds datagram),
          .unixDatagram queue⟩ ∧
      ((∃ c, sys.client (.uds datagram) = some c ∧ result = .ok c) ∨
        ∃ e, sys.client (.uds datagram) = none ∧ result = .error e ∧
          (sys.delivers (.uds datagram) = true → datagram.Malformed →
            e.retryImmediately = true)) := by
  have hmsg := hsys udsDgramBufCapacity udsCmsgFdCapacity datagram
  cases hctrunc : (sys.recvmsg udsDgramBufCapacity udsCmsgFdCapacity datagram).ctrunc with
  | true =>
    have hlost : sys.delivers (.uds datagram) = false := Syscalls.delivers_uds hctrunc
    refine ⟨.error (.io .other), ?_, Or.inr ⟨_, ?_, rfl, fun hdelivers => ?_⟩⟩
    · simp [IngressListener.accept, hfault, recvFdOverUdsNow_cut hmsg hctrunc, Syscalls.closed,
        Syscalls.leaked, hlost, IoError.kind]
    · simp [Syscalls.client, hlost]
    · exact absurd hdelivers (hlost ▸ Bool.false_ne_true)
  | false =>
    have hdelivers : sys.delivers (.uds datagram) = true := Syscalls.delivers_uds hctrunc
    cases hclient : datagram.client with
    | some c =>
      refine ⟨.ok c, ?_, Or.inl ⟨c, ?_, rfl⟩⟩
      · simp [IngressListener.accept, hfault, recvFdOverUdsNow_client hmsg hctrunc hclient,
          Syscalls.closed, Syscalls.leaked, hdelivers, hclient]
      · exact (Syscalls.client_of_delivers hdelivers).trans hclient
    | none =>
      obtain ⟨e, hrefused, hkind⟩ := recvFdOverUdsNow_refused hmsg hctrunc hclient
      refine ⟨.error (.io e.kind), ?_, Or.inr ⟨_, ?_, rfl, fun _ hmalformed => ?_⟩⟩
      · simp [IngressListener.accept, hfault, hrefused, Syscalls.closed, Syscalls.leaked, hdelivers,
          hclient]
      · exact (Syscalls.client_of_delivers hdelivers).trans hclient
      · simp only [hkind hmalformed, AcceptError.retryImmediately]

/-- An attempt takes what waits first. -/
theorem accept_of_waiting_cons {arrival : Arrival} {rest : List Arrival} (hsys : sys.Documented)
    (hfault : sys.fault = none) (h : listener.waiting = arrival :: rest) :
    ∃ accepting, listener.accept sys = some accepting ∧ accepting.listener.waiting = rest ∧
      (∀ a, accepting.listener.takes a = listener.takes a) ∧
      accepting.closed = sys.closed arrival ∧ accepting.leaked = sys.leaked arrival ∧
      ((∃ c, sys.client arrival = some c ∧ accepting.result = .ok c) ∨
        ∃ e, sys.client arrival = none ∧ accepting.result = .error e ∧
          (sys.delivers arrival = true → arrival.Malformed → e.retryImmediately = true)) := by
  cases listener with
  | tcp backlog =>
    obtain ⟨stream, backlog, rfl, rfl, rfl⟩ := List.map_eq_cons_iff.mp h
    obtain ⟨result, haccept, hok | ⟨e, hnone, herror⟩⟩ := accept_tcp hfault stream backlog
    · exact ⟨_, haccept, rfl, fun a => by cases a <;> rfl, rfl, rfl, Or.inl hok⟩
    · exact ⟨_, haccept, rfl, fun a => by cases a <;> rfl, rfl, rfl,
        Or.inr ⟨e, hnone, herror, fun _ => False.elim⟩⟩
  | unixDatagram queue =>
    obtain ⟨datagram, queue, rfl, rfl, rfl⟩ := List.map_eq_cons_iff.mp h
    obtain ⟨result, haccept, hresult⟩ := accept_unixDatagram hsys hfault datagram queue
    exact ⟨_, haccept, rfl, fun a => by cases a <;> rfl, rfl, rfl, hresult⟩

/-- A system call that fails before anything is received takes no arrival. -/
theorem accept_fault {kind : ErrorKind} (hfault : sys.fault = some kind) :
    listener.accept sys = some ⟨.error (.io kind), [], [], listener⟩ := by
  cases listener <;> simp only [IngressListener.accept, hfault]

end Attempt

/-! ## Everything that arrives is taken once -/

/-- What an event adds to what waits. -/
def Event.arrivals (listener : IngressListener) : Event → List Arrival
  | .arrive arrival => if listener.takes arrival then [arrival] else []
  | .poll _ | .hup _ _ => []

/-- What the system answers to an event. -/
def Event.syscalls : Event → List Syscalls
  | .poll sys => [sys]
  | .arrive _ | .hup _ _ => []

/-- From `loop` to `loop'` the arrivals `taken` are taken from the listener, after `arrived` were
added, each of them by an attempt with answers of its own: clients are given to tasks, and what
is no client, or not received, is closed or leaked. -/
structure Takes (loop : MainLoop) (arrived : List Arrival) (answers : List Syscalls)
    (taken : List (Syscalls × Arrival)) (loop' : MainLoop) : Prop where
  listener : ∀ a, loop'.listener.takes a = loop.listener.takes a
  waiting : loop.listener.waiting ++ arrived = taken.map Prod.snd ++ loop'.listener.waiting
  answers : (taken.map Prod.fst).Sublist answers
  closed : loop'.closed = loop.closed ++ taken.flatMap fun t => t.1.closed t.2
  leaked : loop'.leaked = loop.leaked ++ taken.flatMap fun t => t.1.leaked t.2
  spawned : ∃ tasks, loop'.spawned = loop.spawned ++ tasks ∧
    tasks.map Spawned.conn = taken.filterMap (fun t => t.1.client t.2) ∧
    tasks.map Spawned.id = List.range' loop.id tasks.length ∧
    loop'.id = loop.id + tasks.length

section Takes

variable {loop loop' loop'' : MainLoop}

/-- Nothing is taken. -/
theorem takes_of_eq {arrived : List Arrival} {answers : List Syscalls}
    (hwaiting : loop'.listener.waiting = loop.listener.waiting ++ arrived)
    (htakes : ∀ a, loop'.listener.takes a = loop.listener.takes a)
    (hclosed : loop'.closed = loop.closed) (hleaked : loop'.leaked = loop.leaked)
    (hspawned : loop'.spawned = loop.spawned) (hid : loop'.id = loop.id) :
    loop.Takes arrived answers [] loop' :=
  ⟨htakes, by simp [hwaiting], List.nil_sublist _, by simp [hclosed], by simp [hleaked], [],
    by simp [hspawned], rfl, rfl, hid⟩

theorem Takes.trans {arrived arrived' : List Arrival} {answers answers' : List Syscalls}
    {taken taken' : List (Syscalls × Arrival)} (h : loop.Takes arrived answers taken loop')
    (h' : loop'.Takes arrived' answers' taken' loop'') :
    loop.Takes (arrived ++ arrived') (answers ++ answers') (taken ++ taken') loop'' := by
  obtain ⟨tasks, hspawned, hconn, hids, hid⟩ := h.spawned
  obtain ⟨tasks', hspawned', hconn', hids', hid'⟩ := h'.spawned
  refine ⟨fun a => (h'.listener a).trans (h.listener a), ?_, ?_, ?_, ?_, tasks ++ tasks', ?_, ?_, ?_,
    ?_⟩
  · rw [← List.append_assoc, h.waiting, List.append_assoc, h'.waiting, List.map_append,
      List.append_assoc]
  · rw [List.map_append]
    exact h.answers.append h'.answers
  · rw [h'.closed, h.closed, List.append_assoc, List.flatMap_append]
  · rw [h'.leaked, h.leaked, List.append_assoc, List.flatMap_append]
  · rw [hspawned', hspawned, List.append_assoc]
  · rw [List.map_append, hconn, hconn', List.filterMap_append]
  · rw [List.map_append, hids, hids', hid, List.length_append, List.range'_append_1]
  · rw [hid', hid, List.length_append, Nat.add_assoc]

theorem push_waiting (listener : IngressListener) (arrival : Arrival) :
    (listener.push arrival).waiting =
      listener.waiting ++ (Event.arrive arrival).arrivals listener := by
  cases listener <;> cases arrival <;>
    simp [IngressListener.push, IngressListener.waiting, Event.arrivals, IngressListener.takes]

theorem push_takes (listener : IngressListener) (arrival a : Arrival) :
    (listener.push arrival).takes a = listener.takes a := by
  cases listener <;> cases arrival <;> cases a <;> rfl

/-- A poll takes at most one arrival. -/
theorem poll_takes (loop : MainLoop) {sys : Syscalls} (hsys : sys.Documented) :
    ∃ taken, loop.Takes [] [sys] taken (loop.poll sys) := by
  have hnothing : ∀ accept : AcceptState, loop.Takes [] [sys] [] { loop with accept := accept } :=
    fun accept => takes_of_eq (by simp) (fun _ => rfl) rfl rfl rfl rfl
  unfold poll
  split
  · exact ⟨[], hnothing _⟩
  · exact ⟨[], hnothing _⟩
  · cases hfault : sys.fault with
    | some kind =>
      rw [accept_fault hfault]
      refine ⟨[], takes_of_eq ?_ (fun _ => rfl) ?_ ?_ rfl rfl⟩ <;> simp [accepted]
    | none =>
      cases hwaiting : loop.listener.waiting with
      | nil =>
        rw [accept_of_waiting_nil hfault hwaiting]
        exact ⟨[], hnothing _⟩
      | cons arrival rest =>
        obtain ⟨accepting, haccept, hrest, htakes, hclosed, hleaked, hresult⟩ :=
          accept_of_waiting_cons hsys hfault hwaiting
        rw [haccept]
        refine ⟨[(sys, arrival)], ?_⟩
        dsimp only
        rcases hresult with ⟨c, hclient, hok⟩ | ⟨e, hclient, herror, -⟩
        · refine ⟨?_, ?_, ?_, ?_, ?_, [⟨loop.id, loop.config, c⟩], ?_, ?_, ?_, ?_⟩ <;>
            simp [accepted, hok, htakes, hrest, hclosed, hleaked, hclient, hwaiting]
        · refine ⟨?_, ?_, ?_, ?_, ?_, [], ?_, ?_, ?_, ?_⟩ <;>
            simp [accepted, herror, htakes, hrest, hclosed, hleaked, hclient, hwaiting]

/-- One step takes arrivals from the front of the listener only. -/
theorem step_takes (loop : MainLoop) (e : Duration × Event)
    (hsys : ∀ sys ∈ e.2.syscalls, sys.Documented) :
    ∃ taken, loop.Takes (e.2.arrivals loop.listener) e.2.syscalls taken (loop.step e) := by
  obtain ⟨elapsed, event⟩ := e
  cases event with
  | arrive arrival =>
    exact ⟨[], takes_of_eq (push_waiting ..) (push_takes _ _) rfl rfl rfl rfl⟩
  | poll sys =>
    obtain ⟨taken, h⟩ := poll_takes (loop.elapse elapsed) (hsys sys List.mem_cons_self)
    exact ⟨taken, h.listener, h.waiting, h.answers, h.closed, h.leaked, h.spawned⟩
  | hup env file =>
    refine ⟨[], ?_⟩
    simp only [step, act, hup]
    split
    · exact takes_of_eq (List.append_nil _).symm (fun _ => rfl) rfl rfl rfl rfl
    · exact takes_of_eq (List.append_nil _).symm (fun _ => rfl) rfl rfl rfl rfl

/-- Which arrivals count depends on the kind of the listener only. -/
theorem arrivals_congr {listener listener' : IngressListener}
    (h : ∀ a, listener'.takes a = listener.takes a) (event : Event) :
    event.arrivals listener' = event.arrivals listener := by
  cases event <;> simp [Event.arrivals, h]

/-- A run, by induction on its last event. -/
theorem run_takes (loop : MainLoop) (es : List (Duration × Event))
    (hsys : ∀ e ∈ es, ∀ sys ∈ e.2.syscalls, sys.Documented) :
    ∃ taken, loop.Takes (es.flatMap fun e => e.2.arrivals loop.listener)
      (es.flatMap fun e => e.2.syscalls) taken (runFrom step loop es) := by
  induction es using List.reverseRecOn with
  | nil => exact ⟨[], takes_of_eq (by simp) (fun _ => rfl) rfl rfl rfl rfl⟩
  | append_singleton es e ih =>
    obtain ⟨taken, h⟩ := ih fun e he => hsys e (List.mem_append_left _ he)
    obtain ⟨taken', h'⟩ := step_takes (runFrom step loop es) e
      (hsys e (List.mem_append_right _ List.mem_cons_self))
    rw [arrivals_congr h.listener] at h'
    rw [runFrom_concat, List.flatMap_append, List.flatMap_append, List.flatMap_singleton,
      List.flatMap_singleton]
    exact ⟨taken ++ taken', h.trans h'⟩

end Takes

/-- **What becomes of what arrives.** However often SIGHUP drops the `accept` future and whichever
system calls fail, what has arrived is what was taken from the listener, in order, each by an
attempt of its own, and what still waits there. The tasks handle exactly the clients among what
was taken, each once and numbered in order, except for those whose attempt failed after it had
taken them. What is no client is closed; what an attempt does not receive completely is lost, and
the descriptors it did receive are leaked. If no attempt fails in this way, then no client is
lost and nothing leaks. -/
theorem loses_no_arrival (config : LoadedConfig) (listener : IngressListener) (now : Instant)
    (es : List (Duration × Event)) (hsys : ∀ e ∈ es, ∀ sys ∈ e.2.syscalls, sys.Documented) :
    let loop := runFrom step (start config listener now) es
    ∃ taken : List (Syscalls × Arrival),
      listener.waiting ++ es.flatMap (fun e => e.2.arrivals listener) =
        taken.map Prod.snd ++ loop.listener.waiting ∧
      (taken.map Prod.fst).Sublist (es.flatMap fun e => e.2.syscalls) ∧
      loop.spawned.map Spawned.conn = taken.filterMap (fun t => t.1.client t.2) ∧
      loop.spawned.map Spawned.id = List.range loop.spawned.length ∧
      loop.closed = taken.flatMap (fun t => t.1.closed t.2) ∧
      loop.leaked = taken.flatMap (fun t => t.1.leaked t.2) ∧
      ((∀ e ∈ es, ∀ sys ∈ e.2.syscalls, ∀ arrival, sys.delivers arrival = true) →
        loop.spawned.map Spawned.conn = (taken.map Prod.snd).filterMap Arrival.client ∧
          loop.leaked = []) := by
  intro loop
  obtain ⟨taken, h⟩ := run_takes (start config listener now) es hsys
  obtain ⟨tasks, hspawned, hconn, hids, -⟩ := h.spawned
  have htasks : loop.spawned = tasks := hspawned
  have hconns : loop.spawned.map Spawned.conn = taken.filterMap (fun t => t.1.client t.2) := by
    rw [htasks, hconn]
  refine ⟨taken, h.waiting, h.answers, hconns, ?_, h.closed, h.leaked, fun hdelivers => ?_⟩
  · rw [htasks, hids, List.range_eq_range']
    rfl
  · have hall : ∀ t ∈ taken, t.1.delivers t.2 = true := by
      intro t ht
      obtain ⟨e, he, hanswer⟩ := List.mem_flatMap.mp (h.answers.subset (List.mem_map_of_mem ht))
      exact hdelivers e he t.1 hanswer t.2
    refine ⟨?_, h.leaked.trans (List.flatMap_eq_nil_iff.mpr fun t ht => ?_)⟩
    · rw [hconns, List.filterMap_map]
      exact List.filterMap_congr fun t ht => Syscalls.client_of_delivers (hall t ht)
    · exact Syscalls.leaked_of_delivers (hall t ht)

/-- There is room for one descriptor. A message with two arrives, and a client behind it; a second
passes between the first two attempts. -/
def cutRun : List (Duration × Event) :=
  [(0, .arrive (.uds ⟨[1], [sampleFd, sampleFd]⟩)), (0, .arrive (.uds ⟨[1], [sampleFd]⟩)),
    (0, .poll (sampleSyscalls 1)), (0, .poll (sampleSyscalls 1)),
    (fromMillis 1000, .poll (sampleSyscalls 1)), (0, .poll (sampleSyscalls 1))]

theorem cutRun_documented :
    ∀ e ∈ cutRun, ∀ sys ∈ e.2.syscalls, sys.Documented := by
  intro e he sys hsys
  have hsample : sys = sampleSyscalls 1 := by
    simp only [cutRun, List.mem_cons, List.not_mem_nil, or_false] at he
    rcases he with rfl | rfl | rfl | rfl | rfl | rfl
    · cases hsys
    · cases hsys
    · exact List.mem_singleton.mp hsys
    · exact List.mem_singleton.mp hsys
    · exact List.mem_singleton.mp hsys
    · exact List.mem_singleton.mp hsys
  exact hsample ▸ sampleSyscalls_documented 1

/-- The message with two descriptors is lost, and one of them stays open; the client is accepted. -/
theorem loses_no_arrival_cut :
    let loop := runFrom step (start ⟨samplePassConfig, none⟩ (.unixDatagram []) 0) cutRun
    loop.spawned.map Spawned.conn = [⟨sampleStream [6], [1]⟩] ∧
      loop.leaked = [sampleStream [6]] ∧
      ∃ taken : List (Syscalls × Arrival),
        [.uds ⟨[1], [sampleFd, sampleFd]⟩, .uds ⟨[1], [sampleFd]⟩] =
          taken.map Prod.snd ++ loop.listener.waiting ∧
        loop.spawned.map Spawned.conn = taken.filterMap (fun t => t.1.client t.2) := by
  obtain ⟨taken, hwaiting, -, hconn, -⟩ := loses_no_arrival ⟨samplePassConfig, none⟩
    (.unixDatagram []) 0 cutRun cutRun_documented
  exact ⟨rfl, rfl, taken, hwaiting, hconn⟩

/-! ## The configuration of a client -/

/-- The configuration after an event. -/
def configAfter (config : LoadedConfig) (e : Duration × Event) : LoadedConfig :=
  match e.2 with
  | .hup env file => (reload env file).toOption.getD config
  | .arrive _ | .poll _ => config

/-- The configuration that was loaded last. -/
def lastLoaded (config : LoadedConfig) (es : List (Duration × Event)) : LoadedConfig :=
  es.foldl configAfter config

section Config

variable {config : LoadedConfig}

/-- A task is started with the configuration of that moment. -/
theorem accepted_config (loop : MainLoop) (accepting : Accepting) :
    (loop.accepted accepting).config = loop.config ∧
      ∃ tasks, (loop.accepted accepting).spawned = loop.spawned ++ tasks ∧
        ∀ task ∈ tasks, task.config = loop.config := by
  unfold accepted
  dsimp only
  split
  · exact ⟨rfl, [], (List.append_nil _).symm, List.forall_mem_nil _⟩
  · refine ⟨rfl, _, rfl, fun task htask => ?_⟩
    cases List.mem_singleton.mp htask
    rfl

/-- An event changes the configuration only by loading another, and no task but the ones it
makes. -/
theorem step_config (loop : MainLoop) (e : Duration × Event) :
    (loop.step e).config = configAfter loop.config e ∧
      ∃ tasks, (loop.step e).spawned = loop.spawned ++ tasks ∧
        ∀ task ∈ tasks, task.config = loop.config := by
  have hnone : ∃ tasks, loop.spawned = loop.spawned ++ tasks ∧
      ∀ task ∈ tasks, task.config = loop.config :=
    ⟨[], (List.append_nil _).symm, List.forall_mem_nil _⟩
  obtain ⟨elapsed, event⟩ := e
  cases event with
  | arrive arrival => exact ⟨rfl, hnone⟩
  | poll sys =>
    simp only [step, act, poll, configAfter]
    split
    · exact ⟨rfl, hnone⟩
    · exact ⟨rfl, hnone⟩
    · split
      · exact ⟨rfl, hnone⟩
      · exact accepted_config _ _
  | hup env file =>
    simp only [step, act, hup, configAfter]
    cases reload env file with
    | error e => exact ⟨rfl, hnone⟩
    | ok config => exact ⟨rfl, hnone⟩

/-- The configuration of the loop is the last one that was loaded. -/
theorem run_lastLoaded (loop : MainLoop) (es : List (Duration × Event)) :
    (runFrom step loop es).config = lastLoaded loop.config es := by
  induction es generalizing loop with
  | nil => rfl
  | cons e es ih =>
    rw [runFrom_cons, ih, (step_config loop e).1]
    rfl

/-- Tasks are only added. -/
theorem run_spawned_prefix (loop : MainLoop) (es : List (Duration × Event)) :
    loop.spawned <+: (runFrom step loop es).spawned := by
  induction es generalizing loop with
  | nil => exact List.prefix_refl _
  | cons e es ih =>
    obtain ⟨tasks, htasks, -⟩ := (step_config loop e).2
    exact (htasks ▸ List.prefix_append ..).trans (ih (loop.step e))

/-- The configuration was accepted by `load_config`. -/
def Loaded (config : LoadedConfig) : Prop := ∃ env pb, loadConfig env pb = .ok config

/-- The last configuration that was loaded is one that `load_config` accepted. -/
theorem lastLoaded_loaded (h : Loaded config) (es : List (Duration × Event)) :
    Loaded (lastLoaded config es) := by
  refine runFrom_invariant (A := fun _ => True) (fun config e _ h => ?_) es config
    (fun _ _ => trivial) h
  unfold configAfter
  split
  · rename_i env file _
    cases hreload : reload env file with
    | error e => exact h
    | ok config' =>
      cases file with
      | error e => cases hreload
      | ok pb => exact ⟨env, pb, hreload⟩
  · exact h
  · exact h

/-- **The configuration of a client** is the one that was loaded last before the client was
accepted. A file that cannot be loaded changes nothing, and a client keeps its configuration when
another one is loaded. If the router was started with a configuration that `load_config` had
accepted, then no client is ever tried at more than two backends. -/
theorem client_config_lastLoaded (config : LoadedConfig) (listener : IngressListener)
    (now : Instant) (es : List (Duration × Event)) :
    (runFrom step (start config listener now) es).config = lastLoaded config es ∧
    (∀ pre e post, es = pre ++ e :: post →
      ∃ tasks, (runFrom step (start config listener now) (pre ++ [e])).spawned =
          (runFrom step (start config listener now) pre).spawned ++ tasks ∧
        (∀ task ∈ tasks, task.config = lastLoaded config pre) ∧
        (runFrom step (start config listener now) (pre ++ [e])).spawned <+:
          (runFrom step (start config listener now) es).spawned) ∧
    (Loaded config → ∀ task ∈ (runFrom step (start config listener now) es).spawned,
      Loaded task.config ∧ ∀ (σ : Type) (tcp : Env σ),
        (handleConn tcp task.config.toConfig task.conn.stream
          task.conn.initialBytes).attempts.length ≤ 2) := by
  have hstep : ∀ pre e, ∃ tasks,
      (runFrom step (start config listener now) (pre ++ [e])).spawned =
          (runFrom step (start config listener now) pre).spawned ++ tasks ∧
        ∀ task ∈ tasks, task.config = lastLoaded config pre := by
    intro pre e
    rw [runFrom_concat]
    obtain ⟨tasks, htasks, hconfig⟩ := (step_config (runFrom step (start config listener now) pre)
      e).2
    rw [run_lastLoaded] at hconfig
    exact ⟨tasks, htasks, hconfig⟩
  refine ⟨run_lastLoaded _ es, fun pre e post hes => ?_, fun hload => ?_⟩
  · obtain ⟨tasks, htasks, hconfig⟩ := hstep pre e
    refine ⟨tasks, htasks, hconfig, ?_⟩
    rw [hes, List.append_cons pre e post, runFrom_append _ _ (pre ++ [e])]
    exact run_spawned_prefix _ post
  · have hloaded : ∀ task ∈ (runFrom step (start config listener now) es).spawned,
        Loaded task.config := by
      induction es using List.reverseRecOn with
      | nil => exact List.forall_mem_nil _
      | append_singleton es e ih =>
        obtain ⟨tasks, htasks, hconfig⟩ := hstep es e
        intro task htask
        rw [htasks] at htask
        rcases List.mem_append.mp htask with htask | htask
        · exact ih task htask
        · exact hconfig task htask ▸ lastLoaded_loaded hload es
    intro task htask
    refine ⟨hloaded task htask, fun σ tcp => ?_⟩
    obtain ⟨env, pb, hconfig⟩ := hloaded task htask
    exact ((loadConfig_eq_ok.mp hconfig).attempts tcp _ _).1

end Config

/-- Two clients, and between them SIGHUP with a file that cannot be read. -/
theorem client_config_two :
    let sys := sampleSyscalls 2
    let es := [(0, .poll sys), (0, .poll sys), (0, .hup fileEnv (.error "No such file")),
      (0, .poll sys), (0, .poll sys)]
    let listener := IngressListener.tcp [sampleStream [1], sampleStream [2]]
    ∃ config, loadConfig fileEnv sorryMessage = .ok config ∧
      (runFrom step (start config listener 0) es).spawned.length = 2 ∧
      ∀ task ∈ (runFrom step (start config listener 0) es).spawned,
        Loaded task.config ∧ ∀ (σ : Type) (tcp : Env σ),
          (handleConn tcp task.config.toConfig task.conn.stream
            task.conn.initialBytes).attempts.length ≤ 2 :=
  ⟨_, rfl, rfl, (client_config_lastLoaded _ _ _ _).2.2 ⟨fileEnv, sorryMessage, rfl⟩⟩

/-! ## Clients behind messages that are none -/

/-- The next attempt is at most a second away. -/
structure Prompt (s : AcceptState) : Prop where
  retryAt : ∀ t, s.backoff.retryAt = some t → t ≤ s.now + fromMillis 1000
  delay : s.backoff.delay ≤ fromMillis 1000

theorem Prompt.elapse {s : AcceptState} (h : Prompt s) (elapsed : Duration) :
    Prompt { s with now := s.now + elapsed } :=
  ⟨fun t ht => (h.retryAt t ht).trans (Nat.add_le_add_right (Nat.le_add_right ..) _), h.delay⟩

theorem prompt_new (now : Instant) : Prompt (.new now) := ⟨nofun, Nat.zero_le _⟩

/-- A failure waits for a second at most. -/
theorem failed_prompt (b : AcceptBackoff) (now : Instant) (e : AcceptError)
    (hdelay : b.delay ≤ fromMillis 1000) :
    (b.failed now e).1.delay ≤ fromMillis 1000 ∧
      ∃ t, (b.failed now e).1.retryAt = some t ∧ t ≤ now + fromMillis 1000 := by
  have hclamp : clamp (b.delay * 2) (fromMillis 100) (fromMillis 1000) ≤ fromMillis 1000 := by
    rw [clamp_eq (by decide)]
    exact max_le (by decide) (min_le_right _ _)
  unfold AcceptBackoff.failed
  cases e.retryImmediately with
  | true => exact ⟨hdelay, now, rfl, Nat.le_add_right _ _⟩
  | false => exact ⟨hclamp, _, rfl, Nat.add_le_add_left hclamp now⟩

theorem loopHead_now (s : AcceptState) :
    s.loopHead.now = s.now ∧ s.loopHead.backoff = s.backoff := by
  unfold AcceptState.loopHead
  split <;> exact ⟨rfl, rfl⟩

/-- No outcome makes the retry later than a second from now. -/
theorem acceptAction_prompt {s : AcceptState} (h : Prompt s) (e : AcceptEvent) :
    Prompt (acceptAction s e) := by
  have hsame : ∀ s' : AcceptState, s'.now = s.now → s'.backoff = s.backoff → Prompt s' :=
    fun s' hnow hbackoff => ⟨hnow ▸ hbackoff ▸ h.retryAt, hbackoff ▸ h.delay⟩
  unfold acceptAction
  split
  · split
    · exact hsame _ (loopHead_now s).1 (loopHead_now s).2
    · exact h
  · split
    · split
      · exact hsame _ rfl rfl
      · exact h
    · exact h
  · split
    · exact ⟨nofun, Nat.zero_le _⟩
    · rename_i error _
      obtain ⟨hdelay, t, ht, hle⟩ := failed_prompt s.backoff s.now error h.delay
      dsimp only
      refine ⟨?_, ?_⟩
      · rw [(loopHead_now _).1, (loopHead_now _).2]
        intro t' ht'
        cases ht.symm.trans ht'
        exact hle
      · rw [(loopHead_now _).2]
        exact hdelay
    · exact h
  · exact hsame _ rfl rfl

/-- Polls and signals are events of the `accept` future. -/
theorem act_accept (loop : MainLoop) (event : Event) :
    (loop.act event).accept = loop.accept ∨
      ∃ e, (loop.act event).accept = acceptAction loop.accept e := by
  cases event with
  | arrive arrival => exact Or.inl rfl
  | poll sys =>
    simp only [act, poll]
    split
    · exact Or.inr ⟨.call, rfl⟩
    · exact Or.inr ⟨.poll, rfl⟩
    · split
      · exact Or.inl rfl
      · right
        unfold accepted
        dsimp only
        split
        · rename_i error _
          exact ⟨.finish (some error), rfl⟩
        · exact ⟨.finish none, rfl⟩
  | hup env file =>
    right
    refine ⟨.cancel, ?_⟩
    simp only [act, hup]
    split <;> rfl

/-- What time and the events of the `accept` future keep, a run keeps. -/
theorem run_accept {P : AcceptState → Prop}
    (helapse : ∀ s elapsed, P s → P { s with now := s.now + elapsed })
    (haction : ∀ s e, P s → P (acceptAction s e)) {loop : MainLoop} (h : P loop.accept)
    (es : List (Duration × Event)) : P (runFrom step loop es).accept := by
  refine runFrom_invariant (P := fun loop => P loop.accept) (A := fun _ => True)
    (fun loop e _ h => ?_) es loop (fun _ _ => trivial) h
  have helapsed : P (loop.elapse e.1).accept := helapse _ _ h
  rcases act_accept (loop.elapse e.1) e.2 with hsame | ⟨action, heq⟩
  · exact hsame ▸ helapsed
  · exact heq ▸ haction _ action helapsed

/-- The next attempt is due. -/
structure Due (s : AcceptState) : Prop where
  retryAt : ∀ t, s.backoff.retryAt = some t → t ≤ s.now
  sleeping : ∀ t, s.future = some (.sleeping t) → t ≤ s.now

/-- How many polls it takes at most until the client behind `n` messages is accepted. -/
def pollsLeft (s : AcceptState) (n : ℕ) : ℕ :=
  match s.future with
  | none => 2 * n + 3
  | some (.sleeping _) => 2 * n + 2
  | some .accepting => 2 * n + 1

def Event.isPoll : Event → Bool
  | .poll _ => true
  | .arrive _ | .hup _ _ => false

def Event.isHup : Event → Bool
  | .hup _ _ => true
  | .arrive _ | .poll _ => false

section Prompt

variable {s : AcceptState}

theorem Due.elapse (h : Due s) (elapsed : Duration) :
    Due { s with now := s.now + elapsed } :=
  ⟨fun t ht => (h.retryAt t ht).trans (Nat.le_add_right ..),
    fun t ht => (h.sleeping t ht).trans (Nat.le_add_right ..)⟩

/-- A new future. -/
theorem Due.call (h : Due s) (hfuture : s.future = none) (n : ℕ) :
    Due (acceptAction s .call) ∧ pollsLeft (acceptAction s .call) n < pollsLeft s n := by
  simp only [acceptAction, hfuture, AcceptState.loopHead]
  cases hretry : s.backoff.retryAt with
  | none =>
    refine ⟨⟨h.retryAt, fun t ht => by cases ht⟩, ?_⟩
    simp only [pollsLeft, hfuture]
    omega
  | some deadline =>
    refine ⟨⟨h.retryAt, ?_⟩, ?_⟩
    · intro t ht
      cases ht
      exact h.retryAt _ hretry
    · simp only [pollsLeft, hfuture]
      omega

/-- A future that wakes up. -/
theorem Due.poll (h : Due s) {deadline : Instant}
    (hfuture : s.future = some (.sleeping deadline)) (n : ℕ) :
    Due (acceptAction s .poll) ∧ pollsLeft (acceptAction s .poll) n < pollsLeft s n := by
  simp only [acceptAction, hfuture, if_pos (h.sleeping deadline hfuture)]
  refine ⟨⟨h.retryAt, fun t ht => by cases ht⟩, ?_⟩
  simp only [pollsLeft, hfuture]
  omega

/-- An error that does not call for a delay. -/
theorem due_of_retryImmediately {e : AcceptError} (hfuture : s.future = some .accepting)
    (he : e.retryImmediately = true) (n : ℕ) :
    Due (acceptAction s (.finish (some e))) ∧
      pollsLeft (acceptAction s (.finish (some e))) n < pollsLeft s (n + 1) := by
  simp only [acceptAction, hfuture, AcceptBackoff.failed, he, if_true, AcceptState.loopHead,
    Nat.add_zero]
  refine ⟨⟨?_, ?_⟩, ?_⟩
  · rintro t ⟨⟩
    exact le_rfl
  · rintro t ⟨⟩
    exact le_rfl
  · simp only [pollsLeft, hfuture]
    omega

/-- The client `good` waits behind the messages `bad`, which are none, and nothing keeps the router
from accepting it. -/
structure Waits (loop : MainLoop) (bad : List Arrival) (good : Arrival) : Prop where
  waiting : ∃ rest, loop.listener.waiting = bad ++ good :: rest
  malformed : ∀ a ∈ bad, a.Malformed
  due : Due loop.accept

variable {loop : MainLoop} {bad : List Arrival} {good : Arrival} {c : AcceptedConnection}

/-- A poll accepts the client, or brings it closer. -/
theorem Waits.poll (h : loop.Waits bad good) (hgood : good.client = some c) {sys : Syscalls}
    (hsys : sys.Succeed (bad ++ [good])) :
    (loop.poll sys).spawned = loop.spawned ++ [⟨loop.id, loop.config, c⟩] ∨
      ∃ bad', bad' <:+ bad ∧ (loop.poll sys).Waits bad' good ∧
        pollsLeft (loop.poll sys).accept bad'.length < pollsLeft loop.accept bad.length ∧
        (loop.poll sys).spawned = loop.spawned ∧ (loop.poll sys).id = loop.id := by
  obtain ⟨⟨rest, hwaiting⟩, hbad, hdue⟩ := h
  unfold MainLoop.poll
  split
  · rename_i hfuture
    obtain ⟨hdue', hless⟩ := hdue.call hfuture bad.length
    exact Or.inr ⟨bad, List.suffix_refl _, ⟨⟨rest, hwaiting⟩, hbad, hdue'⟩, hless, rfl, rfl⟩
  · rename_i deadline hfuture
    obtain ⟨hdue', hless⟩ := hdue.poll hfuture bad.length
    exact Or.inr ⟨bad, List.suffix_refl _, ⟨⟨rest, hwaiting⟩, hbad, hdue'⟩, hless, rfl, rfl⟩
  · rename_i hfuture
    cases bad with
    | nil =>
      have hclient : sys.client good = some c :=
        (Syscalls.client_of_delivers (hsys.delivers good List.mem_cons_self)).trans hgood
      obtain ⟨accepting, haccept, -, -, -, -, ⟨c', hclient', hok⟩ | ⟨e, hnone, -⟩⟩ :=
        accept_of_waiting_cons hsys.documented hsys.fault hwaiting
      · left
        cases hclient.symm.trans hclient'
        simp [haccept, accepted, hok]
      · cases hclient.symm.trans hnone
    | cons first bad =>
      have hfirst := hbad first List.mem_cons_self
      have hdelivers := hsys.delivers first List.mem_cons_self
      have hnone : sys.client first = none :=
        (Syscalls.client_of_delivers hdelivers).trans hfirst.client
      obtain ⟨accepting, haccept, hrest, -, -, -, ⟨c', hclient, -⟩ | ⟨e, -, herror, hkind⟩⟩ :=
        accept_of_waiting_cons hsys.documented hsys.fault hwaiting
      · cases hnone.symm.trans hclient
      · right
        obtain ⟨hdue', hless⟩ :=
          due_of_retryImmediately hfuture (hkind hdelivers hfirst) bad.length
        rw [haccept]
        dsimp only
        rw [accepted]
        dsimp only
        rw [herror]
        exact ⟨bad, List.suffix_cons .., ⟨⟨rest, hrest⟩,
          fun a ha => hbad a (List.mem_cons_of_mem _ ha), hdue'⟩, hless, rfl, rfl⟩

/-- An arrival queues up behind the client. -/
theorem Waits.arrive (h : loop.Waits bad good) (arrival : Arrival) :
    (loop.act (.arrive arrival)).Waits bad good := by
  obtain ⟨⟨rest, hwaiting⟩, hbad, hdue⟩ := h
  refine ⟨⟨rest ++ (Event.arrive arrival).arrivals loop.listener, ?_⟩, hbad, hdue⟩
  simp only [act, push_waiting, hwaiting, List.append_assoc, List.cons_append]

/-- A signal costs two polls. -/
theorem Waits.hup (h : loop.Waits bad good) (env : LoadEnv)
    (file : Except String Protos.SniConfig) :
    (loop.hup env file).Waits bad good ∧
      pollsLeft (loop.hup env file).accept bad.length ≤ pollsLeft loop.accept bad.length + 2 ∧
      (loop.hup env file).spawned = loop.spawned ∧ (loop.hup env file).id = loop.id := by
  have hdue : Due (acceptAction loop.accept .cancel) := ⟨h.due.retryAt, nofun⟩
  have hless : pollsLeft (acceptAction loop.accept .cancel) bad.length ≤
      pollsLeft loop.accept bad.length + 2 := by
    simp only [acceptAction, pollsLeft]
    split <;> omega
  unfold MainLoop.hup
  dsimp only
  split
  · exact ⟨⟨h.waiting, h.malformed, hdue⟩, hless, rfl, rfl⟩
  · exact ⟨⟨h.waiting, h.malformed, hdue⟩, hless, rfl, rfl⟩

theorem Waits.elapse (h : loop.Waits bad good) (elapsed : Duration) :
    (loop.elapse elapsed).Waits bad good :=
  ⟨h.waiting, h.malformed, h.due.elapse elapsed⟩

/-- By induction on the events: the polls that are left outnumber those that are needed. -/
theorem Waits.run (h : loop.Waits bad good) (hgood : good.client = some c)
    {es : List (Duration × Event)}
    (hsys : ∀ e ∈ es, ∀ sys ∈ e.2.syscalls, sys.Succeed (bad ++ [good]))
    (hpolls : pollsLeft loop.accept bad.length + 2 * es.countP (fun e => e.2.isHup) ≤
      es.countP fun e => e.2.isPoll) :
    ∃ config, loop.spawned ++ [⟨loop.id, config, c⟩] <+: (runFrom step loop es).spawned := by
  induction es generalizing loop bad with
  | nil =>
    have hpos : 0 < pollsLeft loop.accept bad.length := by
      unfold pollsLeft
      split <;> omega
    simp only [List.countP_nil] at hpolls
    omega
  | cons e es ih =>
    obtain ⟨elapsed, event⟩ := e
    have hsys' : ∀ e ∈ es, ∀ sys ∈ e.2.syscalls, sys.Succeed (bad ++ [good]) :=
      fun e he => hsys e (List.mem_cons_of_mem _ he)
    have helapsed := h.elapse elapsed
    have hleft : pollsLeft (loop.elapse elapsed).accept bad.length =
        pollsLeft loop.accept bad.length := rfl
    rw [runFrom_cons]
    cases event with
    | arrive arrival =>
      rw [List.countP_cons_of_neg Bool.false_ne_true,
        List.countP_cons_of_neg Bool.false_ne_true] at hpolls
      exact ih (helapsed.arrive arrival) hsys' hpolls
    | poll sys =>
      rcases helapsed.poll hgood (hsys _ List.mem_cons_self sys List.mem_cons_self) with
        hspawned | ⟨bad', hsuffix, hwaits, hless, hspawned, hid⟩
      · exact ⟨loop.config, hspawned ▸ run_spawned_prefix _ es⟩
      · rw [List.countP_cons_of_neg Bool.false_ne_true, List.countP_cons_of_pos rfl] at hpolls
        have hfewer : ∀ e ∈ es, ∀ sys ∈ e.2.syscalls, sys.Succeed (bad' ++ [good]) := by
          intro e he sys hmem
          obtain ⟨hdocumented, hfault, hdelivers⟩ := hsys' e he sys hmem
          refine ⟨hdocumented, hfault, fun a ha => hdelivers a ?_⟩
          exact (hsuffix.sublist.append_right [good]).subset ha
        obtain ⟨config, hprefix⟩ := ih hwaits hfewer (by omega)
        rw [hspawned, hid] at hprefix
        exact ⟨config, hprefix⟩
    | hup env file =>
      obtain ⟨hwaits, hless, hspawned, hid⟩ := helapsed.hup env file
      rw [List.countP_cons_of_pos rfl, List.countP_cons_of_neg Bool.false_ne_true] at hpolls
      obtain ⟨config, hprefix⟩ := ih hwaits hsys' (by omega)
      rw [hspawned, hid] at hprefix
      exact ⟨config, hprefix⟩

end Prompt

/-- **Messages that are no clients do not delay the clients behind them.** In every run the next
attempt is at most a second away. Once it is due, a client behind any number `n` of malformed
messages is accepted within `2 n + 3` polls, and two more for each SIGHUP in between, however
little time passes, if no system call fails and every descriptor of these messages can be
received: a malformed message alone never makes the router wait. -/
theorem malformed_never_delay (config : LoadedConfig) (listener : IngressListener)
    (now : Instant) (es : List (Duration × Event)) :
    let loop := runFrom step (start config listener now) es
    (∀ t, loop.accept.backoff.retryAt = some t → t ≤ loop.accept.now + fromMillis 1000) ∧
    ∀ (bad : List Arrival) (good : Arrival) (rest : List Arrival) (c : AcceptedConnection),
      loop.listener.waiting = bad ++ good :: rest → (∀ a ∈ bad, a.Malformed) →
      good.client = some c →
      (∀ t, loop.accept.backoff.retryAt = some t → t ≤ loop.accept.now) →
      ∀ fs : List (Duration × Event),
        (∀ e ∈ fs, ∀ sys ∈ e.2.syscalls, sys.Succeed (bad ++ [good])) →
        2 * bad.length + 3 + 2 * fs.countP (fun e => e.2.isHup) ≤
          fs.countP (fun e => e.2.isPoll) →
        ∃ config', loop.spawned ++ [⟨loop.id, config', c⟩] <+: (runFrom step loop fs).spawned := by
  intro loop
  have hprompt : Prompt loop.accept :=
    run_accept (P := Prompt) (fun s elapsed h => h.elapse elapsed)
      (fun s e h => acceptAction_prompt h e) (prompt_new now) es
  have hinv : loop.accept.Inv :=
    run_accept (P := AcceptState.Inv) (fun s elapsed h => h.elapse elapsed)
      (fun s e h => acceptAction_inv h e) (AcceptState.new_inv now) es
  refine ⟨hprompt.retryAt, fun bad good rest c hwaiting hbad hgood hdue fs hsys hpolls => ?_⟩
  have hwaits : loop.Waits bad good :=
    ⟨⟨rest, hwaiting⟩, hbad, hdue, fun t ht => hdue t (hinv.sleeping t ht)⟩
  have hleft : pollsLeft loop.accept bad.length ≤ 2 * bad.length + 3 := by
    unfold pollsLeft
    split <;> omega
  exact hwaits.run hgood hsys (by omega)

/-- A message with two descriptors, and a client behind it. There is room for both. -/
theorem malformed_never_delay_one :
    ∃ config, [⟨0, config, ⟨sampleStream [6], [1]⟩⟩] <+:
      (runFrom step (start ⟨samplePassConfig, none⟩
        (.unixDatagram [⟨[1], [sampleFd, sampleFd]⟩, ⟨[1], [sampleFd]⟩]) 0)
        (List.replicate 5 (0, .poll (sampleSyscalls 2)))).spawned := by
  have hrun := (malformed_never_delay ⟨samplePassConfig, none⟩
    (.unixDatagram [⟨[1], [sampleFd, sampleFd]⟩, ⟨[1], [sampleFd]⟩]) 0 []).2
  refine hrun [.uds ⟨[1], [sampleFd, sampleFd]⟩] _ [] _ rfl ?_ rfl nofun _ ?_ (by decide)
  · intro a ha
    cases List.mem_singleton.mp ha
    exact Or.inr (by simp)
  · intro e he sys hsys
    cases List.eq_of_mem_replicate he
    cases List.mem_singleton.mp hsys
    refine ⟨sampleSyscalls_documented 2, rfl, fun a ha => ?_⟩
    rcases List.mem_pair.mp ha with rfl | rfl
    · rfl
    · rfl

end MainLoop

end Tcp

end SniRouter
