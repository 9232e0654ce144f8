import SniRouter.H3.Establish

/-!
# Buffering an Initial

`InitialEffect` takes the handling of a decrypted Initial apart: the Initial is dropped,
buffered, dropped together with everything buffered for its handshake, or it completes the
ClientHello and the handshake leaves the buffers to be routed. `Accepts` collects the limits
an Initial has to pass.
-/

namespace SniRouter

/-- A pending handshake with one more Initial buffered and its frames taken. -/
def PendingConnection.buffered (pending : PendingConnection) (packet scid : Bytes)
    (frames : List (ℕ × Bytes)) (now : Instant) : PendingConnection :=
  { pending with
    bufferedBytes := pending.bufferedBytes + packet.length
    datagrams := pending.datagrams ++ [packet]
    lastSeen := now
    clientCids := if scid.isEmpty then pending.clientCids else pending.clientCids.insert scid
    crypto := (pending.crypto.insertFrames frames).1 }

/-- The buffers without the handshake `key`. -/
def Buffers.release (b : Buffers) (key : SocketAddr × Bytes) : Buffers :=
  let bytes := b.pendingBytes - (b.pending.lookup key).elim 0 PendingConnection.bufferedBytes
  { b with
    pending := b.pending.erase key
    pendingBytes := bytes
    pendingGauge := (b.pending.erase key).size
    pendingBytesGauge := bytes }

namespace Router

/-- The handshake an Initial belongs to, new if it is the first. -/
def entry (r : Router) (key : SocketAddr × Bytes) (peer : SocketAddr) (now : Instant) :
    PendingConnection :=
  (r.pending.lookup key).getD (PendingConnection.new peer key.2 now)

/-- The state with `pending` stored under `key`, `bytes` bytes longer than before. -/
def buffer (r : Router) (key : SocketAddr × Bytes) (pending : PendingConnection) (bytes : ℕ) :
    Router :=
  { r with
    pending := r.pending.insert key pending
    pendingBytes := r.pendingBytes + bytes
    metrics := { r.metrics with
      pending := r.metrics.pending + if r.pending.lookup key = none then 1 else 0
      pendingBytes := (r.pendingBytes + bytes : ℕ) } }

/-- At most one server name is added, one that is short and finds room. -/
def LabelsGrow (labels labels' : HashSet Bytes) : Prop :=
  labels' = labels ∨
    ∃ name, labels' = labels.insert name ∧ name.length ≤ maxSniMetricLabelBytes ∧
      (name ∈ labels ∨ labels.size < maxSniMetricLabels)

/-- `r'` is `r` without the handshake `key`, with `n` datagrams counted as dropped and at
most one more server name known to the metrics. -/
structure Releases (key : SocketAddr × Bytes) (n : ℕ) (r r' : Router) : Prop where
  paths : r'.paths = r.paths
  buffers : r'.buffers =
    { r.buffers.release key with sniMetricLabels := r'.sniMetricLabels }
  labels : LabelsGrow r.sniMetricLabels r'.sniMetricLabels
  dropTotal : r'.metrics.dropTotal = r.metrics.dropTotal + n
  gauge : r'.pathGaugeError = r.pathGaugeError
  size : r'.connections.size = r.connections.size

/-- The Initial passes every limit and its frames are taken. -/
structure Accepts (r : Router) (key : SocketAddr × Bytes) (peer : SocketAddr) (packet : Bytes)
    (frames : List (ℕ × Bytes)) (now : Instant) : Prop where
  handshakes : r.pending.lookup key = none → r.pending.size < r.limits.maxPendingHandshakes
  bytes : r.pendingBytes + packet.length ≤ r.limits.maxPendingBytes
  datagrams : (r.entry key peer now).datagrams.length < maxPendingDatagrams
  entryBytes : (r.entry key peer now).bufferedBytes + packet.length ≤ maxPendingBytes
  taken : ((r.entry key peer now).crypto.insertFrames frames).2 = true

/-- How an Initial that decrypts ends. `key` is its handshake, `entry` what is buffered for
it including the Initial itself. -/
inductive InitialEffect (io : Io) (r : Router) (peer : SocketAddr) (packet : Bytes)
    (decrypted : DecryptedInitial) (frames : List (ℕ × Bytes)) (key : SocketAddr × Bytes)
    (entry : PendingConnection) : Reply → Prop where
  /-- The Initial alone is dropped. -/
  | drop (reason : DropReason) (hrefused : ¬r.Accepts key peer packet frames io.now₁) :
      InitialEffect io r peer packet decrypted frames key entry (.done (r.dropped reason 1))
  /-- The handshake is dropped with everything buffered for it. -/
  | discard {r' : Router}
      (hrefused : r.Accepts key peer packet frames io.now₁ →
        ∃ e, entry.crypto.clienthello = .error e)
      (hreleases : Releases key
        ((r.pending.lookup key).elim 0 (fun pending => pending.datagrams.length) + 1) r r') :
      InitialEffect io r peer packet decrypted frames key entry (.done r')
  /-- The Initial is buffered. -/
  | wait (haccepts : r.Accepts key peer packet frames io.now₁)
      (hhello : entry.crypto.clienthello = .ok none) :
      InitialEffect io r peer packet decrypted frames key entry
        (.done (r.buffer key entry packet.length))
  /-- The ClientHello is complete, and no route is found for it. -/
  | unroutable {hello : Bytes} {r₁ : Router} {e : String}
      (haccepts : r.Accepts key peer packet frames io.now₁)
      (hhello : entry.crypto.clienthello = .ok (some hello)) (hreleases : Releases key 0 r r₁)
      (hroute : r.config.routeForSni peer (routedSni hello) = .error e) :
      InitialEffect io r peer packet decrypted frames key entry ⟨r₁, [], .err e⟩
  /-- The ClientHello is complete and routed. -/
  | routed {hello : Bytes} {r₁ : Router} {route : Route} {reply : Reply}
      (haccepts : r.Accepts key peer packet frames io.now₁)
      (hhello : entry.crypto.clienthello = .ok (some hello)) (hreleases : Releases key 0 r r₁)
      (hroute : r.config.routeForSni peer (routedSni hello) = .ok route)
      (heffect : EstablishEffect io r₁ entry route reply) :
      InitialEffect io r peer packet decrypted frames key entry reply

section Initial

variable {r : Router} {key : SocketAddr × Bytes} {peer : SocketAddr} {packet scid : Bytes}
  {frames : List (ℕ × Bytes)} {now : Instant}

/-- The entry of a handshake is the one it has, or a new one. -/
theorem pendingEntry_fst (r : Router) (key : SocketAddr × Bytes) (peer : SocketAddr)
    (now : Instant) : (r.pendingEntry key peer now).1 = r.entry key peer now := by
  unfold pendingEntry entry
  cases r.pending.lookup key <;> rfl

/-- Taking the entry counts it in the gauge when it is new. -/
theorem pendingEntry_snd (r : Router) (key : SocketAddr × Bytes) (peer : SocketAddr)
    (now : Instant) :
    (r.pendingEntry key peer now).2 = { r with metrics := { r.metrics with
      pending := r.metrics.pending + if r.pending.lookup key = none then 1 else 0 } } := by
  unfold pendingEntry
  cases r.pending.lookup key <;> simp

/-- A new entry has no bytes. -/
theorem bufferedBytes_entry (r : Router) (key : SocketAddr × Bytes) (peer : SocketAddr)
    (now : Instant) : (r.entry key peer now).bufferedBytes =
      (r.pending.lookup key).elim 0 PendingConnection.bufferedBytes := by
  unfold entry
  cases r.pending.lookup key <;> rfl

/-- A datagram is buffered within both limits of a handshake. -/
theorem pushDatagram_eq_ok {pending pending' : PendingConnection}
    (h : pending.pushDatagram packet = .ok pending') :
    pending.datagrams.length < maxPendingDatagrams ∧
      pending.bufferedBytes + packet.length ≤ maxPendingBytes ∧
      pending' = { pending with
        bufferedBytes := pending.bufferedBytes + packet.length
        datagrams := pending.datagrams ++ [packet] } := by
  unfold PendingConnection.pushDatagram at h
  split at h
  · cases h
  split at h
  · cases h
  · rename_i hcount hbytes
    cases h
    exact ⟨not_le.mp hcount, not_lt.mp hbytes, rfl⟩

/-- What the stream of a handshake says after its frames were taken. -/
def helloProgress (crypto : CryptoReassembly) (taken : Bool) :
    Except DropReason (Option (Option Bytes)) :=
  if !taken then .error .cryptoFragmentLimit
  else
    match crypto.clienthello with
    | .error _ => .error .invalidInitial
    | .ok none => .ok none
    | .ok (some hello) => .ok (some (routedSni hello))

/-- A datagram beyond these limits is refused, and the entry is stored without it. -/
theorem progress_of_error {e : String}
    (h : (r.entry key peer now).pushDatagram packet = .error e) :
    r.progress key peer packet scid frames now =
      ((r.pendingEntry key peer now).2.setPending key (r.entry key peer now),
        .error .pendingHandshakeLimit) := by
  simp only [progress, pendingEntry_fst, h]

/-- A datagram within them is buffered before its frames are looked at. -/
theorem progress_of_ok {pending : PendingConnection}
    (h : (r.entry key peer now).pushDatagram packet = .ok pending) :
    r.progress key peer packet scid frames now =
      (r.buffer key ((r.entry key peer now).buffered packet scid frames now) packet.length,
        helloProgress ((r.entry key peer now).crypto.insertFrames frames).1
          ((r.entry key peer now).crypto.insertFrames frames).2) := by
  obtain ⟨-, -, rfl⟩ := pushDatagram_eq_ok h
  simp only [progress, pendingEntry_fst, pendingEntry_snd, h, helloProgress]
  split
  · rfl
  · rcases ((r.entry key peer now).crypto.insertFrames frames).1.clienthello with _ | _ | hello
    all_goals rfl

/-- `r₁` is `r` with a handshake stored under `key`, and with at most one more server name
known to the metrics. -/
structure Stores (key : SocketAddr × Bytes) (pending : PendingConnection) (r r₁ : Router) :
    Prop where
  paths : r₁.paths = r.paths
  pending_eq : r₁.pending = r.pending.insert key pending
  bytes : r₁.pendingBytes - pending.bufferedBytes = r.pendingBytes -
    (r.pending.lookup key).elim 0 PendingConnection.bufferedBytes
  settings : (r₁.config, r₁.limits, r₁.idleTimeout) = (r.config, r.limits, r.idleTimeout)
  traffic : (r₁.metrics.client, r₁.metrics.backend) = (r.metrics.client, r.metrics.backend)
  labels : LabelsGrow r.sniMetricLabels r₁.sniMetricLabels
  dropTotal : r₁.metrics.dropTotal = r.metrics.dropTotal
  gauge : r₁.pathGaugeError = r.pathGaugeError
  size : r₁.connections.size = r.connections.size

/-- Storing the entry of a handshake touches nothing else. -/
theorem stores_setPending (r : Router) (key : SocketAddr × Bytes) (peer : SocketAddr)
    (now : Instant) : Stores key (r.entry key peer now) r
      ((r.pendingEntry key peer now).2.setPending key (r.entry key peer now)) := by
  rw [pendingEntry_snd]
  refine ⟨rfl, rfl, ?_, rfl, rfl, Or.inl rfl, rfl, rfl, rfl⟩
  rw [bufferedBytes_entry]
  rfl

/-- Nor does buffering a datagram, apart from its bytes. -/
theorem stores_buffer (r : Router) (key : SocketAddr × Bytes) (peer : SocketAddr)
    (packet scid : Bytes) (frames : List (ℕ × Bytes)) (now : Instant) :
    Stores key ((r.entry key peer now).buffered packet scid frames now) r
      (r.buffer key ((r.entry key peer now).buffered packet scid frames now) packet.length) := by
  refine ⟨rfl, rfl, ?_, rfl, rfl, Or.inl rfl, rfl, rfl, rfl⟩
  simp only [buffer, PendingConnection.buffered, bufferedBytes_entry]
  omega

/-- Recording a name changes its counters, and adds its label if there is room for it. -/
theorem recordSni_eq (r : Router) (sni : Option Bytes) :
    ∃ labels counters, LabelsGrow r.sniMetricLabels labels ∧
      r.recordSni sni = { r with
        sniMetricLabels := labels
        metrics := { r.metrics with sni := counters } } := by
  unfold recordSni
  split
  · rename_i name
    split
    · split
      · exact ⟨_, _, Or.inl rfl, rfl⟩
      · rename_i hfits
        push Not at hfits
        refine ⟨_, _, Or.inr ⟨name, rfl, hfits.1, ?_⟩, rfl⟩
        by_cases hmem : name ∈ r.sniMetricLabels
        · exact Or.inl hmem
        · exact Or.inr (hfits.2 hmem)
    · exact ⟨_, _, Or.inl rfl, rfl⟩
  · exact ⟨_, _, Or.inl rfl, rfl⟩

/-- Recording a name, once the entry is stored, changes the labels at most. -/
theorem Stores.recordSni {pending : PendingConnection} {r₁ : Router}
    (h : Stores key pending r r₁) (hlabels : r₁.sniMetricLabels = r.sniMetricLabels)
    (sni : Option Bytes) : Stores key pending r (r₁.recordSni sni) := by
  obtain ⟨labels, counters, hgrow, heq⟩ := recordSni_eq r₁ sni
  rw [hlabels] at hgrow
  rw [heq]
  exact ⟨h.paths, h.pending_eq, h.bytes, h.settings, h.traffic, hgrow, h.dropTotal, h.gauge,
    h.size⟩

/-- Removing the handshake that was just stored leaves the state without it, whatever was
stored. -/
theorem Stores.removePending {pending : PendingConnection} {r₁ : Router}
    (h : Stores key pending r r₁) :
    (r₁.removePending key).1 = some pending ∧ Releases key 0 r (r₁.removePending key).2 := by
  have hlook : r₁.pending.lookup key = some pending := by
    rw [h.pending_eq]
    exact Table.lookup_insert_self ..
  have hsettings := h.settings
  have htraffic := h.traffic
  simp only [Prod.mk.injEq] at hsettings htraffic
  simp only [Router.removePending, hlook]
  refine ⟨trivial, h.paths, ?_, h.labels, h.dropTotal, h.gauge, h.size⟩
  simp only [buffers, Buffers.release, h.pending_eq, Table.erase_insert_self, h.bytes,
    hsettings, htraffic]

/-- The datagrams of a handshake that is refused are counted as drops. -/
theorem Releases.dropped {r' : Router} (h : Releases key 0 r r') (reason : DropReason) (n : ℕ) :
    Releases key n r (r'.dropped reason n) where
  paths := h.paths
  buffers := h.buffers
  labels := h.labels
  dropTotal := by rw [dropTotal_dropped, h.dropTotal, Nat.add_zero]
  gauge := h.gauge
  size := h.size

/-- The end of a handshake does not change the configuration. -/
theorem Releases.config {n : ℕ} {r' : Router} (h : Releases key n r r') :
    r'.config = r.config :=
  congrArg Buffers.config h.buffers

/-- What an Initial can do, case by case. -/
theorem handleInitial_effect (cr : Crypto) (io : Io) (hr : r.paths.Indexed) (peer : SocketAddr)
    (packet : Bytes) (decrypted : DecryptedInitial) (frames : List (ℕ × Bytes)) :
    InitialEffect io r peer packet decrypted frames (normalizeSocketAddr peer, decrypted.dcid)
      ((r.entry (normalizeSocketAddr peer, decrypted.dcid) peer io.now₁).buffered packet
        decrypted.scid frames io.now₁)
      (r.handleInitial cr io peer packet decrypted frames) := by
  generalize hkey : (normalizeSocketAddr peer, decrypted.dcid) = key
  unfold handleInitial
  simp only [hkey]
  -- the two budgets are checked before anything is stored
  split
  · rename_i hfull
    exact .drop _ fun h => absurd (h.handshakes hfull.1) (not_lt.mpr hfull.2)
  rename_i hhandshakes
  split
  · rename_i hfull
    exact .drop _ fun h => absurd h.bytes (not_le.mpr hfull)
  rename_i hbytes
  -- from here on the entry is in the table, and a failure takes it out again
  cases hpush : (r.entry key peer io.now₁).pushDatagram packet with
  | error e =>
    rw [progress_of_error hpush]
    refine .discard (fun h => ?_) ((stores_setPending ..).removePending.2.dropped ..)
    unfold PendingConnection.pushDatagram at hpush
    rw [if_neg (not_le.mpr h.datagrams), if_neg (not_lt.mpr h.entryBytes)] at hpush
    cases hpush
  | ok pending =>
    obtain ⟨hcount, hmax, -⟩ := pushDatagram_eq_ok hpush
    rw [progress_of_ok hpush]
    have hstores := stores_buffer r key peer packet decrypted.scid frames io.now₁
    have haccepts : ((r.entry key peer io.now₁).crypto.insertFrames frames).2 = true →
        r.Accepts key peer packet frames io.now₁ := fun htaken =>
      ⟨fun hnew => not_le.mp fun hge => hhandshakes ⟨hnew, hge⟩, not_lt.mp hbytes, hcount, hmax,
        htaken⟩
    cases htaken : ((r.entry key peer io.now₁).crypto.insertFrames frames).2 with
    | false =>
      refine .discard (fun h => ?_) (hstores.removePending.2.dropped ..)
      rw [h.taken] at htaken
      cases htaken
    | true =>
      have haccepts := haccepts htaken
      simp only [helloProgress, Bool.not_true, Bool.false_eq_true, if_false]
      cases hhello : ((r.entry key peer io.now₁).crypto.insertFrames frames).1.clienthello with
      | error e => exact .discard (fun _ => ⟨e, hhello⟩) (hstores.removePending.2.dropped ..)
      | ok hello =>
        cases hello with
        | none => exact .wait haccepts hhello
        | some hello =>
          -- the ClientHello is complete: the entry is taken out and routed
          obtain ⟨hsome, hreleases⟩ := (hstores.recordSni rfl (routedSni hello)).removePending
          dsimp only
          split
          · rename_i hnone
            rw [hnone] at hsome
            cases hsome
          · rename_i pending r₁ hremove
            rw [hremove] at hsome hreleases
            cases hsome
            have hr₁ : r₁.paths.Indexed := hreleases.paths ▸ hr
            rw [show r₁.config = r.config from hreleases.config]
            split
            · rename_i e hroute
              exact .unroutable haccepts hhello hreleases hroute
            · rename_i route hroute
              exact .routed haccepts hhello hreleases hroute
                (establishAndFlush_effect cr io hr₁ _ route)

end Initial

end Router

end SniRouter
