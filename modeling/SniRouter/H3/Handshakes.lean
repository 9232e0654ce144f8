import SniRouter.H3.Indexes

/-!
# Pending handshakes

What a step does to the handshake buffers (`BuffersEffect`), and where the contents of a
pending handshake come from: `Collects` says that it holds exactly the listed Initials, in
their order of arrival, and the CRYPTO stream put together from their frames.
`run_collects` is the resulting invariant of runs: every listed Initial was received from the
client the handshake belongs to and carried its destination connection ID.
-/

namespace SniRouter

namespace Router

/-! ## One step on the buffers -/

/-- Opening or sharing a path does not touch the handshakes that are pending. -/
theorem EstablishEffect.buffers {io : Io} {r : Router} {pending : PendingConnection}
    {route : Route} {reply : Reply} (h : EstablishEffect io r pending route reply) :
    reply.router.buffers = r.buffers := by
  cases h with
  | refuse hdrops => exact hdrops.buffers
  | share hroute hc hclient hupstream hlive hacts => exact hacts.buffers
  | fail hroute => rfl
  | create hroute hupstream hroom hopens => exact hopens.buffers

/-- What a client datagram does to the buffers. -/
inductive BuffersEffect (cr : Crypto) (io : Io) (r : Router) (peer : SocketAddr)
    (packet : Bytes) : Buffers → Prop where
  | same : BuffersEffect cr io r peer packet r.buffers
  /-- The datagram is an Initial with which its handshake leaves. -/
  | release {decrypted : DecryptedInitial} {frames : List (ℕ × Bytes)}
      {key : SocketAddr × Bytes} {labels : HashSet Bytes}
      (hkey : key = (normalizeSocketAddr peer, decrypted.dcid))
      (hdecrypt : decryptInitialPacket cr packet = .ok decrypted)
      (hframes : readCryptoFrames decrypted.payload = .ok frames)
      (hlabels : LabelsGrow r.sniMetricLabels labels) :
      BuffersEffect cr io r peer packet
        { r.buffers.release key with sniMetricLabels := labels }
  /-- The datagram is an Initial that is buffered. -/
  | wait {decrypted : DecryptedInitial} {frames : List (ℕ × Bytes)} {key : SocketAddr × Bytes}
      (hkey : key = (normalizeSocketAddr peer, decrypted.dcid))
      (hdecrypt : decryptInitialPacket cr packet = .ok decrypted)
      (hframes : readCryptoFrames decrypted.payload = .ok frames)
      (haccepts : r.Accepts key peer packet frames io.now₁) :
      BuffersEffect cr io r peer packet
        (r.buffer key ((r.entry key peer io.now₁).buffered packet decrypted.scid frames io.now₁)
          packet.length).buffers

/-- What a datagram of a client does to the handshakes. -/
theorem ClientEffect.buffersEffect {cr : Crypto} {io : Io} {r : Router} {peer : SocketAddr}
    {packet : Bytes} {reply : Reply} (h : ClientEffect cr io r peer packet reply) :
    BuffersEffect cr io r peer packet reply.router.buffers := by
  cases h with
  | drop reason => exact .same
  | forward hc hpeer hlive hacts => exact hacts.buffers ▸ .same
  | tooLong => exact .same
  | decoded hlong haddr heffect => exact heffect.buffers ▸ .same
  | initial hdecrypt hframes hfree hlb heffect =>
    cases heffect with
    | drop reason hrefused => exact .same
    | discard hrefused hreleases =>
      exact hreleases.buffers ▸ .release rfl hdecrypt hframes hreleases.labels
    | wait haccepts hhello => exact .wait rfl hdecrypt hframes haccepts
    | unroutable haccepts hhello hreleases hroute =>
      exact hreleases.buffers ▸ .release rfl hdecrypt hframes hreleases.labels
    | routed haccepts hhello hreleases hroute heffect =>
      rw [heffect.buffers, hreleases.buffers]
      exact .release rfl hdecrypt hframes hreleases.labels

theorem BackendEffect.buffers {io : Io} {r : Router} {k : ℕ} {packet : Bytes} {reply : Reply}
    (h : BackendEffect io r k packet reply) : reply.router.buffers = r.buffers := by
  cases h with
  | drop reason => rfl
  | fail hc hlive hacts => exact hacts.buffers
  | reply hc hlive hdest hacts => exact hacts.buffers

theorem BuffersEffect.settings {cr : Crypto} {io : Io} {r : Router} {peer : SocketAddr}
    {packet : Bytes} {b : Buffers} (h : BuffersEffect cr io r peer packet b) :
    b.limits = r.limits ∧ b.idleTimeout = r.idleTimeout ∧ b.client = r.metrics.client ∧
      b.backend = r.metrics.backend ∧ b.config = r.config := by
  cases h with
  | same => exact ⟨rfl, rfl, rfl, rfl, rfl⟩
  | release hkey hdecrypt hframes hlabels => exact ⟨rfl, rfl, rfl, rfl, rfl⟩
  | wait hkey hdecrypt hframes haccepts => exact ⟨rfl, rfl, rfl, rfl, rfl⟩

/-- Limits and the idle timeout never change. -/
theorem step_settings (cr : Crypto) {r : Router} (hr : r.paths.Indexed) (e : Event) :
    (r.step cr e).limits = r.limits ∧ (r.step cr e).idleTimeout = r.idleTimeout := by
  cases e with
  | datagram io peer packet =>
    obtain ⟨hlimits, hidle, -⟩ :=
      (handleDatagram_effect cr io hr peer packet).buffersEffect.settings
    exact ⟨hlimits, hidle⟩
  | backend io k packet =>
    have hb := (handleBackendDatagram_effect cr io hr k packet).buffers
    exact ⟨congrArg Buffers.limits hb, congrArg Buffers.idleTimeout hb⟩
  | cleanup now =>
    have hb := (cleanup_cleans hr now).buffers
    exact ⟨congrArg Buffers.limits hb, congrArg Buffers.idleTimeout hb⟩
  | setConfig config => exact ⟨rfl, rfl⟩

/-- Only a reload changes the configuration. -/
theorem step_config (cr : Crypto) {r : Router} (hr : r.paths.Indexed) {e : Event}
    (he : ∀ config, e ≠ .setConfig config) : (r.step cr e).config = r.config := by
  cases e with
  | datagram io peer packet =>
    exact (handleDatagram_effect cr io hr peer packet).buffersEffect.settings.2.2.2.2
  | backend io k packet =>
    exact congrArg Buffers.config (handleBackendDatagram_effect cr io hr k packet).buffers
  | cleanup now => exact congrArg Buffers.config (cleanup_cleans hr now).buffers
  | setConfig config => exact absurd rfl (he config)

theorem run_settings (cr : Crypto) (config : Config) (idleTimeout : Duration) (limits : Limits)
    (es : List Event) : ((start config idleTimeout limits).run cr es).limits = limits ∧
      ((start config idleTimeout limits).run cr es).idleTimeout = idleTimeout := by
  refine runFrom_history (P := fun _ r => Router.limits r = limits ∧
    Router.idleTimeout r = idleTimeout) ⟨rfl, rfl⟩ ?_ es
  intro es e h
  have hstep := step_settings cr (run_indexed cr config idleTimeout limits es) e
  exact ⟨hstep.1.trans h.1, hstep.2.trans h.2⟩

end Router

/-! ## The byte budget and the gauges -/

/-- The byte count is the sum over the handshakes, and both gauges are right. -/
structure Buffers.Tallied (b : Buffers) : Prop where
  bytes : b.pendingBytes = b.pending.total fun _ p => p.bufferedBytes
  gauge : b.pendingGauge = b.pending.size
  bytesGauge : b.pendingBytesGauge = b.pendingBytes

namespace Buffers.Tallied

variable {b : Buffers}

/-- Removing a handshake takes its bytes off the tally. -/
theorem release (h : b.Tallied) (key : SocketAddr × Bytes) : (b.release key).Tallied := by
  refine ⟨?_, rfl, rfl⟩
  have hsum : _ + (b.pending.lookup key).elim 0 PendingConnection.bufferedBytes = _ :=
    Table.total_erase_add (fun _ p => p.bufferedBytes) b.pending key
  have hb := h.bytes
  simp only [Buffers.release]
  omega

/-- So does dropping those that timed out. -/
theorem expire (h : b.Tallied) (now : Instant) : (b.expire now).Tallied := by
  refine ⟨?_, rfl, rfl⟩
  have hsum := Table.total_retain_add (fun _ p => PendingConnection.bufferedBytes p)
    (fun _ p => b.keeps now p) b.pending
  have hb := h.bytes
  simp only [Buffers.expire, Buffers.timedOut, List.map_map, Function.comp_def] at hsum ⊢
  omega

end Buffers.Tallied

namespace Router

/-- Replacing a handshake by one that is `bytes` bytes longer. -/
theorem tallied_buffer {r : Router} (h : r.buffers.Tallied) {key : SocketAddr × Bytes}
    {pending : PendingConnection} {bytes : ℕ}
    (hbytes : pending.bufferedBytes =
      (r.pending.lookup key).elim 0 PendingConnection.bufferedBytes + bytes) :
    (r.buffer key pending bytes).buffers.Tallied := by
  have hb : r.pendingBytes = _ := h.bytes
  have hg : r.metrics.pending = r.pending.size := h.gauge
  refine ⟨?_, ?_, rfl⟩
  · have hsum : _ + (r.pending.lookup key).elim 0 PendingConnection.bufferedBytes = _ :=
      Table.total_erase_add (fun _ p => p.bufferedBytes) r.pending key
    simp only [buffers, buffer, Table.total_insert] at hb ⊢
    omega
  · simp only [buffers, buffer, hg]
    cases hlook : r.pending.lookup key with
    | none => simp [Table.size_insert_of_lookup_none pending hlook]
    | some old => simp [Table.size_insert_of_lookup_some pending hlook]

/-- A datagram of a client keeps the tally. -/
theorem BuffersEffect.tallied {cr : Crypto} {io : Io} {r : Router} {peer : SocketAddr}
    {packet : Bytes} {b : Buffers} (h : BuffersEffect cr io r peer packet b)
    (hr : r.buffers.Tallied) : b.Tallied := by
  cases h with
  | same => exact hr
  | @release decrypted frames key labels hkey hdecrypt hframes hlabels =>
    have hrel := hr.release key
    exact ⟨hrel.bytes, hrel.gauge, hrel.bytesGauge⟩
  | wait hkey hdecrypt hframes haccepts =>
    refine tallied_buffer hr ?_
    simp only [PendingConnection.buffered, bufferedBytes_entry]

/-- Every step keeps it. -/
theorem step_tallied (cr : Crypto) {r : Router} (hr : r.paths.Indexed)
    (h : r.buffers.Tallied) (e : Event) : (r.step cr e).buffers.Tallied := by
  cases e with
  | datagram io peer packet =>
    exact (handleDatagram_effect cr io hr peer packet).buffersEffect.tallied
      ⟨h.bytes, h.gauge, h.bytesGauge⟩
  | backend io k packet =>
    rw [show (r.step cr (.backend io k packet)).buffers = _ from
      (handleBackendDatagram_effect cr io hr k packet).buffers]
    exact ⟨h.bytes, h.gauge, h.bytesGauge⟩
  | cleanup now =>
    rw [show (r.step cr (.cleanup now)).buffers = _ from (cleanup_cleans hr now).buffers]
    exact h.expire now
  | setConfig config => exact ⟨h.bytes, h.gauge, h.bytesGauge⟩

/-- The bytes that are counted are those that are buffered, after any run. -/
theorem run_tallied (cr : Crypto) (config : Config) (idleTimeout : Duration) (limits : Limits)
    (es : List Event) : ((start config idleTimeout limits).run cr es).buffers.Tallied := by
  refine runFrom_history (P := fun _ r => Buffers.Tallied (buffers r)) ⟨rfl, rfl, rfl⟩ ?_ es
  intro es e h
  exact step_tallied cr (run_indexed cr config idleTimeout limits es) h e

end Router

/-! ## The contents of a handshake -/

/-- The datagram and the CRYPTO frames of an Initial for the handshake `key`. -/
def Event.initial (cr : Crypto) (key : SocketAddr × Bytes) :
    Event → Option (Bytes × List (ℕ × Bytes))
  | .datagram _ peer packet =>
    match decryptInitialPacket cr packet with
    | .error _ => none
    | .ok decrypted =>
      match readCryptoFrames decrypted.payload with
      | .error _ => none
      | .ok frames =>
        if (normalizeSocketAddr peer, decrypted.dcid) = key then some (packet, frames) else none
  | _ => none

/-- The Initials of a handshake are the datagrams that decrypt to its CID. -/
theorem Event.initial_eq_some {cr : Crypto} {key : SocketAddr × Bytes} {e : Event}
    {packet : Bytes} {frames : List (ℕ × Bytes)} (h : e.initial cr key = some (packet, frames)) :
    ∃ io peer decrypted, e = .datagram io peer packet ∧
      decryptInitialPacket cr packet = .ok decrypted ∧
      readCryptoFrames decrypted.payload = .ok frames ∧
      (normalizeSocketAddr peer, decrypted.dcid) = key := by
  unfold Event.initial at h
  split at h
  · rename_i io peer packet'
    split at h
    · cases h
    rename_i decrypted hdecrypt
    split at h
    · cases h
    rename_i frames' hframes
    split at h
    · rename_i hkey
      cases h
      exact ⟨io, peer, decrypted, rfl, hdecrypt, hframes, hkey⟩
    · cases h
  · cases h

/-- The handshake holds exactly the Initials `items`. -/
structure Collects (key : SocketAddr × Bytes) (items : List (Bytes × List (ℕ × Bytes)))
    (pending : PendingConnection) : Prop where
  client : normalizeSocketAddr pending.clientAddr = key.1
  dcid : pending.initialDcid = key.2
  datagrams : pending.datagrams = items.map Prod.fst
  bytes : pending.bufferedBytes = (items.map fun i => i.1.length).sum
  cids : pending.clientCids.size ≤ items.length
  crypto : CryptoReassembly.empty.insertFrames (items.flatMap Prod.snd) = (pending.crypto, true)

theorem CryptoReassembly.insertFrames_append {c c' : CryptoReassembly}
    {fs : List (ℕ × Bytes)} (h : c.insertFrames fs = (c', true)) (gs : List (ℕ × Bytes)) :
    c.insertFrames (fs ++ gs) = c'.insertFrames gs := by
  induction fs generalizing c with
  | nil =>
    cases h
    rfl
  | cons f fs ih =>
    obtain ⟨offset, data⟩ := f
    simp only [insertFrames, List.cons_append] at h ⊢
    split at h
    · cases h
    · exact ih h

theorem collects_new {key : SocketAddr × Bytes} {peer : SocketAddr}
    (hkey : key.1 = normalizeSocketAddr peer) (now : Instant) :
    Collects key [] (PendingConnection.new peer key.2 now) :=
  ⟨hkey.symm, rfl, rfl, rfl, le_refl _, rfl⟩

/-- One more Initial whose frames are all taken. -/
theorem Collects.buffered {key : SocketAddr × Bytes} {items : List (Bytes × List (ℕ × Bytes))}
    {pending : PendingConnection} (h : Collects key items pending) (packet scid : Bytes)
    {frames : List (ℕ × Bytes)} (htaken : (pending.crypto.insertFrames frames).2 = true)
    (now : Instant) :
    Collects key (items ++ [(packet, frames)]) (pending.buffered packet scid frames now) := by
  refine ⟨h.client, h.dcid, ?_, ?_, ?_, ?_⟩
  · simp [PendingConnection.buffered, h.datagrams]
  · simp [PendingConnection.buffered, h.bytes]
  · have hcids := h.cids
    have hinsert := HashSet.size_insert_le pending.clientCids scid
    simp only [PendingConnection.buffered, List.length_append, List.length_singleton]
    split <;> omega
  · rw [List.flatMap_append, CryptoReassembly.insertFrames_append h.crypto]
    simp only [List.flatMap_cons, List.flatMap_nil, List.append_nil, PendingConnection.buffered]
    exact Prod.ext rfl htaken

namespace Router

/-- Every pending handshake was collected from Initials among the events `es`. -/
def AllCollected (cr : Crypto) (es : List Event) (r : Router) : Prop :=
  ∀ key pending, r.pending.lookup key = some pending →
    ∃ items, items.Sublist (es.filterMap (Event.initial cr key)) ∧ Collects key items pending

/-- The entry of a handshake has collected some of its Initials, in their order. -/
theorem entry_collects {cr : Crypto} {es : List Event} {r : Router} (h : AllCollected cr es r)
    {key : SocketAddr × Bytes} {peer : SocketAddr} (hkey : key.1 = normalizeSocketAddr peer)
    (now : Instant) :
    ∃ items, items.Sublist (es.filterMap (Event.initial cr key)) ∧
      Collects key items (r.entry key peer now) := by
  unfold entry
  cases hlook : r.pending.lookup key with
  | none => exact ⟨[], List.nil_sublist _, collects_new hkey now⟩
  | some pending => exact h key pending hlook

/-- The entry of a handshake with the Initial that just arrived. -/
theorem buffered_collects {cr : Crypto} {es : List Event} {r : Router}
    (h : AllCollected cr es r) (io : Io) {peer : SocketAddr} {packet : Bytes}
    {decrypted : DecryptedInitial} {frames : List (ℕ × Bytes)} {key : SocketAddr × Bytes}
    (hkey : key = (normalizeSocketAddr peer, decrypted.dcid))
    (hdecrypt : decryptInitialPacket cr packet = .ok decrypted)
    (hframes : readCryptoFrames decrypted.payload = .ok frames)
    (htaken : ((r.entry key peer io.now₁).crypto.insertFrames frames).2 = true) :
    ∃ items, items.Sublist
        ((es ++ [Event.datagram io peer packet]).filterMap (Event.initial cr key)) ∧
      Collects key items
        ((r.entry key peer io.now₁).buffered packet decrypted.scid frames io.now₁) ∧
      ∃ before, items = before ++ [(packet, frames)] := by
  obtain ⟨items, hsub, hitems⟩ := entry_collects h (congrArg Prod.fst hkey) io.now₁
  have hinitial : Event.initial cr key (.datagram io peer packet) = some (packet, frames) := by
    simp only [Event.initial, hdecrypt, hframes, hkey, if_true]
  refine ⟨_, ?_, hitems.buffered packet decrypted.scid htaken io.now₁, items, rfl⟩
  rw [List.filterMap_append, List.filterMap_cons_some hinitial, List.filterMap_nil]
  exact hsub.append (List.Sublist.refl _)

theorem AllCollected.append {cr : Crypto} {es : List Event} {r : Router}
    (h : AllCollected cr es r) (e : Event) : AllCollected cr (es ++ [e]) r := by
  intro key pending hlook
  obtain ⟨items, hsub, hitems⟩ := h key pending hlook
  refine ⟨items, hsub.trans ?_, hitems⟩
  rw [List.filterMap_append]
  exact List.sublist_append_left ..

/-- Handshakes that are still there are what they were. -/
theorem AllCollected.of_lookup {cr : Crypto} {es : List Event} {r r' : Router}
    (h : AllCollected cr es r)
    (hlook : ∀ key pending, r'.pending.lookup key = some pending →
      r.pending.lookup key = some pending) : AllCollected cr es r' :=
  fun key pending hp => h key pending (hlook key pending hp)

/-- One step keeps what every handshake has collected. -/
theorem step_collected (cr : Crypto) {es : List Event} {r : Router} (hr : r.paths.Indexed)
    (h : AllCollected cr es r) (e : Event) : AllCollected cr (es ++ [e]) (r.step cr e) := by
  cases e with
  | datagram io peer packet =>
    have heffect := (handleDatagram_effect cr io hr peer packet).buffersEffect
    generalize hb : (r.handleDatagram cr io peer packet).router.buffers = b at heffect
    have hpending : (r.step cr (.datagram io peer packet)).pending = b.pending :=
      congrArg Buffers.pending hb
    cases heffect with
    | same => exact (h.append _).of_lookup (fun key pending hp => by rwa [hpending] at hp)
    | @release decrypted frames key labels hkey hdecrypt hframes hlabels =>
      refine (h.append _).of_lookup fun key' pending hp => ?_
      rw [hpending] at hp
      have hp : (r.pending.erase key).lookup key' = some pending := hp
      rw [Table.lookup_erase] at hp
      split at hp
      · cases hp
      · exact hp
    | @wait decrypted frames key hkey hdecrypt hframes haccepts =>
      intro key' pending hp
      rw [hpending] at hp
      have hp : (r.pending.insert key ((r.entry key peer io.now₁).buffered packet decrypted.scid
          frames io.now₁)).lookup key' = some pending := hp
      -- only the entry of this handshake has grown, by this datagram
      rw [Table.lookup_insert] at hp
      split at hp
      · rename_i hkey'
        cases hp
        subst hkey'
        obtain ⟨items, hsub, hitems, -⟩ :=
          buffered_collects h io hkey hdecrypt hframes haccepts.taken
        exact ⟨items, hsub, hitems⟩
      · exact h.append _ key' pending hp
  | backend io k packet =>
    have hb := (handleBackendDatagram_effect cr io hr k packet).buffers
    have hpending : (r.step cr (.backend io k packet)).pending = r.pending :=
      congrArg Buffers.pending hb
    exact (h.append _).of_lookup (fun key pending hp => by rwa [hpending] at hp)
  | cleanup now =>
    have hb := (cleanup_cleans hr now).buffers
    have hpending : (r.step cr (.cleanup now)).pending = (r.buffers.expire now).pending :=
      congrArg Buffers.pending hb
    refine (h.append _).of_lookup fun key pending hp => ?_
    rw [hpending] at hp
    exact (Table.lookup_retain_eq_some.mp hp).1
  | setConfig config => exact h.append _

/-- **Provenance of handshakes.** In every run, what is buffered for a handshake is what its
client sent for it. -/
theorem run_collected (cr : Crypto) (config : Config) (idleTimeout : Duration) (limits : Limits)
    (es : List Event) : AllCollected cr es ((start config idleTimeout limits).run cr es) := by
  refine runFrom_history (P := fun es r => AllCollected cr es r) ?_ ?_ es
  · intro key pending hlook
    cases hlook
  · intro es e h
    exact step_collected cr (run_indexed cr config idleTimeout limits es) h e

end Router

end SniRouter
