import SniRouter.H3.Handshakes

/-!
# Resource bounds

Whatever clients and backends send, the tables stay within the limits of the command line,
and limits only refuse: no datagram makes the router forget a connection or a registered
connection ID.
-/

namespace SniRouter

/-! ## Buffers -/

/-- The limits on the handshake buffers and on the labels of the metrics. -/
structure Buffers.WithinLimits (b : Buffers) : Prop where
  handshakes : b.pending.size ≤ b.limits.maxPendingHandshakes
  bytes : b.pendingBytes ≤ b.limits.maxPendingBytes
  datagrams : ∀ key p, b.pending.lookup key = some p → p.datagrams.length ≤ maxPendingDatagrams
  entryBytes : ∀ key p, b.pending.lookup key = some p → p.bufferedBytes ≤ maxPendingBytes
  labels : b.sniMetricLabels.size ≤ maxSniMetricLabels
  labelBytes : ∀ name ∈ b.sniMetricLabels, name.length ≤ maxSniMetricLabelBytes

namespace Buffers.WithinLimits

variable {b : Buffers}

/-- A part of the handshakes, with a smaller byte count. -/
theorem shrink (h : b.WithinLimits) {b' : Buffers} (hlimits : b'.limits = b.limits)
    (hsize : b'.pending.size ≤ b.pending.size) (hbytes : b'.pendingBytes ≤ b.pendingBytes)
    (hlook : ∀ key p, b'.pending.lookup key = some p → b.pending.lookup key = some p)
    (hlabels : Router.LabelsGrow b.sniMetricLabels b'.sniMetricLabels) : b'.WithinLimits := by
  refine ⟨hlimits ▸ hsize.trans h.handshakes, hlimits ▸ hbytes.trans h.bytes,
    fun key p hp => h.datagrams key p (hlook key p hp),
    fun key p hp => h.entryBytes key p (hlook key p hp), ?_, ?_⟩
  · rcases hlabels with heq | ⟨name, heq, -, hmem | hroom⟩
    · exact heq ▸ h.labels
    · rw [heq, HashSet.size_insert_of_mem hmem]
      exact h.labels
    · rw [heq]
      exact (HashSet.size_insert_le _ name).trans hroom
  · intro name' hname'
    rcases hlabels with heq | ⟨name, heq, hshort, -⟩
    · exact h.labelBytes name' (heq ▸ hname')
    · rw [heq, HashSet.mem_insert] at hname'
      rcases hname' with rfl | hold
      · exact hshort
      · exact h.labelBytes name' hold

/-- Dropping handshakes keeps the limits. -/
theorem expire (h : b.WithinLimits) (now : Instant) : (b.expire now).WithinLimits := by
  refine h.shrink rfl ?_ (Nat.sub_le ..) (fun key p hp => ?_) (Or.inl rfl)
  · have hsum := Table.total_retain_add (fun _ _ => 1) (fun _ p => b.keeps now p) b.pending
    rw [← Table.size_eq_total, ← Table.size_eq_total] at hsum
    simp only [Buffers.expire]
    omega
  · exact (Table.lookup_retain_eq_some.mp hp).1

end Buffers.WithinLimits

namespace Router

/-- A datagram of a client keeps them, as each is checked before it could be exceeded. -/
theorem BuffersEffect.withinLimits {cr : Crypto} {io : Io} {r : Router} {peer : SocketAddr}
    {packet : Bytes} {b : Buffers} (h : BuffersEffect cr io r peer packet b)
    (hr : r.buffers.WithinLimits) : b.WithinLimits := by
  cases h with
  | same => exact hr
  | @release decrypted frames key labels hkey hdecrypt hframes hlabels =>
    refine hr.shrink rfl (Table.size_erase_le ..) (Nat.sub_le ..) (fun key' p hp => ?_) hlabels
    have hp : (r.pending.erase key).lookup key' = some p := hp
    rw [Table.lookup_erase] at hp
    split at hp
    · cases hp
    · exact hp
  | @wait decrypted frames key hkey hdecrypt hframes haccepts =>
    -- an entry is the buffered one or one from before
    have hlook : ∀ key' p, (r.pending.insert key ((r.entry key peer io.now₁).buffered packet
        decrypted.scid frames io.now₁)).lookup key' = some p →
        p = (r.entry key peer io.now₁).buffered packet decrypted.scid frames io.now₁ ∨
          r.pending.lookup key' = some p := by
      intro key' p hp
      rw [Table.lookup_insert] at hp
      split at hp
      · cases hp
        exact Or.inl rfl
      · exact Or.inr hp
    refine ⟨?_, haccepts.bytes, fun key' p hp => ?_, fun key' p hp => ?_, hr.labels,
      hr.labelBytes⟩
    · show (r.pending.insert key _).size ≤ r.limits.maxPendingHandshakes
      cases hold : r.pending.lookup key with
      | none =>
        rw [Table.size_insert_of_lookup_none _ hold]
        exact haccepts.handshakes hold
      | some p =>
        rw [Table.size_insert_of_lookup_some _ hold]
        exact hr.handshakes
    · rcases hlook key' p hp with rfl | hold
      · simp only [PendingConnection.buffered, List.length_append, List.length_singleton]
        exact haccepts.datagrams
      · exact hr.datagrams key' p hold
    · rcases hlook key' p hp with rfl | hold
      · exact haccepts.entryBytes
      · exact hr.entryBytes key' p hold

/-- Every step keeps them. -/
theorem step_withinLimits (cr : Crypto) {r : Router} (hr : r.paths.Indexed)
    (h : r.buffers.WithinLimits) (e : Event) : (r.step cr e).buffers.WithinLimits := by
  have hcounted : ∀ r' : Router, r'.limits = r.limits → r'.pending = r.pending →
      r'.pendingBytes = r.pendingBytes → r'.sniMetricLabels = r.sniMetricLabels →
      r'.buffers.WithinLimits := fun r' hl hp hb hs =>
    h.shrink hl (by simp [buffers, hp]) (by simp [buffers, hb])
      (fun key p hlook => by rwa [show r'.buffers.pending = _ from hp] at hlook)
      (Or.inl hs)
  cases e with
  | datagram io peer packet =>
    exact (handleDatagram_effect cr io hr peer packet).buffersEffect.withinLimits
      (hcounted _ rfl rfl rfl rfl)
  | backend io k packet =>
    rw [show (r.step cr (.backend io k packet)).buffers = _ from
      (handleBackendDatagram_effect cr io hr k packet).buffers]
    exact hcounted _ rfl rfl rfl rfl
  | cleanup now =>
    rw [show (r.step cr (.cleanup now)).buffers = _ from (cleanup_cleans hr now).buffers]
    exact h.expire now
  | setConfig config => exact hcounted _ rfl rfl rfl rfl

/-! ## Paths -/

/-- A path is opened only below the limit of paths. -/
theorem EstablishEffect.size_le {io : Io} {r : Router} {pending : PendingConnection}
    {route : Route} {reply : Reply} (h : EstablishEffect io r pending route reply)
    (hr : r.connections.size ≤ r.limits.maxPaths) :
    reply.router.connections.size ≤ r.limits.maxPaths := by
  cases h with
  | refuse hdrops => exact hdrops.size ▸ hr
  | share hroute hc hclient hupstream hlive hacts => exact hacts.size ▸ hr
  | fail hroute => exact hr
  | create hroute hupstream hroom hopens => exact hopens.size ▸ hroom

theorem ClientEffect.size_le {cr : Crypto} {io : Io} {r : Router} {peer : SocketAddr}
    {packet : Bytes} {reply : Reply} (h : ClientEffect cr io r peer packet reply)
    (hr : r.connections.size ≤ r.limits.maxPaths) :
    reply.router.connections.size ≤ r.limits.maxPaths := by
  cases h with
  | drop reason => exact hr
  | forward hc hpeer hlive hacts => exact hacts.size ▸ hr
  | tooLong => exact hr
  | decoded hlong haddr heffect => exact heffect.size_le hr
  | initial hdecrypt hframes hfree hlb heffect =>
    cases heffect with
    | drop reason hrefused => exact hr
    | discard hrefused hreleases => exact hreleases.size ▸ hr
    | wait haccepts hhello => exact hr
    | unroutable haccepts hhello hreleases hroute => exact hreleases.size ▸ hr
    | routed haccepts hhello hreleases hroute heffect =>
      have hr₁ := heffect.size_le (hreleases.limits ▸ hreleases.size ▸ hr)
      exact hreleases.limits ▸ hr₁

theorem BackendEffect.size_eq {io : Io} {r : Router} {k : ℕ} {packet : Bytes} {reply : Reply}
    (h : BackendEffect io r k packet reply) :
    reply.router.connections.size = r.connections.size := by
  cases h with
  | drop reason => rfl
  | fail hc hlive hacts => exact hacts.size
  | reply hc hlive hdest hacts => exact hacts.size

/-- The limits on the paths. -/
structure PathsWithin (limits : Limits) (r : Router) : Prop where
  size : r.connections.size ≤ limits.maxPaths
  cids : ∀ k c, r.connections.lookup k = some c → c.cids.size ≤ limits.maxCidsPerPath

/-- Every step keeps the limits of paths and of the CIDs of a path. -/
theorem step_pathsWithin (cr : Crypto) {r : Router} (hr : r.paths.Indexed)
    (h : PathsWithin r.limits r) (e : Event) : PathsWithin r.limits (r.step cr e) := by
  cases e with
  | cleanup now =>
    have hcleans := cleanup_cleans hr now
    exact ⟨hcleans.size.trans h.size, fun k c hc => h.cids k c ((hcleans.conn k c).mp hc).1⟩
  | datagram io peer packet =>
    have heffect := handleDatagram_effect cr io hr peer packet
    obtain ⟨k, hroutes⟩ := heffect.routes
    exact ⟨heffect.size_le h.size, PathSteps.cids_size_le hroutes.steps h.cids⟩
  | backend io k packet =>
    have heffect := handleBackendDatagram_effect cr io hr k packet
    obtain ⟨j, hroutes⟩ := heffect.routes
    exact ⟨heffect.size_eq ▸ h.size, PathSteps.cids_size_le hroutes.steps h.cids⟩
  | setConfig config => exact ⟨h.size, h.cids⟩

/-! ## Whole runs -/

end Router

/-- The limits on one pending handshake. -/
structure PendingConnection.Bounded (p : PendingConnection) : Prop where
  count : p.datagrams.length ≤ 32
  bytes : p.bufferedBytes = (p.datagrams.map List.length).sum
  bytes_le : p.bufferedBytes ≤ 131072
  cids : p.clientCids.size ≤ p.datagrams.length
  fragments : p.crypto.fragments.size ≤ 128
  held : p.crypto.bytes.length + (p.crypto.fragments.total fun _ d => d.length) ≤
    p.bufferedBytes

/-- A datagram, from a client or a backend. -/
def Event.isDatagram : Event → Bool
  | .datagram .. | .backend .. => true
  | .cleanup _ | .setConfig _ => false

/-- AEAD opening does not lengthen what it is given. -/
def Crypto.OpenShrinks (cr : Crypto) : Prop :=
  ∀ key nonce associatedData ciphertext payload,
    cr.openInPlace key nonce associatedData ciphertext = some payload →
      payload.length ≤ ciphertext.length

/-- The CRYPTO frames of an Initial are no longer than the Initial. -/
theorem initial_frames_length {cr : Crypto} (hcr : cr.OpenShrinks) {key : SocketAddr × Bytes}
    {e : Event} {packet : Bytes} {frames : List (ℕ × Bytes)}
    (h : e.initial cr key = some (packet, frames)) :
    (frames.map fun f => f.2.length).sum ≤ packet.length := by
  obtain ⟨-, -, decrypted, -, hdecrypt, hframes, -⟩ := Event.initial_eq_some h
  obtain ⟨-, _, _, _, ciphertext, hopen, hle⟩ := decryptInitialPacketWithDcid_ok hdecrypt
  calc (frames.map fun f => f.2.length).sum
      ≤ decrypted.payload.length := readCryptoFrames_length hframes
    _ ≤ ciphertext.length := hcr _ _ _ _ _ hopen
    _ ≤ packet.length := hle

/-- What is collected from a run is bounded by the datagrams it was collected from. -/
theorem Collects.memory {cr : Crypto} (hcr : cr.OpenShrinks) {es : List Event}
    {key : SocketAddr × Bytes} {items : List (Bytes × List (ℕ × Bytes))}
    {p : PendingConnection} (h : Collects key items p)
    (hsub : items.Sublist (es.filterMap (Event.initial cr key))) :
    p.crypto.held ≤ p.bufferedBytes ∧ p.crypto.fragments.size ≤ maxCryptoFragments := by
  have hmem := CryptoReassembly.insertFrames_memory h.crypto (Nat.zero_le _)
  have hframes : ((items.flatMap Prod.snd).map fun f => f.2.length).sum ≤
      (items.map fun i => i.1.length).sum := by
    rw [List.map_flatMap, List.flatMap, List.sum_flatten, List.map_map]
    refine List.sum_le_sum fun i hi => ?_
    obtain ⟨e, -, he⟩ := List.mem_filterMap.mp (hsub.subset hi)
    exact initial_frames_length hcr he
  rw [h.bytes]
  exact ⟨hmem.1.trans (by simpa [CryptoReassembly.held, CryptoReassembly.empty] using hframes),
    hmem.2⟩

namespace Router

/-- The limits on everything a router keeps. -/
structure Bounded (limits : Limits) (r : Router) : Prop where
  paths : r.connections.size ≤ limits.maxPaths
  cids : ∀ k c, r.connections.lookup k = some c → c.cids.size ≤ limits.maxCidsPerPath
  handshakes : r.pending.size ≤ limits.maxPendingHandshakes
  bytes : r.pendingBytes = r.pending.total fun _ p => p.bufferedBytes
  datagrams : r.pendingBytes = r.pending.total fun _ p => (p.datagrams.map List.length).sum
  bytes_le : r.pendingBytes ≤ limits.maxPendingBytes
  /-- `remove_pending` does not underflow. -/
  remove : ∀ key p, r.pending.lookup key = some p → p.bufferedBytes ≤ r.pendingBytes
  /-- `cleanup` does not underflow. -/
  cleanup : ∀ now, ((r.buffers.timedOut now).map fun p => p.bufferedBytes).sum ≤ r.pendingBytes
  entry : ∀ key p, r.pending.lookup key = some p → p.Bounded
  labels : r.sniMetricLabels.size ≤ 1024
  labelBytes : ∀ name ∈ r.sniMetricLabels, name.length ≤ 255

theorem start_withinLimits (config : Config) (idleTimeout : Duration) (limits : Limits) :
    (start config idleTimeout limits).buffers.WithinLimits ∧
      PathsWithin limits (start config idleTimeout limits) := by
  refine ⟨⟨Nat.zero_le _, Nat.zero_le _, ?_, ?_, Nat.zero_le _, ?_⟩, ⟨Nat.zero_le _, ?_⟩⟩
  · intro key p hp
    cases hp
  · intro key p hp
    cases hp
  · intro name hname
    cases hname
  · intro k c hc
    cases hc

/-- The limits hold after any run. -/
theorem run_withinLimits (cr : Crypto) (config : Config) (idleTimeout : Duration)
    (limits : Limits) (es : List Event) :
    ((start config idleTimeout limits).run cr es).buffers.WithinLimits ∧
      PathsWithin limits ((start config idleTimeout limits).run cr es) := by
  refine runFrom_history (P := fun _ r => Buffers.WithinLimits (buffers r) ∧ PathsWithin limits r)
    (start_withinLimits config idleTimeout limits) ?_ es
  rintro es e ⟨hbuffers, hpaths⟩
  have hr := run_indexed cr config idleTimeout limits es
  have hlimits : ((start config idleTimeout limits).run cr es).limits = limits :=
    (run_settings cr config idleTimeout limits es).1
  refine ⟨step_withinLimits cr hr hbuffers e, ?_⟩
  have hstep := step_pathsWithin cr hr (e := e) (by rw [hlimits]; exact hpaths)
  rw [hlimits] at hstep
  exact hstep

/-- **Resource bounds.** Every reachable state is within the limits, and no datagram removes
a connection or takes a connection ID away from its owner. -/
theorem run_bounded (cr : Crypto) (hcr : cr.OpenShrinks) (config : Config)
    (idleTimeout : Duration) (limits : Limits) (es : List Event) :
    let r := (start config idleTimeout limits).run cr es
    Bounded limits r ∧
      ∀ e, e.isDatagram →
        (∀ k c, r.connections.lookup k = some c →
          ∃ c', (r.step cr e).connections.lookup k = some c') ∧
        ∀ cid k, r.cidRoutes.get cid = some k → (r.step cr e).cidRoutes.get cid = some k := by
  intro r
  have hr : r.paths.Indexed := run_indexed cr config idleTimeout limits es
  have hlimits : r.limits = limits := (run_settings cr config idleTimeout limits es).1
  have htally : r.buffers.Tallied := run_tallied cr config idleTimeout limits es
  obtain ⟨hbuffers, hpaths⟩ := run_withinLimits cr config idleTimeout limits es
  have hcollected := run_collected cr config idleTimeout limits es
  -- an entry is bounded by the Initials it was collected from
  have hentry : ∀ key p, r.pending.lookup key = some p → p.Bounded := by
    intro key p hp
    obtain ⟨items, hsub, hitems⟩ := hcollected key p hp
    obtain ⟨hheld, hfragments⟩ := hitems.memory hcr hsub
    have hdatagrams := hitems.datagrams
    refine ⟨hbuffers.datagrams key p hp, ?_, hbuffers.entryBytes key p hp, ?_, hfragments, hheld⟩
    · rw [hitems.bytes, hdatagrams, List.map_map]
      rfl
    · rw [hdatagrams, List.length_map]
      exact hitems.cids
  refine ⟨⟨hpaths.size, hpaths.cids, hlimits ▸ hbuffers.handshakes, htally.bytes, ?_,
    hlimits ▸ hbuffers.bytes, fun key p hp => ?_, fun now => ?_, hentry, hbuffers.labels,
    hbuffers.labelBytes⟩, fun e he => ?_⟩
  · exact (show r.pendingBytes = _ from htally.bytes).trans
      (Table.total_congr fun key p hp => (hentry key p hp).bytes)
  · exact (Table.le_total (f := fun _ p => p.bufferedBytes) hp).trans_eq htally.bytes.symm
  · have hsum := Table.total_retain_add (fun _ p => PendingConnection.bufferedBytes p)
      (fun _ p => r.buffers.keeps now p) r.pending
    have hb : r.pendingBytes = _ := htally.bytes
    simp only [Buffers.timedOut, List.map_map, Function.comp_def] at hsum hb ⊢
    simp only [buffers] at hsum hb ⊢
    omega
  · obtain ⟨k, hroutes⟩ := handle_routes cr hr (e := e) (by rintro now rfl; cases he)
    refine ⟨fun j c hc => ?_, fun cid j hget => PathSteps.owner_of_some hroutes.steps hget⟩
    obtain ⟨c', hc', -⟩ := PathSteps.conn_isSome hroutes.steps hr hc
    exact ⟨c', hc'⟩

theorem sampleCrypto_openShrinks : sampleCrypto.OpenShrinks := by
  have hall : ∀ entry ∈ sampleOpened, entry.2.length ≤ entry.1.2.2.2.length := by decide +kernel
  intro key nonce associatedData ciphertext payload h
  obtain ⟨before, after, hsplit, -⟩ := List.lookup_eq_some_iff.mp h
  exact hall ((key, nonce, associatedData, ciphertext), payload) (by simp [hsplit])

/-- A handshake is pending that is not complete. -/
theorem run_bounded_sample : sampleCrypto.OpenShrinks ∧
    Bounded .default ((start sampleConfig 60 .default).run sampleCrypto
      [.datagram (sampleIo 0) samplePeer tailPacket]) :=
  ⟨sampleCrypto_openShrinks,
    (run_bounded sampleCrypto sampleCrypto_openShrinks sampleConfig 60 .default
      [.datagram (sampleIo 0) samplePeer tailPacket]).1⟩

end Router

end SniRouter
