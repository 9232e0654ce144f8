import SniRouter.H3.Similar
import SniRouter.H3.Indexes

/-!
# The order of hash maps does not matter

`Router.Similar` is a bisimulation: in similar states every event is handled with the same
datagrams handed to the same sockets and the same outcome, and the states it leaves are similar
again. Whatever the hash maps do between two events, the router is a function of what it was
sent.
-/

namespace SniRouter

/-! ## Pending handshakes -/

/-- A datagram is buffered in both handshakes, or in neither. -/
theorem PendingConnection.Similar.pushDatagram {p p' : PendingConnection} (h : p.Similar p')
    (datagram : Bytes) :
    (∃ e, p.pushDatagram datagram = .error e ∧ p'.pushDatagram datagram = .error e) ∨
      ∃ q q', p.pushDatagram datagram = .ok q ∧ p'.pushDatagram datagram = .ok q' ∧
        q.Similar q' := by
  unfold PendingConnection.pushDatagram
  rw [h.datagrams, h.bufferedBytes]
  split
  · exact Or.inl ⟨_, rfl, rfl⟩
  split
  · exact Or.inl ⟨_, rfl, rfl⟩
  · exact Or.inr ⟨_, _, rfl, rfl, { h with datagrams := rfl, bufferedBytes := rfl }⟩

namespace Router

/-! Buffering an Initial leaves the paths alone. -/

theorem toPathTables_pendingEntry (r : Router) (key : SocketAddr × Bytes) (peer : SocketAddr)
    (now : Instant) : (r.pendingEntry key peer now).2.toPathTables = r.toPathTables := by
  unfold pendingEntry
  split
  · rfl
  · rfl

theorem toPathTables_progress (r : Router) (key : SocketAddr × Bytes) (peer : SocketAddr)
    (packet scid : Bytes) (frames : List (ℕ × Bytes)) (now : Instant) :
    (r.progress key peer packet scid frames now).1.toPathTables = r.toPathTables := by
  have hentry := toPathTables_pendingEntry r key peer now
  unfold progress
  generalize r.pendingEntry key peer now = entry at hentry ⊢
  obtain ⟨pending, s⟩ := entry
  dsimp only at hentry ⊢
  split
  · exact hentry
  split
  · exact hentry
  split
  · exact hentry
  · exact hentry
  · exact hentry

theorem toPathTables_recordSni (r : Router) (sni : Option Bytes) :
    (r.recordSni sni).toPathTables = r.toPathTables := by
  unfold recordSni
  dsimp only
  split
  · split
    · split
      · rfl
      · rfl
    · rfl
  · rfl

theorem toPathTables_removePending (r : Router) (key : SocketAddr × Bytes) :
    (r.removePending key).2.toPathTables = r.toPathTables := by
  unfold removePending
  split
  · rfl
  · rfl

end Router

namespace Router.Similar

variable {r r' : Router}

theorem setPending (h : r.Similar r') (key : SocketAddr × Bytes) {p p' : PendingConnection}
    (hp : p.Similar p') : (r.setPending key p).Similar (r'.setPending key p') :=
  { h with pending := h.pending.insert key hp }

theorem pendingEntry (h : r.Similar r') (key : SocketAddr × Bytes) (peer : SocketAddr)
    (now : Instant) :
    (r.pendingEntry key peer now).1.Similar (r'.pendingEntry key peer now).1 ∧
      (r.pendingEntry key peer now).2.Similar (r'.pendingEntry key peer now).2 := by
  unfold Router.pendingEntry
  rcases h.pending.cases key with ⟨hnone, hnone'⟩ | ⟨p, p', hp, hp', hpp'⟩
  · simp only [hnone, hnone']
    exact ⟨.refl _, { h with
      metrics := { h.metrics with pending := congrArg (· + 1) h.metrics.pending } }⟩
  · simp only [hp, hp']
    exact ⟨hpp', h⟩

theorem removePending (h : r.Similar r') (key : SocketAddr × Bytes) :
    Option.Rel PendingConnection.Similar (r.removePending key).1 (r'.removePending key).1 ∧
      (r.removePending key).2.Similar (r'.removePending key).2 := by
  unfold Router.removePending
  rcases h.pending.cases key with ⟨hnone, hnone'⟩ | ⟨p, p', hp, hp', hpp'⟩
  · simp only [hnone, hnone']
    exact ⟨.none, h⟩
  · simp only [hp, hp']
    have hpending := h.pending.erase key
    have hbytes : r'.pendingBytes - p'.bufferedBytes = r.pendingBytes - p.bufferedBytes := by
      rw [h.pendingBytes, hpp'.bufferedBytes]
    exact ⟨.some hpp', { h with
      pending := hpending
      pendingBytes := hbytes
      metrics := { h.metrics with
        pending := congrArg Nat.cast hpending.size_eq.symm
        pendingBytes := congrArg Nat.cast hbytes } }⟩

/-- An Initial makes the same progress on both sides. -/
theorem progress (h : r.Similar r') (key : SocketAddr × Bytes) (peer : SocketAddr)
    (packet scid : Bytes) (frames : List (ℕ × Bytes)) (now : Instant) :
    (r.progress key peer packet scid frames now).1.Similar
        (r'.progress key peer packet scid frames now).1 ∧
      (r'.progress key peer packet scid frames now).2 =
        (r.progress key peer packet scid frames now).2 := by
  obtain ⟨hentry, hrouter⟩ := h.pendingEntry key peer now
  unfold Router.progress
  generalize r.pendingEntry key peer now = entry at hentry hrouter ⊢
  generalize r'.pendingEntry key peer now = entry' at hentry hrouter ⊢
  obtain ⟨p, s⟩ := entry
  obtain ⟨p', s'⟩ := entry'
  dsimp only at hentry hrouter ⊢
  rcases hentry.pushDatagram packet with ⟨e, he, he'⟩ | ⟨q, q', hq, hq', hqq'⟩
  · simp only [he, he']
    exact ⟨hrouter.setPending key hentry, trivial⟩
  simp only [hq, hq', hqq'.crypto]
  have hbytes : s'.pendingBytes + packet.length = s.pendingBytes + packet.length := by
    rw [hrouter.pendingBytes]
  have hcounted : Router.Similar
      { s with
        pendingBytes := s.pendingBytes + packet.length
        metrics := { s.metrics with pendingBytes := ((s.pendingBytes + packet.length : ℕ) : ℤ) } }
      { s' with
        pendingBytes := s'.pendingBytes + packet.length
        metrics := { s'.metrics with
          pendingBytes := ((s'.pendingBytes + packet.length : ℕ) : ℤ) } } :=
    { hrouter with
      pendingBytes := hbytes
      metrics := { hrouter.metrics with pendingBytes := congrArg Nat.cast hbytes } }
  have hcids : (if scid.isEmpty then q.clientCids else q.clientCids.insert scid).Similar
      (if scid.isEmpty then q'.clientCids else q'.clientCids.insert scid) := by
    split
    · exact hqq'.clientCids
    · exact hqq'.clientCids.insert scid
  have hseen : PendingConnection.Similar
      { q with
        lastSeen := now
        clientCids := if scid.isEmpty then q.clientCids else q.clientCids.insert scid
        crypto := (q.crypto.insertFrames frames).1 }
      { q' with
        lastSeen := now
        clientCids := if scid.isEmpty then q'.clientCids else q'.clientCids.insert scid
        crypto := (q.crypto.insertFrames frames).1 } :=
    { hqq' with lastSeen := rfl, clientCids := hcids, crypto := rfl }
  have hset := hcounted.setPending key hseen
  split
  · exact ⟨hset, rfl⟩
  split
  · exact ⟨hset, rfl⟩
  · exact ⟨hset, rfl⟩
  · exact ⟨hset, rfl⟩

/-- A name is counted under the same label. -/
theorem recordSni (h : r.Similar r') (sni : Option Bytes) :
    (r.recordSni sni).Similar (r'.recordSni sni) := by
  have hcount : ∀ {s s' : Router}, s.Similar s' → ∀ label,
      ({ s with metrics := { s.metrics with sni := incBy s.metrics.sni label 1 } } : Router).Similar
        { s' with metrics := { s'.metrics with sni := incBy s'.metrics.sni label 1 } } := by
    intro s s' hs label
    exact { hs with
      metrics := { hs.metrics with sni := lookup_incBy_related hs.metrics.sni label 1 } }
  unfold Router.recordSni
  dsimp only
  split
  · rename_i name
    rw [h.config.rules, ← h.labels.size_eq]
    split
    · by_cases hfull : name.length > maxSniMetricLabelBytes ∨
          (name ∉ r.sniMetricLabels ∧ r.sniMetricLabels.size ≥ maxSniMetricLabels)
      · rw [if_pos hfull, if_pos (by rwa [← h.labels name])]
        exact hcount h _
      · rw [if_neg hfull, if_neg (by rwa [← h.labels name])]
        have hlabel : ({ r with sniMetricLabels := r.sniMetricLabels.insert name } : Router).Similar
            { r' with sniMetricLabels := r'.sniMetricLabels.insert name } :=
          { h with labels := h.labels.insert name }
        exact hcount hlabel _
    · exact hcount h _
  · exact hcount h _

/-- An Initial is buffered, refused or completes its handshake alike. -/
theorem handleInitial (h : r.Similar r') (hr : r.paths.Indexed) (hr' : r'.paths.Indexed)
    (cr : Crypto) (io : Io) (peer : SocketAddr) (packet : Bytes) (decrypted : DecryptedInitial)
    (frames : List (ℕ × Bytes)) :
    (r.handleInitial cr io peer packet decrypted frames).Similar
      (r'.handleInitial cr io peer packet decrypted frames) := by
  unfold Router.handleInitial
  dsimp only
  generalize hkey : (normalizeSocketAddr peer, decrypted.dcid) = key
  have hnone : r'.pending.lookup key = none ↔ r.pending.lookup key = none := by
    rcases h.pending.cases key with ⟨hnone, hnone'⟩ | ⟨p, p', hp, hp', -⟩
    · simp [hnone, hnone']
    · simp [hp, hp']
  have hcount : ((r'.pending.lookup key).elim 0 fun p => p.datagrams.length) =
      (r.pending.lookup key).elim 0 fun p => p.datagrams.length := by
    rcases h.pending.cases key with ⟨hnone, hnone'⟩ | ⟨p, p', hp, hp', hpp'⟩
    · rw [hnone, hnone']
    · rw [hp, hp', Option.elim_some, Option.elim_some, hpp'.datagrams]
  rw [hcount, ← h.pending.size_eq, h.pendingBytes]
  by_cases hlimit : r.pending.lookup key = none ∧ r.pending.size ≥ r.limits.maxPendingHandshakes
  · have hlimit' : r'.pending.lookup key = none ∧
        r.pending.size ≥ r'.limits.maxPendingHandshakes := by
      rwa [hnone, h.limits]
    rw [if_pos hlimit, if_pos hlimit']
    exact .done (h.dropped .pendingHandshakeLimit 1)
  have hlimit' : ¬(r'.pending.lookup key = none ∧
      r.pending.size ≥ r'.limits.maxPendingHandshakes) := by
    rwa [hnone, h.limits]
  rw [if_neg hlimit, if_neg hlimit']
  by_cases hbytes : r.pendingBytes + packet.length > r.limits.maxPendingBytes
  · have hbytes' : r.pendingBytes + packet.length > r'.limits.maxPendingBytes := by
      rwa [h.limits]
    rw [if_pos hbytes, if_pos hbytes']
    exact .done (h.dropped .pendingBytesLimit 1)
  have hbytes' : ¬r.pendingBytes + packet.length > r'.limits.maxPendingBytes := by
    rwa [h.limits]
  rw [if_neg hbytes, if_neg hbytes']
  obtain ⟨hprogress, hresult⟩ := h.progress key peer packet decrypted.scid frames io.now₁
  have htables := r.toPathTables_progress key peer packet decrypted.scid frames io.now₁
  have htables' := r'.toPathTables_progress key peer packet decrypted.scid frames io.now₁
  generalize r.progress key peer packet decrypted.scid frames io.now₁ = made
    at hprogress hresult htables ⊢
  generalize r'.progress key peer packet decrypted.scid frames io.now₁ = made'
    at hprogress hresult htables' ⊢
  obtain ⟨s, result⟩ := made
  obtain ⟨s', result'⟩ := made'
  obtain rfl : result' = result := hresult
  dsimp only at hprogress htables htables'
  match result' with
  | .error reason => exact .done ((hprogress.removePending key).2.dropped reason _)
  | .ok none => exact .done hprogress
  | .ok (some sni) =>
    obtain ⟨htaken, hremoved⟩ := (hprogress.recordSni sni).removePending key
    -- the paths are still those of before
    have hpaths : ((s.recordSni sni).removePending key).2.paths.Indexed := by
      rw [toPathTables_removePending, toPathTables_recordSni, htables]
      exact hr
    have hpaths' : ((s'.recordSni sni).removePending key).2.paths.Indexed := by
      rw [toPathTables_removePending, toPathTables_recordSni, htables']
      exact hr'
    dsimp only
    generalize (s.recordSni sni).removePending key = removed at htaken hremoved hpaths ⊢
    generalize (s'.recordSni sni).removePending key = removed' at htaken hremoved hpaths' ⊢
    obtain ⟨taken, t⟩ := removed
    obtain ⟨taken', t'⟩ := removed'
    dsimp only at htaken hremoved hpaths hpaths'
    cases htaken with
    | none => exact .done hremoved
    | some hpp' =>
      dsimp only
      rw [hremoved.config.routeForSni]
      split
      · exact ⟨hremoved, rfl, rfl⟩
      · exact hremoved.establishAndFlush hpaths hpaths' cr io hpp' _

/-! ## Client datagrams -/

/-- A datagram without a path is handled alike. -/
theorem handleUnroutedClientDatagram (h : r.Similar r') (hr : r.paths.Indexed)
    (hr' : r'.paths.Indexed) (cr : Crypto) (io : Io) (peer : SocketAddr) (packet : Bytes)
    (long : Option LongPacketCids) :
    (r.handleUnroutedClientDatagram cr io peer packet long).Similar
      (r'.handleUnroutedClientDatagram cr io peer packet long) := by
  unfold Router.handleUnroutedClientDatagram
  split
  · exact h.forwardByPeerAffinity cr io peer packet none false
  split
  · exact h.forwardByPeerAffinity cr io peer packet _ false
  split
  · exact .done (h.dropped .unsupportedPacket 1)
  split
  · exact h.forwardByPeerAffinity cr io peer packet _ true
  split
  · exact .done (h.dropped .invalidFrames 1)
  · exact h.handleInitial hr hr' cr io peer packet _ _

/-- A datagram whose CID decodes to a server is handled alike. -/
theorem handleLbDatagram (h : r.Similar r') (hr : r.paths.Indexed) (hr' : r'.paths.Indexed)
    (cr : Crypto) (io : Io) (peer : SocketAddr) (packet : Bytes) (addr : SocketAddr) :
    (r.handleLbDatagram cr io peer packet addr).Similar
      (r'.handleLbDatagram cr io peer packet addr) := by
  unfold Router.handleLbDatagram
  rw [Table.related_eq_iff.mp h.lbPaths]
  split
  · rename_i id hid
    rcases h.connections.cases id with ⟨hnone, hnone'⟩ | ⟨c, c', hc, hc', hcc'⟩
    · simp only [hnone, hnone']
      exact ⟨h, rfl, rfl⟩
    simp only [hc, hc', h.idleTimeout, hcc'.expired]
    split
    · exact .done (h.dropped .expired 1)
    · exact h.forwardEstablishedClientDatagram cr io id peer packet none
  · split
    · exact ⟨h, rfl, rfl⟩
    · rw [h.config.maxLifetime]
      exact h.establishAndFlush hr hr' cr io (.refl _) _

/-- A datagram of a client is handled alike, on each of its ways. -/
theorem handleDatagram (h : r.Similar r') (hr : r.paths.Indexed) (hr' : r'.paths.Indexed)
    (cr : Crypto) (io : Io) (peer : SocketAddr) (packet : Bytes) :
    (r.handleDatagram cr io peer packet).Similar (r'.handleDatagram cr io peer packet) := by
  unfold Router.handleDatagram
  replace h := h.receivedClient packet.length
  replace hr : (r.receivedClient packet.length).paths.Indexed := hr
  replace hr' : (r'.receivedClient packet.length).paths.Indexed := hr'
  generalize r.receivedClient packet.length = r at h hr ⊢
  generalize r'.receivedClient packet.length = r' at h hr' ⊢
  dsimp only
  rw [h.packetConnectionId]
  split
  · exact .done (h.dropped .malformed 1)
  split
  · exact .done (h.dropped .malformed 1)
  rename_i long connId hid
  have hlb : r'.config.lbBackend cr = r.config.lbBackend cr := funext (h.config.lbBackend cr)
  rw [hlb]
  split
  · exact h.handleLbDatagram hr hr' cr io peer packet _
  split
  · exact h.handleUnroutedClientDatagram hr hr' cr io peer packet long
  rename_i id
  rcases h.connections.cases id with ⟨hnone, hnone'⟩ | ⟨c, c', hc, hc', hcc'⟩
  · simp only [hnone, hnone']
    exact .done h
  simp only [hc, hc', hcc'.clientAddr]
  split
  · exact h.forwardEstablishedClientDatagram cr io id peer packet long
  · exact .done (h.dropped .unexpectedPeer 1)

end Router.Similar

/-! ## Cleanup -/

/-- Counting several times under one label. -/
theorem lookup_foldl_incBy {L : Type} [DecidableEq L] (label : L) (counts : List ℕ)
    (counters : Table L ℕ) (l : L) :
    (counts.foldl (fun counters count => incBy counters label count) counters).lookup l =
      if l = label ∧ counts ≠ [] then some ((counters.lookup label).getD 0 + counts.sum)
      else counters.lookup l := by
  induction counts generalizing counters with
  | nil => simp
  | cons count counts ih =>
    rw [List.foldl_cons, ih]
    by_cases hl : l = label
    · subst hl
      cases counts with
      | nil => simp [incBy]
      | cons count' counts => simp [incBy, Nat.add_assoc]
    · simp [hl, incBy, Table.lookup_insert]

namespace Router

/-- Forgetting connections changes the gauge of the paths only. -/
theorem metrics_foldl_forget (ids : List ℕ) (r : Router) :
    ∃ n, (ids.foldl forget r).metrics = { r.metrics with activePaths := n } := by
  induction ids generalizing r with
  | nil => exact ⟨r.metrics.activePaths, rfl⟩
  | cons id ids ih =>
    obtain ⟨n, hn⟩ := ih (r.forget id)
    refine ⟨n, ?_⟩
    rw [List.foldl_cons, hn]
    unfold forget
    split
    · rfl
    · rfl

/-- The datagrams of dropped handshakes are counted one handshake after the other. -/
theorem metrics_foldl_dropPending (ps : List PendingConnection) (r : Router) :
    (ps.foldl dropPending r).metrics = { r.metrics with
      drops := (ps.map fun p => p.datagrams.length).foldl
        (fun counters count => incBy counters .pendingTimeout count) r.metrics.drops } := by
  induction ps generalizing r with
  | nil => rfl
  | cons p ps ih =>
    rw [List.foldl_cons, ih]
    rfl

/-- What a cleanup does to the counters, apart from the gauges. -/
theorem metrics_cleanup {r : Router} (hr : r.paths.Indexed) (now : Instant) :
    (r.cleanup now).metrics.paths = r.metrics.paths ∧
      (r.cleanup now).metrics.sni = r.metrics.sni ∧
      (r.cleanup now).metrics.cidLimit = r.metrics.cidLimit ∧
      (r.cleanup now).metrics.drops = ((r.buffers.timedOut now).map fun p =>
        p.datagrams.length).foldl (fun counters count => incBy counters .pendingTimeout count)
        r.metrics.drops := by
  obtain ⟨n, hforget⟩ := metrics_foldl_forget (r.expiredIds now) r
  have hbuffers : (r.withoutPaths (r.expiredIds now)).buffers = r.buffers :=
    (foldl_forget_forgets hr.toOwned (r.expiredIds now)).buffers
  have hdrop := metrics_foldl_dropPending (r.buffers.timedOut now)
    { r.withoutPaths (r.expiredIds now) with
      pending := (r.withoutPaths (r.expiredIds now)).pending.retain fun _ pending =>
        (r.withoutPaths (r.expiredIds now)).keepPending now pending }
  have htimedOut : r.buffers.timedOut now =
      ((r.withoutPaths (r.expiredIds now)).pending.toList.filter fun e =>
        !(r.withoutPaths (r.expiredIds now)).keepPending now e.2).map Prod.snd := by
    rw [← hbuffers]
    rfl
  have hmetrics : (r.withoutPaths (r.expiredIds now)).metrics =
      { r.metrics with activePaths := n } := hforget
  rw [hmetrics] at hdrop
  rw [cleanup_eq]
  unfold expirePending
  dsimp only
  rw [← htimedOut, hdrop]
  exact ⟨rfl, rfl, rfl, rfl⟩

end Router

namespace Router.Similar

variable {r r' : Router}

/-- Similar handshakes are kept by both or by neither. -/
theorem keeps (h : r.Similar r') (now : Instant) {p p' : PendingConnection} (hp : p.Similar p') :
    r.buffers.keeps now p = r'.buffers.keeps now p' := by
  have hhandshake : r'.buffers.config.handshakeTimeout = r.buffers.config.handshakeTimeout :=
    h.config.handshakeTimeout
  have hidle : r'.buffers.idleTimeout = r.buffers.idleTimeout := h.idleTimeout
  unfold Buffers.keeps
  rw [hp.lastSeen, hp.created, hhandshake, hidle]

/-- The handshakes that time out are the same, but for their order. -/
theorem timedOut (h : r.Similar r') (now : Instant) :
    ∃ ps, ps.Perm (r.buffers.timedOut now) ∧
      List.Forall₂ PendingConnection.Similar ps (r'.buffers.timedOut now) := by
  obtain ⟨l, hperm, hl⟩ := (h.pending.retain
    (p := fun _ p => !r.buffers.keeps now p) (q := fun _ p => !r'.buffers.keeps now p)
    (fun _ _ _ hp => congrArg Bool.not (h.keeps now hp))).perm
  rw [Table.toList_retain] at hperm hl
  refine ⟨l.map Prod.snd, hperm.map Prod.snd, ?_⟩
  unfold Buffers.timedOut
  rw [List.forall₂_map_left_iff, List.forall₂_map_right_iff]
  exact hl.imp fun _ _ he => he.2

/-- The handshakes that timed out are the same, in some order. -/
theorem map_timedOut {f : PendingConnection → ℕ} (h : r.Similar r') (now : Instant)
    (hf : ∀ p p', p.Similar p' → f p' = f p) :
    ((r'.buffers.timedOut now).map f).Perm ((r.buffers.timedOut now).map f) := by
  obtain ⟨ps, hperm, hps⟩ := h.timedOut now
  have heq : (r'.buffers.timedOut now).map f = ps.map f := by
    refine List.forall₂_eq_eq_eq ▸ ?_
    rw [List.forall₂_map_left_iff, List.forall₂_map_right_iff]
    exact hps.flip.imp fun _ _ hp => hf _ _ hp
  rw [heq]
  exact hperm.map f

/-- The drops that `cleanup` counts do not depend on the order of the handshakes. -/
theorem drops_cleanup (h : r.Similar r') (hr : r.paths.Indexed) (hr' : r'.paths.Indexed)
    (now : Instant) :
    (r.cleanup now).metrics.drops.Related Eq (r'.cleanup now).metrics.drops := by
  have hperm := h.map_timedOut now (f := fun p => p.datagrams.length) fun p p' hp => by
    rw [hp.datagrams]
  rw [(metrics_cleanup hr now).2.2.2, (metrics_cleanup hr' now).2.2.2]
  have hempty : (r'.buffers.timedOut now).map (fun p => p.datagrams.length) ≠ [] ↔
      (r.buffers.timedOut now).map (fun p => p.datagrams.length) ≠ [] := by
    rw [← List.length_pos_iff, ← List.length_pos_iff, hperm.length_eq]
  have hlook := Table.related_eq_iff.mp h.metrics.drops
  refine Table.related_eq_iff.mpr fun label => ?_
  rw [lookup_foldl_incBy, lookup_foldl_incBy, hlook, hlook, hperm.sum_eq]
  exact if_congr (and_congr_right fun _ => hempty) rfl rfl

/-- Two consistent states with similar connections agree in both indexes. -/
theorem indexes_of_indexed (hr : r.paths.Indexed) (hr' : r'.paths.Indexed)
    (h : r.connections.Related Connection.Similar r'.connections) :
    (∀ cid, r'.cidRoutes.get cid = r.cidRoutes.get cid) ∧
      r.clientRoutes.Related HashSet.Similar r'.clientRoutes := by
  have hlists : ∀ a k, r.paths.Lists a k ↔ r'.paths.Lists a k := by
    intro a k
    rw [hr.lists_iff, hr'.lists_iff]
    exact h.exists_iff k fun c c' hcc' => by rw [hcc'.clientAddr]
  refine ⟨fun cid => Option.ext fun k => ?_, fun a => ?_⟩
  · have howner := hr.owner_iff cid k
    have howner' := hr'.owner_iff cid k
    refine howner'.trans (Iff.trans ?_ howner.symm)
    exact and_congr_right fun _ => (h.exists_iff k fun c c' hcc' => hcc'.cids cid).symm
  · -- an address has an entry when it has a connection
    have hentry : ∀ {t : Router}, t.paths.Indexed → t.clientRoutes.lookup a = none →
        ∀ k, ¬t.paths.Lists a k := by
      rintro t - hnone k ⟨ids, hids, -⟩
      have hids : t.clientRoutes.lookup a = some ids := hids
      cases hnone.symm.trans hids
    cases hids : r.clientRoutes.lookup a with
    | none =>
      cases hids' : r'.clientRoutes.lookup a with
      | none => exact .none
      | some ids' =>
        obtain ⟨k, hk⟩ := hr'.clients_nonempty a ids' hids'
        exact absurd ((hlists a k).mpr ⟨ids', hids', hk⟩) (hentry hr hids k)
    | some ids =>
      cases hids' : r'.clientRoutes.lookup a with
      | none =>
        obtain ⟨k, hk⟩ := hr.clients_nonempty a ids hids
        exact absurd ((hlists a k).mp ⟨ids, hids, hk⟩) (hentry hr' hids' k)
      | some ids' =>
        refine .some fun k => ⟨fun hk => ?_, fun hk => ?_⟩
        · obtain ⟨ids₁, hids₁, hk₁⟩ := (hlists a k).mp ⟨ids, hids, hk⟩
          cases hids'.symm.trans hids₁
          exact hk₁
        · obtain ⟨ids₁, hids₁, hk₁⟩ := (hlists a k).mpr ⟨ids', hids', hk⟩
          cases hids.symm.trans hids₁
          exact hk₁

/-- The connections that a cleanup keeps are similar. -/
theorem connections_cleanup (h : r.Similar r') (hr : r.paths.Indexed) (hr' : r'.paths.Indexed)
    (now : Instant) :
    (r.cleanup now).connections.Related Connection.Similar (r'.cleanup now).connections := by
  have hclean := cleanup_cleans hr now
  have hclean' := cleanup_cleans hr' now
  intro k
  have hnone : ∀ {s : Router}, (∀ c, s.connections.lookup k ≠ some c) →
      s.connections.lookup k = none := fun hs => Option.eq_none_iff_forall_ne_some.mpr hs
  rcases h.connections.cases k with ⟨hk, hk'⟩ | ⟨c, c', hc, hc', hcc'⟩
  · rw [hnone (s := r.cleanup now) (fun c hc => by simp [hclean.conn, hk] at hc),
      hnone (s := r'.cleanup now) (fun c hc => by simp [hclean'.conn, hk'] at hc)]
    exact .none
  · have hexp : c'.expired now r'.idleTimeout = c.expired now r.idleTimeout := by
      rw [h.idleTimeout, hcc'.expired]
    cases hlive : c.expired now r.idleTimeout with
    | true =>
      rw [hnone (s := r.cleanup now) (fun d hd => by simp_all [hclean.conn]),
        hnone (s := r'.cleanup now) (fun d hd => by simp_all [hclean'.conn])]
      exact .none
    | false =>
      rw [(hclean.conn k c).mpr ⟨hc, hlive⟩, (hclean'.conn k c').mpr ⟨hc', hexp.trans hlive⟩]
      exact .some hcc'

/-- `cleanup` removes the same connections and handshakes. -/
theorem cleanup (h : r.Similar r') (hr : r.paths.Indexed) (hr' : r'.paths.Indexed)
    (now : Instant) : (r.cleanup now).Similar (r'.cleanup now) := by
  have hclean := cleanup_cleans hr now
  have hclean' := cleanup_cleans hr' now
  obtain ⟨hmpaths, hmsni, hmcid, -⟩ := metrics_cleanup hr now
  obtain ⟨hmpaths', hmsni', hmcid', -⟩ := metrics_cleanup hr' now
  have hconn := h.connections_cleanup hr hr' now
  obtain ⟨howner, hclients⟩ := indexes_of_indexed hclean.indexed hclean'.indexed hconn
  have hlb : (r.cleanup now).lbPaths.Related Eq (r'.cleanup now).lbPaths := by
    refine Table.related_eq_iff.mpr fun key => Option.ext fun k => ?_
    rw [lookup_lbPaths_cleanup hr, lookup_lbPaths_cleanup hr', Table.related_eq_iff.mp h.lbPaths]
    refine and_congr_right fun _ => ?_
    rcases hconn.cases k with ⟨hk, hk'⟩ | ⟨c, c', hc, hc', -⟩
    · rw [hk, hk']
    · rw [hc, hc']
      rfl
  have hsums : ((r'.buffers.timedOut now).map fun p => p.bufferedBytes).sum =
      ((r.buffers.timedOut now).map fun p => p.bufferedBytes).sum :=
    (h.map_timedOut now fun p p' hp => hp.bufferedBytes).sum_eq
  have hbytes : (r'.buffers.expire now).pendingBytes = (r.buffers.expire now).pendingBytes := by
    refine (congrArg (r'.pendingBytes - ·) hsums).trans ?_
    rw [h.pendingBytes]
    rfl
  have hpending : (r.buffers.expire now).pending.Related PendingConnection.Similar
      (r'.buffers.expire now).pending :=
    h.pending.retain fun _ p p' hp => h.keeps now hp
  -- what a cleanup leaves of the buffers
  have hb := hclean.buffers
  have hb' := hclean'.buffers
  have hgauge : (r'.cleanup now).metrics.activePaths = (r.cleanup now).metrics.activePaths := by
    have hg := hclean.gauge
    have hg' := hclean'.gauge
    have hsize := hconn.size_eq
    have hsize' := h.connections.size_eq
    have hactive := h.metrics.activePaths
    unfold pathGaugeError at hg hg'
    omega
  constructor
  case next => rw [hclean.next, hclean'.next, h.next]
  case connections => exact hconn
  case owner => exact howner
  case lbPaths => exact hlb
  case clients => exact hclients
  case limits =>
    exact (congrArg Buffers.limits hb').trans (h.limits.trans (congrArg Buffers.limits hb).symm)
  case pendingBytes =>
    exact (congrArg Buffers.pendingBytes hb').trans
      (hbytes.trans (congrArg Buffers.pendingBytes hb).symm)
  case labels =>
    have hl : (r.cleanup now).sniMetricLabels = r.sniMetricLabels :=
      congrArg Buffers.sniMetricLabels hb
    have hl' : (r'.cleanup now).sniMetricLabels = r'.sniMetricLabels :=
      congrArg Buffers.sniMetricLabels hb'
    rw [hl, hl']
    exact h.labels
  case config =>
    have hc : (r.cleanup now).config = r.config := congrArg Buffers.config hb
    have hc' : (r'.cleanup now).config = r'.config := congrArg Buffers.config hb'
    rw [hc, hc']
    exact h.config
  case idleTimeout =>
    exact (congrArg Buffers.idleTimeout hb').trans
      (h.idleTimeout.trans (congrArg Buffers.idleTimeout hb).symm)
  case pending =>
    have hp : (r.cleanup now).pending = (r.buffers.expire now).pending :=
      congrArg Buffers.pending hb
    have hp' : (r'.cleanup now).pending = (r'.buffers.expire now).pending :=
      congrArg Buffers.pending hb'
    rw [hp, hp']
    exact hpending
  case metrics =>
    constructor
    case paths => rw [hmpaths, hmpaths', h.metrics.paths]
    case activePaths => exact hgauge
    case pending =>
      refine (congrArg Buffers.pendingGauge hb').trans
        (Eq.trans ?_ (congrArg Buffers.pendingGauge hb).symm)
      exact congrArg Nat.cast hpending.size_eq.symm
    case pendingBytes =>
      refine (congrArg Buffers.pendingBytesGauge hb').trans
        (Eq.trans ?_ (congrArg Buffers.pendingBytesGauge hb).symm)
      exact congrArg Nat.cast hbytes
    case sni => rw [hmsni, hmsni']; exact h.metrics.sni
    case client =>
      exact (congrArg Buffers.client hb').trans
        (h.metrics.client.trans (congrArg Buffers.client hb).symm)
    case backend =>
      exact (congrArg Buffers.backend hb').trans
        (h.metrics.backend.trans (congrArg Buffers.backend hb).symm)
    case drops => exact h.drops_cleanup hr hr' now
    case cidLimit => rw [hmcid, hmcid', h.metrics.cidLimit]

/-! ## Runs -/

/-- Every event has the same outcome and sends the same datagrams. -/
theorem handle (h : r.Similar r') (hr : r.paths.Indexed) (hr' : r'.paths.Indexed) (cr : Crypto)
    (e : Event) : (r.handle cr e).Similar (r'.handle cr e) := by
  cases e with
  | datagram io peer packet => exact h.handleDatagram hr hr' cr io peer packet
  | backend io connId packet => exact h.handleBackendDatagram cr io connId packet
  | cleanup now => exact .done (h.cleanup hr hr' now)
  | setConfig config => exact .done { h with config := .refl config }

end Router.Similar

/-- What the sockets and the main loop see of a reply. -/
def Reply.seen (a : Reply) : List Send × Outcome := (a.sends, a.outcome)

namespace Router

/-- What is seen of the events `es`. -/
def seen (cr : Crypto) : Router → List Event → List (List Send × Outcome) :=
  traceFrom (step cr) fun r e => [(r.handle cr e).seen]

/-- A run over the events `es` from `r` to `t`, in which the maps may come in another order
before every event and at the end. -/
inductive Reorders (cr : Crypto) : Router → List Event → List (List Send × Outcome) → Router →
    Prop
  | done {r t : Router} (h : r.Similar t) : Reorders cr r [] [] t
  | step {r s t : Router} {e : Event} {es : List Event} {out : List (List Send × Outcome)}
    (h : r.Similar s) (hrest : Reorders cr (s.step cr e) es out t) :
    Reorders cr r (e :: es) ((s.handle cr e).seen :: out) t

/-- A reordered run is a run of any similar state. -/
theorem Reorders.seen_eq {cr : Crypto} {r' t : Router} {es : List Event}
    {out : List (List Send × Outcome)} (hrun : Reorders cr r' es out t) {r : Router}
    (h : r.Similar r') (hr : r.paths.Indexed) :
    out = r.seen cr es ∧ (r.run cr es).Similar t := by
  induction hrun generalizing r with
  | done h' => exact ⟨rfl, h.trans h'⟩
  | @step r' s t e es out h' hrest ih =>
    have hs := h.trans h'
    have hstep := hs.handle hr (hs.indexed hr) cr e
    obtain ⟨hout, hend⟩ := ih hstep.router (step_indexed cr hr e)
    refine ⟨?_, hend⟩
    have hseen : (s.handle cr e).seen = (r.handle cr e).seen :=
      Prod.ext hstep.sends hstep.outcome
    rw [hseen, hout]
    rfl

/-- **The order of hash maps does not matter.** However the maps are reordered between the
events, the same datagrams are handed to the same sockets with the same outcomes, and the states
and counters at the end differ in their order only. -/
theorem run_reordered (cr : Crypto) (config : Config) (idleTimeout : Duration) (limits : Limits)
    (es : List Event) (out : List (List Send × Outcome)) (t : Router)
    (hrun : Reorders cr (start config idleTimeout limits) es out t) :
    out = (start config idleTimeout limits).seen cr es ∧
      ((start config idleTimeout limits).run cr es).Similar t :=
  hrun.seen_eq (.refl _) (start_indexed config idleTimeout limits)

/-- The router with the connection `k` listed first. -/
def listedFirst (r : Router) (k : ℕ) : Router :=
  { r with connections := (r.connections.lookup k).elim r.connections (r.connections.insert k) }

/-- Listing an entry first is a reordering. -/
theorem similar_listedFirst (r : Router) (k : ℕ) : r.Similar (r.listedFirst k) := by
  have hrefl := Similar.refl r
  refine { hrefl with connections := fun j => ?_ }
  have hlook : (r.listedFirst k).connections.lookup j = r.connections.lookup j := by
    unfold listedFirst
    cases hc : r.connections.lookup k with
    | none => rfl
    | some c =>
      by_cases hj : j = k
      · simp [hj, hc]
      · simp [Table.lookup_insert, hj]
  rw [hlook]
  exact hrefl.connections j

/-- The two clients of a run, in the other order before a reply to the first of them. -/
theorem run_reordered_two_clients :
    let r := (start sampleConfig 60 .default).run sampleCrypto
      [.datagram (sampleIo 0) samplePeer helloPacket,
        .datagram (sampleIo 1) otherPeer longerCidPacket]
    (r.listedFirst 0).connections.keys ≠ r.connections.keys ∧
      ((r.listedFirst 0).handle sampleCrypto (.backend (sampleIo 2) 0 [0x40])).sends =
        [.client 0 samplePeer [0x40] true] ∧
      [((start sampleConfig 60 .default).handle sampleCrypto
          (.datagram (sampleIo 0) samplePeer helloPacket)).seen,
        (((start sampleConfig 60 .default).step sampleCrypto
          (.datagram (sampleIo 0) samplePeer helloPacket)).handle sampleCrypto
          (.datagram (sampleIo 1) otherPeer longerCidPacket)).seen,
        ((r.listedFirst 0).handle sampleCrypto (.backend (sampleIo 2) 0 [0x40])).seen] =
      (start sampleConfig 60 .default).seen sampleCrypto
        [.datagram (sampleIo 0) samplePeer helloPacket,
          .datagram (sampleIo 1) otherPeer longerCidPacket, .backend (sampleIo 2) 0 [0x40]] := by
  refine ⟨by decide +kernel, by decide +kernel, ?_⟩
  exact (run_reordered sampleCrypto sampleConfig 60 .default _ _ _
    (.step (.refl _) (.step (.refl _) (.step (similar_listedFirst _ 0) (.done (.refl _)))))).1

end Router

end SniRouter
