import SniRouter.H3.Paths

/-!
# What the handlers do

The functions at the leaves of the handlers get one specification each: that they are path
steps at one id (`ActsOn`), which datagrams they hand over, and that they leave the handshake
buffers alone. The handlers themselves are taken apart once, in the modules after this one;
invariants and accounts are derived from there, without unfolding a handler again.
-/

namespace SniRouter

/-- The part of the state that only the handshake buffering changes, with the traffic
counters. -/
structure Buffers where
  pending : Table (SocketAddr × Bytes) PendingConnection
  pendingBytes : ℕ
  sniMetricLabels : HashSet Bytes
  config : Config
  limits : Limits
  idleTimeout : Duration
  pendingGauge : ℤ
  pendingBytesGauge : ℤ
  client : Traffic
  backend : Traffic

/-- Datagrams counted as dropped, over all reasons. -/
def Metrics.dropTotal (m : Metrics) : ℕ := m.drops.total fun _ n => n

namespace Router

def buffers (r : Router) : Buffers where
  pending := r.pending
  pendingBytes := r.pendingBytes
  sniMetricLabels := r.sniMetricLabels
  config := r.config
  limits := r.limits
  idleTimeout := r.idleTimeout
  pendingGauge := r.metrics.pending
  pendingBytesGauge := r.metrics.pendingBytes
  client := r.metrics.client
  backend := r.metrics.backend

/-- The number of connections that the gauge `active_paths` is off by. -/
def pathGaugeError (r : Router) : ℤ := r.metrics.activePaths - r.connections.size

@[simp] theorem dropTotal_dropped (r : Router) (reason : DropReason) (n : ℕ) :
    (r.dropped reason n).metrics.dropTotal = r.metrics.dropTotal + n :=
  total_incBy ..

theorem lookup_of_paths_eq {r r' : Router} (h : r'.paths = r.paths) (k : ℕ) :
    r'.connections.lookup k = r.connections.lookup k :=
  congrFun (congrArg Paths.conn h) k

/-- The owner of a registered CID is a connection that has it. -/
theorem exists_of_cidRoutes {r : Router} (hr : r.paths.Indexed) {cid : Bytes} {k : ℕ}
    (h : r.cidRoutes.get cid = some k) : ∃ c, r.connections.lookup k = some c ∧ cid ∈ c.cids :=
  ((hr.owner_iff cid k).mp h).2

/-- A shared path is a connection of its client to its server. -/
theorem exists_of_lbPaths {r : Router} (hr : r.paths.Indexed) {key : SocketAddr × SocketAddr}
    {k : ℕ} (h : r.lbPaths.lookup key = some k) :
    ∃ c, r.connections.lookup k = some c ∧
      key = (normalizeSocketAddr c.clientAddr, c.upstream) :=
  hr.lbIndexed key k h

/-! ## Working on one connection -/

/-- `r'` comes from `r` by path steps at the id `k`, without a change to the handshake
buffers, the drop counters, the QUIC-LB index or the number of connections. -/
structure ActsOn (k : ℕ) (r r' : Router) : Prop where
  steps : PathSteps r.limits.maxCidsPerPath k r.paths r'.paths
  lb : r'.lbPaths = r.lbPaths
  next : r'.nextConnectionId = r.nextConnectionId
  buffers : r'.buffers = r.buffers
  dropTotal : r'.metrics.dropTotal = r.metrics.dropTotal
  gauge : r'.pathGaugeError = r.pathGaugeError
  size : r'.connections.size = r.connections.size

namespace ActsOn

variable {k : ℕ} {r r' r'' : Router}

theorem refl (k : ℕ) (r : Router) : ActsOn k r r := ⟨.refl, rfl, rfl, rfl, rfl, rfl, rfl⟩

theorem limits (h : ActsOn k r r') : r'.limits = r.limits := congrArg Buffers.limits h.buffers

theorem trans (h : ActsOn k r r') (h' : ActsOn k r' r'') : ActsOn k r r'' where
  steps := h.steps.trans (h.limits ▸ h'.steps)
  lb := h'.lb.trans h.lb
  next := h'.next.trans h.next
  buffers := h'.buffers.trans h.buffers
  dropTotal := h'.dropTotal.trans h.dropTotal
  gauge := h'.gauge.trans h.gauge
  size := h'.size.trans h.size

theorem indexed (h : ActsOn k r r') (hr : r.paths.Indexed) : r'.paths.Indexed :=
  PathSteps.indexed h.steps hr

end ActsOn

/-- Writing a connection back with its CIDs is one path step. -/
theorem actsOn_setConnection {r : Router} {k : ℕ} {c c' : Connection}
    (hc : r.connections.lookup k = some c) (he : c.Evolves c') (hcids : c'.cids = c.cids) :
    ActsOn k r (r.setConnection k c') := by
  have hsize : (r.setConnection k c').connections.size = r.connections.size :=
    Table.size_insert_of_lookup_some c' hc
  refine ⟨.single ?_, rfl, rfl, rfl, rfl, ?_, hsize⟩
  · convert PathStep.touch (p := r.paths) hc he hcids using 1
    ext1
    case conn =>
      funext j
      simp only [PathTables.paths, setConnection, Table.lookup_insert, Function.update_apply]
    all_goals rfl
  · simp only [pathGaugeError, hsize]
    rfl

theorem get_insert_of_free {routes : CidRoutes} {cid : Bytes} (k : ℕ) (hne : cid ≠ [])
    (hfree : routes.get cid = none) :
    (routes.insert cid k).1.get = Function.update routes.get cid (some k) := by
  funext cid'
  rw [CidRoutes.get_insert, Function.update_apply]
  by_cases h : cid' = cid
  · simp [h, hne, hfree]
  · simp [h]

/-- The connection `c` at `k` does not have the CID yet, and the CID is one to be registered. -/
structure NewCid (cr : Crypto) (r : Router) (k : ℕ) (cid : Bytes) (c : Connection) : Prop where
  conn : r.connections.lookup k = some c
  nonempty : cid ≠ []
  undecoded : r.config.lbBackend cr cid = none
  notMem : cid ∉ c.cids

/-- What becomes of a CID that a connection shows: it is skipped, or the connection is gone, has
it already, or has too many; somebody else owns it; or it is learned. -/
inductive AddsCid (cr : Crypto) (r : Router) (k : ℕ) (cid : Bytes) : Router → Prop where
  | skip (hskip : cid ≠ [] → r.config.lbBackend cr cid ≠ none) : AddsCid cr r k cid r
  | gone (hnone : r.connections.lookup k = none) : AddsCid cr r k cid r
  | known {c : Connection} (hc : r.connections.lookup k = some c) (hmem : cid ∈ c.cids) :
      AddsCid cr r k cid r
  | full {c : Connection} (hnew : NewCid cr r k cid c)
      (hfull : r.limits.maxCidsPerPath ≤ c.cids.size) :
      AddsCid cr r k cid { r with metrics := { r.metrics with cidLimit := r.metrics.cidLimit + 1 } }
  | owned {c : Connection} {j : ℕ} {routes : CidRoutes} (hnew : NewCid cr r k cid c)
      (hget : r.cidRoutes.get cid = some j) (hj : j ≠ k) (hsame : routes.get = r.cidRoutes.get) :
      AddsCid cr r k cid { r with cidRoutes := routes }
  | learn {c : Connection} {routes : CidRoutes} (hnew : NewCid cr r k cid c)
      (hroom : c.cids.size < r.limits.maxCidsPerPath) (hfree : r.cidRoutes.get cid = none)
      (hroutes : routes.get = Function.update r.cidRoutes.get cid (some k)) :
      AddsCid cr r k cid
        { r with
          cidRoutes := routes
          connections := r.connections.insert k { c with cids := c.cids.insert cid } }

/-- The ways in which a CID is learned or refused. -/
theorem addCidRoute_cases (cr : Crypto) {r : Router} (hr : r.paths.Indexed) (k : ℕ)
    (cid : Bytes) : AddsCid cr r k cid (r.addCidRoute cr k cid) := by
  unfold addCidRoute
  split
  · rename_i hskip
    refine .skip fun hne hnone => ?_
    simp [hne, hnone] at hskip
  rename_i htake
  split
  · rename_i hnone
    exact .gone hnone
  rename_i c hc
  split
  · rename_i hmem
    exact .known hc hmem
  rename_i hmem
  have hnew : NewCid cr r k cid c := by
    refine ⟨hc, fun h => htake (Or.inl (by simp [h])), ?_, hmem⟩
    exact Option.not_isSome_iff_eq_none.mp fun h => htake (Or.inr h)
  split
  · rename_i hfull
    exact .full hnew hfull
  rename_i hroom
  have hnot : r.cidRoutes.get cid ≠ some k := by
    intro hget
    -- its own CIDs are in the connection's set
    obtain ⟨d, hd, hmem'⟩ := exists_of_cidRoutes hr hget
    cases hc.symm.trans hd
    exact hmem hmem'
  cases hget : r.cidRoutes.get cid with
  | some j =>
    have hj : j ≠ k := by
      rintro rfl
      exact hnot hget
    split
    · rename_i routes hins
      refine .owned hnew hget hj ?_
      funext cid'
      have hget' := CidRoutes.get_insert r.cidRoutes cid k cid'
      rw [hins, hget, if_neg (by simp)] at hget'
      exact hget'
    · rename_i routes hins
      have hsnd : (r.cidRoutes.insert cid k).2 = true := by rw [hins]
      rw [CidRoutes.insert_snd, hget] at hsnd
      simp [hj] at hsnd
  | none =>
    split
    · rename_i routes hins
      have hsnd : (r.cidRoutes.insert cid k).2 = true :=
        (CidRoutes.insert_snd ..).mpr ⟨hnew.nonempty, Or.inl hget⟩
      rw [hins] at hsnd
      cases hsnd
    · rename_i routes hins
      refine .learn hnew (not_le.mp hroom) hget ?_
      simpa [hins] using get_insert_of_free k hnew.nonempty hget

/-- Learning a CID is at most one path step: it is taken only when nobody owns it and the
connection has room for it. -/
theorem addCidRoute_actsOn (cr : Crypto) {r : Router} (hr : r.paths.Indexed) (k : ℕ)
    (cid : Bytes) : ActsOn k r (r.addCidRoute cr k cid) := by
  have hcases := addCidRoute_cases cr hr k cid
  generalize r.addCidRoute cr k cid = r' at hcases
  cases hcases with
  | skip => exact .refl k r
  | gone => exact .refl k r
  | known => exact .refl k r
  | full => exact ⟨.refl, rfl, rfl, rfl, rfl, rfl, rfl⟩
  | @owned c j routes hnew hget hj hsame =>
    -- the index is as before
    have hpaths : ({ r with cidRoutes := routes } : Router).paths = r.paths := by
      ext1
      case owner => exact hsame
      all_goals rfl
    refine ⟨?_, rfl, rfl, rfl, rfl, rfl, rfl⟩
    rw [hpaths]
  | @learn c routes hnew hroom hfree hroutes =>
    have hsize := Table.size_insert_of_lookup_some { c with cids := c.cids.insert cid } hnew.conn
    refine ⟨.single ?_, rfl, rfl, rfl, rfl, ?_, hsize⟩
    · convert PathStep.learn (p := r.paths) (k := k) hnew.conn hnew.nonempty hfree hroom using 1
      ext1
      case conn =>
        funext j
        simp only [PathTables.paths, Table.lookup_insert, Function.update_apply]
      case owner => exact hroutes
      all_goals rfl
    · simp only [pathGaugeError, hsize]

/-- Learning CIDs acts on one connection. -/
theorem addCidRoutes_actsOn (cr : Crypto) {r : Router} (hr : r.paths.Indexed) (k : ℕ)
    (cids : List Bytes) : ActsOn k r (r.addCidRoutes cr k cids) := by
  induction cids generalizing r with
  | nil => exact .refl k r
  | cons cid cids ih =>
    have hstep := addCidRoute_actsOn cr hr k cid
    exact hstep.trans (ih (hstep.indexed hr))

/-! ## Forwarding -/

section Forward

variable (cr : Crypto) {io : Io} {r : Router} {k : ℕ} {c : Connection}

/-- Nothing is sent on an expired connection. -/
theorem forwardEstablishedClientDatagram_expired (peer : SocketAddr) (packet : Bytes)
    (long : Option LongPacketCids) (hc : r.connections.lookup k = some c)
    (hexp : c.expired io.now₂ r.idleTimeout = true) :
    r.forwardEstablishedClientDatagram cr io k peer packet long =
      .done (r.dropped .expired 1) := by
  simp only [forwardEstablishedClientDatagram, hc, hexp, if_true]

/-- On a live one the datagram is sent as it came. -/
theorem sends_forwardEstablishedClientDatagram (peer : SocketAddr) (packet : Bytes)
    (long : Option LongPacketCids) (hc : r.connections.lookup k = some c) :
    (r.forwardEstablishedClientDatagram cr io k peer packet long).sends =
      if c.expired io.now₂ r.idleTimeout then [] else [.backend k packet (io.send 0)] := by
  simp only [forwardEstablishedClientDatagram, hc]
  cases c.expired io.now₂ r.idleTimeout with
  | true => rfl
  | false =>
    simp only [Bool.false_eq_true, if_false]
    split
    · rfl
    · split <;> rfl

/-- A datagram of the connection's own client is handed to its backend, and the connection
stays what it is. -/
theorem forwardEstablishedClientDatagram_live {peer : SocketAddr} (packet : Bytes)
    (long : Option LongPacketCids) (hr : r.paths.Indexed)
    (hc : r.connections.lookup k = some c) (hlive : c.expired io.now₂ r.idleTimeout = false)
    (hpeer : normalizeSocketAddr peer = normalizeSocketAddr c.clientAddr) :
    ∃ r', r.forwardEstablishedClientDatagram cr io k peer packet long =
        ⟨r', [.backend k packet (io.send 0)],
          if io.send 0 then .ok else .err "sending UDP datagram"⟩ ∧ ActsOn k r r' := by
  have hset : ActsOn k r (r.setConnection k { c with clientAddr := peer, lastSeen := io.now₂ }) :=
    actsOn_setConnection hc
      ⟨rfl, hpeer, rfl, fun d hd => ⟨d, le_refl d, hd⟩, fun _ h => h⟩ rfl
  simp only [forwardEstablishedClientDatagram, hc, hlive, Bool.false_eq_true, if_false]
  cases io.send 0 with
  | false => exact ⟨_, rfl, hset⟩
  | true =>
    simp only [Bool.not_true, Bool.false_eq_true, if_false, if_true]
    split
    · exact ⟨_, rfl, hset.trans (addCidRoute_actsOn cr (hset.indexed hr) k _)⟩
    · exact ⟨_, rfl, hset⟩

/-- A reply goes to the client of the connection, in the form its socket needs. -/
theorem sendToClient_cases (io : Io) (k : ℕ) (packet : Bytes) (addr : SocketAddr) :
    (∃ e, sendToClient io k packet addr = ([], .err e)) ∨
      ∃ dest, normalizeSocketAddr dest = normalizeSocketAddr addr ∧
        sendToClient io k packet addr =
          ([.client k dest packet (io.send 0)],
            if io.send 0 then .ok else .err "sending UDP datagram") := by
  unfold sendToClient
  split
  · exact Or.inl ⟨_, rfl⟩
  split
  · exact Or.inl ⟨_, rfl⟩
  · rename_i dest hdest
    exact Or.inr ⟨dest, normalize_sendAddrForSocket hdest, rfl⟩

/-- A datagram of a server is sent to the client of its path. -/
theorem forwardEstablishedBackendDatagram_live (packet : Bytes) (long : Option LongPacketCids)
    (hr : r.paths.Indexed) (hc : r.connections.lookup k = some c)
    (hlive : c.expired io.now₂ r.idleTimeout = false) :
    ∃ r', r.forwardEstablishedBackendDatagram cr io k packet long =
        ⟨r', (sendToClient io k packet c.clientAddr).1,
          (sendToClient io k packet c.clientAddr).2⟩ ∧ ActsOn k r r' := by
  have hset : ActsOn k r (r.setConnection k { c with
      lastSeen := io.now₂
      initialKeyDcid := (retryKeyDcid long).getD c.initialKeyDcid }) :=
    actsOn_setConnection hc
      ⟨rfl, rfl, rfl, fun d hd => ⟨d, le_refl d, hd⟩, fun _ h => h⟩ rfl
  simp only [forwardEstablishedBackendDatagram, hc, hlive, Bool.false_eq_true, if_false]
  split
  · exact ⟨_, rfl, hset.trans (addCidRoute_actsOn cr (hset.indexed hr) k _)⟩
  · exact ⟨_, rfl, hset⟩

end Forward

end Router

/-! ## Flushing -/

/-- The connection whose socket a datagram goes to or came from. -/
def Send.connId : Send → ℕ
  | .backend connId _ _ => connId
  | .client connId _ _ _ => connId

/-- The datagram a call of `send_or_queue` is given. -/
def Send.datagram : Send → Bytes
  | .backend _ datagram _ => datagram
  | .client _ _ datagram _ => datagram

namespace Router

/-- A flush hands over the datagrams in order, all to one backend, and stops only at a send
that fails. -/
theorem flush_spec (io : Io) (k i : ℕ) (datagrams : List Bytes) :
    (flush io k i datagrams).1.map Send.datagram <+: datagrams ∧
      (∀ s ∈ (flush io k i datagrams).1, ∃ d ∈ datagrams, ∃ ok, s = .backend k d ok) ∧
      ((flush io k i datagrams).2 = true →
        (flush io k i datagrams).1 = datagrams.map fun d => .backend k d true) := by
  induction datagrams generalizing i with
  | nil => simp [flush]
  | cons d ds ih =>
    obtain ⟨hpre, hall, hok⟩ := ih (i + 1)
    simp only [flush]
    split
    · refine ⟨?_, ?_, ?_⟩
      · simpa [Send.datagram] using hpre
      · intro s hs
        rcases List.mem_cons.mp hs with rfl | hs
        · exact ⟨d, List.mem_cons_self, true, rfl⟩
        · obtain ⟨d', hd', ok, rfl⟩ := hall s hs
          exact ⟨d', List.mem_cons_of_mem _ hd', ok, rfl⟩
      · intro h
        simp [hok h]
    · simp [Send.datagram]

/-- A flush that stops short ends with a send that failed. -/
theorem exists_failed_of_flush {io : Io} {k i : ℕ} {datagrams : List Bytes}
    (h : (flush io k i datagrams).2 = false) :
    ∃ d, .backend k d false ∈ (flush io k i datagrams).1 := by
  induction datagrams generalizing i with
  | nil => cases h
  | cons d ds ih =>
    simp only [flush] at h ⊢
    split at h
    · rename_i hsend
      obtain ⟨d', hd'⟩ := ih h
      rw [if_pos hsend]
      exact ⟨d', List.mem_cons_of_mem _ hd'⟩
    · rename_i hsend
      rw [if_neg hsend]
      exact ⟨d, List.mem_cons_self⟩

/-- A flush succeeds when every send does. -/
theorem flush_snd_iff {io : Io} {k i : ℕ} {datagrams : List Bytes} :
    (flush io k i datagrams).2 = true ↔ ∀ j < datagrams.length, io.send (i + j) = true := by
  induction datagrams generalizing i with
  | nil => simp [flush]
  | cons d ds ih =>
    simp only [flush, List.length_cons]
    cases hsend : io.send i with
    | false =>
      simp only [Bool.false_eq_true, if_false, false_iff, not_forall]
      exact ⟨0, Nat.succ_pos _, by simp [hsend]⟩
    | true =>
      simp only [if_true, ih]
      constructor
      · intro h j hj
        cases j with
        | zero => exact hsend
        | succ j =>
          rw [← Nat.succ_add_eq_add_succ]
          exact h j (Nat.lt_of_succ_lt_succ hj)
      · intro h j hj
        have := h (j + 1) (Nat.succ_lt_succ hj)
        rwa [← Nat.succ_add_eq_add_succ] at this

/-- A flush hands over a datagram exactly when its first send succeeds. -/
theorem exists_sent_of_flush {io : Io} {k i : ℕ} {datagrams : List Bytes} :
    (∃ j d, .backend j d true ∈ (flush io k i datagrams).1) ↔
      datagrams ≠ [] ∧ io.send i = true := by
  cases datagrams with
  | nil => simp [flush]
  | cons d ds =>
    simp only [flush]
    cases io.send i with
    | false => simp
    | true =>
      simp only [if_true, ne_eq, reduceCtorEq, not_false_eq_true, and_self, iff_true]
      exact ⟨k, d, List.mem_cons_self⟩

theorem connId_of_mem_flush {io : Io} {k : ℕ} {datagrams : List Bytes} {s : Send}
    (h : s ∈ (flush io k 0 datagrams).1) : s.connId = k := by
  obtain ⟨d, -, ok, rfl⟩ := (flush_spec io k 0 datagrams).2.1 s h
  rfl

end Router

end SniRouter
