import SniRouter.H3.Expiry

/-!
# Where connections come from

Every connection was opened by one client datagram that was entitled to it: its CID decoded to
the backend under the QUIC-LB configuration of that moment, or it completed a ClientHello,
put together from Initials of that client alone, that the rules of that moment route to the
backend. The lifetime limit that applied then holds for as long as the connection lives.
-/

namespace SniRouter

/-- The connection ends no later than `limit` after `created`, if there is a limit. -/
def Connection.EndsBy (c : Connection) (created : Instant) (limit : Option Duration) : Prop :=
  ∀ t, limit = some t → ∃ d ≤ created + t, c.deadline = some d

theorem Connection.Evolves.endsBy {c c' : Connection} (h : c.Evolves c') {created : Instant}
    {limit : Option Duration} (hc : c.EndsBy created limit) : c'.EndsBy created limit := by
  intro t ht
  obtain ⟨d, hd, hdeadline⟩ := hc t ht
  obtain ⟨d', hd', hdeadline'⟩ := h.deadline d hdeadline
  exact ⟨d', hd'.trans hd, hdeadline'⟩

/-- What entitles the datagram `packet` of `peer`, arriving after the events `pre` under the
configuration `config`, to the connection `c`. -/
inductive Authorised (cr : Crypto) (pre : List Event) (config : Config) (io : Io)
    (peer : SocketAddr) (packet : Bytes) (c : Connection) : Prop where
  /-- Its CID names the server. -/
  | decoded {long : Option LongPacketCids} {addr : SocketAddr}
      (hlong : parseLongPacketCids packet = .ok long)
      (haddr : (Router.routableCid packet long).bind (config.lbBackend cr) = some addr)
      (hupstream : normalizeSocketAddr c.upstream = normalizeSocketAddr addr)
      (hends : c.EndsBy io.now₂ config.maxLifetime)
  /-- It completes a ClientHello of this client, collected from the Initials `items` for one
  destination connection ID, that is routed to the server. -/
  | hello {dcid : Bytes} {items : List (Bytes × List (ℕ × Bytes))} {crypto : CryptoReassembly}
      {hello : Bytes} {route : Route} {addr : SocketAddr}
      (hitems : items.Sublist ((pre ++ [Event.datagram io peer packet]).filterMap
        (Event.initial cr (normalizeSocketAddr peer, dcid))))
      (hlast : ∃ before frames, items = before ++ [(packet, frames)])
      (hcrypto : CryptoReassembly.empty.insertFrames (items.flatMap Prod.snd) = (crypto, true))
      (hhello : crypto.clienthello = .ok (some hello))
      (hroute : config.routeForSni peer (routedSni hello) = .ok route)
      (hbackend : route.backend = .udp addr)
      (hupstream : normalizeSocketAddr c.upstream = normalizeSocketAddr addr)
      (hends : c.EndsBy io.now₂ (minTimeout config.maxLifetime
        (config.selectedRule peer (routedSni hello)).timeout))

theorem Authorised.evolves {cr : Crypto} {pre : List Event} {config : Config} {io : Io}
    {peer : SocketAddr} {packet : Bytes} {c c' : Connection}
    (h : Authorised cr pre config io peer packet c) (he : c.Evolves c') :
    Authorised cr pre config io peer packet c' := by
  cases h with
  | decoded hlong haddr hupstream hends =>
    exact .decoded hlong haddr (he.upstream ▸ hupstream) (he.endsBy hends)
  | hello hitems hlast hcrypto hhello hroute hbackend hupstream hends =>
    exact .hello hitems hlast hcrypto hhello hroute hbackend (he.upstream ▸ hupstream)
      (he.endsBy hends)

namespace Router

/-! ## The step that opens a connection -/

theorem newConnection_endsBy (io : Io) (upstream : SocketAddr) (cids : HashSet Bytes)
    (pending : PendingConnection) (route : Route) :
    (newConnection io upstream cids pending route).EndsBy io.now₂ route.timeout := by
  intro t ht
  exact ⟨io.now₂ + t, le_refl _, by simp [newConnection, ht]⟩

/-- Working on a connection opens no other one. -/
theorem ActsOn.lookup_eq_none {k : ℕ} {r r' : Router} (h : ActsOn k r r') {c : Connection}
    (hc : r.connections.lookup k = some c) {j : ℕ} (hj : r.connections.lookup j = none) :
    r'.connections.lookup j = none := by
  have hne : j ≠ k := by
    rintro rfl
    rw [hc] at hj
    cases hj
  exact (PathSteps.conn_of_ne h.steps hne).trans hj

/-- A connection that `reply` has and `r` does not have is the one the handshake opened. -/
theorem EstablishEffect.opened {io : Io} {r : Router} {pending : PendingConnection}
    {route : Route} {reply : Reply} (h : EstablishEffect io r pending route reply) {k : ℕ}
    {c : Connection} (hnone : r.connections.lookup k = none)
    (hc : reply.router.connections.lookup k = some c) :
    ∃ addr upstream cids, route.backend = .udp addr ∧
      normalizeSocketAddr upstream = normalizeSocketAddr addr ∧
      c = newConnection io upstream cids pending route := by
  cases h with
  | @refuse r' hdrops =>
    rw [show (Reply.done r').router = r' from rfl, lookup_of_paths_eq hdrops.paths, hnone] at hc
    cases hc
  | share hroute hc' hclient hupstream hlive hacts =>
    have hgone := hacts.lookup_eq_none hc' hnone
    dsimp only at hc
    rw [hgone] at hc
    cases hc
  | fail hroute =>
    dsimp only at hc
    rw [hnone] at hc
    cases hc
  | @create addr upstream cids lbKey r' message hroute hupstream hroom hopens =>
    have hconn : r'.connections.lookup k =
        Function.update r.connections.lookup r.nextConnectionId
          (some (newConnection io upstream cids pending route)) k :=
      congrFun (congrArg Paths.conn hopens.paths) k
    dsimp only at hc
    rw [hconn] at hc
    by_cases hk : k = r.nextConnectionId
    · rw [hk, Function.update_self] at hc
      exact ⟨addr, upstream, cids, hroute, hupstream, (Option.some.inj hc).symm⟩
    · rw [Function.update_of_ne hk, hnone] at hc
      cases hc

/-- The datagram that opens a connection is entitled to it. -/
theorem handleDatagram_opened (cr : Crypto) {es : List Event} {r : Router}
    (hr : r.paths.Indexed) (hcollected : AllCollected cr es r) {io : Io} {peer : SocketAddr}
    {packet : Bytes} {k : ℕ} {c : Connection} (hnone : r.connections.lookup k = none)
    (hc : (r.step cr (.datagram io peer packet)).connections.lookup k = some c) :
    normalizeSocketAddr c.clientAddr = normalizeSocketAddr peer ∧ c.created = io.now₂ ∧
      Authorised cr es r.config io peer packet c := by
  have heffect := handleDatagram_effect cr io hr peer packet
  simp only [step, handle] at hc
  generalize handleDatagram .. = reply at heffect hc
  have hno : r.connections.lookup k = some c → False := by
    intro hsome
    rw [hnone] at hsome
    cases hsome
  cases heffect with
  | drop reason => exact (hno hc).elim
  | @forward k' c' r' message hc' hpeer hlive hacts =>
    have hgone : r'.connections.lookup k = none := hacts.lookup_eq_none hc' hnone
    dsimp only at hc
    rw [hgone] at hc
    cases hc
  | tooLong => exact (hno hc).elim
  | decoded hlong haddr heffect =>
    obtain ⟨addr', upstream, cids, hbackend, hupstream, rfl⟩ := heffect.opened hnone hc
    cases hbackend
    exact ⟨rfl, rfl, .decoded hlong haddr hupstream
      (newConnection_endsBy io upstream cids _ _)⟩
  | @initial decrypted frames _ hdecrypt hframes hfree hlb heffect =>
    cases heffect with
    | drop reason hrefused => exact (hno hc).elim
    | @discard r' hrefused hreleases =>
      have hsame : r'.connections.lookup k = r.connections.lookup k :=
        lookup_of_paths_eq hreleases.paths k
      exact (hno (hsame ▸ hc)).elim
    | wait haccepts hhello => exact (hno hc).elim
    | @unroutable hello r₁ e haccepts hhello hreleases hroute =>
      have hsame : r₁.connections.lookup k = r.connections.lookup k :=
        lookup_of_paths_eq hreleases.paths k
      exact (hno (hsame ▸ hc)).elim
    | @routed hello r₁ route _ haccepts hhello hreleases hroute heffect =>
      have hsame : r₁.connections.lookup k = r.connections.lookup k :=
        lookup_of_paths_eq hreleases.paths k
      obtain ⟨addr, upstream, cids, hbackend, hupstream, rfl⟩ :=
        heffect.opened (hsame.trans hnone) hc
      obtain ⟨items, hsub, hitems, before, hlast⟩ :=
        buffered_collects hcollected io rfl hdecrypt hframes haccepts.taken
      -- the entry with this datagram in it is what was collected for the handshake
      have hends := newConnection_endsBy io upstream cids
        (((r.receivedClient packet.length).entry (normalizeSocketAddr peer, decrypted.dcid) peer
          io.now₁).buffered packet decrypted.scid frames io.now₁) route
      rw [(Config.routeForSni_takenFrom hroute).timeout] at hends
      exact ⟨hitems.client, rfl, .hello hsub ⟨before, frames, hlast⟩ hitems.crypto hhello hroute
        hbackend hupstream hends⟩

/-- A backend opens no connection. -/
theorem BackendEffect.lookup_eq_none {io : Io} {r : Router} {k : ℕ} {packet : Bytes}
    {reply : Reply} (h : BackendEffect io r k packet reply) {j : ℕ}
    (hj : r.connections.lookup j = none) : reply.router.connections.lookup j = none := by
  cases h with
  | drop reason => exact hj
  | fail hc hlive hacts => exact hacts.lookup_eq_none hc hj
  | reply hc hlive hdest hacts => exact hacts.lookup_eq_none hc hj

/-! ## Whole runs -/

/-- The connection `c` of id `k` was opened by a client datagram entitled to it. -/
def HasOrigin (cr : Crypto) (r₀ : Router) (es : List Event) (k : ℕ) (c : Connection) : Prop :=
  ∃ pre io peer packet post, es = pre ++ .datagram io peer packet :: post ∧
    (r₀.run cr pre).connections.lookup k = none ∧
    (∃ c₀, (r₀.run cr (pre ++ [.datagram io peer packet])).connections.lookup k = some c₀) ∧
    normalizeSocketAddr peer = normalizeSocketAddr c.clientAddr ∧ c.created = io.now₂ ∧
    Authorised cr pre (r₀.run cr pre).config io peer packet c

/-- A connection that a step adds is added by a client datagram. -/
theorem exists_datagram_of_opened (cr : Crypto) {r : Router} (hr : r.paths.Indexed) {e : Event}
    {k : ℕ} {c : Connection} (hnone : r.connections.lookup k = none)
    (hc : (r.step cr e).connections.lookup k = some c) :
    ∃ io peer packet, e = .datagram io peer packet := by
  cases e with
  | datagram io peer packet => exact ⟨io, peer, packet, rfl⟩
  | backend io j packet =>
    have hgone := (handleBackendDatagram_effect cr io hr j packet).lookup_eq_none hnone
    simp only [step, handle] at hc
    rw [hgone] at hc
    cases hc
  | cleanup now =>
    have hkept := ((cleanup_cleans hr now).conn k c).mp hc
    rw [hnone] at hkept
    cases hkept.1
  | setConfig config =>
    have hc : r.connections.lookup k = some c := hc
    rw [hnone] at hc
    cases hc

/-- Every connection of a run was opened by one client datagram and only evolved since. -/
theorem exists_opening (cr : Crypto) (config : Config) (idleTimeout : Duration) (limits : Limits)
    {es : List Event} {k : ℕ} {c : Connection}
    (hc : ((start config idleTimeout limits).run cr es).connections.lookup k = some c) :
    ∃ pre io peer packet post c₀, es = pre ++ .datagram io peer packet :: post ∧
      ((start config idleTimeout limits).run cr pre).connections.lookup k = none ∧
      ((start config idleTimeout limits).run cr
        (pre ++ [.datagram io peer packet])).connections.lookup k = some c₀ ∧
      c₀.Evolves c := by
  -- the id came into use at one step of the run
  have hend : ((start config idleTimeout limits).run cr es).connections.lookup k ≠ none := by
    rw [hc]
    exact Option.some_ne_none c
  obtain ⟨pre, e, post, rfl, hnone, hsome⟩ := exists_step_of_not_of_runFrom
    (P := fun r : Router => r.connections.lookup k ≠ none) (fun h => h rfl) hend
  have hnone : ((start config idleTimeout limits).run cr pre).connections.lookup k = none :=
    not_not.mp hnone
  obtain ⟨c₀, hc₀⟩ := Option.ne_none_iff_exists'.mp hsome
  have hc₀ : ((start config idleTimeout limits).run cr (pre ++ [e])).connections.lookup k =
      some c₀ := hc₀
  -- and kept its connection from then on
  have hrest : (start config idleTimeout limits).run cr (pre ++ e :: post) =
      ((start config idleTimeout limits).run cr (pre ++ [e])).run cr post := by
    rw [List.append_cons]
    exact runFrom_append ..
  rw [hrest] at hc
  have hr' := run_indexed cr config idleTimeout limits (pre ++ [e])
  obtain ⟨c₁, hc₁, he⟩ := (run_grows cr hr' post).of_lt (hr'.below k c₀ hc₀) hc
  cases hc₀.symm.trans hc₁
  have hrun : (start config idleTimeout limits).run cr (pre ++ [e]) =
      ((start config idleTimeout limits).run cr pre).step cr e := runFrom_concat ..
  obtain ⟨io, peer, packet, rfl⟩ := exists_datagram_of_opened cr
    (run_indexed cr config idleTimeout limits pre) hnone (hrun ▸ hc₀)
  exact ⟨pre, io, peer, packet, post, c₀, rfl, hnone, hc₀, he⟩

/-- **Every path has an authorised origin.** -/
theorem run_hasOrigin (cr : Crypto) (config : Config) (idleTimeout : Duration) (limits : Limits)
    (es : List Event) (k : ℕ) (c : Connection)
    (hc : ((start config idleTimeout limits).run cr es).connections.lookup k = some c) :
    HasOrigin cr (start config idleTimeout limits) es k c := by
  obtain ⟨pre, io, peer, packet, post, c₀, hes, hnone, hc₀, he⟩ :=
    exists_opening cr config idleTimeout limits hc
  have hrun : (start config idleTimeout limits).run cr (pre ++ [.datagram io peer packet]) =
      ((start config idleTimeout limits).run cr pre).step cr (.datagram io peer packet) :=
    runFrom_concat ..
  obtain ⟨hclient, hcreated, hauth⟩ := handleDatagram_opened cr
    (run_indexed cr config idleTimeout limits pre) (run_collected cr config idleTimeout limits pre)
    hnone (hrun ▸ hc₀)
  exact ⟨pre, io, peer, packet, post, hes, hnone, ⟨c₀, hc₀⟩, (he.client.trans hclient).symm,
    he.created.trans hcreated, hauth.evolves he⟩

/-- The path of the sample client. -/
theorem run_hasOrigin_sample : ∃ c, sampleRouter.connections.lookup 0 = some c ∧
    HasOrigin sampleCrypto (start sampleConfig 60 .default)
      [.datagram (sampleIo 0) samplePeer helloPacket] 0 c := by
  have hsome : (sampleRouter.connections.lookup 0).isSome = true := by decide +kernel
  obtain ⟨c, hc⟩ := Option.isSome_iff_exists.mp hsome
  exact ⟨c, hc, run_hasOrigin sampleCrypto sampleConfig 60 .default _ 0 c hc⟩

end Router

end SniRouter
