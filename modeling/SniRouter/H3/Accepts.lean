import SniRouter.H3.QuicLb
import SniRouter.SharedConfig

/-!
# The configurations of the HTTP/3 router

`load_config` makes its checks one after the other, and a table of servers entry by entry. Here is
what it accepts without the order of the checks: each part of a loaded configuration is read from
the part of the message at the same place, and the configuration IDs and the server IDs of an
entry are different.
-/

namespace SniRouter

/-! ## What is accepted -/

/-- A source in CIDR notation, and an action. -/
structure AclRule.ReadFrom (env : LoadEnv) (rule : AclRule) (pb : Protos.AclRule) : Prop where
  source : ∃ net, env.parseIpNet pb.source = .ok net ∧ rule.source = net.toIpv6Net
  specified : pb.action ≠ .unspecified
  action : rule.action = pb.action

structure Acl.ReadFrom (env : LoadEnv) (acl : Acl) (pb : Protos.Acl) : Prop where
  rules : List.Forall₂ (fun pb rule => AclRule.ReadFrom env rule pb) pb.rules acl.rules
  defaultAction : acl.defaultAction = pb.defaultAction

/-- A backend that asks for nothing only the TCP router does. -/
inductive Backend.ReadFrom (env : LoadEnv) : Backend → Protos.Backend → Prop
  | null : ReadFrom env .null ⟨some .null, false, false⟩
  | udp {name : String} {first : SocketAddr} {rest : List SocketAddr}
    (hlookup : env.lookupHost name = .ok (first :: rest)) :
    ReadFrom env (.udp first) ⟨some (.proxy ⟨name, false⟩), false, false⟩

/-- A rule with its regex, or the default rule without one. A rule without ACL accepts everyone. -/
structure Rule.ReadFrom (env : LoadEnv) (isDefault : Bool) (rule : Rule) (pb : Protos.Rule) :
    Prop where
  re : if isDefault then pb.regex = none ∧ rule.re = fun _ => true
    else ∃ re, pb.regex = some re ∧ env.compileFullMatch re = .ok rule.re
  acl : match pb.acl with
    | none => rule.acl = ⟨[], .accept⟩
    | some acl => rule.acl.ReadFrom env acl
  backend : ∃ backend, pb.backend = some backend ∧ rule.backend.ReadFrom env backend
  timeout : rule.timeout = optMillis pb.maxLifetimeMs

/-- A valid configuration ID, and a key file of 32 hexadecimal digits. -/
structure Codec.ReadFrom (env : LoadEnv) (codec : Codec) (pb : Protos.QuicLbConfig) : Prop where
  configId_lt : pb.configId < 7
  configId_eq : codec.configId = UInt8.ofNat pb.configId
  key : ∃ text, env.readToString pb.keyFile = .ok text ∧ (trim text).length = 32 ∧
    (∀ c ∈ trim text, (hexDigit? c).isSome = true) ∧ codec.key = hexBytes (trim text)

/-- A server with its ID, whose address is the first that its name resolves to. -/
structure Protos.QuicLbServer.Resolves (env : LoadEnv) (pb : Protos.QuicLbServer)
    (entry : ℕ × SocketAddr) : Prop where
  serverId : pb.serverId = some entry.1
  addr : ∃ first rest, env.lookupHost pb.addr = .ok (first :: rest) ∧
    entry.2 = normalizeSocketAddr first

/-- The table with the entries inserted one by one. -/
def insertServers (servers : Table ℕ SocketAddr) (entries : List (ℕ × SocketAddr)) :
    Table ℕ SocketAddr :=
  entries.foldl (fun servers entry => servers.insert entry.1 entry.2) servers

/-- At least one server, each with an ID of its own. -/
structure LbConfig.ReadFrom (env : LoadEnv) (lb : LbConfig) (pb : Protos.QuicLbConfig) :
    Prop where
  codec : lb.codec.ReadFrom env pb
  nonempty : pb.servers ≠ []
  servers : ∃ entries, List.Forall₂ (Protos.QuicLbServer.Resolves env) pb.servers entries ∧
    (entries.map Prod.fst).Nodup ∧ lb.servers = insertServers ∅ entries

structure Config.ReadFrom (env : LoadEnv) (config : Config) (pb : Protos.SniConfig) : Prop where
  quicLb : List.Forall₂ (fun pb lb => LbConfig.ReadFrom env lb pb) pb.quicLb config.quicLb
  configIds : (pb.quicLb.map fun lb => lb.configId).Nodup
  rules : List.Forall₂ (fun pb rule => Rule.ReadFrom env false rule pb) pb.rules config.rules
  default : ∃ default, pb.default = some default ∧ config.default.ReadFrom env true default
  maxLifetime : config.maxLifetime = optMillis pb.maxLifetimeMs
  handshakeTimeout : config.handshakeTimeout = optMillis pb.handshakeTimeoutMs

section Accepts

variable {env : LoadEnv}

/-! ## Rules -/

/-- The rules of an ACL are loaded one by one. -/
theorem loadAclRules_eq_ok_iff {pbs : List Protos.AclRule} {rules : List AclRule} :
    loadAclRules env pbs = .ok rules ↔
      List.Forall₂ (fun pb rule => AclRule.ReadFrom env rule pb) pbs rules := by
  induction pbs generalizing rules with
  | nil =>
    rw [List.forall₂_nil_left_iff]
    constructor
    · intro h
      cases h
      rfl
    · rintro rfl
      rfl
  | cons pb pbs ih =>
    simp only [loadAclRules, except_bind_eq_ok_iff, mapError_eq_ok, List.forall₂_cons_left_iff]
    constructor
    · rintro ⟨net, hnet, h⟩
      split at h
      · cases h
      rename_i hspecified
      obtain ⟨rest, hrest, hret⟩ := except_bind_eq_ok_iff.mp h
      cases hret
      exact ⟨_, rest, ⟨⟨net, hnet, rfl⟩, hspecified, rfl⟩, ih.mp hrest, rfl⟩
    · rintro ⟨rule, rest, ⟨⟨net, hnet, hsource⟩, hspecified, haction⟩, hrest, rfl⟩
      refine ⟨net, hnet, ?_⟩
      rw [if_neg hspecified, ih.mpr hrest, ← hsource, ← haction]
      rfl

/-- An ACL is accepted when all its rules are. -/
theorem loadAcl_eq_ok_iff {pb : Protos.Acl} {acl : Acl} :
    loadAcl env pb = .ok acl ↔ acl.ReadFrom env pb := by
  simp only [loadAcl, except_bind_eq_ok_iff, loadAclRules_eq_ok_iff]
  constructor
  · rintro ⟨rules, hrules, hret⟩
    cases hret
    exact ⟨hrules, rfl⟩
  · rintro ⟨hrules, haction⟩
    refine ⟨_, hrules, ?_⟩
    rw [← haction]
    rfl

/-- A backend is null, or has a name that resolves. -/
theorem loadBackend_eq_ok_iff {pb : Protos.Backend} {backend : Backend} :
    loadBackend env pb = .ok backend ↔ backend.ReadFrom env pb := by
  obtain ⟨backendType, hasFrontendTls, hasSorry⟩ := pb
  constructor
  · intro h
    unfold loadBackend at h
    split at h
    · cases h
    rename_i hfrontend
    split at h
    · cases h
    rename_i hfallback
    obtain rfl : hasFrontendTls = false := Bool.eq_false_of_not_eq_true hfrontend
    obtain rfl : hasSorry = false := Bool.eq_false_of_not_eq_true hfallback
    dsimp only at h
    split at h
    · cases h
    · cases h
      exact .null
    · rename_i proxy
      obtain ⟨name, proxyHeader⟩ := proxy
      split at h
      · cases h
      rename_i hheader
      obtain rfl : proxyHeader = false := Bool.eq_false_of_not_eq_true hheader
      obtain ⟨first, hfirst, hret⟩ := except_bind_eq_ok_iff.mp h
      cases hret
      obtain ⟨rest, hlookup⟩ := resolveOneAddr_eq_ok_iff.mp hfirst
      exact .udp hlookup
    · cases h
  · intro h
    cases h with
    | null => rfl
    | udp hlookup =>
      have hfirst := resolveOneAddr_eq_ok_iff.mpr ⟨_, hlookup⟩
      simp only [loadBackend, Bool.false_eq_true, if_false, hfirst]
      rfl

/-- Each rule has a regex that compiles, except the default one, which has none. -/
theorem loadRegex_eq_ok_iff {pb : Protos.Rule} {isDefault : Bool} {re : Bytes → Bool} :
    loadRegex env pb isDefault = .ok re ↔
      if isDefault then pb.regex = none ∧ re = fun _ => true
      else ∃ pattern, pb.regex = some pattern ∧ env.compileFullMatch pattern = .ok re := by
  cases isDefault with
  | true =>
    cases hpattern : pb.regex with
    | none => simp [loadRegex, hpattern, eq_comm]
    | some pattern => simp [loadRegex, hpattern]
  | false => simp [loadRegex, except_bind_eq_ok_iff, okOr_eq_ok_iff]

/-- A rule without an ACL accepts everyone. -/
theorem elim_loadAcl_eq_ok_iff {pb : Option Protos.Acl} {acl : Acl} :
    pb.elim (.ok ⟨[], .accept⟩) (loadAcl env) = .ok acl ↔
      match pb with
      | none => acl = ⟨[], .accept⟩
      | some pb => acl.ReadFrom env pb := by
  cases pb with
  | none =>
    rw [Option.elim_none, Except.ok.injEq]
    exact eq_comm
  | some pb => exact loadAcl_eq_ok_iff

/-- A rule is accepted when its regex, its ACL and its backend are. -/
theorem loadRule_eq_ok_iff {pb : Protos.Rule} {isDefault : Bool} {rule : Rule} :
    loadRule env pb isDefault = .ok rule ↔ rule.ReadFrom env isDefault pb := by
  simp only [loadRule, except_bind_eq_ok_iff, okOr_eq_ok_iff]
  constructor
  · rintro ⟨re, hre, acl, hacl, backend, hbackend, loaded, hloaded, hret⟩
    cases hret
    exact ⟨loadRegex_eq_ok_iff.mp hre, elim_loadAcl_eq_ok_iff.mp hacl,
      ⟨backend, hbackend, loadBackend_eq_ok_iff.mp hloaded⟩, rfl⟩
  · rintro ⟨hre, hacl, ⟨backend, hbackend, hloaded⟩, htimeout⟩
    refine ⟨_, loadRegex_eq_ok_iff.mpr hre, _, elim_loadAcl_eq_ok_iff.mpr hacl, backend, hbackend,
      _, loadBackend_eq_ok_iff.mpr hloaded, ?_⟩
    rw [← htimeout]
    rfl

/-! ## QUIC-LB -/

/-- The check is made on the ID as a byte. -/
theorem ofNat_lt_seven_iff {n : ℕ} (hn : n < 256) : UInt8.ofNat n < 7 ↔ n < 7 := by
  rw [UInt8.lt_iff_toNat_lt, UInt8.toNat_ofNat_of_lt' hn]
  exact Iff.rfl

/-- A codec has an ID below 7 and a key of 32 hexadecimal digits. -/
theorem fromKeyFile_eq_ok_iff {pb : Protos.QuicLbConfig} {codec : Codec} :
    pb.configId < 256 ∧ Codec.fromKeyFile env (UInt8.ofNat pb.configId) pb.keyFile = .ok codec ↔
      codec.ReadFrom env pb := by
  constructor
  · rintro ⟨hlt, h⟩
    obtain ⟨hid, hseven, -⟩ := Codec.fromKeyFile_ok h
    unfold Codec.fromKeyFile at h
    split at h
    · cases h
    rename_i text htext
    split at h
    · rename_i hhex
      rw [Codec.new, if_pos hseven] at h
      cases h
      exact ⟨(ofNat_lt_seven_iff hlt).mp hseven, rfl,
        text, htext, hhex.1, List.all_eq_true.mp hhex.2, rfl⟩
    · cases h
  · rintro ⟨hlt, hid, text, htext, hlength, hhex, hkey⟩
    have hbyte : pb.configId < 256 := by omega
    refine ⟨hbyte, ?_⟩
    unfold Codec.fromKeyFile
    rw [htext]
    dsimp only
    rw [if_pos ⟨hlength, List.all_eq_true.mpr hhex⟩, Codec.new,
      if_pos ((ofNat_lt_seven_iff hbyte).mpr hlt), ← hid, ← hkey]

/-- The servers are accepted when each resolves and no ID occurs twice. -/
theorem loadServers_eq_ok_iff {pbs : List Protos.QuicLbServer}
    {servers loaded : Table ℕ SocketAddr} :
    loadServers env servers pbs = .ok loaded ↔
      ∃ entries, List.Forall₂ (Protos.QuicLbServer.Resolves env) pbs entries ∧
        (entries.map Prod.fst).Nodup ∧ (∀ entry ∈ entries, servers.lookup entry.1 = none) ∧
        loaded = insertServers servers entries := by
  induction pbs generalizing servers with
  | nil =>
    constructor
    · intro h
      cases h
      exact ⟨[], .nil, List.nodup_nil, nofun, rfl⟩
    · rintro ⟨entries, hentries, -, -, rfl⟩
      cases hentries
      rfl
  | cons pb pbs ih =>
    constructor
    · intro h
      unfold loadServers at h
      split at h
      · cases h
      rename_i sid hsid
      obtain ⟨first, hfirst, h⟩ := except_bind_eq_ok_iff.mp h
      obtain ⟨rest, hlookup⟩ := resolveOneAddr_eq_ok_iff.mp hfirst
      split at h
      · cases h
      rename_i hfree
      obtain ⟨entries, hentries, hnodup, hfresh, hloaded⟩ := ih.mp h
      -- an ID that comes later differs from this one, which is in the table by then
      have hother : ∀ entry ∈ entries, entry.1 ≠ sid ∧ servers.lookup entry.1 = none := by
        intro entry hentry
        have hnone := hfresh entry hentry
        rw [Table.lookup_insert] at hnone
        split at hnone
        · cases hnone
        · exact ⟨‹_›, hnone⟩
      refine ⟨(sid, normalizeSocketAddr first) :: entries,
        .cons ⟨hsid, first, rest, hlookup, rfl⟩ hentries, ?_, ?_, hloaded⟩
      · rw [List.map_cons, List.nodup_cons]
        refine ⟨fun hmem => ?_, hnodup⟩
        obtain ⟨entry, hentry, heq⟩ := List.mem_map.mp hmem
        exact (hother entry hentry).1 heq
      · intro entry hentry
        rcases List.mem_cons.mp hentry with rfl | hentry
        · exact Option.not_isSome_iff_eq_none.mp hfree
        · exact (hother entry hentry).2
    · rintro ⟨entries, hentries, hnodup, hfresh, hloaded⟩
      cases hentries with
      | @cons _ entry _ entries hhead hentries =>
        obtain ⟨hsid, first, rest, hlookup, haddr⟩ := hhead
        rw [List.map_cons, List.nodup_cons] at hnodup
        have hfree := hfresh entry List.mem_cons_self
        unfold loadServers
        rw [hsid, resolveOneAddr_eq_ok_iff.mpr ⟨rest, hlookup⟩]
        refine except_bind_eq_ok_iff.mpr ⟨first, rfl, ?_⟩
        rw [hfree, ← haddr, if_neg (by simp)]
        refine ih.mpr ⟨entries, hentries, hnodup.2, fun other hother => ?_, hloaded⟩
        have hne : other.1 ≠ entry.1 := fun heq =>
          hnodup.1 (heq ▸ List.mem_map_of_mem hother)
        rw [Table.lookup_insert, if_neg hne]
        exact hfresh other (List.mem_cons_of_mem _ hother)

/-- Inserting servers leaves the table empty only if there are none. -/
theorem size_insertServers_eq_zero_iff {servers : Table ℕ SocketAddr}
    {entries : List (ℕ × SocketAddr)} :
    (insertServers servers entries).size = 0 ↔ servers.size = 0 ∧ entries = [] := by
  induction entries generalizing servers with
  | nil => simp [insertServers]
  | cons entry entries ih =>
    have hstep : insertServers servers (entry :: entries) =
        insertServers (servers.insert entry.1 entry.2) entries := rfl
    rw [hstep, ih]
    constructor
    · intro h
      exact absurd h.1 (Table.size_insert_ne_zero servers entry.1 entry.2)
    · rintro ⟨-, ⟨⟩⟩

/-- One entry. -/
theorem readFrom_iff {pb : Protos.QuicLbConfig} {lb : LbConfig} :
    lb.ReadFrom env pb ↔ lb.codec.ReadFrom env pb ∧
      loadServers env ∅ pb.servers = .ok lb.servers ∧ lb.servers.size ≠ 0 := by
  have hsize : ∀ entries, List.Forall₂ (Protos.QuicLbServer.Resolves env) pb.servers entries →
      ((insertServers ∅ entries).size = 0 ↔ pb.servers = []) := by
    intro entries hentries
    have hlength := hentries.length_eq
    rw [size_insertServers_eq_zero_iff, ← List.length_eq_zero_iff, ← hlength,
      List.length_eq_zero_iff]
    exact and_iff_right rfl
  rw [loadServers_eq_ok_iff]
  constructor
  · rintro ⟨hcodec, hne, entries, hentries, hnodup, hservers⟩
    refine ⟨hcodec, ⟨entries, hentries, hnodup, fun _ _ => rfl, hservers⟩, ?_⟩
    rw [hservers, Ne, hsize entries hentries]
    exact hne
  · rintro ⟨hcodec, ⟨entries, hentries, hnodup, -, hservers⟩, hne⟩
    rw [hservers, Ne, hsize entries hentries] at hne
    exact ⟨hcodec, hne, entries, hentries, hnodup, hservers⟩

/-- The entries are accepted when each of them is and no ID occurs twice. -/
theorem loadQuicLb_eq_ok_iff {pbs : List Protos.QuicLbConfig} {configIds : HashSet UInt8}
    {entries : List LbConfig} :
    loadQuicLb env configIds pbs = .ok entries ↔
      List.Forall₂ (fun pb lb => LbConfig.ReadFrom env lb pb) pbs entries ∧
        (pbs.map fun pb => pb.configId).Nodup ∧
        ∀ pb ∈ pbs, UInt8.ofNat pb.configId ∉ configIds := by
  induction pbs generalizing configIds entries with
  | nil =>
    rw [List.forall₂_nil_left_iff]
    constructor
    · intro h
      cases h
      exact ⟨rfl, List.nodup_nil, nofun⟩
    · rintro ⟨rfl, -, -⟩
      rfl
  | cons pb pbs ih =>
    rw [List.map_cons, List.nodup_cons, List.forall_mem_cons]
    constructor
    · intro h
      unfold loadQuicLb at h
      split at h
      · cases h
      rename_i hlt
      split at h
      · cases h
      rename_i hnew
      obtain ⟨codec, hcodec, h⟩ := except_bind_eq_ok_iff.mp h
      obtain ⟨servers, hservers, h⟩ := except_bind_eq_ok_iff.mp h
      split at h
      · cases h
      rename_i hne
      obtain ⟨rest, hrest, hret⟩ := except_bind_eq_ok_iff.mp h
      cases hret
      obtain ⟨hread, hnodup, hfresh⟩ := ih.mp hrest
      refine ⟨.cons (readFrom_iff.mpr ⟨fromKeyFile_eq_ok_iff.mp ⟨not_le.mp hlt, hcodec⟩,
        hservers, hne⟩) hread, ⟨fun hmem => ?_, hnodup⟩, hnew, fun pb' hpb' hmem => ?_⟩
      · obtain ⟨pb', hpb', heq⟩ := List.mem_map.mp hmem
        exact hfresh pb' hpb' (HashSet.mem_insert.mpr (.inl (congrArg UInt8.ofNat heq)))
      · exact hfresh pb' hpb' (HashSet.mem_insert.mpr (.inr hmem))
    · rintro ⟨hread, ⟨hother, hnodup⟩, hnew, hfresh⟩
      cases hread with
      | @cons _ lb _ rest hhead hread =>
        obtain ⟨hcodec, hservers, hne⟩ := readFrom_iff.mp hhead
        obtain ⟨hlt, hcodec⟩ := fromKeyFile_eq_ok_iff.mpr hcodec
        have hsevens : ∀ pb' ∈ pbs, pb'.configId < 7 := ((List.forall₂_and_left pbs rest).mp
          (hread.imp fun _ _ h => ⟨h.codec.configId_lt, h⟩)).1
        -- so IDs that are different are different bytes
        have hids : ∀ pb' ∈ pbs,
            UInt8.ofNat pb'.configId ∉ configIds.insert (UInt8.ofNat pb.configId) := by
          intro pb' hpb' hmem
          rcases HashSet.mem_insert.mp hmem with heq | hmem
          · refine hother (List.mem_map.mpr ⟨pb', hpb', ?_⟩)
            have hlt' : pb'.configId < 256 := (hsevens pb' hpb').trans (by decide)
            have hnat := congrArg UInt8.toNat heq
            rwa [UInt8.toNat_ofNat_of_lt' hlt', UInt8.toNat_ofNat_of_lt' hlt] at hnat
          · exact hfresh pb' hpb' hmem
        have hrest := ih.mpr ⟨hread, hnodup, hids⟩
        unfold loadQuicLb
        rw [if_neg (not_le.mpr hlt), if_neg hnew, hcodec]
        refine except_bind_eq_ok_iff.mpr ⟨_, rfl, except_bind_eq_ok_iff.mpr ⟨_, hservers, ?_⟩⟩
        rw [if_neg hne, hrest]
        rfl

/-! ## The configuration -/

/-- **Exactly these configurations are loaded.** -/
theorem loadConfig_readFrom_iff (env : LoadEnv) (pb : Protos.SniConfig) (config : Config) :
    loadConfig env pb = .ok config ↔ config.ReadFrom env pb := by
  simp only [loadConfig, except_bind_eq_ok_iff, okOr_eq_ok_iff, loadQuicLb_eq_ok_iff,
    loadRule_eq_ok_iff, mapM_eq_ok_iff]
  constructor
  · rintro ⟨quicLb, ⟨hquicLb, hids, -⟩, default, hdefault, loaded, hloaded, rules, hrules, hret⟩
    cases hret
    exact ⟨hquicLb, hids, hrules, ⟨default, hdefault, hloaded⟩, rfl, rfl⟩
  · rintro ⟨hquicLb, hids, hrules, ⟨default, hdefault, hloaded⟩, hlifetime, htimeout⟩
    refine ⟨_, ⟨hquicLb, hids, fun _ _ => HashSet.notMem_empty _⟩, default, hdefault, _, hloaded, _,
      hrules, ?_⟩
    rw [← hlifetime, ← htimeout]
    rfl

end Accepts

end SniRouter
