import SniRouter.H3.Load

/-!
# What an ACL means

The meaning of an ACL in the terms it is written in: a CIDR contains the addresses that agree with
it on its first bits, one of IPv4 only IPv4 addresses (also those that come in mapped to IPv6), and
the first rule that contains the peer decides. Loading translates every CIDR to IPv6 and the peer is
translated too; the theorem of this file is that nothing is lost or gained on the way.
-/

namespace SniRouter

/-! ## The meaning -/

/-- Two addresses agree on their first `n` bits. -/
def SharePrefix {w : ℕ} (n : ℕ) (a b : BitVec w) : Prop := ∀ i < n, a.getMsbD i = b.getMsbD i

instance {w : ℕ} (n : ℕ) (a b : BitVec w) : Decidable (SharePrefix n a b) :=
  inferInstanceAs (Decidable (∀ i < n, a.getMsbD i = b.getMsbD i))

/-- The IPv4 address of a peer, if it has one. -/
def ipv4Of : SocketAddr → Option Ipv4Addr
  | .v4 ip _ => some ip
  | .v6 ip _ _ _ => toIpv4Mapped ip

/-- A CIDR contains a peer. -/
def IpNet.Contains (source : IpNet) (peer : SocketAddr) : Prop :=
  match source with
  | .v4 addr prefixLen _ => ∃ ip ∈ ipv4Of peer, SharePrefix prefixLen addr ip
  | .v6 net => SharePrefix net.prefixLen net.addr (peerIpV6 peer)

instance (source : IpNet) (peer : SocketAddr) : Decidable (source.Contains peer) :=
  match source with
  | .v4 addr prefixLen _ =>
    inferInstanceAs (Decidable (∃ ip ∈ ipv4Of peer, SharePrefix prefixLen addr ip))
  | .v6 net => inferInstanceAs (Decidable (SharePrefix net.prefixLen net.addr (peerIpV6 peer)))

/-- A rule applies to a peer: its source is a CIDR that contains the peer. -/
def Protos.AclRule.Applies (env : LoadEnv) (peer : SocketAddr) (rule : Protos.AclRule) : Prop :=
  ∃ source ∈ (env.parseIpNet rule.source).toOption, source.Contains peer

instance (env : LoadEnv) (peer : SocketAddr) (rule : Protos.AclRule) :
    Decidable (rule.Applies env peer) :=
  inferInstanceAs (Decidable (∃ source ∈ (env.parseIpNet rule.source).toOption,
    source.Contains peer))

/-- What an ACL says about a peer: the action of the first rule that applies, or the default. -/
def Protos.Acl.actionFor (env : LoadEnv) (pb : Protos.Acl) (peer : SocketAddr) : AclAction :=
  match pb.rules.find? fun rule => rule.Applies env peer with
  | some rule => rule.action
  | none => pb.defaultAction

/-! ## Prefixes -/

section Prefixes

variable {w n : ℕ}

/-- Comparing what is left after shifting the other bits out compares the first bits. -/
theorem shiftRight_eq_iff {a b : BitVec w} (hn : n ≤ w) :
    a >>> (w - n) = b >>> (w - n) ↔ SharePrefix n a b := by
  constructor
  · intro h i hi
    have hbit := congrArg (fun x : BitVec w => x.getMsbD (i + (w - n))) h
    simp only [BitVec.getMsbD_ushiftRight] at hbit
    have hlt : i + (w - n) < w := by omega
    have hge : ¬i + (w - n) < w - n := by omega
    simpa [hlt, hge] using hbit
  · intro h
    apply BitVec.eq_of_getMsbD_eq
    intro i hi
    rw [BitVec.getMsbD_ushiftRight, BitVec.getMsbD_ushiftRight]
    by_cases hlow : i < w - n
    · simp [hlow]
    · rw [h (i - (w - n)) (by omega)]

/-- Clearing the host bits keeps the first bits. -/
theorem sharePrefix_network {a : BitVec w} (b : BitVec w) (hn : n ≤ w) :
    SharePrefix n ((a >>> (w - n)) <<< (w - n)) b ↔ SharePrefix n a b := by
  have hbit : ∀ i < n, ((a >>> (w - n)) <<< (w - n)).getMsbD i = a.getMsbD i := by
    intro i hi
    rw [BitVec.getMsbD_shiftLeft, BitVec.getMsbD_ushiftRight]
    have hlt : i + (w - n) < w := by omega
    have hge : ¬i + (w - n) < w - n := by omega
    simp [hlt, hge]
  constructor
  · intro h i hi
    rw [← hbit i hi]
    exact h i hi
  · intro h i hi
    rw [hbit i hi]
    exact h i hi

/-- The first bits of a concatenation that reach into its second part. -/
theorem sharePrefix_append {v : ℕ} {a c : BitVec v} {b d : BitVec w} :
    SharePrefix (v + n) (a ++ b) (c ++ d) ↔ a = c ∧ SharePrefix n b d := by
  constructor
  · intro h
    constructor
    · apply BitVec.eq_of_getMsbD_eq
      intro i hi
      have hbit := h i (by omega)
      rwa [BitVec.getMsbD_append, BitVec.getMsbD_append, if_neg (by omega),
        if_neg (by omega)] at hbit
    · intro i hi
      have hbit := h (v + i) (by omega)
      rwa [BitVec.getMsbD_append, BitVec.getMsbD_append, if_pos (by omega), if_pos (by omega),
        Nat.add_sub_cancel_left] at hbit
  · intro h i hi
    obtain ⟨hac, hbd⟩ := h
    rw [hac, BitVec.getMsbD_append, BitVec.getMsbD_append]
    split
    · exact hbd (i - v) (by omega)
    · rfl

end Prefixes

/-! ## Translated networks -/

theorem Ipv6Net.contains_iff (net : Ipv6Net) (ip : Ipv6Addr) :
    net.contains ip = true ↔ SharePrefix net.prefixLen net.addr ip := by
  rw [Ipv6Net.contains, beq_iff_eq]
  exact shiftRight_eq_iff net.valid

/-- An address in its upper 96 and its lower 32 bits. -/
theorem ipv6_eq_append (ip : Ipv6Addr) : ip.extractLsb' 32 96 ++ ip.extractLsb' 0 32 = ip := by
  apply BitVec.eq_of_getLsbD_eq
  intro i hi
  rw [BitVec.getLsbD_append]
  split
  · rename_i hlow
    simp [hlow]
  · rename_i hhigh
    simp only [BitVec.getLsbD_extractLsb']
    have hlt : i - 32 < 96 := by omega
    have hsum : 32 + (i - 32) = i := by omega
    simp [hlt, hsum]

/-- The IPv4 address of a peer is the one its IPv6 form is mapped from. -/
theorem mem_ipv4Of {peer : SocketAddr} {ip : Ipv4Addr} :
    ip ∈ ipv4Of peer ↔ peerIpV6 peer = toIpv6Mapped ip := by
  cases peer with
  | v4 ip' port =>
    show some ip' = some ip ↔ toIpv6Mapped ip' = toIpv6Mapped ip
    constructor
    · intro h
      rw [Option.some.inj h]
    · intro h
      rw [← toIpv4Mapped_toIpv6Mapped ip', h, toIpv4Mapped_toIpv6Mapped]
  | v6 ip6 port flowinfo scopeId =>
    show toIpv4Mapped ip6 = some ip ↔ ip6 = toIpv6Mapped ip
    constructor
    · intro h
      unfold toIpv4Mapped at h
      split at h
      · rename_i hhigh
        rw [← ipv6_eq_append ip6, hhigh, Option.some.inj h]
        rfl
      · cases h
    · intro h
      rw [h, toIpv4Mapped_toIpv6Mapped]

/-- The network an IPv4 CIDR is loaded to contains the mapped addresses the CIDR contains, and no
other. -/
theorem IpNet.toIpv6Net_contains (source : IpNet) (peer : SocketAddr) :
    source.toIpv6Net.contains (peerIpV6 peer) = true ↔ source.Contains peer := by
  rw [Ipv6Net.contains_iff]
  cases source with
  | v6 net => rfl
  | v4 addr prefixLen valid =>
    show SharePrefix (96 + prefixLen)
        (toIpv6Mapped ((addr >>> (32 - prefixLen)) <<< (32 - prefixLen))) (peerIpV6 peer) ↔
      ∃ ip ∈ ipv4Of peer, SharePrefix prefixLen addr ip
    rw [← ipv6_eq_append (peerIpV6 peer), toIpv6Mapped, sharePrefix_append,
      sharePrefix_network _ valid]
    constructor
    · intro h
      refine ⟨(peerIpV6 peer).extractLsb' 0 32, mem_ipv4Of.mpr ?_, h.2⟩
      rw [toIpv6Mapped, h.1, ipv6_eq_append]
    · intro h
      obtain ⟨ip, hip, hshare⟩ := h
      have hmapped := mem_ipv4Of.mp hip
      have hhigh : (peerIpV6 peer).extractLsb' 32 96 = 0xffff := by
        rw [hmapped]
        exact BitVec.extractLsb'_append_eq_left
      have hlow : (peerIpV6 peer).extractLsb' 0 32 = ip := by
        rw [hmapped]
        exact BitVec.extractLsb'_append_eq_right
      rw [hhigh, hlow]
      exact ⟨rfl, hshare⟩

/-! ## Loaded ACLs -/

section FirstRule

variable {env : LoadEnv} {peer : SocketAddr} {defaultAction : AclAction}

theorem actionFor_cons (rule : Protos.AclRule) (rules : List Protos.AclRule) :
    Protos.Acl.actionFor env ⟨defaultAction, rule :: rules⟩ peer =
      if rule.Applies env peer then rule.action
      else Protos.Acl.actionFor env ⟨defaultAction, rules⟩ peer := by
  unfold Protos.Acl.actionFor
  by_cases h : rule.Applies env peer
  · rw [if_pos h, List.find?_cons_of_pos (by simpa using h)]
  · rw [if_neg h, List.find?_cons_of_neg (by simpa using h)]

theorem aclAction_cons (rule : AclRule) (rules : List AclRule) (ip : Ipv6Addr) :
    aclAction ⟨rule :: rules, defaultAction⟩ ip =
      if rule.source.contains ip = true then rule.action
      else aclAction ⟨rules, defaultAction⟩ ip := by
  unfold aclAction
  by_cases h : rule.source.contains ip = true
  · rw [if_pos h, List.find?_cons_of_pos (by simpa using h)]
  · rw [if_neg h, List.find?_cons_of_neg (by simpa using h)]

/-- The loaded rules decide like the rules they were loaded from. -/
theorem loadAclRules_aclAction {pbs : List Protos.AclRule} {rules : List AclRule}
    (h : loadAclRules env pbs = .ok rules) :
    aclAction ⟨rules, defaultAction⟩ (peerIpV6 peer) =
      Protos.Acl.actionFor env ⟨defaultAction, pbs⟩ peer := by
  induction pbs generalizing rules with
  | nil =>
    cases h
    rfl
  | cons pb pbs ih =>
    obtain ⟨source, hsource, h⟩ := except_bind_eq_ok h
    rw [mapError_eq_ok] at hsource
    split at h
    · cases h
    obtain ⟨rest, hrest, h⟩ := except_bind_eq_ok h
    cases h
    have happlies : pb.Applies env peer ↔ source.Contains peer := by
      simp [Protos.AclRule.Applies, hsource, Except.toOption]
    rw [aclAction_cons, actionFor_cons, ih hrest]
    simp only [source.toIpv6Net_contains peer, happlies]

theorem loadAcl_aclAction {pb : Protos.Acl} {acl : Acl} (h : loadAcl env pb = .ok acl) :
    aclAction acl (peerIpV6 peer) = pb.actionFor env peer := by
  obtain ⟨rules, hrules, h⟩ := except_bind_eq_ok h
  cases h
  exact loadAclRules_aclAction hrules

end FirstRule

/-- Two addresses that name the same client are matched against ACLs as the same address. -/
theorem peerIpV6_of_normalize_eq {left right : SocketAddr}
    (h : normalizeSocketAddr left = normalizeSocketAddr right) :
    peerIpV6 left = peerIpV6 right := by
  have hnormal : ∀ addr, peerIpV6 (normalizeSocketAddr addr) = peerIpV6 addr := by
    intro addr
    cases addr with
    | v4 ip port => rfl
    | v6 ip port flowinfo scopeId =>
      simp only [normalizeSocketAddr]
      cases hmapped : toIpv4Mapped ip with
      | none => rfl
      | some ip4 =>
        have hmem : ip4 ∈ ipv4Of (.v6 ip port flowinfo scopeId) := hmapped
        exact (mem_ipv4Of.mp hmem).symm
  rw [← hnormal left, h, hnormal]

/-- A loaded ACL means what its CIDRs say: for every peer, in whichever family it arrives, the
action is that of the first rule whose CIDR contains the peer, or the default; the prefix of a
translated IPv4 CIDR has at most 128 bits; and two addresses of one client get the same action. -/
theorem loadAcl_meaning {env : LoadEnv} {pb : Protos.Acl} {acl : Acl}
    (hload : loadAcl env pb = .ok acl) :
    (∀ peer, aclAction acl (peerIpV6 peer) = pb.actionFor env peer) ∧
    (∀ (addr : Ipv4Addr) (prefixLen : ℕ) (valid : prefixLen ≤ 32),
      (IpNet.v4 addr prefixLen valid).toIpv6Net.prefixLen = 96 + prefixLen ∧
        96 + prefixLen ≤ 128) ∧
    (∀ left right, normalizeSocketAddr left = normalizeSocketAddr right →
      aclAction acl (peerIpV6 left) = aclAction acl (peerIpV6 right)) := by
  refine ⟨fun peer => loadAcl_aclAction hload, ?_, ?_⟩
  · intro addr prefixLen valid
    exact ⟨rfl, (IpNet.v4 addr prefixLen valid).toIpv6Net.valid⟩
  · intro left right h
    rw [peerIpV6_of_normalize_eq h]

/-- `10.1.2.3`. -/
def cidrAddr : Ipv4Addr := 0x0a010203

/-- `10.9.9.9`. -/
def cidrPeer : Ipv4Addr := 0x0a090909

/-- `::1`. -/
def loopback : Ipv6Addr := 1

/-- An environment that knows one CIDR, with host bits set. -/
def cidrEnv : LoadEnv where
  lookupHost _ := .error "failed to lookup address information"
  readToString _ := .error "No such file or directory"
  compileFullMatch _ := .error "regex parse error"
  parseIpNet text :=
    if text = "10.1.2.3/8" then .ok (.v4 cidrAddr 8 (by decide))
    else .error "invalid IP address syntax"

/-- With `10.1.2.3/8` accepted, the peer `10.9.9.9` is accepted in both families, and `::1` is
not. -/
theorem loadAcl_meaning_cidr :
    ∃ acl, loadAcl cidrEnv ⟨.drop, [⟨"10.1.2.3/8", .accept⟩]⟩ = .ok acl ∧
      aclAction acl (peerIpV6 (.v4 cidrPeer 443)) = .accept ∧
      aclAction acl (peerIpV6 (.v6 (toIpv6Mapped cidrPeer) 443 0 0)) = .accept ∧
      aclAction acl (peerIpV6 (.v6 loopback 443 0 0)) = .drop := by
  obtain ⟨acl, hload⟩ :
      ∃ acl, loadAcl cidrEnv ⟨.drop, [⟨"10.1.2.3/8", .accept⟩]⟩ = .ok acl := ⟨_, rfl⟩
  obtain ⟨haction, -, hsame⟩ := loadAcl_meaning hload
  have hcidr : (cidrEnv.parseIpNet "10.1.2.3/8").toOption =
      some (.v4 cidrAddr 8 (by decide)) := rfl
  have hshare : SharePrefix 8 cidrAddr cidrPeer := by decide
  have happlies : Protos.AclRule.Applies cidrEnv (.v4 cidrPeer 443) ⟨"10.1.2.3/8", .accept⟩ :=
    ⟨_, hcidr, cidrPeer, rfl, hshare⟩
  have hother : ¬Protos.AclRule.Applies cidrEnv (.v6 loopback 443 0 0) ⟨"10.1.2.3/8", .accept⟩ := by
    intro h
    obtain ⟨source, hsource, hin⟩ := h
    cases hcidr.symm.trans hsource
    obtain ⟨ip, hip, -⟩ := hin
    have hnone : ipv4Of (.v6 loopback 443 0 0) = none := by decide
    cases hnone.symm.trans hip
  have haccept : aclAction acl (peerIpV6 (.v4 cidrPeer 443)) = .accept := by
    rw [haction, actionFor_cons, if_pos happlies]
  refine ⟨acl, hload, haccept, ?_, ?_⟩
  · rw [← haccept]
    exact hsame _ _ (normalizeSocketAddr_v6_mapped ..)
  · rw [haction, actionFor_cons, if_neg hother]
    rfl

end SniRouter
