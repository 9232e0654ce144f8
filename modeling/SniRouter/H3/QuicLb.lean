import SniRouter.Wire
import SniRouter.H3.Load

/-!
# Routable connection IDs

A backend issues connection IDs that encrypt its server ID with the key of a QUIC-LB configuration,
and the router decrypts them to find the backend again. `lb_backend` tries every configuration until
one knows the server, so that a connection ID of one configuration is not taken for one of another
rests on what loading has checked: the configuration IDs are different, and each is less than 7.

AES is a parameter of which only the law that decryption inverts encryption is used.
-/

namespace SniRouter

/-! ## Issuing a connection ID -/

/-- `quic_lb::Codec::encrypt`: the configuration ID and the length of the rest, and one encrypted
block. -/
def Codec.encrypt (encryptBlock : Bytes → Bytes → Bytes) (codec : Codec) (plaintext : Bytes) :
    Bytes :=
  ((codec.configId <<< 5) ||| 16) :: encryptBlock codec.key plaintext

/-- A connection ID with other low five bits in its first byte. -/
def setLowBits (low : UInt8) : Bytes → Bytes
  | [] => []
  | first :: rest => ((first &&& 0xe0) ||| (low &&& 0x1f)) :: rest

/-- The address an entry lists for a server ID. -/
def Protos.QuicLbConfig.addrOf (env : LoadEnv) (pb : Protos.QuicLbConfig) (sid : ℕ) :
    Option SocketAddr :=
  (pb.servers.find? fun server => server.serverId = some sid).bind fun server =>
    (resolveOneAddr env server.addr).toOption.map normalizeSocketAddr

/-- What is promised of AES-128. -/
structure BlockLaws (cr : Crypto) (encryptBlock : Bytes → Bytes → Bytes) : Prop where
  decrypt_encrypt : ∀ key block : Bytes, key.length = 16 → block.length = 16 →
    cr.decryptBlock key (encryptBlock key block) = block
  length_encrypt : ∀ key block : Bytes, key.length = 16 → block.length = 16 →
    (encryptBlock key block).length = 16

/-! ## What loading has checked -/

theorem length_hexBytes (text : List Char) : (hexBytes text).length = text.length / 2 := by
  fun_induction hexBytes text with
  | case1 a b rest ih =>
    rw [List.length_cons, ih, List.length_cons, List.length_cons]
    omega
  | case2 text hshort =>
    match text with
    | [] => rfl
    | [_] => simp
    | a :: b :: rest => exact absurd rfl (hshort a b rest)

/-- A codec read from a key file has the ID it was asked for and a key of 16 bytes. -/
theorem Codec.fromKeyFile_ok {env : LoadEnv} {configId : UInt8} {path : String} {codec : Codec}
    (h : Codec.fromKeyFile env configId path = .ok codec) :
    codec.configId = configId ∧ configId < 7 ∧ codec.key.length = 16 := by
  unfold Codec.fromKeyFile at h
  split at h
  · cases h
  split at h
  · rename_i htext
    unfold Codec.new at h
    split at h
    · rename_i hid
      cases h
      refine ⟨rfl, hid, ?_⟩
      rw [length_hexBytes, htext.1]
    · cases h
  · cases h

/-- A server ID is found with the address of its first server. -/
theorem loadServers_lookup {env : LoadEnv} {pbs : List Protos.QuicLbServer}
    {servers loaded : Table ℕ SocketAddr} (h : loadServers env servers pbs = .ok loaded)
    (sid : ℕ) :
    loaded.lookup sid = (servers.lookup sid).or
      ((pbs.find? fun server => server.serverId = some sid).bind fun server =>
        (resolveOneAddr env server.addr).toOption.map normalizeSocketAddr) := by
  induction pbs generalizing servers with
  | nil =>
    cases h
    simp
  | cons server rest ih =>
    unfold loadServers at h
    split at h
    · cases h
    rename_i sid' hsid
    obtain ⟨addr, haddr, h⟩ := except_bind_eq_ok h
    split at h
    · cases h
    rename_i hfree
    have hfree : servers.lookup sid' = none := by simpa using hfree
    rw [ih h, Table.lookup_insert]
    by_cases heq : sid = sid'
    · subst heq
      rw [if_pos rfl, hfree, List.find?_cons_of_pos (by simp [hsid])]
      simp [haddr, Except.toOption]
    · have hne : server.serverId ≠ some sid := by
        rw [hsid]
        intro hc
        exact heq (Option.some.inj hc).symm
      rw [if_neg heq, List.find?_cons_of_neg (by simp [hne])]

/-- An entry of the configuration message and what it was loaded to. -/
structure LbConfig.LoadedFrom (env : LoadEnv) (lb : LbConfig) (pb : Protos.QuicLbConfig) :
    Prop where
  configId_lt : pb.configId < 256
  codec_eq : Codec.fromKeyFile env (UInt8.ofNat pb.configId) pb.keyFile = .ok lb.codec
  lookup_eq : ∀ sid, lb.servers.lookup sid = pb.addrOf env sid

/-- The entries come from those of the message, with different configuration IDs. -/
theorem loadQuicLb_ok {env : LoadEnv} {pbs : List Protos.QuicLbConfig}
    {configIds : HashSet UInt8} {entries : List LbConfig}
    (h : loadQuicLb env configIds pbs = .ok entries) :
    (∀ lb ∈ entries, ∃ pb ∈ pbs, lb.LoadedFrom env pb) ∧
      (∀ pb ∈ pbs, ∃ lb ∈ entries, LbConfig.LoadedFrom env lb pb) ∧
      (entries.map fun lb => lb.codec.configId).Nodup ∧
      ∀ lb ∈ entries, lb.codec.configId ∉ configIds := by
  induction pbs generalizing configIds entries with
  | nil =>
    cases h
    simp
  | cons pb rest ih =>
    unfold loadQuicLb at h
    split at h
    · cases h
    rename_i hlt
    split at h
    · cases h
    rename_i hfresh
    obtain ⟨codec, hcodec, h⟩ := except_bind_eq_ok h
    obtain ⟨servers, hservers, h⟩ := except_bind_eq_ok h
    split at h
    · cases h
    obtain ⟨entries', hentries, h⟩ := except_bind_eq_ok h
    cases h
    obtain ⟨hfrom, hto, hnodup, hother⟩ := ih hentries
    have hid := (Codec.fromKeyFile_ok hcodec).1
    have hhead : LbConfig.LoadedFrom env ⟨codec, servers⟩ pb := by
      refine ⟨by omega, hcodec, ?_⟩
      intro sid
      have := loadServers_lookup hservers sid
      rwa [Table.lookup_empty, Option.none_or] at this
    refine ⟨?_, ?_, ?_, ?_⟩
    · intro lb hlb
      rcases List.mem_cons.mp hlb with rfl | hlb
      · exact ⟨pb, List.mem_cons_self, hhead⟩
      · obtain ⟨pb', hpb', hlb⟩ := hfrom lb hlb
        exact ⟨pb', List.mem_cons_of_mem _ hpb', hlb⟩
    · intro pb' hpb'
      rcases List.mem_cons.mp hpb' with rfl | hpb'
      · exact ⟨_, List.mem_cons_self, hhead⟩
      · obtain ⟨lb, hlb, hpb'⟩ := hto pb' hpb'
        exact ⟨lb, List.mem_cons_of_mem _ hlb, hpb'⟩
    · -- the IDs after this one were checked against it
      rw [List.map_cons, List.nodup_cons]
      refine ⟨?_, hnodup⟩
      intro hmem
      obtain ⟨lb, hlb, heq⟩ := List.mem_map.mp hmem
      have hnew := hother lb hlb
      rw [heq, hid] at hnew
      simp at hnew
    · intro lb hlb
      rcases List.mem_cons.mp hlb with rfl | hlb
      · rw [hid]
        exact hfresh
      · intro hc
        exact hother lb hlb (HashSet.mem_insert.mpr (.inr hc))

/-- The entries of a configuration were loaded from its message. -/
theorem loadConfig_quicLb {env : LoadEnv} {protocfg : Protos.SniConfig} {config : Config}
    (h : loadConfig env protocfg = .ok config) :
    loadQuicLb env ∅ protocfg.quicLb = .ok config.quicLb := by
  obtain ⟨quicLb, hquicLb, h⟩ := except_bind_eq_ok h
  obtain ⟨rule, -, h⟩ := except_bind_eq_ok h
  obtain ⟨default, -, h⟩ := except_bind_eq_ok h
  obtain ⟨rules, -, h⟩ := except_bind_eq_ok h
  cases h
  exact hquicLb

/-! ## The first byte -/

theorem low_bits_shiftRight (low : UInt8) : (low &&& 0x1f) >>> 5 = 0 := by
  apply UInt8.toNat_inj.mp
  rw [UInt8.toNat_shiftRight, UInt8.toNat_and, Nat.shiftRight_eq_div_pow]
  have hmod : low.toNat &&& (0x1f : UInt8).toNat = low.toNat % 32 :=
    Nat.and_two_pow_sub_one_eq_mod low.toNat 5
  rw [hmod]
  show low.toNat % 32 / 32 = 0
  omega

/-- The top three bits of an issued connection ID are the configuration ID, whatever is put into
the others. -/
theorem configId_of_first {configId : UInt8} (h : configId < 7) (low : UInt8) :
    ((((configId <<< 5) ||| 16) &&& 0xe0) ||| (low &&& 0x1f)) >>> 5 = configId := by
  have hid : (((configId <<< 5) ||| 16) &&& 0xe0) >>> 5 = configId := by
    obtain ⟨n, hn, rfl⟩ : ∃ n < 7, configId = UInt8.ofNat n :=
      ⟨configId.toNat, UInt8.lt_iff_toNat_lt.mp h, UInt8.ofNat_toNat.symm⟩
    interval_cases n <;> decide
  rw [UInt8.shiftRight_or, hid, low_bits_shiftRight, UInt8.or_zero]

/-! ## The lookup -/

/-- A search in which only one element can answer. -/
theorem findSome?_eq_of_unique {α β : Type} {f : α → Option β} {l : List α} {a : α} (ha : a ∈ l)
    (h : ∀ b ∈ l, b ≠ a → f b = none) : l.findSome? f = f a := by
  cases hfind : l.findSome? f with
  | none => exact (List.findSome?_eq_none_iff.mp hfind a ha).symm
  | some b =>
    obtain ⟨before, c, after, hl, hc, -⟩ := List.findSome?_eq_some_iff.mp hfind
    have hmem : c ∈ l := by
      rw [hl]
      simp
    by_cases hca : c = a
    · rw [← hca, hc]
    · rw [h c hmem hca] at hc
      cases hc

section Lookup

variable {cr : Crypto} {config : Config}

/-- One turn of the search. -/
def LbConfig.backend (cr : Crypto) (cid : Bytes) (lb : LbConfig) : Option SocketAddr := do
  let plaintext ← lb.codec.decrypt cr cid
  lb.servers.lookup (beNat (plaintext.take 4))

/-- An entry does not decode a CID of another length or ID. -/
theorem LbConfig.backend_of_ne {cid : Bytes} {lb : LbConfig}
    (h : cid.length ≠ quicLbCidLen ∨ cid.getD 0 0 >>> 5 ≠ lb.codec.configId) :
    lb.backend cr cid = none := by
  rw [backend, Codec.decrypt, if_pos h]
  rfl

theorem Config.lbBackend_eq (cid : Bytes) :
    config.lbBackend cr cid = config.quicLb.findSome? (LbConfig.backend cr cid) := rfl

/-- A CID that no entry decodes has no server. -/
theorem Config.lbBackend_eq_none {cid : Bytes}
    (h : ∀ lb ∈ config.quicLb, cid.length ≠ quicLbCidLen ∨
      cid.getD 0 0 >>> 5 ≠ lb.codec.configId) : config.lbBackend cr cid = none := by
  rw [lbBackend_eq, List.findSome?_eq_none_iff]
  intro lb hlb
  exact LbConfig.backend_of_ne (h lb hlb)

/-- With different configuration IDs, the entry with the ID of the connection ID answers. -/
theorem Config.lbBackend_of_configId {cid : Bytes} {lb : LbConfig}
    (hnodup : (config.quicLb.map fun lb => lb.codec.configId).Nodup) (hlb : lb ∈ config.quicLb)
    (hid : cid.getD 0 0 >>> 5 = lb.codec.configId) :
    config.lbBackend cr cid = lb.backend cr cid := by
  rw [lbBackend_eq]
  refine findSome?_eq_of_unique hlb ?_
  intro lb' hlb' hne
  refine LbConfig.backend_of_ne (.inr ?_)
  intro hid'
  exact hne (List.inj_on_of_nodup_map hnodup hlb' hlb (hid'.symm.trans hid))

/-- The order of the entries does not matter. -/
theorem Config.lbBackend_perm {config' : Config}
    (hnodup : (config.quicLb.map fun lb => lb.codec.configId).Nodup)
    (hperm : config'.quicLb.Perm config.quicLb) (cid : Bytes) :
    config'.lbBackend cr cid = config.lbBackend cr cid := by
  have hnodup' : (config'.quicLb.map fun lb => lb.codec.configId).Nodup :=
    (hperm.map _).nodup_iff.mpr hnodup
  by_cases hex : ∃ lb ∈ config.quicLb, cid.getD 0 0 >>> 5 = lb.codec.configId
  · obtain ⟨lb, hlb, hid⟩ := hex
    rw [lbBackend_of_configId hnodup hlb hid,
      lbBackend_of_configId hnodup' (hperm.mem_iff.mpr hlb) hid]
  · push Not at hex
    rw [lbBackend_eq_none fun lb hlb => .inr (hex lb hlb),
      lbBackend_eq_none fun lb hlb => .inr (hex lb (hperm.mem_iff.mp hlb))]

variable {encryptBlock : Bytes → Bytes → Bytes}

/-- Decoding a connection ID that was issued with the codec of the entry. -/
theorem LbConfig.backend_encrypt (laws : BlockLaws cr encryptBlock) {lb : LbConfig}
    (hid : lb.codec.configId < 7) (hkey : lb.codec.key.length = 16) {sid : ℕ}
    (hsid : sid < 2 ^ 32) {nonce : Bytes} (hnonce : nonce.length = 12) (low : UInt8) :
    lb.backend cr (setLowBits low (lb.codec.encrypt encryptBlock (toBeBytes 4 sid ++ nonce))) =
      lb.servers.lookup sid := by
  have hblock : (toBeBytes 4 sid ++ nonce).length = 16 := by
    rw [List.length_append, length_toBeBytes, hnonce]
  have hlen := laws.length_encrypt lb.codec.key _ hkey hblock
  have hinv := laws.decrypt_encrypt lb.codec.key _ hkey hblock
  have hcheck : ¬((setLowBits low
      (lb.codec.encrypt encryptBlock (toBeBytes 4 sid ++ nonce))).length ≠ quicLbCidLen ∨
      (setLowBits low (lb.codec.encrypt encryptBlock (toBeBytes 4 sid ++ nonce))).getD 0 0 >>> 5 ≠
        lb.codec.configId) := by
    rw [not_or, not_not, not_not]
    refine ⟨?_, configId_of_first hid low⟩
    show (encryptBlock lb.codec.key (toBeBytes 4 sid ++ nonce)).length + 1 = 17
    rw [hlen]
  have hplain : lb.codec.decrypt cr
      (setLowBits low (lb.codec.encrypt encryptBlock (toBeBytes 4 sid ++ nonce))) =
        some (toBeBytes 4 sid ++ nonce) := by
    rw [Codec.decrypt, if_neg hcheck]
    exact congrArg some hinv
  have hsidAt : beNat ((toBeBytes 4 sid ++ nonce).take 4) = sid := by
    rw [List.take_left' (length_toBeBytes 4 sid), beNat_toBeBytes (by omega)]
  rw [backend, hplain]
  show lb.servers.lookup (beNat ((toBeBytes 4 sid ++ nonce).take 4)) = lb.servers.lookup sid
  rw [hsidAt]

/-- The connection IDs that an entry of the configuration message issues. -/
theorem lbBackend_issued (laws : BlockLaws cr encryptBlock) {env : LoadEnv}
    {protocfg : Protos.SniConfig} (hload : loadConfig env protocfg = .ok config)
    {pb : Protos.QuicLbConfig} (hpb : pb ∈ protocfg.quicLb) : ∃ codec,
      Codec.fromKeyFile env (UInt8.ofNat pb.configId) pb.keyFile = .ok codec ∧
      ∀ (sid : ℕ) (nonce : Bytes) (low : UInt8), sid < 2 ^ 32 → nonce.length = 12 →
        config.lbBackend cr
          (setLowBits low (codec.encrypt encryptBlock (toBeBytes 4 sid ++ nonce))) =
            pb.addrOf env sid := by
  obtain ⟨-, hloaded, hnodup, -⟩ := loadQuicLb_ok (loadConfig_quicLb hload)
  obtain ⟨lb, hlb, hfrom⟩ := hloaded pb hpb
  obtain ⟨hid, hlt, hkey⟩ := Codec.fromKeyFile_ok hfrom.codec_eq
  rw [← hid] at hlt
  refine ⟨lb.codec, hfrom.codec_eq, ?_⟩
  intro sid nonce low hsid hnonce
  -- the top bits name the configuration, whatever the low bits are
  have htop : (setLowBits low (lb.codec.encrypt encryptBlock (toBeBytes 4 sid ++ nonce))).getD
      0 0 >>> 5 = lb.codec.configId := configId_of_first hlt low
  rw [Config.lbBackend_of_configId hnodup hlb htop,
    LbConfig.backend_encrypt laws hlt hkey hsid hnonce low, hfrom.lookup_eq]

/-- A connection ID issued for a server leads back to it: with every configuration that loads, the
connection IDs an entry encrypts are decoded to the address that entry lists for the server, or to
none if it lists none, whatever the other entries are; a connection ID of another length, or whose
top three bits are no configured ID, is decoded to none; and the order of the entries does not
matter. -/
theorem lbBackend_encrypt (laws : BlockLaws cr encryptBlock) {env : LoadEnv}
    {protocfg : Protos.SniConfig} (hload : loadConfig env protocfg = .ok config) :
    (∀ pb ∈ protocfg.quicLb, ∃ codec,
      Codec.fromKeyFile env (UInt8.ofNat pb.configId) pb.keyFile = .ok codec ∧
      ∀ (sid : ℕ) (nonce : Bytes) (low : UInt8), sid < 2 ^ 32 → nonce.length = 12 →
        config.lbBackend cr
          (setLowBits low (codec.encrypt encryptBlock (toBeBytes 4 sid ++ nonce))) =
            pb.addrOf env sid) ∧
    (∀ cid : Bytes, cid.length ≠ quicLbCidLen → config.lbBackend cr cid = none) ∧
    (∀ cid : Bytes, (∀ pb ∈ protocfg.quicLb, (cid.getD 0 0 >>> 5).toNat ≠ pb.configId) →
      config.lbBackend cr cid = none) ∧
    (∀ cid : Bytes, cid.getD 0 0 >>> 5 = 7 → config.lbBackend cr cid = none) ∧
    (∀ config' : Config, config'.quicLb.Perm config.quicLb → ∀ cid : Bytes,
      config'.lbBackend cr cid = config.lbBackend cr cid) := by
  obtain ⟨hvalid, -, hnodup, -⟩ := loadQuicLb_ok (loadConfig_quicLb hload)
  refine ⟨?_, ?_, ?_, ?_, ?_⟩
  · intro pb hpb
    exact lbBackend_issued laws hload hpb
  · intro cid hlen
    exact Config.lbBackend_eq_none fun lb hlb => .inl hlen
  · intro cid hother
    refine Config.lbBackend_eq_none fun lb hlb => .inr ?_
    obtain ⟨pb, hpb, hfrom⟩ := hvalid lb hlb
    obtain ⟨hid, -, -⟩ := Codec.fromKeyFile_ok hfrom.codec_eq
    intro heq
    have hpbId := hfrom.configId_lt
    apply hother pb hpb
    rw [heq, hid, UInt8.toNat_ofNat']
    omega
  · intro cid hseven
    refine Config.lbBackend_eq_none fun lb hlb => .inr ?_
    obtain ⟨pb, hpb, hfrom⟩ := hvalid lb hlb
    obtain ⟨hid, hlt, -⟩ := Codec.fromKeyFile_ok hfrom.codec_eq
    intro heq
    -- no codec is loaded for the reserved identifier
    rw [← hid, ← heq, hseven] at hlt
    exact absurd hlt (by decide)
  · intro config' hperm cid
    exact Config.lbBackend_perm hnodup hperm cid

end Lookup

/-! ## The project's test vector

Key, server ID and nonce are zero. On this block the cipher below is AES; elsewhere it is the
identity, except that it has to send the ciphertext of the vector back. -/

/-- AES-128 of the zero block under the zero key. -/
def vectorBlock : Bytes := toBeBytes 16 0x66e94bd4ef8a2c3b884cfa59ca342b2e

def vectorCipher (_key block : Bytes) : Bytes :=
  if block = List.replicate 16 0 then vectorBlock
  else if block = vectorBlock then List.replicate 16 0
  else block

def vectorCrypto : Crypto := { sampleCrypto with decryptBlock := vectorCipher }

theorem vectorLaws : BlockLaws vectorCrypto vectorCipher where
  decrypt_encrypt key block _ _ := by
    show vectorCipher key (vectorCipher key block) = block
    unfold vectorCipher
    by_cases hzero : block = List.replicate 16 0
    · subst hzero
      decide
    by_cases hvector : block = vectorBlock
    · subst hvector
      decide
    · rw [if_neg hzero, if_neg hvector, if_neg hzero, if_neg hvector]
  length_encrypt key block _ hblock := by
    unfold vectorCipher
    split
    · decide
    split
    · decide
    · exact hblock

def vectorServer : SocketAddr := .v4 0xc0000201 443

def vectorEnv : LoadEnv where
  lookupHost _ := .ok [vectorServer]
  readToString _ := .ok (List.replicate 32 '0')
  compileFullMatch _ := .error "regex parse error"
  parseIpNet _ := .error "invalid IP address syntax"

def vectorProtos : Protos.SniConfig where
  quicLb := [⟨0, "key", [⟨some 0, "192.0.2.1:443"⟩]⟩]
  rules := []
  default := some ⟨none, none, some ⟨some .null, false, false⟩, 0⟩
  maxLifetimeMs := 0
  handshakeTimeoutMs := 0

/-- The connection ID of the vector, with other low bits, leads to the server; one with the top
bits of no configuration leads nowhere. -/
theorem lbBackend_encrypt_vector :
    ∃ config, loadConfig vectorEnv vectorProtos = .ok config ∧
      config.lbBackend vectorCrypto (0x1f :: vectorBlock) = some vectorServer ∧
      config.lbBackend vectorCrypto (0x3f :: vectorBlock) = none := by
  obtain ⟨config, hload⟩ : ∃ config, loadConfig vectorEnv vectorProtos = .ok config := ⟨_, rfl⟩
  obtain ⟨hissued, -, hother, -⟩ := lbBackend_encrypt vectorLaws hload
  obtain ⟨codec, hcodec, hissued⟩ := hissued _ List.mem_cons_self
  have hcodecEq : codec = ⟨0, List.replicate 16 0⟩ := by
    cases hcodec
    rfl
  have hcid := hissued 0 (List.replicate 12 0) 0x1f (by decide) (by decide)
  subst hcodecEq
  refine ⟨config, hload, hcid, hother _ ?_⟩
  intro pb hpb
  cases List.mem_singleton.mp hpb
  decide

end SniRouter
