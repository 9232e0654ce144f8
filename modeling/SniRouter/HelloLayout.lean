import SniRouter.Wire
import SniRouter.Tcp.Connection

/-!
# The layout of a ClientHello

A ClientHello as a value with its encoding, and what the walk of `extractTlsSni` finds in it. The
walk descends through six vectors, so there is one lemma for every level and direction: on the
encoding of a level the walk goes on with what is inside it, and where the walk succeeds the
encoding of the level is there.

The same walk is used by both routers. A backend that parses the message properly sees the fields
of the value, so the encodings say which name it sees.
-/

namespace SniRouter

/-! ## Messages -/

/-- An entry of a `server_name` list; type `0` is `host_name`. -/
structure ServerName where
  nameType : UInt8
  name : Bytes
  name_lt : name.length < 65536

def ServerName.encode (entry : ServerName) : Bytes := entry.nameType :: lengthVec 2 entry.name

def encodeNames (names : List ServerName) : Bytes := names.flatMap ServerName.encode

/-- The name of the first `host_name` entry. -/
def firstHostName (names : List ServerName) : Option Bytes :=
  (names.find? fun entry => entry.nameType = 0).map ServerName.name

/-- A `server_name` extension, or one of another type. -/
inductive Extension where
  | serverName (names : List ServerName) (names_lt : 2 + (encodeNames names).length < 65536)
  | other (etype : ℕ) (body : Bytes) (etype_pos : 0 < etype) (etype_lt : etype < 65536)
    (body_lt : body.length < 65536)

namespace Extension

def etype : Extension → ℕ
  | serverName .. => 0
  | other etype .. => etype

def body : Extension → Bytes
  | serverName names _ => lengthVec 2 (encodeNames names)
  | other _ body .. => body

def encode (extension : Extension) : Bytes :=
  toBeBytes 2 extension.etype ++ lengthVec 2 extension.body

def names? : Extension → Option (List ServerName)
  | serverName names _ => some names
  | other .. => none

theorem etype_lt (extension : Extension) : extension.etype < 65536 := by
  cases extension with
  | serverName names h => exact Nat.zero_lt_succ _
  | other etype body hpos hlt hbody => exact hlt

theorem body_lt (extension : Extension) : extension.body.length < 65536 := by
  cases extension with
  | serverName names h =>
    show (lengthVec 2 (encodeNames names)).length < 65536
    rwa [length_lengthVec]
  | other etype body hpos hlt hbody => exact hbody

end Extension

def encodeExtensions (extensions : List Extension) : Bytes := extensions.flatMap Extension.encode

/-- The fields of a ClientHello before the extensions. -/
structure HelloHead where
  version : Bytes
  random : Bytes
  sessionId : Bytes
  cipherSuites : Bytes
  compressionMethods : Bytes
  length_version : version.length = 2
  length_random : random.length = 32
  sessionId_lt : sessionId.length < 256
  cipherSuites_lt : cipherSuites.length < 65536
  cipherSuites_even : cipherSuites.length % 2 = 0
  compressionMethods_lt : compressionMethods.length < 256

def HelloHead.encode (head : HelloHead) : Bytes :=
  head.version ++ head.random ++ lengthVec 1 head.sessionId ++ lengthVec 2 head.cipherSuites ++
    lengthVec 1 head.compressionMethods

/-- A ClientHello. The extensions block may be missing as a whole. -/
structure ClientHello where
  head : HelloHead
  extensions : Option (List Extension)
  extensions_lt : ∀ block ∈ extensions, (encodeExtensions block).length < 65536

namespace ClientHello

def body (hello : ClientHello) : Bytes :=
  hello.head.encode ++
    match hello.extensions with
    | none => []
    | some block => lengthVec 2 (encodeExtensions block)

/-- The handshake message: type, length and body. -/
def encode (hello : ClientHello) : Bytes := 1 :: lengthVec 3 hello.body

/-- The first `host_name` entry of the first `server_name` extension. -/
def hostName (hello : ClientHello) : Option Bytes := do
  let block ← hello.extensions
  let names ← block.findSome? Extension.names?
  firstHostName names

end ClientHello

/-- A message that has the layout of a ClientHello up to the first `host_name` entry of its first
`server_name` extension: `otherExtensions` and `otherNames` stand before them, and the tails are
what follows the entry in each of the vectors it is nested in. -/
structure NamedHello where
  head : HelloHead
  otherExtensions : List Extension
  otherNames : List ServerName
  host : Bytes
  listTail : Bytes
  extensionTail : Bytes
  blockTail : Bytes
  bodyTail : Bytes
  otherExtensions_ne : ∀ extension ∈ otherExtensions, extension.etype ≠ 0
  otherNames_ne : ∀ entry ∈ otherNames, entry.nameType ≠ 0

namespace NamedHello

def list (hello : NamedHello) : Bytes :=
  encodeNames hello.otherNames ++ 0 :: lengthVec 2 hello.host ++ hello.listTail

def extension (hello : NamedHello) : Bytes := lengthVec 2 hello.list ++ hello.extensionTail

def block (hello : NamedHello) : Bytes :=
  encodeExtensions hello.otherExtensions ++ (toBeBytes 2 0 ++ lengthVec 2 hello.extension) ++
    hello.blockTail

def body (hello : NamedHello) : Bytes :=
  hello.head.encode ++ lengthVec 2 hello.block ++ hello.bodyTail

def encode (hello : NamedHello) : Bytes := 1 :: lengthVec 3 hello.body

/-- Every length fits its field. The lengths of the inner vectors are bounded by that of the
block, since each of them is a part of it. -/
def Fits (hello : NamedHello) : Prop :=
  hello.block.length < 65536 ∧ hello.body.length < 16777216

end NamedHello

/-! ## The walk, level by level -/

section Walk

variable {buf ext body : Bytes} {stop i j k k' : ℕ}

/-- One turn of the loop over the names, on an entry. -/
theorem hostNameLoop_entry (entry : ServerName) (h : Reads ext k entry.encode k')
    (hstop : k' ≤ stop) :
    hostNameLoop ext stop k =
      if entry.nameType = 0 then .ok (some (fromUtf8Lossy entry.name))
      else hostNameLoop ext stop k' := by
  obtain ⟨htype, hname⟩ := reads_cons.mp h
  obtain ⟨hlen, hname⟩ := lengthVec_two_at hname entry.name_lt
  have hk' : k' = k + 3 + entry.name.length := hname.stop_eq
  have hzero : byteAt ext k = 0 ↔ entry.nameType = 0 := by
    rw [byteAt_eq_of_reads htype, ← UInt8.toNat_inj]
    rfl
  rw [hostNameLoop, if_pos (by omega)]
  simp only [hlen, hzero]
  rw [if_neg (by omega), ← hk', slice_eq_of_reads hname]

/-- Entries of other types are passed over. -/
theorem hostNameLoop_skip {names : List ServerName} (hne : ∀ entry ∈ names, entry.nameType ≠ 0)
    (h : Reads ext k (encodeNames names) k') (hstop : k' ≤ stop) :
    hostNameLoop ext stop k = hostNameLoop ext stop k' := by
  induction names generalizing k with
  | nil =>
    have : k' = k := h.stop_eq
    rw [this]
  | cons entry names ih =>
    obtain ⟨hentry, hrest⟩ := reads_append.mp h
    rw [hostNameLoop_entry entry hentry (hrest.start_le.trans hstop),
      if_neg (hne entry List.mem_cons_self)]
    exact ih (fun e he => hne e (List.mem_cons_of_mem _ he)) hrest

/-- The first host name in the list is the one that is found. -/
theorem hostNameLoop_names {names : List ServerName} (h : Reads ext k (encodeNames names) stop) :
    hostNameLoop ext stop k = .ok ((firstHostName names).map fromUtf8Lossy) := by
  induction names generalizing k with
  | nil =>
    have : stop = k := h.stop_eq
    rw [hostNameLoop, if_neg (by omega)]
    rfl
  | cons entry names ih =>
    obtain ⟨hentry, hrest⟩ := reads_append.mp h
    rw [hostNameLoop_entry entry hentry hrest.start_le]
    by_cases hzero : entry.nameType = 0
    · rw [if_pos hzero, firstHostName, List.find?_cons_of_pos (by simpa using hzero)]
      rfl
    · rw [if_neg hzero, firstHostName, List.find?_cons_of_neg (by simpa using hzero)]
      exact ih hrest

/-- Where the loop finds a name, entries of other types and then the entry of the name stand at
the cursor. -/
theorem hostNameLoop_some {host : Bytes} (hstop : stop ≤ ext.length)
    (h : hostNameLoop ext stop k = .ok (some host)) :
    ∃ (names : List ServerName) (name : Bytes) (k' : ℕ),
      (∀ entry ∈ names, entry.nameType ≠ 0) ∧ k' ≤ stop ∧
      Reads ext k (encodeNames names ++ 0 :: lengthVec 2 name) k' ∧ host = fromUtf8Lossy name := by
  fun_induction hostNameLoop ext stop k with
  | case1 => cases h
  | case2 k hk nameType hostLen hlen htype =>
    obtain ⟨b, hb, hval⟩ := reads_byte (show k < ext.length by omega)
    have hzero : b = 0 := UInt8.toNat_inj.mp (hval.symm.trans htype)
    subst hzero
    have hvec := reads_lengthVec_two ext (k + 1) (by omega)
    refine ⟨[], _, k + 3 + hostLen, by simp, by omega, reads_cons.mpr ⟨hb, hvec⟩, ?_⟩
    cases h
    rfl
  | case3 k hk nameType hostLen hlen htype ih =>
    obtain ⟨names, name, k', hne, hk', hr, hhost⟩ := ih h
    obtain ⟨b, hb, hval⟩ := reads_byte (show k < ext.length by omega)
    have hvec := reads_lengthVec_two ext (k + 1) (by omega)
    have hlt := length_slice_le ext (k + 1 + 2) (k + 1 + 2 + u16At ext (k + 1))
    have hb2 := u16At_lt ext (k + 1)
    refine ⟨⟨b, slice ext (k + 1 + 2) (k + 1 + 2 + u16At ext (k + 1)), by omega⟩ :: names, name, k',
      ?_, hk', ?_, hhost⟩
    · intro entry hentry
      cases List.mem_cons.mp hentry with
      | inl heq =>
        subst heq
        intro hzero
        exact htype (hval.trans (congrArg UInt8.toNat hzero))
      | inr hmem => exact hne entry hmem
    · have hentry := reads_cons.mpr ⟨hb, hvec⟩
      have happ := hentry.append hr
      simpa [encodeNames, ServerName.encode] using happ
  | case4 => cases h

/-- A `server_name` body is a list, and what follows it is not looked at. -/
theorem serverNameExtension_list {list : Bytes} (hlen : list.length < 65536) (tail : Bytes) :
    serverNameExtension (lengthVec 2 list ++ tail) =
      hostNameLoop (lengthVec 2 list ++ tail) (2 + list.length) 2 := by
  have hr : Reads (lengthVec 2 list ++ tail) 0 (lengthVec 2 list) (2 + list.length) := by
    have := reads_middle [] (lengthVec 2 list) tail
    simpa using this
  have hu16 := (lengthVec_two_at hr hlen).1
  have htotal : (lengthVec 2 list ++ tail).length = 2 + list.length + tail.length := by
    rw [List.length_append, length_lengthVec]
  rw [serverNameExtension, if_neg (by omega)]
  simp only [hu16]
  rw [if_neg (by omega)]

/-- The same from the extension with its length. -/
theorem serverNameExtension_names {names : List ServerName}
    (hlen : 2 + (encodeNames names).length < 65536) :
    serverNameExtension (lengthVec 2 (encodeNames names)) =
      .ok ((firstHostName names).map fromUtf8Lossy) := by
  have hlist := serverNameExtension_list (show (encodeNames names).length < 65536 by omega) []
  rw [List.append_nil] at hlist
  rw [hlist]
  have hwhole := reads_whole.mpr (rfl : lengthVec 2 (encodeNames names) = _)
  rw [length_lengthVec] at hwhole
  exact hostNameLoop_names (reads_lengthVec.mp hwhole).2

/-- The layout of a `server_name` body in which a name is found. -/
theorem serverNameExtension_some {host : Bytes} (h : serverNameExtension ext = .ok (some host)) :
    ∃ (names : List ServerName) (name listTail extensionTail : Bytes),
      (∀ entry ∈ names, entry.nameType ≠ 0) ∧ host = fromUtf8Lossy name ∧
      ext = lengthVec 2 (encodeNames names ++ 0 :: lengthVec 2 name ++ listTail) ++
        extensionTail := by
  rw [serverNameExtension] at h
  split at h
  · cases h
  dsimp only at h
  split at h
  · cases h
  rename_i hlist
  obtain ⟨names, name, k, hne, hk, hr, hhost⟩ := hostNameLoop_some (by omega) h
  have hvec := reads_lengthVec_two ext 0 (by omega)
  have hsplit : slice ext (0 + 2) (0 + 2 + u16At ext 0) =
      (encodeNames names ++ 0 :: lengthVec 2 name) ++ slice ext k (0 + 2 + u16At ext 0) :=
    hr.slice_eq_append (by omega) (by omega)
  have hext := hvec.slice_eq_append hvec.stop_le le_rfl
  rw [List.take_length, List.drop_zero, hsplit] at hext
  exact ⟨names, name, _, _, hne, hhost, hext⟩

/-- One turn of the loop over the extensions. -/
theorem extensionLoop_entry {etype : ℕ} {inner : Bytes} (hetype : etype < 65536)
    (hinner : inner.length < 65536) (h : Reads body j (toBeBytes 2 etype ++ lengthVec 2 inner) k)
    (hstop : k ≤ stop) :
    extensionLoop body stop j =
      if etype = 0 then serverNameExtension inner else extensionLoop body stop k := by
  obtain ⟨htype, hvec⟩ := reads_append.mp h
  rw [length_toBeBytes] at htype hvec
  have hetypeAt : u16At body j = etype := by
    rw [u16At_eq_of_reads htype (length_toBeBytes ..), beNat_toBeBytes (by omega)]
  obtain ⟨hlen, hinner⟩ := lengthVec_two_at hvec hinner
  have hk : k = j + 4 + inner.length := hinner.stop_eq
  rw [extensionLoop, if_pos (by omega)]
  simp only [hetypeAt, hlen]
  rw [if_neg (by omega), ← hk, slice_eq_of_reads hinner]

/-- Extensions of other types are skipped. -/
theorem extensionLoop_skip {extensions : List Extension}
    (hne : ∀ extension ∈ extensions, extension.etype ≠ 0)
    (h : Reads body j (encodeExtensions extensions) k) (hstop : k ≤ stop) :
    extensionLoop body stop j = extensionLoop body stop k := by
  induction extensions generalizing j with
  | nil =>
    have : k = j := h.stop_eq
    rw [this]
  | cons extension extensions ih =>
    obtain ⟨hentry, hrest⟩ := reads_append.mp h
    rw [extensionLoop_entry extension.etype_lt extension.body_lt hentry
      (hrest.start_le.trans hstop), if_neg (hne extension List.mem_cons_self)]
    exact ih (fun e he => hne e (List.mem_cons_of_mem _ he)) hrest

/-- The first `server_name` extension of a block decides, whatever is in the others. -/
theorem extensionLoop_extensions {extensions : List Extension}
    (h : Reads body j (encodeExtensions extensions) stop) :
    extensionLoop body stop j =
      .ok (((extensions.findSome? Extension.names?).bind firstHostName).map fromUtf8Lossy) := by
  induction extensions generalizing j with
  | nil =>
    have : stop = j := h.stop_eq
    rw [extensionLoop, if_neg (by omega)]
    rfl
  | cons extension extensions ih =>
    obtain ⟨hentry, hrest⟩ := reads_append.mp h
    rw [extensionLoop_entry extension.etype_lt extension.body_lt hentry hrest.start_le]
    cases extension with
    | serverName names hnames =>
      have hzero : (Extension.serverName names hnames).etype = 0 := rfl
      rw [if_pos hzero]
      exact serverNameExtension_names hnames
    | other etype inner hpos hlt hinner =>
      have hne : (Extension.other etype inner hpos hlt hinner).etype ≠ 0 := by
        show etype ≠ 0
        omega
      rw [if_neg hne]
      exact ih hrest

/-- A name that is found is in the first server_name extension. -/
theorem extensionLoop_some {host : Bytes} (hstop : stop ≤ body.length)
    (h : extensionLoop body stop j = .ok (some host)) :
    ∃ (extensions : List Extension) (inner : Bytes) (k : ℕ),
      (∀ extension ∈ extensions, extension.etype ≠ 0) ∧ k ≤ stop ∧
      Reads body j (encodeExtensions extensions ++ (toBeBytes 2 0 ++ lengthVec 2 inner)) k ∧
      serverNameExtension inner = .ok (some host) := by
  fun_induction extensionLoop body stop j with
  | case1 => cases h
  | case2 j hj etype elen hlen htype =>
    have hr := reads_u16 body j (by omega)
    have hvec := reads_lengthVec_two body (j + 2) (by omega)
    rw [show u16At body j = 0 from htype] at hr
    exact ⟨[], _, j + 4 + elen, by simp, by omega, hr.append hvec, h⟩
  | case3 j hj etype elen hlen htype ih =>
    obtain ⟨extensions, inner, k, hne, hk, hr, hinner⟩ := ih h
    have htypeAt := reads_u16 body j (by omega)
    have hvec := reads_lengthVec_two body (j + 2) (by omega)
    have hlt := length_slice_le body (j + 2 + 2) (j + 2 + 2 + u16At body (j + 2))
    have hlenlt := u16At_lt body (j + 2)
    refine ⟨.other (u16At body j) (slice body (j + 2 + 2) (j + 2 + 2 + u16At body (j + 2)))
      (by omega) (u16At_lt body j) (by omega) :: extensions, inner, k, ?_, hk, ?_, hinner⟩
    · intro extension hmem
      cases List.mem_cons.mp hmem with
      | inl heq =>
        subst heq
        exact htype
      | inr hmem => exact hne extension hmem
    · have happ := (htypeAt.append hvec).append hr
      simpa [encodeExtensions, Extension.encode, Extension.etype, Extension.body] using happ
  | case4 => cases h

theorem extensionsBlock_block {block : Bytes} (hlen : block.length < 65536)
    (h : Reads body i (lengthVec 2 block) j) :
    extensionsBlock body i = extensionLoop body j (i + 2) := by
  have hstop := h.stop_le
  obtain ⟨hu16, hblock⟩ := lengthVec_two_at h hlen
  have hj : j = i + 2 + block.length := hblock.stop_eq
  rw [extensionsBlock, if_neg (by omega), if_neg (by omega)]
  simp only [hu16]
  rw [if_neg (by omega), ← hj]

/-- A name that is found is inside the block. -/
theorem extensionsBlock_some {host : Bytes} (h : extensionsBlock body i = .ok (some host)) :
    ∃ block : Bytes, block.length < 65536 ∧
      Reads body i (lengthVec 2 block) (i + 2 + block.length) ∧
      ∃ (extensions : List Extension) (inner blockTail : Bytes),
        (∀ extension ∈ extensions, extension.etype ≠ 0) ∧
        block = encodeExtensions extensions ++ (toBeBytes 2 0 ++ lengthVec 2 inner) ++ blockTail ∧
        serverNameExtension inner = .ok (some host) := by
  rw [extensionsBlock] at h
  split at h
  · cases h
  split at h
  · cases h
  dsimp only at h
  split at h
  · cases h
  obtain ⟨extensions, inner, k, hne, hk, hr, hinner⟩ := extensionLoop_some (by omega) h
  have hvec := reads_lengthVec_two body i (by omega)
  have hblockLen : u16At body i = (slice body (i + 2) (i + 2 + u16At body i)).length := by
    rw [length_slice (by omega) (by omega)]
    omega
  have hsplit : slice body (i + 2) (i + 2 + u16At body i) =
      (encodeExtensions extensions ++ (toBeBytes 2 0 ++ lengthVec 2 inner)) ++
        slice body k (i + 2 + u16At body i) :=
    hr.slice_eq_append hk (by omega)
  refine ⟨slice body (i + 2) (i + 2 + u16At body i), ?_, ?_, extensions, inner, _, hne, hsplit,
    hinner⟩
  · rw [← hblockLen]
    exact u16At_lt ..
  · rw [← hblockLen]
    exact hvec

/-- The fields before the extensions are passed over. -/
theorem extractBodySni_head (head : HelloHead) (h : Reads body 0 head.encode i) :
    extractBodySni body = extensionsBlock body i := by
  unfold HelloHead.encode at h
  have hstop := h.stop_le
  obtain ⟨h, hcomp⟩ := reads_append.mp h
  obtain ⟨h, hsuites⟩ := reads_append.mp h
  obtain ⟨-, hsid⟩ := reads_append.mp h
  simp only [List.length_append, length_lengthVec, head.length_version, head.length_random]
    at hsid hsuites hcomp
  obtain ⟨hsidLen, -⟩ := lengthVec_one_at hsid head.sessionId_lt
  obtain ⟨hsuitesLen, -⟩ := lengthVec_two_at hsuites head.cipherSuites_lt
  obtain ⟨hcompLen, hcomp⟩ := lengthVec_one_at hcomp head.compressionMethods_lt
  have hi := hcomp.stop_eq
  have hi₁ : 0 + (2 + 32 + (1 + head.sessionId.length)) = 35 + head.sessionId.length := by omega
  have hi₂ : 0 + (2 + 32 + (1 + head.sessionId.length) + (2 + head.cipherSuites.length)) =
      35 + head.sessionId.length + 2 + head.cipherSuites.length := by omega
  have hsid34 : byteAt body 34 = head.sessionId.length := hsidLen
  rw [hi₁] at hsuitesLen
  rw [hi₂] at hcompLen hi
  have heven := head.cipherSuites_even
  rw [extractBodySni, if_neg (by omega)]
  simp only [hsid34]
  rw [if_neg (by omega), if_neg (by omega)]
  simp only [hsuitesLen]
  rw [if_neg (by omega), if_neg (by omega)]
  simp only [hcompLen]
  rw [if_neg (by omega), ← hi]

/-- Where the walk over a body succeeds, the fields before the extensions are there. -/
theorem extractBodySni_ok {sni : Option Bytes} (h : extractBodySni body = .ok sni) :
    ∃ (head : HelloHead) (i : ℕ), Reads body 0 head.encode i ∧
      extensionsBlock body i = .ok sni := by
  rw [extractBodySni] at h
  split at h
  · cases h
  dsimp only at h
  split at h
  · cases h
  split at h
  · cases h
  split at h
  · cases h
  rename_i hsuites
  split at h
  · cases h
  split at h
  · cases h
  rename_i hcomp
  rw [not_or, not_not] at hsuites
  -- the checks that passed say where each field ends
  have hsidlt := byteAt_lt body 34
  generalize hi₁ : 35 + byteAt body 34 = i₁ at *
  have hsuiteslt := u16At_lt body i₁
  generalize hi₂ : i₁ + 2 + u16At body i₁ = i₂ at *
  have hcomplt := byteAt_lt body i₂
  have hversion : Reads body 0 (slice body 0 2) 2 := reads_slice (by omega) (by omega)
  have hrandom : Reads body 2 (slice body 2 34) 34 := reads_slice (by omega) (by omega)
  have hsid := reads_lengthVec_one body 34 (by omega)
  have hsuitesVec := reads_lengthVec_two body i₁ (by omega)
  have hcompVec := reads_lengthVec_one body i₂ (by omega)
  have hsidEnd : 34 + 1 + byteAt body 34 = i₁ := by omega
  rw [hsidEnd] at hsid
  rw [hi₂] at hsuitesVec
  have hsuitesLen : (slice body (i₁ + 2) i₂).length = u16At body i₁ := by
    rw [length_slice (by omega) (by omega)]
    omega
  have hfields := (((hversion.append hrandom).append hsid).append hsuitesVec).append hcompVec
  refine ⟨⟨slice body 0 2, slice body 2 34, slice body (34 + 1) i₁, slice body (i₁ + 2) i₂,
    slice body (i₂ + 1) (i₂ + 1 + byteAt body i₂), ?_, ?_, ?_, ?_, ?_, ?_⟩, _, hfields, h⟩
  · exact length_slice (by omega) (by omega)
  · exact length_slice (by omega) (by omega)
  · rw [length_slice (by omega) (by omega)]
    omega
  · rw [hsuitesLen]
    exact hsuiteslt
  · rw [hsuitesLen]
    exact hsuites.2
  · rw [length_slice (by omega) (by omega)]
    omega

end Walk

/-! ## Whole messages -/

/-- A message with a body: the walk goes over the body, and over nothing after it. -/
theorem extractTlsSni_message {body : Bytes} (hlen : body.length < 16777216) (tail : Bytes) :
    extractTlsSni (1 :: lengthVec 3 body ++ tail) = extractBodySni body := by
  have hr : Reads (1 :: lengthVec 3 body ++ tail) 0 (1 :: lengthVec 3 body)
      (4 + body.length) := by
    have := reads_middle [] (1 :: lengthVec 3 body) tail
    simpa [Nat.add_comm, Nat.add_left_comm] using this
  have hstop := hr.stop_le
  obtain ⟨htype, hvec⟩ := reads_cons.mp hr
  obtain ⟨hbodyLen, hbody⟩ := reads_lengthVec.mp hvec
  have htypeAt : byteAt (1 :: lengthVec 3 body ++ tail) 0 = 1 := byteAt_eq_of_reads htype
  have hu24 : u24At (1 :: lengthVec 3 body ++ tail) 1 = body.length := by
    rw [show 1 = 0 + 1 from rfl, u24At_eq_of_reads hbodyLen (length_toBeBytes ..),
      beNat_toBeBytes (by omega)]
  rw [extractTlsSni, if_neg (by omega), if_neg (by omega)]
  simp only [hu24]
  rw [if_neg (by omega), slice_eq_of_reads hbody]

/-- A message the walk succeeds on has a body of the declared length. -/
theorem extractTlsSni_ok {bytes : Bytes} {sni : Option Bytes}
    (h : extractTlsSni bytes = .ok sni) :
    ∃ body tail : Bytes, body.length < 16777216 ∧ bytes = 1 :: lengthVec 3 body ++ tail ∧
      extractBodySni body = .ok sni := by
  rw [extractTlsSni] at h
  split at h
  · cases h
  split at h
  · cases h
  rename_i htype
  dsimp only at h
  split at h
  · cases h
  obtain ⟨b, hb, hval⟩ := reads_byte (show 0 < bytes.length by omega)
  have hone : b = 1 := UInt8.toNat_inj.mp (hval.symm.trans (not_not.mp htype))
  subst hone
  have hlen := reads_u24 bytes 1 (by omega)
  have hbody : Reads bytes 4 (slice bytes 4 (4 + u24At bytes 1)) (4 + u24At bytes 1) :=
    reads_slice (by omega) (by omega)
  have hbodyLen : u24At bytes 1 = (slice bytes 4 (4 + u24At bytes 1)).length := by
    rw [length_slice (by omega) (by omega)]
    omega
  have hvec : Reads bytes 1 (lengthVec 3 (slice bytes 4 (4 + u24At bytes 1)))
      (4 + u24At bytes 1) := by
    refine reads_lengthVec.mpr ⟨?_, hbody⟩
    rw [← hbodyLen]
    exact hlen
  have hmessage := (reads_cons.mpr ⟨hb, hvec⟩).slice_eq_append hvec.stop_le le_rfl
  rw [List.take_length, List.drop_zero] at hmessage
  refine ⟨_, _, ?_, hmessage, h⟩
  have := u24At_lt bytes 1
  omega

theorem HelloHead.length_encode_lt (head : HelloHead) : head.encode.length < 70000 := by
  have := head.length_version
  have := head.length_random
  have := head.sessionId_lt
  have := head.cipherSuites_lt
  have := head.compressionMethods_lt
  simp only [encode, List.length_append, length_lengthVec]
  omega

theorem ClientHello.length_body_lt (hello : ClientHello) : hello.body.length < 16777216 := by
  have hhead := hello.head.length_encode_lt
  have hblock := hello.extensions_lt
  unfold ClientHello.body
  cases hext : hello.extensions with
  | none =>
    rw [List.length_append, List.length_nil]
    omega
  | some block =>
    have := hblock block hext
    rw [List.length_append, length_lengthVec]
    omega

theorem extractBodySni_body (hello : ClientHello) :
    extractBodySni hello.body = .ok (hello.hostName.map fromUtf8Lossy) := by
  have hblock := hello.extensions_lt
  unfold ClientHello.hostName
  cases hext : hello.extensions with
  | none =>
    -- the body ends where the extensions block would start
    have hr : Reads hello.body 0 hello.head.encode hello.body.length := by
      refine reads_whole.mpr ?_
      rw [ClientHello.body, hext, List.append_nil]
    rw [extractBodySni_head hello.head hr, extensionsBlock, if_pos rfl]
    rfl
  | some block =>
    have hr : Reads hello.body 0 (hello.head.encode ++ lengthVec 2 (encodeExtensions block))
        hello.body.length := by
      refine reads_whole.mpr ?_
      rw [ClientHello.body, hext]
    obtain ⟨hhead, hvec⟩ := reads_append.mp hr
    rw [extractBodySni_head hello.head hhead, extensionsBlock_block (hblock block hext) hvec]
    exact extensionLoop_extensions (reads_lengthVec.mp hvec).2

namespace NamedHello

variable {hello : NamedHello}

theorem Fits.extension_lt (h : hello.Fits) : hello.extension.length < 65536 := by
  have := h.1
  simp only [block, List.length_append, length_lengthVec] at this
  omega

theorem Fits.list_lt (h : hello.Fits) : hello.list.length < 65536 := by
  have := h.extension_lt
  simp only [extension, List.length_append, length_lengthVec] at this
  omega

theorem Fits.host_lt (h : hello.Fits) : hello.host.length < 65536 := by
  have := h.list_lt
  simp only [list, List.length_append, List.length_cons, length_lengthVec] at this
  omega

theorem serverNameExtension_extension (h : hello.Fits) :
    serverNameExtension hello.extension = .ok (some (fromUtf8Lossy hello.host)) := by
  have hr : Reads hello.extension 2 hello.list (2 + hello.list.length) := by
    have := reads_middle (toBeBytes 2 hello.list.length) hello.list hello.extensionTail
    rwa [length_toBeBytes] at this
  have hstop : 2 + (encodeNames hello.otherNames ++ 0 :: lengthVec 2 hello.host).length ≤
      2 + hello.list.length := by
    simp only [list, List.length_append]
    omega
  obtain ⟨hr, -⟩ := reads_append.mp hr
  obtain ⟨hnames, hentry⟩ := reads_append.mp hr
  have hloop := hostNameLoop_entry ⟨0, hello.host, h.host_lt⟩ hentry hstop
  rw [extension, serverNameExtension_list h.list_lt, ← extension,
    hostNameLoop_skip hello.otherNames_ne hnames (hentry.start_le.trans hstop), hloop, if_pos rfl]

theorem extractBodySni_body (h : hello.Fits) :
    extractBodySni hello.body = .ok (some (fromUtf8Lossy hello.host)) := by
  have hr : Reads hello.body 0 (hello.head.encode ++ lengthVec 2 hello.block ++ hello.bodyTail)
      hello.body.length := reads_whole.mpr rfl
  obtain ⟨hr, -⟩ := reads_append.mp hr
  obtain ⟨hhead, hvec⟩ := reads_append.mp hr
  obtain ⟨-, hblock⟩ := reads_lengthVec.mp hvec
  rw [extractBodySni_head hello.head hhead, extensionsBlock_block h.1 hvec]
  obtain ⟨hr, htail⟩ := reads_append.mp hblock
  obtain ⟨hothers, hentry⟩ := reads_append.mp hr
  rw [extensionLoop_skip hello.otherExtensions_ne hothers
      (hentry.start_le.trans htail.start_le),
    extensionLoop_entry (Nat.zero_lt_succ _) h.extension_lt hentry htail.start_le, if_pos rfl]
  exact serverNameExtension_extension h

end NamedHello

/-- A body in which a name is found has the layout of a ClientHello up to it. -/
theorem extractBodySni_some {body host : Bytes} (hlen : body.length < 16777216)
    (h : extractBodySni body = .ok (some host)) :
    ∃ hello : NamedHello, hello.Fits ∧ hello.body = body ∧ host = fromUtf8Lossy hello.host := by
  obtain ⟨head, i, hhead, h⟩ := extractBodySni_ok h
  obtain ⟨block, hblockLen, hvec, extensions, inner, blockTail, hext, hblock, h⟩ :=
    extensionsBlock_some h
  obtain ⟨names, name, listTail, extensionTail, hnames, hhost, hinner⟩ :=
    serverNameExtension_some h
  have hbody := (hhead.append hvec).slice_eq_append hvec.stop_le le_rfl
  rw [List.take_length, List.drop_zero] at hbody
  generalize body.drop (i + 2 + block.length) = bodyTail at hbody
  subst hinner hblock
  let hello : NamedHello :=
    ⟨head, extensions, names, name, listTail, extensionTail, blockTail, bodyTail, hext, hnames⟩
  have hself : hello.body = body := hbody.symm
  exact ⟨hello, ⟨hblockLen, by rwa [hself]⟩, hself, hhost⟩

/-- The name of a ClientHello is extracted, whatever follows it. -/
theorem extractTlsSni_encode (hello : ClientHello) (tail : Bytes) :
    extractTlsSni (hello.encode ++ tail) = .ok (hello.hostName.map fromUtf8Lossy) := by
  rw [ClientHello.encode, extractTlsSni_message hello.length_body_lt]
  exact extractBodySni_body hello

/-- A name is extracted from a ClientHello that has it, and from nothing else. -/
theorem extractTlsSni_some_iff {bytes host : Bytes} :
    extractTlsSni bytes = .ok (some host) ↔
      ∃ (hello : NamedHello) (tail : Bytes), hello.Fits ∧ bytes = hello.encode ++ tail ∧
        host = fromUtf8Lossy hello.host := by
  constructor
  · intro h
    obtain ⟨body, tail, hlen, hbytes, h⟩ := extractTlsSni_ok h
    obtain ⟨hello, hfits, hbody, hhost⟩ := extractBodySni_some hlen h
    refine ⟨hello, tail, hfits, ?_, hhost⟩
    rw [NamedHello.encode, hbody]
    exact hbytes
  · intro h
    obtain ⟨hello, tail, hfits, hbytes, hhost⟩ := h
    rw [hbytes, hhost, NamedHello.encode, extractTlsSni_message hfits.2]
    exact NamedHello.extractBodySni_body hfits

/-- Nothing after the declared body is looked at. -/
theorem extractTlsSni_append {bytes : Bytes} (h : 4 + u24At bytes 1 ≤ bytes.length)
    (tail : Bytes) : extractTlsSni (bytes ++ tail) = extractTlsSni bytes := by
  have hpre : bytes <+: bytes ++ tail := List.prefix_append ..
  have hlen : (bytes ++ tail).length = bytes.length + tail.length := List.length_append
  have hbyte := byteAt_prefix_eq hpre (show 0 < bytes.length by omega)
  have hu24 := u24At_prefix_eq hpre (show 1 + 2 < bytes.length by omega)
  have hslice :
      slice (bytes ++ tail) 4 (4 + u24At bytes 1) = slice bytes 4 (4 + u24At bytes 1) := by
    rw [slice, slice, List.take_append_of_le_length h]
  unfold extractTlsSni
  rw [← hbyte, ← hu24]
  simp only [hslice]
  rw [if_neg (by omega), if_neg (show ¬bytes.length < 4 by omega)]
  split
  · rfl
  · rw [if_neg (by omega), if_neg (by omega)]

/-- The server name both routers route by is the one in the message: what is found in an encoded
ClientHello is its first `host_name`, a name is found only in a message that has the layout of a
ClientHello up to that name, and nothing after the declared body matters. -/
theorem extractSni_correct :
    (∀ bytes : Bytes, Tcp.extractSni bytes = extractTlsSni bytes) ∧
    (∀ (hello : ClientHello) (tail : Bytes),
      extractTlsSni (hello.encode ++ tail) = .ok (hello.hostName.map fromUtf8Lossy)) ∧
    (∀ bytes host : Bytes, extractTlsSni bytes = .ok (some host) ↔
      ∃ (hello : NamedHello) (tail : Bytes), hello.Fits ∧ bytes = hello.encode ++ tail ∧
        host = fromUtf8Lossy hello.host) ∧
    (∀ bytes tail : Bytes, 4 + u24At bytes 1 ≤ bytes.length →
      extractTlsSni (bytes ++ tail) = extractTlsSni bytes) := by
  refine ⟨?_, ?_, ?_, ?_⟩
  · intro bytes
    rfl
  · exact extractTlsSni_encode
  · intro bytes host
    exact extractTlsSni_some_iff
  · intro bytes tail h
    exact extractTlsSni_append h tail

/-- The sample ClientHello with the server name `b`, and with a byte after it. -/
theorem extractSni_correct_namedHello :
    (∃ (hello : NamedHello) (tail : Bytes), hello.Fits ∧ namedHello = hello.encode ++ tail ∧
      [0x62] = fromUtf8Lossy hello.host) ∧
    4 + u24At namedHello 1 ≤ namedHello.length ∧
    extractTlsSni (namedHello ++ [0x07]) = extractTlsSni namedHello := by
  have hlen : 4 + u24At namedHello 1 ≤ namedHello.length := by decide +kernel
  refine ⟨?_, hlen, ?_⟩
  · exact (extractSni_correct.2.2.1 namedHello [0x62]).mp (by decide +kernel)
  · exact extractSni_correct.2.2.2 namedHello [0x07] hlen

end SniRouter
