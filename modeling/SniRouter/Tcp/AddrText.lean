import SniRouter.Lib.Text
import SniRouter.Tcp.Connection

/-!
# Addresses as texts

The texts of addresses as the standard library reads them: `Ipv4Addr`, `Ipv6Addr` with its longest
run of zeros left out and its embedded IPv4 address, and `SocketAddr`. An address is read back
from the text it is printed as (`readIpv4_ipv4Text`, `readIpv6_ipv6Text`).
-/

namespace SniRouter

namespace Tcp

/-! ## Readers -/

def octetFormat : NumberFormat := ⟨10, some 3, 256, false⟩

def groupFormat : NumberFormat := ⟨16, some 4, 65536, true⟩

def portFormat : NumberFormat := ⟨10, none, 65536, true⟩

def scopeFormat : NumberFormat := ⟨10, none, 4294967296, true⟩

/-- `Parser::read_ipv4_addr`. -/
def readIpv4 : Reader Ipv4Addr := fun text => do
  let (a, text) ← readSeparator '.' 0 (readNumber octetFormat) text
  let (b, text) ← readSeparator '.' 1 (readNumber octetFormat) text
  let (c, text) ← readSeparator '.' 2 (readNumber octetFormat) text
  let (d, text) ← readSeparator '.' 3 (readNumber octetFormat) text
  some (BitVec.ofNat 32 (((a * 256 + b) * 256 + c) * 256 + d), text)

/-- `read_groups`: at most `n` groups from group `i` on, and whether they end with an embedded
IPv4 address, which takes two. -/
def readGroups : ℕ → ℕ → List Char → List ℕ × Bool × List Char
  | 0, _, text => ([], false, text)
  | n + 1, i, text =>
    match if 0 < n then readSeparator ':' i readIpv4 text else none with
    | some (ip, rest) => ([ip.toNat / 65536, ip.toNat % 65536], true, rest)
    | none =>
      match readSeparator ':' i (readNumber groupFormat) text with
      | some (group, rest) =>
        let (groups, embedded, rest) := readGroups n (i + 1) rest
        (group :: groups, embedded, rest)
      | none => ([], false, text)

/-- `Ipv6Addr::from`. -/
def ofSegments (segments : List ℕ) : Ipv6Addr :=
  BitVec.ofNat 128 (segments.foldl (fun ip segment => ip * 65536 + segment) 0)

/-- `Parser::read_ipv6_addr`. -/
def readIpv6 : Reader Ipv6Addr := fun text =>
  match readGroups 8 0 text with
  | (head, embedded, rest) =>
    if head.length = 8 then some (ofSegments head, rest)
    else if embedded then none
    else do
      let (_, rest) ← readGiven ':' rest
      let (_, rest) ← readGiven ':' rest
      match readGroups (8 - (head.length + 1)) 0 rest with
      | (tail, _, rest) =>
        let zeros := List.replicate (8 - head.length - tail.length) 0
        some (ofSegments (head ++ zeros ++ tail), rest)

/-- `Parser::read_port`. -/
def readPort : Reader ℕ := fun text => do
  let (_, text) ← readGiven ':' text
  readNumber portFormat text

/-- `Parser::read_socket_addr_v4`. -/
def readSocketAddrV4 : Reader SocketAddr := fun text => do
  let (ip, text) ← readIpv4 text
  let (port, text) ← readPort text
  some (.v4 ip (UInt16.ofNat port), text)

/-- `Parser::read_scope_id`, with the value for none. -/
def readScopeId (text : List Char) : ℕ × List Char :=
  match (readGiven '%' text).bind fun (_, text) => readNumber scopeFormat text with
  | some (scope, rest) => (scope, rest)
  | none => (0, text)

/-- `Parser::read_socket_addr_v6`. -/
def readSocketAddrV6 : Reader SocketAddr := fun text => do
  let (_, text) ← readGiven '[' text
  let (ip, text) ← readIpv6 text
  let (scope, text) := readScopeId text
  let (_, text) ← readGiven ']' text
  let (port, text) ← readPort text
  some (.v6 ip (UInt16.ofNat port) 0 (UInt32.ofNat scope), text)

/-- The value, when it is read from all of the text. -/
def whole {α : Type} (reader : Reader α) (text : List Char) : Option α :=
  match reader text with
  | some (value, []) => some value
  | _ => none

/-- `SocketAddr::from_str`. -/
def parseSocketAddr : List Char → Option SocketAddr :=
  whole fun text => readSocketAddrV4 text <|> readSocketAddrV6 text

/-! ## IPv4 -/

/-- A number below 256 is read back as an octet. -/
theorem readNumber_octet {n : ℕ} (hn : n < 256) {rest : List Char} (hrest : NoDigit 10 rest) :
    readNumber octetFormat (Nat.toDigits 10 n ++ rest) = some (n, rest) := by
  apply readNumber_toDigits (f := octetFormat) (by decide) (by decide) hn _ hrest
  intro k hk
  cases hk
  exact (Nat.length_toDigits_le_iff (by decide) (by decide)).mpr (by show n < 10 ^ 3; omega)

/-- The dot ends an octet. -/
theorem noDigit_dot (text : List Char) : NoDigit 10 ('.' :: text) := noDigit_cons (by decide)

/-- An address is read back. -/
theorem readIpv4_ipv4Text (ip : Ipv4Addr) {rest : List Char} (hrest : NoDigit 10 rest) :
    readIpv4 (ipv4Text ip ++ rest) = some (ip, rest) := by
  have hoctet : ∀ n : ℕ, n % 256 < 256 := fun n => Nat.mod_lt _ (by decide)
  have hip : ip.toNat < 4294967296 := ip.isLt
  have hvalue : ((ip.toNat / 256 ^ 3 % 256 * 256 + ip.toNat / 256 ^ 2 % 256) * 256 +
      ip.toNat / 256 ^ 1 % 256) * 256 + ip.toNat / 256 ^ 0 % 256 = ip.toNat := by
    norm_num
    omega
  unfold readIpv4 ipv4Text
  simp only [List.append_assoc, List.cons_append, List.nil_append, readSeparator, readGiven,
    readNumber_octet (hoctet _) (noDigit_dot _), readNumber_octet (hoctet _) hrest,
    if_true, Option.bind_eq_bind, Option.bind_some, OfNat.ofNat_ne_zero, one_ne_zero, if_false]
  rw [hvalue, BitVec.ofNat_toNat, BitVec.setWidth_eq]

/-- A text without an address: what follows the digits at its start is no dot. -/
theorem readIpv4_eq_none {text : List Char}
    (h : (text.dropWhile (isDigitOf 10)).head? ≠ some '.') : readIpv4 text = none := by
  unfold readIpv4
  rw [readSeparator, if_pos rfl]
  cases hfirst : readNumber octetFormat text with
  | none => rfl
  | some first =>
    obtain ⟨a, rest⟩ := first
    have hrest : rest = text.dropWhile (isDigitOf 10) := by
      unfold readNumber at hfirst
      dsimp only at hfirst
      split at hfirst
      · cases hfirst
      · cases hfirst
        exact drop_length_takeWhile _ text
    have hdot : readGiven '.' rest = none := by
      rw [hrest]
      cases hdrop : text.dropWhile (isDigitOf 10) with
      | nil => rfl
      | cons c tail =>
        rw [hdrop] at h
        exact if_neg fun hc => h (by rw [hc]; rfl)
    show (readSeparator '.' 1 (readNumber octetFormat) rest).bind _ = none
    rw [readSeparator, if_neg one_ne_zero, hdot]
    rfl

/-! ## Groups -/

/-- The groups of a text are over. -/
structure EndsGroups (text : List Char) : Prop where
  noDigit : NoDigit 16 text
  noDot : text.head? ≠ some '.'
  noGroup : ∀ rest, text = ':' :: rest → NoDigit 16 rest

/-- The groups end at the two colons. -/
theorem endsGroups_colons (text : List Char) : EndsGroups (':' :: ':' :: text) := by
  refine ⟨noDigit_cons (by decide), by simp, fun rest hrest => ?_⟩
  cases hrest
  exact noDigit_cons (by decide)

/-- They end at any character that is no digit, dot or colon. -/
theorem endsGroups_of_head {text : List Char}
    (h : ∀ c ∈ text.head?, isDigitOf 16 c = false ∧ c ≠ '.' ∧ c ≠ ':') : EndsGroups text := by
  refine ⟨fun c hc => (h c hc).1, fun hdot => ?_, fun rest hrest => ?_⟩
  · exact (h '.' hdot).2.1 rfl
  · rw [hrest] at h
    exact absurd rfl (h ':' rfl).2.2

/-- An IPv4 address starts with a digit. -/
theorem readIpv4_noDigit {text : List Char} (h : NoDigit 16 text) : readIpv4 text = none := by
  have hnumber : readNumber octetFormat text = none :=
    readNumber_noDigit (h.of_le (show 10 ≤ 16 by decide))
  show (readSeparator '.' 0 (readNumber octetFormat) text).bind _ = none
  rw [readSeparator, if_pos rfl, hnumber]
  rfl

/-- Nothing more that starts with a digit is found where the groups are over. -/
theorem readSeparator_ends {α : Type} {reader : Reader α} {text : List Char} (i : ℕ)
    (h : EndsGroups text) (hfails : ∀ text, NoDigit 16 text → reader text = none) :
    readSeparator ':' i reader text = none := by
  unfold readSeparator
  split
  · exact hfails text h.noDigit
  · cases text with
    | nil => rfl
    | cons c rest =>
      rw [readGiven]
      split
      · rename_i hc
        subst hc
        exact hfails rest (h.noGroup rest rfl)
      · rfl

/-- No group is read from where the groups end. -/
theorem readGroups_ends {text : List Char} (h : EndsGroups text) (n i : ℕ) :
    readGroups n i text = ([], false, text) := by
  cases n with
  | zero => rfl
  | succ n =>
    have hipv4 : (if 0 < n then readSeparator ':' i readIpv4 text else none) = none := by
      rw [readSeparator_ends i h fun _ => readIpv4_noDigit, ite_self]
    have hgroup : readSeparator ':' i (readNumber groupFormat) text = none :=
      readSeparator_ends i h fun _ htext => readNumber_noDigit htext
    simp only [readGroups, hipv4, hgroup]

/-- The separator in front of group `i`. -/
def separator (i : ℕ) : List Char := if i = 0 then [] else [':']

/-- What is printed in front of a group is skipped. -/
theorem readSeparator_separator {α : Type} (reader : Reader α) (i : ℕ) (text : List Char) :
    readSeparator ':' i reader (separator i ++ text) = reader text := by
  unfold readSeparator separator
  split
  · rfl
  · simp [readGiven]

/-- A number below 65536 is read back as a group. -/
theorem readNumber_group {n : ℕ} (hn : n < 65536) {rest : List Char} (hrest : NoDigit 16 rest) :
    readNumber groupFormat (Nat.toDigits 16 n ++ rest) = some (n, rest) := by
  apply readNumber_toDigits (f := groupFormat) (by decide) (by decide) hn _ hrest
  intro k hk
  cases hk
  exact (Nat.length_toDigits_le_iff (by decide) (by decide)).mpr (by show n < 16 ^ 4; omega)

/-- The dot is no digit. -/
theorem ne_dot_of_isDigitOf {radix : ℕ} {c : Char} (h : isDigitOf radix c = true) : c ≠ '.' := by
  intro hc
  subst hc
  simp [isDigitOf, toDigit] at h

/-- A group is no IPv4 address, even when all its digits are decimal. -/
theorem readIpv4_group (n : ℕ) {rest : List Char} (hrest : NoDigit 16 rest)
    (hdot : rest.head? ≠ some '.') : readIpv4 (Nat.toDigits 16 n ++ rest) = none := by
  apply readIpv4_eq_none
  rw [List.dropWhile_append]
  split
  · cases rest with
    | nil => simp
    | cons c rest =>
      have hc := hrest.of_le (show 10 ≤ 16 by decide) c rfl
      rwa [List.dropWhile_cons_of_neg (by rw [hc]; exact Bool.false_ne_true)]
  · rename_i hrests
    rw [List.head?_append_of_ne_nil _ (by simpa using hrests)]
    intro hhead
    have hmem := (List.dropWhile_suffix (isDigitOf 10)).subset (List.mem_of_mem_head? hhead)
    exact ne_dot_of_isDigitOf (isDigitOf_toDigits (by decide) (by decide) n '.' hmem) rfl

/-- One group is read, and the others after it. -/
theorem readGroups_group {s : ℕ} (hs : s < 65536) (n i : ℕ) {rest : List Char}
    (hrest : NoDigit 16 rest) (hdot : rest.head? ≠ some '.') :
    readGroups (n + 1) i (separator i ++ (Nat.toDigits 16 s ++ rest)) =
      (s :: (readGroups n (i + 1) rest).1, (readGroups n (i + 1) rest).2) := by
  have hipv4 : (if 0 < n then
      readSeparator ':' i readIpv4 (separator i ++ (Nat.toDigits 16 s ++ rest)) else none) =
        none := by
    rw [readSeparator_separator, readIpv4_group s hrest hdot, ite_self]
  have hgroup := readSeparator_separator (readNumber groupFormat) i (Nat.toDigits 16 s ++ rest)
  rw [readNumber_group hs hrest] at hgroup
  simp only [readGroups, hipv4, hgroup]

/-- Groups with a colon before each. -/
def colonGroups (segments : List ℕ) : List Char :=
  segments.flatMap fun segment => ':' :: Nat.toDigits 16 segment

/-- The first group has no colon in front of it. -/
theorem segmentsText_cons (s : ℕ) (segments : List ℕ) :
    segmentsText (s :: segments) = Nat.toDigits 16 s ++ colonGroups segments := by
  unfold segmentsText colonGroups
  induction segments generalizing s with
  | nil => simp
  | cons t segments ih =>
    rw [List.map_cons, List.map_cons, List.intercalate_cons_cons, ← List.map_cons, ih,
      List.flatMap_cons]
    simp

/-- Digits do not run into a group, nor into what ends the groups. -/
theorem colonGroups_append (segments : List ℕ) {rest : List Char} (h : EndsGroups rest) :
    NoDigit 16 (colonGroups segments ++ rest) ∧
      (colonGroups segments ++ rest).head? ≠ some '.' := by
  cases segments with
  | nil => exact ⟨h.noDigit, h.noDot⟩
  | cons s segments => exact ⟨noDigit_cons (by decide), by simp [colonGroups]⟩

/-- Groups with their colons are read back, by induction on the groups. -/
theorem readGroups_colonGroups {segments : List ℕ} (hsegments : ∀ s ∈ segments, s < 65536)
    {rest : List Char} (h : EndsGroups rest) {n : ℕ} (hn : segments.length ≤ n) (i : ℕ) :
    readGroups n (i + 1) (colonGroups segments ++ rest) = (segments, false, rest) := by
  induction segments generalizing n i with
  | nil => exact readGroups_ends h n (i + 1)
  | cons s segments ih =>
    obtain ⟨n, rfl⟩ : ∃ m, n = m + 1 := ⟨n - 1, by rw [List.length_cons] at hn; omega⟩
    obtain ⟨hdigit, hdot⟩ := colonGroups_append segments h
    have hfirst := readGroups_group (hsegments s (List.mem_cons_self ..)) n (i + 1) hdigit hdot
    have htext : colonGroups (s :: segments) ++ rest =
        separator (i + 1) ++ (Nat.toDigits 16 s ++ (colonGroups segments ++ rest)) := by
      simp [colonGroups, separator]
    rw [htext, hfirst, ih (fun t ht => hsegments t (List.mem_cons_of_mem _ ht))
      (by rw [List.length_cons] at hn; omega)]

/-- Groups are read back. -/
theorem readGroups_segmentsText {segments : List ℕ} (hsegments : ∀ s ∈ segments, s < 65536)
    {rest : List Char} (h : EndsGroups rest) {n : ℕ} (hn : segments.length ≤ n) :
    readGroups n 0 (segmentsText segments ++ rest) = (segments, false, rest) := by
  cases segments with
  | nil => exact readGroups_ends h n 0
  | cons s segments =>
    obtain ⟨n, rfl⟩ : ∃ m, n = m + 1 := ⟨n - 1, by rw [List.length_cons] at hn; omega⟩
    obtain ⟨hdigit, hdot⟩ := colonGroups_append segments h
    have hfirst := readGroups_group (hsegments s (List.mem_cons_self ..)) n 0 hdigit hdot
    rw [segmentsText_cons, List.append_assoc]
    refine hfirst.trans ?_
    rw [readGroups_colonGroups (fun t ht => hsegments t (List.mem_cons_of_mem _ ht)) h
      (by rw [List.length_cons] at hn; omega)]

/-! ## Zeros -/

/-- The run is a block of zeros of the list. -/
structure ZeroBlock (segments : List ℕ) (run : ℕ × ℕ) : Prop where
  inside : run.1 + run.2 ≤ segments.length
  zero : ∀ j, run.1 ≤ j → j < run.1 + run.2 → segments[j]? = some 0

/-- A block of zeros is one in a longer list of segments. -/
theorem ZeroBlock.append {segments : List ℕ} {run : ℕ × ℕ} (h : ZeroBlock segments run)
    (more : List ℕ) : ZeroBlock (segments ++ more) run := by
  refine ⟨?_, fun j hstart hstop => ?_⟩
  · rw [List.length_append]
    have := h.inside
    omega
  · rw [List.getElem?_append_left (by have := h.inside; omega)]
    exact h.zero j hstart hstop

/-- The empty block. -/
theorem zeroBlock_zero (segments : List ℕ) : ZeroBlock segments (0, 0) := by
  refine ⟨?_, fun j hstart hstop => ?_⟩
  · show 0 + 0 ≤ segments.length
    omega
  · have : j < 0 + 0 := hstop
    omega

/-- One more zero at the end of a block that reaches the end. -/
theorem ZeroBlock.extend {segments : List ℕ} {run : ℕ × ℕ} (h : ZeroBlock segments run)
    (hend : run.1 + run.2 = segments.length) :
    ZeroBlock (segments ++ [0]) (run.1, run.2 + 1) := by
  refine ⟨?_, fun j hstart hstop => ?_⟩
  · show run.1 + (run.2 + 1) ≤ (segments ++ [0]).length
    rw [List.length_append, List.length_singleton]
    omega
  · have hstop : j < run.1 + (run.2 + 1) := hstop
    by_cases hj : j < segments.length
    · rw [List.getElem?_append_left hj]
      exact h.zero j hstart (by omega)
    · have hj : j = segments.length := by omega
      rw [hj, List.getElem?_append_right (le_refl _), Nat.sub_self]
      rfl

/-- The run that is found is a block of zeros. -/
theorem zeroRun_block {seen rest : List ℕ} {longest current : ℕ × ℕ}
    (hlongest : ZeroBlock seen longest) (hcurrent : ZeroBlock seen current)
    (hend : 0 < current.2 → current.1 + current.2 = seen.length) :
    ZeroBlock (seen ++ rest) (zeroRun seen.length longest current rest) := by
  induction rest generalizing seen longest current with
  | nil =>
    rw [List.append_nil]
    exact hlongest
  | cons segment rest ih =>
    have hlength : (seen ++ [segment]).length = seen.length + 1 := by
      rw [List.length_append, List.length_singleton]
    rw [zeroRun, List.append_cons, ← hlength]
    split
    · rename_i hzero
      subst hzero
      have hnext : ZeroBlock (seen ++ [0])
          (if current.2 = 0 then seen.length else current.1, current.2 + 1) := by
        by_cases hnew : current.2 = 0
        · rw [if_pos hnew, hnew]
          refine @ZeroBlock.extend _ (seen.length, 0) ⟨le_refl _, ?_⟩ rfl
          intro j hstart hstop
          exact absurd hstart (by have : j < seen.length + 0 := hstop; omega)
        · rw [if_neg hnew]
          exact hcurrent.extend (hend (Nat.pos_of_ne_zero hnew))
      have hreaches : (if current.2 = 0 then seen.length else current.1) + (current.2 + 1) =
          (seen ++ [0]).length := by
        rw [hlength]
        split
        · omega
        · rename_i hold
          have := hend (Nat.pos_of_ne_zero hold)
          omega
      have hstep : ∀ next : ℕ × ℕ, ZeroBlock (seen ++ [0]) next →
          next.1 + next.2 = (seen ++ [0]).length →
          ZeroBlock (seen ++ [0] ++ rest) (zeroRun (seen ++ [0]).length
            (if next.2 > longest.2 then next else longest) next rest) := by
        intro next hnext hreaches
        apply ih _ hnext fun _ => hreaches
        split
        · exact hnext
        · exact hlongest.append _
      exact hstep _ hnext hreaches
    · apply ih (hlongest.append _) (zeroBlock_zero _)
      intro hpos
      exact absurd hpos (lt_irrefl 0)

/-- The segments are those before the block, the zeros, and those after it. -/
theorem ZeroBlock.eq_append {segments : List ℕ} {run : ℕ × ℕ} (h : ZeroBlock segments run) :
    segments.take run.1 ++ List.replicate run.2 0 ++ segments.drop (run.1 + run.2) =
      segments := by
  have hinside := h.inside
  have hblock : (segments.drop run.1).take run.2 = List.replicate run.2 0 := by
    apply List.eq_replicate_iff.mpr
    refine ⟨?_, fun s hs => ?_⟩
    · rw [List.length_take, List.length_drop]
      omega
    · obtain ⟨j, hj⟩ := List.mem_iff_getElem?.mp hs
      have hlt : j < run.2 := by
        have hlength := (List.getElem?_eq_some_iff.mp hj).1
        rw [List.length_take] at hlength
        omega
      rw [List.getElem?_take_of_lt hlt, List.getElem?_drop] at hj
      have hzero := h.zero (run.1 + j) (by omega) (by omega)
      exact Option.some.inj (hj.symm.trans hzero)
  rw [← hblock, List.append_assoc, ← List.drop_drop, List.take_append_drop,
    List.take_append_drop]

/-! ## IPv6 -/

/-- `Ipv6Addr::segments`. -/
def segmentsOf (ip : Ipv6Addr) : List ℕ :=
  (List.range 8).map fun i => ip.toNat / 65536 ^ (7 - i) % 65536

/-- An address has eight segments. -/
theorem length_segmentsOf (ip : Ipv6Addr) : (segmentsOf ip).length = 8 := by
  rw [segmentsOf, List.length_map, List.length_range]

/-- Each segment has 16 bits. -/
theorem segmentsOf_lt (ip : Ipv6Addr) : ∀ s ∈ segmentsOf ip, s < 65536 := by
  intro s hs
  obtain ⟨i, -, rfl⟩ := List.mem_map.mp hs
  exact Nat.mod_lt _ (by decide)

/-- An address is put together again from its segments. -/
theorem ofSegments_segmentsOf (ip : Ipv6Addr) : ofSegments (segmentsOf ip) = ip := by
  have hip : ip.toNat < 2 ^ 128 := ip.isLt
  have hvalue : (segmentsOf ip).foldl (fun ip segment => ip * 65536 + segment) 0 = ip.toNat := by
    show (List.map _ [0, 1, 2, 3, 4, 5, 6, 7]).foldl _ 0 = _
    simp only [List.map_cons, List.map_nil, List.foldl_cons, List.foldl_nil]
    norm_num
    omega
  rw [ofSegments, hvalue, BitVec.ofNat_toNat, BitVec.setWidth_eq]

/-- A mapped address as a number. -/
theorem toNat_of_mapped {ip : Ipv6Addr} {ip4 : Ipv4Addr} (h : toIpv4Mapped ip = some ip4) :
    ip.toNat = 65535 * 4294967296 + ip4.toNat := by
  unfold toIpv4Mapped at h
  split at h
  · rename_i hhigh
    cases h
    have hip : ip.toNat < 2 ^ 128 := ip.isLt
    have hhigh := congrArg BitVec.toNat hhigh
    rw [BitVec.extractLsb'_toNat, Nat.shiftRight_eq_div_pow] at hhigh
    rw [BitVec.extractLsb'_toNat, Nat.shiftRight_eq_div_pow]
    have hvalue : ((0xffff : BitVec 96)).toNat = 65535 := rfl
    rw [hvalue] at hhigh
    omega
  · cases h

/-- The segments of an IPv4-mapped address. -/
theorem ofSegments_mapped {ip : Ipv6Addr} {ip4 : Ipv4Addr} (h : toIpv4Mapped ip = some ip4) :
    ofSegments [0, 0, 0, 0, 0, 65535, ip4.toNat / 65536, ip4.toNat % 65536] = ip := by
  have hip := toNat_of_mapped h
  rw [ofSegments]
  simp only [List.foldl_cons, List.foldl_nil]
  have hvalue : ((((((((0 * 65536 + 0) * 65536 + 0) * 65536 + 0) * 65536 + 0) * 65536 + 0) *
      65536 + 65535) * 65536 + ip4.toNat / 65536) * 65536 + ip4.toNat % 65536) = ip.toNat := by
    omega
  rw [hvalue, BitVec.ofNat_toNat, BitVec.setWidth_eq]

/-- Groups on both sides of a double colon. -/
theorem readIpv6_of_groups {text rest rest' : List Char} {head tail : List ℕ} {embedded : Bool}
    (hhead : readGroups 8 0 text = (head, false, ':' :: ':' :: rest)) (hlength : head.length ≠ 8)
    (htail : readGroups (8 - (head.length + 1)) 0 rest = (tail, embedded, rest')) :
    readIpv6 text = some
      (ofSegments (head ++ List.replicate (8 - head.length - tail.length) 0 ++ tail), rest') := by
  unfold readIpv6
  rw [hhead]
  dsimp only
  rw [if_neg hlength, if_neg Bool.false_ne_true]
  simp only [readGiven, if_true, Option.bind_eq_bind, Option.bind_some]
  rw [htail]

/-- The run of zeros that is left out, when it is long enough. -/
def zerosOf (ip : Ipv6Addr) : ℕ × ℕ := zeroRun 0 (0, 0) (0, 0) (segmentsOf ip)

/-- The zeros that are left out of a text are there. -/
theorem zerosOf_block (ip : Ipv6Addr) : ZeroBlock (segmentsOf ip) (zerosOf ip) :=
  @zeroRun_block [] (segmentsOf ip) _ _ (zeroBlock_zero []) (zeroBlock_zero [])
    fun hpos => absurd hpos (lt_irrefl 0)

/-- The text of segments without a block of zeros. -/
def compressedText (segments : List ℕ) (run : ℕ × ℕ) : List Char :=
  segmentsText (segments.take run.1) ++ [':', ':'] ++
    segmentsText (segments.drop (run.1 + run.2))

/-- A mapped address is printed with its IPv4 address. -/
theorem ipv6Text_of_some {ip : Ipv6Addr} {ip4 : Ipv4Addr} (h : toIpv4Mapped ip = some ip4) :
    ipv6Text ip = [':', ':', 'f', 'f', 'f', 'f', ':'] ++ ipv4Text ip4 := by
  rw [ipv6Text, h]

/-- Any other address is printed by its segments, without its longest run of zeros. -/
theorem ipv6Text_of_none {ip : Ipv6Addr} (h : toIpv4Mapped ip = none) :
    ipv6Text ip = if (zerosOf ip).2 > 1 then compressedText (segmentsOf ip) (zerosOf ip)
      else segmentsText (segmentsOf ip) := by
  rw [ipv6Text, h]
  rfl

/-- The text of an IPv4-mapped address. -/
theorem readIpv6_mapped {ip : Ipv6Addr} {ip4 : Ipv4Addr} (h : toIpv4Mapped ip = some ip4)
    {rest : List Char} (hrest : NoDigit 16 rest) :
    readIpv6 ([':', ':', 'f', 'f', 'f', 'f', ':'] ++ ipv4Text ip4 ++ rest) = some (ip, rest) := by
  have hhead := readGroups_ends
    (endsGroups_colons (['f', 'f', 'f', 'f', ':'] ++ ipv4Text ip4 ++ rest)) 8 0
  -- the group in front of the address
  have hgroup := @readGroups_group 65535 (by decide) 6 0 (':' :: (ipv4Text ip4 ++ rest))
    (noDigit_cons (by decide)) (by simp)
  have haddr : readGroups 6 1 (':' :: (ipv4Text ip4 ++ rest)) =
      ([ip4.toNat / 65536, ip4.toNat % 65536], true, rest) := by
    have hread := readSeparator_separator readIpv4 1 (ipv4Text ip4 ++ rest)
    rw [readIpv4_ipv4Text ip4 (hrest.of_le (by decide))] at hread
    have hread : readSeparator ':' 1 readIpv4 (':' :: (ipv4Text ip4 ++ rest)) =
        some (ip4, rest) := hread
    rw [readGroups, if_pos (by decide), hread]
  rw [haddr] at hgroup
  have htail : readGroups 7 0 (['f', 'f', 'f', 'f', ':'] ++ ipv4Text ip4 ++ rest) =
      ([65535, ip4.toNat / 65536, ip4.toNat % 65536], true, rest) := by
    refine Eq.trans (congrArg (readGroups 7 0) ?_) hgroup
    have hffff : Nat.toDigits 16 65535 = ['f', 'f', 'f', 'f'] := by decide
    rw [hffff]
    simp [separator]
  have hread := readIpv6_of_groups hhead (by decide) htail
  exact hread.trans (congrArg (fun ip => some (ip, rest)) (ofSegments_mapped h))

/-- The text of segments whose zeros are left out. -/
theorem readIpv6_compressed {ip : Ipv6Addr} {run : ℕ × ℕ} (h : ZeroBlock (segmentsOf ip) run)
    (hlong : 1 < run.2) {rest : List Char} (hrest : EndsGroups rest) :
    readIpv6 (compressedText (segmentsOf ip) run ++ rest) = some (ip, rest) := by
  unfold compressedText
  have hinside := h.inside
  have heq := h.eq_append
  have hlength := length_segmentsOf ip
  have hlt := segmentsOf_lt ip
  generalize hhead : (segmentsOf ip).take run.1 = head at heq
  generalize htail : (segmentsOf ip).drop (run.1 + run.2) = tail at heq
  have hheadLen : head.length = run.1 := by
    rw [← hhead, List.length_take]
    omega
  have htailLen : tail.length = 8 - (run.1 + run.2) := by
    rw [← htail, List.length_drop, hlength]
  have hreadHead := @readGroups_segmentsText head
    (fun s hs => hlt s (List.take_subset _ _ (hhead ▸ hs))) _
    (endsGroups_colons (segmentsText tail ++ rest)) 8 (by omega)
  have hreadTail := @readGroups_segmentsText tail
    (fun s hs => hlt s (List.drop_subset _ _ (htail ▸ hs))) _ hrest (8 - (head.length + 1))
    (by omega)
  have htext : segmentsText head ++ [':', ':'] ++ segmentsText tail ++ rest =
      segmentsText head ++ ':' :: ':' :: (segmentsText tail ++ rest) := by
    simp
  have hzeros : 8 - head.length - tail.length = run.2 := by omega
  rw [htext, readIpv6_of_groups hreadHead (by omega) hreadTail, hzeros, heq,
    ofSegments_segmentsOf]

/-- An address is read back. -/
theorem readIpv6_ipv6Text (ip : Ipv6Addr) {rest : List Char} (hrest : EndsGroups rest) :
    readIpv6 (ipv6Text ip ++ rest) = some (ip, rest) := by
  cases hmapped : toIpv4Mapped ip with
  | some ip4 =>
    rw [ipv6Text_of_some hmapped]
    exact readIpv6_mapped hmapped hrest.noDigit
  | none =>
    rw [ipv6Text_of_none hmapped]
    split
    · rename_i hlong
      exact readIpv6_compressed (zerosOf_block ip) hlong hrest
    · have hread := @readGroups_segmentsText _ (segmentsOf_lt ip) _ hrest 8
        (by rw [length_segmentsOf])
      unfold readIpv6
      rw [hread]
      dsimp only
      rw [if_pos (length_segmentsOf ip), ofSegments_segmentsOf]

/-! ## What the texts are made of -/

/-- The characters of addresses and ports. -/
def IsAddrChar (c : Char) : Prop := isDigitOf 16 c = true ∨ c = '.' ∨ c = ':'

theorem isAddrChar_colon : IsAddrChar ':' := Or.inr (Or.inr rfl)

theorem isAddrChar_mapped : ∀ c ∈ [':', ':', 'f', 'f', 'f', 'f', ':'], IsAddrChar c := by
  have hf : IsAddrChar 'f' := Or.inl rfl
  simp only [List.forall_mem_cons]
  exact ⟨isAddrChar_colon, isAddrChar_colon, hf, hf, hf, hf, isAddrChar_colon,
    List.forall_mem_nil _⟩

theorem isAddrChar_decimal (n : ℕ) : ∀ c ∈ Nat.toDigits 10 n, IsAddrChar c := fun c hc =>
  Or.inl (isDigitOf_of_le (by decide) (isDigitOf_toDigits (by decide) (by decide) n c hc))

theorem isAddrChar_ipv4Text (ip : Ipv4Addr) : ∀ c ∈ ipv4Text ip, IsAddrChar c := by
  intro c hc
  simp only [ipv4Text, List.mem_append, List.mem_singleton] at hc
  rcases hc with (((((hc | hc) | hc) | hc) | hc) | hc) | hc
  all_goals first
    | exact isAddrChar_decimal _ c hc
    | exact Or.inr (Or.inl hc)

theorem isAddrChar_colonGroups (segments : List ℕ) :
    ∀ c ∈ colonGroups segments, IsAddrChar c := by
  intro c hc
  obtain ⟨s, -, hc⟩ := List.mem_flatMap.mp hc
  rcases List.mem_cons.mp hc with hc | hc
  · exact Or.inr (Or.inr hc)
  · exact Or.inl (isDigitOf_toDigits (by decide) (by decide) s c hc)

theorem isAddrChar_segmentsText (segments : List ℕ) :
    ∀ c ∈ segmentsText segments, IsAddrChar c := by
  intro c hc
  cases segments with
  | nil => cases hc
  | cons s segments =>
    rw [segmentsText_cons] at hc
    rcases List.mem_append.mp hc with hc | hc
    · exact Or.inl (isDigitOf_toDigits (by decide) (by decide) s c hc)
    · exact isAddrChar_colonGroups segments c hc

theorem isAddrChar_compressedText (segments : List ℕ) (run : ℕ × ℕ) :
    ∀ c ∈ compressedText segments run, IsAddrChar c := by
  intro c hc
  rcases List.mem_append.mp hc with hc | hc
  · rcases List.mem_append.mp hc with hc | hc
    · exact isAddrChar_segmentsText _ c hc
    · have hcolon : c = ':' := by simpa using hc
      rw [hcolon]
      exact isAddrChar_colon
  · exact isAddrChar_segmentsText _ c hc

/-- The text of an address has only digits, dots and colons. -/
theorem isAddrChar_ipv6Text (ip : Ipv6Addr) : ∀ c ∈ ipv6Text ip, IsAddrChar c := by
  intro c hc
  cases hmapped : toIpv4Mapped ip with
  | some ip4 =>
    rw [ipv6Text_of_some hmapped] at hc
    rcases List.mem_append.mp hc with hc | hc
    · exact isAddrChar_mapped c hc
    · exact isAddrChar_ipv4Text ip4 c hc
  | none =>
    rw [ipv6Text_of_none hmapped] at hc
    split at hc
    · exact isAddrChar_compressedText _ _ c hc
    · exact isAddrChar_segmentsText _ c hc

/-! ## How long they are -/

/-- A number below `10 ^ k` has at most `k` digits. -/
theorem length_decimal_le {n k : ℕ} (hk : 0 < k) (hn : n < 10 ^ k) :
    (Nat.toDigits 10 n).length ≤ k := (Nat.length_toDigits_le_iff (by decide) hk).mpr hn

/-- Four octets of three digits, with three dots, are the longest text. -/
theorem length_ipv4Text_le (ip : Ipv4Addr) : (ipv4Text ip).length ≤ 15 := by
  have hoctet : ∀ n : ℕ, (Nat.toDigits 10 (n % 256)).length ≤ 3 := by
    intro n
    apply length_decimal_le (by decide)
    have : n % 256 < 256 := Nat.mod_lt _ (by decide)
    omega
  have h₃ := hoctet (ip.toNat / 256 ^ 3)
  have h₂ := hoctet (ip.toNat / 256 ^ 2)
  have h₁ := hoctet (ip.toNat / 256 ^ 1)
  have h₀ := hoctet (ip.toNat / 256 ^ 0)
  simp only [ipv4Text, List.length_append, List.length_singleton]
  omega

/-- A group takes five characters at most. -/
theorem length_colonGroups_le {segments : List ℕ} (hsegments : ∀ s ∈ segments, s < 65536) :
    (colonGroups segments).length ≤ 5 * segments.length := by
  induction segments with
  | nil => exact le_refl _
  | cons s segments ih =>
    have hs : (Nat.toDigits 16 s).length ≤ 4 :=
      (Nat.length_toDigits_le_iff (by decide) (by decide)).mpr
        (hsegments s (List.mem_cons_self ..))
    have hrest := ih fun t ht => hsegments t (List.mem_cons_of_mem _ ht)
    have hcons : colonGroups (s :: segments) =
        ':' :: (Nat.toDigits 16 s ++ colonGroups segments) := rfl
    rw [hcons, List.length_cons, List.length_append, List.length_cons]
    omega

/-- The first group takes one less. -/
theorem length_segmentsText_le {segments : List ℕ} (hsegments : ∀ s ∈ segments, s < 65536) :
    (segmentsText segments).length ≤ 5 * segments.length - 1 := by
  cases segments with
  | nil => exact le_refl _
  | cons s segments =>
    have hs : (Nat.toDigits 16 s).length ≤ 4 :=
      (Nat.length_toDigits_le_iff (by decide) (by decide)).mpr
        (hsegments s (List.mem_cons_self ..))
    have hrest := length_colonGroups_le fun t ht => hsegments t (List.mem_cons_of_mem _ ht)
    rw [segmentsText_cons, List.length_append, List.length_cons]
    omega

/-- The zeros that are left out take two colons at most. -/
theorem length_compressedText_le {segments : List ℕ} {run : ℕ × ℕ}
    (hsegments : ∀ s ∈ segments, s < 65536) (hrun : run.1 + run.2 ≤ segments.length) :
    (compressedText segments run).length ≤ 5 * (segments.length - run.2) + 2 := by
  have hhead := length_segmentsText_le fun s hs => hsegments s (List.take_subset run.1 _ hs)
  have htail := length_segmentsText_le fun s hs =>
    hsegments s (List.drop_subset (run.1 + run.2) _ hs)
  have hcolons : [':', ':'].length = 2 := rfl
  rw [List.length_take] at hhead
  rw [List.length_drop] at htail
  rw [compressedText, List.length_append, List.length_append, hcolons]
  omega

/-- Eight groups of four digits, with seven colons, are the longest text. -/
theorem length_ipv6Text_le (ip : Ipv6Addr) : (ipv6Text ip).length ≤ 39 := by
  cases hmapped : toIpv4Mapped ip with
  | some ip4 =>
    have hlength := length_ipv4Text_le ip4
    rw [ipv6Text_of_some hmapped, List.length_append]
    show 7 + (ipv4Text ip4).length ≤ 39
    omega
  | none =>
    have hlt := segmentsOf_lt ip
    have hlength := length_segmentsOf ip
    rw [ipv6Text_of_none hmapped]
    split
    · have := length_compressedText_le hlt (zerosOf_block ip).inside
      omega
    · have := length_segmentsText_le hlt
      omega

end Tcp

end SniRouter
