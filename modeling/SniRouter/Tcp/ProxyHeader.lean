import SniRouter.Tcp.AddrText
import SniRouter.Tcp.Forwarding

/-!
# What a backend reads from the PROXY line

A backend with `proxy_header` gets a line with the addresses of the client's connection in front
of the client's stream. `readProxyLine` is the receiver of version 1 of the PROXY protocol: it is
not translated from the router, it says what the line is for. Whatever the client sends, and
however much of it has arrived, the receiver finds the true addresses (`proxy_header_recovered`).
-/

namespace SniRouter

namespace Tcp

/-! ## The receiver -/

/-- The longest line that a receiver has to take, its end included. -/
def maxProxyLine : ℕ := 107

/-- A line without its end, and what follows. -/
def splitLine (bytes : Bytes) : Option (Bytes × Bytes) :=
  let line := bytes.takeWhile (· != 13)
  match bytes.drop line.length with
  | 13 :: 10 :: rest => if line.length + 2 ≤ maxProxyLine then some (line, rest) else none
  | _ => none

def readAddr (proto ip port : List Char) : Option SocketAddr := do
  let port ← whole (readNumber portFormat) port
  if proto = "TCP4".toList then
    let ip ← whole readIpv4 ip
    some (.v4 ip (UInt16.ofNat port))
  else if proto = "TCP6".toList then
    let ip ← whole readIpv6 ip
    some (.v6 ip (UInt16.ofNat port) 0 0)
  else none

/-- The address of the client, and the address it has connected to. -/
def readFields : List (List Char) → Option (SocketAddr × SocketAddr)
  | [proxy, proto, srcAddr, dstAddr, srcPort, dstPort] =>
    if proxy = "PROXY".toList then do
      let peer ← readAddr proto srcAddr srcPort
      let me ← readAddr proto dstAddr dstPort
      some (peer, me)
    else none
  | _ => none

/-- The addresses, and what follows the line. -/
def readProxyLine (bytes : Bytes) : Option ((SocketAddr × SocketAddr) × Bytes) := do
  let (line, rest) ← splitLine bytes
  let addrs ← readFields ((line.map fun b => Char.ofNat b.toNat).splitOn ' ')
  some (addrs, rest)

/-- Flow and scope are not in the line. -/
def withoutScope : SocketAddr → SocketAddr
  | .v4 ip port => .v4 ip port
  | .v6 ip port _ _ => .v6 ip port 0 0

/-- Both addresses of a socket are of its family. -/
def SameFamily : SocketAddr → SocketAddr → Prop
  | .v4 .., .v4 .. => True
  | .v6 .., .v6 .. => True
  | _, _ => False

/-! ## Lines -/

section Lines

variable {line stream bytes l rest : Bytes}

theorem takeWhile_line (h : (13 : UInt8) ∉ line) (rest : Bytes) :
    (line ++ 13 :: rest).takeWhile (· != 13) = line := by
  have hline : ∀ b ∈ line, (b != 13) = true := by
    intro b hb
    exact bne_iff_ne.mpr fun heq => h (heq ▸ hb)
  rw [List.takeWhile_append_of_pos hline, List.takeWhile_cons_of_neg (by simp), List.append_nil]

/-- A line that is short enough is split off again. -/
theorem splitLine_line (h : (13 : UInt8) ∉ line) (hlength : line.length + 2 ≤ maxProxyLine)
    (rest : Bytes) : splitLine (line ++ 13 :: 10 :: rest) = some (line, rest) := by
  unfold splitLine
  dsimp only
  rw [takeWhile_line h, List.drop_left]
  exact if_pos hlength

/-- What is split off is a line with its end. -/
theorem splitLine_eq_some (h : splitLine bytes = some (l, rest)) :
    (13 : UInt8) ∉ l ∧ bytes = l ++ 13 :: 10 :: rest := by
  unfold splitLine at h
  dsimp only at h
  split at h
  · rename_i rest' hdrop
    split at h
    · cases h
      rw [drop_length_takeWhile] at hdrop
      refine ⟨fun hmem => ?_, ?_⟩
      · have hne := List.all_eq_true.mp (List.all_takeWhile (p := (· != 13))) 13 hmem
        exact absurd hne (by decide)
      rw [← hdrop, List.takeWhile_append_dropWhile]
    · cases h
  · cases h

/-- The line a receiver finds is the one that was sent, however much of what follows has
arrived. -/
theorem splitLine_of_prefix (h13 : (13 : UInt8) ∉ line)
    (hpre : bytes <+: line ++ 13 :: 10 :: stream) (h : splitLine bytes = some (l, rest)) :
    l = line ∧ rest <+: stream := by
  obtain ⟨hl, rfl⟩ := splitLine_eq_some h
  obtain ⟨more, hmore⟩ := hpre
  have heq : l ++ 13 :: (10 :: rest ++ more) = line ++ 13 :: 10 :: stream := by
    rw [← hmore]
    simp
  have hline := congrArg (List.takeWhile (· != 13)) heq
  rw [takeWhile_line hl, takeWhile_line h13] at hline
  subst hline
  have hrest := List.append_cancel_left heq
  simp only [List.cons_append, List.cons.injEq, true_and] at hrest
  exact ⟨rfl, more, hrest⟩

end Lines

/-! ## The line of the router -/

/-- No space, and no control character. -/
def Plain (c : Char) : Prop := 32 < c.toNat ∧ c.toNat < 127

instance : DecidablePred Plain := fun _ => inferInstanceAs (Decidable (_ ∧ _))

theorem plain_of_all {text : List Char} (h : text.all (fun c => decide (Plain c)) = true) :
    ∀ c ∈ text, Plain c := fun c hc => of_decide_eq_true (List.all_eq_true.mp h c hc)

theorem plain_of_isDigitOf {radix : ℕ} {c : Char} (h : isDigitOf radix c = true) : Plain c := by
  unfold isDigitOf toDigit at h
  unfold Plain
  dsimp only at h
  split at h
  · omega
  · split at h
    · omega
    · split at h
      · omega
      · cases h

theorem plain_of_isAddrChar {c : Char} (h : IsAddrChar c) : Plain c := by
  rcases h with h | rfl | rfl
  · exact plain_of_isDigitOf h
  · exact ⟨by decide, by decide⟩
  · exact ⟨by decide, by decide⟩

/-- `"TCP4"` or `"TCP6"`. -/
def protoText : SocketAddr → List Char
  | .v4 .. => "TCP4".toList
  | .v6 .. => "TCP6".toList

def proxyFields (peer me : SocketAddr) : List (List Char) :=
  ["PROXY".toList, protoText peer, (addrText peer).1, (addrText me).1, (addrText peer).2,
    (addrText me).2]

section Fields

variable (peer me : SocketAddr)

/-- The line is its fields, joined by spaces, and the line end. -/
theorem proxyLine_eq (stream : Bytes) : proxyLine peer me ++ stream =
    ascii (List.intercalate [' '] (proxyFields peer me)) ++ 13 :: 10 :: stream := by
  have htext : "PROXY ".toList ++ protoText peer ++ [' '] ++ (addrText peer).1 ++ [' '] ++
      (addrText me).1 ++ [' '] ++ (addrText peer).2 ++ [' '] ++ (addrText me).2 ++ ['\r', '\n'] =
        List.intercalate [' '] (proxyFields peer me) ++ ['\r', '\n'] := by
    have hspace : "PROXY ".toList = "PROXY".toList ++ [' '] := rfl
    rw [hspace]
    simp only [proxyFields, List.intercalate_cons_cons, List.intercalate_singleton,
      List.append_assoc]
  have hline : proxyLine peer me =
      ascii (List.intercalate [' '] (proxyFields peer me) ++ ['\r', '\n']) := by
    rw [← htext]
    cases peer <;> rfl
  rw [hline, ascii, List.map_append, List.append_assoc]
  rfl

theorem plain_addrText (addr : SocketAddr) :
    (∀ c ∈ (addrText addr).1, Plain c) ∧ ∀ c ∈ (addrText addr).2, Plain c := by
  cases addr with
  | v4 ip port =>
    exact ⟨fun c hc => plain_of_isAddrChar (isAddrChar_ipv4Text ip c hc),
      fun c hc => plain_of_isAddrChar (isAddrChar_decimal _ c hc)⟩
  | v6 ip port flowinfo scopeId =>
    exact ⟨fun c hc => plain_of_isAddrChar (isAddrChar_ipv6Text ip c hc),
      fun c hc => plain_of_isAddrChar (isAddrChar_decimal _ c hc)⟩

/-- No field has a space or a line end in it. -/
theorem plain_proxyFields : ∀ field ∈ proxyFields peer me, ∀ c ∈ field, Plain c := by
  have hproxy : ∀ c ∈ "PROXY".toList, Plain c := plain_of_all (by decide)
  have hproto : ∀ c ∈ protoText peer, Plain c := by
    cases peer with
    | v4 ip port => exact @plain_of_all "TCP4".toList (by decide)
    | v6 ip port flowinfo scopeId => exact @plain_of_all "TCP6".toList (by decide)
  obtain ⟨hpeer, hpeerPort⟩ := plain_addrText peer
  obtain ⟨hme, hmePort⟩ := plain_addrText me
  simp only [proxyFields, List.forall_mem_cons]
  exact ⟨hproxy, hproto, hpeer, hme, hpeerPort, hmePort, List.forall_mem_nil _⟩

/-- The characters of the line, its spaces included. -/
theorem toNat_intercalate : ∀ c ∈ List.intercalate [' '] (proxyFields peer me),
    32 ≤ c.toNat ∧ c.toNat < 127 := by
  have hplain := plain_proxyFields peer me
  generalize proxyFields peer me = fields at hplain
  intro c hc
  induction fields with
  | nil => cases hc
  | cons field fields ih =>
    have hfield : ∀ c ∈ field, 32 ≤ c.toNat ∧ c.toNat < 127 := by
      intro c hc
      have := hplain field (List.mem_cons_self ..) c hc
      exact ⟨this.1.le, this.2⟩
    cases fields with
    | nil =>
      rw [List.intercalate_singleton] at hc
      exact hfield c hc
    | cons next fields =>
      rw [List.intercalate_cons_cons] at hc
      rcases List.mem_append.mp hc with hc | hc
      · rcases List.mem_append.mp hc with hc | hc
        · exact hfield c hc
        · cases List.mem_singleton.mp hc
          exact ⟨by decide, by decide⟩
      · exact ih (fun f hf => hplain f (List.mem_cons_of_mem _ hf)) hc

/-- The line without its end, as bytes. -/
theorem not_mem_line : (13 : UInt8) ∉ ascii (List.intercalate [' '] (proxyFields peer me)) := by
  intro hmem
  obtain ⟨c, hc, heq⟩ := List.mem_map.mp hmem
  have hrange := toNat_intercalate peer me c hc
  have hvalue := congrArg UInt8.toNat heq
  rw [UInt8.toNat_ofNat'] at hvalue
  have hthirteen : (13 : UInt8).toNat = 13 := rfl
  omega

theorem map_ascii {text : List Char} (h : ∀ c ∈ text, 32 ≤ c.toNat ∧ c.toNat < 127) :
    (ascii text).map (fun b => Char.ofNat b.toNat) = text := by
  rw [ascii, List.map_map]
  refine (List.map_congr_left fun c hc => ?_).trans (List.map_id text)
  have hrange := h c hc
  show Char.ofNat (UInt8.ofNat c.toNat).toNat = c
  rw [UInt8.toNat_ofNat', Nat.mod_eq_of_lt (by omega), Char.ofNat_toNat]

/-- An address takes at most 39 characters, and a port five. -/
theorem length_addrText_le (addr : SocketAddr) :
    (addrText addr).1.length ≤ 39 ∧ (addrText addr).2.length ≤ 5 := by
  have hport : ∀ port : UInt16, (Nat.toDigits 10 port.toNat).length ≤ 5 := by
    intro port
    have := port.toNat_lt
    exact length_decimal_le (by decide) (by omega)
  cases addr with
  | v4 ip port => exact ⟨(length_ipv4Text_le ip).trans (by decide), hport port⟩
  | v6 ip port flowinfo scopeId => exact ⟨length_ipv6Text_le ip, hport port⟩

/-- The line is never too long for a receiver. -/
theorem length_line_le :
    (ascii (List.intercalate [' '] (proxyFields peer me))).length + 2 ≤ maxProxyLine := by
  have hproxy : "PROXY".toList.length = 5 := rfl
  have hproto : (protoText peer).length = 4 := by cases peer <;> rfl
  have hpeer := length_addrText_le peer
  have hme := length_addrText_le me
  rw [ascii, List.length_map]
  simp only [proxyFields, List.intercalate_cons_cons, List.intercalate_singleton,
    List.length_append, List.length_singleton]
  unfold maxProxyLine
  omega

end Fields

section Receiver

theorem whole_eq_some {α : Type} {reader : Reader α} {text : List Char} {value : α}
    (h : reader (text ++ []) = some (value, [])) : whole reader text = some value := by
  rw [List.append_nil] at h
  rw [whole, h]

theorem readPort_toDigits (port : UInt16) :
    whole (readNumber portFormat) (Nat.toDigits 10 port.toNat) = some port.toNat := by
  apply whole_eq_some
  apply readNumber_toDigits (f := portFormat) (by decide) (by decide) port.toNat_lt _ noDigit_nil
  intro k hk
  cases hk

/-- An address is read back, without its scope. -/
theorem readAddr_addrText (addr : SocketAddr) :
    readAddr (protoText addr) (addrText addr).1 (addrText addr).2 =
      some (withoutScope addr) := by
  cases addr with
  | v4 ip port =>
    have hip : whole readIpv4 (ipv4Text ip) = some ip :=
      whole_eq_some (readIpv4_ipv4Text ip noDigit_nil)
    show (whole (readNumber portFormat) (Nat.toDigits 10 port.toNat)).bind _ = _
    rw [readPort_toDigits, Option.bind_some, protoText, if_pos rfl]
    show (whole readIpv4 (ipv4Text ip)).bind _ = _
    rw [hip, Option.bind_some, UInt16.ofNat_toNat]
    rfl
  | v6 ip port flowinfo scopeId =>
    have hip : whole readIpv6 (ipv6Text ip) = some ip := by
      apply whole_eq_some
      apply readIpv6_ipv6Text
      exact endsGroups_of_head fun c hc => by cases hc
    show (whole (readNumber portFormat) (Nat.toDigits 10 port.toNat)).bind _ = _
    rw [readPort_toDigits, Option.bind_some, protoText, if_neg (by decide), if_pos rfl]
    show (whole readIpv6 (ipv6Text ip)).bind _ = _
    rw [hip, Option.bind_some, UInt16.ofNat_toNat]
    rfl

variable {peer me : SocketAddr}

/-- The two addresses are read back from the fields. -/
theorem readFields_proxyFields (hfamily : SameFamily peer me) :
    readFields (proxyFields peer me) = some (withoutScope peer, withoutScope me) := by
  have hproto : protoText peer = protoText me := by
    cases peer <;> cases me
    · rfl
    · exact hfamily.elim
    · exact hfamily.elim
    · rfl
  have hpeer := readAddr_addrText peer
  have hme := readAddr_addrText me
  rw [← hproto] at hme
  show (if "PROXY".toList = "PROXY".toList then _ else none) = _
  rw [if_pos rfl, hpeer]
  show (readAddr (protoText peer) (addrText me).1 (addrText me).2).bind _ = _
  rw [hme]
  rfl

/-- They are read back from the line. -/
theorem readFields_line (hfamily : SameFamily peer me) :
    readFields (((ascii (List.intercalate [' '] (proxyFields peer me))).map
      fun b => Char.ofNat b.toNat).splitOn ' ') = some (withoutScope peer, withoutScope me) := by
  have hspace : ∀ field ∈ proxyFields peer me, ' ' ∉ field := by
    intro field hfield hmem
    exact absurd (plain_proxyFields peer me field hfield ' ' hmem).1 (by decide)
  have hsplit := List.splitOn_intercalate ' ' hspace (by simp [proxyFields])
  rw [map_ascii (toNat_intercalate peer me), hsplit, readFields_proxyFields hfamily]

/-- The line is read when all of it has arrived. -/
theorem readProxyLine_proxyLine (hfamily : SameFamily peer me) (stream : Bytes) :
    readProxyLine (proxyLine peer me ++ stream) =
      some ((withoutScope peer, withoutScope me), stream) := by
  rw [proxyLine_eq, readProxyLine,
    splitLine_line (not_mem_line peer me) (length_line_le peer me)]
  show (readFields _).bind _ = _
  rw [readFields_line hfamily]
  rfl

/-- Whatever has arrived, no other line is read. -/
theorem readProxyLine_of_prefix (hfamily : SameFamily peer me) {bytes stream payload : Bytes}
    {addrs : SocketAddr × SocketAddr} (hpre : bytes <+: proxyLine peer me ++ stream)
    (h : readProxyLine bytes = some (addrs, payload)) :
    addrs = (withoutScope peer, withoutScope me) ∧ payload <+: stream := by
  rw [proxyLine_eq] at hpre
  rw [readProxyLine] at h
  obtain ⟨⟨line, rest⟩, hline, h⟩ := Option.bind_eq_some_iff.mp h
  obtain ⟨addrs', hfields, h⟩ := Option.bind_eq_some_iff.mp h
  cases h
  obtain ⟨rfl, hrest⟩ := splitLine_of_prefix (not_mem_line peer me) hpre hline
  exact ⟨Option.some.inj (hfields.symm.trans (readFields_line hfamily)), hrest⟩

/-- As many bytes as the longest line has are enough. -/
theorem readProxyLine_of_long (hfamily : SameFamily peer me) {bytes stream : Bytes}
    (hpre : bytes <+: proxyLine peer me ++ stream) (hlong : maxProxyLine ≤ bytes.length) :
    ∃ payload, readProxyLine bytes = some ((withoutScope peer, withoutScope me), payload) := by
  have hlength : (proxyLine peer me).length ≤ maxProxyLine := by
    have heq := congrArg List.length (proxyLine_eq peer me [])
    have hline := length_line_le peer me
    rw [List.append_nil, List.length_append] at heq
    simp only [List.length_cons, List.length_nil] at heq
    omega
  obtain ⟨payload, rfl⟩ := List.prefix_of_prefix_length_le (List.prefix_append _ stream) hpre
    (hlength.trans hlong)
  exact ⟨payload, readProxyLine_proxyLine hfamily payload⟩

end Receiver

/-! ## A connection -/

/-- One socket, whatever was read from it and written to it. -/
def SameAddrs (a b : TcpStream) : Prop := a.peerAddr = b.peerAddr ∧ a.localAddr = b.localAddr

theorem SameAddrs.trans {a b c : TcpStream} (hab : SameAddrs a b) (hbc : SameAddrs b c) :
    SameAddrs a c := ⟨hab.1.trans hbc.1, hab.2.trans hbc.2⟩

/-- The line depends on the two addresses of the client connection only. -/
theorem SameAddrs.sentHeader_eq {a b : TcpStream} (h : SameAddrs a b) (proxyHeader : Bool) :
    proxyHeaderLine a proxyHeader = proxyHeaderLine b proxyHeader ∧
      sentHeader a proxyHeader = sentHeader b proxyHeader := by
  have hline : proxyHeaderLine a proxyHeader = proxyHeaderLine b proxyHeader := by
    unfold proxyHeaderLine
    rw [h.1, h.2]
  refine ⟨hline, ?_⟩
  unfold sentHeader
  rw [hline]

theorem writeAll_sameAddrs (stream : TcpStream) (data : Bytes) :
    SameAddrs (stream.writeAll data).2 stream := by
  unfold TcpStream.writeAll
  split <;> exact ⟨rfl, rfl⟩

section Handshakes

variable {σ : Type} (tls : ServerConnection σ)

theorem writePending_sameAddrs {session session' : Session σ} {stream stream' : TcpStream}
    (h : writePending tls session stream = .ok (session', stream')) :
    SameAddrs stream' stream := by
  fun_induction writePending tls session stream with
  | case1 => cases h
  | case2 => cases h
  | case3 session stream hwants output state hwrite stream₁ hall ih =>
    have hwritten := writeAll_sameAddrs stream output
    rw [hall] at hwritten
    exact (ih h).trans hwritten
  | case4 =>
    cases h
    exact ⟨rfl, rfl⟩

theorem round_sameAddrs {h h' : Handshake σ} (hround : h.round tls = .ok h') :
    SameAddrs h'.stream h.stream := by
  obtain ⟨_, -, hround⟩ := except_bind_eq_ok hround
  obtain ⟨_, -, hround⟩ := except_bind_eq_ok hround
  obtain ⟨_, -, hround⟩ := except_bind_eq_ok hround
  obtain ⟨_, -, hround⟩ := except_bind_eq_ok hround
  obtain ⟨_, -, hround⟩ := except_bind_eq_ok hround
  obtain ⟨⟨session, stream⟩, hwritten, hround⟩ := except_bind_eq_ok hround
  cases hround
  have hsame := writePending_sameAddrs tls hwritten
  exact ⟨hsame.1, hsame.2⟩

theorem loop_sameAddrs {kernel : KernelTls} {h result : Handshake σ}
    (hloop : h.loop tls kernel = .ok result) : SameAddrs result.stream h.stream := by
  fun_induction Handshake.loop tls kernel h with
  | case1 => cases hloop
  | case2 h h' hround hgoing ih => exact (ih hloop).trans (round_sameAddrs tls hround)
  | case3 => cases hloop
  | case4 h h' hround hgoing hkernel =>
    cases hloop
    exact round_sameAddrs tls hround

/-- The addresses are those of the client, also behind frontend TLS. -/
theorem frontendHandshake_sameAddrs (env : Env σ) {frontendTls : Option FrontendTls}
    {stream stream' : TcpStream} {bytes bytes' : Bytes}
    (h : frontendHandshake env frontendTls stream bytes = .ok (stream', bytes')) :
    SameAddrs stream' stream ∧ (frontendTls = none → stream' = stream ∧ bytes' = bytes) := by
  unfold frontendHandshake at h
  split at h
  · cases h
    exact ⟨⟨rfl, rfl⟩, fun _ => ⟨rfl, rfl⟩⟩
  · rename_i config
    refine ⟨?_, fun hnone => by cases hnone⟩
    split at h
    · cases h
    · rename_i handshake hhandshake
      cases h
      unfold tlsHandshake at hhandshake
      split at hhandshake
      · cases hhandshake
      · exact loop_sameAddrs _ hhandshake

end Handshakes

section Proxies

variable {σ : Type} (env : Env σ)

/-- A backend gets the header and a payload, which is the client's stream unless TLS is
terminated. -/
structure GetsHeader (proxy : ProxyConnection) (payload : Bytes)
    (r : Except String Unit × TcpStream) : Prop where
  plain : proxy.frontendTls = none → payload = proxy.bytes ++ proxy.stream.unread
  delivers : Delivers (sentHeader proxy.stream proxy.proxyHeader ++ payload) r
  header : r.1 = .ok () → proxyHeaderLine proxy.stream proxy.proxyHeader =
    .ok (sentHeader proxy.stream proxy.proxyHeader)

/-- A backend that got nothing. -/
theorem getsHeader_of_error {proxy : ProxyConnection} (hfresh : proxy.conn.written = [])
    (e : String) : GetsHeader proxy (proxy.bytes ++ proxy.stream.unread) (.error e, proxy.conn) := by
  refine ⟨fun _ => rfl, ⟨?_, fun hok => by cases hok⟩, fun hok => by cases hok⟩
  rw [hfresh]
  exact List.nil_prefix

/-- The backend gets the line before anything else. -/
theorem handleConnectedProxy_getsHeader {proxy : ProxyConnection}
    (hfresh : proxy.conn.written = []) (deadline : Bool) :
    ∃ payload, GetsHeader proxy payload ((handleConnectedProxy env proxy deadline).result,
      (handleConnectedProxy env proxy deadline).conn) := by
  unfold handleConnectedProxy
  dsimp only
  split
  · exact ⟨_, getsHeader_of_error hfresh _⟩
  · split
    · exact ⟨_, getsHeader_of_error hfresh _⟩
    · rename_i stream bytes hhandshake
      obtain ⟨haddrs, hsame⟩ := frontendHandshake_sameAddrs env hhandshake
      obtain ⟨hline, hheader⟩ := haddrs.sentHeader_eq proxy.proxyHeader
      obtain ⟨hdelivers, hok⟩ := joinHalves_delivers env stream bytes hfresh proxy.proxyHeader
      rw [hheader, List.append_assoc] at hdelivers
      rw [hheader, hline] at hok
      refine ⟨bytes ++ stream.unread, fun hnone => ?_, hdelivers, hok⟩
      obtain ⟨rfl, rfl⟩ := hsame hnone
      rfl

/-- It does so whether or not there is a deadline. -/
theorem handleWithTimeout_getsHeader {proxy : ProxyConnection}
    (hfresh : proxy.conn.written = []) (deadline : Bool) (timeout : Option Duration) :
    ∃ payload, GetsHeader proxy payload ((handleWithTimeout env proxy deadline timeout).result,
      (handleWithTimeout env proxy deadline timeout).conn) := by
  obtain ⟨payload, hgets⟩ := handleConnectedProxy_getsHeader env hfresh deadline
  refine ⟨payload, ?_⟩
  unfold handleWithTimeout
  dsimp only
  split
  · exact ⟨hgets.plain, hgets.delivers.droppedAt _ _, fun hok => by cases hok⟩
  · exact hgets

/-- What the backend of a run gets. -/
theorem handleConn_getsHeader (config : Config) (stream : TcpStream) (initialBytes : Bytes)
    {p : Proxied} (hp : (handleConn env config stream initialBytes).proxied = some p) :
    ∃ payload, (p.frontendTls = none → payload = initialBytes ++ stream.unread) ∧
      Delivers (sentHeader stream p.proxyHeader ++ payload) (p.result, p.conn) ∧
      (p.result = .ok () → proxyHeaderLine stream p.proxyHeader =
        .ok (sentHeader stream p.proxyHeader)) := by
  obtain ⟨-, -, hproxied⟩ := handleConn_connecting env config stream initialBytes
  obtain ⟨proxy, hproxy, rfl⟩ := hproxied p hp
  rcases routeWithDeadline_tries env config stream initialBytes with
    ⟨e, hnothing⟩ | ⟨backend, unread, bytes, htries, happend⟩
  · rw [hnothing] at hproxy
    cases hproxy
  · obtain ⟨last, -, -, hstream, hbytes, hfresh⟩ := htries.proxy proxy hproxy
    obtain ⟨payload, hgets⟩ := handleWithTimeout_getsHeader env hfresh
      config.handshakeTimeout.isSome (routeWithDeadline env config stream initialBytes).timeout
    obtain ⟨hheader, hfrontend⟩ := handleWithTimeout_backend env proxy
      config.handshakeTimeout.isSome (routeWithDeadline env config stream initialBytes).timeout
    have haddrs : SameAddrs proxy.stream stream := by
      rw [hstream]
      exact ⟨rfl, rfl⟩
    obtain ⟨hline, hsent⟩ := haddrs.sentHeader_eq proxy.proxyHeader
    rw [hheader, hfrontend, ← hsent, ← hline]
    refine ⟨payload, fun hnone => ?_, hgets.delivers, hgets.header⟩
    rw [hgets.plain hnone, hstream, hbytes]
    exact happend

end Proxies

/-- **A backend learns who the client is.** Whatever has arrived of what the router writes, a
receiver that finds a PROXY line in it finds the addresses of the client's connection: nothing the
client sends passes for a line of the router. The bytes of the longest line are enough to find
it. When the connection ends without an error, what follows the line is the client's stream. -/
theorem proxy_header_recovered {σ : Type} (env : Env σ) (config : Config) (stream : TcpStream)
    (initialBytes : Bytes) {peer me : SocketAddr} (hpeer : stream.peerAddr = .ok peer)
    (hme : stream.localAddr = .ok me) (hfamily : SameFamily peer me) {p : Proxied}
    (hp : (handleConn env config stream initialBytes).proxied = some p)
    (hheader : p.proxyHeader = true) :
    (∀ bytes addrs payload, bytes <+: p.conn.written →
      readProxyLine bytes = some (addrs, payload) →
      addrs = (withoutScope peer, withoutScope me) ∧
        (p.frontendTls = none → payload <+: initialBytes ++ stream.unread)) ∧
    (∀ bytes, bytes <+: p.conn.written → maxProxyLine ≤ bytes.length →
      (readProxyLine bytes).isSome) ∧
    (p.result = .ok () → ∃ payload,
      readProxyLine p.conn.written = some ((withoutScope peer, withoutScope me), payload) ∧
        (p.frontendTls = none → payload = initialBytes ++ stream.unread)) := by
  obtain ⟨payload, hpayload, hdelivers, -⟩ :=
    handleConn_getsHeader env config stream initialBytes hp
  have hsent : sentHeader stream p.proxyHeader = proxyLine peer me := by
    unfold sentHeader proxyHeaderLine
    rw [hheader, hpeer, hme]
    rfl
  rw [hsent] at hdelivers
  refine ⟨?_, ?_, ?_⟩
  · intro bytes addrs rest hpre hread
    obtain ⟨haddrs, hrest⟩ :=
      readProxyLine_of_prefix hfamily (hpre.trans hdelivers.part) hread
    exact ⟨haddrs, fun hnone => hpayload hnone ▸ hrest⟩
  · intro bytes hpre hlong
    obtain ⟨rest, hread⟩ := readProxyLine_of_long hfamily (hpre.trans hdelivers.part) hlong
    rw [hread]
    rfl
  · intro hok
    refine ⟨payload, ?_, hpayload⟩
    have hwritten : p.conn.written = proxyLine peer me ++ payload := hdelivers.all hok
    rw [hwritten]
    exact readProxyLine_proxyLine hfamily payload

/-- The sorry server of `sampleConfig` reads the client's address. -/
theorem proxy_header_recovered_sample :
    ∃ p, (handleConn sampleEnv sampleConfig (sampleStream [4, 5]) [1, 2, 3]).proxied = some p ∧
      readProxyLine p.conn.written =
        some ((.v4 0xc6336401 1000, .v4 0xc0000201 443), [1, 2, 3, 4, 5]) := by
  have hany : (handleConn sampleEnv sampleConfig (sampleStream [4, 5]) [1, 2, 3]).proxied.any
      (fun p => p.proxyHeader && p.frontendTls.isNone && p.result.isOk) = true := by
    decide +kernel
  obtain ⟨p, hp, hall⟩ := (Option.any_eq_true _ _).mp hany
  simp only [Bool.and_eq_true, Option.isNone_iff_eq_none] at hall
  obtain ⟨⟨hheader, htls⟩, hisOk⟩ := hall
  have hok : p.result = .ok () := by
    cases hresult : p.result with
    | error e =>
      rw [hresult] at hisOk
      cases hisOk
    | ok u => rfl
  obtain ⟨-, -, hwhole⟩ := proxy_header_recovered sampleEnv sampleConfig (sampleStream [4, 5])
    [1, 2, 3] rfl rfl trivial hp hheader
  obtain ⟨payload, hread, hpayload⟩ := hwhole hok
  refine ⟨p, hp, ?_⟩
  rw [hread, hpayload htls]
  rfl

end Tcp

end SniRouter
