import SniRouter.Lib.Table

/-!
# Byte strings and socket addresses

The vocabulary both binaries share: byte strings, big-endian integers, clock readings, errors,
and IPv4/IPv6 socket addresses with the normalization that identifies an IPv4-mapped IPv6
address with its IPv4 form.
-/

namespace SniRouter

/-- A byte string (`Vec<u8>`, `&[u8]`, and the UTF-8 contents of a `String`). -/
abbrev Bytes : Type := List UInt8

/-- A reading of the monotonic clock (`std::time::Instant`). -/
abbrev Instant : Type := ℕ

/-- A length of time (`std::time::Duration`), in the unit of `Instant`. -/
abbrev Duration : Type := ℕ

/-- `Duration::from_millis`, where the clock counts nanoseconds. -/
def fromMillis (ms : ℕ) : Duration := ms * 1000000

/-- The unsigned integer a byte string denotes in big-endian order (`from_be_bytes`). -/
def beNat (bytes : Bytes) : ℕ := bytes.foldl (fun n b => n * 256 + b.toNat) 0

/-- The sub-slice `bytes[start..stop]`. -/
def slice (bytes : Bytes) (start stop : ℕ) : Bytes := (bytes.take stop).drop start

/-- The sub-slice `bytes.get(start..stop)`, `none` when it is out of range. -/
def slice? (bytes : Bytes) (start stop : ℕ) : Option Bytes :=
  if start ≤ stop ∧ stop ≤ bytes.length then some (slice bytes start stop) else none

theorem length_slice_le (bytes : Bytes) (start stop : ℕ) :
    (slice bytes start stop).length ≤ stop - start := by
  simp only [slice, List.length_drop, List.length_take]
  omega

/-- The byte at offset `i`. -/
def byteAt (bytes : Bytes) (i : ℕ) : ℕ := (bytes.getD i 0).toNat

/-- The big-endian 16-bit integer at offset `i`. -/
def u16At (bytes : Bytes) (i : ℕ) : ℕ := byteAt bytes i * 256 + byteAt bytes (i + 1)

/-- The big-endian 24-bit integer at offset `i` (the length of a handshake message). -/
def u24At (bytes : Bytes) (i : ℕ) : ℕ :=
  byteAt bytes i * 65536 + byteAt bytes (i + 1) * 256 + byteAt bytes (i + 2)

/-- A byte inside the first part of a stream does not depend on the rest. -/
theorem byteAt_prefix_eq {l S : Bytes} (h : l <+: S) {i : ℕ} (hi : i < l.length) :
    byteAt l i = byteAt S i := by
  obtain ⟨t, rfl⟩ := h
  simp [byteAt, List.getElem?_append_left hi]

/-- Nor do two bytes. -/
theorem u16At_prefix_eq {l S : Bytes} (h : l <+: S) {i : ℕ} (hi : i + 1 < l.length) :
    u16At l i = u16At S i := by
  simp only [u16At, byteAt_prefix_eq h (show i < l.length by omega), byteAt_prefix_eq h hi]

/-- Nor do three. -/
theorem u24At_prefix_eq {l S : Bytes} (h : l <+: S) {i : ℕ} (hi : i + 2 < l.length) :
    u24At l i = u24At S i := by
  simp only [u24At, byteAt_prefix_eq h (show i < l.length by omega),
    byteAt_prefix_eq h (show i + 1 < l.length by omega), byteAt_prefix_eq h hi]

/-! ## Errors -/

/-- `Option::ok_or`. -/
def okOr {α : Type} (x : Option α) (message : String) : Except String α :=
  match x with
  | some a => .ok a
  | none => .error message

theorem except_bind_eq_ok {α β : Type} {x : Except String α} {f : α → Except String β} {b : β}
    (h : x.bind f = .ok b) : ∃ a, x = .ok a ∧ f a = .ok b := by
  cases x with
  | error e => cases h
  | ok a => exact ⟨a, rfl, h⟩

theorem except_bind_eq_ok_iff {α β : Type} {x : Except String α} {f : α → Except String β} {b : β} :
    (x >>= f) = .ok b ↔ ∃ a, x = .ok a ∧ f a = .ok b := by
  constructor
  · exact except_bind_eq_ok
  · rintro ⟨a, rfl, h⟩
    exact h

theorem except_ok_bind {α β : Type} (a : α) (f : α → Except String β) :
    (Except.ok a >>= f) = f a := rfl

/-- A context replaces the error text, and nothing else. -/
theorem mapError_eq_ok {α : Type} {x : Except String α} {f : String → String} {a : α} :
    x.mapError f = .ok a ↔ x = .ok a := by
  cases x with
  | error e =>
    refine iff_of_false (fun h => ?_) (fun h => ?_)
    all_goals cases h
  | ok b => rfl

theorem okOr_eq_ok_iff {α : Type} {x : Option α} {message : String} {a : α} :
    okOr x message = .ok a ↔ x = some a := by
  cases x with
  | none => exact ⟨nofun, nofun⟩
  | some b => simp [okOr]

theorem mapM_eq_ok_iff {α β : Type} {f : α → Except String β} {as : List α} {bs : List β} :
    as.mapM f = .ok bs ↔ List.Forall₂ (fun a b => f a = .ok b) as bs := by
  induction as generalizing bs with
  | nil =>
    rw [List.mapM_nil, List.forall₂_nil_left_iff]
    exact ⟨fun h => by cases h; rfl, fun h => by rw [h]; rfl⟩
  | cons a as ih =>
    rw [List.mapM_cons]
    simp only [except_bind_eq_ok_iff, ih, List.forall₂_cons_left_iff]
    constructor
    · rintro ⟨b, hb, bs', hbs', hret⟩
      cases hret
      exact ⟨b, bs', hb, hbs', rfl⟩
    · rintro ⟨b, bs', hb, hbs', rfl⟩
      exact ⟨b, hb, bs', hbs', rfl⟩

/-! ## Socket addresses -/

/-- `std::net::Ipv4Addr`. -/
abbrev Ipv4Addr : Type := BitVec 32

/-- `std::net::Ipv6Addr`. -/
abbrev Ipv6Addr : Type := BitVec 128

/-- `Ipv4Addr::to_ipv6_mapped`: `::ffff:a.b.c.d`. -/
def toIpv6Mapped (ip : Ipv4Addr) : Ipv6Addr := (0xffff : BitVec 96) ++ ip

/-- `Ipv6Addr::to_ipv4_mapped`: `some` exactly on `::ffff:a.b.c.d`. -/
def toIpv4Mapped (ip : Ipv6Addr) : Option Ipv4Addr :=
  if ip.extractLsb' 32 96 = 0xffff then some (ip.extractLsb' 0 32) else none

/-- `std::net::SocketAddr`. -/
inductive SocketAddr where
  | v4 (ip : Ipv4Addr) (port : UInt16)
  | v6 (ip : Ipv6Addr) (port : UInt16) (flowinfo scopeId : UInt32)
deriving DecidableEq

/-- The address a client is matched against in an ACL. -/
def peerIpV6 : SocketAddr → Ipv6Addr
  | .v4 ip _ => toIpv6Mapped ip
  | .v6 ip _ _ _ => ip

/-- An IPv4-mapped IPv6 address becomes the IPv4 address, without flow and scope. -/
def normalizeSocketAddr : SocketAddr → SocketAddr
  | .v6 ip port flowinfo scopeId =>
    match toIpv4Mapped ip with
    | some ip4 => .v4 ip4 port
    | none => .v6 ip port flowinfo scopeId
  | .v4 ip port => .v4 ip port

/-- Two addresses name the same client. -/
def socketAddrsEqual (left right : SocketAddr) : Bool :=
  normalizeSocketAddr left == normalizeSocketAddr right

@[simp] theorem socketAddrsEqual_iff {left right : SocketAddr} :
    socketAddrsEqual left right = true ↔
      normalizeSocketAddr left = normalizeSocketAddr right := by
  simp [socketAddrsEqual]

/-- An IPv4 address comes back from its mapped form. -/
theorem toIpv4Mapped_toIpv6Mapped (ip : Ipv4Addr) :
    toIpv4Mapped (toIpv6Mapped ip) = some ip := by
  have hhi : (toIpv6Mapped ip).extractLsb' 32 96 = 0xffff :=
    BitVec.extractLsb'_append_eq_left
  have hlo : (toIpv6Mapped ip).extractLsb' 0 32 = ip :=
    BitVec.extractLsb'_append_eq_right
  simp [toIpv4Mapped, hhi, hlo]

/-- A mapped address has the normal form of the IPv4 address, whatever its flow and
scope. -/
theorem normalizeSocketAddr_v6_mapped (ip : Ipv4Addr) (port : UInt16) (f s : UInt32) :
    normalizeSocketAddr (.v6 (toIpv6Mapped ip) port f s) = .v4 ip port := by
  simp only [normalizeSocketAddr, toIpv4Mapped_toIpv6Mapped]

@[simp] theorem normalizeSocketAddr_idem (addr : SocketAddr) :
    normalizeSocketAddr (normalizeSocketAddr addr) = normalizeSocketAddr addr := by
  cases addr with
  | v4 ip port => rfl
  | v6 ip port flowinfo scopeId =>
    cases h : toIpv4Mapped ip with
    | some ip4 => simp only [normalizeSocketAddr, h]
    | none => simp only [normalizeSocketAddr, h]

/-- The address a datagram for `addr` is sent to from a socket bound to `localAddr`: an
IPv6 socket reaches an IPv4 client through the mapped address. -/
def sendAddrForSocket (localAddr addr : SocketAddr) : Except String SocketAddr :=
  match localAddr, addr with
  | .v6 .., .v4 ip port => .ok (.v6 (toIpv6Mapped ip) port 0 0)
  | .v4 .., .v6 ip port flowinfo scopeId =>
    if (toIpv4Mapped ip).isNone then
      .error "cannot send to IPv6 address from IPv4 UDP listener"
    else .ok (.v6 ip port flowinfo scopeId)
  | _, addr => .ok addr

/-- Whatever the family of the listening socket, a reply goes to the client it is for. -/
theorem normalize_sendAddrForSocket {localAddr addr dest : SocketAddr}
    (h : sendAddrForSocket localAddr addr = .ok dest) :
    normalizeSocketAddr dest = normalizeSocketAddr addr := by
  cases localAddr <;> cases addr <;> simp only [sendAddrForSocket] at h
  case v4.v4 => cases h; rfl
  case v4.v6 =>
    split at h
    · cases h
    · cases h; rfl
  case v6.v4 =>
    cases h
    exact normalizeSocketAddr_v6_mapped ..
  case v6.v6 => cases h; rfl

end SniRouter
