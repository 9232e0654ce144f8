import SniRouter.Lib.Machine
import SniRouter.H3.Reassembly

/-!
# The packet path on a machine

The functions of the QUIC parsing path once more, as the machine runs them: every addition,
subtraction and shift has the width of its type, every index and slice is checked, `expect`
may fail, and every loop has fuel. The names are those of the mathematical versions in
`SniRouter`, in the namespace `Checked`.
-/

namespace SniRouter.Checked

open Exec

variable (m : Target)

/-! ## Headers -/

/-- `value << 8 | b` over the bytes of a varint behind its first. -/
def shiftIn (value : ℕ) (b : UInt8) : Exec ℕ := do
  let high ← m.shl 64 value 8
  return high ||| b.toNat

def readVarintAt (buf : Bytes) (offset : ℕ) : Exec (ℕ × ℕ) := do
  let first ← orBail buf[offset]? "missing QUIC varint"
  let len ← m.shl m.width.bits 1 (first >>> 6).toNat
  if ← m.exceeds buf.length offset len then bail "truncated QUIC varint"
  else
    let start ← m.add offset 1
    let stop ← m.add offset len
    let more ← range buf start stop
    let value ← more.foldlM (shiftIn m) (first &&& 0x3f).toNat
    return (value, len)

def readVarint (buf : Bytes) (offset : ℕ) : Exec (ℕ × ℕ) := do
  let (value, len) ← readVarintAt m buf offset
  let offset ← m.add offset len
  return (value, offset)

def parseLongPacketCids (packet : Bytes) : Exec (Option LongPacketCids) :=
  match packet.head? with
  | none => return none
  | some first =>
    if first &&& 0x80 = 0 then return none
    else if packet.length < 7 then bail "truncated QUIC long header"
    else do
      let first ← index packet 0
      let b1 ← index packet 1
      let b2 ← index packet 2
      let b3 ← index packet 3
      let b4 ← index packet 4
      let version := beNat [b1, b2, b3, b4]
      let packetType := ((first &&& 0x30) >>> 4).toNat
      let dcidLen ← index packet 5
      let i ← m.add 5 1
      let stop ← m.add i dcidLen.toNat
      if ← m.exceeds packet.length stop 1 then bail "truncated QUIC destination connection ID"
      else
        let dcid ← range packet i stop
        let i ← m.add i dcidLen.toNat
        let scidLen ← index packet i
        let i ← m.add i 1
        if ← m.exceeds packet.length i scidLen.toNat then
          bail "truncated QUIC source connection ID"
        else
          let stop ← m.add i scidLen.toNat
          let scid ← range packet i stop
          return some ⟨version, packetType, dcid, scid⟩

/-- A length and the bytes it announces: the cursor behind them. `tooLarge` and `truncated` are
the messages when the length does not fit in a `usize` and when the buffer ends too early. -/
def skipVector (tooLarge truncated : String) (buf : Bytes) (i : ℕ) : Exec ℕ := do
  let (len, i) ← readVarint m buf i
  let len ← orBail (m.tryFromU64 len) tooLarge
  if ← m.exceeds buf.length i len then bail truncated
  else m.add i len

/-- The token of an Initial header. -/
def skipToken (packet : Bytes) (i : ℕ) : Exec ℕ :=
  skipVector m "QUIC token length too large" "truncated QUIC Initial token" packet i

/-- `parse_initial_header` behind the token: where the packet number starts and the packet
ends. -/
def headerBehindToken (cids : LongPacketCids) (packet : Bytes) (i : ℕ) : Exec InitialHeader := do
  let (packetLen, i) ← readVarint m packet i
  let packetLen ← orBail (m.tryFromU64 packetLen) "QUIC Initial packet length too large"
  let packetEnd ← orBail (m.checkedAdd i packetLen) "QUIC Initial packet length overflow"
  if packetEnd > packet.length then bail "truncated QUIC Initial packet payload"
  else return ⟨cids, i, packetEnd⟩

def parseInitialHeader (packet : Bytes) : Exec InitialHeader := do
  match ← parseLongPacketCids m packet with
  | none => bail "not a QUIC long-header packet"
  | some cids =>
    if cids.version ≠ quicVersion1 then bail "unsupported QUIC version"
    else if cids.packetType ≠ quicPacketTypeInitial then bail "not a QUIC Initial packet"
    else
      let i ← m.add (5 + 1) cids.dcid.length
      let i ← m.add i 1
      let i ← m.add i cids.scid.length
      let i ← skipToken m packet i
      headerBehindToken m cids packet i

/-! ## Decryption -/

section Decrypt

variable (cr : Crypto)

def hkdfExpandLabel (secret label : Bytes) (len : ℕ) : Exec Bytes := do
  let fullLabelLen ← m.add tls13Label.length label.length
  if fullLabelLen > 255 then bail "HKDF label too long"
  else if len > 65535 then bail "HKDF output length too large"
  else
    let capacity ← m.add (2 + 1) fullLabelLen
    let _ ← m.add capacity 1
    let info := toBeBytes 2 len ++ [UInt8.ofNat fullLabelLen] ++ tls13Label ++ label ++ [0]
    orBail (cr.hkdfExpand secret info len) "HKDF expand failed"

def initialKeyBytes (dcid : Bytes) : Exec InitialKeyBytes := do
  let initialSecret := cr.hkdfExtract quicV1InitialSalt dcid
  let clientInitialSecret ← hkdfExpandLabel m cr initialSecret clientInLabel 32
  let key ← hkdfExpandLabel m cr clientInitialSecret quicKeyLabel 16
  let iv ← hkdfExpandLabel m cr clientInitialSecret quicIvLabel 12
  let hp ← hkdfExpandLabel m cr clientInitialSecret quicHpLabel 16
  let key ← array 16 key
  let iv ← array 12 iv
  let hp ← array 16 hp
  return ⟨key, iv, hp⟩

def packetNonce (iv : Bytes) (packetNumber : ℕ) : Exec Bytes := do
  let low ← range iv 4 iv.length
  return iv.take 4 ++ List.zipWith (· ^^^ ·) low (toBeBytes 8 packetNumber)

/-- The loop that unmasks the bytes of the packet number, from the `i`-th on, and collects the
number. -/
def unmaskNumber (mask : Bytes) : ℕ → ℕ → Bytes → Exec (Bytes × ℕ)
  | _, packetNumber, [] => return ([], packetNumber)
  | i, packetNumber, byte :: bytes => do
    let j ← m.add i 1
    let bits ← index mask j
    let packetNumber ← shiftIn m packetNumber (byte ^^^ bits)
    let (rest, packetNumber) ← unmaskNumber mask (i + 1) packetNumber bytes
    return ((byte ^^^ bits) :: rest, packetNumber)

def decryptInitialPacketWithDcid (packet : Bytes) (keyDcid : Option Bytes) :
    Exec DecryptedInitial := do
  let header ← parseInitialHeader m packet
  let keys ← initialKeyBytes m cr (keyDcid.getD header.cids.dcid)
  let sampleOffset ← m.add header.packetNumberOffset 4
  if ← m.exceeds header.packetEnd sampleOffset 16 then
    bail "QUIC Initial packet too short for header protection sample"
  else
    let sampleEnd ← m.add sampleOffset 16
    let sample ← range packet sampleOffset sampleEnd
    let mask ← orBail (cr.newMask keys.hp sample) "QUIC Initial header protection failed"
    let byte ← index packet 0
    let bits ← index mask 0
    let first := byte ^^^ (bits &&& 0x0f)
    let packetNumberLen ← m.add (first &&& 0x03).toNat 1
    let packetNumberEnd ← m.add header.packetNumberOffset packetNumberLen
    if packetNumberEnd > header.packetEnd then bail "truncated QUIC Initial packet number"
    else
      let associatedData ← range packet 0 packetNumberEnd
      -- `associated_data[0] = first`
      let _ ← index associatedData 0
      let associatedData := associatedData.set 0 first
      let number ← range associatedData header.packetNumberOffset associatedData.length
      let (number, packetNumber) ← unmaskNumber m mask 0 0 number
      let associatedData := associatedData.take header.packetNumberOffset ++ number
      let payload ← range packet packetNumberEnd header.packetEnd
      let nonce ← packetNonce keys.iv packetNumber
      let payload ← orBail (cr.openInPlace keys.key nonce associatedData payload)
        "QUIC Initial decrypt failed"
      return ⟨header.cids.dcid, header.cids.scid, payload⟩

end Decrypt

/-! ## Frames -/

/-- The loop over the gap and length pairs of an ACK frame. -/
def skipAckRanges (payload : Bytes) : ℕ → ℕ → ℕ → Exec ℕ
  | 0, _, _ => .error .outOfFuel
  | fuel + 1, count, i =>
    if count = 0 then return i
    else do
      let (_, i) ← readVarint m payload i
      let (_, i) ← readVarint m payload i
      skipAckRanges payload fuel (count - 1) i

def skipAckFrame (fuel : ℕ) (payload : Bytes) (i : ℕ) (hasEcn : Bool) : Exec ℕ := do
  let (_, i) ← readVarint m payload i
  let (_, i) ← readVarint m payload i
  let (ackRangeCount, i) ← readVarint m payload i
  let (_, i) ← readVarint m payload i
  let i ← skipAckRanges m payload fuel ackRangeCount i
  if hasEcn then
    let (_, i) ← readVarint m payload i
    let (_, i) ← readVarint m payload i
    let (_, i) ← readVarint m payload i
    return i
  else return i

/-- The reason phrase both close frames end with. -/
def skipReason (payload : Bytes) (i : ℕ) : Exec ℕ :=
  skipVector m "CONNECTION_CLOSE reason too large" "truncated CONNECTION_CLOSE reason" payload i

def skipTransportCloseFrame (payload : Bytes) (i : ℕ) : Exec ℕ := do
  let (_, i) ← readVarint m payload i
  let (_, i) ← readVarint m payload i
  skipReason m payload i

def skipApplicationCloseFrame (payload : Bytes) (i : ℕ) : Exec ℕ := do
  let (_, i) ← readVarint m payload i
  skipReason m payload i

/-- A CRYPTO frame behind its type. -/
def readCryptoFrame (payload : Bytes) (i : ℕ) : Exec (ℕ × Option (ℕ × Bytes)) := do
  let (offset, i) ← readVarint m payload i
  let (len, i) ← readVarint m payload i
  let len ← orBail (m.tryFromU64 len) "CRYPTO frame length too large"
  if ← m.exceeds payload.length i len then bail "truncated CRYPTO frame"
  else
    let stop ← m.add i len
    let data ← range payload i stop
    let i ← m.add i len
    return (i, some (offset, data))

/-- The body of the loop of `read_crypto_frames`. -/
def readFrame (fuel : ℕ) (payload : Bytes) (i : ℕ) : Exec (ℕ × Option (ℕ × Bytes)) := do
  let (frameType, i) ← readVarint m payload i
  match frameType with
  | 0x00 | 0x01 => return (i, none)
  | 0x02 => return (← skipAckFrame m fuel payload i false, none)
  | 0x03 => return (← skipAckFrame m fuel payload i true, none)
  | 0x06 => readCryptoFrame m payload i
  | 0x1c => return (← skipTransportCloseFrame m payload i, none)
  | 0x1d => return (← skipApplicationCloseFrame m payload i, none)
  | _ => bail "unexpected frame type in Initial packet"

/-- The loop of `read_crypto_frames`; `fuel` is that of the loops inside a frame. -/
def readCryptoFramesFrom (fuel : ℕ) (payload : Bytes) : ℕ → ℕ → Exec (List (ℕ × Bytes))
  | 0, _ => .error .outOfFuel
  | n + 1, i =>
    if i < payload.length then do
      let (j, frame) ← readFrame m fuel payload i
      let frames ← readCryptoFramesFrom fuel payload n j
      return frame.toList ++ frames
    else return []

def readCryptoFrames (fuel : ℕ) (payload : Bytes) : Exec (List (ℕ × Bytes)) :=
  readCryptoFramesFrom m fuel payload fuel 0

/-! ## Reassembly -/

/-- `u64::try_from(bytes.len()).expect(..)`. -/
def lengthU64 (bytes : Bytes) : Exec ℕ :=
  expect (if bytes.length < 2 ^ 64 then some bytes.length else none)

def append (bytes : Bytes) (offset : ℕ) (data : Bytes) : Exec Bytes := do
  let next ← lengthU64 bytes
  let behind ← m.subU64 next offset
  let skip := (m.tryFromU64 behind).getD (m.width.modulus - 1)
  -- `data.get(skip..)`
  return if skip ≤ data.length then bytes ++ data.drop skip else bytes

/-- The loop of `insert` over the fragments that have been reached. -/
def drain : ℕ → Bytes → Table ℕ Bytes → Exec CryptoReassembly
  | 0, _, _ => .error .outOfFuel
  | fuel + 1, bytes, fragments =>
    match CryptoReassembly.firstFragment fragments with
    | none => return ⟨bytes, fragments⟩
    | some (offset, _) => do
      let next ← lengthU64 bytes
      if offset ≤ next then
        -- `pop_first`
        let (offset, fragment) ← expect (CryptoReassembly.firstFragment fragments)
        let bytes ← append m bytes offset fragment
        drain fuel bytes (fragments.erase offset)
      else return ⟨bytes, fragments⟩

def insert (fuel : ℕ) (c : CryptoReassembly) (offset : ℕ) (data : Bytes) :
    Exec CryptoReassembly :=
  if data.isEmpty then return c
  else do
    let next ← lengthU64 c.bytes
    if offset > next then
      if c.fragments.lookup offset = none ∧ c.fragments.size ≥ maxCryptoFragments then
        bail "too many pending CRYPTO fragments"
      else
        match c.fragments.lookup offset with
        | some old =>
          if old.length < data.length then
            return { c with fragments := c.fragments.insert offset data }
          else return c
        | none => return { c with fragments := c.fragments.insert offset data }
    else
      let bytes ← append m c.bytes offset data
      drain m fuel bytes c.fragments

/-- The length of a handshake message, in the three bytes behind its type. -/
def handshakeLen (bytes : Bytes) : Exec ℕ := do
  let b1 ← index bytes 1
  let b2 ← index bytes 2
  let b3 ← index bytes 3
  let high ← m.shl m.width.bits b1.toNat 16
  let middle ← m.shl m.width.bits b2.toNat 8
  return high ||| middle ||| b3.toNat

def clienthello (c : CryptoReassembly) : Exec (Option Bytes) :=
  if c.bytes.length < 4 then return none
  else do
    let handshakeType ← index c.bytes 0
    if handshakeType.toNat ≠ 1 then
      bail "first TLS handshake message in QUIC Initial is not a ClientHello"
    else
      let bodyLen ← handshakeLen m c.bytes
      let needed ← m.add 4 bodyLen
      if c.bytes.length < needed then return none
      else
        let message ← range c.bytes 0 needed
        return some message

/-! ## The server name -/

/-- `u16::from_be_bytes([buf[i], buf[i + 1]])`. -/
def u16At (buf : Bytes) (i : ℕ) : Exec ℕ := do
  let high ← index buf i
  let j ← m.add i 1
  let low ← index buf j
  return high.toNat * 256 + low.toNat

def hostNameLoop (ext : Bytes) (stop : ℕ) : ℕ → ℕ → Exec (Option Bytes)
  | 0, _ => .error .outOfFuel
  | fuel + 1, k => do
    let next ← m.add k 3
    if next ≤ stop then
      let nameType ← index ext k
      let j ← m.add k 1
      let hostLen ← u16At m ext j
      let k ← m.add k 3
      let next ← m.add k hostLen
      if next > stop then bail "server_name: truncated host entry"
      else if nameType.toNat = 0 then
        let host ← range ext k next
        return some (fromUtf8Lossy host)
      else hostNameLoop ext stop fuel next
    else return none

def serverNameExtension (fuel : ℕ) (ext : Bytes) : Exec (Option Bytes) :=
  if ext.length < 2 then bail "server_name: missing list length"
  else do
    let listLen ← u16At m ext 0
    if ← m.exceeds ext.length 2 listLen then bail "server_name: truncated list"
    else
      let stop ← m.add 2 listLen
      hostNameLoop m ext stop fuel 2

/-- The loop over the extensions; `fuel` is that of the loop inside one. -/
def extensionLoop (fuel : ℕ) (body : Bytes) (stop : ℕ) : ℕ → ℕ → Exec (Option Bytes)
  | 0, _ => .error .outOfFuel
  | n + 1, j => do
    let next ← m.add j 4
    if next ≤ stop then
      let etype ← u16At m body j
      let i ← m.add j 2
      let elen ← u16At m body i
      let j ← m.add j 4
      let next ← m.add j elen
      if next > stop then bail "truncated extension body"
      else if etype = 0 then
        let ext ← range body j next
        serverNameExtension m fuel ext
      else extensionLoop fuel body stop n next
    else return none

def extensionsBlock (fuel : ℕ) (body : Bytes) (i : ℕ) : Exec (Option Bytes) :=
  if i = body.length then return none
  else do
    if ← m.exceeds body.length i 2 then bail "missing extensions length"
    else
      let extTotal ← u16At m body i
      let i ← m.add i 2
      if ← m.exceeds body.length i extTotal then bail "truncated extensions block"
      else
        let stop ← m.add i extTotal
        extensionLoop m fuel body stop fuel i

def extractBodySni (fuel : ℕ) (body : Bytes) : Exec (Option Bytes) :=
  if body.length < 35 then bail "ClientHello body too short"
  else do
    let i ← m.add 0 (2 + 32)
    let sidLen ← index body i
    let i ← m.add i 1
    if ← m.exceeds body.length i sidLen.toNat then bail "truncated session_id"
    else
      let i ← m.add i sidLen.toNat
      if ← m.exceeds body.length i 2 then bail "missing cipher_suites length"
      else
        let csLen ← u16At m body i
        let i ← m.add i 2
        if (← m.exceeds body.length i csLen) ∨ csLen % 2 ≠ 0 then
          bail "invalid cipher_suites vector"
        else
          let i ← m.add i csLen
          if ← m.exceeds body.length i 1 then bail "missing compression_methods length"
          else
            let cmethodLen ← index body i
            let i ← m.add i 1
            if ← m.exceeds body.length i cmethodLen.toNat then
              bail "invalid compression_methods vector"
            else
              let i ← m.add i cmethodLen.toNat
              extensionsBlock m fuel body i

def extractTlsSni (fuel : ℕ) (clienthello : Bytes) : Exec (Option Bytes) :=
  if clienthello.length < 4 then bail "ClientHello too short for handshake header"
  else do
    let handshakeType ← index clienthello 0
    if handshakeType.toNat ≠ 1 then bail "not a ClientHello"
    else
      let bodyLen ← handshakeLen m clienthello
      if ← m.exceeds clienthello.length 4 bodyLen then bail "truncated ClientHello body"
      else
        let stop ← m.add 4 bodyLen
        let body ← range clienthello 4 stop
        extractBodySni m fuel body

end SniRouter.Checked
