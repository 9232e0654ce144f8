import SniRouter.Net

/-!
# The server name of a TLS ClientHello

`extractTlsSni` walks the nested length-prefixed vectors of a ClientHello handshake message
to the first `host_name` entry of the first `server_name` extension. Cursors are offsets
into the body, as in the source; every read is guarded by the length check before it.
-/

namespace SniRouter

/-! ## Lossy UTF-8

`String::from_utf8_lossy` copies well-formed UTF-8 and replaces every maximal ill-formed
prefix of a code point by U+FFFD. A string is kept as its UTF-8 bytes. -/

/-- The encoding of U+FFFD. -/
def replacementCharacter : Bytes := [0xef, 0xbf, 0xbd]

/-- The continuation bytes a code point starting with `first` needs, as the closed range of
its second byte and the number of bytes after it; `none` for a byte that starts no code
point. -/
def utf8Shape (first : UInt8) : Option ((UInt8 × UInt8) × ℕ) :=
  if 0xc2 ≤ first ∧ first ≤ 0xdf then some ((0x80, 0xbf), 0)
  else if first = 0xe0 then some ((0xa0, 0xbf), 1)
  else if first = 0xed then some ((0x80, 0x9f), 1)
  else if 0xe1 ≤ first ∧ first ≤ 0xef then some ((0x80, 0xbf), 1)
  else if first = 0xf0 then some ((0x90, 0xbf), 2)
  else if 0xf1 ≤ first ∧ first ≤ 0xf3 then some ((0x80, 0xbf), 2)
  else if first = 0xf4 then some ((0x80, 0x8f), 2)
  else none

/-- How many of the next `n` bytes are continuation bytes, counted up to the first that is
not. -/
def continuationRun : ℕ → Bytes → ℕ
  | n + 1, b :: bytes => if 0x80 ≤ b ∧ b ≤ 0xbf then continuationRun n bytes + 1 else 0
  | _, _ => 0

/-- The length of the first chunk of a non-empty byte string, and whether it is a code
point (otherwise it is a maximal ill-formed prefix). -/
def utf8Chunk (first : UInt8) (rest : Bytes) : ℕ × Bool :=
  if first < 0x80 then (1, true) else
  match utf8Shape first, rest with
  | some ((low, high), more), second :: rest =>
    if low ≤ second ∧ second ≤ high then
      let run := continuationRun more rest
      (2 + run, run = more)
    else (1, false)
  | _, _ => (1, false)

/-- `String::from_utf8_lossy`. The first argument bounds the number of chunks. -/
def fromUtf8LossyChunks : ℕ → Bytes → Bytes
  | n + 1, first :: rest =>
    let (len, valid) := utf8Chunk first rest
    (if valid then (first :: rest).take len else replacementCharacter) ++
      fromUtf8LossyChunks n ((first :: rest).drop len)
  | _, _ => []

/-- `String::from_utf8_lossy`: there are at most as many chunks as bytes. -/
def fromUtf8Lossy (bytes : Bytes) : Bytes := fromUtf8LossyChunks bytes.length bytes

example : fromUtf8Lossy [0x61, 0xe2, 0x82, 0xac] = [0x61, 0xe2, 0x82, 0xac] := by decide

example : fromUtf8Lossy [0xe2, 0x82, 0x61, 0xff] =
    replacementCharacter ++ [0x61] ++ replacementCharacter := by decide

/-! ## The walk -/

/-- The loop over the entries of a `server_name` list: the first `host_name`. `k` is the
cursor into the extension body `ext`, `stop` the end of the list in it. -/
def hostNameLoop (ext : Bytes) (stop k : ℕ) : Except String (Option Bytes) :=
  if k + 3 ≤ stop then
    let nameType := byteAt ext k
    let hostLen := u16At ext (k + 1)
    if k + 3 + hostLen > stop then .error "server_name: truncated host entry"
    else if nameType = 0 then .ok (some (fromUtf8Lossy (slice ext (k + 3) (k + 3 + hostLen))))
    else hostNameLoop ext stop (k + 3 + hostLen)
  else .ok none
termination_by stop - k

/-- The body of a `server_name` extension. -/
def serverNameExtension (ext : Bytes) : Except String (Option Bytes) :=
  if ext.length < 2 then .error "server_name: missing list length"
  else
    let listLen := u16At ext 0
    if ext.length < 2 + listLen then .error "server_name: truncated list"
    else hostNameLoop ext (2 + listLen) 2

/-- The loop over the extensions: the first `server_name` decides. `j` is the cursor into
the ClientHello body, `stop` the end of the extensions block. -/
def extensionLoop (body : Bytes) (stop j : ℕ) : Except String (Option Bytes) :=
  if j + 4 ≤ stop then
    let etype := u16At body j
    let elen := u16At body (j + 2)
    if j + 4 + elen > stop then .error "truncated extension body"
    else if etype = 0 then serverNameExtension (slice body (j + 4) (j + 4 + elen))
    else extensionLoop body stop (j + 4 + elen)
  else .ok none
termination_by stop - j

/-- From the end of the compression methods on. -/
def extensionsBlock (body : Bytes) (i : ℕ) : Except String (Option Bytes) :=
  if i = body.length then .ok none
  else if body.length < i + 2 then .error "missing extensions length"
  else
    let extTotal := u16At body i
    if body.length < i + 2 + extTotal then .error "truncated extensions block"
    else extensionLoop body (i + 2 + extTotal) (i + 2)

/-- The server name in a ClientHello body. -/
def extractBodySni (body : Bytes) : Except String (Option Bytes) :=
  if body.length < 35 then .error "ClientHello body too short"
  else
    let sidLen := byteAt body 34
    let i := 35 + sidLen
    if body.length < i then .error "truncated session_id"
    else if body.length < i + 2 then .error "missing cipher_suites length"
    else
      let csLen := u16At body i
      let i := i + 2
      if body.length < i + csLen ∨ csLen % 2 ≠ 0 then .error "invalid cipher_suites vector"
      else
        let i := i + csLen
        if body.length < i + 1 then .error "missing compression_methods length"
        else
          let cmethodLen := byteAt body i
          let i := i + 1
          if body.length < i + cmethodLen then .error "invalid compression_methods vector"
          else extensionsBlock body (i + cmethodLen)

/-- The `host_name` of a TLS ClientHello handshake message (`extract_tls_sni`). -/
def extractTlsSni (clienthello : Bytes) : Except String (Option Bytes) :=
  if clienthello.length < 4 then .error "ClientHello too short for handshake header"
  else if byteAt clienthello 0 ≠ 1 then .error "not a ClientHello"
  else
    let bodyLen := u24At clienthello 1
    if clienthello.length < 4 + bodyLen then .error "truncated ClientHello body"
    else extractBodySni (slice clienthello 4 (4 + bodyLen))

/-- The server name a ClientHello is routed by: a message whose walk fails is routed like
one without a name. -/
def routedSni (clienthello : Bytes) : Option Bytes :=
  match extractTlsSni clienthello with
  | .ok sni => sni
  | .error _ => none

end SniRouter
