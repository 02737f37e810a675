import TcpSansIo.Wire.Segment
import TcpSansIo.Core.BigEndian

/-!
# Datagrams (`wire.rs`)

Checksums, the option block, `emit_with` and `parse_opts`.  An emission writes every byte of its
datagram exactly once, so a datagram is built here by concatenation, in the order of the bytes; a
parse reads at the source's offsets.
-/

namespace TcpSansIo

open BigEndian

def IPV4_HDR_LEN : ℕ := 20
def TCP_HDR_LEN : ℕ := 20
def IPPROTO_TCP : U8 := 6

def Ip.bytes (ip : Ip) : List U8 := [ip.1, ip.2.1, ip.2.2.1, ip.2.2.2]

/-! ## Checksums -/

/-- Fold a ones' complement sum to 16 bits with end-around carries; a sum of 64 bits needs at most
five rounds. -/
def foldLoop : (fuel acc : ℕ) → ℕ
  | 0, acc => acc
  | fuel + 1, acc => if 0xFFFF < acc then foldLoop fuel (acc % 2 ^ 16 + acc / 2 ^ 16) else acc

def fold (acc : ℕ) : U16 := BitVec.ofNat 16 (foldLoop 8 acc)

/-- A 32-bit word in the byte order of the target. -/
def neWord (le : Bool) (a b c d : U8) : ℕ :=
  if le then (word4 d c b a).toNat else (word4 a b c d).toNat

/-- Sum of `data` as 32-bit words in the byte order of the target; the last word is what is left,
padded with zeros. -/
def wordSum (le : Bool) : List U8 → ℕ
  | a :: b :: c :: d :: rest => neWord le a b c d + wordSum le rest
  | [a, b, c] => neWord le a b c 0
  | [a, b] => neWord le a b 0 0
  | [a] => neWord le a 0 0 0
  | [] => 0

/-- Exchange the two bytes of a word. -/
def swapBytes (v : U16) : U16 := word2 (BitVec.ofNat 8 v.toNat) (BitVec.ofNat 8 (v.toNat / 256))

/-- Ones' complement sum of `data` as big-endian 16-bit words, folded to 16 bits. -/
def onesSum (le : Bool) (data : List U8) : U16 :=
  let sum := fold (wordSum le data)
  if le then swapBytes sum else sum

/-- Internet checksum: the complemented ones' complement sum of `data` plus `seed`. -/
def checksum (le : Bool) (data : List U8) (seed : U32) : U16 :=
  ~~~ fold ((onesSum le data).toNat + seed.toNat)

/-- Sum of the IPv4 pseudo-header's 16-bit words for a TCP segment of `tcpLen` bytes. -/
def pseudoSum (srcIp dstIp : Ip) (tcpLen : U32) : U32 :=
  (word2 srcIp.1 srcIp.2.1).setWidth 32 + (word2 srcIp.2.2.1 srcIp.2.2.2).setWidth 32 +
    (word2 dstIp.1 dstIp.2.1).setWidth 32 + (word2 dstIp.2.2.1 dstIp.2.2.2).setWidth 32 +
    IPPROTO_TCP.setWidth 32 + (tcpLen &&& 0xFFFF)

def tcpChecksum (le : Bool) (srcIp dstIp : Ip) (tcp : List U8) : U16 :=
  checksum le tcp (pseudoSum srcIp dstIp (BitVec.ofNat 32 tcp.length))

/-- What CHECKSUM_PARTIAL leaves in the TCP checksum field. -/
def tcpPartialChecksum (le : Bool) (srcIp dstIp : Ip) (tcpLen : U32) : U16 :=
  ~~~ checksum le [] (pseudoSum srcIp dstIp tcpLen)

/-! ## The option block -/

namespace TcpOptions

/-- The options in wire order (MSS, WS, SACK_PERMITTED, TS, SACK), without padding. -/
def rawBytes (o : TcpOptions) : List U8 :=
  (match o.mss with
    | some mss => [2, 4] ++ bytes2 mss
    | none => []) ++
  (match o.wscale with
    | some ws => [3, 3, FixedWidth.minB ws 14]
    | none => []) ++
  (if o.sackPermitted then [4, 2] else []) ++
  (match o.ts with
    | some (tsval, tsecr) => [8, 10] ++ bytes4 tsval ++ bytes4 tsecr
    | none => []) ++
  (if o.sack.isEmpty then [] else
    [5, BitVec.ofNat 8 (2 + 8 * o.sack.len)] ++
      o.sack.asSlice.flatMap fun b => bytes4 b.1 ++ bytes4 b.2)

/-- Encode the options into a slice of `cap` bytes, padded with NOPs to a multiple of 4. -/
def write (o : TcpOptions) (cap : ℕ) : Except TcpError (List U8) :=
  if ¬ o.sack.isEmpty ∧ 255 < 2 + 8 * o.sack.len then
    .error .overflow
  else
    let raw := o.rawBytes
    let out := raw ++ List.replicate ((raw.length + 3) / 4 * 4 - raw.length) 1
    if cap < out.length then .error .bufferTooSmall else .ok out

/-- Read `n` SACK blocks. -/
def parseBlocks : ℕ → List U8 → SackBlocks → Except TcpError SackBlocks
  | 0, _, sb => .ok sb
  | n + 1, a :: b :: c :: d :: e :: f :: g :: h :: rest, sb =>
    parseBlocks n rest (sb.push (word4 a b c d) (word4 e f g h))
  | _ + 1, _, _ => .error .malformedPacket

/-- Read one option of kind `kind` (neither EOL nor NOP) and length byte `len`, whose contents
start at `body`. -/
def parseOne (kind len : U8) (body : List U8) (o : TcpOptions) : Except TcpError TcpOptions :=
  if kind = 2 then
    match body with
    | a :: b :: _ => if len ≠ 4 then .error .malformedPacket else .ok { o with mss := some (word2 a b) }
    | _ => .error .malformedPacket
  else if kind = 3 then
    match body with
    | shift :: _ =>
      if len ≠ 3 then .error .malformedPacket
      else .ok { o with wscale := some (FixedWidth.minB shift 14) }
    | _ => .error .malformedPacket
  else if kind = 4 then
    if len ≠ 2 then .error .malformedPacket else .ok { o with sackPermitted := true }
  else if kind = 5 then
    if len.toNat < 10 ∨ (len.toNat - 2) % 8 ≠ 0 ∨ 4 < (len.toNat - 2) / 8 ∨
        body.length + 2 < len.toNat then
      .error .malformedPacket
    else
      match parseBlocks ((len.toNat - 2) / 8) body SackBlocks.EMPTY with
      | .ok sb => .ok { o with sack := sb }
      | .error e => .error e
  else if kind = 8 then
    match body with
    | a :: b :: c :: d :: e :: f :: g :: h :: _ =>
      if len ≠ 10 then .error .malformedPacket
      else .ok { o with ts := some (word4 a b c d, word4 e f g h) }
    | _ => .error .malformedPacket
  else if len.toNat < 2 ∨ body.length + 2 < len.toNat then
    .error .malformedPacket
  else
    .ok o

/-- The parser's loop over the bytes left; every round takes at least one. -/
def parseLoop : (fuel : ℕ) → List U8 → TcpOptions → Except TcpError TcpOptions
  | 0, _, o => .ok o
  | _ + 1, [], o => .ok o
  | fuel + 1, kind :: rest, o =>
    if kind = 0 then
      .ok o
    else if kind = 1 then
      parseLoop fuel rest o
    else
      match rest with
      | [] => .error .malformedPacket
      | len :: body =>
        match parseOne kind len body o with
        | .error e => .error e
        | .ok o' => parseLoop fuel (body.drop (len.toNat - 2)) o'

def parse (bytes : List U8) : Except TcpError TcpOptions := parseLoop (bytes.length + 1) bytes NONE

end TcpOptions

/-! ## Emission -/

/-- The IPv4 header, with `csum` in its checksum field. -/
def ipHeader (total : U16) (ipId csum : U16) (ecn : U8) (srcIp dstIp : Ip) : List U8 :=
  [0x45, ecn &&& Ecn.MASK] ++ bytes2 total ++ bytes2 ipId ++ bytes2 0x4000 ++ [64, IPPROTO_TCP] ++
    bytes2 csum ++ srcIp.bytes ++ dstIp.bytes

/-- The header fields an emission writes. -/
structure Header where
  srcIp : Ip
  dstIp : Ip
  srcPort : U16
  dstPort : U16
  seq : U32
  ack : U32
  flags : Flags
  window : U16
  options : TcpOptions
  ipId : U16
  ecn : U8

/-- The TCP header of `hdrLen` bytes, with `csum` in its checksum field and the encoded options
`opts` at its end. -/
def tcpHeader (h : Header) (hdrLen : ℕ) (csum : U16) (opts : List U8) : List U8 :=
  bytes2 h.srcPort ++ bytes2 h.dstPort ++ bytes4 h.seq ++ bytes4 h.ack ++
    [BitVec.ofNat 8 (hdrLen / 4 * 16), h.flags.toByte] ++ bytes2 h.window ++ bytes2 csum ++ [0, 0] ++
    opts

/-- Build an IPv4+TCP datagram in a buffer of `cap` bytes.  `fill n` writes the payload of `n` bytes
(`none` if it could not); without `fullCsum` the TCP checksum field carries only the pseudo-header
sum. -/
def emitWith (le : Bool) (cap : ℕ) (h : Header) (payloadLen : ℕ) (fill : ℕ → Option (List U8))
    (fullCsum : Bool) : Except TcpError (List U8) :=
  let optLen := h.options.encodedLen
  if optLen % 4 ≠ 0 ∨ 40 < optLen then
    .error .overflow
  else
    let hdrLen := TCP_HDR_LEN + optLen
    let total := IPV4_HDR_LEN + hdrLen + payloadLen
    if cap < total then
      .error .bufferTooSmall
    else if 2 ^ 16 ≤ total then
      .error .overflow
    else
      let ip0 := ipHeader (BitVec.ofNat 16 total) h.ipId 0 h.ecn h.srcIp h.dstIp
      let ip := ipHeader (BitVec.ofNat 16 total) h.ipId (checksum le ip0 0) h.ecn h.srcIp h.dstIp
      match if 0 < optLen then h.options.write optLen else .ok [] with
      | .error e => .error e
      | .ok opts =>
        if opts.length ≠ optLen then
          .error .overflow
        else
          match fill payloadLen with
          | none => .error .overflow
          | some payload =>
            let tcp0 := tcpHeader h hdrLen 0 opts ++ payload
            let csum :=
              if fullCsum then tcpChecksum le h.srcIp h.dstIp tcp0
              else tcpPartialChecksum le h.srcIp h.dstIp (BitVec.ofNat 32 tcp0.length)
            .ok (ip ++ (tcpHeader h hdrLen csum opts ++ payload))

/-- Build an IPv4+TCP datagram that carries `payload` in a buffer of `cap` bytes. -/
def emit (le : Bool) (cap : ℕ) (h : Header) (payload : List U8) : Except TcpError (List U8) :=
  emitWith le cap h payload.length (fun _ => some payload) true

/-! ## Parsing -/

def readU8 (buf : List U8) (off : ℕ) : Except TcpError U8 :=
  match buf[off]? with
  | some b => .ok b
  | none => .error .malformedPacket

def read2 (buf : List U8) (off : ℕ) : Except TcpError U16 :=
  match buf[off]?, buf[off + 1]? with
  | some a, some b => .ok (word2 a b)
  | _, _ => .error .malformedPacket

def readU32 (buf : List U8) (off : ℕ) : Except TcpError U32 :=
  match buf[off]?, buf[off + 1]?, buf[off + 2]?, buf[off + 3]? with
  | some a, some b, some c, some d => .ok (word4 a b c d)
  | _, _, _, _ => .error .malformedPacket

def read4 (buf : List U8) (off : ℕ) : Except TcpError Ip :=
  match buf[off]?, buf[off + 1]?, buf[off + 2]?, buf[off + 3]? with
  | some a, some b, some c, some d => .ok (a, b, c, d)
  | _, _, _, _ => .error .malformedPacket

/-- Parse a single IPv4 + TCP datagram.  Validates lengths and checksums (the TCP checksum only
with `verifyL4`), and rejects fragments. -/
def parseOpts (le : Bool) (packet : List U8) (verifyL4 : Bool) : Except TcpError Segment := do
  if packet.length < IPV4_HDR_LEN then
    throw .malformedPacket
  let versionIhl ← readU8 packet 0
  if versionIhl.toNat / 16 ≠ 4 then
    throw .malformedPacket
  let ihl := versionIhl.toNat % 16 * 4
  if hihl : ihl < IPV4_HDR_LEN then
    throw .malformedPacket
  else
    let total ← read2 packet 2
    if packet.length < total.toNat ∨ total.toNat < ihl + TCP_HDR_LEN then
      throw .malformedPacket
    let flagsFrag ← read2 packet 6
    if flagsFrag &&& 0x2000 ≠ 0 ∨ flagsFrag &&& 0x1FFF ≠ 0 then
      throw .malformedPacket
    let proto ← readU8 packet 9
    if proto ≠ IPPROTO_TCP then
      throw .notForUs
    let tos ← readU8 packet 1
    let srcIp ← read4 packet 12
    let dstIp ← read4 packet 16
    if checksum le (packet.take ihl) 0 ≠ 0 then
      throw .malformedPacket
    let tcp := (packet.take total.toNat).drop ihl
    let srcPort ← read2 tcp 0
    let dstPort ← read2 tcp 2
    let seq ← readU32 tcp 4
    let ack ← readU32 tcp 8
    let dataOffByte ← readU8 tcp 12
    let dataOff := dataOffByte.toNat / 16 * 4
    if hoff : dataOff < TCP_HDR_LEN ∨ tcp.length < dataOff then
      throw .malformedPacket
    else
      let flags ← readU8 tcp 13
      let window ← read2 tcp 14
      if verifyL4 ∧ tcpChecksum le srcIp dstIp tcp ≠ 0 then
        throw .malformedPacket
      let options ← TcpOptions.parse ((tcp.take dataOff).drop TCP_HDR_LEN)
      return {
        srcIp := srcIp
        dstIp := dstIp
        srcPort := srcPort
        dstPort := dstPort
        seq := seq
        ack := ack
        flags := Flags.ofByte flags
        window := window
        options := options
        payload := tcp.drop dataOff
        ecn := tos &&& Ecn.MASK
        payload_le := by
          have h₁ := total.isLt
          simp only [tcp, List.length_drop, List.length_take, MAX_PAYLOAD, IPV4_HDR_LEN,
            TCP_HDR_LEN] at *
          omega }

/-- Parse with both checksums verified. -/
def parse (le : Bool) (packet : List U8) : Except TcpError Segment := parseOpts le packet true

end TcpSansIo
