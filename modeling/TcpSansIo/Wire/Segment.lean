import TcpSansIo.Basic

/-!
# Segments and their options (`wire.rs`)

The parsed form of a datagram.  The eight bits of the TCP flags byte are a record of Booleans
(`Flags.toByte` and `Flags.ofByte` translate to and from the byte); the at most four SACK blocks and
the payload carry their length bounds.
-/

namespace TcpSansIo

/-- An IPv4 address. -/
abbrev Ip := U8 × U8 × U8 × U8

/-! ## Flags -/

/-- The TCP flags byte. -/
structure Flags where
  fin : Bool := false
  syn : Bool := false
  rst : Bool := false
  psh : Bool := false
  ack : Bool := false
  urg : Bool := false
  ece : Bool := false
  cwr : Bool := false
  deriving Repr, DecidableEq

namespace Flags

/-- The byte on the wire: FIN is bit 0, CWR bit 7. -/
def toByte (f : Flags) : U8 :=
  BitVec.ofBoolListLE [f.fin, f.syn, f.rst, f.psh, f.ack, f.urg, f.ece, f.cwr]

/-- The flags of a byte. -/
def ofByte (b : U8) : Flags where
  fin := b.getLsbD 0
  syn := b.getLsbD 1
  rst := b.getLsbD 2
  psh := b.getLsbD 3
  ack := b.getLsbD 4
  urg := b.getLsbD 5
  ece := b.getLsbD 6
  cwr := b.getLsbD 7

@[simp] lemma ofByte_toByte (f : Flags) : ofByte f.toByte = f := by
  obtain ⟨fin, syn, rst, psh, ack, urg, ece, cwr⟩ := f
  simp only [ofByte, toByte, BitVec.getLsbD_ofBoolListLE]
  rfl

end Flags

/-! ## ECN codepoints -/

/-! The lower two bits of the TOS byte. -/

namespace Ecn

/-- Not ECN-capable. -/
def NOT_ECT : U8 := 0
/-- ECN-capable, the codepoint this stack sends. -/
def ECT_0 : U8 := 2
/-- Congestion experienced. -/
def CE : U8 := 3
/-- The ECN bits of the TOS byte. -/
def MASK : U8 := 3

end Ecn

/-! ## SACK blocks -/

/-- Up to four `(left_edge, right_edge)` pairs. -/
structure SackBlocks where
  blocks : List (U32 × U32)
  len_le : blocks.length ≤ 4
  deriving Repr, DecidableEq

namespace SackBlocks

/-- No blocks. -/
def EMPTY : SackBlocks := ⟨[], by decide⟩

/-- Append a block; saturates silently at 4. -/
def push (s : SackBlocks) (left right : U32) : SackBlocks :=
  if h : s.blocks.length < 4 then
    ⟨s.blocks ++ [(left, right)], by rw [List.length_append]; exact h⟩
  else
    s

/-- Number of blocks held. -/
def len (s : SackBlocks) : ℕ := s.blocks.length

/-- Whether there are none. -/
def isEmpty (s : SackBlocks) : Bool := s.blocks.length == 0

/-- The blocks, oldest pushed first. -/
def asSlice (s : SackBlocks) : List (U32 × U32) := s.blocks

@[simp] lemma len_EMPTY : EMPTY.len = 0 := rfl

lemma len_push (s : SackBlocks) (l r : U32) : (s.push l r).len = min (s.len + 1) 4 := by
  have h := s.len_le
  unfold push len
  split
  · rw [List.length_append, List.length_singleton]
    omega
  · omega

end SackBlocks

/-! ## Options -/

/-- TCP options carried by a parsed or emitted segment. -/
structure TcpOptions where
  mss : Option U16
  wscale : Option U8
  /-- (TSval, TSecr). -/
  ts : Option (U32 × U32)
  sackPermitted : Bool
  sack : SackBlocks
  deriving Repr, DecidableEq

namespace TcpOptions

/-- A segment without options. -/
def NONE : TcpOptions where
  mss := none
  wscale := none
  ts := none
  sackPermitted := false
  sack := SackBlocks.EMPTY

/-- Raw byte cost of the options without any alignment padding. -/
def rawLen (o : TcpOptions) : ℕ :=
  (if o.mss.isSome then 4 else 0) + (if o.wscale.isSome then 3 else 0) +
    (if o.sackPermitted then 2 else 0) + (if o.ts.isSome then 10 else 0) +
    (if o.sack.isEmpty then 0 else 2 + 8 * o.sack.len)

/-- Bytes the encoded option block consumes: a multiple of 4. -/
def encodedLen (o : TcpOptions) : ℕ := (o.rawLen + 3) / 4 * 4

end TcpOptions

/-! ## Segments -/

/-- Most payload bytes an IPv4 datagram can hold behind its two fixed headers. -/
def MAX_PAYLOAD : ℕ := 65495

/-- A parsed inbound segment. -/
structure Segment where
  srcIp : Ip
  dstIp : Ip
  srcPort : U16
  dstPort : U16
  seq : U32
  ack : U32
  flags : Flags
  window : U16
  options : TcpOptions
  payload : List U8
  ecn : U8
  payload_le : payload.length ≤ MAX_PAYLOAD

namespace Segment

/-- The payload length as the code counts it. -/
def payloadLen (seg : Segment) : U32 := BitVec.ofNat 32 seg.payload.length

/-- Length consumed in sequence-number space: payload bytes + 1 per SYN/FIN flag. -/
def seqLen (seg : Segment) : U32 :=
  seg.payloadLen + FixedWidth.ofFlag 32 seg.flags.syn + FixedWidth.ofFlag 32 seg.flags.fin

lemma toNat_payloadLen (seg : Segment) : seg.payloadLen.toNat = seg.payload.length := by
  have h := seg.payload_le
  unfold MAX_PAYLOAD at h
  rw [payloadLen, BitVec.toNat_ofNat, Nat.mod_eq_of_lt (by omega)]

end Segment

end TcpSansIo
