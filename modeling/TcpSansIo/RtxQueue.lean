import TcpSansIo.Basic
import TcpSansIo.Core.RingQueue

/-!
# The retransmission queue (`rtx_queue.rs`)

One record per transmitted segment, ordered by sequence number and contiguous, covering exactly
`[SND.UNA, SND.NXT)`.  Three counters (`sacked`, `lost`, `retrans`) and a per-slot bitmap mirror
what the records' flags say; they are updated incrementally by every operation below.

The flag bits of a record are a record of Booleans.  A callback the source passes to `ack_to` or
`sack` cannot reach the queue, so those operations return the calls they make, in order.
-/

namespace TcpSansIo

open FixedWidth

/-- The capacities the SACKed bitmap is laid out for. -/
class RtxCap (n : ℕ) : Prop extends NeZero n where
  words : 64 ∣ n
  le : n ≤ 1024

instance (P : Params) : RtxCap P.RTX where
  words := P.rtx_words
  le := P.rtx_le

instance neZero_words : NeZero 16 := ⟨by decide⟩

/-- The smallest capacity. -/
instance : RtxCap 64 where
  out := by decide
  words := by decide
  le := by decide

/-! ## Records -/

/-- Per-segment state bits. -/
structure SegFlags where
  sacked : Bool := false
  lost : Bool := false
  retrans : Bool := false
  everRetrans : Bool := false
  fin : Bool := false
  isPartial : Bool := false
  deriving Repr, DecidableEq

/-- One transmitted segment. -/
structure Seg where
  start : U32
  stop : U32
  xmitTs : U64
  xmitSeq : U32
  flags : SegFlags
  sent : U16
  deriving Repr, DecidableEq

namespace Seg

def seqLen (s : Seg) : U32 := s.stop - s.start

/-- Payload bytes (sequence length minus the FIN, if any). -/
def payloadLen (s : Seg) : U32 := satSub s.seqLen (ofFlag 32 s.flags.fin)

/-- Deemed lost and not yet retransmitted. -/
def awaitsRetrans (s : Seg) : Bool := s.flags.lost && !s.flags.retrans

end Seg

/-- Bytes of a retransmitted segment its retransmission put back in flight. -/
def retransLen (s : Seg) : U32 :=
  if s.flags.isPartial then s.sent.setWidth 32 else s.seqLen

/-! ## The queue -/

/-- Bounded FIFO of records, `CAP` of them at most. -/
structure RtxQueue (CAP : ℕ) where
  segs : RingQueue Seg CAP
  /-- Bit `p` is set iff the segment in physical slot `p` is SACKed. -/
  sackedMap : Fin 16 → U64
  sacked : U32
  lost : U32
  retrans : U32
  /-- Logical index below which no segment is lost and not retransmitted. -/
  lostHint : ℕ
  nextXmit : U32
  /-- Ghost: a counter was once asked to leave its range. -/
  saturated : Bool
  lostHint_le : lostHint ≤ segs.len

namespace RtxQueue

variable {CAP : ℕ}

def zeroSeg : Seg := ⟨0, 0, 0, 0, {}, 0⟩

def len (q : RtxQueue CAP) : ℕ := q.segs.len

def isEmpty (q : RtxQueue CAP) : Bool := q.len == 0

def isFull (q : RtxQueue CAP) : Bool := q.len == CAP

/-- RFC 6675 `pipe` given the total outstanding sequence span. -/
def pipe (q : RtxQueue CAP) (outstanding : U32) : U32 :=
  satAdd (satSub (satSub outstanding q.sacked) q.lost) q.retrans

section Slots

variable [NeZero CAP]

def new : RtxQueue CAP where
  segs := RingQueue.empty zeroSeg
  sackedMap := fun _ => 0
  sacked := 0
  lost := 0
  retrans := 0
  lostHint := 0
  nextXmit := 0
  saturated := false
  lostHint_le := le_refl 0

def clear (q : RtxQueue CAP) : RtxQueue CAP :=
  { q with
    segs := q.segs.clear
    sacked := 0
    lost := 0
    retrans := 0
    lostHint := 0
    sackedMap := fun _ => 0
    lostHint_le := Nat.zero_le _ }

/-! ### The SACKed bitmap -/

/-- The physical slot of logical index `i`. -/
def phys (q : RtxQueue CAP) (i : ℕ) : ℕ := (q.segs.phys i).val

/-- Bit `p` of a bitmap. -/
def bitAt (m : Fin 16 → U64) (p : ℕ) : Bool := (m (Fin.ofNat 16 (p / 64))).getLsbD (p % 64)

def sackedBit (q : RtxQueue CAP) (p : ℕ) : Bool := bitAt q.sackedMap p

def setBit (m : Fin 16 → U64) (p : ℕ) (on : Bool) : Fin 16 → U64 :=
  let w := m (Fin.ofNat 16 (p / 64))
  let mask : U64 := 1#64 <<< (p % 64)
  Function.update m (Fin.ofNat 16 (p / 64)) (if on then w ||| mask else w &&& ~~~mask)

def setSackedBit (q : RtxQueue CAP) (p : ℕ) (on : Bool) : RtxQueue CAP :=
  { q with sackedMap := setBit q.sackedMap p on }

/-- The lowest `n` bits. -/
def lowMask (n : ℕ) : U64 := if 64 ≤ n then BitVec.allOnes 64 else (1#64 <<< n) - 1

/-- One round of `shift_sacked_bits_up`: the highest `n` source bits that share a word move up one
slot.  Returns the new bitmap and how many source bits are left. -/
def shiftRound (CAP : ℕ) (m : Fin 16 → U64) (start left : ℕ) : (Fin 16 → U64) × ℕ :=
  let hi := (start + left - 1) % CAP
  let w := hi / 64
  let top := hi % 64
  let n := min left (top + 1)
  let lo := top + 1 - n
  let src := (m (Fin.ofNat 16 w) >>> lo) &&& lowMask n
  -- Bit 63 carries into bit 0 of the next word (wrapping the ring).
  let next := Fin.ofNat 16 ((w + 1) % (CAP / 64))
  let m₁ :=
    if top = 63 then Function.update m next ((m next &&& ~~~1#64) ||| (src >>> (n - 1))) else m
  let stay := if top = 63 then n - 1 else n
  let mask := lowMask stay <<< (lo + 1)
  let word := m₁ (Fin.ofNat 16 w)
  let m₂ :=
    if 0 < stay then
      Function.update m₁ (Fin.ofNat 16 w)
        ((word &&& ~~~mask) ||| (((src &&& lowMask stay) <<< (lo + 1)) &&& mask))
    else m₁
  (m₂, left - n)

/-- Move the SACKed bits of the `left` slots from physical slot `start` (circularly) up one slot,
a word at a time, highest bits first.  Every round moves at least one bit. -/
def shiftSackedBitsUp (CAP : ℕ) (start : ℕ) : (fuel left : ℕ) → (Fin 16 → U64) → (Fin 16 → U64)
  | 0, _, m => m
  | fuel + 1, left, m =>
    if left = 0 then
      m
    else
      shiftSackedBitsUp CAP start fuel (shiftRound CAP m start left).2 (shiftRound CAP m start left).1

/-- Index of the lowest set bit (64 when none is). -/
def trailingZeros (w : U64) : ℕ := ((List.range 64).find? fun k => w.getLsbD k).getD 64

/-- Logical index of the first segment at or after `i` that is not SACKed, a bitmap word at a
time. -/
def nextUnsackedFrom (q : RtxQueue CAP) : (fuel i : ℕ) → Option ℕ
  | 0, _ => none
  | fuel + 1, i =>
    if i < q.len then
      let p := q.phys i
      let bit := p % 64
      let clear := ~~~(q.sackedMap (Fin.ofNat 16 (p / 64))) >>> bit
      let span := min (64 - bit) (q.len - i)
      let k := trailingZeros clear
      if k < span then some (i + k) else q.nextUnsackedFrom fuel (i + span)
    else
      none

def nextUnsacked (q : RtxQueue CAP) (start : ℕ) : Option ℕ := q.nextUnsackedFrom (q.len + 1) start

/-! ### Records and counters -/

def get (q : RtxQueue CAP) (i : ℕ) : Option Seg := q.segs.get? i

def last (q : RtxQueue CAP) : Option Seg := if q.len = 0 then none else q.get (q.len - 1)

/-- Overwrite record `i`; counters and bitmap are left to the caller. -/
def setSeg (q : RtxQueue CAP) (i : ℕ) (s : Seg) : RtxQueue CAP :=
  { q with segs := q.segs.set i s }

/-- Append a freshly transmitted segment (its `xmit_seq` is assigned); `false` when full. -/
def push (q : RtxQueue CAP) (seg : Seg) : Bool × RtxQueue CAP :=
  if h : q.segs.len < CAP then
    (true, ({ q with
      segs := q.segs.pushBack { seg with xmitSeq := q.nextXmit } h
      nextXmit := q.nextXmit + 1
      lostHint_le := le_trans q.lostHint_le (Nat.le_succ _) } : RtxQueue CAP).setSackedBit
        (q.phys q.len) seg.flags.sacked)
  else
    (false, q)

/-- Add (`sign`) or take away a record's share of the counters. -/
def addCounts (q : RtxQueue CAP) (s : Seg) (sign : Bool) : RtxQueue CAP :=
  let apply : U32 → U32 → U32 := fun c n => if sign then satAdd c n else satSub c n
  let leaves : U32 → U32 → Bool := fun c n =>
    if sign then decide (2 ^ 32 ≤ c.toNat + n.toNat) else decide (c.toNat < n.toNat)
  { q with
    sacked := if s.flags.sacked then apply q.sacked s.seqLen else q.sacked
    lost := if s.flags.lost then apply q.lost s.seqLen else q.lost
    retrans := if s.flags.retrans then apply q.retrans (retransLen s) else q.retrans
    saturated := q.saturated || (s.flags.sacked && leaves q.sacked s.seqLen) ||
      (s.flags.lost && leaves q.lost s.seqLen) || (s.flags.retrans && leaves q.retrans (retransLen s)) }

def setLostHint (q : RtxQueue CAP) (i : ℕ) (h : i ≤ q.segs.len) : RtxQueue CAP :=
  { q with lostHint := i, lostHint_le := h }

/-- Replace segment `i`'s flags and resent prefix, keeping the counters consistent. -/
def setState (q : RtxQueue CAP) (i : ℕ) (flags : SegFlags) (sent : U16) : RtxQueue CAP :=
  match q.get i with
  | none => q
  | some old =>
    let new : Seg := { old with flags := flags, sent := if flags.isPartial then sent else 0 }
    let q' := (((q.addCounts old false).addCounts new true).setSeg i new).setSackedBit
      (q.phys i) flags.sacked
    if h : flags.lost ∧ ¬ flags.retrans ∧ i < q'.lostHint then
      q'.setLostHint i (le_trans h.2.2.le q'.lostHint_le)
    else
      q'

/-- Replace segment `i`'s flags, keeping the counters consistent. -/
def setFlags (q : RtxQueue CAP) (i : ℕ) (flags : SegFlags) : RtxQueue CAP :=
  q.setState i flags (match q.get i with | some s => s.sent | none => 0)

/-! ### Lookup and splitting -/

/-- The binary search of `find` between `lo` and `hi`. -/
def findLoop (q : RtxQueue CAP) (first rel : U32) : (fuel lo hi : ℕ) → Option ℕ
  | 0, _, _ => none
  | fuel + 1, lo, hi =>
    if lo < hi then
      let mid := lo + (hi - lo) / 2
      match q.get mid with
      | none => none
      | some s =>
        if (s.stop - first).toNat ≤ rel.toNat then
          q.findLoop first rel fuel (mid + 1) hi
        else if rel.toNat < (s.start - first).toNat then
          q.findLoop first rel fuel lo mid
        else
          some mid
    else
      none

/-- Logical index of the segment containing `seq`. -/
def find (q : RtxQueue CAP) (seq : U32) : Option ℕ :=
  match q.get 0 with
  | none => none
  | some s => q.findLoop s.start (seq - s.start) (q.len + 1) 0 q.len

/-- The two halves of `s` split at `cut`.  The FIN, if any, stays with the upper half; each half of
a partial retransmission keeps the part of the resent prefix it holds, and a half the prefix does
not reach is lost. -/
def splitSeg (s : Seg) (cut : U32) : Seg × Seg :=
  let lower : Seg := { s with stop := cut, flags := { s.flags with fin := false } }
  let upper : Seg := { s with start := cut }
  if s.flags.isPartial then
    let below := cut - s.start
    let sent := s.sent.setWidth 32
    (if below.toNat ≤ sent.toNat then
        { lower with flags := { lower.flags with isPartial := false }, sent := 0 }
      else lower,
     if h : below.toNat < sent.toNat then
        { upper with sent := (subIn sent below h.le).setWidth 16 }
      else
        { upper with
          flags := { s.flags with lost := true, retrans := false, isPartial := false }
          sent := 0 })
  else
    (lower, upper)

/-- Split segment `i` at `cut` (strictly inside it); `false` if there is no room. -/
def split (q : RtxQueue CAP) (i : ℕ) (cut : U32) : Bool × RtxQueue CAP :=
  match q.get i with
  | none => (false, q)
  | some s =>
    if h : (seqLt s.start cut ∧ seqLt cut s.stop) ∧ q.segs.len < CAP then
      let halves := splitSeg s cut
      let moved : RtxQueue CAP :=
        { q with
          segs := q.segs.openGap (i + 1) h.2
          sackedMap := shiftSackedBitsUp CAP (q.phys (i + 1)) (q.len - (i + 1)) (q.len - (i + 1))
            q.sackedMap
          lostHint_le := le_trans q.lostHint_le (Nat.le_succ _) }
      let counted :=
        if s.flags.isPartial then
          ((moved.addCounts s false).addCounts halves.1 true).addCounts halves.2 true
        else moved
      let filled := ((counted.setSeg i halves.1).setSeg (i + 1) halves.2).setSackedBit
        (q.phys (i + 1)) s.flags.sacked
      let hint := if i + 1 < q.lostHint then q.lostHint + 1 else q.lostHint
      let hint' := if s.flags.isPartial ∧ halves.2.awaitsRetrans then min hint (i + 1) else hint
      (true, { filled with
        lostHint := hint'
        lostHint_le := by
          have h₁ := q.lostHint_le
          have h₂ : filled.segs.len = q.segs.len + 1 := by
            simp only [filled, counted, setSackedBit, setSeg, RingQueue.len_set]
            split <;> rfl
          have h₃ : hint ≤ q.segs.len + 1 := by
            simp only [hint]
            split <;> omega
          have h₄ : hint' ≤ hint := by
            simp only [hint']
            split <;> omega
          omega })
    else
      (false, q)

/-! ### Acknowledgment -/

/-- Drop the first record. -/
def dropFirst (q : RtxQueue CAP) : RtxQueue CAP :=
  { q with
    segs := q.segs.popFront
    lostHint := q.lostHint - 1
    lostHint_le := Nat.sub_le_sub_right q.lostHint_le 1 }

/-- What is left of `s` once everything below `una` is acknowledged, and whether the rest is now
lost: all of a resent prefix arrived, and the rest was not resent. -/
def trimSeg (s : Seg) (una : U32) : Seg × Bool :=
  let acked := una - s.start
  let sent := s.sent.setWidth 32
  if s.flags.isPartial then
    if h : acked.toNat < sent.toNat then
      ({ s with start := una, sent := (subIn sent acked h.le).setWidth 16 }, false)
    else
      ({ s with
          start := una
          flags := { s.flags with lost := true, retrans := false, isPartial := false }
          sent := 0 }, true)
  else
    ({ s with start := una }, false)

/-- The result of `ack_to`: the bytes removed, the calls made to its callback (each segment's state
before removal, and whether it had not been SACKed), and the queue. -/
structure Acked (CAP : ℕ) where
  removed : U32
  calls : List (Seg × Bool)
  queue : RtxQueue CAP

/-- The loop of `ack_to`; every round but the last drops a record. -/
def ackToLoop (una : U32) : (fuel : ℕ) → Acked CAP → Acked CAP
  | 0, a => a
  | fuel + 1, a =>
    match a.queue.get 0 with
    | none => a
    | some s =>
      if seqLe s.stop una then
        ackToLoop una fuel
          { removed := satAdd a.removed s.seqLen
            calls := a.calls ++ [(s, !s.flags.sacked)]
            queue := (a.queue.addCounts s false).dropFirst }
      else if seqLt s.start una then
        -- Partially acknowledged: trim the head.
        let trimmed := trimSeg s una
        let q := ((a.queue.addCounts s false).addCounts trimmed.1 true).setSeg 0 trimmed.1
        { removed := satAdd a.removed (una - s.start)
          calls := a.calls ++ [(s, !s.flags.sacked)]
          queue := if trimmed.2 then q.setLostHint 0 (Nat.zero_le _) else q }
      else
        a

/-- An empty queue starts over at slot 0. -/
def rewindIfEmpty (q : RtxQueue CAP) : RtxQueue CAP :=
  if q.len = 0 then
    { q with segs := q.segs.clear, lostHint := 0, lostHint_le := Nat.zero_le _ }
  else
    q

/-- Cumulative ACK up to `una`: remove (or trim) covered segments. -/
def ackTo (q : RtxQueue CAP) (una : U32) : Acked CAP :=
  let a := ackToLoop una (q.len + 1) { removed := 0, calls := [], queue := q }
  { a with queue := a.queue.rewindIfEmpty }

/-! ### Selective acknowledgment -/

/-- The result of `sack`: newly SACKed bytes and segments, and the queue. -/
structure Sacked (CAP : ℕ) where
  newly : U32
  calls : List Seg
  queue : RtxQueue CAP

/-- The marking loop of `sack` over `[l, r)` from index `i`.  Every round either moves past a
record or adds one, so `2 * CAP + 1` rounds are enough. -/
def sackLoop (l r : U32) : (fuel i : ℕ) → Sacked CAP → Sacked CAP
  | 0, _, a => a
  | fuel + 1, i, a =>
    match a.queue.get i with
    | none => a
    | some s =>
      if ¬ seqLt s.start r then
        a
      else if s.flags.sacked then
        -- Step over the whole SACKed run at once.
        match a.queue.nextUnsacked (i + 1) with
        | some j => sackLoop l r fuel j a
        | none => a
      else if seqLt r s.stop then
        -- The block ends inside this segment: split, then SACK the lower part.
        if (a.queue.split i r).1 then
          sackLoop l r fuel i { a with queue := (a.queue.split i r).2 }
        else
          a
      else if seqLe l s.start then
        sackLoop l r fuel (i + 1)
          { newly := satAdd a.newly s.seqLen
            calls := a.calls ++ [s]
            queue := a.queue.setFlags i { s.flags with
              sacked := true, lost := false, retrans := false, isPartial := false } }
      else
        sackLoop l r fuel (i + 1) a

/-- Partial coverage at the left edge: split so that a segment starts at `l`. -/
def splitLeftEdge (q : RtxQueue CAP) (i : ℕ) (l : U32) : ℕ × RtxQueue CAP :=
  match q.get i with
  | none => (i, q)
  | some s =>
    if seqLt s.start l ∧ ¬ s.flags.sacked then
      if (q.split i l).1 then (i + 1, (q.split i l).2) else (i, q)
    else
      (i, q)

/-- Mark every segment fully inside `[left, right)` as SACKed, splitting segments the block only
partially covers (when there is room). -/
def sack (q : RtxQueue CAP) (left right : U32) : Sacked CAP :=
  let nothing : Sacked CAP := { newly := 0, calls := [], queue := q }
  match q.get 0, q.last with
  | some first, some final =>
    let l := if seqLt left first.start then first.start else left
    let r := if seqLt final.stop right then final.stop else right
    if seqLt left right ∧ seqLt l r then
      match q.find l with
      | none => nothing
      | some i =>
        let e := q.splitLeftEdge i l
        sackLoop l r (2 * CAP + 1) e.1 { newly := 0, calls := [], queue := e.2 }
    else
      nothing
  | _, _ => nothing

/-! ### Loss marks and retransmissions -/

/-- Mark segment `i` lost (its retransmission, if any, is lost too). -/
def markLost (q : RtxQueue CAP) (i : ℕ) : RtxQueue CAP :=
  match q.get i with
  | none => q
  | some s =>
    if ¬ s.flags.sacked ∧ ¬ s.awaitsRetrans then
      q.setFlags i { s.flags with lost := true, retrans := false, isPartial := false }
    else
      q

/-- RTO: everything not SACKed is lost and will be retransmitted. -/
def markAllLost (q : RtxQueue CAP) : RtxQueue CAP :=
  ((List.range q.len).foldl markLost q).setLostHint 0 (Nat.zero_le _)

/-- Clear the loss mark of segment `i` unless it was retransmitted. -/
def unmarkLostAt (q : RtxQueue CAP) (i : ℕ) : RtxQueue CAP :=
  match q.get i with
  | none => q
  | some s => if s.awaitsRetrans then q.setFlags i { s.flags with lost := false } else q

/-- Clear the loss marks of segments not yet retransmitted. -/
def unmarkLost (q : RtxQueue CAP) : RtxQueue CAP :=
  ((List.range q.len).foldl unmarkLostAt q).setLostHint 0 (Nat.zero_le _)

/-- Forget the SACK state of segment `i`. -/
def clearSackedAt (q : RtxQueue CAP) (i : ℕ) : RtxQueue CAP :=
  match q.get i with
  | none => q
  | some s => if s.flags.sacked then q.setFlags i { s.flags with sacked := false } else q

/-- Forget all SACK state (the receiver reneged). -/
def clearSacked (q : RtxQueue CAP) : RtxQueue CAP := (List.range q.len).foldl clearSackedAt q

/-- First index from `i` on that is lost and not retransmitted. -/
def nextLostFrom (q : RtxQueue CAP) : (fuel i : ℕ) → Option ℕ
  | 0, _ => none
  | fuel + 1, i =>
    match q.get i with
    | none => none
    | some s => if s.awaitsRetrans then some i else q.nextLostFrom fuel (i + 1)

lemma nextLostFrom_lt (q : RtxQueue CAP) {fuel i j : ℕ} (h : q.nextLostFrom fuel i = some j) :
    j < q.segs.len := by
  induction fuel generalizing i with
  | zero => cases h
  | succ fuel ih =>
      rw [nextLostFrom] at h
      split at h
      · cases h
      · rename_i s hs
        split at h
        · cases h
          by_contra hge
          rw [get, RingQueue.get?, if_neg hge] at hs
          cases hs
        · exact ih h

/-- Lowest segment that is lost and not yet retransmitted; remembered in `lost_hint`. -/
def nextLost (q : RtxQueue CAP) : Option ℕ × RtxQueue CAP :=
  match h : q.nextLostFrom (q.len + 1) q.lostHint with
  | some i => (some i, q.setLostHint i (q.nextLostFrom_lt h).le)
  | none => (none, q.setLostHint q.len (le_refl _))

/-- Record a retransmission of segment `i` at `now`; `sent > 0`: only that prefix was resent. -/
def retransmitted (q : RtxQueue CAP) (i : ℕ) (now : U64) (sent : U16) : RtxQueue CAP :=
  match q.get i with
  | none => q
  | some s =>
    let q' := q.setState i
      { s.flags with retrans := true, everRetrans := true, isPartial := sent != 0 } sent
    match q'.get i with
    | none => q'
    | some d =>
      { q'.setSeg i { d with xmitTs := now, xmitSeq := q'.nextXmit } with
        nextXmit := q'.nextXmit + 1 }

def onRetransmit (q : RtxQueue CAP) (i : ℕ) (now : U64) : RtxQueue CAP := q.retransmitted i now 0

/-- Record a retransmission of only the first `sent` (> 0) bytes of segment `i`. -/
def onPartialRetransmit (q : RtxQueue CAP) (i : ℕ) (now : U64) (sent : U16) : RtxQueue CAP :=
  q.retransmitted i now sent

/-! ### The queue's own consistency check -/

/-- The checks `debug_valid` makes of the record at index `i`, given the end of the one before. -/
def checkSeg (q : RtxQueue CAP) (i : ℕ) (expect : Option U32) (s : Seg) : Except String Unit :=
  if ¬ seqLt s.start s.stop then
    .error "rtx: empty segment"
  else if expect.any (fun e => s.start != e) then
    .error "rtx: segments not contiguous"
  else if s.flags.sacked && (s.flags.lost || s.flags.retrans) then
    .error "rtx: SACKED segment also LOST/RETRANS"
  else if q.sackedBit (q.phys i) != s.flags.sacked then
    .error "rtx: SACKed bitmap out of sync"
  else if s.flags.retrans && !s.flags.everRetrans then
    .error "rtx: RETRANS without EVER_RETRANS"
  else if s.flags.isPartial then
    if !s.flags.retrans then
      .error "rtx: PARTIAL without RETRANS"
    else if s.sent = 0 ∨ s.payloadLen.toNat ≤ s.sent.toNat then
      .error "rtx: PARTIAL prefix not inside the segment"
    else if s.flags.fin && i + 1 != q.len then
      .error "rtx: FIN is not the last segment"
    else
      .ok ()
  else if s.sent ≠ 0 then
    .error "rtx: resent prefix without PARTIAL"
  else if s.flags.fin && i + 1 != q.len then
    .error "rtx: FIN is not the last segment"
  else
    .ok ()

/-- The loop of `debug_valid` over the records from index `i` on, recounting the counters. -/
def checkFrom (q : RtxQueue CAP) :
    ℕ → Option U32 → (U32 × U32 × U32) → List Seg → Except String (U32 × U32 × U32)
  | _, _, c, [] => .ok c
  | i, expect, (sacked, lost, retrans), s :: rest => do
    q.checkSeg i expect s
    q.checkFrom (i + 1) (some s.stop)
      (if s.flags.sacked then sacked + s.seqLen else sacked,
       if s.flags.lost then lost + s.seqLen else lost,
       if s.flags.retrans then retrans + retransLen s else retrans) rest

/-- Recount everything and check structural invariants. -/
def debugValid (q : RtxQueue CAP) (sndUna sndNxt : U32) : Except String Unit := do
  let c ← q.checkFrom 0 none (0, 0, 0) q.segs.toList
  if c ≠ (q.sacked, q.lost, q.retrans) then
    .error "rtx: counters out of sync"
  else
    match q.get 0, q.last with
    | some first, some final =>
      if seqLt first.start sndUna ∨ final.stop ≠ sndNxt then
        .error "rtx: queue does not end at SND.NXT / starts below SND.UNA"
      else
        .ok ()
    | _, _ => .ok ()

end Slots

end RtxQueue

end TcpSansIo
