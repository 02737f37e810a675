import TcpSansIo.Tcb.Cookie

/-!
# Transmission (`tcb/output.rs`)

Retransmissions, new data, FIN, probes and control segments.  A segment goes out while
`pipe < cwnd`, lost segments first, then new data subject to the peer's window and sender-side
silly-window avoidance.

`?` is the error branch of `TcbM`; a plain operation whose operands are not bounded by the lines
above it faults when it leaves its range.
-/

namespace TcpSansIo

open FixedWidth

variable {P : Params}

/-- A segment's payload: `len` bytes at `off` past the start of the send ring. -/
structure RingSlice where
  off : ℕ
  len : ℕ

def NO_PAYLOAD : RingSlice := ⟨0, 0⟩

namespace Tcb

/-! ## Window advertisement -/

/-- What is left of the window last advertised. -/
def curWindow (t : Tcb P) : U32 :=
  if seqGt t.rcvAdvEdge t.rcvNxt then t.rcvAdvEdge - t.rcvNxt else 0

/-- Receive window to advertise, in bytes (before scaling). -/
def advertisedWindow (t : Tcb P) : U32 :=
  let free : U32 := BitVec.ofNat 32 t.recvRing.free
  let thresh := minB (BitVec.ofNat 32 P.BUF / 2) (t.localMss.setWidth 32)
  if (satAdd t.curWindow thresh).toNat ≤ free.toNat then free else t.curWindow

/-- Wire window field and the byte window it represents. -/
def outboundWindow (t : Tcb P) (isSyn : Bool) : U16 × U32 :=
  let adv := t.advertisedWindow
  if isSyn then
    let w := minB adv 65535
    (w.setWidth 16, w)
  else
    let shift := t.rcvWscale.toNat
    let fits := BitVec.ofNat 32 t.recvRing.free >>> shift
    let units := minB (adv >>> shift) fits
    let units :=
      if (units <<< shift).toNat < t.curWindow.toNat then
        minB (divCeil t.curWindow (1 <<< shift)) fits
      else units
    let units := minB units 65535
    (units.setWidth 16, units <<< shift)

/-! ## Segment construction -/

/-- Options for a segment carrying `payloadLen` bytes: timestamps, plus as many SACK blocks (D-SACK
first) as fit without pushing the segment past the MSS. -/
def segmentOptions (payloadLen : U32) (t : Tcb P) : TcpOptions × Tcb P :=
  let opts : TcpOptions :=
    { TcpOptions.NONE with ts := if t.tsEnabled then some (t.tsVal, t.tsRecent) else none }
  if t.sackEnabled && (t.dsack.isSome || !t.ooo.isEmpty) then
    let budget := minB (satSub (t.mssCap.setWidth 32) payloadLen) 40
    let fixed : U32 := if t.tsEnabled then 12 else 4
    let n := min ((satSub budget fixed).toNat / 8) 4
    if 0 < n then
      let sb :=
        match t.dsack with
        | some (l, r) => SackBlocks.EMPTY.push l r
        | none => SackBlocks.EMPTY
      ({ opts with sack := t.ooo.fillSackBlocks sb (n - sb.len) }, { t with dsack := none })
    else
      (opts, t)
  else
    (opts, t)

/-- An ACK with window `wndBytes` went out: remember it, and the right edge, which never moves
left. -/
def noteAdvertised (t : Tcb P) (ack wndBytes : U32) : Tcb P :=
  { t with
    lastAckSent := ack
    rcvAdvEdge := if seqGt (ack + wndBytes) t.rcvAdvEdge then ack + wndBytes else t.rcvAdvEdge
    rcvWnd := wndBytes }

/-- Stage one segment to the connected peer; `false` if it could not be staged now.  Handshake and
reset segments are exempt from host back-pressure. -/
def emitSegment (fl : Flags) (seq ack : U32) (options : TcpOptions) (payload : RingSlice)
    (ect : Bool) : TcbM P Bool := do
  let t ← get
  if t.txRing.isFull || (t.egressPaused && !fl.syn && !fl.rst) then
    return false
  else
    let w := t.outboundWindow fl.syn
    let ecnAck := t.ecnEnabled && !fl.syn && fl.ack
    let cwr := ecnAck && t.sendCwrPending && ect
    modify fun t => { t with sendCwrPending := t.sendCwrPending && !cwr }
    let queued ← stage
      { srcIp := t.localEp.ip, dstIp := t.remoteEp.ip, srcPort := t.localEp.port
        dstPort := t.remoteEp.port, seq := seq, ack := ack
        flags := { fl with ece := fl.ece || (ecnAck && t.ceObserved), cwr := fl.cwr || cwr }
        window := w.1, options := options, ipId := t.ipId
        ecn := if t.ecnEnabled && !fl.syn && ect then Ecn.ECT_0 else Ecn.NOT_ECT }
      payload.len
      -- The payload goes straight from the send ring into the slot.
      fun n => let p := t.sendRing.peekAt payload.off n; if p.length = n then some p else none
    modify fun t => if queued && fl.ack && !fl.rst then t.noteAdvertised ack w.2 else t
    return queued

/-- The ACK that was owed rides on the segment just staged. -/
def ackSent (t : Tcb P) : Tcb P :=
  { t with pendingAck := false, delayedAckCount := 0, ackDeadline := Deadline.OFF }

/-- Emit a data-bearing (or FIN) segment.  `ect` marks a first transmission of data. -/
def emitDataSegment (fl : Flags) (seq : U32) (payload : RingSlice) (ect : Bool) : TcbM P Bool := do
  let opts ← modifyGet (segmentOptions (BitVec.ofNat 32 payload.len))
  let t ← get
  let queued ← emitSegment fl seq t.rcvNxt opts payload ect
  modify fun t => if queued then t.ackSent else t
  return queued

def sendPureAck : TcbM P Unit := do
  let t ← get
  if t.egressFull then
    -- Owed now, not at a later delayed-ACK deadline.
    modify fun t => { t with pendingAck := true, ackDeadline := Deadline.atMs t.nowMs }
  else
    let opts ← modifyGet (segmentOptions 0)
    let t ← get
    let queued ← emitSegment { ack := true } t.sndNxt t.rcvNxt opts NO_PAYLOAD false
    modify fun t => if queued then t.ackSent else t

/-- Rate-limited pure ACK. -/
def sendOowAck : TcbM P Unit := do
  let allowed ← modifyGet oowAllowed
  if allowed then sendPureAck else return ()

/-- Zero-window / keepalive probe: an ACK carrying an already acknowledged sequence number. -/
def emitProbe (seq : U32) : TcbM P Bool := do
  let t ← get
  let opts : TcpOptions :=
    { TcpOptions.NONE with ts := if t.tsEnabled then some (t.tsVal, t.tsRecent) else none }
  emitSegment { ack := true } seq t.rcvNxt opts NO_PAYLOAD false

def emitSyn : TcbM P Bool := do
  let t ← get
  let opts : TcpOptions :=
    { mss := some t.localMss, wscale := some P.WS, ts := some (t.tsVal, 0), sackPermitted := true
      sack := SackBlocks.EMPTY }
  emitSegment { syn := true, ece := true, cwr := true } t.iss 0 opts NO_PAYLOAD false

def emitSynack : TcbM P Bool := do
  let t ← get
  let opts : TcpOptions :=
    { mss := some t.localMss
      wscale := if t.wsOk then some t.rcvWscale else none
      ts := if t.tsEnabled then some (t.tsVal, t.tsRecent) else none
      sackPermitted := t.sackEnabled
      sack := SackBlocks.EMPTY }
  emitSegment { syn := true, ack := true, ece := t.ecnEnabled } t.iss t.rcvNxt opts NO_PAYLOAD false

/-- Option-less control segment to the connected peer (RST / RST+ACK). -/
def emitCtl (fl : Flags) (seq ack : U32) : TcbM P Bool :=
  emitSegment fl seq ack TcpOptions.NONE NO_PAYLOAD false

/-- RST addressed to the sender of `seg`. -/
def emitRstTo (seg : Segment) (seq ack : U32) (fl : Flags) : TcbM P Unit := do
  let t ← get
  let _ ← stage
    { srcIp := t.localEp.ip, dstIp := seg.srcIp, srcPort := t.localEp.port, dstPort := seg.srcPort
      seq := seq, ack := ack, flags := fl, window := 0, options := TcpOptions.NONE, ipId := t.ipId
      ecn := Ecn.NOT_ECT } 0 fun _ => some []
  return ()

/-! ## Tail loss probe timer (`tcb/ack.rs`) -/

/-- The states in which loss recovery and new data run. -/
def tlpEligible (t : Tcb P) : Bool :=
  t.sackEnabled && t.cc.state == .opened && t.tlpEndSeq.isNone && t.sndUna != t.sndNxt &&
    t.state.sends

/-- Arm the tail loss probe when data is outstanding, the connection is not recovering, and the PTO
would fire before the RTO. -/
def maybeArmTlp (t : Tcb P) : Tcb P :=
  if ¬ t.tlpEligible then
    { t with tlpDeadline := Deadline.OFF }
  else
    let srtt : U64 := if t.rttFirstSample then t.srttMs.setWidth 64 else 500
    let pto := satMul srtt 2
    let pto := if t.rtx.len = 1 then satAdd pto TLP_WC_DELACK_MS else pto
    let at_ := satAdd t.nowMs (maxB pto TLP_MIN_PTO_MS)
    let at_ :=
      match t.rtoDeadline.get with
      | some rto => minB at_ rto
      | none => at_
    { t with tlpDeadline := Deadline.atMs at_ }

/-! ## New data -/

/-- A FIN is owed once the application closed and it has not been sent. -/
def finOwed (t : Tcb P) : Bool :=
  (match t.state with
    | .finWait1 | .closing | .lastAck => true
    | _ => false) && !t.finSent

/-- Bytes the peer's window still admits beyond `SND.NXT`. -/
def usableWindow (t : Tcb P) : U32 :=
  let edge := t.sndUna + t.sndWnd
  if seqGt edge t.sndNxt then edge - t.sndNxt else 0

/-- After a black-hole clamp, the next new segment may be a path-MTU probe: `(payload, MSS cap)`
one size step up, sent only from a calm state. -/
def pmtuProbeLen (t : Tcb P) : Option (U32 × U16) :=
  if t.pmtuRestoreMss = 0 ∨ t.pmtuProbeInflight ∨ t.nowMs.toNat < t.pmtuProbeAt.toNat ∨
      t.rtxCount ≠ 0 ∨ t.cc.state ≠ .opened then
    none
  else
    let next :=
      if t.pmtuMss.toNat < BLACKHOLE_MSS1.toNat ∧ BLACKHOLE_MSS1.toNat < t.pmtuRestoreMss.toNat then
        BLACKHOLE_MSS1
      else t.pmtuRestoreMss
    let cap := minB (minB t.localMss t.peerMss) next
    let len := satSub (cap.setWidth 32) (if t.tsEnabled then 12 else 0)
    if t.mssPayload.toNat < len.toNat then some (len, next) else none

/-- The probe had to be retransmitted: back off and retry later. -/
def pmtuProbeFailed (t : Tcb P) : Tcb P :=
  let backoff := clampB (satMul t.pmtuProbeBackoffMs 2) PMTU_PROBE_MIN_MS PMTU_PROBE_MAX_MS
  { t with
    pmtuProbeInflight := false
    pmtuProbeBackoffMs := backoff
    pmtuProbeAt := satAdd t.nowMs (backoff.setWidth 64) }

/-- Start the retransmission timer unless it runs already. -/
def ensureRto (t : Tcb P) : Tcb P := if t.rtoDeadline.isArmed then t else t.armRto

/-- First transmissions of data are counted, and their time is kept. -/
def countSent (len : U32) (t : Tcb P) : Tcb P :=
  if 0 < len.toNat then
    { t with
      lastDataSendMs := t.nowMs
      stats.bytesSent := satAdd t.stats.bytesSent (len.setWidth 64) }
  else t

/-- `[seq, seq + seqLen)` is in flight for the first time; `len` of it are data. -/
def advanceNxt (seq len seqLen : U32) (fin : Bool) (t : Tcb P) : Tcb P :=
  let t : Tcb P :=
    { t with
      finSent := t.finSent || fin
      finSeq := if fin then seq + len else t.finSeq
      sndNxt := seq + seqLen
      cc := t.cc.onSend seqLen }
  { t with pipeHiwat := maxB t.pipeHiwat t.pipe }

/-- The bookkeeping of a first transmission of `[seq, seq + seqLen)`, of which `len` are data. -/
def noteNew (seq len seqLen : U32) (fin : Bool) (t : Tcb P) : Tcb P :=
  (countSent len (advanceNxt seq len seqLen fin t)).ensureRto.maybeArmTlp

/-- Transmit `len` new bytes at `SND.NXT` (plus a FIN if `fin`). -/
def emitNew (len : U32) (fin : Bool) : TcbM P Bool := do
  let t ← get
  let seq := t.sndNxt
  if h : MSS.toNat < len.toNat then
    throw (.tcp .overflow)
  else
    let queued ← emitDataSegment { ack := true, psh := decide (0 < len.toNat), fin := fin } seq
      ⟨(seq - t.dataUna).toNat, len.toNat⟩ (decide (0 < len.toNat))
    if queued then
      let seqLen := addIn len (ofFlag 32 fin) (by
        rw [toNat_ofFlag (by decide)]
        have h₁ := Bool.toNat_le fin
        have h₂ : MSS.toNat = 1460 := rfl
        omega)
      let pushed ← modifyGet fun t =>
        let r := t.rtx.push
          { start := seq, stop := seq + seqLen, xmitTs := t.nowMs, xmitSeq := 0
            flags := { fin := fin }, sent := 0 }
        (r.1, { t with rtx := r.2 })
      if pushed then
        modify (noteNew seq len seqLen fin)
        return true
      else
        throw (.tcp .overflow)
    else
      return false

/-- How much new data may go out now, of `unsent` bytes: a path-MTU probe, a full segment,
everything that is queued, or at least half the largest window the peer ever offered. -/
def newLen (t : Tcb P) (unsent : U32) : Option (U32 × Option (U32 × U16)) :=
  let mss := t.mssPayload
  let avail := minB t.usableWindow unsent
  let probe := t.pmtuProbeLen.filter fun p => decide (p.1.toNat ≤ avail.toNat)
  match probe with
  | some p => some (p.1, some p)
  | none =>
    if mss.toNat ≤ avail.toNat then
      some (mss, none)
    else if 0 < avail.toNat ∧ (avail = unsent ∨ (t.maxSndWnd / 2).toNat ≤ avail.toNat) then
      some (avail, none)
    else
      none

/-- RFC 5681 §4.1 restart window after an idle period. -/
def idleRestart (mss : U32) (t : Tcb P) : Tcb P :=
  if t.sndUna = t.sndNxt ∧ t.rtoMs.toNat < (satSub t.nowMs t.lastDataSendMs).toNat then
    { t with cc := t.cc.onIdleRestart (initialWindow mss) }
  else t

/-- A path-MTU probe `[seq, seq + plen)` sized for `cap` is in flight: the segment staged last. -/
def noteProbe (t : Tcb P) (seq : U32) (probe : Option (U32 × U16)) : Tcb P :=
  match probe with
  | some (plen, cap) =>
    { t with
      pmtuProbeInflight := true
      pmtuProbeMss := cap
      pmtuProbeStart := seq
      pmtuProbeEnd := seq + plen
      probed := t.probed ++ [(t.sent.length - 1, cap)] }
  | none => t

def sendNew : TcbM P Bool := do
  let t ← get
  let unsent := t.unsentBytes
  if unsent = 0 then
    -- A bare FIN owes no window or congestion credit.
    if t.finOwed && !t.rtx.isFull then emitNew 0 true else return false
  else if t.rtx.isFull then
    return false
  else if t.cc.cwnd.toNat ≤ t.pipe.toNat then
    modify fun t => { t with cwndLimited := true }
    return false
  else
    match t.newLen unsent with
    | none => return false
    | some (len, probe) =>
      modify (idleRestart t.mssPayload)
      let sent ← emitNew len (t.finOwed && len == unsent)
      modify fun t' => if sent then t'.noteProbe t.sndNxt probe else t'
      return sent

/-! ## Retransmission -/

/-- A retransmission of `s` that overlaps the path-MTU probe in flight means the probe failed. -/
def failProbeOver (s : Seg) (t : Tcb P) : Tcb P :=
  if t.pmtuProbeInflight ∧ seqLt s.start t.pmtuProbeEnd ∧ seqGt s.stop t.pmtuProbeStart then
    t.pmtuProbeFailed
  else t

/-- Split record `i` (holding `s`) if the path MSS shrank below its size. -/
def splitForMss (i : ℕ) (s : Seg) (t : Tcb P) : Tcb P :=
  if t.mssPayload.toNat < s.payloadLen.toNat then
    { t with rtx := (t.rtx.split i (s.start + t.mssPayload)).2 }
  else t

/-- The bookkeeping of a retransmission of the first `plen` bytes of record `i`. -/
def noteRetransmit (i : ℕ) (s : Seg) (plen sentLen : U32) (t : Tcb P) : Tcb P :=
  let rtx :=
    if plen.toNat < s.payloadLen.toNat then
      t.rtx.onPartialRetransmit i t.nowMs (plen.setWidth 16)
    else t.rtx.onRetransmit i t.nowMs
  ({ t with
    rtx := rtx
    cc := (t.cc.onSend sentLen).onRetransmit
    stats.segsRetrans := satAdd t.stats.segsRetrans 1
    stats.bytesRetrans := satAdd t.stats.bytesRetrans (plen.setWidth 64)
    stats.bytesSent := satAdd t.stats.bytesSent (plen.setWidth 64) } : Tcb P).ensureRto

/-- Send the first MSS of record `i`, which holds `s`. -/
def resend (i : ℕ) (s : Seg) : TcbM P Bool := do
  let t ← get
  let plen := minB s.payloadLen t.mssPayload
  if h : MSS.toNat < plen.toNat then
    throw (.tcp .overflow)
  else
    let fin := s.flags.fin && plen == s.payloadLen
    let queued ← emitDataSegment { ack := true, psh := decide (0 < plen.toNat), fin := fin } s.start
      ⟨(s.start - t.dataUna).toNat, plen.toNat⟩ false
    if queued then
      let sentLen := addIn plen (ofFlag 32 fin) (by
        rw [toNat_ofFlag (by decide)]
        have h₁ := Bool.toNat_le fin
        have h₂ : MSS.toNat = 1460 := rfl
        omega)
      modify (noteRetransmit i s plen sentLen)
      return true
    else
      return false

/-- Retransmit queued segment `i` (splitting it first if the path MSS shrank below its size; with no
record to split it into, only its first MSS goes out). -/
def retransmit (i : ℕ) : TcbM P Bool := do
  let t ← get
  match t.rtx.get i with
  | none => return false
  | some s =>
    modify (failProbeOver s)
    modify (splitForMss i s)
    let t ← get
    -- The lower half after a split, else still `s`.
    resend i ((t.rtx.get i).getD s)

/-! ## The send loop -/

def sendOne : TcbM P Bool := do
  let next ← modifyGet fun t => (t.rtx.nextLost.1, { t with rtx := t.rtx.nextLost.2 })
  match next with
  | some i =>
    let t ← get
    if t.cc.cwnd.toNat ≤ t.pipe.toNat then
      modify fun t => { t with cwndLimited := true }
      return false
    else
      retransmit i
  | none => sendNew

/-- Arm the persist timer when queued data cannot be sent and nothing in flight will clock it
out. -/
def updatePersist (t : Tcb P) : Tcb P :=
  let stuck := decide (0 < t.unsentBytes.toNat) && t.sndUna == t.sndNxt && t.state.sends
  if ¬ stuck then
    { t with persistDeadline := Deadline.OFF }
  else if ¬ t.persistDeadline.isArmed then
    let backoff := if t.persistBackoffMs = 0 then t.rtoMs else t.persistBackoffMs
    { t with persistBackoffMs := backoff, persistDeadline := t.after backoff }
  else t

/-- The iteration budget `TXQ as u32 + 2` of the send loop, if the addition stays in range. -/
def sendBudget (P : Params) : Option U32 :=
  let q : U32 := BitVec.ofNat 32 P.TXQ
  if q.toNat + 2 < 2 ^ 32 then some (q + 2) else none

/-- The loop of `maybe_send_data`.  Every round stages a packet, so `TXQ + 1` rounds are never
used up. -/
def sendLoop : (fuel : ℕ) → (guard : U32) → TcbM P Unit
  | 0, _ => throw .panic
  | fuel + 1, guard => do
    let t ← get
    if t.egressFull then
      return ()
    else
      match sendBudget P with
      | none => throw .panic
      | some cap =>
        if cap.toNat < (guard + 1).toNat then
          -- The budget is exhausted: a `std` build traps, any other leaves the loop.
          if P.std then throw .panic else return ()
        else
          let sent ← sendOne
          if sent then sendLoop fuel (guard + 1) else return ()

/-- Emit as many segments as the congestion window, the peer's window and the egress ring allow;
then (re)arm the persist timer if data is stuck with nothing in flight. -/
def maybeSendData : TcbM P Unit := do
  let t ← get
  if ¬ t.state.sends then
    return ()
  else
    sendLoop (P.TXQ + 1) 0
    modify updatePersist

/-- After the application drained the receive ring: announce a window that at least doubled and
grew by two segments. -/
def maybeSendWindowUpdate : TcbM P Unit := do
  let t ← get
  if ¬ t.state.canRecv then
    return ()
  else
    let new := (t.outboundWindow false).2
    let grow := mulIn 2 (t.localMss.setWidth 32) (by
      have h := t.localMss.isLt
      rw [BitVec.toNat_setWidth, Nat.mod_eq_of_lt (by omega)]
      change 2 * t.localMss.toNat < 2 ^ 32
      omega)
    let double := mulIn 2 t.curWindow (by
      unfold curWindow
      split
      case isTrue h =>
        have h' := (seqGt_iff.1 h).2
        change 2 * (t.rcvAdvEdge - t.rcvNxt).toNat < 2 ^ 32
        omega
      case isFalse => decide)
    if (satAdd t.curWindow grow).toNat ≤ new.toNat ∧ double.toNat ≤ new.toNat then
      sendPureAck
    else
      return ()

end Tcb

end TcpSansIo
