import TcpSansIo.Tcb.Output

/-!
# Acknowledgment processing (`tcb/ack.rs`)

Per ACK: absorb SACK blocks, apply the cumulative ACK, take an RTT sample, update the send window,
run loss detection, and let congestion control react.  `process_ack` is cut at its section comments
into the functions below; its local variables travel as arguments and results.
-/

namespace TcpSansIo

open FixedWidth

variable {P : Params}

namespace Tcb

/-- SEG.ACK is acceptable within `[SND.UNA − MAX.SND.WND, SND.NXT]`, and never below the sequence
space acknowledged so far. -/
def ackAcceptable (t : Tcb P) (ack : U32) : Bool :=
  let maxWnd := maxB t.maxSndWnd (t.localMss.setWidth 32)
  let back :=
    match tryNarrow 32 t.sndAcked with
    | some a => minB a maxWnd
    | none => maxWnd
  !decide (seqGt ack t.sndNxt) && !decide (seqLt ack (t.sndUna - back))

/-! ## SACK and D-SACK -/

/-- Believe a D-SACK only if it is non-empty, within what we sent, at most MAX.SND.WND long, and
(cumulatively) reports no more duplicate segments than we retransmitted. -/
def dsackValid (l r mss : U32) (t : Tcb P) : Bool × Tcb P :=
  let maxWnd := maxB t.maxSndWnd (t.localMss.setWidth 32)
  let len := r - l
  if ¬ seqLt l r ∨ seqGt r t.sndNxt ∨ maxWnd.toNat < len.toNat then
    (false, t)
  else
    let segs : U64 := (divCeil len (maxB mss 1)).setWidth 64
    let total := satAdd t.dsackSegs segs
    if t.stats.segsRetrans.toNat < total.toNat then
      (false, t)
    else
      (true, { t with dsackSegs := total })

/-- A believed D-SACK: widen RACK's reordering window; if it shows the loss episode spurious, restore
the window and drop loss marks that were never acted on. -/
def believeDsack (t : Tcb P) (l r mss : U32) : Tcb P :=
  let undo := t.cc.onDsack l r mss
  let rack := t.rack.onDsack t.sndUna t.sndNxt
  { t with
    stats.dsacksReceived := satAdd t.stats.dsacksReceived 1
    cc := undo.2
    rack := if undo.1 then rack.onRecoveryExit else rack
    rtx := if undo.1 then t.rtx.unmarkLost else t.rtx }

/-- Absorb one SACK block; `d` counts the bytes delivered so far. -/
def sackBlock (d : U32 × Tcb P) (b : U32 × U32) : U32 × Tcb P :=
  let t := d.2
  let a := t.rtx.sack b.1 b.2
  (satAdd d.1 a.newly,
    { t with
      rtx := a.queue
      -- TSecr cannot disambiguate a SACKed retransmission; RACK falls back to min_rtt.
      rack := a.calls.foldl (fun r s => r.onDelivered s t.nowMs none) t.rack })

/-- What the SACK option of an ACK told. -/
structure SackInfo where
  delivered : U32
  dsack : Option (U32 × U32)
  present : Bool

/-- The first block reports a duplicate: it lies below the ACK, or inside the second block. -/
def isDsack (ack : U32) (b0 : U32 × U32) (rest : List (U32 × U32)) : Bool :=
  decide (seqLe b0.2 ack) ||
    (rest.head?.any fun b1 => decide (seqLe b1.1 b0.1) && decide (seqLe b0.2 b1.2))

/-- SACK / D-SACK (RFC 2018, RFC 2883). -/
def absorbSack (seg : Segment) (mss : U32) (t : Tcb P) : SackInfo × Tcb P :=
  if ¬ t.sackEnabled then
    (⟨0, none, false⟩, t)
  else
    match seg.options.sack.asSlice with
    | [] => (⟨0, none, false⟩, t)
    | b0 :: rest =>
      let dup := isDsack seg.ack b0 rest
      let v := if dup then dsackValid b0.1 b0.2 mss t else (false, t)
      let t' := if v.1 then v.2.believeDsack b0.1 b0.2 mss else v.2
      let d := (if dup then rest else b0 :: rest).foldl sackBlock (0, t')
      (⟨d.1, if v.1 then some b0 else none, true⟩, d.2)

/-! ## The cumulative ACK -/

/-- Send times of the newly acknowledged segments, for the RTT. -/
structure AckTimes where
  oldestTs : Option U64
  newestTs : U64
  retransAcked : Bool

/-- One call of `ack_to`'s callback. -/
def onAckedSeg (now : U64) (tsecrMs : Option U32) (a : Rack × AckTimes) (c : Seg × Bool) :
    Rack × AckTimes :=
  let s := c.1
  if c.2 then
    (a.1.onDelivered s now tsecrMs,
      { newestTs := maxB a.2.newestTs s.xmitTs
        retransAcked := a.2.retransAcked || s.flags.everRetrans
        oldestTs :=
          if s.flags.everRetrans then a.2.oldestTs
          else some (match a.2.oldestTs with
            | some k => minB k s.xmitTs
            | none => s.xmitTs) })
  else a

/-- The RTT sample an ACK yields, if any: our own send times, or TSecr when retransmitted data was
acknowledged (Karn). -/
def rttSample (now : U64) (tsecrMs : Option U32) (a : AckTimes) : Option U32 :=
  if a.retransAcked then
    (tsecrMs.filter fun t => !decide (seqGt t (a.newestTs.setWidth 32))).map fun t =>
      now.setWidth 32 - t
  else
    match a.oldestTs with
    | some x => tryNarrow 32 (satSub now x)
    | none => none

/-- Re-arm the USER TIMEOUT only on meaningful progress: at least one full segment acknowledged since
the last re-arm (or all work done). -/
def noteProgress (t : Tcb P) (acked : U32) : Tcb P :=
  let t : Tcb P := { t with persistBackoffMs := 0 }
  if t.userTimeoutMs = 0 then
    t
  else if ¬ t.hasSendWork then
    { t with userTimeoutDeadline := Deadline.OFF, utProgress := 0 }
  else
    let progress := satAdd t.utProgress acked
    if t.mssPayload.toNat ≤ progress.toNat ∨ ¬ t.userTimeoutDeadline.isArmed then
      { t with utProgress := 0, userTimeoutDeadline := t.after t.userTimeoutMs }
    else
      { t with utProgress := progress }

/-- An RTT sample below a minute feeds the estimator. -/
def sampleRtt (t : Tcb P) (sample : Option U32) : Tcb P :=
  match sample with
  | some r => if r.toNat < 60000 then t.updateRtt r else t
  | none => t

/-- Apply a cumulative ACK that advances SND.UNA by `acked`; the bytes delivered so far. -/
def cumulativeAck (ack acked mss : U32) (tsecrMs : Option U32) (delivered : U32) (t : Tcb P) :
    U32 × Tcb P :=
  let synAcked := t.synOutstanding
  let finAcked := t.finSent && decide (seqLe t.sndUna t.finSeq) && decide (seqGt ack t.finSeq)
  let a := t.rtx.ackTo ack
  let seen := a.calls.foldl (onAckedSeg t.nowMs tsecrMs) (t.rack, ⟨none, 0, false⟩)
  let sackedRemoved := satSub t.rtx.sacked a.queue.sacked
  -- Without SACK, bytes beyond the first segment were already credited by duplicate ACKs.
  let renoEaten := minB (satSub acked mss) t.renoSacked
  let delivered := satSub (satAdd delivered (satSub (satSub acked sackedRemoved) renoEaten))
    (ofFlag 32 synAcked)
  let dataAcked := satSub (satSub acked (ofFlag 32 finAcked)) (ofFlag 32 synAcked)
  let t' : Tcb P :=
    { t with
      rtx := a.queue
      rack := seen.1
      renoSacked := subIn t.renoSacked renoEaten (by rw [toNat_minB]; exact min_le_right _ _)
      sendRing := t.sendRing.consume dataAcked.toNat
      sndUna := ack
      sndAcked := satAdd t.sndAcked (acked.setWidth 64)
      synUnacked := false
      dupAcks := 0 }
  (delivered, (t'.sampleRtt (rttSample t.nowMs tsecrMs seen.2)).noteProgress
    (satAdd dataAcked (ofFlag 32 finAcked)))

/-! ## Path-MTU probe, send window, ECN -/

/-- A path-MTU probe that arrived proves the larger size: raise the cap one step, and keep probing
until the pre-clamp size is restored. -/
def pmtuProbeOnAck (t : Tcb P) : Tcb P :=
  let sacked : Bool :=
    match t.rtx.find t.pmtuProbeStart with
    | some i => (t.rtx.get i).any fun s => s.flags.sacked
    | none => false
  if t.pmtuProbeInflight ∧ (seqGe t.sndUna t.pmtuProbeEnd ∨ sacked) then
    let mss := maxB t.pmtuMss t.pmtuProbeMss
    let restored := decide (t.pmtuRestoreMss.toNat ≤ mss.toNat)
    { t with
      pmtuProbeInflight := false
      pmtuMss := mss
      pmtuRestoreMss := if restored then 0 else t.pmtuRestoreMss
      pmtuProbeAt := if restored then t.pmtuProbeAt else t.nowMs }
  else t

/-- Window update.  An ACK that advances SND.UNA may always update the window, and the WL1 candidate
is clamped to RCV.NXT. -/
def updateSendWindow (t : Tcb P) (seg : Segment) (priorUna : U32) : Tcb P :=
  let seq := if seqGt seg.seq t.rcvNxt then t.rcvNxt else seg.seq
  if seqGt seg.ack priorUna ∨ seqLt t.sndWl1 seq ∨ (t.sndWl1 = seq ∧ seqLe t.sndWl2 seg.ack) then
    let wnd := t.scalePeerWindow seg.window
    { t with
      sndWnd := wnd
      sndWl1 := seq
      sndWl2 := seg.ack
      wlPos := t.streamPos seq
      maxSndWnd := maxB t.maxSndWnd wnd }
  else t

/-- The peer echoes a congestion mark, and no reduction is in progress. -/
def echoesMark (t : Tcb P) (seg : Segment) : Bool :=
  t.ecnEnabled && seg.flags.ece && t.cc.state == .opened && t.sndUna != t.sndNxt

/-- ECN-Echo: reduce once per window, never retransmit. -/
def ecnEcho (t : Tcb P) (seg : Segment) (priorFlight mss : U32) : Tcb P :=
  if t.echoesMark seg then
    { t with cc := t.cc.enterCwr priorFlight t.sndNxt mss, sendCwrPending := true }
  else t

/-! ## Loss detection -/

/-- RACK loss detection; arms the reorder timer. -/
def rackDetect (t : Tcb P) : Bool × Tcb P :=
  let reo := t.rack.reoWnd t.srttMs t.cc.inLossRecovery t.rtx.sacked t.mssPayload
  let d := detectLoss t.rack t.rtx t.nowMs reo
  (d.1, { t with
    rtx := d.2.2
    rackDeadline :=
      match d.2.1 with
      | some w => Deadline.atMs (satAdd t.nowMs w)
      | none => Deadline.OFF })

/-- NewReno / DupThresh loss marking for ACKs without SACK information:
`(newly_lost, was_duplicate_ack)`. -/
def newrenoDetect (seg : Segment) (acked wndBefore : U32) (t : Tcb P) : (Bool × Bool) × Tcb P :=
  if acked = 0 then
    let dup := seg.payload.isEmpty && !seg.flags.fin && t.sndUna != t.sndNxt &&
      t.sndWnd == wndBefore
    if dup then
      let t : Tcb P := { t with dupAcks := satAdd t.dupAcks 1 }
      if t.dupAcks = 3 ∧ ¬ t.cc.inLossRecovery then
        ((true, true), { t with rtx := t.rtx.markLost 0 })
      else
        ((false, true), t)
    else
      ((false, false), t)
  -- Partial ACK during NewReno recovery: the next segment is lost too.
  else if ¬ t.sackEnabled ∧ t.cc.state = .recovery ∧ seqLt t.sndUna t.cc.recoveryPoint then
    ((true, false), { t with rtx := t.rtx.markLost 0 })
  else
    ((false, false), t)

/-- A duplicate ACK on a connection without SACK is taken to have delivered one segment. -/
def renoCredit (mss delivered : U32) : TcbM P U32 := do
  let t ← get
  let outstanding := t.sndNxt - t.dataUna
  if (satAdd t.renoSacked mss).toNat ≤ outstanding.toNat then
    if t.renoSacked.toNat + mss.toNat < 2 ^ 32 then
      modify fun t => { t with renoSacked := t.renoSacked + mss }
      return satAdd delivered mss
    else
      throw .panic
  else
    return delivered

/-- Start fast recovery. -/
def enterFastRecovery (t : Tcb P) (flight : U32) : Tcb P :=
  { t with
    cc :=
      if t.cc.state = .cwr then t.cc.cwrToRecovery
      else t.cc.enterRecovery flight t.sndUna t.sndNxt t.mssPayload
    stats.fastRecoveries := satAdd t.stats.fastRecoveries 1
    tlpEndSeq := none
    tlpDeadline := Deadline.OFF }

/-- Forget credit beyond what is outstanding, and enter recovery once something is marked lost. -/
def reactToLoss (t : Tcb P) (priorFlight : U32) : Tcb P :=
  let t : Tcb P := { t with renoSacked := minB t.renoSacked (t.sndNxt - t.dataUna) }
  if 0 < t.rtx.lost.toNat ∧ ¬ t.cc.inLossRecovery then t.enterFastRecovery priorFlight else t

/-- RACK whenever SACK is negotiated; ACKs without SACK blocks fall back to DupThresh / NewReno.
Returns whether something was newly marked lost, and the bytes delivered. -/
def detectLosses (seg : Segment) (sackPresent : Bool) (acked wndBefore mss delivered : U32) :
    TcbM P (Bool × U32) := do
  let t ← get
  let rackLost ← modifyGet fun t => if t.sackEnabled then t.rackDetect else (false, t)
  if sackPresent then
    return (rackLost, delivered)
  else
    let r ← modifyGet (newrenoDetect seg acked wndBefore)
    if r.2 && !t.sackEnabled then
      let delivered ← renoCredit mss delivered
      return (rackLost || r.1, delivered)
    else
      return (rackLost || r.1, delivered)

/-! ## Tail loss probe outcome and congestion control -/

/-- `TLP_process_ack` (RFC 8985 §7.4.2). -/
def tlpOnAck (t : Tcb P) (ack : U32) (dsack : Option (U32 × U32)) (sack : Bool) (delivered : U32) :
    Tcb P :=
  match t.tlpEndSeq with
  | none => t
  | some e =>
    if ¬ seqGe ack e then
      t
    else if ¬ t.tlpIsRetrans then
      { t with tlpEndSeq := none }
    else if dsack.any (fun b => b.2 == e) then
      -- The probe was unnecessary.
      { t with tlpEndSeq := none }
    else if seqGt ack e ∨ (¬ sack ∧ delivered = 0) then
      -- The probe repaired a lost tail: one congestion response.
      if t.cc.state = .opened then
        let ssthresh := maxB (t.cc.cwnd / 2) (satMul t.mssPayload 2)
        { t with tlpEndSeq := none, cc := { t.cc with ssthresh := ssthresh, cwnd := ssthresh } }
      else
        { t with tlpEndSeq := none }
    else t

/-- Whether the sender used its window this round, then roll the round over once it has been
acknowledged. -/
def takeCwndLimited (t : Tcb P) : Bool × Tcb P :=
  let inSs := decide (t.cc.cwnd.toNat < t.cc.ssthresh.toNat)
  let limited := t.cwndLimited ||
    (inSs && decide (t.cc.cwnd.toNat < (satMul t.pipeHiwat 2).toNat))
  (limited,
    if seqGe t.sndUna t.cwndLimitedSeq then
      { t with cwndLimited := false, pipeHiwat := t.pipe, cwndLimitedSeq := t.sndNxt }
    else t)

/-- Leave recovery once the ACK reached its end. -/
def exitRecovery (t : Tcb P) : Tcb P :=
  let x := t.cc.maybeExit t.sndUna
  { t with cc := x.2, rack := if x.1 then t.rack.onRecoveryExit else t.rack }

/-- Congestion control reacts to the ACK: PRR during a reduction, slow start / congestion avoidance
otherwise. -/
def congestionOnAck (t : Tcb P) (acked delivered mss : U32) (newlyLost : Bool) : Tcb P :=
  let l := t.exitRecovery.takeCwndLimited
  let t := l.2
  { t with
    cc :=
      if t.cc.inReduction then t.cc.prrUpdate delivered t.pipe mss (acked != 0 && !newlyLost)
      else t.cc.onAck delivered mss l.1 }

/-! ## Timers and our FIN -/

/-- Restart or stop the retransmission timers (RFC 6298 §5.2/5.3). -/
def rearmAfterAck (t : Tcb P) (acked : U32) : Tcb P :=
  (if t.sndUna = t.sndNxt then
    { t with rtoDeadline := Deadline.OFF, tlpDeadline := Deadline.OFF, rackDeadline := Deadline.OFF }
  else if acked ≠ 0 then t.armRto
  else t).maybeArmTlp

/-- Arm the 2·MSL timer on entry to `TIME_WAIT` (`tcb/input.rs`). -/
def enterTimeWait (t : Tcb P) : Tcb P :=
  { t with
    timeWaitDeadline := Deadline.atMs (satAdd t.nowMs TIME_WAIT_MS)
    timeWaitSinceMs := t.nowMs
    finWait2Deadline := Deadline.OFF
    keepaliveDeadline := Deadline.OFF
    userTimeoutDeadline := Deadline.OFF }

/-- Our FIN was acknowledged: on to the next closing state. -/
def ourFinAcked (t : Tcb P) : Tcb P :=
  if t.finSent ∧ t.sndUna = t.sndNxt then
    match t.state with
    | .finWait1 =>
      { t with
        state := .finWait2
        userTimeoutDeadline := Deadline.OFF
        finWait2Deadline :=
          if t.finWait2TimeoutMs ≠ 0 then t.after t.finWait2TimeoutMs else t.finWait2Deadline }
    | .closing => { t.enterTimeWait with state := .timeWait }
    | .lastAck => t.closeClean
    | _ => t
  else t

/-! ## The whole of it -/

/-- TSecr mapped back onto the host clock, if timestamps are in use and something was echoed. -/
def tsecrOf (t : Tcb P) (seg : Segment) : Option U32 :=
  match t.tsEnabled, seg.options.ts with
  | true, some (_, e) => if e ≠ 0 then some (t.tsecrToMs e) else none
  | _, _ => none

/-- What an ACK is measured by. -/
def ackMark (t : Tcb P) : AckMark := ⟨t.sndUna, t.dataUna, t.sndNxt, t.rtx.segs.toList, t.rtx.sacked⟩

/-- The record of an ACK that found the block as `before`.  Its ECN-Echo found it as `marked` and left it
as `echoed`; the update of congestion control found it as `found`, and was told `d`. -/
def ackRecord (before marked echoed found : Tcb P) (d : Bool × U32) (mss : U32) (t : Tcb P) :
    AckRecord where
  beforeEcho := marked.cc
  afterEcho := echoed.cc
  found := found.cc
  delivered := d.2
  pipe := found.pipe
  mss := mss
  newlyLost := d.1
  limited := found.exitRecovery.takeCwndLimited.1
  left := t.cc
  before := before.ackMark
  after := t.ackMark

/-- Record: an ACK was reacted to. -/
def recordAck (before marked echoed found : Tcb P) (d : Bool × U32) (mss : U32) (t : Tcb P) : Tcb P :=
  { t with history := t.history ++ [.acked (ackRecord before marked echoed found d mss t)] }

/-- What an acceptable ACK that is not old does, up to the consequences of our FIN being
acknowledged. -/
def reactToAck (seg : Segment) : TcbM P Unit := do
  let t ← get
  let priorUna := t.sndUna
  -- FlightSize before this ACK: a reduction this ACK starts is sized from it.
  let priorFlight := t.sndNxt - t.dataUna
  let mss := t.mssPayload
  let acked := seg.ack - priorUna
  modify fun t => { t with rack := t.rack.onAckStart }
  let s ← modifyGet (absorbSack seg mss)
  let delivered ← modifyGet fun t' =>
    if acked ≠ 0 then cumulativeAck seg.ack acked mss (t.tsecrOf seg) s.delivered t'
    else (s.delivered, t')
  modify pmtuProbeOnAck
  let t' ← get
  modify fun t => (t.updateSendWindow seg priorUna).ecnEcho seg priorFlight mss
  let echoed ← get
  let d ← detectLosses seg s.present acked t'.sndWnd mss delivered
  modify fun t => (t.reactToLoss priorFlight).tlpOnAck seg.ack s.dsack s.present d.2
  let found ← get
  modify fun t => (t.congestionOnAck acked d.2 mss d.1).rearmAfterAck acked
  modify (recordAck t t' echoed found d mss)

/-- What an acceptable ACK that is not old does. -/
def applyAck (seg : Segment) : TcbM P Unit := do
  reactToAck seg
  modify ourFinAcked

/-- Process the ACK field of a segment that passed `ack_acceptable`. -/
def processAck (seg : Segment) : TcbM P Unit := do
  -- Any acceptable ACK is proof of life.
  modify fun t => { t with rtxCount := 0 }
  let t ← get
  if seqLt seg.ack t.sndUna then
    -- An old ACK: ignore the field.
    return ()
  else
    applyAck seg

end Tcb

end TcpSansIo
