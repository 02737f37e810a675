import TcpSansIo.Tcb.Ack

/-!
# Inbound segments (`tcb/input.rs`)

Segment acceptance and the per-state receive logic: LISTEN, SYN-SENT, SYN-RECEIVED, and the
synchronized states in the RFC's check order (sequence acceptability and PAWS, RST, SYN, the ACK bit,
ACK acceptability, ACK processing, text, FIN).
-/

namespace TcpSansIo

open FixedWidth

variable {P : Params}

namespace Tcb

/-! ## Small questions -/

/-- Segment acceptability, against the free space of the receive ring. -/
def acceptable (t : Tcb P) (seq segLen : U32) : Bool :=
  let wnd : U32 := BitVec.ofNat 32 t.recvRing.free
  let nxt := t.rcvNxt
  if segLen = 0 then
    decide (seqInRange seq nxt (nxt + wnd + 1))
  else if wnd = 0 then
    false
  else
    decide (seqInRange seq nxt (nxt + wnd)) ||
      decide (seqInRange (seq + (segLen - 1)) nxt (nxt + wnd))

/-- Whether an unacceptable data or FIN segment could be the peer's own (re)transmission. -/
def mayAnswerAtOnce (t : Tcb P) (seg : Segment) : Bool :=
  (!seg.payload.isEmpty || seg.flags.fin) && seg.flags.ack && !seg.flags.syn && !seg.flags.rst &&
    t.ackAcceptable seg.ack && (!t.tsEnabled || seg.options.ts.isSome)

/-- PAWS: drop a data-bearing segment whose timestamp is older than `TS.Recent`. -/
def pawsReject (t : Tcb P) (seg : Segment) : Bool :=
  if !t.tsEnabled || seg.flags.rst || (seg.payload.isEmpty && !seg.flags.fin) then
    false
  else
    match seg.options.ts with
    | none => false
    | some (tsval, _) =>
      if PAWS_IDLE_MS.toNat < (satSub t.nowMs t.tsRecentStamp).toNat then false
      else decide (seqLt tsval t.tsRecent)

/-- TS.Recent follows only segments that cover `Last.ACK.sent`. -/
def updateTsRecent (t : Tcb P) (seg : Segment) : Tcb P :=
  match t.tsEnabled, seg.options.ts with
  | true, some (tsval, _) =>
    if seqLe seg.seq t.lastAckSent ∧ seqGe tsval t.tsRecent then
      { t with tsRecent := tsval, tsRecentStamp := t.nowMs }
    else t
  | _, _ => t

/-- CE and CWR on data segments move the echo state. -/
def updateEcnEcho (t : Tcb P) (seg : Segment) : Tcb P :=
  if t.ecnEnabled ∧ ¬ seg.payload.isEmpty then
    { t with ceObserved := seg.ecn == Ecn.CE || (t.ceObserved && !seg.flags.cwr) }
  else t

/-- An acceptable segment arrived: the keepalive idle clock restarts. -/
def onPeerAlive (t : Tcb P) : Tcb P :=
  { t with
    keepaliveProbes := 0
    keepaliveDeadline :=
      if t.keepaliveIdleMs ≠ 0 ∧ t.keepaliveApplies then t.after t.keepaliveIdleMs
      else t.keepaliveDeadline }

/-- Common setup on entering ESTABLISHED. -/
def onEstablished (t : Tcb P) : Tcb P :=
  ({ t with
    cc := Reno.new (initialWindow t.mssPayload)
    cwndLimited := false
    cwndLimitedSeq := t.sndNxt
    pipeHiwat := 0
    lastDataSendMs := t.nowMs
    rcvAdvEdge := if seqGt t.rcvAdvEdge t.rcvNxt then t.rcvAdvEdge else t.rcvNxt } : Tcb P).onPeerAlive

def onResetReceived (t : Tcb P) : Tcb P :=
  match t.state with
  | .established | .finWait1 | .finWait2 | .closeWait => t.abortLocal
  | _ => t.closeClean

/-! ## The peer's FIN -/

def advanceStateOnRemoteFin (t : Tcb P) : Tcb P :=
  match t.state with
  | .established => { t with state := .closeWait }
  | .finWait1 =>
    if t.finSent ∧ t.sndUna = t.sndNxt then { t.enterTimeWait with state := .timeWait }
    else { t with state := .closing }
  | .finWait2 => { t.enterTimeWait with state := .timeWait }
  | _ => t

/-- The peer's FIN sits at `RCV.NXT`: consume it, and forget what is parked beyond it. -/
def consumeFin (t : Tcb P) : Tcb P :=
  ({ t with
    rcvNxt := t.rcvNxt + 1
    ooo := t.ooo.clear
    oooFin := none } : Tcb P).advanceStateOnRemoteFin

/-- Handle the FIN at sequence number `fin` of a segment starting at `start`: consumed at
`RCV.NXT`, held beyond it (the lowest wins; a repeat keeps the earliest start). -/
def receiveFin (t : Tcb P) (start fin : U32) : Tcb P :=
  if fin = t.rcvNxt then
    t.consumeFin
  else if seqGt fin t.rcvNxt ∧ (fin - t.rcvNxt).toNat ≤ t.recvRing.free then
    match t.oooFin with
    | some h =>
      if seqLt h.seq fin ∨ (h.seq = fin ∧ seqLe h.start start) then t
      else { t with oooFin := some ⟨start, fin⟩ }
    | none => { t with oooFin := some ⟨start, fin⟩ }
  else t

/-- Whether out-of-order data parked at `fin` comes before a FIN segment starting at `start`. -/
def parkedAheadOf (t : Tcb P) (start fin : U32) : Bool :=
  (t.ooo.containing fin).any fun b => decide (seqLe b.1 start)

/-- Consume a FIN held out of order once `RCV.NXT` reaches it; whether it did. -/
def maybeConsumeOooFin (t : Tcb P) : Bool × Tcb P :=
  if t.oooFin.any (fun h => h.seq == t.rcvNxt) && t.state.canRecv then (true, t.consumeFin)
  else (false, t)

/-! ## Segment text -/

/-- Duplicate bytes `[l, r)` trimmed to sequence space this connection can have received, if there is
anything to report. -/
def dsackBlock (t : Tcb P) (l r : U32) : Option (U32 × U32) :=
  let span :=
    if P.BUF ≤ t.stats.bytesReceived.toNat then BitVec.ofNat 32 P.BUF else t.rcvNxt - (t.irs + 1)
  let floor := t.rcvNxt - span
  let l := if seqLt l floor then floor else l
  if t.sackEnabled ∧ seqLt l r then some (l, r) else none

/-- The D-SACK to report after duplicate bytes `[l, r)` arrived. -/
def dsackAfter (t : Tcb P) (l r : U32) : Option (U32 × U32) := (t.dsackBlock l r).or t.dsack

/-- Queue a D-SACK for duplicate bytes `[l, r)`. -/
def noteDsack (t : Tcb P) (l r : U32) : Tcb P := { t with dsack := t.dsackAfter l r }

/-- Count `n` duplicate bytes. -/
def countDup (t : Tcb P) (n : ℕ) : Tcb P :=
  { t with stats.dupBytesReceived := satAdd t.stats.dupBytesReceived (BitVec.ofNat 64 n) }

/-- How far parked bytes may be absorbed: never past a FIN that is processed before them. -/
def limitAtFin (rcvNxt new : U32) (fin : Option U32) : U32 :=
  match fin with
  | some f => if seqGe f rcvNxt ∧ seqGt new f then f else new
  | none => new

/-- Make parked out-of-order bytes that now abut `RCV.NXT` readable; whether there were any. -/
def absorbOoo (t : Tcb P) (segFin : Option U32) : Bool × Tcb P :=
  let a := t.ooo.advance t.rcvNxt
  let t : Tcb P := { t with ooo := a.2 }
  let new := limitAtFin t.rcvNxt (limitAtFin t.rcvNxt a.1 segFin) (t.oooFin.map HeldFin.seq)
  let n := new - t.rcvNxt
  if n = 0 then
    (false, t)
  else
    let c := t.recvRing.commit n.toNat
    (true, { t with
      recvRing := c.2
      rcvNxt := t.rcvNxt + BitVec.ofNat 32 c.1
      stats.bytesReceived := satAdd t.stats.bytesReceived (BitVec.ofNat 64 c.1) })

/-- Append in-order text.  A held FIN it covers was not the end of the stream. -/
def appendText (t : Tcb P) (data : List U8) : Tcb P :=
  let w := t.recvRing.write data
  let rcvNxt := t.rcvNxt + BitVec.ofNat 32 w.1
  { t with
    recvRing := w.2
    rcvNxt := rcvNxt
    stats.bytesReceived := satAdd t.stats.bytesReceived (BitVec.ofNat 64 w.1)
    oooFin := t.oooFin.filter fun h => !decide (seqGt rcvNxt h.seq) }

/-- In-order text: append it, and absorb what it connects to. -/
def receiveInOrder (t : Tcb P) (data : List U8) (segFin : Option U32) : Bool × Tcb P :=
  (t.appendText data).absorbOoo segFin

/-- Out-of-order text starting at `seq`: park it `off` past the write cursor, if the range tracker has
room.  Parked text from a segment that starts no later than a held FIN's overrides that FIN. -/
def receiveOutOfOrder (t : Tcb P) (seq : U32) (off : ℕ) (data : List U8) : Tcb P :=
  let stop := seq + BitVec.ofNat 32 data.length
  let ins := t.ooo.insert seq stop t.rcvNxt
  match ins.1 with
  | .stored dup =>
    let t : Tcb P := { t with ooo := ins.2, recvRing := (t.recvRing.writeAt off data).2 }
    let t := if dup then (t.countDup data.length).noteDsack seq stop else t
    { t with
      oooFin := t.oooFin.filter fun h => !(decide (seqLe seq h.start) && decide (seqGt stop h.seq)) }
  | .full => { t with ooo := ins.2, stats.oooDrops := satAdd t.stats.oooDrops 1 }

/-- Accept payload bytes starting at `seq`, at or beyond `RCV.NXT`; whether an immediate ACK is
due. -/
def receiveText (t : Tcb P) (seq : U32) (data : List U8) (segFin : Option U32) (ackNow : Bool) :
    Bool × Tcb P :=
  let free := t.recvRing.free
  let off := (seq - t.rcvNxt).toNat
  if free ≤ off then
    (true, t)
  else
    let data := data.take (free - off)
    if off = 0 then
      let r := t.receiveInOrder data segFin
      (r.1 || ackNow, r.2)
    else
      (true, t.receiveOutOfOrder seq off data)

/-- Accept payload into the receive ring; whether an immediate ACK is due.  Bytes below `RCV.NXT` are
duplicates and are trimmed. -/
def receivePayload (t : Tcb P) (seg : Segment) (segFin : Option U32) : Bool × Tcb P :=
  if seqLt seg.seq t.rcvNxt then
    let lead := (t.rcvNxt - seg.seq).toNat
    let rest := seg.payload.drop lead
    if rest.isEmpty then
      (true, t)
    else
      ((t.countDup lead).noteDsack seg.seq t.rcvNxt).receiveText t.rcvNxt rest segFin true
  else
    t.receiveText seg.seq seg.payload segFin false

/-- This segment's FIN, if it is to be processed: data parked at its sequence number in a block that
starts no later comes first. -/
def processedFin (t : Tcb P) (seg : Segment) : Option U32 :=
  let fin := seg.seq + seg.payloadLen
  if seg.flags.fin && !t.parkedAheadOf seg.seq fin then some fin else none

def takeText (t : Tcb P) (seg : Segment) (segFin : Option U32) : Bool × Tcb P :=
  if seg.payload.isEmpty then (false, t) else t.receivePayload seg segFin

/-- A FIN is always acknowledged at once, an overridden one as a duplicate. -/
def takeFin (t : Tcb P) (seg : Segment) (segFin : Option U32) : Bool × Tcb P :=
  match segFin with
  | some f => (true, t.receiveFin seg.seq f)
  | none => (seg.flags.fin, t)

/-- Text and FIN of an acceptable segment, taken only until the peer's FIN; whether an immediate ACK
is due. -/
def receiveSegment (t : Tcb P) (seg : Segment) : Bool × Tcb P :=
  if ¬ t.state.canRecv then
    (false, t)
  else
    let segFin := t.processedFin seg
    let p := t.takeText seg segFin
    let f := p.2.takeFin seg segFin
    let c := f.2.maybeConsumeOooFin
    (p.1 || f.1 || c.1, c.2)

/-! ## Synchronized states -/

/-- ACK at least every second full-sized segment, otherwise within `DELAYED_ACK_MS`.  The result of
the ACK sent here is ignored. -/
def scheduleDelayedAck (payloadLen : U32) (t : Tcb P) : Tcb P :=
  let full := payloadLen / (maxB t.localMss 1).setWidth 32
  let units : U8 := (clampB full 1 255).setWidth 8
  let t : Tcb P := { t with delayedAckCount := satAdd t.delayedAckCount units, pendingAck := true }
  if 2 ≤ t.delayedAckCount.toNat then
    Proc.final ((sendPureAck : TcbM P Unit) t)
  else if ¬ t.ackDeadline.isArmed then
    { t with ackDeadline := Deadline.atMs (satAdd t.nowMs DELAYED_ACK_MS) }
  else t

/-- The answer to the text and FIN of an acceptable segment. -/
def answerText (seg : Segment) (ackNow advanced : Bool) : TcbM P Unit :=
  if ackNow then
    sendPureAck
  else if advanced then
    modify (scheduleDelayedAck seg.payloadLen)
  else if !seg.payload.isEmpty || seg.flags.fin then
    -- Text or a FIN after the peer's FIN: nothing was taken.
    sendOowAck
  else
    return ()

/-- A segment that passed every check: its ACK, then its text and FIN.  Of a probe of our zero window
only the ACK counts. -/
def acceptSegment (seg : Segment) (zeroWindowProbe : Bool) : TcbM P Unit := do
  modify fun t => ((t.updateTsRecent seg).updateEcnEcho seg).onPeerAlive
  processAck seg
  let t ← get
  if t.state = .closed then
    -- Our FIN was acknowledged in LAST-ACK.
    return ()
  else if zeroWindowProbe then
    sendPureAck
    maybeSendData
  else
    let ackNow ← modifyGet fun t => t.receiveSegment seg
    let t' ← get
    answerText seg ackNow (t'.rcvNxt != t.rcvNxt)
    maybeSendData

/-- The ACK field of an unacceptable segment is still good: the segment ends at or after
`Last.ACK.sent`, starts no later than the right window edge, and passes PAWS. -/
def ackLive (t : Tcb P) (seg : Segment) : Bool :=
  let stop := seg.seq + seg.payloadLen
  let rightEdge := t.rcvNxt + BitVec.ofNat 32 t.recvRing.free
  decide (seqGe (stop + ofFlag 32 seg.flags.fin) t.lastAckSent) && decide (seqLe seg.seq rightEdge) &&
    !t.pawsReject seg

/-- A retransmitted FIN in TIME_WAIT restarts 2·MSL, but never beyond `TIME_WAIT_MAX_MS` after
entry. -/
def restartTimeWait (t : Tcb P) : Tcb P :=
  { t with
    timeWaitDeadline := Deadline.atMs
      (minB (satAdd t.nowMs TIME_WAIT_MS) (satAdd t.timeWaitSinceMs TIME_WAIT_MAX_MS)) }

/-- How an unacceptable segment with an acceptable ACK is answered. -/
def answerUnacceptable (seg : Segment) (live : Bool) : TcbM P Unit := do
  let t ← get
  let stop := seg.seq + seg.payloadLen
  let atOnce := t.mayAnswerAtOnce seg
  if atOnce && t.state == .timeWait && seg.flags.fin && stop + 1 == t.rcvNxt then
    modify restartTimeWait
    sendPureAck
  else if atOnce && !seg.payload.isEmpty && decide (seqLe stop t.rcvNxt) then
    -- Duplicate data: answered at once, with a D-SACK.
    modify fun t => (t.countDup seg.payload.length).noteDsack seg.seq stop
    sendPureAck
    if live then maybeSendData else return ()
  else if atOnce && decide (seqGe seg.seq t.rcvNxt) && t.recvRing.free == 0 then
    -- Beyond the window: the peer probing our zero window.
    sendPureAck
    if live then maybeSendData else return ()
  else
    sendOowAck
    if live then maybeSendData else return ()

/-- Step 1 failed. -/
def onUnacceptable (seg : Segment) : TcbM P Unit := do
  let t ← get
  if seg.flags.rst then
    return ()
  else if seg.flags.syn || !seg.flags.ack || !t.ackAcceptable seg.ack then
    sendOowAck
  else if t.ackLive seg then
    modify fun t => (t.updateTsRecent seg).onPeerAlive
    processAck seg
    let t ← get
    if t.state = .closed then
      return ()
    else
      answerUnacceptable seg true
  else
    answerUnacceptable seg false

/-- Whether the window check admits the segment.  A bare FIN at `RCV.NXT` needs no buffer space. -/
def segmentAcceptable (t : Tcb P) (seg : Segment) : Bool :=
  t.acceptable seg.seq seg.seqLen ||
    (seg.flags.fin && seg.payload.isEmpty && seg.seq == t.rcvNxt)

/-- A segment at `RCV.NXT` into a zero window has its control fields processed, its text dropped. -/
def zeroWindowProbe (t : Tcb P) (seg : Segment) : Bool :=
  !t.segmentAcceptable seg && seg.seq == t.rcvNxt && t.recvRing.free == 0

def onSynchronized (seg : Segment) : TcbM P Unit := do
  let t ← get
  if !seg.flags.ack && !seg.flags.syn && !seg.flags.rst then
    return ()
  else if !t.segmentAcceptable seg && !t.zeroWindowProbe seg then
    onUnacceptable seg
  else if t.pawsReject seg then
    if t.mayAnswerAtOnce seg then sendPureAck else sendOowAck
  else if seg.flags.rst then
    if seg.seq = t.rcvNxt then modify onResetReceived else sendOowAck
  else if seg.flags.syn then
    sendOowAck
  else if !seg.flags.ack then
    return ()
  else if !t.ackAcceptable seg.ack then
    sendOowAck
  else
    acceptSegment seg (t.zeroWindowProbe seg)

/-! ## Handshake -/

/-- Record the peer's SYN: sequence numbers, window (never scaled) and options. -/
def absorbSynOptions (t : Tcb P) (seg : Segment) : Tcb P :=
  { t with
    irs := seg.seq
    rcvNxt := seg.seq + 1
    rcvAdvEdge := seg.seq + 1
    lastAckSent := seg.seq + 1
    sndWnd := seg.window.setWidth 32
    maxSndWnd := seg.window.setWidth 32
    sndWl1 := seg.seq
    sndWl2 := seg.ack
    wlPos := t.received - 1
    peerMss :=
      match seg.options.mss with
      | some mss => maxB mss MIN_PEER_MSS
      | none => t.peerMss
    wsOk := seg.options.wscale.isSome
    sndWscale :=
      match seg.options.wscale with
      | some ws => minB ws 14
      | none => 0
    rcvWscale := if seg.options.wscale.isSome then P.WS else 0
    tsEnabled := seg.options.ts.isSome || t.tsEnabled
    tsRecent :=
      match seg.options.ts with
      | some (tsval, _) => tsval
      | none => t.tsRecent
    tsRecentStamp := if seg.options.ts.isSome then t.nowMs else t.tsRecentStamp
    sackEnabled := seg.options.sackPermitted }

/-- RTT sample from the SYN's (or SYN-ACK's) own send time; after a retransmission, from a TSecr
between our first SYN and now. -/
def handshakeRttSample (t : Tcb P) (seg : Segment) : Tcb P :=
  t.sampleRtt <|
    if ¬ t.synRetransmitted then
      tryNarrow 32 (satSub t.nowMs t.synXmitMs)
    else
      match t.tsEnabled, seg.options.ts with
      | true, some (_, tsecr) =>
        if tsecr ≠ 0 then
          let ms := t.tsecrToMs tsecr
          let now : U32 := t.nowMs.setWidth 32
          if seqGe ms (t.synXmitMs.setWidth 32) ∧ seqLe ms now then some (now - ms) else none
        else none
      | _, _ => none

/-- `<SEQ=SEG.ACK><RST>`, out of the rate-limited budget. -/
def refuseAck (seg : Segment) : TcbM P Unit := do
  let allowed ← modifyGet oowAllowed
  if allowed then emitRstTo seg seg.ack 0 { rst := true } else return ()

/-- The half-open block a SYN to a listener creates. -/
def halfOpen (t : Tcb P) (seg : Segment) : Tcb P :=
  let t : Tcb P := { t.resetConnectionState with remoteEp := ⟨seg.srcIp, seg.srcPort⟩ }
  let iss := t.passiveIss t.remoteEp seg.seq
  let t : Tcb P :=
    ({ t with
      iss := iss
      sndUna := iss
      sndAcked := 0
      sndNxt := iss
      tsOffset := t.tsOffsetFor t.remoteEp } : Tcb P).absorbSynOptions seg
  { t with
    ecnEnabled := seg.flags.ece && seg.flags.cwr
    state := .synRcvd
    synRcvdRetries := 0
    synXmitMs := t.nowMs }

def acceptSynStateful (seg : Segment) : TcbM P Unit := do
  modify fun t => t.halfOpen seg
  let _ ← emitSynack
  modify fun t : Tcb P => ({ t with sndNxt := t.iss + 1, synUnacked := true } : Tcb P).armRto

/-- The block a SYN-ACK to our SYN leaves: ESTABLISHED, with our SYN acknowledged. -/
def activeOpened (t : Tcb P) (seg : Segment) : Tcb P :=
  let t := t.absorbSynOptions seg
  let t : Tcb P :=
    ({ t with
      ecnEnabled := seg.flags.ece && !seg.flags.cwr
      sndUna := seg.ack
      sndAcked := (seg.ack - t.iss).setWidth 64
      synUnacked := false
      rtxCount := 0 } : Tcb P).handshakeRttSample seg
  ({ t with rtoDeadline := Deadline.OFF, state := .established } : Tcb P).onEstablished

/-- Data carried on a SYN-ACK is not accepted. -/
def completeActiveOpen (seg : Segment) : TcbM P Unit := do
  modify fun t => t.activeOpened seg
  sendPureAck

/-- A SYN without ACK in SYN-SENT: enter SYN-RECEIVED and answer with a SYN-ACK. -/
def simultaneousOpen (seg : Segment) : TcbM P Unit := do
  modify fun t => { t.absorbSynOptions seg with
    ecnEnabled := false
    state := .synRcvd
    synRcvdRetries := 0
    -- No unambiguous handshake RTT sample.
    synRetransmitted := true }
  let _ ← emitSynack
  modify armRto

def onSynSent (seg : Segment) : TcbM P Unit := do
  let t ← get
  -- SND.UNA (= ISS) < SEG.ACK <= SND.NXT
  let ackOk := seg.flags.ack && decide (seqGt seg.ack t.iss) && decide (seqLe seg.ack t.sndNxt)
  if seg.flags.ack && !ackOk then
    if seg.flags.rst then return () else refuseAck seg
  else if seg.flags.rst then
    if ackOk then modify abortLocal else return ()
  else if !seg.flags.syn then
    return ()
  else if ackOk then
    completeActiveOpen seg
  else
    simultaneousOpen seg

/-- The block the ACK of our SYN-ACK leaves: ESTABLISHED, with our SYN acknowledged. -/
def passiveOpened (t : Tcb P) (seg : Segment) : Tcb P :=
  let wnd := if seg.flags.syn then seg.window.setWidth 32 else t.scalePeerWindow seg.window
  let t : Tcb P :=
    ({ t with
      sndUna := seg.ack
      sndAcked := (seg.ack - t.iss).setWidth 64
      synUnacked := false
      sndWnd := wnd
      maxSndWnd := maxB t.maxSndWnd wnd
      sndWl1 := seg.seq
      sndWl2 := seg.ack
      wlPos := t.streamPos seg.seq
      synRetransmitted := decide (0 < t.synRcvdRetries.toNat) || t.synRetransmitted } :
      Tcb P).handshakeRttSample seg
  ({ t with
    rtoDeadline := Deadline.OFF
    rtxCount := 0
    synRcvdRetries := 0
    state := .established } : Tcb P).onEstablished

def completePassiveOpen (seg : Segment) : TcbM P Unit := do
  modify fun t => t.passiveOpened seg
  -- The third ACK may carry data or a FIN.
  if seg.flags.syn then sendPureAck else onSynchronized seg

def onSynRcvd (seg : Segment) : TcbM P Unit := do
  let t ← get
  if seg.flags.rst then
    -- Only an exact match resets; any other RST in the window draws a challenge ACK.
    if !t.acceptable seg.seq 0 then
      return ()
    else if seg.seq ≠ t.rcvNxt then
      sendOowAck
    else if t.isListener then
      modify resetToListenOrClosed
    else
      modify abortLocal
  else if seg.flags.syn then
    if seg.flags.ack then
      -- Simultaneous open: the peer's SYN-ACK acknowledges our SYN.
      if !t.isListener && seg.seq == t.irs && seg.ack == t.iss + 1 then
        completePassiveOpen seg
      else
        refuseAck seg
    else if seg.seq = t.irs then
      -- Retransmitted SYN: our SYN-ACK was lost.
      let allowed ← modifyGet oowAllowed
      if allowed then
        let _ ← emitSynack
        return ()
      else return ()
    else
      return ()
  else if !seg.flags.ack then
    return ()
  else if seg.ack ≠ t.iss + 1 then
    refuseAck seg
  else if !t.acceptable seg.seq (seg.payloadLen + ofFlag 32 seg.flags.fin) then
    sendOowAck
  else
    completePassiveOpen seg

/-! ## Cookies (`tcb/cookie.rs`) -/

/-- The connection state a validated cookie encodes. -/
def cookieOpened (t : Tcb P) (seg : Segment) (opts : CookieOpts) : Tcb P :=
  let remote : Endpoint := ⟨seg.srcIp, seg.srcPort⟩
  let cookie := seg.ack - 1
  let peerSeq := seg.seq - 1
  let t : Tcb P := { t.resetConnectionState with remoteEp := remote }
  let ts := seg.options.ts
  let t : Tcb P :=
    { t with
      -- The key the SYN-ACK was built with also keys the timestamp offset.
      tsOffset :=
        if opts.prevKey && !t.secretSet then t.tsOffsetWith t.prevCookieSecret remote
        else t.tsOffsetFor remote
      iss := cookie
      irs := peerSeq
      rcvNxt := peerSeq + 1
      sndUna := seg.ack
      sndAcked := (seg.ack - cookie).setWidth 64
      sndNxt := seg.ack
      peerMss := maxB opts.mss MIN_PEER_MSS
      wsOk := opts.wscale.isSome || t.wsOk
      sndWscale := opts.wscale.getD t.sndWscale
      rcvWscale := if opts.wscale.isSome then P.WS else t.rcvWscale
      tsEnabled := ts.isSome || t.tsEnabled
      tsRecent :=
        match ts with
        | some (tsval, _) => tsval
        | none => t.tsRecent
      tsRecentStamp := if ts.isSome then t.nowMs else t.tsRecentStamp
      sackEnabled := if ts.isSome then opts.sack else t.sackEnabled
      ecnEnabled := if ts.isSome then opts.ecn else t.ecnEnabled
      sndWl1 := seg.seq
      sndWl2 := seg.ack
      wlPos := t.received
      rcvAdvEdge := peerSeq + 1
      lastAckSent := peerSeq + 1 }
  let wnd := t.scalePeerWindow seg.window
  ({ t with
    sndWnd := wnd
    maxSndWnd := wnd
    cc := Reno.new (initialWindow t.mssPayload)
    state := .established } : Tcb P).onEstablished

/-- Recover the connection state a validated cookie encodes, enter ESTABLISHED, and process the
segment normally. -/
def promoteViaCookie (seg : Segment) (opts : CookieOpts) : TcbM P Unit := do
  modify fun t => t.cookieOpened seg opts
  onSynchronized seg

def tryPromoteViaCookie (seg : Segment) : TcbM P Bool := do
  let t ← get
  match t.validateCookie seg with
  | some opts =>
    promoteViaCookie seg opts
    return true
  | none => return false

/-! ## Dispatch -/

def onListen (seg : Segment) : TcbM P Unit := do
  let t ← get
  if seg.flags.rst then
    return ()
  else if seg.flags.ack then
    if !seg.flags.syn then
      -- Possibly the third leg of a cookie handshake; otherwise dropped silently.
      if t.cookieSecretSet then
        let _ ← tryPromoteViaCookie seg
        return ()
      else
        return ()
    else
      refuseAck seg
  else if !seg.flags.syn || seg.flags.fin then
    return ()
  else
    acceptSynStateful seg

/-- A half-open whose SYN-ACK already needed a retransmission yields to a SYN from a new peer. -/
def mayReplaceHalfOpen (t : Tcb P) (seg : Segment) : Bool :=
  t.state == .synRcvd && t.isListener && seg.flags.syn && !seg.flags.ack && !seg.flags.rst &&
    !seg.flags.fin && decide (1 ≤ t.synRcvdRetries.toNat)

/-- Segment from a peer other than the half-open's, while a listener's only slot is busy: a SYN draws
a cookie SYN-ACK, a valid cookie ACK takes over the slot. -/
def onBusyListener (seg : Segment) : TcbM P Unit := do
  let t ← get
  if t.state ≠ .synRcvd ∨ ¬ t.isListener ∨ ¬ t.cookieSecretSet then
    throw (.tcp .notForUs)
  else if seg.flags.syn && !seg.flags.ack && !(seg.flags.rst || seg.flags.fin) then
    emitCookieSynack seg
  else if seg.flags.ack && !seg.flags.syn && !seg.flags.rst then
    match t.validateCookie seg with
    | some opts =>
      modify resetToListenOrClosed
      promoteViaCookie seg opts
    | none => throw (.tcp .notForUs)
  else
    throw (.tcp .notForUs)

/-- The segment goes to its state's handler. -/
def route (seg : Segment) : TcbM P Unit := do
  let t ← get
  match t.state with
  | .closed => throw (.tcp .invalidState)
  | .listen => onListen seg
  | .synSent => onSynSent seg
  | .synRcvd => onSynRcvd seg
  | .established | .finWait1 | .finWait2 | .closeWait | .closing | .lastAck | .timeWait =>
    onSynchronized seg

/-- One more segment came in. -/
def countIn (t : Tcb P) : Tcb P := { t with stats.segsIn := satAdd t.stats.segsIn 1 }

def dispatch (seg : Segment) : TcbM P Unit := do
  modify countIn
  route seg

/-- The segment comes from the peer this block is (or was) connected to. -/
def fromRemote (t : Tcb P) (seg : Segment) : Bool :=
  seg.srcIp == t.remoteEp.ip && seg.srcPort == t.remoteEp.port

/-- `seg` travels on the 4-tuple this block is connected on. -/
def OnTuple (t : Tcb P) (seg : Segment) : Prop :=
  seg.dstIp = t.localEp.ip ∧ seg.dstPort = t.localEp.port ∧
    seg.srcIp = t.remoteEp.ip ∧ seg.srcPort = t.remoteEp.port

instance (t : Tcb P) (seg : Segment) : Decidable (t.OnTuple seg) :=
  inferInstanceAs (Decidable (_ ∧ _))

def injectSegment (seg : Segment) : TcbM P Unit := do
  let t ← get
  if seg.dstIp ≠ t.localEp.ip ∨ seg.dstPort ≠ t.localEp.port then
    throw (.tcp .notForUs)
  else if t.state ≠ .listen ∧ ¬ t.fromRemote seg then
    if t.mayReplaceHalfOpen seg then
      modify resetToListenOrClosed
      dispatch seg
    else
      onBusyListener seg
  else
    dispatch seg

end Tcb

end TcpSansIo
