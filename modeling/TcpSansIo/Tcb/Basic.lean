import TcpSansIo.Tcb.Types

/-!
# Life cycle and shared helpers (`tcb/mod.rs`)

Construction, the reset of all per-connection state, teardown, and the small questions every other
part of the block asks.  A `&mut self` method that cannot fail is a function on the block.
-/

namespace TcpSansIo

open FixedWidth

variable {P : Params}

namespace Tcb

/-! ## Reset and teardown -/

/-- Reset all per-connection state, keeping the endpoints, knobs and secrets. -/
def resetConnectionState (t : Tcb P) : Tcb P :=
  let localMss := satSub t.mtu HDR_LEN
  { t with
    epoch := t.epoch + 1
    accepted := []
    delivered := []
    sent := []
    probed := []
    connGen := t.connGen + 1
    iss := t.cfgIss
    sndUna := t.cfgIss
    sndNxt := t.cfgIss
    sndWnd := 0
    maxSndWnd := 0
    sndWl1 := 0
    sndWl2 := 0
    wlPos := 0
    rcvNxt := 0
    rcvWnd := BitVec.ofNat 32 P.BUF
    irs := 0
    rcvAdvEdge := 0
    lastAckSent := 0
    localMss := localMss
    peerMss := DEFAULT_PEER_MSS
    pmtuMss := localMss
    pmtuRestoreMss := 0
    pmtuProbeMss := 0
    pmtuProbeInflight := false
    pmtuProbeStart := 0
    pmtuProbeEnd := 0
    pmtuProbeAt := 0
    pmtuProbeBackoffMs := 0
    tsEnabled := false
    tsRecent := 0
    tsRecentStamp := 0
    tsOffset := 0
    wsOk := false
    sndWscale := 0
    rcvWscale := 0
    sackEnabled := false
    ecnEnabled := false
    ceObserved := false
    sendCwrPending := false
    rtx := t.rtx.clear
    rack := Rack.new
    rackDeadline := Deadline.OFF
    tlpDeadline := Deadline.OFF
    tlpEndSeq := none
    tlpIsRetrans := false
    dupAcks := 0
    renoSacked := 0
    dsackSegs := 0
    history := []
    cc := Reno.new (initialWindow (localMss.setWidth 32))
    cwndLimited := false
    cwndLimitedSeq := t.cfgIss
    pipeHiwat := 0
    lastDataSendMs := t.nowMs
    synXmitMs := 0
    synRetransmitted := false
    synUnacked := false
    sndAcked := 0
    sendRing := t.sendRing.clear
    recvRing := t.recvRing.clear
    ooo := t.ooo.clear
    oooFin := none
    dsack := none
    rtoMs := t.initRtoMs
    srttMs := 0
    rttvarMs := 0
    rttFirstSample := false
    rtoDeadline := Deadline.OFF
    rtxCount := 0
    pendingAck := false
    delayedAckCount := 0
    ackDeadline := Deadline.OFF
    persistDeadline := Deadline.OFF
    persistBackoffMs := 0
    finSent := false
    finSeq := 0
    timeWaitDeadline := Deadline.OFF
    timeWaitSinceMs := 0
    finWait2Deadline := Deadline.OFF
    error := none
    txRing := t.txRing.clear
    synRcvdRetries := 0
    keepaliveProbes := 0
    keepaliveDeadline := Deadline.OFF
    userTimeoutDeadline := Deadline.OFF
    utProgress := 0
    lastOowMs := Deadline.OFF
    stats := {} }

/-- Revert from a half-open passive state back to `LISTEN` (or `CLOSED` if this TCB was never a
listener). -/
def resetToListenOrClosed (t : Tcb P) : Tcb P :=
  { t.resetConnectionState with
    remoteEp := ⟨(0, 0, 0, 0), 0⟩
    state := if t.isListener then .listen else .closed }

/-- Disarm every timer. -/
def disarmTimers (t : Tcb P) : Tcb P :=
  { t with
    rtoDeadline := Deadline.OFF
    timeWaitDeadline := Deadline.OFF
    finWait2Deadline := Deadline.OFF
    persistDeadline := Deadline.OFF
    ackDeadline := Deadline.OFF
    rackDeadline := Deadline.OFF
    tlpDeadline := Deadline.OFF
    tlpEndSeq := none
    keepaliveDeadline := Deadline.OFF
    keepaliveProbes := 0
    userTimeoutDeadline := Deadline.OFF
    pendingAck := false }

/-- Drop all send-side and timer state, and anything parked beyond `RCV.NXT`. -/
def releaseBuffersAndTimers (t : Tcb P) : Tcb P :=
  ({ t with
    sendRing := t.sendRing.clear
    ooo := t.ooo.clear
    oooFin := none
    rtx := t.rtx.clear
    sndNxt := t.sndUna
    synUnacked := false
    finSent := false } : Tcb P).disarmTimers

/-- Tear the connection down locally (no RST).  Surfaces `ConnectionReset`. -/
def abortLocal (t : Tcb P) : Tcb P :=
  ({ t with
    state := .closed
    error := some .connectionReset
    recvRing := t.recvRing.clear } : Tcb P).releaseBuffersAndTimers

/-- Enter `CLOSED` cleanly (no error). -/
def closeClean (t : Tcb P) : Tcb P :=
  ({ t with state := .closed } : Tcb P).releaseBuffersAndTimers

/-! ## Construction -/

/-- A zero-filled block with the explicitly written fields. -/
def zeroed : Tcb P where
  localEp := ⟨(0, 0, 0, 0), 0⟩
  remoteEp := ⟨(0, 0, 0, 0), 0⟩
  isListener := false
  synRcvdRetries := 0
  epoch := 0
  sndUna := 0
  sndNxt := 0
  iss := 0
  synUnacked := false
  sndAcked := 0
  finSent := false
  finSeq := 0
  sndWnd := 0
  maxSndWnd := 0
  sndWl1 := 0
  sndWl2 := 0
  wlPos := 0
  sendRing := Ring.new
  sendLent := 0
  sendLentConn := 0
  connGen := 0
  accepted := []
  rcvNxt := 0
  irs := 0
  recvRing := Ring.new
  ooo := OooList.new
  oooFin := none
  delivered := []
  rcvWnd := 0
  rcvAdvEdge := 0
  lastAckSent := 0
  dsack := none
  pendingAck := false
  delayedAckCount := 0
  ackDeadline := Deadline.OFF
  mtu := 0
  localMss := 0
  peerMss := 0
  pmtuMss := 0
  pmtuRestoreMss := 0
  pmtuProbeMss := 0
  pmtuProbeInflight := false
  pmtuProbeStart := 0
  pmtuProbeEnd := 0
  pmtuProbeAt := 0
  pmtuProbeBackoffMs := 0
  tsEnabled := false
  tsOffset := 0
  wsOk := false
  sndWscale := 0
  rcvWscale := 0
  sackEnabled := false
  ecnEnabled := false
  tsRecent := 0
  tsRecentStamp := 0
  ceObserved := false
  sendCwrPending := false
  rack := Rack.new
  tlpEndSeq := none
  tlpIsRetrans := false
  dupAcks := 0
  renoSacked := 0
  dsackSegs := 0
  history := []
  cc := Reno.new INITIAL_WINDOW
  cwndLimited := false
  cwndLimitedSeq := 0
  pipeHiwat := 0
  lastDataSendMs := 0
  synXmitMs := 0
  synRetransmitted := false
  rtoMs := 0
  srttMs := 0
  rttvarMs := 0
  rttFirstSample := false
  rtxCount := 0
  rtoDeadline := Deadline.OFF
  tlpDeadline := Deadline.OFF
  rackDeadline := Deadline.OFF
  persistDeadline := Deadline.OFF
  persistBackoffMs := 0
  timeWaitDeadline := Deadline.OFF
  timeWaitSinceMs := 0
  finWait2Deadline := Deadline.OFF
  keepaliveProbes := 0
  keepaliveDeadline := Deadline.OFF
  userTimeoutDeadline := Deadline.OFF
  utProgress := 0
  cfgIss := 0
  initRtoMs := 0
  finWait2TimeoutMs := 0
  keepaliveIdleMs := 0
  keepaliveIntvlMs := 0
  keepaliveCount := 0
  userTimeoutMs := 0
  egressPaused := false
  txCsumOffload := false
  txRing := TxRing.new
  ipId := 0
  sent := []
  probed := []
  cookieSecret := Vector.replicate 16 0
  cookieSecretSet := false
  cookieSecretExplicit := false
  cookieSecretUsed := false
  prevCookieSecret := Vector.replicate 16 0
  prevCookieSecretSet := false
  prevCookieUntilMs := 0
  secret := Vector.replicate 16 0
  secretSet := false
  state := .closed
  error := none
  rtx := RtxQueue.new
  nowMs := 0
  lastOowMs := Deadline.OFF
  stats := {}

/-- `v` limited to `lo ..= hi`. -/
def clampB {w : ℕ} (v lo hi : BitVec w) : BitVec w := minB (maxB v lo) hi

/-- Assign every field its post-construction value (ring storage is reused). -/
def setup (t : Tcb P) (cfg : TcbConfig) : Tcb P :=
  let t : Tcb P :=
    { t with
      localEp := cfg.localEp
      remoteEp := cfg.remoteEp
      cfgIss := cfg.iss
      iss := cfg.iss
      initRtoMs := clampB cfg.initialRtoMs RTO_MIN_MS RTO_MAX_MS
      mtu := MAX_MTU
      localMss := subIn MAX_MTU HDR_LEN (by decide)
      isListener := false
      cookieSecret := Vector.replicate 16 0
      cookieSecretSet := false
      cookieSecretExplicit := false
      cookieSecretUsed := false
      prevCookieSecret := Vector.replicate 16 0
      prevCookieSecretSet := false
      prevCookieUntilMs := 0
      secret := Vector.replicate 16 0
      secretSet := false
      nowMs := 0
      egressPaused := false
      txCsumOffload := false
      sendLent := 0
      sendLentConn := 0
      connGen := 0
      ipId := (cfg.iss >>> 16).setWidth 16 ^^^ cfg.iss.setWidth 16
      keepaliveIdleMs := DEFAULT_KEEPALIVE_IDLE_MS
      keepaliveIntvlMs := DEFAULT_KEEPALIVE_INTVL_MS
      keepaliveCount := DEFAULT_KEEPALIVE_COUNT
      userTimeoutMs := DEFAULT_USER_TIMEOUT_MS
      finWait2TimeoutMs := DEFAULT_FIN_WAIT2_TIMEOUT_MS }
  { t.resetConnectionState with state := .closed }

/-- Construct a TCB in the `CLOSED` state. -/
def new (cfg : TcbConfig) : Tcb P := zeroed.setup cfg

/-! ## Shared helpers -/

/-- Our SYN (or SYN-ACK) is still unacknowledged. -/
def synOutstanding (t : Tcb P) : Bool := t.synUnacked

/-- Sequence number of the first byte in the send ring. -/
def dataUna (t : Tcb P) : U32 := t.sndUna + ofFlag 32 t.synOutstanding

/-- Bytes queued by the application but not yet sent. -/
def unsentBytes (t : Tcb P) : U32 :=
  let sentData := satSub (t.sndNxt - t.dataUna) (ofFlag 32 t.finSent)
  satSub (BitVec.ofNat 32 t.sendRing.len) sentData

/-- Bytes received in order on this connection. -/
def received (t : Tcb P) : ℕ := t.delivered.length + t.recvRing.len

/-- The peer's FIN was received in order. -/
def finTaken (t : Tcb P) : Bool := t.state.isSynchronized && !t.state.canRecv

/-- The position in the stream received of a sequence number near `RCV.NXT`; the FIN comes after the
last byte. -/
def streamPos (t : Tcb P) (seq : U32) : ℤ := t.received + t.finTaken.toNat + (seq - t.rcvNxt).toInt

/-- Nothing more may be staged: the ring is full or the host paused us. -/
def egressFull (t : Tcb P) : Bool := t.egressPaused || t.txRing.isFull

/-- Unacknowledged sequence space plus unsent data. -/
def hasSendWork (t : Tcb P) : Bool := t.sndUna != t.sndNxt || decide (0 < t.unsentBytes.toNat)

/-- The states keepalive runs in. -/
def keepaliveApplies (t : Tcb P) : Bool :=
  match t.state with
  | .established | .closeWait | .finWait1 | .finWait2 | .closing | .lastAck => true
  | _ => false

/-- RFC 6675 `pipe`. -/
def pipe (t : Tcb P) : U32 := satSub (t.rtx.pipe (t.sndNxt - t.dataUna)) t.renoSacked

/-- The smallest of the three caps on the MSS. -/
def mssCap (t : Tcb P) : U16 := minB (minB t.localMss t.peerMss) t.pmtuMss

/-- Largest TCP payload per segment (MSS minus the always-present timestamp option). -/
def mssPayload (t : Tcb P) : U32 :=
  maxB (satSub (t.mssCap.setWidth 32) (if t.tsEnabled then 12 else 0)) 1

/-- Rate limiter for responses to unacceptable / suspicious segments. -/
def oowAllowed (t : Tcb P) : Bool × Tcb P :=
  let limited :=
    match t.lastOowMs.get with
    | some last =>
      if h : last.toNat ≤ t.nowMs.toNat then
        decide ((subIn t.nowMs last h).toNat < OOW_RATELIMIT_MS.toNat)
      else false
    | none => false
  if limited then
    (false, { t with stats.oowSuppressed := satAdd t.stats.oowSuppressed 1 })
  else
    (true, { t with lastOowMs := Deadline.atMs t.nowMs })

/-- A deadline `ms` from now. -/
def after (t : Tcb P) (ms : U32) : Deadline := Deadline.atMs (satAdd t.nowMs (ms.setWidth 64))

def armRto (t : Tcb P) : Tcb P := { t with rtoDeadline := t.after t.rtoMs }

def absDiff (a b : U32) : U32 := if a.toNat ≤ b.toNat then b - a else a - b

/-- RFC 6298 §2 SRTT/RTTVAR/RTO update. -/
def updateRtt (t : Tcb P) (rMs : U32) : Tcb P :=
  let r := maxB rMs 1
  let t : Tcb P :=
    if ¬ t.rttFirstSample then
      { t with srttMs := r, rttvarMs := maxB (r / 2) 1, rttFirstSample := true }
    else
      { t with
        rttvarMs := satAdd (satMul 3 t.rttvarMs) (absDiff t.srttMs r) / 4
        srttMs := satAdd (satMul 7 t.srttMs) r / 8 }
  let rto := satAdd t.srttMs (maxB 1 (satMul t.rttvarMs 4))
  { t with rtoMs := clampB rto RTO_MIN_MS RTO_MAX_MS, rack := t.rack.sampleRtt t.nowMs r }

def tsVal (t : Tcb P) : U32 := t.nowMs.setWidth 32 + t.tsOffset

/-- Map a TSecr we sent back onto the host millisecond clock. -/
def tsecrToMs (t : Tcb P) (tsecr : U32) : U32 := tsecr - t.tsOffset

def scalePeerWindow (t : Tcb P) (w : U16) : U32 := w.setWidth 32 <<< t.sndWscale.toNat

end Tcb

end TcpSansIo
