import TcpSansIo.Tcb.Input

/-!
# Timers (`tcb/timers.rs`)

`tick()`: every timer-driven action, in the order of `run_timers`.  Its early returns cut it into
`runTimers`, `lateTimers` and `idleTimers`.
-/

namespace TcpSansIo

open FixedWidth

variable {P : Params}

namespace Tcb

def backoffRto (t : Tcb P) : Tcb P := { t with rtoMs := minB (satMul t.rtoMs 2) RTO_MAX_MS }

/-! ## Handshake retransmission -/

/-- The SYN (or SYN-ACK) was not answered in time. -/
def synTimedOut (t : Tcb P) : Tcb P := ({ t with synRetransmitted := true } : Tcb P).backoffRto

def resendSyn : TcbM P Unit := do
  modify synTimedOut
  let _ ← emitSyn
  modify armRto

def synSentTimer : TcbM P Unit := do
  let t ← get
  if ¬ t.rtoDeadline.due t.nowMs then
    return ()
  else
    modify fun t => { t with rtxCount := satAdd t.rtxCount 1 }
    let t ← get
    if MAX_SYN_RETRIES.toNat < t.rtxCount.toNat then modify abortLocal else resendSyn

def resendSynack : TcbM P Unit := do
  modify synTimedOut
  let _ ← emitSynack
  modify armRto

/-- A half-open that used up its SYN-ACK budget. -/
def giveUpHalfOpen (t : Tcb P) : Tcb P :=
  if t.isListener then t.resetToListenOrClosed else t.abortLocal

def synRcvdTimer : TcbM P Unit := do
  let t ← get
  if ¬ t.rtoDeadline.due t.nowMs then
    return ()
  else
    modify fun t => { t with synRcvdRetries := satAdd t.synRcvdRetries 1 }
    let t ← get
    if MAX_SYN_RCVD_RETRIES.toNat < t.synRcvdRetries.toNat then modify giveUpHalfOpen
    else resendSynack

def handshakeTimer : TcbM P Unit := do
  let t ← get
  if t.state = .synSent then synSentTimer
  else if t.state = .synRcvd then synRcvdTimer
  else return ()

/-! ## Retransmission timeout -/

/-- The size repeated timeouts clamp the MSS to. -/
def blackholeTarget (rtxCount : U8) : Option U16 :=
  if BLACKHOLE_RTO_STEP2.toNat ≤ rtxCount.toNat then some BLACKHOLE_MSS2
  else if BLACKHOLE_RTO_STEP1.toNat ≤ rtxCount.toNat then some BLACKHOLE_MSS1
  else none

/-- Path-MTU black-hole fallback: repeated timeouts of a segment larger than a conservative size clamp
the MSS provisionally. -/
def blackholeCheck (t : Tcb P) : Tcb P :=
  match blackholeTarget t.rtxCount with
  | none => t
  | some target =>
    let head : U32 := ((t.rtx.get 0).map Seg.payloadLen).getD 0
    if target.toNat < t.pmtuMss.toNat ∧ (satSub (target.setWidth 32) 12).toNat < head.toNat then
      let first := t.pmtuRestoreMss = 0
      let backoff := if first then PMTU_PROBE_MIN_MS else t.pmtuProbeBackoffMs
      { t with
        pmtuRestoreMss := if first then t.pmtuMss else t.pmtuRestoreMss
        pmtuProbeBackoffMs := backoff
        pmtuMss := target
        pmtuProbeInflight := false
        pmtuProbeAt := satAdd t.nowMs (backoff.setWidth 64) }
    else t

/-- A SACKed head that was never cumulatively acknowledged means the receiver reneged. -/
def renegeCheck (t : Tcb P) : Tcb P :=
  if (t.rtx.get 0).any (fun s => s.flags.sacked) then
    { t with rtx := t.rtx.clearSacked, history := t.history ++ [.forgot] }
  else t

/-- Back off, collapse to the loss window and mark everything not SACKed lost. -/
def onRto (t : Tcb P) : Tcb P :=
  let t : Tcb P := { t with rtoDeadline := Deadline.OFF }
  if t.sndUna = t.sndNxt then
    t
  else
    let t : Tcb P := { t with rtxCount := satAdd t.rtxCount 1 }
    if MAX_RETRANSMITS.toNat < t.rtxCount.toNat then
      t.abortLocal
    else
      let t : Tcb P := { t with stats.rtoCount := satAdd t.stats.rtoCount 1 }
      let t := t.blackholeCheck.renegeCheck
      ({ t with
        cc := t.cc.onRto (t.sndNxt - t.dataUna) t.sndUna t.sndNxt t.mssPayload
        rtx := t.rtx.markAllLost
        renoSacked := 0
        tlpEndSeq := none
        tlpDeadline := Deadline.OFF
        rackDeadline := Deadline.OFF
        dupAcks := 0 } : Tcb P).backoffRto.armRto

/-! ## Tail loss probe -/

/-- A probe went out. -/
def noteTlp (isRetrans : Bool) (t : Tcb P) : Tcb P :=
  ({ t with
    stats.tlpCount := satAdd t.stats.tlpCount 1
    tlpEndSeq := some t.sndNxt
    tlpIsRetrans := isRetrans
    tlpDeadline := Deadline.OFF } : Tcb P).armRto

/-- Probe with new data if possible, else re-send the highest segment. -/
def sendTlp : TcbM P Unit := do
  let t ← get
  let unsent := t.unsentBytes
  let len := minB unsent t.mssPayload
  if 0 < unsent.toNat ∧ len.toNat ≤ t.usableWindow.toNat ∧ ¬ t.rtx.isFull then
    let sent ← emitNew len (t.finOwed && len == unsent)
    modify fun t => if sent then t.noteTlp false else t
  else if 0 < t.rtx.len ∧ (t.rtx.get (t.rtx.len - 1)).any (fun s => !s.flags.sacked) then
    let sent ← retransmit (t.rtx.len - 1)
    modify fun t => if sent then t.noteTlp true else t
  else
    return ()

def fireTlp : TcbM P Unit := do
  modify fun t => { t with tlpDeadline := Deadline.OFF }
  let t ← get
  if ¬ (t.sackEnabled ∧ t.cc.state = .opened ∧ t.tlpEndSeq.isNone ∧ t.sndUna ≠ t.sndNxt) then
    return ()
  else if t.egressFull then
    -- Silence while egress is held is local queueing, not loss.
    modify maybeArmTlp
  else
    sendTlp

/-! ## Reordering, persist, keepalive, user timeout -/

/-- The RACK reordering timer. -/
def rackTimer (now : U64) (t : Tcb P) : Tcb P :=
  if t.rackDeadline.due now then
    let d := ({ t with rackDeadline := Deadline.OFF } : Tcb P).rackDetect
    if d.1 then
      let t := if d.2.cc.inLossRecovery then d.2 else d.2.enterFastRecovery (d.2.sndNxt - d.2.dataUna)
      -- No ACK clocked this: credit one segment so PRR may send.
      { t with cc := t.cc.prrUpdate t.mssPayload t.pipe t.mssPayload false }
    else d.2
  else t

/-- After a persist action: back off, and re-arm while data is stuck. -/
def persistAgain (t : Tcb P) : Tcb P :=
  let backoff := minB (satMul (maxB t.persistBackoffMs t.rtoMs) 2) RTO_MAX_MS
  let t : Tcb P := { t with persistBackoffMs := backoff }
  if 0 < t.unsentBytes.toNat ∧ t.sndUna = t.sndNxt then
    { t with persistDeadline := t.after backoff }
  else t

/-- With a silly-small window, send what fits; with a zero window, probe.  Unanswered probes count
toward the abort. -/
def onPersistTimer : TcbM P Unit := do
  modify fun t => { t with persistDeadline := Deadline.OFF }
  let t ← get
  let unsent := t.unsentBytes
  if unsent = 0 ∨ t.sndUna ≠ t.sndNxt then
    return ()
  else if t.egressFull then
    modify fun t => { t with persistDeadline := t.after t.rtoMs }
  else if 0 < t.usableWindow.toNat ∧ ¬ t.rtx.isFull then
    let len := minB (minB t.usableWindow unsent) t.mssPayload
    let _ ← emitNew len (t.finOwed && len == unsent)
    modify persistAgain
  else
    let _ ← emitProbe (t.sndUna - 1)
    modify fun t => { t with rtxCount := satAdd t.rtxCount 1 }
    modify fun t => if MAX_RETRANSMITS.toNat < t.rtxCount.toNat then t.abortLocal else t.persistAgain

/-- A keepalive probe went out. -/
def noteKeepalive (t : Tcb P) : Tcb P :=
  { t with
    keepaliveProbes := satAdd t.keepaliveProbes 1
    keepaliveDeadline := t.after t.keepaliveIntvlMs }

/-- Keepalive for fully idle connections, in the states it runs in. -/
def checkKeepalive : TcbM P Unit := do
  let t ← get
  if t.keepaliveIdleMs = 0 ∨ ¬ t.keepaliveDeadline.due t.nowMs then
    return ()
  else if ¬ t.keepaliveApplies then
    modify fun t => { t with keepaliveProbes := 0, keepaliveDeadline := Deadline.OFF }
  else if t.hasSendWork then
    -- Not idle: restart the idle clock.
    modify fun t => { t with keepaliveProbes := 0, keepaliveDeadline := t.after t.keepaliveIdleMs }
  else if t.keepaliveCount.toNat ≤ t.keepaliveProbes.toNat then
    -- In CLOSE_WAIT the peer's stream is complete and nothing of ours is in flight.
    modify fun t => if t.state = .closeWait then t.closeClean else t.abortLocal
  else
    let sent ← emitProbe (t.sndNxt - 1)
    modify fun t => if sent then t.noteKeepalive else t

/-- USER TIMEOUT, armed lazily when send work appears. -/
def checkUserTimeout (t : Tcb P) : Tcb P :=
  if t.userTimeoutMs = 0 ∨ ¬ t.hasSendWork ∨ ¬ t.state.sends then
    { t with userTimeoutDeadline := Deadline.OFF, utProgress := 0 }
  else if ¬ t.userTimeoutDeadline.isArmed then
    { t with userTimeoutDeadline := t.after t.userTimeoutMs }
  else if t.userTimeoutDeadline.due t.nowMs then
    t.abortLocal
  else t

/-! ## One tick -/

/-- Keepalive, the user timeout, then output. -/
def idleTimers (now : U64) : TcbM P Unit := do
  checkKeepalive
  modify checkUserTimeout
  let t ← get
  if t.state = .closed then
    return ()
  else
    maybeSendData
    let t ← get
    if t.pendingAck && t.ackDeadline.due now then sendPureAck else return ()

/-- The timers after the retransmission timeout. -/
def lateTimers (now : U64) : TcbM P Unit := do
  modify (rackTimer now)
  let t ← get
  if t.persistDeadline.due now then
    onPersistTimer
    let t ← get
    if t.state = .closed then return () else idleTimers now
  else
    idleTimers now

/-- 2·MSL is over.  Unread received data stays readable. -/
def timeWaitOver (t : Tcb P) : Tcb P := ({ t with state := .closed } : Tcb P).disarmTimers

def runTimers : TcbM P Unit := do
  let t ← get
  let now := t.nowMs
  if t.timeWaitDeadline.due now then
    modify timeWaitOver
  else if t.state = .finWait2 ∧ t.finWait2Deadline.due now then
    -- The peer acknowledged our FIN but never sent its own.
    let _ ← emitCtl { rst := true, ack := true } t.sndNxt t.rcvNxt
    modify abortLocal
  else
    handshakeTimer
    let t ← get
    -- A due tail-loss probe goes first: it re-arms the RTO.
    (if t.tlpDeadline.due now then fireTlp else return ())
    let t ← get
    if t.state.isSynchronized ∧ t.rtoDeadline.due now then
      modify onRto
      let t ← get
      if t.state = .closed then return () else lateTimers now
    else
      lateTimers now

end Tcb

end TcpSansIo
