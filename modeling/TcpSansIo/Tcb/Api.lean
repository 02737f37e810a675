import TcpSansIo.Tcb.Timers

/-!
# The public interface (`tcb/mod.rs`)

Configuration, connection control, data transfer and introspection.  Every public method that can
change the block is a constructor of `Call`; `Call.run` is the method.  `Reachable` closes
`Tcb.new` under calls that come back: a call that panics has no block to go on with.

`send_reserve` lends the free space of the send ring to the host.  The loan is inside the free space
for as long as it lasts, and what the host does to it is the call `sendFill`, which may write to the
free space anywhere while a loan is out.
-/

namespace TcpSansIo

open FixedWidth

variable {P : Params}

namespace Tcb

/-! ## Introspection -/

/-- An error with `msg` when `bad` holds. -/
def reject (bad : Prop) [Decidable bad] (msg : String) : Except String Unit :=
  if bad then .error msg else .ok ()

/-- The queue starts at the first unacknowledged data byte, if there is one. -/
def rtxMisaligned (t : Tcb P) : Prop :=
  (¬ t.rtx.isEmpty ∨ t.sndNxt - t.dataUna ≠ 0) ∧ (t.rtx.get 0).map Seg.start ≠ some t.dataUna

instance (t : Tcb P) : Decidable t.rtxMisaligned := inferInstanceAs (Decidable (_ ∧ _))

/-- Outstanding data, without the FIN. -/
def dataOut (t : Tcb P) : U32 :=
  satSub (t.sndNxt - t.dataUna) (ofFlag 32 (t.finSent && decide (seqLt t.sndUna t.sndNxt)))

/-- The states in which our FIN may have been sent. -/
def finStates : State → Bool
  | .finWait1 | .finWait2 | .closing | .timeWait | .lastAck | .closed => true
  | _ => false

def debugValidateSync (t : Tcb P) : Except String Unit := do
  t.rtx.debugValid t.dataUna t.sndNxt
  reject t.rtxMisaligned "rtx queue does not start at SND.UNA"
  reject (t.sendRing.len < t.dataOut.toNat) "outstanding data exceeds buffered data"

def debugValidateFin (t : Tcb P) : Except String Unit := do
  reject (t.finSeq + 1 ≠ t.sndNxt) "FIN is not the last sequence number sent"
  reject (¬ finStates t.state) "fin_sent set in non-closing state"
  reject ((t.state = .finWait2 ∨ t.state = .timeWait) ∧ seqLe t.sndUna t.finSeq)
    "state requires our FIN to be ACKed"

def debugValidateHeldFin (t : Tcb P) (h : HeldFin) : Except String Unit := do
  reject (¬ t.state.canRecv ∨ ¬ seqGt h.seq t.rcvNxt) "stale out-of-order FIN"
  reject (seqGt h.start h.seq) "out-of-order FIN precedes its own segment"

/-- Internal consistency checks. -/
def debugValidateInvariants (t : Tcb P) : Except String Unit := do
  reject (seqLt t.sndNxt t.sndUna) "snd_nxt is behind snd_una"
  reject (t.synUnacked ∧ (t.sndUna ≠ t.iss ∨ t.sndNxt = t.iss))
    "SYN marked unacknowledged but SND.UNA/SND.NXT disagree"
  (if t.state.isSynchronized then t.debugValidateSync else .ok ())
  (if t.finSent then t.debugValidateFin else .ok ())
  reject (t.rtoDeadline.isArmed ∧ t.sndUna = t.sndNxt) "RTO armed with no outstanding sequence space"
  reject (¬ t.ooo.debugValid t.rcvNxt) "out-of-order ranges invalid"
  reject (t.ooo.lastEnd.any fun e => decide (t.recvRing.free < (e - t.rcvNxt).toNat))
    "out-of-order data beyond the receive buffer"
  (match t.oooFin with
    | some h => t.debugValidateHeldFin h
    | none => .ok ())
  reject (t.txRing.peekHeadLen.any fun n => decide (MAX_PACKET < n)) "staged packet exceeds MAX_PACKET"

/-- The deadlines `next_deadline` looks at: those `tick` will act on. -/
def reportedDeadlines (t : Tcb P) : List Deadline :=
  [t.timeWaitDeadline,
    if t.state = .finWait2 then t.finWait2Deadline else Deadline.OFF,
    t.rtoDeadline,
    t.tlpDeadline,
    t.rackDeadline,
    t.persistDeadline,
    if t.pendingAck && !t.egressPaused then t.ackDeadline else Deadline.OFF,
    if t.egressPaused then Deadline.OFF else t.keepaliveDeadline,
    t.userTimeoutDeadline]

/-- Host time at which `tick` next has timer work. -/
def nextDeadline (t : Tcb P) : Option U64 :=
  (t.reportedDeadlines.filterMap Deadline.get).foldl
    (fun best d => match best with
      | some b => some (minB b d)
      | none => some d) none

/-! ## Configuration -/

def setNow (now : U64) (t : Tcb P) : Tcb P := { t with nowMs := now }

/-- Host back-pressure on the egress path; a tail-loss probe waits one PTO after the resume. -/
def setEgressPaused (paused : Bool) (t : Tcb P) : Tcb P :=
  { (if t.egressPaused ∧ ¬ paused ∧ t.tlpDeadline.isArmed then t.maybeArmTlp else t) with
    egressPaused := paused }

def setTxCsumOffload (on : Bool) (t : Tcb P) : Tcb P := { t with txCsumOffload := on }

def setKeepalive (idleMs intvlMs : U32) (count : U8) (t : Tcb P) : Tcb P :=
  { t with
    keepaliveIdleMs := idleMs
    keepaliveIntvlMs := maxB intvlMs 1
    keepaliveCount := count
    keepaliveProbes := 0
    keepaliveDeadline :=
      if idleMs = 0 ∨ ¬ t.keepaliveApplies then Deadline.OFF else t.after idleMs }

def setUserTimeout (ms : U32) (t : Tcb P) : Tcb P :=
  { t with
    userTimeoutMs := ms
    utProgress := 0
    userTimeoutDeadline := if ms = 0 ∨ ¬ t.hasSendWork then Deadline.OFF else t.after ms }

def setFinWait2Timeout (ms : U32) (t : Tcb P) : Tcb P :=
  { t with
    finWait2TimeoutMs := ms
    finWait2Deadline := if ms ≠ 0 ∧ t.state = .finWait2 then t.after ms else Deadline.OFF }

lemma hdrLen_le_clamp (mtu : U16) : HDR_LEN.toNat ≤ (clampB mtu MIN_MTU MAX_MTU).toNat := by
  rw [clampB, toNat_minB, toNat_maxB]
  have h₁ : MIN_MTU.toNat = 576 := rfl
  have h₂ : MAX_MTU.toNat = 1500 := rfl
  have h₃ : HDR_LEN.toNat = 40 := rfl
  omega

/-- The MSS an MTU leaves room for, after clamping the MTU. -/
def mssOfMtu (mtu : U16) : U16 := subIn (clampB mtu MIN_MTU MAX_MTU) HDR_LEN (hdrLen_le_clamp mtu)

/-- Set the IPv4 MTU of the path toward the peer, before the handshake. -/
def setMtu (mtu : U16) : TcbM P Unit := do
  let t ← get
  match t.state with
  | .closed | .listen =>
    modify fun t => { t with
      mtu := clampB mtu MIN_MTU MAX_MTU
      localMss := mssOfMtu mtu
      pmtuMss := mssOfMtu mtu
      cc := Reno.new (initialWindow ((mssOfMtu mtu).setWidth 32)) }
  | _ => throw (.tcp .invalidState)

/-- A reported MTU bounds black-hole recovery: never probe above it. -/
def boundRestore (mss : U16) (t : Tcb P) : Tcb P :=
  let restore := minB t.pmtuRestoreMss mss
  if restore.toNat ≤ (minB t.pmtuMss mss).toNat then
    { t with pmtuRestoreMss := 0, pmtuProbeInflight := false }
  else
    { t with pmtuRestoreMss := restore }

/-- Mark record `i` lost if it no longer fits `limit`. -/
def markOversized (limit : U32) (q : RtxQueue P.RTX) (i : ℕ) : RtxQueue P.RTX :=
  match q.get i with
  | some s => if limit.toNat < s.payloadLen.toNat then q.markLost i else q
  | none => q

/-- Drop the error code of a call whose result is not looked at. -/
def ignoreError (x : TcbM P Unit) : TcbM P Unit := fun t =>
  match x t with
  | .error (.tcp _) t' => .ok () t'
  | r => r

/-- Report a smaller path MTU: lower the segment size, and retransmit what no longer fits. -/
def updatePmtu (mtu : U16) : TcbM P Unit := do
  let mss := mssOfMtu mtu
  modify (boundRestore mss)
  let t ← get
  if t.pmtuMss.toNat ≤ mss.toNat then
    return ()
  else
    modify fun t => { t with pmtuMss := mss }
    let t ← get
    if t.state.isSynchronized then
      modify fun t => { t with rtx := (List.range t.rtx.len).foldl (markOversized t.mssPayload) t.rtx }
      ignoreError maybeSendData
    else
      return ()

/-- Install a host secret. -/
def setSecret (secret : Key) (t : Tcb P) : Tcb P :=
  let t : Tcb P := { t with secret := secret, secretSet := true }
  if t.cookieSecretExplicit then t else t.installCookieKey (deriveCookieKey P.hash secret)

/-- Install (or rotate to) an explicit SYN-cookie key. -/
def setCookieSecret (secret : Key) (t : Tcb P) : Tcb P :=
  { t.installCookieKey secret with cookieSecretExplicit := true }

/-- Re-point an existing TCB at a new 5-tuple / ISS, reusing the ring storage. -/
def reinit (cfg : TcbConfig) (t : Tcb P) : Tcb P := t.setup cfg

/-! ## Connection control -/

/-- The block an active open starts from. -/
def activeOpen (t : Tcb P) : Tcb P :=
  let t := ({ t with isListener := false } : Tcb P).resetConnectionState
  { t with tsOffset := t.tsOffsetFor t.remoteEp, state := .synSent, synXmitMs := t.nowMs }

/-- Active open. -/
def connect : TcbM P Unit := do
  let t ← get
  if t.state ≠ .closed then
    throw (.tcp .invalidState)
  else
    modify activeOpen
    let sent ← emitSyn
    modify fun t : Tcb P =>
      if sent then ({ t with sndNxt := t.iss + 1, synUnacked := true } : Tcb P).armRto else t

/-- The block of a fresh listener. -/
def passiveOpen (t : Tcb P) : Tcb P :=
  { ({ t with remoteEp := ⟨(0, 0, 0, 0), 0⟩, isListener := true } : Tcb P).resetConnectionState with
    state := .listen }

/-- Passive open; requires a secret. -/
def listen : TcbM P Unit := do
  let t ← get
  match t.state with
  | .closed | .listen | .timeWait =>
    if !t.secretSet && !t.cookieSecretSet then
      throw (.tcp .invalidState)
    else
      modify passiveOpen
  | _ => throw (.tcp .invalidState)

/-- A close before there is a connection. -/
def closeUnopened (t : Tcb P) : Tcb P :=
  { ({ t with isListener := false } : Tcb P).resetConnectionState with state := .closed }

/-- Begin a graceful close (FIN after all queued data). -/
def close : TcbM P Unit := do
  let t ← get
  match t.state with
  | .established | .synRcvd =>
    modify fun t => { t with state := .finWait1 }
    maybeSendData
  | .closeWait =>
    modify fun t => { t with state := .lastAck }
    maybeSendData
  | .closed | .finWait1 | .finWait2 | .closing | .timeWait | .lastAck => return ()
  | .synSent | .listen => modify closeUnopened

/-- Queue `RST+ACK` and drop all state. -/
def abort : TcbM P Unit := do
  let t ← get
  match t.state with
  | .closed => return ()
  | .listen | .synSent =>
    modify fun t => ({ t with isListener := false } : Tcb P).abortLocal
  | _ =>
    let _ ← emitCtl { rst := true, ack := true } t.sndNxt t.rcvNxt
    modify abortLocal

/-! ## Data -/

/-- Queue application data; the number of bytes accepted. -/
def send (data : List U8) : TcbM P ℕ := do
  let t ← get
  if ¬ t.state.canSend then
    throw (.tcp .invalidState)
  else if t.sendLent ≠ 0 then
    throw (.tcp .wouldBlock)
  else if (t.sendRing.write data).1 = 0 ∧ data ≠ [] then
    throw (.tcp .wouldBlock)
  else
    modifyGet fun t =>
      ((t.sendRing.write data).1,
        { t with
          sendRing := (t.sendRing.write data).2
          accepted := t.accepted ++ data.take (t.sendRing.write data).1 })

/-- Lend the send ring's free space to the host; the lengths of the two slices. -/
def sendReserve (max : ℕ) : TcbM P (ℕ × ℕ) := do
  let t ← get
  if t.sendLent ≠ 0 ∨ ¬ t.state.canSend then
    throw (.tcp .invalidState)
  else
    let n := min max t.sendRing.free
    if n = 0 then
      throw (.tcp .wouldBlock)
    else
      modify fun t => { t with sendLent := n, sendLentConn := t.connGen }
      let first := min n (P.BUF - t.sendRing.tail.toNat % P.BUF)
      return (first, n - first)

/-- The host fills lent space. -/
def sendFill (offset : ℕ) (src : List U8) (t : Tcb P) : Tcb P :=
  if t.sendLent = 0 then t else { t with sendRing := (t.sendRing.writeAt offset src).2 }

/-- End the loan, appending its first `n` bytes to the stream; the number of bytes appended. -/
def sendCommit (n : ℕ) : TcbM P ℕ := do
  let lent ← modifyGet fun t : Tcb P => (t.sendLent, { t with sendLent := 0 })
  let t ← get
  if lent = 0 ∨ t.sendLentConn ≠ t.connGen ∨ ¬ t.state.canSend then
    throw (.tcp .invalidState)
  else
    modifyGet fun t =>
      let c := t.sendRing.commit (min n lent)
      (c.1, { t with sendRing := c.2, accepted := t.accepted ++ c.2.contents.drop t.sendRing.len })

/-- The application consumed data: in FIN_WAIT_2 its timeout starts over. -/
def restartFinWait2 (t : Tcb P) : Tcb P :=
  if t.state = .finWait2 ∧ t.finWait2TimeoutMs ≠ 0 then
    { t with finWait2Deadline := t.after t.finWait2TimeoutMs }
  else t

/-- The states in which an empty receive ring is the end of the stream. -/
def atEof : State → Bool
  | .closed | .closeWait | .lastAck | .closing | .timeWait => true
  | _ => false

/-- Copy up to `cap` bytes of received in-order data out. -/
def recv (cap : ℕ) : TcbM P (List U8) := do
  let t ← get
  match t.error with
  | some e => throw (.tcp e)
  | none =>
    let out := (t.recvRing.read cap).1
    modify fun t => { t with recvRing := (t.recvRing.read cap).2, delivered := t.delivered ++ out }
    if 0 < out.length then
      modify restartFinWait2
      maybeSendWindowUpdate
      return out
    else if atEof t.state then
      throw (.tcp .connectionClosed)
    else
      return out

/-! ## Packets -/

/-- Pop one staged outbound datagram into a buffer of `cap` bytes. -/
def extractPacket (cap : ℕ) : TcbM P (List U8) := fun t =>
  match t.txRing.popInto cap with
  | .ok (pkt, ring) => .ok pkt { t with txRing := ring }
  | .error e => .error (.tcp e) t

/-- Pop one staged outbound datagram and lend it. -/
def extractPacketWith (t : Tcb P) : Option (List U8) × Tcb P :=
  match t.txRing.popWith with
  | some (pkt, ring) => (some pkt, { t with txRing := ring })
  | none => (none, t)

/-- Feed an inbound datagram whose parse is `parsed`. -/
def injectParsed (parsed : Except TcpError Segment) : TcbM P Unit :=
  match parsed with
  | .ok seg => injectSegment seg
  | .error e => throw (.tcp e)

/-- Feed an inbound IPv4+TCP datagram (checksums verified). -/
def injectPacket (packet : List U8) : TcbM P Unit := injectParsed (parse P.littleEndian packet)

/-- Like `inject_packet` but skips TCP checksum verification. -/
def injectPacketL4CsumTrusted (packet : List U8) : TcbM P Unit :=
  injectParsed (parseOpts P.littleEndian packet false)

/-- Drive timers and push more data. -/
def tick : TcbM P Unit := runTimers

end Tcb

/-! ## Calls and reachable blocks -/

/-- A call of the public interface. -/
inductive Call where
  | setNow (now : U64)
  | setEgressPaused (paused : Bool)
  | setTxCsumOffload (on : Bool)
  | setKeepalive (idleMs intvlMs : U32) (count : U8)
  | setUserTimeout (ms : U32)
  | setFinWait2Timeout (ms : U32)
  | setMtu (mtu : U16)
  | updatePmtu (mtu : U16)
  | setSecret (secret : Key)
  | setCookieSecret (secret : Key)
  | reinit (cfg : TcbConfig)
  | connect
  | listen
  | close
  | abort
  | send (data : List U8)
  | sendReserve (max : ℕ)
  | sendFill (offset : ℕ) (src : List U8)
  | sendCommit (n : ℕ)
  | recv (cap : ℕ)
  | extractPacket (cap : ℕ)
  | extractPacketWith
  | injectPacket (packet : List U8)
  | injectPacketL4CsumTrusted (packet : List U8)
  | tick

/-- What a call returns. -/
inductive Reply where
  | unit
  | count (n : ℕ)
  | regions (first wrapped : ℕ)
  | bytes (b : List U8)
  | packet (p : Option (List U8))
  deriving Repr, DecidableEq

namespace Call

open Tcb

/-- The method behind a call. -/
def run : Call → TcbM P Reply
  | setNow now => do modify (Tcb.setNow now); return .unit
  | setEgressPaused paused => do modify (Tcb.setEgressPaused paused); return .unit
  | setTxCsumOffload on => do modify (Tcb.setTxCsumOffload on); return .unit
  | setKeepalive idleMs intvlMs count => do
    modify (Tcb.setKeepalive idleMs intvlMs count); return .unit
  | setUserTimeout ms => do modify (Tcb.setUserTimeout ms); return .unit
  | setFinWait2Timeout ms => do modify (Tcb.setFinWait2Timeout ms); return .unit
  | setMtu mtu => do Tcb.setMtu mtu; return .unit
  | updatePmtu mtu => do Tcb.updatePmtu mtu; return .unit
  | setSecret secret => do modify (Tcb.setSecret secret); return .unit
  | setCookieSecret secret => do modify (Tcb.setCookieSecret secret); return .unit
  | reinit cfg => do modify (Tcb.reinit cfg); return .unit
  | connect => do Tcb.connect; return .unit
  | listen => do Tcb.listen; return .unit
  | close => do Tcb.close; return .unit
  | abort => do Tcb.abort; return .unit
  | send data => do let n ← Tcb.send data; return .count n
  | sendReserve max => do let r ← Tcb.sendReserve max; return .regions r.1 r.2
  | sendFill offset src => do modify (Tcb.sendFill offset src); return .unit
  | sendCommit n => do let n ← Tcb.sendCommit n; return .count n
  | recv cap => do let b ← Tcb.recv cap; return .bytes b
  | extractPacket cap => do let b ← Tcb.extractPacket cap; return .bytes b
  | extractPacketWith => do let p ← modifyGet Tcb.extractPacketWith; return .packet p
  | injectPacket packet => do Tcb.injectPacket packet; return .unit
  | injectPacketL4CsumTrusted packet => do Tcb.injectPacketL4CsumTrusted packet; return .unit
  | tick => do Tcb.tick; return .unit

end Call

/-- A call came back, with a value or an error code. -/
def Returned {α : Type} : EStateM.Result Fault (Tcb P) α → Prop
  | .error .panic _ => False
  | _ => True

/-- `t'` is the block a call of `c` on `t` leaves behind. -/
def CallStep (t : Tcb P) (c : Call) (t' : Tcb P) : Prop :=
  Returned (c.run t) ∧ t' = Proc.final (c.run t)

/-- Blocks that any sequence of calls can produce. -/
inductive Reachable : Tcb P → Prop
  | new (cfg : TcbConfig) : Reachable (Tcb.new cfg)
  | step {t t' : Tcb P} {c : Call} : Reachable t → CallStep t c t' → Reachable t'

/-- Induction over runs: what holds of a fresh block and is kept by every call holds of every
reachable block. -/
lemma Reachable.invariant {I : Tcb P → Prop} (hnew : ∀ cfg, I (Tcb.new cfg))
    (hstep : ∀ t c t', I t → CallStep t c t' → I t') {t : Tcb P} (h : Reachable t) : I t := by
  induction h with
  | new cfg => exact hnew cfg
  | step _ hcall ih => exact hstep _ _ _ ih hcall

/-- Blocks that sequences of calls produce in which every call satisfies `ok` where it is made. -/
inductive ReachableBy (ok : Tcb P → Call → Prop) : Tcb P → Prop
  | new (cfg : TcbConfig) : ReachableBy ok (Tcb.new cfg)
  | step {t t' : Tcb P} {c : Call} : ReachableBy ok t → ok t c → CallStep t c t' → ReachableBy ok t'

lemma ReachableBy.reachable {ok : Tcb P → Call → Prop} {t : Tcb P} (h : ReachableBy ok t) :
    Reachable t := by
  induction h with
  | new cfg => exact .new cfg
  | step _ _ hcall ih => exact .step ih hcall

/-! ## Runs -/

instance {α : Type} (r : EStateM.Result Fault (Tcb P) α) : Decidable (Returned r) :=
  match r with
  | .ok _ _ => isTrue trivial
  | .error (.tcp _) _ => isTrue trivial
  | .error .panic _ => isFalse id

/-- The block a sequence of calls leaves behind. -/
def runAll (calls : List Call) (t : Tcb P) : Tcb P :=
  calls.foldl (fun t c => Proc.final (c.run t)) t

/-- Every call of the sequence came back. -/
def allReturned : List Call → Tcb P → Bool
  | [], _ => true
  | c :: cs, t => decide (Returned (c.run t)) && allReturned cs (Proc.final (c.run t))

lemma Reachable.runAll {calls : List Call} {t : Tcb P} (h : Reachable t)
    (hr : allReturned calls t = true) : Reachable (runAll calls t) := by
  induction calls generalizing t with
  | nil => exact h
  | cons c cs ih =>
    rw [allReturned, Bool.and_eq_true, decide_eq_true_iff] at hr
    exact ih (h.step ⟨hr.1, rfl⟩) hr.2

/-- Every call of the sequence satisfies `ok` where it is made, and comes back. -/
def allAllowed (ok : Tcb P → Call → Prop) [∀ t c, Decidable (ok t c)] : List Call → Tcb P → Bool
  | [], _ => true
  | c :: cs, t => decide (ok t c) && decide (Returned (c.run t)) &&
      allAllowed ok cs (Proc.final (c.run t))

lemma ReachableBy.runAll {ok : Tcb P → Call → Prop} [∀ t c, Decidable (ok t c)] {calls : List Call}
    {t : Tcb P} (h : ReachableBy ok t) (hr : allAllowed ok calls t = true) :
    ReachableBy ok (runAll calls t) := by
  induction calls generalizing t with
  | nil => exact h
  | cons c cs ih =>
    rw [allAllowed, Bool.and_eq_true, Bool.and_eq_true, decide_eq_true_iff, decide_eq_true_iff] at hr
    exact ih (h.step hr.1.1 ⟨hr.1.2, rfl⟩) hr.2

/-- One call that came back. -/
lemma callStep_runAll {t : Tcb P} {c : Call} (h : Returned (c.run t)) : CallStep t c (runAll [c] t) :=
  ⟨h, rfl⟩

/-- The call hands `seg` to the connection. -/
def Call.Delivers (P : Params) (c : Call) (seg : Segment) : Prop :=
  (∃ packet, c = .injectPacket packet ∧ parse P.littleEndian packet = .ok seg) ∨
    ∃ packet, c = .injectPacketL4CsumTrusted packet ∧
      parseOpts P.littleEndian packet false = .ok seg

/-! ## A small configuration

Capacities small enough to run by evaluation, a client on them, and the client after the handshake. -/

def tiny : Params where
  BUF := 64
  RTX := 64
  TXQ := 2
  smallBuffers := true
  std := true
  littleEndian := true
  hash := fun _ _ => 0
  buf_pow2 := ⟨6, by decide, by decide⟩
  rtx_pos := by decide
  rtx_words := by decide
  rtx_le := by decide
  txq_pos := by decide
  txq_lt := by decide

/-- The datagram with header `h` and payload `p`. -/
def datagram (h : Header) (p : List U8) : List U8 :=
  ((emitWith tiny.littleEndian MAX_PACKET h p.length (fun _ => some p) true).toOption).getD []

/-- The header of an ACK from the tiny client's peer, at the start of the connection. -/
def peerAck : Header where
  srcIp := (10, 0, 0, 2)
  dstIp := (10, 0, 0, 1)
  srcPort := 80
  dstPort := 1000
  seq := 6
  ack := 101
  flags := { ack := true }
  window := 64
  options := TcpOptions.NONE
  ipId := 0
  ecn := Ecn.NOT_ECT

def peerSynAck : Header := { peerAck with seq := 5, flags := { syn := true, ack := true } }

def tinyClient : Tcb tiny := Tcb.new ⟨⟨(10, 0, 0, 1), 1000⟩, ⟨(10, 0, 0, 2), 80⟩, 100, 1000⟩

/-- An active open up to the peer's SYN-ACK, with the egress ring drained. -/
def tinyHandshake : List Call :=
  [.connect, .extractPacketWith, .injectPacket (datagram peerSynAck []), .extractPacketWith]

def tinyOpen : Tcb tiny := runAll tinyHandshake tinyClient

lemma reachable_tinyOpen : Reachable tinyOpen :=
  (Reachable.new _).runAll (by decide +kernel)

/-- The tiny configuration with rings of 2³² bytes. -/
def vast : Params :=
  { tiny with
    BUF := 2 ^ 32
    buf_pow2 := ⟨32, by decide, rfl⟩ }

/-- A client of that configuration fills its send ring. -/
def vastFull : Tcb vast :=
  runAll (tinyHandshake ++ [.sendReserve (2 ^ 32), .sendCommit (2 ^ 32)])
    (Tcb.new ⟨⟨(10, 0, 0, 1), 1000⟩, ⟨(10, 0, 0, 2), 80⟩, 100, 1000⟩)

lemma reachable_vastFull : Reachable vastFull :=
  (Reachable.new _).runAll (by decide +kernel)

/-- The segment a datagram parses to. -/
lemma parse_get {le : Bool} {p : List U8} (h : (parse le p).toOption.isSome = true) :
    parse le p = .ok ((parse le p).toOption.get h) := by
  revert h
  cases parse le p with
  | ok seg => exact fun _ => rfl
  | error e => exact fun h => absurd h (by simp [Except.toOption])

end TcpSansIo
