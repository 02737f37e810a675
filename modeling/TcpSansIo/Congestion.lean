import TcpSansIo.Basic

/-!
# Congestion control (`congestion.rs`)

Reno with byte counting, Proportional Rate Reduction for fast recovery and ECN/TLP reductions, and
the loss window on RTO.  Units are bytes.  The signed 64-bit intermediate values of PRR are
integers cut off at the ends of `i64`, as the source's saturating operations do.
-/

namespace TcpSansIo

open FixedWidth

/-- Congestion-avoidance state (named after Linux's `tcp_ca_state`). -/
inductive CaState where
  | opened
  | recovery
  | loss
  | cwr
  deriving Repr, DecidableEq

/-- RFC 6928 initial window for a given MSS: `min(10*MSS, max(2*MSS, 14600))`. -/
def initialWindow (mss : U32) : U32 :=
  let ten := satMul mss 10
  let two := satMul mss 2
  let lower : U32 := if 14600 < two.toNat then two else 14600
  if ten.toNat < lower.toNat then ten else lower

/-- Default-MSS initial window. -/
def INITIAL_WINDOW : U32 := initialWindow (MSS.setWidth 32)

/-- Cut an integer off at the ends of `i64`. -/
def clampI64 (x : ℤ) : ℤ := max (-(2 ^ 63)) (min x (2 ^ 63 - 1))

/-- Reno congestion state. -/
structure Reno where
  cwnd : U32
  ssthresh : U32
  state : CaState
  /-- `SND.NXT` when the current reduction episode began. -/
  recoveryPoint : U32
  /-- Bytes acknowledged toward the next congestion-avoidance increment. -/
  caAcc : U32
  prrDelivered : U64
  prrOut : U64
  recoverFs : U32
  priorCwnd : U32
  priorSsthresh : U32
  /-- The episode may still be undone. -/
  undoValid : Bool
  /-- `SND.UNA` when the episode began; only D-SACKs above it count. -/
  undoMarker : U32
  /-- Retransmissions of the episode not yet shown needless by a D-SACK. -/
  undoRetrans : U32
  deriving Repr, DecidableEq

namespace Reno

def new (initialCwnd : U32) : Reno where
  cwnd := initialCwnd
  ssthresh := BitVec.allOnes 32 / 2
  state := .opened
  recoveryPoint := 0
  caAcc := 0
  prrDelivered := 0
  prrOut := 0
  recoverFs := 1
  priorCwnd := 0
  priorSsthresh := 0
  undoValid := false
  undoMarker := 0
  undoRetrans := 0

/-- A PRR-paced reduction (fast recovery or CWR) is in progress. -/
def inReduction (r : Reno) : Bool := r.state == .recovery || r.state == .cwr

/-- Fast recovery or RTO recovery is in progress. -/
def inLossRecovery (r : Reno) : Bool := r.state == .recovery || r.state == .loss

/-- Slow start: the window grows by what was delivered, up to `ssthresh`; the bytes left over. -/
def slowStart (r : Reno) (acked : U32) : U32 × Reno :=
  if h : r.cwnd.toNat < r.ssthresh.toNat then
    let inc := minB acked (subIn r.ssthresh r.cwnd h.le)
    (subIn acked inc (by rw [toNat_minB]; exact min_le_left _ _),
      { r with cwnd := satAdd r.cwnd inc })
  else
    (acked, r)

/-- Congestion avoidance with byte counting: +1 MSS per cwnd delivered. -/
def congestionAvoidance (r : Reno) (acked mss : U32) : Reno :=
  let caAcc := satAdd r.caAcc acked
  let w := maxB r.cwnd mss
  if w.toNat ≤ caAcc.toNat then
    let segs := caAcc / w
    let used := mulIn segs w (by
      have h₁ := Nat.div_mul_le_self caAcc.toNat w.toNat
      have h₂ := caAcc.isLt
      rw [BitVec.toNat_udiv]
      omega)
    { r with
      caAcc := subIn caAcc used (by
        rw [toNat_mulIn, BitVec.toNat_udiv]
        exact Nat.div_mul_le_self _ _)
      cwnd := satAdd r.cwnd (satMul segs mss) }
  else
    { r with caAcc := caAcc }

/-- Window growth on an ACK that newly delivered `acked` bytes, outside a reduction episode. -/
def onAck (r : Reno) (acked mss : U32) (cwndLimited : Bool) : Reno :=
  if r.inReduction || acked == 0 || !cwndLimited then
    r
  else
    let (rest, r') := r.slowStart acked
    if r.cwnd.toNat < r.ssthresh.toNat ∧ rest = 0 then r' else r'.congestionAvoidance rest mss

def beginReduction (r : Reno) (state : CaState) (flight sndNxt mss : U32) : Reno :=
  { r with
    ssthresh := maxB (flight / 2) (satMul mss 2)
    state := state
    recoveryPoint := sndNxt
    recoverFs := maxB flight 1
    prrDelivered := 0
    prrOut := 0
    caAcc := 0 }

/-- Remember the window a loss episode starting now could be undone to. -/
def armUndo (r : Reno) (sndUna : U32) : Reno :=
  { r with
    priorCwnd := r.cwnd
    priorSsthresh := r.ssthresh
    undoValid := true
    undoMarker := sndUna
    undoRetrans := 0 }

/-- Enter fast recovery: halve `ssthresh`, pace with PRR. -/
def enterRecovery (r : Reno) (flight sndUna sndNxt mss : U32) : Reno :=
  (r.armUndo sndUna).beginReduction .recovery flight sndNxt mss

/-- Enter CWR: the same PRR reduction, but nothing is retransmitted, and it is never undone. -/
def enterCwr (r : Reno) (flight sndNxt mss : U32) : Reno :=
  ({ r with undoValid := false } : Reno).beginReduction .cwr flight sndNxt mss

/-- Upgrade a CWR episode to fast recovery when loss is found during it. -/
def cwrToRecovery (r : Reno) : Reno := if r.state = .cwr then { r with state := .recovery } else r

/-- Count a retransmission against the current loss episode. -/
def onRetransmit (r : Reno) : Reno :=
  if r.undoValid ∧ r.inLossRecovery then { r with undoRetrans := satAdd r.undoRetrans 1 } else r

/-- A D-SACK reported `[start, stop)` as received twice; `true` when the episode was undone. -/
def onDsack (r : Reno) (start stop mss : U32) : Bool × Reno :=
  if ¬ r.undoValid ∨ r.undoRetrans = 0 ∨ ¬ seqGe start r.undoMarker then
    (false, r)
  else
    let segs := maxB (divCeil (stop - start) (maxB mss 1)) 1
    let r := { r with undoRetrans := satSub r.undoRetrans segs }
    if r.undoRetrans ≠ 0 then
      (false, r)
    else
      (true, { r with
        cwnd := maxB r.cwnd r.priorCwnd
        ssthresh := maxB r.ssthresh r.priorSsthresh
        state := if r.inLossRecovery then .opened else r.state
        caAcc := 0
        undoValid := false })

/-- How much PRR lets out on this ACK (never below zero). -/
def prrSndcnt (r : Reno) (delivered pipe mss : U32) (safeAck : Bool) : ℤ :=
  let prrDelivered : ℤ := min (r.prrDelivered.toNat : ℤ) (2 ^ 63 - 1)
  let prrOut : ℤ := min (r.prrOut.toNat : ℤ) (2 ^ 63 - 1)
  let sndcnt : ℤ :=
    if h : r.ssthresh.toNat < pipe.toNat then
      let num := satMul r.prrDelivered (r.ssthresh.setWidth 64)
      let ceil := divCeil num ((maxB r.recoverFs 1).setWidth 64)
      clampI64 (min (ceil.toNat : ℤ) (2 ^ 63 - 1) - prrOut)
    else
      let limit := max (clampI64 (prrDelivered - prrOut)) (delivered.toNat : ℤ)
      let limit := if safeAck then clampI64 (limit + (mss.toNat : ℤ)) else limit
      min limit ((subIn r.ssthresh pipe (Nat.le_of_not_lt h)).toNat : ℤ)
  let sndcnt := max sndcnt 0
  -- Force the fast retransmission out on the ACK that starts recovery.
  if r.prrOut = 0 ∧ sndcnt = 0 then (mss.toNat : ℤ) else sndcnt

/-- RFC 6937 per-ACK update. -/
def prrUpdate (r : Reno) (delivered pipe mss : U32) (safeAck : Bool) : Reno :=
  if ¬ r.inReduction then
    r
  else
    let r := { r with prrDelivered := satAdd r.prrDelivered (delivered.setWidth 64) }
    let c := clampI64 ((pipe.toNat : ℤ) + r.prrSndcnt delivered pipe mss safeAck)
    let cwnd : U32 := if 0 ≤ c ∧ c < 2 ^ 32 then BitVec.ofNat 32 c.toNat else BitVec.allOnes 32
    { r with cwnd := maxB cwnd mss }

/-- Account bytes put on the wire (PRR `prr_out`). -/
def onSend (r : Reno) (bytes : U32) : Reno :=
  if r.inReduction then { r with prrOut := satAdd r.prrOut (bytes.setWidth 64) } else r

/-- RFC 5681 §3.1 retransmission timeout. -/
def onRto (r : Reno) (flight sndUna sndNxt mss : U32) : Reno :=
  let episodeOver := decide (seqGe sndUna r.recoveryPoint)
  let r' :=
    if (r.state == .opened || r.state == .cwr) || episodeOver then
      let u := if r.state = .cwr then { r with undoValid := false } else r.armUndo sndUna
      { u with ssthresh := maxB (flight / 2) (satMul mss 2) }
    else
      r
  { r' with cwnd := mss, caAcc := 0, state := .loss, recoveryPoint := sndNxt }

/-- End the episode once `SND.UNA` passes the recovery point; `true` if one ended on this call. -/
def maybeExit (r : Reno) (sndUna : U32) : Bool × Reno :=
  if r.state = .opened ∨ ¬ seqGe sndUna r.recoveryPoint then
    (false, r)
  else
    (true, { r with
      cwnd := if r.inReduction then r.ssthresh else r.cwnd
      state := .opened
      caAcc := 0 })

/-- Idle restart: the window is reset to `min(IW, cwnd)`. -/
def onIdleRestart (r : Reno) (iw : U32) : Reno :=
  if r.state = .opened then { r with cwnd := minB r.cwnd iw } else r

end Reno

end TcpSansIo
