import TcpSansIo.RtxQueue

/-!
# RACK-TLP loss detection (`rack.rs`)

The RACK state machine (steps 2–4 of RFC 8985 §6.2), the windowed minimum RTT it rests on, and the
loss scan (step 5) over the retransmission queue.
-/

namespace TcpSansIo

open FixedWidth

/-- Window over which `min_rtt` is tracked. -/
def MIN_RTT_WINDOW_MS : U64 := 300000

/-- RFC 8985 DupThresh used for the "enough SACKed" reordering heuristic. -/
def DUP_THRESH : U32 := 3

/-- RFC 8985 `RACK_sent_after`, ordering by transmission number, then by sequence. -/
def sentAfter (x1 seq1 x2 seq2 : U32) : Prop :=
  0 < (x1 - x2).toInt ∨ ((x1 - x2).toInt = 0 ∧ seqGt seq1 seq2)

instance (x1 seq1 x2 seq2 : U32) : Decidable (sentAfter x1 seq1 x2 seq2) :=
  inferInstanceAs (Decidable (_ ∨ _))

/-! ## Windowed minimum -/

/-- One sample of the windowed minimum: when, and what. -/
structure Sample where
  t : U64
  v : U32
  deriving Repr, DecidableEq

/-- Windowed running minimum (three-sample algorithm). -/
structure WinMin where
  s0 : Sample
  s1 : Sample
  s2 : Sample
  valid : Bool
  deriving Repr, DecidableEq

namespace WinMin

def new : WinMin := ⟨⟨0, 0⟩, ⟨0, 0⟩, ⟨0, 0⟩, false⟩

def get (m : WinMin) : Option U32 := if m.valid then some m.s0.v else none

def reset (t : U64) (v : U32) : WinMin := ⟨⟨t, v⟩, ⟨t, v⟩, ⟨t, v⟩, true⟩

/-- The second and third choices yield to a sample at least as small. -/
def offer (m : WinMin) (s : Sample) : WinMin :=
  if s.v.toNat ≤ m.s1.v.toNat then { m with s1 := s, s2 := s }
  else if s.v.toNat ≤ m.s2.v.toNat then { m with s2 := s }
  else m

/-- Drop the oldest choice and append `s`. -/
def rotate (m : WinMin) (s : Sample) : WinMin := { m with s0 := m.s1, s1 := m.s2, s2 := s }

def update (m : WinMin) (win t : U64) (v : U32) : WinMin :=
  let s : Sample := ⟨t, v⟩
  if ¬ m.valid ∨ v.toNat ≤ m.s0.v.toNat ∨ win.toNat < (satSub t m.s2.t).toNat then
    reset t v
  else
    let m := m.offer s
    let dt := (satSub t m.s0.t).toNat
    if win.toNat < dt then
      let m := m.rotate s
      if win.toNat < (satSub t m.s0.t).toNat then m.rotate s else m
    else if m.s1.t = m.s0.t ∧ win.toNat / 4 < dt then
      { m with s1 := s, s2 := s }
    else if m.s2.t = m.s1.t ∧ win.toNat / 2 < dt then
      { m with s2 := s }
    else
      m

end WinMin

/-! ## RACK state -/

/-- RACK state (RFC 8985 §6.1).  The reordering-window multiplier stays at most 16. -/
structure Rack where
  valid : Bool
  xmitSeq : U32
  endSeq : U32
  rtt : U32
  minRtt : WinMin
  fack : U32
  fackValid : Bool
  priorFack : U32
  priorFackValid : Bool
  reorderingSeen : Bool
  /-- `RACK.reo_wnd_mult` minus one. -/
  reoWndExtra : U32
  reoWndPersist : U32
  dsackRoundActive : Bool
  dsackRound : U32
  reoWndExtra_le : reoWndExtra.toNat ≤ 15
  deriving DecidableEq

namespace Rack

def new : Rack where
  valid := false
  xmitSeq := 0
  endSeq := 0
  rtt := 0
  minRtt := WinMin.new
  fack := 0
  fackValid := false
  priorFack := 0
  priorFackValid := false
  reorderingSeen := false
  reoWndExtra := 0
  reoWndPersist := 0
  dsackRoundActive := false
  dsackRound := 0
  reoWndExtra_le := by decide

/-- Feed a valid RTT sample into `min_rtt`. -/
def sampleRtt (r : Rack) (now : U64) (rtt : U32) : Rack :=
  { r with minRtt := r.minRtt.update MIN_RTT_WINDOW_MS now rtt }

/-- Call once per ACK, before its `on_delivered` calls. -/
def onAckStart (r : Rack) : Rack := { r with priorFack := r.fack, priorFackValid := r.fackValid }

/-- Step 3: a never-retransmitted segment delivered below what earlier ACKs delivered arrived out
of order; and the highest delivered end sequence. -/
def noteOrder (r : Rack) (seg : Seg) : Rack :=
  let r :=
    if r.priorFackValid ∧ ¬ seg.flags.everRetrans ∧ seqGt r.priorFack seg.stop then
      { r with reorderingSeen := true }
    else r
  if ¬ r.fackValid ∨ seqGt seg.stop r.fack then { r with fack := seg.stop, fackValid := true } else r

/-- RTT implied by the delivery of `seg` now. -/
def rttOf (seg : Seg) (now : U64) : U32 :=
  (tryNarrow 32 (satSub now seg.xmitTs)).getD (BitVec.allOnes 32)

/-- Step 2: a retransmitted segment counts only if the ACK provably refers to its latest
transmission and the implied RTT is plausible. -/
def ambiguous (r : Rack) (seg : Seg) (rtt : U32) (tsecrMs : Option U32) : Bool :=
  seg.flags.everRetrans &&
    (tsecrMs.any (fun t => decide ((t - seg.xmitTs.setWidth 32).toInt < 0)) ||
      r.minRtt.get.any (fun m => decide (rtt.toNat < m.toNat)))

/-- Steps 2 and 3 for one newly delivered segment. -/
def onDelivered (r : Rack) (seg : Seg) (now : U64) (tsecrMs : Option U32) : Rack :=
  let r := r.noteOrder seg
  let rtt := rttOf seg now
  if r.ambiguous seg rtt tsecrMs then
    r
  else
    let r := { r with rtt := rtt }
    if ¬ r.valid ∨ sentAfter seg.xmitSeq seg.stop r.xmitSeq r.endSeq then
      { r with valid := true, xmitSeq := seg.xmitSeq, endSeq := seg.stop }
    else r

/-- Step 4 bookkeeping when an ACK carried a D-SACK: grow the reordering window once per round
trip that observes D-SACKs. -/
def onDsack (r : Rack) (sndUna sndNxt : U32) : Rack :=
  let active := r.dsackRoundActive && !(decide (seqGe sndUna r.dsackRound))
  let r :=
    if active then
      { r with dsackRoundActive := true }
    else
      { r with
        dsackRoundActive := true
        dsackRound := sndNxt
        reoWndExtra := minB (satAdd r.reoWndExtra 1) 15
        reoWndPersist := 16
        reoWndExtra_le := by rw [toNat_minB]; exact min_le_right _ _ }
  { r with reorderingSeen := true }

/-- Called when fast or RTO recovery ends. -/
def onRecoveryExit (r : Rack) : Rack :=
  let r := { r with reoWndPersist := satSub r.reoWndPersist 1 }
  if r.reoWndPersist = 0 then { r with reoWndExtra := 0, reoWndExtra_le := by decide } else r

@[simp] lemma minRtt_onDsack (r : Rack) (sndUna sndNxt : U32) :
    (r.onDsack sndUna sndNxt).minRtt = r.minRtt := by
  unfold onDsack
  dsimp only
  split <;> rfl

@[simp] lemma minRtt_onRecoveryExit (r : Rack) : r.onRecoveryExit.minRtt = r.minRtt := by
  unfold onRecoveryExit
  dsimp only
  split <;> rfl

/-- Deliveries do not change the minimum RTT: only samples do. -/
@[simp] lemma minRtt_onDelivered (r : Rack) (seg : Seg) (now : U64) (tsecrMs : Option U32) :
    (r.onDelivered seg now tsecrMs).minRtt = r.minRtt := by
  have hnote (r : Rack) : (r.noteOrder seg).minRtt = r.minRtt := by
    unfold noteOrder
    dsimp only
    split <;> split <;> rfl
  unfold onDelivered
  dsimp only
  split
  · exact hnote r
  · split <;> exact hnote r

lemma minRtt_foldl_onDelivered (r : Rack) (l : List Seg) (now : U64) (tsecrMs : Option U32) :
    (l.foldl (fun r s => r.onDelivered s now tsecrMs) r).minRtt = r.minRtt := by
  induction l generalizing r with
  | nil => rfl
  | cons s l ih => rw [List.foldl_cons, ih, minRtt_onDelivered]

/-- Step 4: the reordering window in ms. -/
def reoWnd (r : Rack) (srtt : U32) (inRecovery : Bool) (sackedBytes mss : U32) : U32 :=
  if ¬ r.reorderingSeen ∧ (inRecovery ∨ (satMul DUP_THRESH mss).toNat ≤ sackedBytes.toNat) then
    0
  else
    let base := (r.minRtt.get.getD srtt) / 4
    let mult := addIn r.reoWndExtra 1 (by
      have h := r.reoWndExtra_le
      have h₁ : (1 : U32).toNat = 1 := rfl
      omega)
    minB (satMul base mult) (maxB srtt 1)

end Rack

/-! ## Step 5: the loss scan -/

/-- The result of `detect_loss` so far: the queue, the longest wait, whether anything was marked. -/
structure LossScan (CAP : ℕ) where
  queue : RtxQueue CAP
  timeout : U64
  marked : Bool

/-- The scan of `detect_loss` from index `i`; every round moves to a later record. -/
def detectLossLoop {CAP : ℕ} [NeZero CAP] (rack : Rack) (now thresh : U64) :
    (fuel i : ℕ) → LossScan CAP → LossScan CAP
  | 0, _, a => a
  | fuel + 1, i, a =>
    match a.queue.get i with
    | none => a
    | some s =>
      if s.flags.sacked then
        -- Never a candidate: step over the whole SACKed run at once.
        match a.queue.nextUnsacked (i + 1) with
        | some j => detectLossLoop rack now thresh fuel j a
        | none => a
      else if s.awaitsRetrans then
        detectLossLoop rack now thresh fuel (i + 1) a
      else if ¬ sentAfter rack.xmitSeq rack.endSeq s.xmitSeq s.stop then
        -- Sent at or after RACK.segment; so was every later one never retransmitted.
        if ¬ s.flags.everRetrans then a else detectLossLoop rack now thresh fuel (i + 1) a
      else
        let deadline := satAdd s.xmitTs thresh
        if h : deadline.toNat ≤ now.toNat then
          detectLossLoop rack now thresh fuel (i + 1)
            { a with queue := a.queue.markLost i, marked := true }
        else
          detectLossLoop rack now thresh fuel (i + 1)
            { a with timeout := maxB a.timeout (subIn deadline now (Nat.le_of_not_le h)) }

/-- Mark lost every unacknowledged segment sent before `RACK.segment` whose deadline has passed:
whether anything was newly marked, the delay after which to re-run (if any), and the queue. -/
def detectLoss {CAP : ℕ} [NeZero CAP] (rack : Rack) (q : RtxQueue CAP) (now : U64) (reoWnd : U32) :
    Bool × Option U64 × RtxQueue CAP :=
  if ¬ rack.valid then
    (false, none, q)
  else
    let thresh := satAdd (rack.rtt.setWidth 64) (reoWnd.setWidth 64)
    let a := detectLossLoop rack now thresh (q.len + 1) 0
      { queue := q, timeout := 0, marked := false }
    (a.marked, if a.timeout = 0 then none else some a.timeout, a.queue)

end TcpSansIo
