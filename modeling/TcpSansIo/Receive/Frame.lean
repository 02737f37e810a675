import TcpSansIo.OffPath
import TcpSansIo.Receive.Intake

/-!
# What an accepted segment leaves alone

A segment that passes every check of `on_synchronized` first updates the peer's timestamp and the ECN
echo.  Its ACK, its text and FIN, and the answer to it then move both sequence spaces, the rings, the
timers and the state, and leave the rest of the block alone: who talks to whom, what was negotiated,
the timestamps, the keys and the clock (`acceptSegment_frame`).
-/

namespace TcpSansIo

open Proc FixedWidth

variable {P : Params}

namespace Tcb

/-- The block without what an accepted segment moves after its timestamp and ECN mark were taken. -/
def exceptSegment (t : Tcb P) : Tcb P :=
  { t.exceptTransmit.exceptReact.exceptIntake with
    toKeepaliveTimer := (zeroed : Tcb P).toKeepaliveTimer }

section

variable {α : Type} {x : TcbM P α}

/-- Output is part of what an accepted segment moves. -/
lemma segment_of_transmit (h : Leaves (Agree (exceptTransmit (P := P))) x) :
    Leaves (Agree exceptSegment) x :=
  h.agree_of exceptSegment fun _ => rfl

lemma segment_of_ack (h : Leaves (Agree (exceptAck (P := P))) x) : Leaves (Agree exceptSegment) x :=
  h.agree_of exceptSegment fun _ => rfl

end

/-- The ACK of our FIN moves the state and arms the TIME_WAIT timer. -/
lemma ourFinAcked_frame (t : Tcb P) : Agree exceptSegment t t.ourFinAcked := by
  unfold ourFinAcked enterTimeWait
  generalize Deadline.atMs _ = d
  split
  · split <;> exact rfl
  · rfl

/-- All that the ACK of an accepted segment moves. -/
lemma processAck_frame (seg : Segment) : Leaves (Agree (exceptSegment (P := P))) (processAck seg) := by
  refine Leaves.bind (Leaves.ofModify fun _ => rfl) fun _ => Leaves.bind Leaves.ofGet fun t => ?_
  refine Leaves.ite (Leaves.ofPure _) (Leaves.bind ?_ fun _ => Leaves.ofModify ourFinAcked_frame)
  exact (reactToAck_react seg).agree_of exceptSegment fun _ => rfl

/-- The answer to text is an ACK, at once or later. -/
lemma answerText_frame (seg : Segment) (ackNow advanced : Bool) :
    Leaves (Agree (exceptSegment (P := P))) (answerText seg ackNow advanced) := by
  refine Leaves.ite (segment_of_ack sendPureAck_footprint) (Leaves.ite ?_ (Leaves.ite ?_ (Leaves.ofPure _)))
  · exact Leaves.ofModify fun t => (scheduleDelayedAck_footprint _ t).of exceptSegment
  · exact segment_of_ack sendOowAck_footprint

/-- The block an accepted segment's ACK and text start from. -/
def noteSegment (t : Tcb P) (seg : Segment) : Tcb P :=
  ((t.updateTsRecent seg).updateEcnEcho seg).onPeerAlive

/-- After its timestamp and ECN mark were taken, an accepted segment leaves the rest of the block alone. -/
lemma acceptSegment_frame (seg : Segment) (probe : Bool) (t : Tcb P) :
    Agree exceptSegment (t.noteSegment seg) (final (acceptSegment seg probe t)) := by
  have hrest : Leaves (Agree (exceptSegment (P := P))) (do
      processAck seg
      let t ← get
      if t.state = .closed then
        return ()
      else if probe then
        sendPureAck
        maybeSendData
      else
        let ackNow ← modifyGet fun t => t.receiveSegment seg
        let t' ← get
        answerText seg ackNow (t'.rcvNxt != t.rcvNxt)
        maybeSendData) := by
    have hsend := segment_of_transmit (maybeSendData_footprint (P := P))
    refine Leaves.bind (processAck_frame seg) fun _ => Leaves.bind Leaves.ofGet fun t => ?_
    refine Leaves.ite (Leaves.ofPure _) (Leaves.ite ?_ ?_)
    · exact Leaves.bind (segment_of_ack sendPureAck_footprint) fun _ => hsend
    · refine Leaves.bind (Leaves.ofModifyGet fun u => ?_) fun _ => Leaves.bind Leaves.ofGet fun _ =>
        Leaves.bind (answerText_frame _ _ _) fun _ => hsend
      exact (receiveSegment_frame u seg).of exceptSegment
  exact hrest (t.noteSegment seg)

/-- Every check of `on_synchronized` passes. -/
structure Accepted (t : Tcb P) (seg : Segment) : Prop where
  ack : seg.flags.ack = true
  rst : seg.flags.rst = false
  syn : seg.flags.syn = false
  window : t.segmentAcceptable seg = true ∨ t.zeroWindowProbe seg = true
  paws : t.pawsReject seg = false
  ackOk : t.ackAcceptable seg.ack = true

/-- A segment that passes every check falls through to `acceptSegment`. -/
lemma onSynchronized_of_accepted {t : Tcb P} {seg : Segment} (h : t.Accepted seg) :
    onSynchronized seg t = acceptSegment seg (t.zeroWindowProbe seg) t := by
  have hwin : ¬ ((!t.segmentAcceptable seg && !t.zeroWindowProbe seg) = true) := by
    rcases h.window with h | h <;> simp [h]
  unfold onSynchronized
  rw [run_get_bind, if_neg (by simp [h.ack]), if_neg hwin, if_neg (by simp [h.paws]),
    if_neg (by simp [h.rst]), if_neg (by simp [h.syn]), if_neg (by simp [h.ack]),
    if_neg (by simp [h.ackOk])]

/-- An accepted segment on the connected 4-tuple is counted and processed. -/
lemma injectSegment_of_accepted {t : Tcb P} {seg : Segment} (hsync : t.state.isSynchronized = true)
    (htuple : t.OnTuple seg) (h : t.Accepted seg) :
    injectSegment seg t = acceptSegment seg (t.zeroWindowProbe seg) t.countIn := by
  have h' : t.countIn.Accepted seg := ⟨h.ack, h.rst, h.syn, h.window, h.paws, h.ackOk⟩
  rw [injectSegment_onTuple hsync htuple, onSynchronized_of_accepted h']
  rfl

end Tcb

end TcpSansIo
