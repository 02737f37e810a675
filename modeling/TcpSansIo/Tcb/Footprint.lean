import TcpSansIo.Tcb.Api

/-!
# What output leaves alone

A footprint is a projection of the block that forgets the fields a family of functions may write;
`Leaves (Agree footprint) x` then says that `x` writes nothing else.

* `exceptAck` forgets what a pure ACK writes: the egress ring and IP id, the statistics, the rate
  limiter and the ACK bookkeeping.
* `exceptEmit` also forgets the pending CWR, which rides on data.
* `exceptTransmit` also forgets what sending data writes: `SND.NXT` and the FIN, the retransmission
  queue, congestion control, the retransmission and persist timers, the path-MTU probe.
* `exceptData` and `exceptSet` forget what the calls write that move data (`Call.moves`) and that set a
  knob, a secret or the clock (`Call.tunes`).
-/

namespace TcpSansIo

open Proc FixedWidth

variable {P : Params}

namespace Tcb

/-- The block without what a pure ACK writes. -/
def exceptAck (t : Tcb P) : Tcb P :=
  { t with
    toEgress := (zeroed : Tcb P).toEgress
    toAckState := (zeroed : Tcb P).toAckState
    stats := {}
    lastOowMs := Deadline.OFF }

/-- The same, and without the pending CWR. -/
def exceptEmit (t : Tcb P) : Tcb P := { t.exceptAck with sendCwrPending := false }

/-- A stateless SYN-ACK also marks the cookie key as used. -/
def exceptCookie (t : Tcb P) : Tcb P := { t.exceptAck with cookieSecretUsed := false }

/-- The block without what sending data writes. -/
def exceptTransmit (t : Tcb P) : Tcb P :=
  { t.exceptEmit with
    sndNxt := 0
    finSent := false
    finSeq := 0
    rtx := RtxQueue.new
    toCongState := (zeroed : Tcb P).toCongState
    rtoDeadline := Deadline.OFF
    tlpDeadline := Deadline.OFF
    toPersistTimer := (zeroed : Tcb P).toPersistTimer
    pmtuProbeMss := 0
    pmtuProbeInflight := false
    pmtuProbeStart := 0
    pmtuProbeEnd := 0
    pmtuProbeAt := 0
    pmtuProbeBackoffMs := 0 }

section

variable {α : Type} {x : TcbM P α}

/-- What writes no more than a pure ACK writes no more than a segment. -/
lemma emit_of_ack (h : Leaves (Agree (exceptAck (P := P))) x) : Leaves (Agree exceptEmit) x :=
  h.agree_of exceptEmit fun _ => rfl

/-- What writes no more than a segment writes no more than sending data. -/
lemma transmit_of_emit (h : Leaves (Agree (exceptEmit (P := P))) x) :
    Leaves (Agree exceptTransmit) x :=
  h.agree_of exceptTransmit fun _ => rfl

end

/-! ## Segments -/

/-- Staging a datagram touches the egress side only, whether there is room for it or not. -/
lemma stage_footprint (h : Header) (len : ℕ) (fill : ℕ → Option (List U8)) :
    Leaves (Agree (exceptAck (P := P))) (stage h len fill) := by
  intro t
  unfold stage
  split
  case h_1 => exact rfl
  case h_2 =>
    split
    · exact rfl
    · exact rfl

/-- A segment takes the pending CWR along if it is data sent for the first time. -/
lemma emitSegment_emit (fl : Flags) (seq ack : U32) (options : TcpOptions) (payload : RingSlice)
    (ect : Bool) :
    Leaves (Agree (exceptEmit (P := P))) (emitSegment fl seq ack options payload ect) := by
  refine Leaves.bind Leaves.ofGet fun t => Leaves.ite (Leaves.ofPure _) ?_
  refine Leaves.bind (Leaves.ofModify fun _ => rfl) fun _ => ?_
  refine Leaves.bind (emit_of_ack (stage_footprint _ _ _)) fun queued => ?_
  refine Leaves.bind (Leaves.ofModify fun t' => ?_) fun _ => Leaves.ofPure _
  split <;> exact rfl

/-- A segment that is not a first transmission of data carries no CWR of ours. -/
lemma emitSegment_footprint (fl : Flags) (seq ack : U32) (options : TcpOptions) (payload : RingSlice) :
    Leaves (Agree (exceptAck (P := P))) (emitSegment fl seq ack options payload false) := by
  refine Leaves.bind Leaves.ofGet fun t => Leaves.ite (Leaves.ofPure _) ?_
  refine Leaves.bind (Leaves.ofModify fun t' => ?_) fun _ => ?_
  · simp only [Agree, exceptAck, Bool.and_false, Bool.not_false, Bool.and_true]
  refine Leaves.bind (stage_footprint _ _ _) fun queued => ?_
  refine Leaves.bind (Leaves.ofModify fun t' => ?_) fun _ => Leaves.ofPure _
  split <;> exact rfl

/-- A D-SACK is reported once: building the options forgets it. -/
lemma segmentOptions_footprint (len : U32) (t : Tcb P) :
    Agree exceptAck t (segmentOptions len t).2 := by
  unfold segmentOptions
  lift_lets
  extract_lets
  split
  · split <;> exact rfl
  · exact rfl

/-- Data carries the ACK that was owed. -/
lemma emitDataSegment_footprint (fl : Flags) (seq : U32) (payload : RingSlice) (ect : Bool) :
    Leaves (Agree (exceptEmit (P := P))) (emitDataSegment fl seq payload ect) := by
  refine Leaves.bind (emit_of_ack (Leaves.ofModifyGet (segmentOptions_footprint _))) fun _ => ?_
  refine Leaves.bind Leaves.ofGet fun _ => ?_
  refine Leaves.bind (emitSegment_emit _ _ _ _ _ _) fun queued => ?_
  refine Leaves.bind (Leaves.ofModify fun t => ?_) fun _ => Leaves.ofPure _
  split <;> exact rfl

/-- A pure ACK is sent, or is owed at once where the egress ring is full. -/
lemma sendPureAck_footprint : Leaves (Agree (exceptAck (P := P))) sendPureAck := by
  refine Leaves.bind Leaves.ofGet fun t => Leaves.ite (Leaves.ofModify fun _ => rfl) ?_
  refine Leaves.bind (Leaves.ofModifyGet (segmentOptions_footprint _)) fun _ => ?_
  refine Leaves.bind Leaves.ofGet fun _ => ?_
  refine Leaves.bind (emitSegment_footprint _ _ _ _ _) fun _ => Leaves.ofModify fun t => ?_
  split <;> exact rfl

lemma oowAllowed_footprint (t : Tcb P) : Agree exceptAck t (oowAllowed t).2 := by
  unfold oowAllowed
  lift_lets
  intro limited
  split <;> exact rfl

/-- A challenge ACK is a pure ACK behind the rate limiter. -/
lemma sendOowAck_footprint : Leaves (Agree (exceptAck (P := P))) sendOowAck :=
  Leaves.bind (Leaves.ofModifyGet oowAllowed_footprint) fun _ =>
    Leaves.ite sendPureAck_footprint (Leaves.ofPure ())

lemma emitProbe_footprint (seq : U32) : Leaves (Agree (exceptAck (P := P))) (emitProbe seq) :=
  Leaves.bind Leaves.ofGet fun _ => emitSegment_footprint _ _ _ _ _

lemma emitSyn_footprint : Leaves (Agree (exceptAck (P := P))) emitSyn :=
  Leaves.bind Leaves.ofGet fun _ => emitSegment_footprint _ _ _ _ _

lemma emitSynack_footprint : Leaves (Agree (exceptAck (P := P))) emitSynack :=
  Leaves.bind Leaves.ofGet fun _ => emitSegment_footprint _ _ _ _ _

lemma emitCtl_footprint (fl : Flags) (seq ack : U32) :
    Leaves (Agree (exceptAck (P := P))) (emitCtl fl seq ack) :=
  emitSegment_footprint _ _ _ _ _

lemma emitRstTo_footprint (seg : Segment) (seq ack : U32) (fl : Flags) :
    Leaves (Agree (exceptAck (P := P))) (emitRstTo seg seq ack fl) :=
  Leaves.bind Leaves.ofGet fun _ => Leaves.bind (stage_footprint _ _ _) fun _ => Leaves.ofPure ()

/-- The reset that answers an unacceptable ACK is behind the rate limiter too. -/
lemma refuseAck_footprint (seg : Segment) : Leaves (Agree (exceptAck (P := P))) (refuseAck seg) :=
  Leaves.bind (Leaves.ofModifyGet oowAllowed_footprint) fun _ =>
    Leaves.ite (emitRstTo_footprint _ _ _ _) (Leaves.ofPure ())

/-- The half-open block of a busy listener is none of the business of a cookie SYN-ACK. -/
lemma emitCookieSynack_footprint (seg : Segment) :
    Leaves (Agree (exceptCookie (P := P))) (emitCookieSynack seg) := by
  intro t
  unfold emitCookieSynack
  split
  · exact rfl
  · dsimp only
    refine (?_ : Leaves (Agree exceptCookie) _) t
    refine Leaves.bind ((stage_footprint _ _ _).agree_of exceptCookie fun _ => rfl) fun _ => ?_
    refine Leaves.ofModify fun t' => ?_
    split <;> exact rfl

/-- A window update is a pure ACK. -/
lemma maybeSendWindowUpdate_footprint :
    Leaves (Agree (exceptAck (P := P))) maybeSendWindowUpdate :=
  Leaves.bind Leaves.ofGet fun _ => Leaves.ite (Leaves.ofPure ())
    (Leaves.ite sendPureAck_footprint (Leaves.ofPure ()))

/-- A delayed ACK only moves its deadline, and a second segment sends it. -/
lemma scheduleDelayedAck_footprint (len : U32) (t : Tcb P) :
    Agree exceptAck t (scheduleDelayedAck len t) := by
  unfold scheduleDelayedAck
  dsimp only
  split
  · exact sendPureAck_footprint _
  · split <;> exact rfl

/-! ## Data -/

/-- All `maybe_arm_tlp` writes is the deadline of the probe. -/
lemma maybeArmTlp_eq (t : Tcb P) : ∃ d, t.maybeArmTlp = { t with tlpDeadline := d } := by
  unfold maybeArmTlp
  split <;> exact ⟨_, rfl⟩

/-- All `ensureRto` writes is the retransmission deadline. -/
lemma ensureRto_eq (t : Tcb P) : ∃ d, t.ensureRto = { t with rtoDeadline := d } := by
  unfold ensureRto
  split <;> exact ⟨_, rfl⟩

lemma countSent_footprint (len : U32) (t : Tcb P) : Agree exceptTransmit t (countSent len t) := by
  unfold countSent
  split <;> exact rfl

/-- The books of a first transmission. -/
lemma noteNew_footprint (seq len seqLen : U32) (fin : Bool) (t : Tcb P) :
    Agree exceptTransmit t (noteNew seq len seqLen fin t) := by
  unfold noteNew
  obtain ⟨d, hd⟩ := maybeArmTlp_eq (countSent len (advanceNxt seq len seqLen fin t)).ensureRto
  obtain ⟨d', hd'⟩ := ensureRto_eq (countSent len (advanceNxt seq len seqLen fin t))
  rw [hd, hd']
  exact countSent_footprint len (advanceNxt seq len seqLen fin t)

/-- A first transmission stages a segment, pushes its record and keeps the books. -/
lemma emitNew_footprint (len : U32) (fin : Bool) :
    Leaves (Agree (exceptTransmit (P := P))) (emitNew len fin) := by
  refine Leaves.bind Leaves.ofGet fun t => ?_
  dsimp only
  split
  · exact Leaves.ofThrow _
  refine Leaves.bind (transmit_of_emit (emitDataSegment_footprint _ _ _ _)) fun queued => ?_
  refine Leaves.ite (Leaves.bind (Leaves.ofModifyGet fun _ => rfl) fun pushed => ?_) (Leaves.ofPure _)
  exact Leaves.ite
    (Leaves.bind (Leaves.ofModify (noteNew_footprint _ _ _ _)) fun _ => Leaves.ofPure _)
    (Leaves.ofThrow _)

lemma idleRestart_footprint (mss : U32) (t : Tcb P) : Agree exceptTransmit t (idleRestart mss t) := by
  unfold idleRestart
  split <;> exact rfl

lemma noteProbe_footprint (seq : U32) (probe : Option (U32 × U16)) (t : Tcb P) :
    Agree exceptTransmit t (t.noteProbe seq probe) := by
  unfold noteProbe
  split <;> exact rfl

/-- New data goes out with the idle restart before it and the note of a path-MTU probe after it. -/
lemma sendNew_footprint : Leaves (Agree (exceptTransmit (P := P))) sendNew := by
  refine Leaves.bind Leaves.ofGet fun t => ?_
  refine Leaves.ite (Leaves.ite (emitNew_footprint _ _) (Leaves.ofPure _)) ?_
  refine Leaves.ite (Leaves.ofPure _) (Leaves.ite ?_ ?_)
  · exact Leaves.bind (Leaves.ofModify fun _ => rfl) fun _ => Leaves.ofPure _
  split
  · exact Leaves.ofPure _
  refine Leaves.bind (Leaves.ofModify (idleRestart_footprint _)) fun _ => ?_
  refine Leaves.bind (emitNew_footprint _ _) fun _ => ?_
  refine Leaves.bind (Leaves.ofModify fun t' => ?_) fun _ => Leaves.ofPure _
  split
  · exact noteProbe_footprint _ _ _
  · exact rfl

lemma failProbeOver_footprint (s : Seg) (t : Tcb P) :
    Agree exceptTransmit t (failProbeOver s t) := by
  unfold failProbeOver
  split <;> exact rfl

lemma splitForMss_footprint (i : ℕ) (s : Seg) (t : Tcb P) :
    Agree exceptTransmit t (splitForMss i s t) := by
  unfold splitForMss
  split <;> exact rfl

/-- The books of a retransmission. -/
lemma noteRetransmit_footprint (i : ℕ) (s : Seg) (plen sentLen : U32) (t : Tcb P) :
    Agree exceptTransmit t (noteRetransmit i s plen sentLen t) := by
  unfold noteRetransmit
  obtain ⟨d, hd⟩ := ensureRto_eq (P := P) _
  rw [hd]
  exact rfl

lemma resend_footprint (i : ℕ) (s : Seg) :
    Leaves (Agree (exceptTransmit (P := P))) (resend i s) := by
  refine Leaves.bind Leaves.ofGet fun t => ?_
  dsimp only
  split
  · exact Leaves.ofThrow _
  refine Leaves.bind (transmit_of_emit (emitDataSegment_footprint _ _ _ _)) fun queued => ?_
  exact Leaves.ite
    (Leaves.bind (Leaves.ofModify (noteRetransmit_footprint _ _ _ _)) fun _ => Leaves.ofPure _)
    (Leaves.ofPure _)

/-- A retransmission fails the path-MTU probe it overlaps and may split its record first. -/
lemma retransmit_footprint (i : ℕ) : Leaves (Agree (exceptTransmit (P := P))) (retransmit i) := by
  refine Leaves.bind Leaves.ofGet fun t => ?_
  split
  · exact Leaves.ofPure _
  refine Leaves.bind (Leaves.ofModify (failProbeOver_footprint _)) fun _ => ?_
  refine Leaves.bind (Leaves.ofModify (splitForMss_footprint _ _)) fun _ => ?_
  exact Leaves.bind Leaves.ofGet fun _ => resend_footprint _ _

lemma sendOne_footprint : Leaves (Agree (exceptTransmit (P := P))) sendOne := by
  refine Leaves.bind (Leaves.ofModifyGet fun _ => rfl) fun next => ?_
  split
  · refine Leaves.bind Leaves.ofGet fun t => Leaves.ite ?_ (retransmit_footprint _)
    exact Leaves.bind (Leaves.ofModify fun _ => rfl) fun _ => Leaves.ofPure _
  · exact sendNew_footprint

/-- By induction on the rounds left: every round sends one segment. -/
lemma sendLoop_footprint (fuel : ℕ) (guard : U32) :
    Leaves (Agree (exceptTransmit (P := P))) (sendLoop fuel guard) := by
  induction fuel generalizing guard with
  | zero => exact Leaves.ofThrow _
  | succ fuel ih =>
    refine Leaves.bind Leaves.ofGet fun t => Leaves.ite (Leaves.ofPure _) ?_
    split
    · exact Leaves.ofThrow _
    refine Leaves.ite (Leaves.ite (Leaves.ofThrow _) (Leaves.ofPure _)) ?_
    exact Leaves.bind sendOne_footprint fun _ => Leaves.ite (ih _) (Leaves.ofPure _)

lemma updatePersist_footprint (t : Tcb P) : Agree exceptTransmit t t.updatePersist := by
  unfold updatePersist
  dsimp only
  split
  · exact rfl
  · split <;> exact rfl

/-- Output of data, whatever it finds to send. -/
lemma maybeSendData_footprint : Leaves (Agree (exceptTransmit (P := P))) maybeSendData :=
  Leaves.bind Leaves.ofGet fun _ => Leaves.ite (Leaves.ofPure _)
    (Leaves.bind (sendLoop_footprint _ _) fun _ => Leaves.ofModify updatePersist_footprint)

/-! ## Acknowledgments -/

/-- The block without what reacting to an ACK writes: the send side, loss detection, congestion
control, RTT, path-MTU state, and the timers of outstanding data. -/
def exceptReact (t : Tcb P) : Tcb P :=
  { t with
    toSendWindow := (zeroed : Tcb P).toSendWindow
    sndUna := 0
    synUnacked := false
    toAckRange := (zeroed : Tcb P).toAckRange
    sendRing := Ring.new
    rtx := RtxQueue.new
    pmtuMss := 0
    pmtuRestoreMss := 0
    pmtuProbeInflight := false
    pmtuProbeAt := 0
    sendCwrPending := false
    toLossState := (zeroed : Tcb P).toLossState
    toCongState := (zeroed : Tcb P).toCongState
    toRttState := (zeroed : Tcb P).toRttState
    toRtxTimers := (zeroed : Tcb P).toRtxTimers
    toPersistTimer := (zeroed : Tcb P).toPersistTimer
    toUserTimer := (zeroed : Tcb P).toUserTimer
    stats := {} }

/-- The block without what SACK, loss detection and congestion control write. -/
def exceptLoss (t : Tcb P) : Tcb P :=
  { t with
    rtx := RtxQueue.new
    pmtuMss := 0
    pmtuRestoreMss := 0
    pmtuProbeInflight := false
    pmtuProbeAt := 0
    sendCwrPending := false
    toLossState := { (zeroed : Tcb P).toLossState with rack := { Rack.new with minRtt := t.rack.minRtt } }
    toCongState := (zeroed : Tcb P).toCongState
    toRtxTimers := (zeroed : Tcb P).toRtxTimers
    stats := {} }

/-- The block without what an ACK writes besides the cumulative acknowledgment. -/
def exceptRecovery (t : Tcb P) : Tcb P :=
  { t.exceptLoss with toSendWindow := (zeroed : Tcb P).toSendWindow, maxSndWnd := 0 }

/-- Loss detection is part of what an ACK does after the cumulative ACK. -/
lemma recovery_of_loss {t t' : Tcb P} (h : Agree exceptLoss t t') : Agree exceptRecovery t t' :=
  h.of exceptRecovery

/-- What an ACK does after the cumulative ACK is part of reacting to it. -/
lemma react_of_recovery {t t' : Tcb P} (h : Agree exceptRecovery t t') : Agree exceptReact t t' :=
  h.of exceptReact

/-- A relation holds across the SACK option if it holds across its parts. -/
lemma absorbSack_rule {R : Tcb P → Tcb P → Prop} [Std.Refl R] [IsTrans (Tcb P) R]
    (hcount : ∀ (t : Tcb P) (n : U64), R t { t with dsackSegs := n })
    (hbelieve : ∀ (t : Tcb P) (l r mss : U32), R t (t.believeDsack l r mss))
    (hblock : ∀ (d : U32 × Tcb P) (b : U32 × U32), R d.2 (sackBlock d b).2)
    (seg : Segment) (mss : U32) (t : Tcb P) : R t (absorbSack seg mss t).2 := by
  have hvalid (l r : U32) : R t (dsackValid l r mss t).2 := by
    unfold dsackValid
    lift_lets
    extract_lets
    split
    · exact refl_of R t
    · split
      · exact refl_of R t
      · exact hcount t _
  have hblocks (l : List (U32 × U32)) (d : U32 × Tcb P) : R d.2 (l.foldl sackBlock d).2 := by
    induction l generalizing d with
    | nil => exact refl_of R d.2
    | cons b l ih => exact trans_of R (hblock d b) (ih _)
  unfold absorbSack
  split
  · exact refl_of R t
  split
  · exact refl_of R t
  case h_2 b0 rest _ =>
    refine trans_of R ?_ (hblocks _ _)
    dsimp only
    split
    · split
      · exact trans_of R (hvalid _ _) (hbelieve _ _ _ _)
      · exact hvalid _ _
    · exact refl_of R t

/-- RACK may change in everything but its minimum RTT, which is the sampler's. -/
lemma agree_minRtt {t : Tcb P} (rack : Rack) (h : rack.minRtt = t.rack.minRtt) :
    Agree exceptLoss t { t with rack := rack } := by
  unfold Agree exceptLoss
  dsimp only
  rw [h]

/-- The SACK option marks records and tells RACK of them; it samples no RTT. -/
lemma absorbSack_loss (seg : Segment) (mss : U32) (t : Tcb P) :
    Agree exceptLoss t (absorbSack seg mss t).2 := by
  refine absorbSack_rule (R := Agree exceptLoss) (fun _ _ => rfl) (fun t l r mss => ?_)
    (fun d b => ?_) seg mss t
  · have h : Agree exceptLoss t (t.believeDsack l r mss) ↔
        Agree exceptLoss t { t with rack := (t.believeDsack l r mss).rack } := Iff.rfl
    rw [h]
    refine agree_minRtt _ ?_
    unfold believeDsack
    dsimp only
    split
    · rw [Rack.minRtt_onRecoveryExit, Rack.minRtt_onDsack]
    · rw [Rack.minRtt_onDsack]
  · exact agree_minRtt _ (Rack.minRtt_foldl_onDelivered _ _ _ _)

/-- An RTT sample moves the estimators and the timeout. -/
lemma sampleRtt_react (t : Tcb P) (sample : Option U32) :
    Agree exceptReact t (t.sampleRtt sample) := by
  unfold sampleRtt updateRtt
  split
  · split
    · dsimp only
      split <;> exact rfl
    · exact rfl
  · exact rfl

lemma noteProgress_react (t : Tcb P) (acked : U32) : Agree exceptReact t (t.noteProgress acked) := by
  unfold noteProgress
  dsimp only
  split
  · exact rfl
  split
  · exact rfl
  split <;> exact rfl

/-- The cumulative ACK drops records and ring bytes, samples the RTT and counts as progress. -/
lemma cumulativeAck_react (ack acked mss : U32) (tsecrMs : Option U32) (delivered : U32) (t : Tcb P) :
    Agree exceptReact t (cumulativeAck ack acked mss tsecrMs delivered t).2 := by
  unfold cumulativeAck
  dsimp only
  refine trans_of (Agree exceptReact) ?_ (noteProgress_react _ _)
  exact trans_of (Agree exceptReact) rfl (sampleRtt_react _ _)

lemma pmtuProbeOnAck_loss (t : Tcb P) : Agree exceptLoss t t.pmtuProbeOnAck := by
  unfold pmtuProbeOnAck
  lift_lets
  extract_lets
  split <;> exact rfl

/-- The window update writes the send window and its maximum. -/
lemma updateSendWindow_recovery (t : Tcb P) (seg : Segment) (priorUna : U32) :
    Agree exceptRecovery t (t.updateSendWindow seg priorUna) := by
  unfold updateSendWindow
  lift_lets
  extract_lets
  split <;> exact rfl

lemma ecnEcho_loss (t : Tcb P) (seg : Segment) (priorFlight mss : U32) :
    Agree exceptLoss t (t.ecnEcho seg priorFlight mss) := by
  unfold ecnEcho
  split <;> exact rfl

lemma newrenoDetect_loss (seg : Segment) (acked wndBefore : U32) (t : Tcb P) :
    Agree exceptLoss t (newrenoDetect seg acked wndBefore t).2 := by
  unfold newrenoDetect
  lift_lets
  extract_lets
  split
  · split
    · split <;> exact rfl
    · exact rfl
  · split <;> exact rfl

lemma renoCredit_loss (mss delivered : U32) :
    Leaves (Agree (exceptLoss (P := P))) (renoCredit mss delivered) := by
  refine Leaves.bind Leaves.ofGet fun t => Leaves.ite (Leaves.ite ?_ (Leaves.ofThrow _)) (Leaves.ofPure _)
  exact Leaves.bind (Leaves.ofModify fun _ => rfl) fun _ => Leaves.ofPure _

lemma detectLosses_loss (seg : Segment) (present : Bool) (acked wndBefore mss delivered : U32) :
    Leaves (Agree (exceptLoss (P := P))) (detectLosses seg present acked wndBefore mss delivered) := by
  refine Leaves.bind Leaves.ofGet fun t => ?_
  refine Leaves.bind (Leaves.ofModifyGet fun t' => ?_) fun _ => ?_
  · split <;> exact rfl
  refine Leaves.ite (Leaves.ofPure _) ?_
  refine Leaves.bind (Leaves.ofModifyGet (newrenoDetect_loss _ _ _)) fun _ => ?_
  exact Leaves.ite (Leaves.bind (renoCredit_loss _ _) fun _ => Leaves.ofPure _) (Leaves.ofPure _)

lemma reactToLoss_loss (t : Tcb P) (flight : U32) : Agree exceptLoss t (t.reactToLoss flight) := by
  unfold reactToLoss
  dsimp only
  split <;> exact rfl

lemma tlpOnAck_loss (t : Tcb P) (ack : U32) (dsack : Option (U32 × U32)) (sack : Bool)
    (delivered : U32) : Agree exceptLoss t (t.tlpOnAck ack dsack sack delivered) := by
  unfold tlpOnAck
  split
  · exact rfl
  split
  · exact rfl
  split
  · exact rfl
  split
  · exact rfl
  split
  · split <;> exact rfl
  · exact rfl

lemma takeCwndLimited_loss (t : Tcb P) : Agree exceptLoss t t.takeCwndLimited.2 := by
  unfold takeCwndLimited
  dsimp only
  split <;> exact rfl

/-- Congestion control hears of the ACK after recovery was left, if it was. -/
lemma congestionOnAck_loss (t : Tcb P) (acked delivered mss : U32) (newlyLost : Bool) :
    Agree exceptLoss t (t.congestionOnAck acked delivered mss newlyLost) := by
  have hexit : Agree exceptLoss t t.exitRecovery := by
    refine agree_minRtt t.exitRecovery.rack ?_
    unfold exitRecovery
    dsimp only
    split
    · exact Rack.minRtt_onRecoveryExit _
    · rfl
  exact trans_of (Agree exceptLoss) hexit (takeCwndLimited_loss t.exitRecovery)

lemma rearmAfterAck_loss (t : Tcb P) (acked : U32) : Agree exceptLoss t (t.rearmAfterAck acked) := by
  unfold rearmAfterAck
  obtain ⟨d, hd⟩ := maybeArmTlp_eq (P := P) _
  rw [hd]
  split
  · exact rfl
  · split <;> exact rfl

/-- The block after the SACK option of an ACK. -/
def sackAbsorbed (t : Tcb P) (seg : Segment) : SackInfo × Tcb P :=
  absorbSack seg t.mssPayload { t with rack := t.rack.onAckStart }

lemma sackAbsorbed_loss (t : Tcb P) (seg : Segment) :
    Agree exceptLoss t (t.sackAbsorbed seg).2 :=
  trans_of (Agree exceptLoss) (agree_minRtt t.rack.onAckStart rfl) (absorbSack_loss _ _ _)

/-- The block after the cumulative ACK, with the bytes delivered. -/
def ackAbsorbed (t : Tcb P) (seg : Segment) (tsecrMs : Option U32) : U32 × Tcb P :=
  if seg.ack - t.sndUna ≠ 0 then
    cumulativeAck seg.ack (seg.ack - t.sndUna) t.mssPayload tsecrMs (t.sackAbsorbed seg).1.delivered
      (t.sackAbsorbed seg).2
  else ((t.sackAbsorbed seg).1.delivered, (t.sackAbsorbed seg).2)

/-- `process_ack` after the cumulative ACK, from what the block was before it. -/
def recoverAfter (before : Tcb P) (seg : Segment) (delivered : U32) : TcbM P Unit := do
  let acked := seg.ack - before.sndUna
  let flight := before.sndNxt - before.dataUna
  let info := (before.sackAbsorbed seg).1
  modify pmtuProbeOnAck
  let t ← get
  modify fun t => (t.updateSendWindow seg before.sndUna).ecnEcho seg flight before.mssPayload
  let echoed ← get
  let d ← detectLosses seg info.present acked t.sndWnd before.mssPayload delivered
  modify fun t => (t.reactToLoss flight).tlpOnAck seg.ack info.dsack info.present d.2
  let found ← get
  modify fun t => (t.congestionOnAck acked d.2 before.mssPayload d.1).rearmAfterAck acked
  modify (recordAck before t echoed found d before.mssPayload)

/-- Reacting to an ACK: SACK, the cumulative ACK, and the rest. -/
lemma reactToAck_eq (seg : Segment) (t : Tcb P) :
    reactToAck seg t = recoverAfter t seg (t.ackAbsorbed seg (t.tsecrOf seg)).1
      (t.ackAbsorbed seg (t.tsecrOf seg)).2 := rfl

/-- After the cumulative ACK, which left `t`, the window is updated once. -/
lemma recoverAfter_window (before : Tcb P) (seg : Segment) (delivered : U32) (t : Tcb P) :
    ∃ u, Agree exceptLoss t u ∧ Agree exceptLoss (u.updateSendWindow seg before.sndUna)
      (final (recoverAfter before seg delivered t)) := by
  refine ⟨t.pmtuProbeOnAck, pmtuProbeOnAck_loss t, ?_⟩
  unfold recoverAfter
  rw [run_modify_bind, run_get_bind, run_modify_bind, run_get_bind]
  refine trans_of (Agree exceptLoss)
    (ecnEcho_loss _ seg (before.sndNxt - before.dataUna) before.mssPayload) ?_
  refine (?_ : Leaves (Agree exceptLoss) _) _
  refine Leaves.bind (detectLosses_loss _ _ _ _ _ _) fun _ =>
    Leaves.bind (Leaves.ofModify fun t' => ?_) fun _ => Leaves.bind Leaves.ofGet fun _ =>
      Leaves.bind (Leaves.ofModify fun t' => ?_) fun _ => Leaves.ofModify fun _ => rfl
  · exact trans_of (Agree exceptLoss) (reactToLoss_loss _ _) (tlpOnAck_loss _ _ _ _ _)
  · exact trans_of (Agree exceptLoss) (congestionOnAck_loss _ _ _ _ _) (rearmAfterAck_loss _ _)

/-- Reacting to an ACK, up to what loss detection and congestion control write. -/
lemma reactToAck_window_loss (seg : Segment) (t : Tcb P) :
    ∃ u, Agree exceptLoss (t.ackAbsorbed seg (t.tsecrOf seg)).2 u ∧
      Agree exceptLoss (u.updateSendWindow seg t.sndUna) (final (reactToAck seg t)) := by
  rw [reactToAck_eq]
  exact recoverAfter_window t seg _ _

lemma reactToAck_recovery (seg : Segment) (t : Tcb P) :
    Agree exceptRecovery (t.ackAbsorbed seg (t.tsecrOf seg)).2 (final (reactToAck seg t)) := by
  obtain ⟨u, hu, hrest⟩ := reactToAck_window_loss seg t
  exact trans_of (Agree exceptRecovery) (recovery_of_loss hu) (trans_of (Agree exceptRecovery)
    (updateSendWindow_recovery u seg t.sndUna) (recovery_of_loss hrest))

/-- All that reacting to an ACK writes. -/
lemma reactToAck_react (seg : Segment) :
    Leaves (Agree (exceptReact (P := P))) (reactToAck seg) := by
  intro t
  have hsack : Agree exceptReact t (t.sackAbsorbed seg).2 :=
    react_of_recovery (recovery_of_loss (sackAbsorbed_loss t seg))
  have hack : Agree exceptReact t (t.ackAbsorbed seg (t.tsecrOf seg)).2 := by
    unfold ackAbsorbed
    split
    · exact trans_of (Agree exceptReact) hsack (cumulativeAck_react _ _ _ _ _ _)
    · exact hsack
  exact trans_of (Agree exceptReact) hack (react_of_recovery (reactToAck_recovery seg t))

/-! ## Segment text -/

/-- The block without what taking segment text writes. -/
def exceptText (t : Tcb P) : Tcb P :=
  { t with toRecvSeq := (zeroed : Tcb P).toRecvSeq, dsack := none, stats := {} }

lemma absorbOoo_text (t : Tcb P) (segFin : Option U32) : Agree exceptText t (t.absorbOoo segFin).2 := by
  unfold absorbOoo
  dsimp only
  split <;> exact rfl

lemma receiveInOrder_text (t : Tcb P) (data : List U8) (segFin : Option U32) :
    Agree exceptText t (t.receiveInOrder data segFin).2 := by
  refine trans_of (Agree exceptText) ?_ (absorbOoo_text (t.appendText data) segFin)
  exact rfl

lemma receiveOutOfOrder_text (t : Tcb P) (seq : U32) (off : ℕ) (data : List U8) :
    Agree exceptText t (t.receiveOutOfOrder seq off data) := by
  unfold receiveOutOfOrder
  dsimp only
  split
  · split <;> exact rfl
  · exact rfl

lemma receiveText_text (t : Tcb P) (seq : U32) (data : List U8) (segFin : Option U32) (now : Bool) :
    Agree exceptText t (t.receiveText seq data segFin now).2 := by
  unfold receiveText
  dsimp only
  split
  · exact rfl
  split
  · exact receiveInOrder_text _ _ _
  · exact receiveOutOfOrder_text _ _ _ _

lemma receivePayload_text (t : Tcb P) (seg : Segment) (segFin : Option U32) :
    Agree exceptText t (t.receivePayload seg segFin).2 := by
  unfold receivePayload
  dsimp only
  split
  · split
    · exact rfl
    · refine trans_of (Agree exceptText) ?_ (receiveText_text _ _ _ _ _)
      exact rfl
  · exact receiveText_text _ _ _ _ _

/-- Text moves `RCV.NXT`, the receive ring, the parked ranges and the D-SACK to report. -/
lemma takeText_text (t : Tcb P) (seg : Segment) (segFin : Option U32) :
    Agree exceptText t (t.takeText seg segFin).2 := by
  unfold takeText
  split
  · exact rfl
  · exact receivePayload_text _ _ _

/-! ## Calls that move data, and calls that set something -/

/-- The block without what moving data in and out writes. -/
def exceptTransfer (t : Tcb P) : Tcb P :=
  { t.exceptAck with
    toSendBuf := (zeroed : Tcb P).toSendBuf
    toSendLoan := (zeroed : Tcb P).toSendLoan
    recvRing := Ring.new
    delivered := []
    finWait2Deadline := Deadline.OFF }

/-- The same, and without what changing the path MTU writes. -/
def exceptData (t : Tcb P) : Tcb P :=
  { t.exceptTransmit.exceptTransfer with
    toSizes := (zeroed : Tcb P).toSizes }

/-- The block without the knobs, the secrets, the clock and the timers the knobs belong to. -/
def exceptSet (t : Tcb P) : Tcb P :=
  { t with
    tlpDeadline := Deadline.OFF
    finWait2Deadline := Deadline.OFF
    toKeepaliveTimer := (zeroed : Tcb P).toKeepaliveTimer
    toUserTimer := (zeroed : Tcb P).toUserTimer
    toKnobs := (zeroed : Tcb P).toKnobs
    toSecrets := (zeroed : Tcb P).toSecrets
    nowMs := 0 }

lemma data_of_transfer {t t' : Tcb P} (h : Agree exceptTransfer t t') : Agree exceptData t t' :=
  h.of exceptData

lemma data_of_transmit {α : Type} {x : TcbM P α} (h : Leaves (Agree exceptTransmit) x) :
    Leaves (Agree exceptData) x :=
  h.agree_of exceptData fun _ => rfl

lemma setMtu_data (mtu : U16) : Leaves (Agree (exceptData (P := P))) (setMtu mtu) := by
  refine Leaves.bind Leaves.ofGet fun t => ?_
  split
  · exact Leaves.ofModify fun _ => rfl
  · exact Leaves.ofModify fun _ => rfl
  · exact Leaves.ofThrow _

/-- An error that is ignored leaves what was written before it. -/
lemma ignoreError_leaves {R : Tcb P → Tcb P → Prop} {x : TcbM P Unit} (h : Leaves R x) :
    Leaves R (ignoreError x) := by
  intro t
  have ht := h t
  unfold ignoreError
  split
  case h_1 hx => rwa [hx] at ht
  case h_2 => exact ht

/-- A reported MTU may be followed by output: what is queued is cut anew. -/
lemma updatePmtu_data (mtu : U16) : Leaves (Agree (exceptData (P := P))) (updatePmtu mtu) := by
  refine Leaves.bind (Leaves.ofModify fun t => ?_) fun _ => ?_
  · unfold boundRestore
    dsimp only
    split <;> exact rfl
  refine Leaves.bind Leaves.ofGet fun t => Leaves.ite (Leaves.ofPure _) ?_
  refine Leaves.bind (Leaves.ofModify fun _ => rfl) fun _ => Leaves.bind Leaves.ofGet fun t => ?_
  refine Leaves.ite (Leaves.bind (Leaves.ofModify fun _ => rfl) fun _ => ?_) (Leaves.ofPure _)
  exact ignoreError_leaves (data_of_transmit maybeSendData_footprint)

lemma send_transfer (data : List U8) : Leaves (Agree (exceptTransfer (P := P))) (send data) :=
  Leaves.bind Leaves.ofGet fun _ => Leaves.ite (Leaves.ofThrow _) (Leaves.ite (Leaves.ofThrow _)
    (Leaves.ite (Leaves.ofThrow _) (Leaves.ofModifyGet fun _ => rfl)))

lemma sendReserve_transfer (max : ℕ) : Leaves (Agree (exceptTransfer (P := P))) (sendReserve max) :=
  Leaves.bind Leaves.ofGet fun _ => Leaves.ite (Leaves.ofThrow _) (Leaves.ite (Leaves.ofThrow _)
    (Leaves.bind (Leaves.ofModify fun _ => rfl) fun _ => Leaves.ofPure _))

lemma sendFill_transfer (offset : ℕ) (src : List U8) (t : Tcb P) :
    Agree exceptTransfer t (sendFill offset src t) := by
  unfold sendFill
  split <;> exact rfl

lemma sendCommit_transfer (n : ℕ) : Leaves (Agree (exceptTransfer (P := P))) (sendCommit n) :=
  Leaves.bind (Leaves.ofModifyGet fun _ => rfl) fun _ => Leaves.bind Leaves.ofGet fun _ =>
    Leaves.ite (Leaves.ofThrow _) (Leaves.ofModifyGet fun _ => rfl)

lemma recv_transfer (cap : ℕ) : Leaves (Agree (exceptTransfer (P := P))) (recv cap) := by
  refine Leaves.bind Leaves.ofGet fun t => ?_
  split
  · exact Leaves.ofThrow _
  refine Leaves.bind (Leaves.ofModify fun _ => rfl) fun _ => Leaves.ite ?_ ?_
  · refine Leaves.bind (Leaves.ofModify fun t => ?_) fun _ => ?_
    · unfold restartFinWait2
      split <;> exact rfl
    refine Leaves.bind ?_ fun _ => Leaves.ofPure _
    exact maybeSendWindowUpdate_footprint.agree_of exceptTransfer fun _ => rfl
  · exact Leaves.ite (Leaves.ofThrow _) (Leaves.ofPure _)

lemma extractPacket_transfer (cap : ℕ) : Leaves (Agree (exceptTransfer (P := P))) (extractPacket cap) := by
  intro t
  unfold extractPacket
  split <;> exact rfl

lemma extractPacketWith_transfer (t : Tcb P) : Agree exceptTransfer t t.extractPacketWith.2 := by
  unfold extractPacketWith
  split <;> exact rfl

lemma setEgressPaused_set (paused : Bool) (t : Tcb P) :
    Agree exceptSet t (setEgressPaused paused t) := by
  unfold setEgressPaused
  dsimp only
  split
  · obtain ⟨d, hd⟩ := maybeArmTlp_eq t
    rw [hd]
    exact rfl
  · exact rfl

lemma installCookieKey_set (key : Key) (t : Tcb P) : Agree exceptSet t (t.installCookieKey key) := by
  unfold installCookieKey
  dsimp only
  split <;> exact rfl

lemma setSecret_set (secret : Key) (t : Tcb P) : Agree exceptSet t (setSecret secret t) := by
  unfold setSecret
  dsimp only
  split
  · exact rfl
  · exact installCookieKey_set _ _

lemma setCookieSecret_set (secret : Key) (t : Tcb P) : Agree exceptSet t (setCookieSecret secret t) :=
  installCookieKey_set secret t

end Tcb

open Tcb

namespace Call

/-- The calls that move data in and out. -/
def transfers : Call → Bool
  | send _ | sendReserve _ | sendFill .. | sendCommit _ | recv _ | extractPacket _
  | extractPacketWith => true
  | _ => false

/-- The calls that move data in and out, or change the path MTU. -/
def moves : Call → Bool
  | setMtu _ | updatePmtu _ | send _ | sendReserve _ | sendFill .. | sendCommit _ | recv _
  | extractPacket _ | extractPacketWith => true
  | _ => false

/-- The calls that set a knob, a secret or the clock. -/
def tunes : Call → Bool
  | setNow _ | setEgressPaused _ | setTxCsumOffload _ | setKeepalive .. | setUserTimeout _
  | setFinWait2Timeout _ | setSecret _ | setCookieSecret _ => true
  | _ => false

/-- The calls that move data touch neither the sequence numbers nor the connection. -/
lemma transfer_footprint {c : Call} (hc : c.transfers = true) (t : Tcb P) :
    Agree exceptTransfer t (final (c.run t)) := by
  cases c with
  | send data => rw [run, final_bind_pure]; exact send_transfer data t
  | sendReserve max => rw [run, final_bind_pure]; exact sendReserve_transfer max t
  | sendFill offset src => exact sendFill_transfer offset src t
  | sendCommit n => rw [run, final_bind_pure]; exact sendCommit_transfer n t
  | recv cap => rw [run, final_bind_pure]; exact recv_transfer cap t
  | extractPacket cap => rw [run, final_bind_pure]; exact extractPacket_transfer cap t
  | extractPacketWith => exact extractPacketWith_transfer t
  | _ => cases hc

lemma data_footprint {c : Call} (hc : c.moves = true) (t : Tcb P) :
    Agree exceptData t (final (c.run t)) := by
  cases c with
  | setMtu mtu => rw [run, final_bind_pure]; exact setMtu_data mtu t
  | updatePmtu mtu => rw [run, final_bind_pure]; exact updatePmtu_data mtu t
  | send | sendReserve | sendFill | sendCommit | recv | extractPacket | extractPacketWith =>
    exact data_of_transfer (transfer_footprint rfl t)
  | setNow | setEgressPaused | setTxCsumOffload | setKeepalive | setUserTimeout | setFinWait2Timeout
  | setSecret | setCookieSecret | reinit | connect | listen | close | abort | injectPacket
  | injectPacketL4CsumTrusted | tick => cases hc

/-- The calls that set something touch the clock, the knobs and their timers. -/
lemma set_footprint {c : Call} (hc : c.tunes = true) (t : Tcb P) :
    Agree exceptSet t (final (c.run t)) := by
  cases c with
  | setNow now => exact rfl
  | setEgressPaused paused => exact setEgressPaused_set paused t
  | setTxCsumOffload on => exact rfl
  | setKeepalive idleMs intvlMs count => exact rfl
  | setUserTimeout ms => exact rfl
  | setFinWait2Timeout ms => exact rfl
  | setSecret secret => exact setSecret_set secret t
  | setCookieSecret secret => exact setCookieSecret_set secret t
  | setMtu | updatePmtu | send | sendReserve | sendFill | sendCommit | recv | extractPacket
  | extractPacketWith | reinit | connect | listen | close | abort | injectPacket
  | injectPacketL4CsumTrusted | tick => cases hc

end Call

end TcpSansIo
