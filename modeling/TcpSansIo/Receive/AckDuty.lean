import TcpSansIo.Faultless
import TcpSansIo.Receive.AckEvents
import TcpSansIo.Tcb.Calls

/-!
# Owed acknowledgments

What was received in order is acknowledged, or an acknowledgment of it is owed and its deadline runs.

* `Duty` is what every event keeps (`AckRun.duty`) and what the answer to a segment restores
  (`onSynchronized_duty`), so that it holds of every reachable block (`Reachable.duty`); that the
  deadline is near needs a clock that does not run backwards (`ReachableBy.duty`).
* `Prompt` is what the events of a tick keep while the egress path is open, so that a tick leaves
  nothing unacknowledged when the deadline has come.
-/

namespace TcpSansIo

open Proc FixedWidth

variable {P : Params}

namespace Tcb

/-- An acknowledgment is owed only while the peer is heard, and, if the clock runs `forward`, soon; nothing
else acknowledges. -/
structure Alert (forward : Prop) (t : Tcb P) : Prop where
  heard : PendingHeard t
  soon : forward → t.ackDeadline.raw.toNat ≤ t.nowMs.toNat + 41
  told : ∀ e ∈ t.sent, e.header.flags.ack = true → e.header.flags.rst = false → e.state.heard = true

/-- What was received is acknowledged, or the acknowledgment is pending with its deadline armed. -/
structure Answered (t : Tcb P) : Prop where
  armed : t.pendingAck = true → t.ackDeadline.isArmed = true
  owed : t.state.heard = true → t.lastAckSent ≠ t.rcvNxt → t.pendingAck = true

structure Duty (forward : Prop) (t : Tcb P) : Prop extends Alert forward t, Answered t

/-! ## Events keep it -/

variable {forward : Prop} {t t' : Tcb P}

/-- A change that is not about acknowledgments, to a connection that stays open. -/
lemma Alert.moved (h : Alert forward t) (hsame : Agree (fun t => (t.pendingAck, t.ackDeadline, t.nowMs, t.sent)) t t')
    (hheard : t.state.heard = true → t'.state.heard = true) : Alert forward t' := by
  obtain ⟨hpend, hdead, hnow, hsent⟩ : t'.pendingAck = t.pendingAck ∧ t'.ackDeadline = t.ackDeadline ∧
      t'.nowMs = t.nowMs ∧ t'.sent = t.sent := by
    simpa only [Agree, Prod.mk.injEq] using hsame
  refine ⟨fun hp => hheard (h.heard (hpend ▸ hp)), ?_, ?_⟩
  · rw [hdead, hnow]
    exact h.soon
  · rw [hsent]
    exact h.told

lemma Answered.moved (h : Answered t)
    (hsame : Agree (fun t => (t.pendingAck, t.ackDeadline, t.lastAckSent, t.rcvNxt)) t t')
    (hheard : t'.state.heard = true → t.state.heard = true) : Answered t' := by
  obtain ⟨hpend, hdead, hlast, hrcv⟩ : t'.pendingAck = t.pendingAck ∧ t'.ackDeadline = t.ackDeadline ∧
      t'.lastAckSent = t.lastAckSent ∧ t'.rcvNxt = t.rcvNxt := by
    simpa only [Agree, Prod.mk.injEq] using hsame
  refine ⟨?_, fun hs hne => ?_⟩
  · rw [hpend, hdead]
    exact h.armed
  · rw [hpend]
    exact h.owed (hheard hs) (by rwa [hlast, hrcv] at hne)

/-- Before a connection, and after it, nothing is owed. -/
lemma Duty.ended (h : Alert forward t) (hpend : t'.pendingAck = false) (hdead : t'.ackDeadline = Deadline.OFF)
    (hsent : t'.sent = t.sent ∨ t'.sent = []) (howed : t'.state.heard = true → t'.lastAckSent = t'.rcvNxt) :
    Duty forward t' where
  heard hp := by cases hpend.symm.trans hp
  soon := by
    rw [hdead]
    exact fun _ => Nat.zero_le _
  told := by
    rcases hsent with hsent | hsent <;> rw [hsent]
    · exact h.told
    · exact fun e he => by cases he
  armed hp := by cases hpend.symm.trans hp
  owed hs hne := absurd (howed hs) hne

lemma Stated.alert {Q : Emission P → Prop} {last : U32} (h : Stated Q t last t')
    (hQ : ∀ e, Q e → e.header.flags.ack = true → e.header.flags.rst = false → e.state.heard = true)
    (ha : Alert forward t) : Alert forward t' := by
  have hview := h.view
  obtain ⟨e, hsent, he⟩ := h.sent
  refine ⟨fun hp => ?_, ?_, ?_⟩
  · rw [show t'.state = t.state from congrArg AckView.state hview]
    exact ha.heard ((congrArg AckView.pendingAck hview).symm.trans hp)
  · rw [show t'.ackDeadline = t.ackDeadline from congrArg AckView.ackDeadline hview,
      show t'.nowMs = t.nowMs from congrArg AckView.nowMs hview]
    exact ha.soon
  · rw [hsent]
    intro e' he'
    rcases List.mem_append.mp he' with hold | hnew
    · exact ha.told e' hold
    · cases List.mem_singleton.mp hnew
      exact hQ e he

/-- A segment that does not count as an acknowledgment leaves what is owed. -/
lemma Stated.answered {Q : Emission P → Prop} (h : Stated Q t t.lastAckSent t') (ha : Answered t) :
    Answered t' := by
  refine ha.moved ?_ fun hs => ?_
  · exact congrArg (fun w : AckView P => (w.pendingAck, w.ackDeadline, w.lastAckSent, w.rcvNxt)) h.view
  · rwa [show t'.state = t.state from congrArg AckView.state h.view] at hs

lemma raw_atMs_le {t : U64} {n : ℕ} (h : t.toNat ≤ n) : (Deadline.atMs t).raw.toNat ≤ n + 1 := by
  have hone : (1 : U64).toNat = 1 := rfl
  rw [Deadline.atMs, toNat_satAdd]
  omega

lemma AckEvent.alert (h : AckEvent t t') (ha : Alert forward t) : Alert forward t' := by
  cases h with
  | aside h =>
    refine ha.moved (h.of fun w => (w.pendingAck, w.ackDeadline, w.nowMs, w.sent)) fun hs => ?_
    rwa [show t'.state = t.state from h.of AckView.state]
  | told hheard h => exact h.alert (fun e he _ _ => he ▸ hheard) ha
  | settled => exact ⟨fun hp => (by cases hp), fun _ => Nat.zero_le _, ha.told⟩
  | deferred hheard =>
    refine ⟨fun _ => hheard, fun _ => ?_, ha.told⟩
    exact (raw_atMs_le (le_refl _)).trans (Nat.add_le_add_left (by decide) _)
  | greeted _ h => exact h.alert (fun e he hack => by cases he.symm.trans hack) ha
  | @parted t'' h =>
    have hstaged := h.alert (fun e he _ hrst => by cases he.symm.trans hrst) ha
    have hduty : Duty forward t''.abortLocal := Duty.ended hstaged rfl rfl (.inl rfl) fun hs => by cases hs
    exact hduty.toAlert
  | ended hover hpend hdead hsent =>
    exact (Duty.ended ha hpend hdead hsent fun hs => by cases hover.symm.trans hs).toAlert

lemma AckEvent.answered (h : AckEvent t t') (ha : Answered t) : Answered t' := by
  cases h with
  | aside h =>
    refine ha.moved (h.of fun w => (w.pendingAck, w.ackDeadline, w.lastAckSent, w.rcvNxt)) fun hs => ?_
    rwa [show t'.state = t.state from h.of AckView.state] at hs
  | told hheard h =>
    have hview := h.view
    refine ⟨fun hp => ?_, fun _ hne => ?_⟩
    · rw [show t'.ackDeadline = t.ackDeadline from congrArg AckView.ackDeadline hview]
      exact ha.armed ((congrArg AckView.pendingAck hview).symm.trans hp)
    · rw [show t'.lastAckSent = t.rcvNxt from congrArg AckView.lastAckSent hview,
        show t'.rcvNxt = t.rcvNxt from congrArg AckView.rcvNxt hview] at hne
      exact absurd rfl hne
  | settled h => exact ⟨fun hp => (by cases hp), fun _ hne => absurd h hne⟩
  | deferred => exact ⟨fun _ => Deadline.isArmed_atMs _, fun _ _ => rfl⟩
  | greeted _ h => exact h.answered ha
  | parted => exact ⟨fun hp => (by cases hp), fun hs => by cases hs⟩
  | ended hover hpend =>
    exact ⟨fun hp => (by cases hpend.symm.trans hp), fun hs => by cases hover.symm.trans hs⟩

lemma AckRun.alert (h : AckRun t t') (ha : Alert forward t) : Alert forward t' := by
  induction h with
  | refl => exact ha
  | tail _ hevent ih => exact hevent.alert ih

lemma AckRun.answered (h : AckRun t t') (ha : Answered t) : Answered t' := by
  induction h with
  | refl => exact ha
  | tail _ hevent ih => exact hevent.answered ih

lemma AckRun.duty (h : AckRun t t') (hd : Duty forward t) : Duty forward t' :=
  ⟨h.alert hd.toAlert, h.answered hd.toAnswered⟩

/-- What `Duty` depends on, but for the state. -/
def dutyView (t : Tcb P) : Bool × Deadline × U64 × List (Emission P) × U32 × U32 :=
  (t.pendingAck, t.ackDeadline, t.nowMs, t.sent, t.lastAckSent, t.rcvNxt)

lemma Duty.moved (h : Duty forward t) (hsame : Agree dutyView t t') (hheard : t'.state.heard = t.state.heard) :
    Duty forward t' where
  toAlert := h.toAlert.moved (hsame.of fun v => (v.1, v.2.1, v.2.2.1, v.2.2.2.1)) fun hs => hheard.trans hs
  toAnswered := h.toAnswered.moved (hsame.of fun v => (v.1, v.2.1, v.2.2.2.2)) fun hs => hheard.symm.trans hs

lemma Duty.aside (h : Duty forward t) (hsame : Agree ackView t t') : Duty forward t' := AckRun.duty (AckRun.aside hsame) h

/-! ## Answers restore it -/

/-- With the egress path open a pure ACK is staged. -/
lemma emitSegment_open (hopen : t.egressFull = false) (seq ack : U32) {opts : TcpOptions}
    (hopt : opts.encodedLen ≤ 40) :
    ∃ t', emitSegment { ack := true } seq ack opts NO_PAYLOAD false t = .ok true t' := by
  simp only [egressFull, Bool.or_eq_false_iff] at hopen
  unfold emitSegment
  rw [run_get_bind, if_neg (by simp [hopen.1, hopen.2]), run_modify_bind]
  rcases stage_cases (t.header { ack := true } seq ack opts false) 0
      (fun n => if (t.sendRing.peekAt 0 n).length = n then some (t.sendRing.peekAt 0 n) else none)
      { t with sendCwrPending := t.sendCwrPending &&
          !(t.ecnEnabled && !false && true && t.sendCwrPending && false) } with
    ⟨e, -, hbad⟩ | ⟨hfull, -⟩ | ⟨-, pkt, ring, -, -, -, -, hrun⟩
  · have hnone : (t.sendRing.peekAt 0 0).length = 0 := Nat.le_zero.mp (t.sendRing.length_peekAt_le 0 0)
    refine absurd ⟨hopt, ?_, _, if_pos hnone, hnone⟩ hbad
    change 40 + opts.encodedLen + 0 ≤ 1500
    omega
  · have hnot : t.txRing.len ≠ P.TXQ := by simpa [TxRing.isFull] using hopen.2
    exact absurd hfull hnot
  · exact ⟨_, run_bind_ok hrun _⟩

/-- With the egress path open, a pure ACK tells `RCV.NXT` and settles what was owed. -/
lemma sendPureAck_open (hopen : t.egressFull = false) :
    ∃ u : Tcb P, sendPureAck t = .ok () u.ackSent ∧ u.lastAckSent = u.rcvNxt := by
  have hopen' : (segmentOptions 0 t).2.egressFull = false := by
    have hview := segmentOptions_view 0 t
    have hfull : (segmentOptions 0 t).2.egressFull = t.egressFull :=
      hview.of fun w => w.egressPaused || w.txRing.isFull
    exact hfull.trans hopen
  obtain ⟨u, hu⟩ := emitSegment_open hopen' (segmentOptions 0 t).2.sndNxt (segmentOptions 0 t).2.rcvNxt
    (segmentOptions_encodedLen 0 t).1
  refine ⟨u, ?_, (emitSegment_attends _ rfl rfl _ _ _ _ _).2 u hu⟩
  unfold sendPureAck
  rw [run_get_bind, if_neg (by simp [hopen])]
  exact run_bind_ok hu _

/-- A pure ACK is an answer, whatever was owed before. -/
lemma sendPureAck_answered (t : Tcb P) : Answered (final (sendPureAck t)) := by
  cases hopen : t.egressFull with
  | true =>
    unfold sendPureAck
    rw [run_get_bind, if_pos hopen]
    exact ⟨fun _ => Deadline.isArmed_atMs _, fun _ _ => rfl⟩
  | false =>
    obtain ⟨u, hrun, htold⟩ := sendPureAck_open hopen
    rw [hrun]
    exact ⟨fun hp => (by cases hp), fun _ hne => absurd htold hne⟩

lemma sendPureAck_duty (hheard : t.state.heard = true) (h : Alert forward t) : Duty forward (final (sendPureAck t)) :=
  ⟨AckRun.alert (sendPureAck_attends t hheard).1 h, sendPureAck_answered t⟩

lemma scheduleDelayedAck_duty (hheard : t.state.heard = true) (h : Alert forward t) (len : U32) :
    Duty forward (scheduleDelayedAck len t) := by
  unfold scheduleDelayedAck
  extract_lets full units u
  have hu : Alert forward u := ⟨fun _ => hheard, h.soon, h.told⟩
  split
  · exact sendPureAck_duty hheard hu
  split
  · refine ⟨⟨fun _ => hheard, fun _ => raw_atMs_le ?_, h.told⟩, fun _ => Deadline.isArmed_atMs _, fun _ _ => rfl⟩
    have hdelay : DELAYED_ACK_MS.toNat = 40 := rfl
    rw [toNat_satAdd, hdelay]
    exact min_le_left _ _
  case isFalse harmed => exact ⟨hu, fun _ => not_not.mp harmed, fun _ _ => rfl⟩

/-- The answer to a segment's text and FIN acknowledges what they moved. -/
lemma answerText_duty (seg : Segment) (hsync : t.state.isSynchronized = true) (h : Duty forward t) :
    Duty forward (final (answerText seg (t.receiveSegment seg).1 ((t.receiveSegment seg).2.rcvNxt != t.rcvNxt)
      (t.receiveSegment seg).2)) := by
  have hframe := receiveSegment_frame t seg
  have hheard := heard_of_synchronized (receiveSegment_isSynchronized seg hsync)
  have halert : Alert forward (t.receiveSegment seg).2 :=
    h.toAlert.moved (hframe.of fun t => (t.pendingAck, t.ackDeadline, t.nowMs, t.sent)) fun _ => hheard
  have hlast : (t.receiveSegment seg).2.lastAckSent = t.lastAckSent := hframe.of fun t => t.lastAckSent
  have hpend : (t.receiveSegment seg).2.pendingAck = t.pendingAck := hframe.of fun t => t.pendingAck
  have hdead : (t.receiveSegment seg).2.ackDeadline = t.ackDeadline := hframe.of fun t => t.ackDeadline
  generalize t.receiveSegment seg = r at *
  unfold answerText
  split
  · exact sendPureAck_duty hheard halert
  split
  · exact scheduleDelayedAck_duty hheard halert _
  case isFalse hstay =>
    simp only [bne_iff_ne, ne_eq, not_not] at hstay
    have hduty : Duty forward r.2 := ⟨halert, h.toAnswered.moved (by simp only [Agree, hpend, hdead, hlast, hstay])
      fun _ => heard_of_synchronized hsync⟩
    split
    · exact AckRun.duty (sendOowAck_attends _ hheard).1 hduty
    · exact hduty

/-! ## Segments -/

lemma ourFinAcked_duty (h : Duty forward t) : Duty forward t.ourFinAcked := by
  unfold ourFinAcked enterTimeWait
  generalize Deadline.atMs _ = d
  split
  · split
    case h_1 hs => exact h.moved rfl (by rw [hs]; rfl)
    case h_2 hs => exact h.moved rfl (by rw [hs]; rfl)
    case h_3 => exact AckRun.duty (.single (.closeClean t)) h
    case h_4 => exact h
  · exact h

lemma ourFinAcked_sync (hsync : t.state.isSynchronized = true) :
    t.ourFinAcked.state = .closed ∨ t.ourFinAcked.state.isSynchronized = true := by
  unfold ourFinAcked
  split
  · split
    · exact .inr rfl
    · exact .inr rfl
    · exact .inl rfl
    · exact .inr hsync
  · exact .inr hsync

/-- The ACK of a segment: the connection stays open, or ends with our FIN acknowledged. -/
lemma processAck_duty (seg : Segment) (hsync : t.state.isSynchronized = true) (h : Duty forward t) :
    Duty forward (final (processAck seg t)) ∧ ((final (processAck seg t)).state = .closed ∨
      (final (processAck seg t)).state.isSynchronized = true) := by
  have hreact : Leaves (Agree (ackView (P := P))) (reactToAck seg) :=
    (reactToAck_react seg).agree_of ackView fun _ => rfl
  unfold processAck
  rw [run_modify_bind, run_get_bind]
  split
  · rw [run_pure, final_ok]
    exact ⟨h.aside rfl, .inr hsync⟩
  have hview := hreact ({ t with rtxCount := 0 } : Tcb P)
  unfold applyAck
  rw [run_bind]
  cases hrun : reactToAck seg ({ t with rtxCount := 0 } : Tcb P) with
  | error e u =>
    rw [hrun] at hview
    have hstate : u.state = t.state := hview.of AckView.state
    exact ⟨h.aside (show Agree ackView t u from hview), .inr (by rwa [final_error, hstate])⟩
  | ok a u =>
    rw [hrun] at hview
    have hstate : u.state = t.state := hview.of AckView.state
    exact ⟨ourFinAcked_duty (h.aside (show Agree ackView t u from hview)),
      ourFinAcked_sync (by rwa [hstate])⟩

lemma acceptSegment_duty (seg : Segment) (probe : Bool) (hsync : t.state.isSynchronized = true) (h : Duty forward t) :
    Duty forward (final (acceptSegment seg probe t)) := by
  unfold acceptSegment
  rw [run_modify_bind]
  have hnoted := noteSegment_noted t seg
  have hstart : Duty forward (t.noteSegment seg) := h.aside (hnoted.of ackView)
  have hsync' : (t.noteSegment seg).state.isSynchronized = true := by
    rwa [show (t.noteSegment seg).state = t.state from hnoted.of fun t => t.state]
  change Duty forward (final ((processAck seg >>= _) (t.noteSegment seg)))
  generalize t.noteSegment seg = u at *
  obtain ⟨hduty, hstate⟩ := processAck_duty seg hsync' hstart
  refine bind_at (R := Keeps (Duty forward)) (fun _ => hduty) (fun _ v hv => ?_) hstart
  rw [hv, final_ok] at hduty hstate
  intro _
  rw [run_get_bind]
  split
  · exact hduty
  case isFalse hopen =>
    have hsync := hstate.resolve_left hopen
    have hheard := heard_of_synchronized hsync
    split
    · refine bind_at (R := Keeps (Duty forward)) (fun _ => ?_) (fun _ w _ => ?_) hduty
      · exact sendPureAck_duty hheard hduty.toAlert
      · exact AckRun.duty (maybeSendData_acks w).1
    · have htext := answerText_duty seg hsync hduty
      change Duty forward (final ((answerText seg (v.receiveSegment seg).1
        ((v.receiveSegment seg).2.rcvNxt != v.rcvNxt) >>= fun _ => maybeSendData) (v.receiveSegment seg).2))
      refine bind_rule (Q := fun r => Duty forward (final r)) (fun _ w hw => ?_) (fun _ w hw => ?_)
      · rw [hw] at htext
        exact AckRun.duty (maybeSendData_acks w).1 htext
      · rwa [hw] at htext

lemma answerUnacceptable_attends (seg : Segment) (live : Bool) :
    Leaves Attends (answerUnacceptable (P := P) seg live) := by
  have hlive : Leaves Attends (if live then maybeSendData else return () : TcbM P Unit) :=
    Leaves.ite maybeSendData_attends (Leaves.ofPure _)
  refine Leaves.bind Leaves.ofGet fun t => Leaves.ite ?_ (Leaves.ite ?_ (Leaves.ite ?_ ?_))
  · refine Leaves.bind (Leaves.ofModify fun u => .aside ?_) fun _ => sendPureAck_attends
    unfold restartTimeWait
    generalize Deadline.atMs _ = d
    rfl
  · exact Leaves.bind (Leaves.ofModify fun u => .aside rfl) fun _ =>
      Leaves.bind sendPureAck_attends fun _ => hlive
  · exact Leaves.bind sendPureAck_attends fun _ => hlive
  · exact Leaves.bind sendOowAck_attends fun _ => hlive

lemma onUnacceptable_duty (seg : Segment) (hsync : t.state.isSynchronized = true) (h : Duty forward t) :
    Duty forward (final (onUnacceptable seg t)) := by
  have hheard := heard_of_synchronized hsync
  unfold onUnacceptable
  rw [run_get_bind]
  split
  · exact h
  split
  · exact AckRun.duty (sendOowAck_attends t hheard).1 h
  split
  · rw [run_modify_bind]
    have hnoted := noteOld_noted t seg
    have hstart : Duty forward (t.updateTsRecent seg).onPeerAlive := h.aside (hnoted.of ackView)
    have hsync' : (t.updateTsRecent seg).onPeerAlive.state.isSynchronized = true := by
      rwa [show (t.updateTsRecent seg).onPeerAlive.state = t.state from hnoted.of fun t => t.state]
    generalize (t.updateTsRecent seg).onPeerAlive = u at *
    obtain ⟨hduty, hstate⟩ := processAck_duty seg hsync' hstart
    refine bind_at (R := Keeps (Duty forward)) (fun _ => hduty) (fun _ v hv => ?_) hstart
    rw [hv, final_ok] at hduty hstate
    intro _
    rw [run_get_bind]
    split
    · exact hduty
    case isFalse hopen =>
      have hheard := heard_of_synchronized (hstate.resolve_left hopen)
      exact AckRun.duty (answerUnacceptable_attends seg true v hheard).1 hduty
  · exact AckRun.duty (answerUnacceptable_attends seg false t hheard).1 h

lemma onSynchronized_duty (seg : Segment) (hsync : t.state.isSynchronized = true) (h : Duty forward t) :
    Duty forward (final (onSynchronized seg t)) := by
  have hheard := heard_of_synchronized hsync
  have hoow := AckRun.duty (sendOowAck_attends t hheard).1 h
  unfold onSynchronized
  rw [run_get_bind]
  split
  · exact h
  split
  · exact onUnacceptable_duty seg hsync h
  split
  · split
    · exact AckRun.duty (sendPureAck_attends t hheard).1 h
    · exact hoow
  split
  · split
    · rw [run_modify, final_ok, onResetReceived]
      split
      case h_5 => exact AckRun.duty (.single (.closeClean t)) h
      all_goals exact AckRun.duty (.single (.abort t)) h
    · exact hoow
  split
  · exact hoow
  split
  · exact h
  split
  · exact hoow
  · exact acceptSegment_duty seg _ hsync h

/-! ## Before there is a connection -/

/-- A segment that is not for the connection, or a reset, leaves what is owed. -/
lemma stage_duty (hd : Header) (len : ℕ) (fill : ℕ → Option (List U8))
    (htells : hd.flags.ack = true → hd.flags.rst = false → t.state.heard = true) (h : Duty forward t) :
    Duty forward (final (stage hd len fill t)) := by
  rcases stage_states hd len fill t with ⟨e, hrun⟩ | hrun | ⟨u, hrun, hstated⟩
  · rwa [hrun]
  · rwa [hrun]
  · rw [hrun]
    refine ⟨hstated.alert ?_ h.toAlert, hstated.answered h.toAnswered⟩
    rintro e ⟨hstate, hheader⟩ hack hrst
    rw [hheader] at hack hrst
    exact hstate ▸ htells hack hrst

lemma refuseAck_duty (seg : Segment) (h : Duty forward t) : Duty forward (final (refuseAck seg t)) := by
  unfold refuseAck
  refine bind_at (R := Keeps (Duty forward)) (fun h => h.aside (oowAllowed_view t)) (fun allowed u _ hu => ?_) h
  split
  · unfold emitRstTo
    rw [run_get_bind]
    exact bind_at (R := Keeps (Duty forward)) (stage_duty _ _ _ fun hack => by cases hack) (fun _ _ _ h => h) hu
  · exact hu

lemma completeActiveOpen_duty (seg : Segment) (h : Duty forward t) : Duty forward (final (completeActiveOpen seg t)) := by
  unfold completeActiveOpen
  rw [run_modify_bind]
  have hsame : Agree (fun t : Tcb P => (t.pendingAck, t.ackDeadline, t.nowMs, t.sent)) t (t.activeOpened seg) :=
    (sampleRtt_react _ _).of fun t => (t.pendingAck, t.ackDeadline, t.nowMs, t.sent)
  exact sendPureAck_duty rfl (h.toAlert.moved hsame fun _ => rfl)

lemma simultaneousOpen_duty (seg : Segment) (h : Duty forward t) : Duty forward (final (simultaneousOpen seg t)) := by
  unfold simultaneousOpen
  refine bind_at (R := Keeps (Duty forward)) (fun h => ?_) (fun _ u hu => ?_) h
  · exact ⟨h.toAlert.moved rfl fun _ => rfl, h.armed, fun _ hne => absurd rfl hne⟩
  have hheard : u.state.heard = true := by
    cases hu
    rfl
  exact bind_at (R := Keeps (Duty forward)) (AckRun.duty (emitSynack_attends u hheard).1) fun _ _ _ h => h.aside rfl

lemma onSynSent_duty (seg : Segment) (h : Duty forward t) : Duty forward (final (onSynSent seg t)) := by
  unfold onSynSent
  rw [run_get_bind]
  split
  · split
    · exact h
    · exact refuseAck_duty seg h
  split
  · split
    · exact AckRun.duty (.single (.abort t)) h
    · exact h
  split
  · exact h
  split
  · exact completeActiveOpen_duty seg h
  · exact simultaneousOpen_duty seg h

lemma completePassiveOpen_duty (seg : Segment) (hstate : t.state = .synRcvd) (h : Duty forward t) :
    Duty forward (final (completePassiveOpen seg t)) := by
  unfold completePassiveOpen
  rw [run_modify_bind]
  have hopened : Duty forward (t.passiveOpened seg) :=
    h.moved ((sampleRtt_react _ _).of dutyView) (by rw [hstate]; rfl)
  split
  · exact sendPureAck_duty rfl hopened.toAlert
  · exact onSynchronized_duty seg rfl hopened

lemma resetToListenOrClosed_duty (h : Duty forward t) : Duty forward t.resetToListenOrClosed := by
  refine Duty.ended h.toAlert rfl rfl (.inr rfl) fun hs => ?_
  change (if t.isListener = true then State.listen else State.closed).heard = true at hs
  split at hs <;> cases hs

lemma onSynRcvd_duty (seg : Segment) (hstate : t.state = .synRcvd) (h : Duty forward t) :
    Duty forward (final (onSynRcvd seg t)) := by
  have hheard : t.state.heard = true := by rw [hstate]; rfl
  have hoow := AckRun.duty (sendOowAck_attends t hheard).1 h
  unfold onSynRcvd
  rw [run_get_bind]
  split
  · split
    · exact h
    split
    · exact hoow
    split
    · exact resetToListenOrClosed_duty h
    · exact AckRun.duty (.single (.abort t)) h
  split
  · split
    · split
      · exact completePassiveOpen_duty seg hstate h
      · exact refuseAck_duty seg h
    split
    · refine AckRun.duty (Leaves.bind (R := Attends) ?_ (fun allowed => Leaves.ite ?_ (Leaves.ofPure _)) t hheard).1 h
      · exact Leaves.ofModifyGet fun t => .aside (oowAllowed_view t)
      · exact Leaves.bind emitSynack_attends fun _ => Leaves.ofPure _
    · exact h
  split
  · exact h
  split
  · exact refuseAck_duty seg h
  split
  · exact hoow
  · exact completePassiveOpen_duty seg hstate h

lemma promoteViaCookie_duty (seg : Segment) (opts : CookieOpts) (h : Duty forward t) :
    Duty forward (final (promoteViaCookie seg opts t)) := by
  unfold promoteViaCookie
  rw [run_modify_bind]
  exact onSynchronized_duty seg rfl (Duty.ended h.toAlert rfl rfl (.inr rfl) fun _ => rfl)

lemma acceptSynStateful_duty (seg : Segment) (h : Duty forward t) : Duty forward (final (acceptSynStateful seg t)) := by
  unfold acceptSynStateful
  refine bind_at (R := Keeps (Duty forward)) (fun h => ?_) (fun _ u hu => ?_) h
  · exact Duty.ended h.toAlert rfl rfl (.inr rfl) fun _ => rfl
  have hheard : u.state.heard = true := by
    cases hu
    rfl
  exact bind_at (R := Keeps (Duty forward)) (AckRun.duty (emitSynack_attends u hheard).1) fun _ _ _ h => h.aside rfl

lemma onListen_duty (seg : Segment) (h : Duty forward t) : Duty forward (final (onListen seg t)) := by
  have hpromote : Duty forward (final (tryPromoteViaCookie seg t)) := by
    unfold tryPromoteViaCookie
    rw [run_get_bind]
    cases t.validateCookie seg with
    | some opts => exact bind_at (R := Keeps (Duty forward)) (promoteViaCookie_duty seg opts) (fun _ _ _ h => h) h
    | none => exact h
  unfold onListen
  rw [run_get_bind]
  split
  · exact h
  split
  · split
    · split
      · exact bind_at (R := Keeps (Duty forward)) (fun _ => hpromote) (fun _ _ _ h => h) h
      · exact h
    · exact refuseAck_duty seg h
  split
  · exact h
  · exact acceptSynStateful_duty seg h

lemma emitCookieSynack_duty (seg : Segment) (hstate : t.state = .synRcvd) (h : Duty forward t) :
    Duty forward (final (emitCookieSynack seg t)) := by
  have hheard : t.state.heard = true := by rw [hstate]; rfl
  unfold emitCookieSynack
  split
  · exact h
  · dsimp only
    refine bind_at (R := Keeps (Duty forward)) (stage_duty _ _ _ fun _ _ => hheard) (fun queued u _ h => ?_) h
    rw [run_modify, final_ok]
    split <;> exact h.aside rfl

lemma onBusyListener_duty (seg : Segment) (h : Duty forward t) : Duty forward (final (onBusyListener seg t)) := by
  unfold onBusyListener
  rw [run_get_bind]
  split
  · exact h
  case isFalse hbusy =>
    simp only [ne_eq, not_or, not_not] at hbusy
    split
    · exact emitCookieSynack_duty seg hbusy.1 h
    split
    · cases t.validateCookie seg with
      | some opts => exact promoteViaCookie_duty seg opts (resetToListenOrClosed_duty h)
      | none => exact h
    · exact h

lemma dispatch_duty (seg : Segment) (h : Duty forward t) : Duty forward (final (dispatch seg t)) := by
  unfold dispatch
  rw [run_modify_bind]
  have hcounted : Duty forward t.countIn := h.aside rfl
  unfold route
  rw [run_get_bind]
  cases hstate : t.countIn.state with
  | closed => exact hcounted
  | listen => exact onListen_duty seg hcounted
  | synSent => exact onSynSent_duty seg hcounted
  | synRcvd => exact onSynRcvd_duty seg hstate hcounted
  | _ => exact onSynchronized_duty seg (by rw [hstate]; rfl) hcounted

lemma injectSegment_duty (seg : Segment) (h : Duty forward t) : Duty forward (final (injectSegment seg t)) := by
  unfold injectSegment
  rw [run_get_bind]
  split
  · exact h
  split
  · split
    · exact dispatch_duty seg (resetToListenOrClosed_duty h)
    · exact onBusyListener_duty seg h
  · exact dispatch_duty seg h

/-! ## Calls -/

lemma connect_duty (h : Duty forward t) : Duty forward (final (connect t)) := by
  unfold connect
  rw [run_get_bind]
  split
  · exact h
  refine bind_at (R := Keeps (Duty forward)) (fun h => ?_) (fun _ u hu => ?_) h
  · exact Duty.ended h.toAlert rfl rfl (.inr rfl) fun hs => by cases hs
  have hstate : u.state = .synSent := by
    cases hu
    rfl
  refine bind_at (R := Keeps (Duty forward)) (AckRun.duty (emitSyn_acks hstate)) fun sent v _ h => ?_
  rw [run_modify, final_ok]
  split
  · exact h.aside rfl
  · exact h

lemma listen_duty (h : Duty forward t) : Duty forward (final (listen t)) := by
  have hopen : Duty forward (final ((if !t.secretSet && !t.cookieSecretSet then
      throw (Fault.tcp .invalidState) else modify passiveOpen : TcbM P Unit) t)) := by
    split
    · exact h
    · exact Duty.ended h.toAlert rfl rfl (.inr rfl) fun hs => by cases hs
  unfold listen
  rw [run_get_bind]
  cases t.state with
  | closed | listen | timeWait => exact hopen
  | synSent | synRcvd | established | finWait1 | finWait2 | closing | closeWait | lastAck => exact h

lemma close_duty (h : Duty forward t) : Duty forward (final (close t)) := by
  have hmove {s : State} (hs : s.heard = true) (ht : t.state.heard = true) :
      Duty forward (final (maybeSendData ({ t with state := s } : Tcb P))) :=
    AckRun.duty (maybeSendData_acks _).1 (h.moved rfl (hs.trans ht.symm))
  unfold close
  rw [run_get_bind]
  cases hs : t.state with
  | established => exact hmove (s := .finWait1) rfl (by rw [hs]; rfl)
  | synRcvd => exact hmove (s := .finWait1) rfl (by rw [hs]; rfl)
  | closeWait => exact hmove (s := .lastAck) rfl (by rw [hs]; rfl)
  | closed | finWait1 | finWait2 | closing | timeWait | lastAck => exact h
  | synSent | listen => exact Duty.ended h.toAlert rfl rfl (.inr rfl) fun hs => by cases hs

lemma abort_duty (h : Duty forward t) : Duty forward (final (abort t)) := by
  unfold abort
  rw [run_get_bind]
  cases t.state with
  | closed => exact h
  | listen | synSent => exact Duty.ended h.toAlert rfl rfl (.inl rfl) fun hs => by cases hs
  | _ => exact AckRun.duty (reset_acks _ _ t) h

lemma updatePmtu_duty (mtu : U16) (h : Duty forward t) : Duty forward (final (updatePmtu mtu t)) := by
  have hsend : Leaves (Keeps (Duty forward)) (maybeSendData (P := P)) := fun t => AckRun.duty (maybeSendData_acks t).1
  have hbound (t : Tcb P) : Agree ackView t (boundRestore (mssOfMtu mtu) t) := by
    unfold boundRestore
    dsimp only
    split <;> rfl
  refine (?_ : Leaves (Keeps (Duty forward)) (updatePmtu mtu)) t h
  refine Leaves.bind (Leaves.ofModify fun t h => h.aside (hbound t)) fun _ => Leaves.bind Leaves.ofGet fun _ => ?_
  refine Leaves.ite (Leaves.ofPure _) (Leaves.bind (Leaves.ofModify fun _ h => h.aside rfl) fun _ => ?_)
  refine Leaves.bind Leaves.ofGet fun _ => Leaves.ite ?_ (Leaves.ofPure _)
  exact Leaves.bind (Leaves.ofModify fun _ h => h.aside rfl) fun _ => ignoreError_leaves hsend

lemma recv_duty (cap : ℕ) (h : Duty forward t) : Duty forward (final (recv cap t)) := by
  have hupdate : Leaves (Keeps (Duty forward)) (maybeSendWindowUpdate (P := P)) := by
    refine Leaves.ofGetBind fun t h => ?_
    split
    · exact h
    case isFalse hcan =>
      have hheard : t.state.heard = true := by
        rw [not_not] at hcan
        cases hs : t.state <;> first | rfl | (rw [hs] at hcan; cases hcan)
      dsimp only
      split
      · exact AckRun.duty (sendPureAck_attends t hheard).1 h
      · exact h
  unfold recv
  rw [run_get_bind]
  cases t.error with
  | some e => exact h
  | none =>
    refine (?_ : Leaves (Keeps (Duty forward)) _) t h
    refine Leaves.bind (Leaves.ofModify fun t h => h.aside rfl) fun _ => Leaves.ite ?_ ?_
    · refine Leaves.bind (Leaves.ofModify fun t h => h.aside ?_) fun _ =>
        Leaves.bind hupdate fun _ => Leaves.ofPure _
      unfold restartFinWait2
      split <;> rfl
    · exact Leaves.ite (Leaves.ofThrow _) (Leaves.ofPure _)

/-- Moving data in and out of the rings is not about acknowledgments. -/
lemma stores_duty {α : Type} {x : TcbM P α} (hx : Leaves (Agree fun t => (t.dutyView, t.state)) x) (h : Duty forward t) :
    Duty forward (final (x t)) :=
  h.moved ((hx t).of Prod.fst) (congrArg State.heard ((hx t).of Prod.snd))

lemma extractPacket_duty (cap : ℕ) (h : Duty forward t) : Duty forward (final (extractPacket cap t)) := by
  unfold extractPacket
  split
  · exact h.moved rfl rfl
  · exact h

lemma extractPacketWith_duty (h : Duty forward t) : Duty forward t.extractPacketWith.2 := by
  unfold extractPacketWith
  split
  · exact h.moved rfl rfl
  · exact h

/-- A knob is set, and the clock may go on. -/
lemma Duty.tuned (h : Duty forward t) (hsame : Agree exceptSet t t')
    (hnow : forward → t.nowMs.toNat ≤ t'.nowMs.toNat) : Duty forward t' := by
  have hstart : Duty forward ({ t with nowMs := t'.nowMs } : Tcb P) :=
    ⟨⟨h.heard, fun hf => (h.soon hf).trans (Nat.add_le_add_right (hnow hf) 41), h.told⟩, h.armed, h.owed⟩
  have hview : Agree dutyView ({ t with nowMs := t'.nowMs } : Tcb P) t' :=
    hsame.of fun u => ({ u with nowMs := t'.nowMs } : Tcb P).dutyView
  exact hstart.moved hview (congrArg State.heard (hsame.of fun t => t.state))

lemma setEgressPaused_now (paused : Bool) (t : Tcb P) : (setEgressPaused paused t).nowMs = t.nowMs := by
  unfold setEgressPaused
  dsimp only
  split
  · obtain ⟨d, hd⟩ := maybeArmTlp_eq t
    rw [hd]
  · rfl

lemma installCookieKey_now (key : Key) (t : Tcb P) : (t.installCookieKey key).nowMs = t.nowMs := by
  unfold installCookieKey
  dsimp only
  split <;> rfl

lemma setSecret_now (secret : Key) (t : Tcb P) : (setSecret secret t).nowMs = t.nowMs := by
  unfold setSecret
  dsimp only
  split
  · rfl
  · exact installCookieKey_now _ _

end Tcb

/-- The host's clock does not run backwards. -/
def Call.Forward (t : Tcb P) : Call → Prop
  | .setNow now => t.nowMs.toNat ≤ now.toNat
  | _ => True

instance (t : Tcb P) (c : Call) : Decidable (c.Forward t) := by
  unfold Call.Forward
  cases c <;> infer_instance

open Tcb

/-- Every call keeps the duty. -/
lemma Call.duty (hbuf : P.BUF < 2 ^ 32) {forward : Prop} {t : Tcb P} {c : Call}
    (hforward : forward → c.Forward t) (hl : Ledger t) (ht : Timed t) (h : Duty forward t) :
    Duty forward (final (c.run t)) := by
  have hof {α : Type} {x : TcbM P α} (hx : Duty forward (final (x t))) (f : α → Reply) :
      Duty forward (final ((x >>= fun a => pure (f a)) t)) :=
    bind_at (R := Keeps (Duty forward)) (fun _ => hx) (fun _ _ _ h => h) h
  have hinject (parsed : Except TcpError Segment) : Duty forward (final (injectParsed parsed t)) := by
    cases parsed with
    | ok seg => exact injectSegment_duty seg h
    | error e => exact h
  cases c with
  | setNow now => exact h.tuned (Call.set_footprint rfl t) hforward
  | setEgressPaused paused =>
    exact h.tuned (Call.set_footprint rfl t) fun _ => le_of_eq (congrArg _ (setEgressPaused_now paused t).symm)
  | setTxCsumOffload | setKeepalive | setUserTimeout | setFinWait2Timeout => exact h.aside rfl
  | setMtu mtu =>
    refine hof (stores_duty (Leaves.bind Leaves.ofGet fun t => ?_) h) _
    split
    · exact Leaves.ofModify fun _ => rfl
    · exact Leaves.ofModify fun _ => rfl
    · exact Leaves.ofThrow _
  | updatePmtu mtu => exact hof (updatePmtu_duty mtu h) _
  | setSecret secret =>
    exact h.tuned (Call.set_footprint rfl t) fun _ => le_of_eq (congrArg _ (setSecret_now secret t).symm)
  | setCookieSecret secret =>
    exact h.tuned (Call.set_footprint rfl t) fun _ => le_of_eq (congrArg _ (installCookieKey_now secret t).symm)
  | reinit cfg => exact Duty.ended h.toAlert rfl rfl (.inr rfl) fun hs => by cases hs
  | connect => exact hof (connect_duty h) _
  | listen => exact hof (listen_duty h) _
  | close => exact hof (close_duty h) _
  | abort => exact hof (abort_duty h) _
  | send data =>
    refine hof (stores_duty (Leaves.bind Leaves.ofGet fun _ => ?_) h) _
    exact Leaves.ite (Leaves.ofThrow _) (Leaves.ite (Leaves.ofThrow _)
      (Leaves.ite (Leaves.ofThrow _) (Leaves.ofModifyGet fun _ => rfl)))
  | sendReserve max =>
    refine hof (stores_duty (Leaves.bind Leaves.ofGet fun _ => ?_) h) _
    exact Leaves.ite (Leaves.ofThrow _) (Leaves.ite (Leaves.ofThrow _)
      (Leaves.bind (Leaves.ofModify fun _ => rfl) fun _ => Leaves.ofPure _))
  | sendFill offset src =>
    refine stores_duty (x := modify (Tcb.sendFill offset src)) (Leaves.ofModify fun u => ?_) h
    unfold Tcb.sendFill
    split <;> rfl
  | sendCommit n =>
    have hends : Leaves (Agree fun t : Tcb P => (t.dutyView, t.state)) (Tcb.sendCommit n) :=
      Leaves.bind (Leaves.ofModifyGet fun _ => rfl) fun _ => Leaves.bind Leaves.ofGet fun _ =>
        Leaves.ite (Leaves.ofThrow _) (Leaves.ofModifyGet fun _ => rfl)
    exact hof (stores_duty hends h) _
  | recv cap => exact hof (recv_duty cap h) _
  | extractPacket cap => exact hof (extractPacket_duty cap h) _
  | extractPacketWith => exact extractPacketWith_duty h
  | injectPacket packet => exact hof (hinject _) _
  | injectPacketL4CsumTrusted packet => exact hof (hinject _) _
  | tick => exact hof (AckRun.duty (runTimers_ticks hbuf hl ht h.heard).events h) _

lemma Tcb.Duty.new {forward : Prop} (cfg : TcbConfig) : Duty forward (Tcb.new cfg : Tcb P) :=
  ⟨⟨fun hp => (by cases hp), fun _ => Nat.zero_le _, fun e he => by cases he⟩, fun hp => (by cases hp),
    fun hs => by cases hs⟩

/-- What was received is acknowledged or owed. -/
lemma Reachable.duty (hbuf : P.BUF < 2 ^ 32) {t : Tcb P} (ht : Reachable t) : Duty False t := by
  induction ht with
  | new cfg => exact .new cfg
  | step hreach hstep ih =>
    rw [hstep.2]
    exact Call.duty hbuf False.elim (hreach.ledger hbuf) (hreach.timed hbuf) ih

/-- While the clock does not run backwards, it is owed soon. -/
lemma ReachableBy.duty (hbuf : P.BUF < 2 ^ 32) {t : Tcb P} (ht : ReachableBy (fun t c => c.Forward t) t) :
    Duty True t := by
  refine ht.invariant Tcb.Duty.new fun t c hreach hok h => ?_
  exact Call.duty hbuf (fun _ => hok) (hreach.ledger hbuf) (hreach.timed hbuf) h

/-! ## What was told -/

namespace Tcb

/-- What counts as the last acknowledgment was sent, or is the handshake's. -/
def Remembered (t : Tcb P) : Prop :=
  t.state.heard = true → t.lastAckSent = t.irs + 1 ∨
    ∃ e ∈ t.sent, advertises e.header = true ∧ e.header.ack = t.lastAckSent

lemma Remembered.emitted {t : Tcb P} (h : Remembered t) (hd : Header) (p pkt : List U8)
    (ring : TxRing P.TXQ) (d : Option (U32 × U32)) : Remembered (t.emitted hd p pkt ring d) := by
  intro hheard
  by_cases hadv : advertises hd = true
  · refine .inr ⟨t.emission hd p pkt, List.mem_append_right _ (List.mem_singleton_self _), hadv, ?_⟩
    exact (if_pos hadv).symm
  · have hlast : (t.emitted hd p pkt ring d).lastAckSent = t.lastAckSent := if_neg hadv
    rw [hlast]
    refine (h hheard).imp id ?_
    rintro ⟨e, he, htells⟩
    exact ⟨e, List.mem_append_left _ he, htells⟩

lemma stable_remembered : Stable (Remembered (P := P)) where
  core _ := Iff.rfl
  step t l t' hstep h := by
    have hsame {u : Tcb P} (hheard : u.state.heard = true → t.state.heard = true)
        (hlast : u.lastAckSent = t.lastAckSent) (hirs : u.irs = t.irs) (hsent : u.sent = t.sent) :
        Remembered u := by
      intro hu
      rw [hlast, hirs, hsent]
      exact h (hheard hu)
    cases hstep with
    | control => exact h.emitted _ _ _ _ _
    | @first len _ _ _ d hd pkt ring => exact h.emitted hd (t.bytesAt t.sndNxt len) pkt ring d
    | again => exact h.emitted _ _ _ _ _
    | stateless =>
      refine fun hheard => (h hheard).imp id ?_
      rintro ⟨e, he, htells⟩
      exact ⟨e, List.mem_append_left _ he, htells⟩
    | @segment seg hstate =>
      have hframe := receiveSegment_frame t seg
      obtain ⟨n, f, hadv⟩ := receiveSegment_advances t seg
      refine hsame (fun _ => ?_) (hframe.of fun t => t.lastAckSent) hadv.irs (hframe.of fun t => t.sent)
      cases hs : t.state <;> first | rfl | (rw [hs] at hstate; cases hstate)
    | duplicate => exact hsame id rfl rfl rfl
    | finWait2 hstate => exact hsame (fun _ => by rw [hstate]; rfl) rfl rfl rfl
    | timeWait hstate => exact hsame (fun _ => by rw [hstate]; rfl) rfl rfl rfl
    | close hstate =>
      refine hsame (fun _ => ?_) rfl rfl rfl
      rcases hstate with ⟨hs | hs, -⟩ | ⟨hs, -⟩ <;> rw [hs] <;> rfl
    | abort => exact fun hheard => by cases hheard
    | closeClean => exact fun hheard => by cases hheard
    | timeWaitOver => exact fun hheard => by cases hheard
    | reset hstate =>
      intro hheard
      rcases hstate with rfl | rfl <;> cases hheard
    | connected => exact fun hheard => by cases hheard
    | @halfOpened seg =>
      have hopen : Remembered (t.halfOpen seg) := fun _ => .inl rfl
      exact hopen.emitted _ _ _ _ _
    | activeOpened => exact fun _ => .inl rfl
    | simultaneous => exact fun _ => .inl rfl
    | passiveOpened hstate => exact hsame (fun _ => by rw [hstate]; rfl) rfl rfl rfl
    | cookieOpened => exact fun _ => .inl rfl
    | _ => exact h

/-! ## The deadline -/

/-- Of the deadlines looked at, none comes before the one reported. -/
lemma nextDeadline_le {t : Tcb P} {d : Deadline} {at_ : U64} (hd : d ∈ t.reportedDeadlines)
    (hat : d.get = some at_) : ∃ n, t.nextDeadline = some n ∧ n.toNat ≤ at_.toNat := by
  -- The fold keeps the earlier of the best so far and the next one.
  have hfold (f : Option U64 → U64 → Option U64) (hnone : ∀ d, f none d = some d)
      (hsome : ∀ b d, f (some b) d = some (minB b d)) (l : List U64) (best : Option U64) (x : U64)
      (hx : best = some x ∨ x ∈ l) : ∃ n, l.foldl f best = some n ∧ n.toNat ≤ x.toNat := by
    induction l generalizing best x with
    | nil =>
      rcases hx with rfl | hx
      · exact ⟨x, rfl, le_refl _⟩
      · cases hx
    | cons d l ih =>
      rw [List.foldl_cons]
      have hmin (b : U64) : (minB b d).toNat ≤ b.toNat ∧ (minB b d).toNat ≤ d.toNat := by
        rw [toNat_minB]
        omega
      rcases hx with rfl | hx
      · obtain ⟨n, hn, hle⟩ := ih _ (minB x d) (.inl (hsome x d))
        exact ⟨n, hn, hle.trans (hmin x).1⟩
      rcases List.mem_cons.mp hx with rfl | hx
      · cases best with
        | none => exact ih _ x (.inl (hnone x))
        | some b =>
          obtain ⟨n, hn, hle⟩ := ih _ (minB b x) (.inl (hsome b x))
          exact ⟨n, hn, hle.trans (hmin b).2⟩
      · exact ih _ x (.inr hx)
  exact hfold _ (fun _ => rfl) (fun _ _ => rfl) _ none at_ (.inr (List.mem_filterMap.mpr ⟨d, hd, hat⟩))

/-- With the egress path open, what is not acknowledged is owed at `d`. -/
def Prompt (d : Deadline) (t : Tcb P) : Prop :=
  t.state.heard = true → t.lastAckSent ≠ t.rcvNxt →
    t.egressFull = false ∧ t.pendingAck = true ∧ t.ackDeadline = d

lemma AckEvent.prompt {d : Deadline} {t t' : Tcb P} (h : AckEvent t t') (hp : Prompt d t) : Prompt d t' := by
  cases h with
  | aside h =>
    intro hheard hne
    obtain ⟨hopen, hpend, hdead⟩ := hp ((h.of fun w => w.state.heard).symm.trans hheard) fun heq =>
      hne ((h.of AckView.lastAckSent).trans (heq.trans (h.of AckView.rcvNxt).symm))
    exact ⟨(h.of fun w => w.egressPaused || w.txRing.isFull).trans hopen,
      (h.of AckView.pendingAck).trans hpend, (h.of AckView.ackDeadline).trans hdead⟩
  | told hheard h =>
    intro _ hne
    exact absurd ((congrArg AckView.lastAckSent h.view).trans (congrArg AckView.rcvNxt h.view).symm) hne
  | settled h => exact fun _ hne => absurd h hne
  | deferred hheard hfull =>
    intro _ hne
    cases (hp hheard hne).1.symm.trans hfull
  | greeted hstate h =>
    intro hheard
    rw [show t'.state = t.state from congrArg AckView.state h.view] at hheard
    cases hstate.symm.trans hheard
  | parted => exact fun hheard => by cases hheard
  | ended hover => exact fun hheard => by cases hover.symm.trans hheard

lemma AckRun.prompt {d : Deadline} {t t' : Tcb P} (h : AckRun t t') (hp : Prompt d t) : Prompt d t' := by
  induction h with
  | refl => exact hp
  | tail _ hevent ih => exact hevent.prompt ih

/-- The timer of delayed acknowledgments, when its time has come and the egress path is open. -/
lemma ackTimer_settles {d : Deadline} {now : U64} {t t' : Tcb P} (hp : Prompt d t) (hdue : d.due now = true)
    (hrun : ackTimer now t = .ok () t') (hheard : t'.state.heard = true) : t'.lastAckSent = t'.rcvNxt := by
  unfold ackTimer at hrun
  rw [run_get_bind] at hrun
  split at hrun
  case isTrue hfires =>
    cases hopen : t.egressFull with
    | false =>
      obtain ⟨u, hack, htold⟩ := sendPureAck_open hopen
      rw [hack] at hrun
      cases hrun
      exact htold
    | true =>
      -- Owed with the egress path blocked: not what `Prompt` allows.
      unfold sendPureAck at hrun
      rw [run_get_bind, if_pos hopen] at hrun
      cases hrun
      by_contra hne
      cases (hp hheard hne).1.symm.trans hopen
  case isFalse hidle =>
    cases hrun
    by_contra hne
    obtain ⟨-, hpend, hdead⟩ := hp hheard hne
    rw [hpend, hdead, hdue] at hidle
    exact hidle rfl

end Tcb

/-- What is received in order is acknowledged.  `lastAckSent` is what the handshake acknowledges or what a
staged segment told; it is `RCV.NXT`, or an ACK is pending whose deadline is at most 40 ms away, is
covered by `next_deadline` unless the egress path is paused, and makes a tick at that time or later send
it, unless the egress path is full before the tick. -/
theorem received_is_acknowledged (hbuf : P.BUF < 2 ^ 32) (hq : P.TXQ + 2 < 2 ^ 32) {t : Tcb P}
    (ht : ReachableBy (fun t c => c.Forward t) t) (hheard : t.state.heard = true) :
    (t.lastAckSent = t.irs + 1 ∨
        ∃ e ∈ t.sent, advertises e.header = true ∧ e.header.ack = t.lastAckSent) ∧
      (t.lastAckSent = t.rcvNxt ∨ t.pendingAck = true ∧ ∃ d, t.ackDeadline.get = some d ∧
        d.toNat ≤ t.nowMs.toNat + 40 ∧
        (t.egressPaused = false → ∃ n, t.nextDeadline = some n ∧ n.toNat ≤ d.toNat) ∧
        ∀ now : U64, d.toNat ≤ now.toNat → t.egressFull = false →
          (runAll [.setNow now, .tick] t).state.heard = true →
            (runAll [.setNow now, .tick] t).lastAckSent = (runAll [.setNow now, .tick] t).rcvNxt) := by
  have hduty := ht.duty hbuf
  refine ⟨ht.reachable.stable stable_remembered (fun _ h => by cases h) hheard, ?_⟩
  by_cases htold : t.lastAckSent = t.rcvNxt
  · exact .inl htold
  have hpend := hduty.owed hheard htold
  have harmed := hduty.armed hpend
  have hraw : t.ackDeadline.raw ≠ 0 := by simpa only [Deadline.isArmed, bne_iff_ne] using harmed
  have hget : t.ackDeadline.get = some (t.ackDeadline.raw - 1) := if_neg hraw
  refine .inr ⟨hpend, _, hget, ?_, fun hopen => ?_, fun now hlate hopen hstill => ?_⟩
  · have hsoon := hduty.soon trivial
    have hone : (1 : U64).toNat = 1 := rfl
    bv_omega
  · refine nextDeadline_le (d := t.ackDeadline) ?_ hget
    simp only [reportedDeadlines, hpend, hopen, Bool.not_false, Bool.and_self, if_true, List.mem_cons,
      true_or, or_true]
  · have hreach : Reachable (t.setNow now) := ht.reachable.step (c := .setNow now) ⟨trivial, rfl⟩
    obtain ⟨a, t', hrun⟩ := refines_returns hbuf hq (runTimers_refines (s := none) (t.setNow now))
      (hreach.backlog hbuf) hreach.sizes
    have hend : runAll [.setNow now, .tick] t = t' := by
      change final ((tick >>= fun _ => pure Reply.unit) (t.setNow now)) = t'
      rw [final_bind_pure, tick, hrun, final_ok]
    rw [hend] at hstill ⊢
    have hprompt : Prompt t.ackDeadline (t.setNow now) := fun _ _ => ⟨hopen, hpend, rfl⟩
    obtain ⟨u, v, hevents, hsend, hlast⟩ := (runTimers_ticks hbuf (hreach.ledger hbuf) (hreach.timed hbuf)
      hduty.heard).last t' hrun hstill
    have hprompt := AckRun.prompt (hevents.trans (maybeSendData_acks u).1) hprompt
    rw [hsend, final_ok] at hprompt
    refine ackTimer_settles hprompt ?_ hlast hstill
    simp only [Deadline.due, hget, decide_eq_true_eq]
    exact hlate

/-- One byte comes in at 5 ms. -/
def tinyOwing : List Call :=
  tinyHandshake ++ [.setNow 5, .injectPacket (datagram peerAck [65])]

/-- The ACK waits until 45 ms, and a tick then sends it. -/
theorem tinyOwing_acknowledged :
    (runAll tinyOwing tinyClient).lastAckSent = 6 ∧ (runAll tinyOwing tinyClient).rcvNxt = 7 ∧
      (runAll tinyOwing tinyClient).ackDeadline.get = some 45 ∧
      (runAll [.setNow 45, .tick] (runAll tinyOwing tinyClient)).lastAckSent =
        (runAll [.setNow 45, .tick] (runAll tinyOwing tinyClient)).rcvNxt := by
  have hreach : ReachableBy (fun t c => c.Forward t) (runAll tinyOwing tinyClient) :=
    (ReachableBy.new _).runAll (by decide +kernel)
  have hdead : (runAll tinyOwing tinyClient).ackDeadline.get = some 45 := by decide +kernel
  refine ⟨by decide +kernel, by decide +kernel, hdead, ?_⟩
  rcases (received_is_acknowledged (by decide) (by decide) hreach (by decide +kernel)).2 with
    htold | ⟨-, d, hd, -, -, htick⟩
  · exact absurd htold (by decide +kernel)
  · cases hd.symm.trans hdead
    exact htick 45 (by decide) (by decide +kernel) (by decide +kernel)

end TcpSansIo
