import TcpSansIo.Tcb.Footprint

/-!
# State transitions

Every call takes an edge of `State.debug_transition_allowed` (`state.rs`).  One call can make several
internal transitions, so the edge is read off the composition: `segmentEdge` and `timerEdge` are the
edges that processing one segment and running the timers can add up to, and both are transitive.
-/

namespace TcpSansIo

open Proc FixedWidth

variable {P : Params}

namespace State

/-- The edges one segment can take a synchronized connection along. -/
def segmentEdge (self next : State) : Bool :=
  self == next || next == closed ||
    match self, next with
    | established, closeWait => true
    | finWait1, finWait2 | finWait1, closing | finWait1, timeWait => true
    | finWait2, timeWait | closing, timeWait => true
    | _, _ => false

/-- The edges the timers can take a connection along. -/
def timerEdge (self next : State) : Bool :=
  self == next || next == closed || (self == synRcvd && next == listen)

/-- The edges a segment can take a listener along. -/
def listenEdge (self next : State) : Bool :=
  self == next || next == synRcvd || segmentEdge established next

end State

open State

/-- The state moves along `edge`. -/
def Moves (edge : State → State → Bool) (t t' : Tcb P) : Prop := edge t.state t'.state = true

/-- What leaves the state alone moves it along any edge relation that allows staying. -/
lemma Moves.of_agree {edge : State → State → Bool} (hrefl : ∀ s, edge s s = true) {t t' : Tcb P}
    (h : Agree Tcb.state t t') : Moves edge t t' := by
  rw [Moves, h]
  exact hrefl _

lemma segmentEdge_refl (s : State) : segmentEdge s s = true := by cases s <;> rfl

lemma timerEdge_refl (s : State) : timerEdge s s = true := by cases s <;> rfl

lemma allowed_refl (s : State) : debugTransitionAllowed s s = true := by cases s <;> rfl

/-- Two segments, or two stages of one, add up to an edge. -/
lemma segmentEdge_trans {a b c : State} :
    segmentEdge a b = true → segmentEdge b c = true → segmentEdge a c = true := by
  cases a <;> cases b <;> cases c <;> decide

/-- Two timers add up to an edge. -/
lemma timerEdge_trans {a b c : State} :
    timerEdge a b = true → timerEdge b c = true → timerEdge a c = true := by
  cases a <;> cases b <;> cases c <;> decide

lemma allowed_of_timerEdge {a b : State} :
    timerEdge a b = true → debugTransitionAllowed a b = true := by
  cases a <;> cases b <;> decide

lemma allowed_of_segmentEdge {a b : State} :
    segmentEdge a b = true → debugTransitionAllowed a b = true := by
  cases a <;> cases b <;> decide

instance : Std.Refl (Moves (P := P) segmentEdge) := ⟨fun t => segmentEdge_refl t.state⟩
instance : IsTrans (Tcb P) (Moves segmentEdge) := ⟨fun _ _ _ h₁ h₂ => segmentEdge_trans h₁ h₂⟩
instance : Std.Refl (Moves (P := P) timerEdge) := ⟨fun t => timerEdge_refl t.state⟩
instance : IsTrans (Tcb P) (Moves timerEdge) := ⟨fun _ _ _ h₁ h₂ => timerEdge_trans h₁ h₂⟩

section

variable {α : Type} {x : TcbM P α} {edge : State → State → Bool}

/-- The state is no part of the ACK bookkeeping. -/
lemma state_of_ack (h : Leaves (Agree (Tcb.exceptAck (P := P))) x) : Leaves (Agree Tcb.state) x :=
  h.agree_of Tcb.state fun _ => rfl

/-- The state is no part of what a transmission writes. -/
lemma state_of_transmit (h : Leaves (Agree (Tcb.exceptTransmit (P := P))) x) :
    Leaves (Agree Tcb.state) x :=
  h.agree_of Tcb.state fun _ => rfl

/-- The state is no part of what an ACK does to the send side. -/
lemma state_of_react (h : Leaves (Agree (Tcb.exceptReact (P := P))) x) :
    Leaves (Agree Tcb.state) x :=
  h.agree_of Tcb.state fun _ => rfl

lemma segment_of_state (h : Leaves (Agree (Tcb.state (P := P))) x) : Leaves (Moves segmentEdge) x :=
  h.mono fun _ _ => Moves.of_agree segmentEdge_refl

lemma timer_of_state (h : Leaves (Agree (Tcb.state (P := P))) x) : Leaves (Moves timerEdge) x :=
  h.mono fun _ _ => Moves.of_agree timerEdge_refl

end

namespace Tcb

/-! ## Output never moves the state -/

lemma sendPureAck_state : Leaves (Agree (Tcb.state (P := P))) sendPureAck :=
  state_of_ack sendPureAck_footprint

lemma sendOowAck_state : Leaves (Agree (Tcb.state (P := P))) sendOowAck :=
  state_of_ack sendOowAck_footprint

lemma maybeSendData_state : Leaves (Agree (Tcb.state (P := P))) maybeSendData :=
  state_of_transmit maybeSendData_footprint

/-! ## Segments -/

/-- The ACK of our FIN: FIN_WAIT_1 to FIN_WAIT_2, CLOSING to TIME_WAIT, LAST_ACK to CLOSED. -/
lemma ourFinAcked_moves (t : Tcb P) : Moves segmentEdge t t.ourFinAcked := by
  unfold ourFinAcked
  split
  · split
    case h_1 h => rw [Moves, h]; rfl
    case h_2 h => rw [Moves, h]; rfl
    case h_3 h => rw [Moves, h]; rfl
    case h_4 => exact segmentEdge_refl _
  · exact segmentEdge_refl _

lemma processAck_moves (seg : Segment) : Leaves (Moves (P := P) segmentEdge) (processAck seg) := by
  refine Leaves.bind (Leaves.ofModify fun t => segmentEdge_refl t.state) fun _ => ?_
  refine Leaves.bind Leaves.ofGet fun t => Leaves.ite (Leaves.ofPure _) ?_
  exact Leaves.bind (segment_of_state (state_of_react (reactToAck_react seg))) fun _ =>
    Leaves.ofModify ourFinAcked_moves

/-- The peer's FIN: into CLOSE_WAIT, CLOSING or TIME_WAIT. -/
lemma advanceStateOnRemoteFin_moves (t : Tcb P) : Moves segmentEdge t t.advanceStateOnRemoteFin := by
  unfold advanceStateOnRemoteFin
  split
  case h_1 h => rw [Moves, h]; rfl
  case h_2 h =>
    rw [Moves, h]
    split <;> rfl
  case h_3 h => rw [Moves, h]; rfl
  case h_4 => exact segmentEdge_refl _

lemma consumeFin_moves (t : Tcb P) : Moves segmentEdge t t.consumeFin :=
  advanceStateOnRemoteFin_moves
    ({ t with rcvNxt := t.rcvNxt + 1, ooo := t.ooo.clear, oooFin := none } : Tcb P)

/-- A FIN is consumed in order, held, or ignored. -/
lemma receiveFin_moves (t : Tcb P) (start fin : U32) : Moves segmentEdge t (t.receiveFin start fin) := by
  unfold receiveFin
  split
  · exact consumeFin_moves t
  split
  · split
    · split <;> exact segmentEdge_refl _
    · exact segmentEdge_refl _
  · exact segmentEdge_refl _

lemma maybeConsumeOooFin_moves (t : Tcb P) : Moves segmentEdge t t.maybeConsumeOooFin.2 := by
  unfold maybeConsumeOooFin
  split
  · exact consumeFin_moves t
  · exact segmentEdge_refl _

lemma takeFin_moves (t : Tcb P) (seg : Segment) (segFin : Option U32) :
    Moves segmentEdge t (t.takeFin seg segFin).2 := by
  unfold takeFin
  split
  · exact receiveFin_moves _ _ _
  · exact segmentEdge_refl _

/-- Text does not move the state; a FIN, the segment's or a held one, does. -/
lemma receiveSegment_moves (t : Tcb P) (seg : Segment) :
    Moves segmentEdge t (t.receiveSegment seg).2 := by
  unfold receiveSegment
  split
  · exact segmentEdge_refl _
  have hp : Moves segmentEdge t (t.takeText seg (t.processedFin seg)).2 :=
    Moves.of_agree segmentEdge_refl ((takeText_text t seg _).of Tcb.state)
  exact segmentEdge_trans hp (segmentEdge_trans (takeFin_moves _ _ _) (maybeConsumeOooFin_moves _))

lemma onResetReceived_state (t : Tcb P) : t.onResetReceived.state = .closed := by
  unfold onResetReceived
  split <;> rfl

/-- CLOSED is one segment away from everywhere. -/
lemma closes {t t' : Tcb P} (h : t'.state = .closed) : Moves segmentEdge t t' := by
  rw [Moves, h]
  cases t.state <;> rfl

lemma answerText_state (seg : Segment) (ackNow advanced : Bool) :
    Leaves (Agree (Tcb.state (P := P))) (answerText seg ackNow advanced) := by
  refine Leaves.ite sendPureAck_state (Leaves.ite ?_ (Leaves.ite sendOowAck_state (Leaves.ofPure _)))
  exact Leaves.ofModify fun t => (scheduleDelayedAck_footprint _ t).of Tcb.state

lemma updateTsRecent_state (t : Tcb P) (seg : Segment) : (t.updateTsRecent seg).state = t.state := by
  unfold updateTsRecent
  split
  · split <;> rfl
  · rfl

lemma updateEcnEcho_state (t : Tcb P) (seg : Segment) : (t.updateEcnEcho seg).state = t.state := by
  unfold updateEcnEcho
  split <;> rfl

/-- The ACK may move the state and then the FIN may: FIN_WAIT_1 to TIME_WAIT in one segment. -/
lemma acceptSegment_moves (seg : Segment) (probe : Bool) :
    Leaves (Moves (P := P) segmentEdge) (acceptSegment seg probe) := by
  refine Leaves.bind (segment_of_state (Leaves.ofModify fun t => ?_)) fun _ => ?_
  · exact (updateEcnEcho_state (t.updateTsRecent seg) seg).trans (updateTsRecent_state t seg)
  refine Leaves.bind (processAck_moves seg) fun _ => ?_
  refine Leaves.bind Leaves.ofGet fun t => Leaves.ite (Leaves.ofPure _) (Leaves.ite ?_ ?_)
  · exact segment_of_state (Leaves.bind sendPureAck_state fun _ => maybeSendData_state)
  refine Leaves.bind (Leaves.ofModifyGet fun t => receiveSegment_moves t seg) fun _ => ?_
  refine Leaves.bind Leaves.ofGet fun _ => segment_of_state ?_
  exact Leaves.bind (answerText_state _ _ _) fun _ => maybeSendData_state

lemma answerUnacceptable_state (seg : Segment) (live : Bool) :
    Leaves (Agree (Tcb.state (P := P))) (answerUnacceptable seg live) := by
  have hlive : Leaves (Agree (Tcb.state (P := P))) (if live then maybeSendData else return ()) :=
    Leaves.ite maybeSendData_state (Leaves.ofPure _)
  refine Leaves.bind Leaves.ofGet fun t => Leaves.ite ?_ (Leaves.ite ?_ (Leaves.ite ?_ ?_))
  · refine Leaves.bind (Leaves.ofModify fun t => ?_) fun _ => sendPureAck_state
    rw [Agree, restartTimeWait]
  · exact Leaves.bind (Leaves.ofModify fun _ => rfl) fun _ => Leaves.bind sendPureAck_state fun _ => hlive
  · exact Leaves.bind sendPureAck_state fun _ => hlive
  · exact Leaves.bind sendOowAck_state fun _ => hlive

/-- An unacceptable segment moves the state through its ACK only. -/
lemma onUnacceptable_moves (seg : Segment) :
    Leaves (Moves (P := P) segmentEdge) (onUnacceptable seg) := by
  refine Leaves.bind Leaves.ofGet fun t => Leaves.ite (Leaves.ofPure _) ?_
  refine Leaves.ite (segment_of_state sendOowAck_state) (Leaves.ite ?_ ?_)
  · refine Leaves.bind (segment_of_state (Leaves.ofModify fun t => ?_)) fun _ => ?_
    · exact updateTsRecent_state t seg
    refine Leaves.bind (processAck_moves seg) fun _ => ?_
    exact Leaves.bind Leaves.ofGet fun t => Leaves.ite (Leaves.ofPure _)
      (segment_of_state (answerUnacceptable_state _ _))
  · exact segment_of_state (answerUnacceptable_state _ _)

/-- All that one segment does to a synchronized connection. -/
lemma onSynchronized_moves (seg : Segment) :
    Leaves (Moves (P := P) segmentEdge) (onSynchronized seg) := by
  have hoow := segment_of_state (sendOowAck_state (P := P))
  refine Leaves.bind Leaves.ofGet fun t => Leaves.ite (Leaves.ofPure _) ?_
  refine Leaves.ite (onUnacceptable_moves seg) (Leaves.ite ?_ (Leaves.ite ?_ ?_))
  · exact Leaves.ite (segment_of_state sendPureAck_state) hoow
  · exact Leaves.ite (Leaves.ofModify fun t => closes (onResetReceived_state t)) hoow
  · exact Leaves.ite hoow (Leaves.ite (Leaves.ofPure _) (Leaves.ite hoow (acceptSegment_moves _ _)))

/-! ## Handshake -/

lemma refuseAck_state (seg : Segment) : Leaves (Agree (Tcb.state (P := P))) (refuseAck seg) :=
  state_of_ack (refuseAck_footprint seg)

lemma emitSynack_state : Leaves (Agree (Tcb.state (P := P))) emitSynack :=
  state_of_ack emitSynack_footprint

/-- A cookie opens the connection; the ACK that carried it may move it on. -/
lemma promoteViaCookie_state (seg : Segment) (opts : CookieOpts) (t : Tcb P) :
    segmentEdge .established (final (promoteViaCookie seg opts t)).state = true :=
  onSynchronized_moves seg (t.cookieOpened seg opts)

/-- The ACK of our SYN-ACK opens the connection and may carry it on. -/
lemma completePassiveOpen_state (seg : Segment) (t : Tcb P) :
    segmentEdge .established (final (completePassiveOpen seg t)).state = true := by
  have h : Leaves (Moves (P := P) segmentEdge) (if seg.flags.syn then sendPureAck else onSynchronized seg) :=
    Leaves.ite (segment_of_state sendPureAck_state) (onSynchronized_moves seg)
  exact h (t.passiveOpened seg)

/-- A SYN to a listener leaves it half-open. -/
lemma acceptSynStateful_state (seg : Segment) (t : Tcb P) :
    (final (acceptSynStateful seg t)).state = .synRcvd := by
  have h : Leaves (Agree (Tcb.state (P := P)))
      (do let _ ← emitSynack
          modify fun t : Tcb P => ({ t with sndNxt := t.iss + 1, synUnacked := true } : Tcb P).armRto) :=
    Leaves.bind emitSynack_state fun _ => Leaves.ofModify fun _ => rfl
  exact h (t.halfOpen seg)

lemma tryPromoteViaCookie_state (seg : Segment) (t : Tcb P) (ht : t.state = .listen) :
    listenEdge .listen (final (tryPromoteViaCookie seg t)).state = true := by
  unfold tryPromoteViaCookie
  rw [run_get_bind]
  cases t.validateCookie seg with
  | some opts =>
    have h := promoteViaCookie_state seg opts t
    refine bind_rule (Q := fun r : EStateM.Result Fault (Tcb P) Bool =>
      listenEdge .listen (final r).state = true) (fun _ _ hrun => ?_) (fun _ _ hrun => ?_)
    all_goals
      rw [hrun] at h
      rw [listenEdge, Bool.or_eq_true]
      exact .inr h
  | none => simp only [run_pure, final_ok, ht, listenEdge, beq_self_eq_true, Bool.true_or]

/-- A listener stays, becomes half-open, or is opened by a cookie. -/
lemma onListen_state (seg : Segment) (t : Tcb P) (ht : t.state = .listen) :
    listenEdge .listen (final (onListen seg t)).state = true := by
  have hsame : ∀ x : TcbM P Unit, Leaves (Agree (Tcb.state (P := P))) x →
      listenEdge .listen (final (x t)).state = true := by
    intro x hx
    rw [hx t, ht]
    rfl
  unfold onListen
  rw [run_get_bind]
  split
  · exact hsame _ (Leaves.ofPure _)
  split
  · split
    · split
      · have h := tryPromoteViaCookie_state seg t ht
        exact bind_rule (Q := fun r : EStateM.Result Fault (Tcb P) Unit =>
          listenEdge .listen (final r).state = true)
          (fun _ _ hrun => by rw [hrun] at h; exact h) (fun _ _ hrun => by rw [hrun] at h; exact h)
      · exact hsame _ (Leaves.ofPure _)
    · exact hsame _ (refuseAck_state seg)
  split
  · exact hsame _ (Leaves.ofPure _)
  · rw [acceptSynStateful_state]
    rfl

/-! ## Dispatch -/

lemma allowed_of_same {α : Type} {x : TcbM P α} (hx : Leaves (Agree (Tcb.state (P := P))) x)
    {t : Tcb P} {s : State} (ht : t.state = s) :
    debugTransitionAllowed s (final (x t)).state = true := by
  rw [hx t, ht]
  exact allowed_refl s

lemma allowed_closed (s : State) : debugTransitionAllowed s .closed = true := by cases s <;> rfl

/-- What a listener may do, a half-open listener may do that gave up its peer first. -/
lemma allowed_of_listenEdge {s : State} (h : listenEdge .listen s = true) :
    debugTransitionAllowed .listen s = true ∧ debugTransitionAllowed .synRcvd s = true := by
  cases s <;> revert h <;> decide

/-- A half-open connection may be opened and carried on in one call. -/
lemma allowed_of_established {s : State} (h : segmentEdge .established s = true) :
    debugTransitionAllowed .synRcvd s = true := by
  cases s <;> revert h <;> decide

lemma activeOpened_state (t : Tcb P) (seg : Segment) : (t.activeOpened seg).state = .established := rfl

/-- SYN_SENT: opened, crossed by a SYN, refused, or as it was. -/
lemma onSynSent_state (seg : Segment) (t : Tcb P) (ht : t.state = .synSent) :
    debugTransitionAllowed .synSent (final (onSynSent seg t)).state = true := by
  unfold onSynSent
  rw [run_get_bind]
  split
  · exact allowed_of_same (Leaves.ite (Leaves.ofPure _) (refuseAck_state seg)) ht
  split
  · split
    · exact allowed_closed _
    · exact allowed_of_same (Leaves.ofPure _) ht
  split
  · exact allowed_of_same (Leaves.ofPure _) ht
  split
  · have h := sendPureAck_state (t.activeOpened seg)
    rw [Agree, activeOpened_state] at h
    change debugTransitionAllowed .synSent (final (sendPureAck (t.activeOpened seg))).state = true
    rw [h]
    rfl
  · have h : Leaves (Agree (Tcb.state (P := P))) (do let _ ← emitSynack; modify armRto) :=
      Leaves.bind emitSynack_state fun _ => Leaves.ofModify fun _ => rfl
    have hs := h ({ t.absorbSynOptions seg with
      ecnEnabled := false, state := .synRcvd, synRcvdRetries := 0, synRetransmitted := true } : Tcb P)
    change debugTransitionAllowed .synSent (final ((do let _ ← emitSynack; modify armRto) _)).state = true
    rw [hs]
    rfl

lemma resetToListenOrClosed_state (t : Tcb P) :
    t.resetToListenOrClosed.state = if t.isListener then .listen else .closed := rfl

/-- SYN_RCVD: opened, reset to where it came from, or as it was. -/
lemma onSynRcvd_state (seg : Segment) (t : Tcb P) (ht : t.state = .synRcvd) :
    debugTransitionAllowed .synRcvd (final (onSynRcvd seg t)).state = true := by
  unfold onSynRcvd
  rw [run_get_bind]
  split
  · split
    · exact allowed_of_same (Leaves.ofPure _) ht
    split
    · exact allowed_of_same sendOowAck_state ht
    split
    case isTrue hl =>
      rw [run_modify, final_ok, resetToListenOrClosed_state, if_pos hl]
      rfl
    case isFalse => exact allowed_closed _
  split
  · split
    · split
      · exact allowed_of_established (completePassiveOpen_state seg t)
      · exact allowed_of_same (refuseAck_state seg) ht
    split
    · refine allowed_of_same ?_ ht
      refine Leaves.bind (Leaves.ofModifyGet fun t => (oowAllowed_footprint t).of Tcb.state) fun _ => ?_
      exact Leaves.ite (Leaves.bind emitSynack_state fun _ => Leaves.ofPure _) (Leaves.ofPure _)
    · exact allowed_of_same (Leaves.ofPure _) ht
  split
  · exact allowed_of_same (Leaves.ofPure _) ht
  split
  · exact allowed_of_same (refuseAck_state seg) ht
  split
  · exact allowed_of_same sendOowAck_state ht
  · exact allowed_of_established (completePassiveOpen_state seg t)

lemma route_listen (seg : Segment) (t : Tcb P) (ht : t.state = .listen) :
    listenEdge .listen (final (route seg t)).state = true := by
  unfold route
  rw [run_get_bind, ht]
  exact onListen_state seg t ht

/-- Every state has its handler, and every handler its edges. -/
lemma route_state (seg : Segment) (t : Tcb P) :
    debugTransitionAllowed t.state (final (route seg t)).state = true := by
  have hsync := allowed_of_segmentEdge (onSynchronized_moves seg t)
  cases ht : t.state with
  | listen => exact (allowed_of_listenEdge (route_listen seg t ht)).1
  | closed =>
    unfold route
    rw [run_get_bind, ht]
    exact allowed_of_same (Leaves.ofThrow _) ht
  | synSent =>
    unfold route
    rw [run_get_bind, ht]
    exact onSynSent_state seg t ht
  | synRcvd =>
    unfold route
    rw [run_get_bind, ht]
    exact onSynRcvd_state seg t ht
  | established | finWait1 | finWait2 | closeWait | closing | lastAck | timeWait =>
    unfold route
    rw [run_get_bind, ht]
    rwa [ht] at hsync

/-- A busy listener answers a SYN of another peer statelessly, and gives its slot to a valid cookie. -/
lemma onBusyListener_state (seg : Segment) (t : Tcb P) :
    debugTransitionAllowed t.state (final (onBusyListener seg t)).state = true := by
  unfold onBusyListener
  rw [run_get_bind]
  split
  · exact allowed_refl _
  split
  case isFalse.isTrue =>
    exact allowed_of_same ((emitCookieSynack_footprint seg).agree_of Tcb.state fun _ => rfl) rfl
  split
  case isFalse.isFalse.isTrue h _ _ =>
    have hs : t.state = .synRcvd := not_not.1 fun hne => h (.inl hne)
    rw [hs]
    cases t.validateCookie seg with
    | some opts => exact allowed_of_established (promoteViaCookie_state seg opts _)
    | none => exact allowed_of_same (Leaves.ofThrow _) hs
  case isFalse.isFalse.isFalse => exact allowed_refl _

lemma mayReplaceHalfOpen_state {t : Tcb P} {seg : Segment} (h : t.mayReplaceHalfOpen seg = true) :
    t.state = .synRcvd ∧ t.isListener = true := by
  simp only [mayReplaceHalfOpen, Bool.and_eq_true, beq_iff_eq] at h
  exact ⟨h.1.1.1.1.1.1, h.1.1.1.1.1.2⟩

/-- A half-open connection that is replaced passes through LISTEN; the net edge starts in SYN_RCVD. -/
lemma injectSegment_state (seg : Segment) (t : Tcb P) :
    debugTransitionAllowed t.state (final (injectSegment seg t)).state = true := by
  unfold injectSegment
  rw [run_get_bind]
  split
  · exact allowed_refl _
  split
  · split
    case isTrue h =>
      obtain ⟨hs, hl⟩ := mayReplaceHalfOpen_state h
      have hreset : t.resetToListenOrClosed.state = .listen := by
        rw [resetToListenOrClosed_state, if_pos hl]
      rw [hs]
      exact (allowed_of_listenEdge (route_listen seg t.resetToListenOrClosed.countIn hreset)).2
    case isFalse => exact onBusyListener_state seg t
  · exact route_state seg t.countIn

lemma injectParsed_state (parsed : Except TcpError Segment) (t : Tcb P) :
    debugTransitionAllowed t.state (final (injectParsed parsed t)).state = true := by
  cases parsed with
  | ok seg => exact injectSegment_state seg t
  | error e => exact allowed_refl _

/-! ## Timers -/

/-- CLOSED is one timer away from everywhere. -/
lemma dies {t t' : Tcb P} (h : t'.state = .closed) : Moves timerEdge t t' := by
  rw [Moves, h]
  cases t.state <;> rfl

lemma resendSyn_state : Leaves (Agree (Tcb.state (P := P))) resendSyn := by
  refine Leaves.bind (Leaves.ofModify fun _ => rfl) fun _ => ?_
  exact Leaves.bind (state_of_ack emitSyn_footprint) fun _ => Leaves.ofModify fun _ => rfl

lemma synSentTimer_moves : Leaves (Moves (P := P) timerEdge) synSentTimer := by
  refine Leaves.bind Leaves.ofGet fun t => Leaves.ite (Leaves.ofPure _) ?_
  refine Leaves.bind (Leaves.ofModify fun t => timerEdge_refl t.state) fun _ => ?_
  exact Leaves.bind Leaves.ofGet fun t => Leaves.ite (Leaves.ofModify fun t => dies rfl)
    (timer_of_state resendSyn_state)

lemma resendSynack_state : Leaves (Agree (Tcb.state (P := P))) resendSynack := by
  refine Leaves.bind (Leaves.ofModify fun _ => rfl) fun _ => ?_
  exact Leaves.bind emitSynack_state fun _ => Leaves.ofModify fun _ => rfl

/-- A listener listens again; an active opener is closed. -/
lemma giveUpHalfOpen_moves {t : Tcb P} (ht : t.state = .synRcvd) :
    Moves timerEdge t t.giveUpHalfOpen := by
  unfold giveUpHalfOpen
  split
  case isTrue hl =>
    rw [Moves, resetToListenOrClosed_state, if_pos hl, ht]
    rfl
  case isFalse => exact dies rfl

/-- The SYN-ACK is sent again until its retries are used up. -/
lemma synRcvdTimer_moves {t : Tcb P} (ht : t.state = .synRcvd) :
    Moves timerEdge t (final (synRcvdTimer t)) := by
  unfold synRcvdTimer
  rw [run_get_bind]
  split
  · exact timerEdge_refl _
  rw [run_modify_bind, run_get_bind]
  split
  · exact giveUpHalfOpen_moves (t := { t with synRcvdRetries := satAdd t.synRcvdRetries 1 }) ht
  · exact timer_of_state resendSynack_state ({ t with synRcvdRetries := satAdd t.synRcvdRetries 1 } : Tcb P)

lemma handshakeTimer_moves : Leaves (Moves (P := P) timerEdge) handshakeTimer := by
  refine Leaves.ofGetBind fun t => ?_
  split
  · exact synSentTimer_moves t
  split
  case isTrue ht => exact synRcvdTimer_moves ht
  case isFalse => exact timerEdge_refl _

lemma sendTlp_state : Leaves (Agree (Tcb.state (P := P))) sendTlp := by
  refine Leaves.bind Leaves.ofGet fun t => Leaves.ite ?_ (Leaves.ite ?_ (Leaves.ofPure _))
  · refine Leaves.bind (state_of_transmit (emitNew_footprint _ _)) fun _ => Leaves.ofModify fun t => ?_
    split <;> exact rfl
  · refine Leaves.bind (state_of_transmit (retransmit_footprint _)) fun _ => Leaves.ofModify fun t => ?_
    split <;> exact rfl

lemma fireTlp_state : Leaves (Agree (Tcb.state (P := P))) fireTlp := by
  refine Leaves.bind (Leaves.ofModify fun _ => rfl) fun _ => ?_
  refine Leaves.bind Leaves.ofGet fun t => Leaves.ite (Leaves.ofPure _) (Leaves.ite ?_ sendTlp_state)
  refine Leaves.ofModify fun t => ?_
  obtain ⟨d, hd⟩ := maybeArmTlp_eq t
  rw [Agree, hd]

lemma blackholeCheck_state (t : Tcb P) : t.blackholeCheck.state = t.state := by
  unfold blackholeCheck
  split
  · rfl
  · dsimp only
    split <;> rfl

lemma renegeCheck_state (t : Tcb P) : t.renegeCheck.state = t.state := by
  unfold renegeCheck
  split <;> rfl

lemma armRto_state (t : Tcb P) : t.armRto.state = t.state := rfl

lemma backoffRto_state (t : Tcb P) : t.backoffRto.state = t.state := rfl

/-- The retransmission timeout closes the connection once its retries are used up. -/
lemma onRto_moves (t : Tcb P) : Moves timerEdge t t.onRto := by
  unfold onRto
  lift_lets
  intro t₁ t₂ stats t₃ t₄
  split
  · exact timerEdge_refl _
  split
  · exact dies rfl
  · refine Moves.of_agree timerEdge_refl ?_
    rw [Agree, armRto_state, backoffRto_state]
    exact (renegeCheck_state t₃.blackholeCheck).trans (blackholeCheck_state t₃)

lemma rackTimer_state (now : U64) (t : Tcb P) : (rackTimer now t).state = t.state := by
  unfold rackTimer
  split
  · dsimp only
    split
    · split <;> rfl
    · rfl
  · rfl

lemma persistAgain_state (t : Tcb P) : t.persistAgain.state = t.state := by
  unfold persistAgain
  dsimp only
  split <;> rfl

/-- Unanswered window probes close the connection. -/
lemma onPersistTimer_moves : Leaves (Moves (P := P) timerEdge) onPersistTimer := by
  refine Leaves.bind (Leaves.ofModify fun t => timerEdge_refl t.state) fun _ => ?_
  refine Leaves.bind Leaves.ofGet fun t => ?_
  refine Leaves.ite (Leaves.ofPure _) (Leaves.ite (Leaves.ofModify fun t => timerEdge_refl t.state) ?_)
  refine Leaves.ite ?_ ?_
  · refine timer_of_state (Leaves.bind (state_of_transmit (emitNew_footprint _ _)) fun _ => ?_)
    exact Leaves.ofModify persistAgain_state
  · refine Leaves.bind (timer_of_state (state_of_ack (emitProbe_footprint _))) fun _ => ?_
    refine Leaves.bind (Leaves.ofModify fun t => timerEdge_refl t.state) fun _ => ?_
    refine Leaves.ofModify fun t => ?_
    split
    · exact dies rfl
    · exact Moves.of_agree timerEdge_refl (persistAgain_state t)

/-- Unanswered keepalive probes close the connection. -/
lemma checkKeepalive_moves : Leaves (Moves (P := P) timerEdge) checkKeepalive := by
  refine Leaves.bind Leaves.ofGet fun t => ?_
  refine Leaves.ite (Leaves.ofPure _) (Leaves.ite (Leaves.ofModify fun t => timerEdge_refl t.state) ?_)
  refine Leaves.ite (Leaves.ofModify fun t => timerEdge_refl t.state) (Leaves.ite ?_ ?_)
  · refine Leaves.ofModify fun t => ?_
    split <;> exact dies rfl
  · refine Leaves.bind (timer_of_state (state_of_ack (emitProbe_footprint _))) fun _ => ?_
    refine Leaves.ofModify fun t => ?_
    split <;> exact timerEdge_refl t.state

lemma checkUserTimeout_moves (t : Tcb P) : Moves timerEdge t t.checkUserTimeout := by
  unfold checkUserTimeout
  split
  · exact timerEdge_refl _
  split
  · exact timerEdge_refl _
  split
  · exact dies rfl
  · exact timerEdge_refl _

lemma idleTimers_moves (now : U64) : Leaves (Moves (P := P) timerEdge) (idleTimers now) := by
  refine Leaves.bind checkKeepalive_moves fun _ => ?_
  refine Leaves.bind (Leaves.ofModify checkUserTimeout_moves) fun _ => ?_
  refine Leaves.bind Leaves.ofGet fun t => Leaves.ite (Leaves.ofPure _) (timer_of_state ?_)
  refine Leaves.bind maybeSendData_state fun _ => Leaves.bind Leaves.ofGet fun t => ?_
  exact Leaves.ite sendPureAck_state (Leaves.ofPure _)

lemma lateTimers_moves (now : U64) : Leaves (Moves (P := P) timerEdge) (lateTimers now) := by
  refine Leaves.bind (timer_of_state (Leaves.ofModify (rackTimer_state now))) fun _ => ?_
  refine Leaves.bind Leaves.ofGet fun t => Leaves.ite ?_ (idleTimers_moves now)
  refine Leaves.bind onPersistTimer_moves fun _ => Leaves.bind Leaves.ofGet fun t => ?_
  exact Leaves.ite (Leaves.ofPure _) (idleTimers_moves now)

/-- All that one tick does: the timers run in a fixed order, and none runs after CLOSED. -/
lemma runTimers_moves : Leaves (Moves (P := P) timerEdge) runTimers := by
  refine Leaves.bind Leaves.ofGet fun t => Leaves.ite (Leaves.ofModify fun t => dies rfl) ?_
  refine Leaves.ite ?_ ?_
  · refine Leaves.bind (timer_of_state (state_of_ack (emitCtl_footprint _ _ _))) fun _ => ?_
    exact Leaves.ofModify fun t => dies rfl
  refine Leaves.bind handshakeTimer_moves fun _ => Leaves.bind Leaves.ofGet fun t => ?_
  refine Leaves.bind (Leaves.ite (timer_of_state fireTlp_state) (Leaves.ofPure _)) fun _ => ?_
  refine Leaves.bind Leaves.ofGet fun t => Leaves.ite ?_ (lateTimers_moves _)
  refine Leaves.bind (Leaves.ofModify onRto_moves) fun _ => Leaves.bind Leaves.ofGet fun t => ?_
  exact Leaves.ite (Leaves.ofPure _) (lateTimers_moves _)

/-! ## The other calls -/

/-- An active open starts in CLOSED. -/
lemma connect_state (t : Tcb P) : debugTransitionAllowed t.state (final (connect t)).state = true := by
  have h : Leaves (Agree (Tcb.state (P := P))) (do
      let sent ← emitSyn
      modify fun t : Tcb P =>
        if sent then ({ t with sndNxt := t.iss + 1, synUnacked := true } : Tcb P).armRto else t) := by
    refine Leaves.bind (state_of_ack emitSyn_footprint) fun _ => Leaves.ofModify fun t => ?_
    split <;> exact rfl
  unfold connect
  rw [run_get_bind]
  split
  · exact allowed_refl _
  case isFalse hc =>
    have hs := h t.activeOpen
    rw [not_not.1 hc, run_modify_bind, hs]
    rfl

lemma listen_state (t : Tcb P) : debugTransitionAllowed t.state (final (listen t)).state = true := by
  unfold listen
  rw [run_get_bind]
  cases ht : t.state with
  | closed | listen | timeWait =>
    dsimp only
    split
    · exact allowed_of_same (Leaves.ofThrow _) ht
    · exact rfl
  | synSent | established | finWait1 | finWait2 | closing | closeWait | lastAck | synRcvd =>
    exact allowed_of_same (Leaves.ofThrow _) ht

/-- An active close starts in ESTABLISHED, SYN_RCVD or CLOSE_WAIT; one in LISTEN or SYN_SENT ends there. -/
lemma close_state (t : Tcb P) : debugTransitionAllowed t.state (final (close t)).state = true := by
  have hfin := maybeSendData_state ({ t with state := .finWait1 } : Tcb P)
  have hlast := maybeSendData_state ({ t with state := .lastAck } : Tcb P)
  unfold close
  rw [run_get_bind]
  cases ht : t.state with
  | established | synRcvd =>
    dsimp only
    rw [run_modify_bind, hfin]
    rfl
  | closeWait =>
    dsimp only
    rw [run_modify_bind, hlast]
    rfl
  | closed | finWait1 | finWait2 | closing | timeWait | lastAck =>
    exact allowed_of_same (Leaves.ofPure _) ht
  | synSent | listen => exact rfl

/-- An abort ends in CLOSED. -/
lemma abort_moves : Leaves (Moves (P := P) timerEdge) abort := by
  refine Leaves.ofGetBind fun t => ?_
  cases t.state with
  | closed => exact timerEdge_refl _
  | listen | synSent => exact dies rfl
  | established | finWait1 | finWait2 | closing | timeWait | closeWait | lastAck | synRcvd =>
    exact Leaves.bind (timer_of_state (state_of_ack (emitCtl_footprint _ _ _)))
      (fun _ => Leaves.ofModify fun t => dies rfl) t

lemma state_of_data {t t' : Tcb P} (h : Agree exceptData t t') : t'.state = t.state :=
  h.of fun t => t.state

lemma state_of_set {t t' : Tcb P} (h : Agree exceptSet t t') : t'.state = t.state :=
  h.of fun t => t.state

end Tcb

/-- Every single call takes an edge of the transition relation, or none. -/
theorem call_transition_allowed (t : Tcb P) (c : Call) :
    debugTransitionAllowed t.state (final (c.run t)).state = true := by
  have same : ∀ {t' : Tcb P}, t'.state = t.state → debugTransitionAllowed t.state t'.state = true := by
    intro t' h
    rw [h]
    exact allowed_refl _
  cases c with
  | setMtu | updatePmtu | send | sendReserve | sendFill | sendCommit | recv | extractPacket
  | extractPacketWith => exact same (Tcb.state_of_data (Call.data_footprint rfl t))
  | setNow | setEgressPaused | setTxCsumOffload | setKeepalive | setUserTimeout | setFinWait2Timeout
  | setSecret | setCookieSecret => exact same (Tcb.state_of_set (Call.set_footprint rfl t))
  | reinit cfg => exact Tcb.allowed_closed _
  | connect => rw [Call.run, final_bind_pure]; exact Tcb.connect_state t
  | listen => rw [Call.run, final_bind_pure]; exact Tcb.listen_state t
  | close => rw [Call.run, final_bind_pure]; exact Tcb.close_state t
  | abort => rw [Call.run, final_bind_pure]; exact allowed_of_timerEdge (Tcb.abort_moves t)
  | injectPacket packet => rw [Call.run, final_bind_pure]; exact Tcb.injectParsed_state _ t
  | injectPacketL4CsumTrusted packet =>
    rw [Call.run, final_bind_pure]
    exact Tcb.injectParsed_state _ t
  | tick =>
    rw [Call.run, final_bind_pure]
    exact allowed_of_timerEdge (Tcb.runTimers_moves t)

end TcpSansIo
