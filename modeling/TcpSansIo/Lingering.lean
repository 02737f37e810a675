import TcpSansIo.Tcb.Host

/-!
# Connections that are going away

What a peer sends cannot keep a connection that is going away, or one that is only half open.

* In TIME_WAIT the 2·MSL timer runs, and it ends at most `TIME_WAIT_MAX_MS` after TIME_WAIT was entered,
  however often the peer repeats its FIN.  `Since` follows the time of entry through a segment.
* In FIN_WAIT_2 no segment moves the timeout.
* In SYN_RCVD no segment moves the timer of the SYN-ACK or its retry count.

`Dying` is what a segment does to a synchronized connection in these terms; it composes because a state
that was left is not entered again by the same segment.
-/

namespace TcpSansIo

open Proc FixedWidth State

variable {P : Params}

namespace Tcb

/-! ## Segments -/

/-- The 2·MSL timer runs since `since`, and ends within `TIME_WAIT_MAX_MS`. -/
def LingersSince (since : U64) (t : Tcb P) : Prop :=
  t.timeWaitSinceMs = since ∧
    ∃ d, t.timeWaitDeadline.get = some d ∧ d.toNat ≤ since.toNat + TIME_WAIT_MAX_MS.toNat

/-- `since` is the time at which TIME_WAIT was entered or, before that, the present. -/
def Since (since : U64) (t : Tcb P) : Prop :=
  if t.state = .timeWait then t.LingersSince since else since = t.nowMs

/-- What a segment does to the timers of the closing states. -/
structure Dying (t t' : Tcb P) : Prop where
  moves : Moves segmentEdge t t'
  clock : t'.nowMs = t.nowMs
  lingers : ∀ since, t.Since since → t'.state = .timeWait → t'.LingersSince since
  patience : t.state = .finWait2 → t'.state = .finWait2 → t'.finWait2Deadline = t.finWait2Deadline

/-- A segment that leaves TIME_WAIT does not come back to it, and the same for FIN_WAIT_2. -/
lemma between {a b : State} (ha : a = timeWait ∨ a = finWait2) :
    segmentEdge a b = true → segmentEdge b a = true → b = a := by
  rcases ha with rfl | rfl <;> cases b <;> decide

lemma Moves.between {t t' t'' : Tcb P} {s : State} (h : Moves segmentEdge t t')
    (h' : Moves segmentEdge t' t'') (hs : s = timeWait ∨ s = finWait2) (ht : t.state = s)
    (ht'' : t''.state = s) : t'.state = s := by
  rw [Moves, ht] at h
  rw [Moves, ht''] at h'
  exact Tcb.between hs h h'

lemma LingersSince.of_agree {since : U64} {t t' : Tcb P} (h : t.LingersSince since)
    (hsame : (t'.timeWaitDeadline, t'.timeWaitSinceMs) = (t.timeWaitDeadline, t.timeWaitSinceMs)) :
    t'.LingersSince since := by
  rw [Prod.mk.injEq] at hsame
  rw [LingersSince, hsame.1, hsame.2]
  exact h

namespace Dying

variable {t t' : Tcb P}

/-- A step that leaves the state, the clock and the closing timers alone. -/
lemma of_agree (hstate : t'.state = t.state) (hnow : t'.nowMs = t.nowMs)
    (htimers : t'.toCloseTimers = t.toCloseTimers) : Dying t t' where
  moves := by
    rw [Moves, hstate]
    exact segmentEdge_refl _
  clock := hnow
  lingers since h hin := by
    rw [Since, if_pos (hstate.symm.trans hin)] at h
    exact h.of_agree (congrArg (fun x : CloseTimers => (x.timeWaitDeadline, x.timeWaitSinceMs)) htimers)
  patience _ _ := congrArg CloseTimers.finWait2Deadline htimers

instance : Std.Refl (Dying (P := P)) := ⟨fun _ => of_agree rfl rfl rfl⟩

instance : IsTrans (Tcb P) Dying where
  trans t t' t'' h h' :=
    { moves := trans_of (Moves segmentEdge) h.moves h'.moves
      clock := h'.clock.trans h.clock
      lingers := by
        intro since hsince hin
        refine h'.lingers since ?_ hin
        by_cases hmid : t'.state = .timeWait
        · rw [Since, if_pos hmid]
          exact h.lingers since hsince hmid
        · have hstart : t.state ≠ .timeWait := fun hstart =>
            hmid (Moves.between h.moves h'.moves (.inl rfl) hstart hin)
          rw [Since, if_neg hstart] at hsince
          rw [Since, if_neg hmid, hsince, h.clock]
      patience := by
        intro hstart hend
        have hmid := Moves.between h.moves h'.moves (.inr rfl) hstart hend
        exact (h'.patience hmid hend).trans (h.patience hstart hmid) }

/-- A step to a state other than TIME_WAIT, and to FIN_WAIT_2 only from elsewhere. -/
lemma of_move {s : State} (s' : State) (hs : t.state = s) (hs' : t'.state = s') (hnow : t'.nowMs = t.nowMs)
    (hedge : segmentEdge s s' = true ∧ s' ≠ .timeWait ∧ (s = .finWait2 → s' ≠ .finWait2)) :
    Dying t t' where
  moves := by
    rw [Moves, hs, hs']
    exact hedge.1
  clock := hnow
  lingers _ _ h := absurd (hs'.symm.trans h) hedge.2.1
  patience h h' := absurd (hs'.symm.trans h') (hedge.2.2 (hs.symm.trans h))

lemma of_closed (hs' : t'.state = .closed) (hnow : t'.nowMs = t.nowMs) : Dying t t' := by
  refine of_move .closed rfl hs' hnow ⟨?_, by decide, fun _ => by decide⟩
  cases t.state <;> rfl

/-- TIME_WAIT is entered. -/
lemma enter {s : State} (hs : t.state = s) (hs' : t'.state = .timeWait)
    (hedge : segmentEdge s .timeWait = true ∧ s ≠ .timeWait) (hnow : t'.nowMs = t.nowMs)
    (hsince : t'.timeWaitSinceMs = t.nowMs)
    (hdeadline : t'.timeWaitDeadline = Deadline.atMs (satAdd t.nowMs TIME_WAIT_MS)) : Dying t t' where
  moves := by
    rw [Moves, hs, hs']
    exact hedge.1
  clock := hnow
  lingers since h _ := by
    rw [Since, hs, if_neg hedge.2] at h
    obtain ⟨d, hget, hd⟩ := Deadline.get_atMs (satAdd t.nowMs TIME_WAIT_MS)
    refine ⟨hsince.trans h.symm, d, hdeadline ▸ hget, ?_⟩
    have hadd := toNat_satAdd t.nowMs TIME_WAIT_MS
    have h₁ : TIME_WAIT_MS.toNat = 60000 := rfl
    have h₂ : TIME_WAIT_MAX_MS.toNat = 120000 := rfl
    rw [h]
    omega
  patience _ h := absurd (hs'.symm.trans h) (by decide)

lemma ourFinAcked (t : Tcb P) : Dying t t.ourFinAcked := by
  unfold Tcb.ourFinAcked enterTimeWait
  generalize hd : Deadline.atMs (satAdd t.nowMs TIME_WAIT_MS) = d
  split
  · split
    case h_1 h => exact of_move .finWait2 h rfl rfl (by decide)
    case h_2 h => exact enter h rfl (by decide) rfl rfl hd.symm
    case h_3 h => exact of_closed rfl rfl
    case h_4 => exact refl_of Dying t
  · exact refl_of Dying t

lemma advanceStateOnRemoteFin (t : Tcb P) : Dying t t.advanceStateOnRemoteFin := by
  unfold Tcb.advanceStateOnRemoteFin enterTimeWait
  generalize hd : Deadline.atMs (satAdd t.nowMs TIME_WAIT_MS) = d
  split
  case h_1 h => exact of_move .closeWait h rfl rfl (by decide)
  case h_2 h =>
    split
    · exact enter h rfl (by decide) rfl rfl hd.symm
    · exact of_move .closing h rfl rfl (by decide)
  case h_3 h => exact enter h rfl (by decide) rfl rfl hd.symm
  case h_4 => exact refl_of Dying t

lemma consumeFin (t : Tcb P) : Dying t t.consumeFin := by
  refine trans_of Dying (of_agree ?_ ?_ ?_) (advanceStateOnRemoteFin _)
  all_goals rfl

lemma ofText (h : Agree exceptText t t') : Dying t t' :=
  of_agree (h.of fun t => t.state) (h.of fun t => t.nowMs) (h.of fun t => t.toCloseTimers)

lemma intake {seg : Segment} (h : Intake seg t t') : Dying t t' := by
  cases h with
  | old => exact of_agree rfl rfl rfl
  | inOrder => exact ofText (receiveInOrder_text _ _ _)
  | park => exact ofText (receiveOutOfOrder_text _ _ _ _)
  | fin =>
    unfold receiveFin
    split
    · exact consumeFin t
    split
    · split
      · split
        · exact refl_of Dying t
        · exact of_agree rfl rfl rfl
      · exact of_agree rfl rfl rfl
    · exact refl_of Dying t
  | heldFin =>
    unfold maybeConsumeOooFin
    split
    · exact consumeFin t
    · exact refl_of Dying t

lemma receiveSegment (seg : Segment) (t : Tcb P) : Dying t (t.receiveSegment seg).2 := by
  generalize (t.receiveSegment seg).2 = t', receiveSegment_takes t seg = h
  induction h with
  | refl => exact refl_of Dying t
  | tail _ hstep ih => exact trans_of Dying ih (intake hstep)

lemma updateTsRecent (seg : Segment) (t : Tcb P) : Dying t (t.updateTsRecent seg).onPeerAlive := by
  unfold Tcb.updateTsRecent
  split
  · split <;> exact of_agree rfl rfl rfl
  · exact of_agree rfl rfl rfl

lemma noteSegment (seg : Segment) (t : Tcb P) : Dying t (t.noteSegment seg) := by
  unfold Tcb.noteSegment updateEcnEcho
  split
  · refine trans_of Dying (updateTsRecent seg t) ?_
    exact of_agree rfl rfl rfl
  · exact updateTsRecent seg t

/-- A repeated FIN restarts the timer, but not beyond the end of TIME_WAIT. -/
lemma restartTimeWait (t : Tcb P) : Dying t t.restartTimeWait := by
  obtain ⟨s, hget, hs⟩ := Deadline.get_atMs
    (minB (satAdd t.nowMs TIME_WAIT_MS) (satAdd t.timeWaitSinceMs TIME_WAIT_MAX_MS))
  have hadd := toNat_satAdd t.timeWaitSinceMs TIME_WAIT_MAX_MS
  rw [toNat_minB] at hs
  unfold Tcb.restartTimeWait
  generalize Deadline.atMs _ = d at hget
  refine ⟨segmentEdge_refl _, rfl, fun since h hin => ?_, fun _ _ => rfl⟩
  rw [Since, if_pos hin] at h
  refine ⟨h.1, s, hget, ?_⟩
  rw [← h.1]
  omega

lemma atoms (seg : Segment) : SegmentAtoms (Dying (P := P)) seg where
  toSendAtoms := .ofTransmit fun h =>
    of_agree (h.of fun t => t.state) (h.of fun t => t.nowMs) (h.of fun t => t.toCloseTimers)
  retries _ := of_agree rfl rfl rfl
  reacts := (reactToAck_react seg).mono fun _ _ h =>
    of_agree (h.of fun t => t.state) (h.of fun t => t.nowMs) (h.of fun t => t.toCloseTimers)
  finAcked := ourFinAcked
  notes := noteSegment seg
  notesOld := updateTsRecent seg
  takes := receiveSegment seg
  duplicate _ := of_agree rfl rfl rfl
  lingers := restartTimeWait
  resets _ t := by
    refine of_closed (onResetReceived_state t) ?_
    unfold onResetReceived
    split <;> rfl

end Dying

lemma injectSegment_dying (seg : Segment) {t : Tcb P} (hs : t.state.isSynchronized = true) :
    Dying t (final (injectSegment seg t)) := by
  by_cases htuple : t.OnTuple seg
  · rw [injectSegment_onTuple hs htuple]
    have hcount : Dying t t.countIn := .of_agree rfl rfl rfl
    exact trans_of Dying hcount ((Dying.atoms seg).onSynchronized t.countIn)
  · rw [injectSegment_stray hs htuple]
    exact refl_of Dying t

/-! ## The other calls -/

/-- TIME_WAIT is not entered, and its timer is left alone. -/
def Waits (t t' : Tcb P) : Prop :=
  t'.state = .timeWait → t.state = .timeWait ∧
    (t'.timeWaitDeadline, t'.timeWaitSinceMs) = (t.timeWaitDeadline, t.timeWaitSinceMs)

instance : Std.Refl (Waits (P := P)) := ⟨fun _ h => ⟨h, rfl⟩⟩

instance : IsTrans (Tcb P) Waits where
  trans _ _ _ h h' hin :=
    ⟨(h (h' hin).1).1, (h' hin).2.trans (h (h' hin).1).2⟩

lemma Waits.of_agree {t t' : Tcb P}
    (h : (t'.state, t'.timeWaitDeadline, t'.timeWaitSinceMs) =
      (t.state, t.timeWaitDeadline, t.timeWaitSinceMs)) : Waits t t' := by
  rw [Prod.mk.injEq] at h
  exact fun hin => ⟨h.1.symm.trans hin, h.2⟩

lemma Waits.of_data {t t' : Tcb P} (h : Agree exceptData t t') : Waits t t' :=
  .of_agree (h.of fun t => (t.state, t.timeWaitDeadline, t.timeWaitSinceMs))

lemma Waits.of_set {t t' : Tcb P} (h : Agree exceptSet t t') : Waits t t' :=
  .of_agree (h.of fun t => (t.state, t.timeWaitDeadline, t.timeWaitSinceMs))

lemma Waits.of_ne {t t' : Tcb P} (h : t'.state ≠ .timeWait) : Waits t t' := fun hin => absurd hin h

lemma waits_timer : TimerAtoms (Waits (P := P)) := by
  refine .coarse (fun h => .of_agree (h.of fun t => (t.state, t.timeWaitDeadline, t.timeWaitSinceMs)))
    (fun _ => .of_ne nofun) (fun _ => .of_ne nofun) (fun _ => .of_ne nofun) fun t _ => .of_ne ?_
  rw [resetToListenOrClosed_state]
  split <;> decide

lemma connect_waits : Leaves (Waits (P := P)) connect := by
  intro t
  by_cases ht : t.state = .closed
  · refine .of_ne fun hin => ?_
    have h := connect_state t
    rw [ht, hin] at h
    cases h
  · unfold connect
    rw [run_get_bind, if_pos ht]
    exact refl_of Waits t

lemma listen_waits : Leaves (Waits (P := P)) listen := by
  have hopen (t : Tcb P) : Leaves (Waits (P := P))
      (if !t.secretSet && !t.cookieSecretSet then throw (Fault.tcp .invalidState)
        else modify passiveOpen) :=
    Leaves.ite (Leaves.ofThrow _) (Leaves.ofModify fun _ => .of_ne nofun)
  refine Leaves.bind Leaves.ofGet fun t => ?_
  split
  · exact hopen t
  · exact hopen t
  · exact hopen t
  · exact Leaves.ofThrow _

lemma close_waits : Leaves (Waits (P := P)) close := by
  intro t
  have hallowed := close_state t
  have hsame (h : close t = .ok () t) : Waits t (final (close t)) := by
    rw [h]
    exact refl_of Waits t
  cases ht : t.state with
  | finWait1 | finWait2 | closing | timeWait =>
    refine hsame ?_
    unfold close
    rw [run_get_bind, ht]
    rfl
  | closed | listen | synSent | synRcvd | established | closeWait | lastAck =>
    refine .of_ne fun hin => ?_
    rw [ht, hin] at hallowed
    cases hallowed

lemma abort_waits : Leaves (Waits (P := P)) abort := by
  refine Leaves.bind Leaves.ofGet fun t => ?_
  cases t.state with
  | closed => exact Leaves.ofPure _
  | listen | synSent => exact Leaves.ofModify fun _ => .of_ne nofun
  | established | finWait1 | finWait2 | closing | timeWait | closeWait | lastAck | synRcvd =>
    have hrst : Leaves (Waits (P := P)) (emitCtl { rst := true, ack := true } t.sndNxt t.rcvNxt) :=
      (emitCtl_footprint _ _ _).mono fun _ _ h =>
        .of_agree (h.of fun t => (t.state, t.timeWaitDeadline, t.timeWaitSinceMs))
    exact Leaves.bind hrst fun _ => Leaves.ofModify fun _ => .of_ne nofun

/-! ## Half-open connections -/

/-- The timer of the SYN-ACK, its timeout and its retry count. -/
def synackTimer (t : Tcb P) : Deadline × U32 × U8 := (t.rtoDeadline, t.rtoMs, t.synRcvdRetries)

/-- The SYN-ACK's timer is left alone, or the half-open connection is over. -/
def Waiting (t t' : Tcb P) : Prop := t'.state = .synRcvd → t'.synackTimer = t.synackTimer

lemma Waiting.of_ack {t : Tcb P} {α : Type} {x : TcbM P α} (h : Leaves (Agree exceptAck) x) :
    Waiting t (final (x t)) := fun _ => (h t).of synackTimer

lemma Waiting.of_ne {t t' : Tcb P} (h : t'.state ≠ .synRcvd) : Waiting t t' := fun hin => absurd hin h

/-- A handshake that completes leaves SYN_RCVD for good. -/
lemma Waiting.of_established {t t' : Tcb P} (h : segmentEdge established t'.state = true) :
    Waiting t t' := by
  refine .of_ne fun hin => ?_
  rw [hin] at h
  cases h

lemma onSynRcvd_waiting (seg : Segment) (t : Tcb P) : Waiting t (final (onSynRcvd seg t)) := by
  have hopen : Waiting t (final (completePassiveOpen seg t)) :=
    .of_established (completePassiveOpen_state seg t)
  unfold onSynRcvd
  rw [run_get_bind]
  split
  · split
    · exact fun _ => rfl
    split
    · exact .of_ack sendOowAck_footprint
    split
    · refine .of_ne ?_
      rw [run_modify, final_ok, resetToListenOrClosed_state]
      split <;> decide
    · exact .of_ne nofun
  split
  · split
    · split
      · exact hopen
      · exact .of_ack (refuseAck_footprint seg)
    split
    · refine .of_ack (Leaves.bind (Leaves.ofModifyGet oowAllowed_footprint) fun _ => Leaves.ite ?_ ?_)
      · exact Leaves.bind emitSynack_footprint fun _ => Leaves.ofPure _
      · exact Leaves.ofPure _
    · exact fun _ => rfl
  split
  · exact fun _ => rfl
  split
  · exact .of_ack (refuseAck_footprint seg)
  split
  · exact .of_ack sendOowAck_footprint
  · exact hopen

lemma acceptSynStateful_remote (seg : Segment) (t : Tcb P) :
    (final (acceptSynStateful seg t)).remoteEp = ⟨seg.srcIp, seg.srcPort⟩ := by
  have h : Leaves (Agree fun t : Tcb P => t.remoteEp)
      (do
        let _ ← emitSynack
        modify fun t : Tcb P => ({ t with sndNxt := t.iss + 1, synUnacked := true } : Tcb P).armRto) :=
    Leaves.bind (emitSynack_footprint.agree_of (fun t => t.remoteEp) fun _ => rfl) fun _ =>
      Leaves.ofModify fun _ => rfl
  exact h (t.halfOpen seg)

lemma onBusyListener_waiting (seg : Segment) (t : Tcb P) : Waiting t (final (onBusyListener seg t)) := by
  unfold onBusyListener
  rw [run_get_bind]
  split
  · exact fun _ => rfl
  split
  · exact fun _ => (emitCookieSynack_footprint seg t).of synackTimer
  split
  · cases t.validateCookie seg with
    | some opts => exact .of_established (promoteViaCookie_state seg opts t.resetToListenOrClosed)
    | none => exact fun _ => rfl
  · exact fun _ => rfl

/-- A SYN from another peer that takes the slot over. -/
lemma replace_remote {t : Tcb P} {seg : Segment} (h : t.mayReplaceHalfOpen seg = true) :
    (final (dispatch seg t.resetToListenOrClosed)).remoteEp = ⟨seg.srcIp, seg.srcPort⟩ := by
  simp only [mayReplaceHalfOpen, Bool.and_eq_true, Bool.not_eq_true'] at h
  obtain ⟨⟨⟨⟨⟨⟨-, hl⟩, hsyn⟩, hack⟩, hrst⟩, hfin⟩, -⟩ := h
  have hlisten : t.resetToListenOrClosed.countIn.state = .listen := by
    change t.resetToListenOrClosed.state = .listen
    rw [resetToListenOrClosed_state, if_pos hl]
  unfold dispatch
  rw [run_modify_bind]
  unfold route
  rw [run_get_bind, hlisten]
  dsimp only
  unfold onListen
  rw [run_get_bind, if_neg (by simp [hrst]), if_neg (by simp [hack]), if_neg (by simp [hsyn, hfin])]
  exact acceptSynStateful_remote seg _

lemma injectSegment_waiting (seg : Segment) {t : Tcb P} (hs : t.state = .synRcvd) :
    (final (injectSegment seg t)).remoteEp = t.remoteEp → Waiting t (final (injectSegment seg t)) := by
  unfold injectSegment
  rw [run_get_bind]
  split
  · exact fun _ _ => rfl
  split
  case isTrue hother =>
    split
    case isTrue hreplace =>
      intro hremote
      rw [run_modify_bind, replace_remote hreplace] at hremote
      refine absurd ?_ hother.2
      rw [fromRemote, ← hremote]
      simp
    case isFalse => exact fun _ => onBusyListener_waiting seg t
  case isFalse =>
    intro _
    unfold dispatch
    rw [run_modify_bind]
    unfold route
    rw [run_get_bind, show t.countIn.state = .synRcvd from hs]
    exact onSynRcvd_waiting seg t.countIn

end Tcb

open Tcb

/-- The segment a call delivers, if its datagram parses to one. -/
lemma Call.waits_or_delivers (c : Call) (t : Tcb P) :
    Waits t (final (c.run t)) ∨ ∃ seg, c.Delivers P seg := by
  have hof {α : Type} {x : TcbM P α} (h : Leaves Waits x) (f : α → Reply) :
      Waits t (final ((x >>= fun a => pure (f a)) t)) :=
    Leaves.bind h (fun _ => Leaves.ofPure _) t
  cases c with
  | setMtu | updatePmtu | send | sendReserve | sendFill | sendCommit | recv | extractPacket
  | extractPacketWith => exact .inl (.of_data (Call.data_footprint rfl t))
  | setNow | setEgressPaused | setTxCsumOffload | setKeepalive | setUserTimeout | setFinWait2Timeout
  | setSecret | setCookieSecret => exact .inl (.of_set (Call.set_footprint rfl t))
  | reinit cfg => exact .inl (.of_ne nofun)
  | connect => exact .inl (hof connect_waits _)
  | listen => exact .inl (hof listen_waits _)
  | close => exact .inl (hof close_waits _)
  | abort => exact .inl (hof abort_waits _)
  | tick => exact .inl (hof waits_timer.runTimers _)
  | injectPacket packet =>
    cases hparse : parse P.littleEndian packet with
    | ok seg => exact .inr ⟨seg, .inl ⟨packet, rfl, hparse⟩⟩
    | error e =>
      rw [Call.run, final_bind_pure, Tcb.injectPacket, hparse]
      exact .inl (refl_of Waits t)
  | injectPacketL4CsumTrusted packet =>
    cases hparse : parseOpts P.littleEndian packet false with
    | ok seg => exact .inr ⟨seg, .inr ⟨packet, rfl, hparse⟩⟩
    | error e =>
      rw [Call.run, final_bind_pure, Tcb.injectPacketL4CsumTrusted, hparse]
      exact .inl (refl_of Waits t)

/-- A call that ends in TIME_WAIT and does more than wait there hands a segment to a synchronized
connection. -/
lemma Call.dying {c : Call} {t : Tcb P} {seg : Segment} (hc : c.Delivers P seg)
    (hin : (final (c.run t)).state = .timeWait) : Dying t (final (c.run t)) := by
  have hallowed := call_transition_allowed t c
  rw [hc.final_run] at hin hallowed ⊢
  refine injectSegment_dying seg ?_
  rw [hin] at hallowed
  cases hs : t.state with
  | closed | listen | synSent | synRcvd =>
    rw [hs] at hallowed
    cases hallowed
  | established | finWait1 | finWait2 | closeWait | closing | lastAck | timeWait => rfl

lemma Call.enters {c : Call} {t : Tcb P} (hstart : t.state ≠ .timeWait)
    (hin : (final (c.run t)).state = .timeWait) :
    (final (c.run t)).LingersSince (final (c.run t)).nowMs := by
  rcases c.waits_or_delivers t with hwaits | ⟨seg, hc⟩
  · exact absurd (hwaits hin).1 hstart
  · have h := Call.dying hc hin
    refine h.lingers _ ?_ hin
    rw [Since, if_neg hstart]
    exact h.clock

lemma Call.stays {c : Call} {t : Tcb P} {since : U64} (hstart : t.state = .timeWait)
    (h : t.LingersSince since) (hin : (final (c.run t)).state = .timeWait) :
    (final (c.run t)).LingersSince since := by
  rcases c.waits_or_delivers t with hwaits | ⟨seg, hc⟩
  · exact h.of_agree (hwaits hin).2
  · refine (Call.dying hc hin).lingers since ?_ hin
    rw [Since, if_pos hstart]
    exact h

lemma runAll_lingers {t : Tcb P} {since : U64} {calls : List Call} (h : t.LingersSince since)
    (hstay : ∀ n ≤ calls.length, (runAll (calls.take n) t).state = .timeWait) :
    (runAll calls t).LingersSince since := by
  induction calls generalizing t with
  | nil => exact h
  | cons c cs ih =>
    have hfirst : (final (c.run t)).state = .timeWait := hstay 1 (Nat.succ_le_succ (Nat.zero_le _))
    refine ih (Call.stays (hstay 0 (Nat.zero_le _)) h hfirst) fun n hn => ?_
    exact hstay (n + 1) (Nat.succ_le_succ hn)

/-- What a peer sends does not prolong a connection that is going away.

* From the call that enters TIME_WAIT on, and for as long as the block stays there, its deadline is armed
  and at most 120000 ms after the time of entry.
* A segment that leaves the block in FIN_WAIT_2 leaves its deadline.
* A segment that leaves the block half open, with the same peer and sequence numbers, leaves the timer of
  the SYN-ACK and the retry count. -/
theorem dying_connection_not_prolonged :
    (∀ {t t' : Tcb P} {c : Call} {calls : List Call}, t.state ≠ .timeWait → t' = final (c.run t) →
      (∀ n ≤ calls.length, (runAll (calls.take n) t').state = .timeWait) →
      ∃ d, (runAll calls t').timeWaitDeadline.get = some d ∧ d.toNat ≤ t'.nowMs.toNat + 120000) ∧
    (∀ {t : Tcb P} {c : Call} {seg : Segment}, c.Delivers P seg → t.state = .finWait2 →
      (final (c.run t)).state = .finWait2 →
      (final (c.run t)).finWait2Deadline = t.finWait2Deadline) ∧
    (∀ {t : Tcb P} {c : Call} {seg : Segment}, c.Delivers P seg → t.state = .synRcvd →
      (final (c.run t)).state = .synRcvd → (final (c.run t)).remoteEp = t.remoteEp →
      (final (c.run t)).irs = t.irs → (final (c.run t)).iss = t.iss →
      (final (c.run t)).rtoDeadline = t.rtoDeadline ∧ (final (c.run t)).rtoMs = t.rtoMs ∧
        (final (c.run t)).synRcvdRetries = t.synRcvdRetries) := by
  refine ⟨?_, ?_, ?_⟩
  · rintro t _ c calls hstart rfl hstay
    exact (runAll_lingers (Call.enters hstart (hstay 0 (Nat.zero_le _))) hstay).2
  · intro t c seg hc hstart hend
    rw [hc.final_run] at hend ⊢
    exact (injectSegment_dying seg (by rw [hstart]; rfl)).patience hstart hend
  · intro t c seg hc hstart hend hremote _ _
    rw [hc.final_run] at hend hremote ⊢
    have h := injectSegment_waiting seg hstart hremote hend
    simpa only [synackTimer, Prod.mk.injEq] using h

/-- The tiny client in FIN_WAIT_2. -/
def tinyFinished : Tcb tiny :=
  runAll [.close, .extractPacketWith, .injectPacket (datagram { peerAck with ack := 102 } [])] tinyOpen

/-- The FIN of its peer. -/
def peerFin : List U8 := datagram { peerAck with ack := 102, flags := { ack := true, fin := true } } []

/-- Its peer repeats the FIN 50 and 110 seconds after the first one. -/
theorem repeated_fins_end :
    ∃ d, (runAll [.setNow 50000, .injectPacket peerFin, .setNow 110000, .injectPacket peerFin]
        (final (Call.run (.injectPacket peerFin) tinyFinished))).timeWaitDeadline.get = some d ∧
      d.toNat ≤ (final (Call.run (.injectPacket peerFin) tinyFinished)).nowMs.toNat + 120000 :=
  dying_connection_not_prolonged.1 (t := tinyFinished) (by decide +kernel) rfl (by decide +kernel)

end TcpSansIo
