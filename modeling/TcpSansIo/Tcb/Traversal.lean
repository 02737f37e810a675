import TcpSansIo.Receive.Frame

/-!
# Relations a segment or a tick respects

To show that a segment to a synchronized connection, or a tick, relates the block before and after it by
some preorder, it is enough to look at the few places where they do more than send:
`SegmentAtoms.onSynchronized` and `TimerAtoms.runTimers` walk the control flow once.
-/

namespace TcpSansIo

open Proc FixedWidth

variable {P : Params}

namespace Tcb

/-! ## A segment to a synchronized connection -/

/-- What a pure ACK or a control segment does. -/
structure AckAtoms (R : Tcb P → Tcb P → Prop) : Prop where
  acks : ∀ {t t' : Tcb P}, Agree exceptAck t t' → R t t'

lemma AckAtoms.ack {R : Tcb P → Tcb P → Prop} (h : AckAtoms R) {α : Type} {x : TcbM P α}
    (hx : Leaves (Agree exceptAck) x) : Leaves R x :=
  hx.mono fun _ _ => h.acks

/-- What sending does: besides ACKs new data, a retransmission, and the send loop. -/
structure SendAtoms (R : Tcb P → Tcb P → Prop) : Prop extends AckAtoms R where
  news : ∀ (len : U32) (fin : Bool), Leaves R (emitNew (P := P) len fin)
  resends : ∀ i : ℕ, Leaves R (retransmit (P := P) i)
  output : Leaves R (maybeSendData (P := P))

/-- Relations that see nothing of what sending data writes. -/
lemma SendAtoms.ofTransmit {R : Tcb P → Tcb P → Prop} (h : ∀ {t t' : Tcb P}, Agree exceptTransmit t t' → R t t') : SendAtoms R where
  acks hsame := h (hsame.of exceptTransmit)
  news len fin := (emitNew_footprint len fin).mono fun _ _ => h
  resends i := (retransmit_footprint i).mono fun _ _ => h
  output := maybeSendData_footprint.mono fun _ _ => h

/-- What a segment does to a synchronized connection, besides sending and reacting to its ACK. -/
structure QuietAtoms (R : Tcb P → Tcb P → Prop) (seg : Segment) : Prop extends SendAtoms R where
  retries : ∀ t : Tcb P, R t { t with rtxCount := 0 }
  finAcked : ∀ t : Tcb P, R t t.ourFinAcked
  notes : ∀ t : Tcb P, R t (t.noteSegment seg)
  notesOld : ∀ t : Tcb P, R t (t.updateTsRecent seg).onPeerAlive
  takes : ∀ t : Tcb P, R t (t.receiveSegment seg).2
  duplicate : ∀ t : Tcb P,
    R t ((t.countDup seg.payload.length).noteDsack seg.seq (seg.seq + seg.payloadLen))
  lingers : ∀ t : Tcb P, R t t.restartTimeWait
  resets : seg.flags.rst = true → ∀ t : Tcb P, R t t.onResetReceived

/-- What a segment does to a synchronized connection, besides sending. -/
structure SegmentAtoms (R : Tcb P → Tcb P → Prop) (seg : Segment) : Prop extends QuietAtoms R seg where
  reacts : Leaves R (reactToAck seg)

/-- The ACK of `seg` is reacted to in `u`, which is `t` but for what an acceptable segment is noted by. -/
structure ReactsAt (t : Tcb P) (seg : Segment) (u : Tcb P) : Prop where
  acceptable : t.ackAcceptable seg.ack = true
  current : ¬ seqLt seg.ack t.sndUna
  noted : u = { t.noteSegment seg with rtxCount := 0 } ∨
    u = { (t.updateTsRecent seg).onPeerAlive with rtxCount := 0 }

/-- What is noted of a segment before its ACK is looked at. -/
def exceptNoted (t : Tcb P) : Tcb P :=
  { t with
    tsRecent := 0
    tsRecentStamp := 0
    ceObserved := false
    toKeepaliveTimer := (zeroed : Tcb P).toKeepaliveTimer }

lemma updateTsRecent_noted (t : Tcb P) (seg : Segment) : Agree exceptNoted t (t.updateTsRecent seg) := by
  unfold updateTsRecent
  split
  · split <;> exact rfl
  · exact rfl

lemma noteSegment_noted (t : Tcb P) (seg : Segment) : Agree exceptNoted t (t.noteSegment seg) := by
  have hecn (t : Tcb P) : Agree exceptNoted t (t.updateEcnEcho seg) := by
    unfold updateEcnEcho
    split <;> exact rfl
  exact trans_of (Agree exceptNoted) (updateTsRecent_noted t seg)
    (trans_of (Agree exceptNoted) (hecn _) rfl)

/-- What is noted of an unacceptable segment whose ACK is still good. -/
lemma noteOld_noted (t : Tcb P) (seg : Segment) :
    Agree exceptNoted t (t.updateTsRecent seg).onPeerAlive :=
  trans_of (Agree exceptNoted) (updateTsRecent_noted t seg) rfl

/-- The block a reaction starts from, but for what was noted. -/
lemma ReactsAt.agree {t u : Tcb P} {seg : Segment} (h : ReactsAt t seg u) :
    Agree exceptNoted { t with rtxCount := 0 } u := by
  rcases h.noted with rfl | rfl
  · exact (noteSegment_noted t seg).of fun t => { t with rtxCount := 0 }
  · exact (noteOld_noted t seg).of fun t => { t with rtxCount := 0 }

namespace QuietAtoms

variable {R : Tcb P → Tcb P → Prop} {seg : Segment}

variable [Std.Refl R] [IsTrans (Tcb P) R]

/-- A block of statements that begins with the ACK of a segment. -/
lemma processAck (h : QuietAtoms R seg) {f : Unit → TcbM P Unit} (hf : ∀ a, Leaves R (f a)) (t : Tcb P) :
    R t (final ((Tcb.processAck seg >>= f) t)) ∨ ¬ seqLt seg.ack t.sndUna ∧
      R (final (reactToAck seg { t with rtxCount := 0 })) (final ((Tcb.processAck seg >>= f) t)) := by
  by_cases hold : seqLt seg.ack t.sndUna
  · have hrun : Tcb.processAck seg t = .ok () { t with rtxCount := 0 } := by
      unfold Tcb.processAck
      rw [run_modify_bind, run_get_bind, if_pos hold, run_pure]
    rw [run_bind_ok hrun]
    exact .inl (trans_of R (h.retries t) (hf () _))
  · have hrun : (Tcb.processAck seg >>= f) t = (applyAck seg >>= f) { t with rtxCount := 0 } := by
      unfold Tcb.processAck
      rw [run_bind, run_modify_bind, run_get_bind, if_neg hold]
      rfl
    refine .inr ⟨hold, ?_⟩
    rw [hrun]
    exact trans_of R (Leaves.after _ (fun _ => Leaves.ofModify h.finAcked) _) (Leaves.after _ hf _)

omit [IsTrans (Tcb P) R] in
lemma answerText (h : QuietAtoms R seg) (ackNow advanced : Bool) :
    Leaves R (Tcb.answerText seg ackNow advanced) := by
  refine Leaves.ite (h.ack sendPureAck_footprint) (Leaves.ite ?_ (Leaves.ite ?_ (Leaves.ofPure _)))
  · exact h.ack (Leaves.ofModify (scheduleDelayedAck_footprint _))
  · exact h.ack sendOowAck_footprint

lemma answerUnacceptable (h : QuietAtoms R seg) (live : Bool) :
    Leaves R (Tcb.answerUnacceptable seg live) := by
  have hlive : Leaves R (if live then maybeSendData else return () : TcbM P Unit) :=
    Leaves.ite h.output (Leaves.ofPure _)
  have hack := h.ack (sendPureAck_footprint (P := P))
  refine Leaves.bind Leaves.ofGet fun t => Leaves.ite ?_ (Leaves.ite ?_ (Leaves.ite ?_ ?_))
  · exact Leaves.bind (Leaves.ofModify h.lingers) fun _ => hack
  · exact Leaves.bind (Leaves.ofModify h.duplicate) fun _ => Leaves.bind hack fun _ => hlive
  · exact Leaves.bind hack fun _ => hlive
  · exact Leaves.bind (h.ack sendOowAck_footprint) fun _ => hlive

/-- An accepted segment: its ACK, its text and FIN, the answer, and what the ACK lets out. -/
lemma acceptSegment (h : QuietAtoms R seg) (probe : Bool) (t : Tcb P) :
    R t (final (Tcb.acceptSegment seg probe t)) ∨ ¬ seqLt seg.ack t.sndUna ∧
      R (final (reactToAck seg { t.noteSegment seg with rtxCount := 0 }))
        (final (Tcb.acceptSegment seg probe t)) := by
  have hsend := h.output
  have hrest : ∀ a : Unit, Leaves R (do
      let t ← get
      if t.state = .closed then
        return a
      else if probe then
        sendPureAck
        maybeSendData
      else
        let ackNow ← modifyGet fun t => t.receiveSegment seg
        let t' ← get
        Tcb.answerText seg ackNow (t'.rcvNxt != t.rcvNxt)
        maybeSendData : TcbM P Unit) := by
    intro a
    refine Leaves.bind Leaves.ofGet fun _ => Leaves.ite (Leaves.ofPure _) (Leaves.ite ?_ ?_)
    · exact Leaves.bind (h.ack sendPureAck_footprint) fun _ => hsend
    · exact Leaves.bind (Leaves.ofModifyGet h.takes) fun _ => Leaves.bind Leaves.ofGet fun _ =>
        Leaves.bind (h.answerText _ _) fun _ => hsend
  have huna : (t.noteSegment seg).sndUna = t.sndUna := (noteSegment_noted t seg).of fun t => t.sndUna
  have hwalk := h.processAck hrest (t.noteSegment seg)
  rw [huna] at hwalk
  exact hwalk.imp (trans_of R (h.notes t)) id

/-- An unacceptable segment: its ACK if it is live, and the answer. -/
lemma onUnacceptable (h : QuietAtoms R seg) (t : Tcb P) :
    R t (final (Tcb.onUnacceptable seg t)) ∨ ∃ u, ReactsAt t seg u ∧
      R (final (reactToAck seg u)) (final (Tcb.onUnacceptable seg t)) := by
  have hrest : ∀ a : Unit, Leaves R (do
      let t ← get
      if t.state = .closed then return a else Tcb.answerUnacceptable seg true : TcbM P Unit) :=
    fun _ => Leaves.bind Leaves.ofGet fun _ => Leaves.ite (Leaves.ofPure _) (h.answerUnacceptable _)
  have huna : (t.updateTsRecent seg).onPeerAlive.sndUna = t.sndUna :=
    (noteOld_noted t seg).of fun t => t.sndUna
  have hwalk := h.processAck hrest (t.updateTsRecent seg).onPeerAlive
  rw [huna] at hwalk
  unfold Tcb.onUnacceptable
  rw [run_get_bind]
  split
  · exact .inl (refl_of R t)
  split
  · exact .inl (h.ack sendOowAck_footprint t)
  case isFalse hgood =>
    simp only [Bool.or_eq_true, Bool.not_eq_true', not_or, Bool.not_eq_false] at hgood
    split
    · rw [run_modify_bind]
      exact hwalk.imp (trans_of R (h.notesOld t)) fun ⟨hcur, hafter⟩ =>
        ⟨_, ⟨hgood.2, hcur, .inr rfl⟩, hafter⟩
    · exact .inl (h.answerUnacceptable _ t)

/-- A segment to a synchronized connection reacts to its ACK once, or not at all. -/
lemma onSynchronized (h : QuietAtoms R seg) (t : Tcb P) :
    R t (final (Tcb.onSynchronized seg t)) ∨ ∃ u, ReactsAt t seg u ∧
      R (final (reactToAck seg u)) (final (Tcb.onSynchronized seg t)) := by
  have hoow := h.ack (sendOowAck_footprint (P := P)) t
  unfold Tcb.onSynchronized
  rw [run_get_bind]
  split
  · exact .inl (refl_of R t)
  split
  · exact h.onUnacceptable t
  split
  · split
    · exact .inl (h.ack sendPureAck_footprint t)
    · exact .inl hoow
  split
  case isTrue hrst =>
    split
    · exact .inl (h.resets hrst t)
    · exact .inl hoow
  split
  · exact .inl hoow
  split
  · exact .inl (refl_of R t)
  split
  · exact .inl hoow
  case isFalse hgood =>
    rw [Bool.not_eq_true', Bool.not_eq_false] at hgood
    exact (h.acceptSegment _ t).imp id fun ⟨hcur, hafter⟩ => ⟨_, ⟨hgood, hcur, .inl rfl⟩, hafter⟩

end QuietAtoms

/-- One segment of a synchronized connection, from its parts. -/
lemma SegmentAtoms.onSynchronized {R : Tcb P → Tcb P → Prop} {seg : Segment} [Std.Refl R]
    [IsTrans (Tcb P) R] (h : SegmentAtoms R seg) : Leaves R (Tcb.onSynchronized seg) := by
  intro t
  rcases h.toQuietAtoms.onSynchronized t with hquiet | ⟨u, hu, hafter⟩
  · exact hquiet
  · have hnoted : R t u := by
      rcases hu.noted with rfl | rfl
      · exact trans_of R (h.notes t) (h.retries _)
      · exact trans_of R (h.notesOld t) (h.retries _)
    exact trans_of R hnoted (trans_of R (h.reacts u) hafter)

/-! ## A tick -/

/-- The block without what a tick writes besides sending, timeouts and the reordering timer. -/
def exceptTick (t : Tcb P) : Tcb P :=
  { t.exceptAck with
    toRttState := (zeroed : Tcb P).toRttState
    toRtxTimers := (zeroed : Tcb P).toRtxTimers
    toPersistTimer := (zeroed : Tcb P).toPersistTimer
    toUserTimer := (zeroed : Tcb P).toUserTimer
    toKeepaliveTimer := (zeroed : Tcb P).toKeepaliveTimer
    tlpEndSeq := none
    tlpIsRetrans := false
    synRcvdRetries := 0 }

/-- What a tick does. -/
structure TimerAtoms (R : Tcb P → Tcb P → Prop) : Prop extends SendAtoms R where
  runs : ∀ {t t' : Tcb P}, Agree exceptTick t t' → R t t'
  timesOut : ∀ t : Tcb P, R t t.onRto
  reorders : ∀ (now : U64) (t : Tcb P), R t (t.rackTimer now)
  aborts : ∀ t : Tcb P, R t t.abortLocal
  closes : ∀ t : Tcb P, R t t.closeClean
  ends : ∀ t : Tcb P, R t t.timeWaitOver
  givesUp : ∀ t : Tcb P, t.state = .synRcvd → R t t.resetToListenOrClosed

namespace TimerAtoms

variable {R : Tcb P → Tcb P → Prop}

variable [Std.Refl R] [IsTrans (Tcb P) R]

lemma synSentTimer (h : TimerAtoms R) : Leaves R (Tcb.synSentTimer (P := P)) := by
  refine Leaves.bind Leaves.ofGet fun _ => Leaves.ite (Leaves.ofPure _) ?_
  refine Leaves.bind (Leaves.ofModify fun t => h.runs rfl) fun _ => Leaves.bind Leaves.ofGet fun _ => ?_
  refine Leaves.ite (Leaves.ofModify h.aborts) (Leaves.bind (Leaves.ofModify fun t => h.runs rfl) fun _ => ?_)
  exact Leaves.bind (h.ack emitSyn_footprint) fun _ => Leaves.ofModify fun t => h.runs rfl

lemma synRcvdTimer (h : TimerAtoms R) {t : Tcb P} (ht : t.state = .synRcvd) :
    R t (final (Tcb.synRcvdTimer t)) := by
  have hresend : Leaves R (Tcb.resendSynack (P := P)) :=
    Leaves.bind (Leaves.ofModify fun t => h.runs rfl) fun _ =>
      Leaves.bind (h.ack emitSynack_footprint) fun _ => Leaves.ofModify fun t => h.runs rfl
  unfold Tcb.synRcvdTimer
  rw [run_get_bind]
  split
  · exact refl_of R t
  rw [run_modify_bind, run_get_bind]
  refine trans_of R (h.runs rfl : R t { t with synRcvdRetries := satAdd t.synRcvdRetries 1 }) ?_
  split
  · rw [run_modify, final_ok, giveUpHalfOpen]
    split
    · exact h.givesUp _ ht
    · exact h.aborts _
  · exact hresend _

lemma handshakeTimer (h : TimerAtoms R) : Leaves R (Tcb.handshakeTimer (P := P)) := by
  refine Leaves.ofGetBind fun t => ?_
  split
  · exact h.synSentTimer t
  split
  case isTrue ht => exact h.synRcvdTimer ht
  case isFalse => exact refl_of R t

lemma fireTlp (h : TimerAtoms R) : Leaves R (Tcb.fireTlp (P := P)) := by
  have hsend : Leaves R (Tcb.sendTlp (P := P)) := by
    refine Leaves.bind Leaves.ofGet fun t => Leaves.ite ?_ (Leaves.ite ?_ (Leaves.ofPure _))
    · refine Leaves.bind (h.news _ _) fun _ => Leaves.ofModify fun t => h.runs ?_
      split <;> exact rfl
    · refine Leaves.bind (h.resends _) fun _ => Leaves.ofModify fun t => h.runs ?_
      split <;> exact rfl
  refine Leaves.bind (Leaves.ofModify fun _ => h.runs rfl) fun _ => ?_
  refine Leaves.bind Leaves.ofGet fun t => Leaves.ite (Leaves.ofPure _) (Leaves.ite ?_ hsend)
  refine Leaves.ofModify fun t => h.runs ?_
  obtain ⟨d, hd⟩ := maybeArmTlp_eq t
  rw [hd]
  exact rfl

lemma onPersistTimer (h : TimerAtoms R) : Leaves R (Tcb.onPersistTimer (P := P)) := by
  have hagain (t : Tcb P) : R t t.persistAgain := by
    refine h.runs ?_
    unfold persistAgain
    dsimp only
    split <;> exact rfl
  refine Leaves.bind (Leaves.ofModify fun t => h.runs rfl) fun _ => Leaves.bind Leaves.ofGet fun t => ?_
  refine Leaves.ite (Leaves.ofPure _) (Leaves.ite (Leaves.ofModify fun t => h.runs rfl) ?_)
  refine Leaves.ite ?_ ?_
  · exact Leaves.bind (h.news _ _) fun _ => Leaves.ofModify hagain
  · refine Leaves.bind (h.ack (emitProbe_footprint _)) fun _ => ?_
    refine Leaves.bind (Leaves.ofModify fun t => h.runs rfl) fun _ => Leaves.ofModify fun t => ?_
    split
    · exact h.aborts t
    · exact hagain t

lemma checkKeepalive (h : TimerAtoms R) : Leaves R (Tcb.checkKeepalive (P := P)) := by
  refine Leaves.bind Leaves.ofGet fun t => ?_
  refine Leaves.ite (Leaves.ofPure _) (Leaves.ite (Leaves.ofModify fun t => h.runs rfl) ?_)
  refine Leaves.ite (Leaves.ofModify fun t => h.runs rfl) (Leaves.ite (Leaves.ofModify fun t => ?_) ?_)
  · split
    · exact h.closes t
    · exact h.aborts t
  · refine Leaves.bind (h.ack (emitProbe_footprint _)) fun _ => Leaves.ofModify fun t => h.runs ?_
    split <;> exact rfl

omit [IsTrans (Tcb P) R] in
lemma checkUserTimeout (h : TimerAtoms R) (t : Tcb P) : R t t.checkUserTimeout := by
  unfold Tcb.checkUserTimeout
  split
  · exact h.runs rfl
  split
  · exact h.runs rfl
  split
  · exact h.aborts t
  · exact refl_of R t

lemma idleTimers (h : TimerAtoms R) (now : U64) : Leaves R (Tcb.idleTimers (P := P) now) := by
  refine Leaves.bind h.checkKeepalive fun _ => Leaves.bind (Leaves.ofModify h.checkUserTimeout) fun _ => ?_
  refine Leaves.bind Leaves.ofGet fun t => Leaves.ite (Leaves.ofPure _) ?_
  refine Leaves.bind h.output fun _ => Leaves.bind Leaves.ofGet fun t => ?_
  exact Leaves.ite (h.ack sendPureAck_footprint) (Leaves.ofPure _)

lemma lateTimers (h : TimerAtoms R) (now : U64) : Leaves R (Tcb.lateTimers (P := P) now) := by
  refine Leaves.bind (Leaves.ofModify (h.reorders now)) fun _ => Leaves.bind Leaves.ofGet fun t => ?_
  refine Leaves.ite (Leaves.bind h.onPersistTimer fun _ => Leaves.bind Leaves.ofGet fun t => ?_)
    (h.idleTimers now)
  exact Leaves.ite (Leaves.ofPure _) (h.idleTimers now)

/-- One tick, from its parts. -/
lemma runTimers (h : TimerAtoms R) : Leaves R (Tcb.runTimers (P := P)) := by
  refine Leaves.bind Leaves.ofGet fun t => Leaves.ite (Leaves.ofModify h.ends) (Leaves.ite ?_ ?_)
  · exact Leaves.bind (h.ack (emitCtl_footprint _ _ _)) fun _ => Leaves.ofModify h.aborts
  refine Leaves.bind h.handshakeTimer fun _ => Leaves.bind Leaves.ofGet fun t => ?_
  refine Leaves.bind (Leaves.ite h.fireTlp (Leaves.ofPure _)) fun _ => ?_
  refine Leaves.bind Leaves.ofGet fun t => Leaves.ite ?_ (h.lateTimers _)
  refine Leaves.bind (Leaves.ofModify h.timesOut) fun _ => Leaves.bind Leaves.ofGet fun t => ?_
  exact Leaves.ite (Leaves.ofPure _) (h.lateTimers _)

end TimerAtoms

/-! ### Relations that see nothing of the send side -/

/-- The block without what the timers of an open connection write. -/
def exceptTimers (t : Tcb P) : Tcb P :=
  { t.exceptTransmit.exceptReact with
    toKeepaliveTimer := (zeroed : Tcb P).toKeepaliveTimer
    synRcvdRetries := 0 }

section

variable {R : Tcb P → Tcb P → Prop} [IsTrans (Tcb P) R]

lemma onRto_coarse (runs : ∀ {t t' : Tcb P}, Agree exceptTimers t t' → R t t')
    (aborts : ∀ t : Tcb P, R t t.abortLocal) (t : Tcb P) : R t t.onRto := by
  have hblack (t : Tcb P) : Agree exceptTimers t t.blackholeCheck := by
    unfold blackholeCheck
    split
    · exact rfl
    · dsimp only
      split <;> exact rfl
  have hrenege (t : Tcb P) : Agree exceptTimers t t.renegeCheck := by
    unfold renegeCheck
    split <;> exact rfl
  unfold Tcb.onRto
  lift_lets
  intro t₁ t₂ stats t₃ t₄
  split
  · exact runs rfl
  split
  · exact trans_of R (runs rfl : R t t₂) (aborts t₂)
  · have h₄ : Agree exceptTimers t₃ t₄ :=
      trans_of (Agree exceptTimers) (hblack t₃) (hrenege t₃.blackholeCheck)
    refine trans_of R (runs rfl : R t t₃) (trans_of R (runs h₄) (runs ?_))
    clear_value t₄
    exact rfl

lemma rackTimer_coarse [Std.Refl R] (runs : ∀ {t t' : Tcb P}, Agree exceptTimers t t' → R t t')
    (now : U64) (t : Tcb P) : R t (t.rackTimer now) := by
  have hmark (t : Tcb P) (q : RtxQueue P.RTX) (d : Deadline) :
      Agree exceptTimers t { t with rtx := q, rackDeadline := d } := rfl
  have hcc (t : Tcb P) (cc : Reno) : Agree exceptTimers t { t with cc := cc } := rfl
  have henter (t : Tcb P) (flight : U32) : Agree exceptTimers t (t.enterFastRecovery flight) := rfl
  have hfound : R t ({ t with rackDeadline := Deadline.OFF } : Tcb P).rackDetect.2 :=
    trans_of R (runs rfl : R t { t with rackDeadline := Deadline.OFF }) (runs (hmark _ _ _))
  unfold Tcb.rackTimer
  split
  · refine trans_of R hfound ?_
    generalize ({ t with rackDeadline := Deadline.OFF } : Tcb P).rackDetect = d
    dsimp only
    split
    · split
      · exact runs (hcc d.2 _)
      · exact trans_of R (runs (henter d.2 _)) (runs (hcc _ _))
    · exact refl_of R d.2
  · exact refl_of R t

/-- A relation that looks at nothing the timers write needs the ends of a connection only. -/
lemma TimerAtoms.coarse [Std.Refl R] (runs : ∀ {t t' : Tcb P}, Agree exceptTimers t t' → R t t')
    (aborts : ∀ t : Tcb P, R t t.abortLocal) (closes : ∀ t : Tcb P, R t t.closeClean)
    (ends : ∀ t : Tcb P, R t t.timeWaitOver)
    (givesUp : ∀ t : Tcb P, t.state = .synRcvd → R t t.resetToListenOrClosed) : TimerAtoms R where
  toSendAtoms := .ofTransmit fun h => runs (h.of exceptTimers)
  runs h := runs (h.of exceptTimers)
  timesOut := onRto_coarse runs aborts
  reorders := rackTimer_coarse runs
  aborts := aborts
  closes := closes
  ends := ends
  givesUp := givesUp

end

end Tcb

end TcpSansIo
