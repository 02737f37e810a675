import TcpSansIo.Tcb.Traversal

/-!
# Relations every call respects

`InjectAtoms` adds to what a segment does to a synchronized connection what it does before there is one,
`ConnAtoms` to `TimerAtoms` what opening and closing a connection does, and `CallAtoms` to both what the other
calls of the application do.  `CallAtoms.run` walks the whole interface but for the calls that set something
of the host's (`Call.sets`).
-/

namespace TcpSansIo

open Proc FixedWidth

variable {P : Params}

namespace Tcb

/-! ## A segment in any state -/

/-- What a segment does to a block in any state. -/
structure InjectAtoms (R : Tcb P → Tcb P → Prop) (seg : Segment) : Prop extends AckAtoms R where
  counts : ∀ t : Tcb P, R t t.countIn
  forgets : ∀ t : Tcb P, R t t.resetToListenOrClosed
  aborts : ∀ t : Tcb P, R t t.abortLocal
  arms : ∀ t : Tcb P, R t t.armRto
  connects : ∀ t : Tcb P, t.state = .synSent → seqGt seg.ack t.iss → seqLe seg.ack t.sndNxt →
    R t (t.activeOpened seg)
  crosses : ∀ t : Tcb P, t.state = .synSent → R t { t.absorbSynOptions seg with
    ecnEnabled := false, state := .synRcvd, synRcvdRetries := 0, synRetransmitted := true }
  opens : ∀ t : Tcb P, t.state = .synRcvd → seg.ack = t.iss + 1 → R t (t.passiveOpened seg)
  accepts : ∀ t : Tcb P, t.state = .listen → seg.flags.syn = true ∧ seg.flags.ack = false ∧
    seg.flags.rst = false ∧ seg.flags.fin = false → R t (final (acceptSynStateful seg t))
  promotes : ∀ (t u : Tcb P) (opts : CookieOpts), u.validateCookie seg = some opts →
    R t (t.cookieOpened seg opts)
  cookies : ∀ t : Tcb P, R t { t with cookieSecretUsed := true }
  synced : ∀ t : Tcb P, t.state.isSynchronized = true → R t (final (Tcb.onSynchronized seg t))

namespace InjectAtoms

variable {R : Tcb P → Tcb P → Prop} {seg : Segment} [Std.Refl R] [IsTrans (Tcb P) R]

omit [Std.Refl R] in
/-- The ACK of our SYN-ACK opens the connection, and what follows is a segment of it. -/
lemma completePassiveOpen (h : InjectAtoms R seg) {t : Tcb P} (ht : t.state = .synRcvd)
    (hack : seg.ack = t.iss + 1) : R t (final (Tcb.completePassiveOpen seg t)) := by
  unfold Tcb.completePassiveOpen
  rw [run_modify_bind]
  refine trans_of R (h.opens t ht hack) ?_
  split
  · exact h.ack sendPureAck_footprint _
  · exact h.synced _ rfl

lemma onSynSent (h : InjectAtoms R seg) {t : Tcb P} (ht : t.state = .synSent) :
    R t (final (Tcb.onSynSent seg t)) := by
  unfold Tcb.onSynSent
  rw [run_get_bind]
  split
  · split
    · exact refl_of R t
    · exact h.ack (refuseAck_footprint seg) t
  split
  · split
    · exact h.aborts t
    · exact refl_of R t
  split
  · exact refl_of R t
  split
  case isTrue hok =>
    simp only [Bool.and_eq_true, decide_eq_true_eq] at hok
    exact trans_of R (h.connects t ht hok.1.2 hok.2) (h.ack sendPureAck_footprint _)
  case isFalse =>
    refine trans_of R (h.crosses t ht) ?_
    exact Leaves.bind (h.ack emitSynack_footprint) (fun _ => Leaves.ofModify h.arms) _

/-- In SYN_RCVD a segment resets, completes the open, or draws an answer. -/
lemma onSynRcvd (h : InjectAtoms R seg) {t : Tcb P} (ht : t.state = .synRcvd) :
    R t (final (Tcb.onSynRcvd seg t)) := by
  have hrefuse := h.ack (refuseAck_footprint (P := P) seg) t
  have hoow := h.ack (sendOowAck_footprint (P := P)) t
  unfold Tcb.onSynRcvd
  rw [run_get_bind]
  split
  · split
    · exact refl_of R t
    split
    · exact hoow
    split
    · exact h.forgets t
    · exact h.aborts t
  split
  · split
    · split
      case isTrue hok =>
        simp only [Bool.and_eq_true, beq_iff_eq] at hok
        exact h.completePassiveOpen ht hok.2
      case isFalse => exact hrefuse
    split
    · refine (?_ : Leaves R _) t
      refine Leaves.bind (h.ack (Leaves.ofModifyGet oowAllowed_footprint)) fun _ => ?_
      exact Leaves.ite (Leaves.bind (h.ack emitSynack_footprint) fun _ => Leaves.ofPure _)
        (Leaves.ofPure _)
    · exact refl_of R t
  split
  · exact refl_of R t
  split
  · exact hrefuse
  case isFalse hack =>
    split
    · exact hoow
    · exact h.completePassiveOpen ht (not_not.mp hack)

omit [Std.Refl R] in
lemma promoteViaCookie (h : InjectAtoms R seg) {u : Tcb P} {opts : CookieOpts}
    (hvalid : u.validateCookie seg = some opts) : Leaves R (Tcb.promoteViaCookie seg opts) := fun t =>
  trans_of R (h.promotes t u opts hvalid) (h.synced _ rfl)

lemma onListen (h : InjectAtoms R seg) {t : Tcb P} (ht : t.state = .listen) :
    R t (final (Tcb.onListen seg t)) := by
  have hpromote : Leaves R (tryPromoteViaCookie seg) := by
    refine Leaves.bind Leaves.ofGet fun t => ?_
    cases hvalid : t.validateCookie seg with
    | some opts => exact Leaves.bind (h.promoteViaCookie hvalid) fun _ => Leaves.ofPure _
    | none => exact Leaves.ofPure _
  unfold Tcb.onListen
  rw [run_get_bind]
  split
  · exact refl_of R t
  split
  · split
    · split
      · exact Leaves.bind hpromote (fun _ => Leaves.ofPure _) t
      · exact refl_of R t
    · exact h.ack (refuseAck_footprint seg) t
  split
  · exact refl_of R t
  case isFalse hrst hack hsyn =>
    simp only [Bool.or_eq_true, Bool.not_eq_true', not_or, Bool.not_eq_false, Bool.not_eq_true]
      at hrst hack hsyn
    exact h.accepts t ht ⟨hsyn.1, hack, hrst, hsyn.2⟩

lemma emitCookieSynack (h : InjectAtoms R seg) : Leaves R (Tcb.emitCookieSynack seg) := by
  intro t
  unfold Tcb.emitCookieSynack
  split
  · exact refl_of R t
  · dsimp only
    refine (?_ : Leaves R _) t
    refine Leaves.bind (h.ack (stage_footprint _ _ _)) fun _ => Leaves.ofModify fun t' => ?_
    split
    · exact h.cookies t'
    · exact refl_of R t'

/-- A busy listener answers a SYN statelessly, or gives its slot to a valid cookie. -/
lemma onBusyListener (h : InjectAtoms R seg) : Leaves R (Tcb.onBusyListener seg) := by
  refine Leaves.bind Leaves.ofGet fun t => Leaves.ite (Leaves.ofThrow _) ?_
  refine Leaves.ite h.emitCookieSynack (Leaves.ite ?_ (Leaves.ofThrow _))
  cases hvalid : t.validateCookie seg with
  | some opts => exact Leaves.bind (Leaves.ofModify h.forgets) fun _ => h.promoteViaCookie hvalid
  | none => exact Leaves.ofThrow _

lemma dispatch (h : InjectAtoms R seg) : Leaves R (Tcb.dispatch seg) := by
  refine Leaves.bind (Leaves.ofModify h.counts) fun _ => Leaves.ofGetBind fun t => ?_
  cases ht : t.state with
  | closed => exact refl_of R t
  | listen => exact h.onListen ht
  | synSent => exact h.onSynSent ht
  | synRcvd => exact h.onSynRcvd ht
  | established | finWait1 | finWait2 | closeWait | closing | lastAck | timeWait =>
    exact h.synced t (by rw [ht]; rfl)

/-- One segment, whatever the state it finds. -/
lemma injectSegment (h : InjectAtoms R seg) : Leaves R (Tcb.injectSegment seg) := by
  refine Leaves.bind Leaves.ofGet fun t => Leaves.ite (Leaves.ofThrow _) (Leaves.ite ?_ h.dispatch)
  exact Leaves.ite (Leaves.bind (Leaves.ofModify h.forgets) fun _ => h.dispatch) h.onBusyListener

end InjectAtoms

/-- Opening a half-open connection, for relations that look at its three steps. -/
lemma AckAtoms.acceptSynStateful {R : Tcb P → Tcb P → Prop} [IsTrans (Tcb P) R] {seg : Segment}
    (h : AckAtoms R) (offers : ∀ t : Tcb P, R t (t.halfOpen seg))
    (offered : ∀ t : Tcb P, R t ({ t with sndNxt := t.iss + 1, synUnacked := true } : Tcb P).armRto) :
    Leaves R (Tcb.acceptSynStateful seg) :=
  Leaves.bind (Leaves.ofModify offers) fun _ =>
    Leaves.bind (h.ack emitSynack_footprint) fun _ => Leaves.ofModify offered

/-! ## Calls -/

/-- What a tick, and the calls that open, close or give up a connection do. -/
structure ConnAtoms (R : Tcb P → Tcb P → Prop) : Prop where
  timers : TimerAtoms R
  opens : ∀ t : Tcb P, R t t.activeOpen
  offered : ∀ t : Tcb P, t.state = .synSent →
    R t ({ t with sndNxt := t.iss + 1, synUnacked := true } : Tcb P).armRto
  listens : ∀ t : Tcb P, R t t.passiveOpen
  closes : ∀ (t : Tcb P) (s : State), s = .finWait1 ∨ s = .lastAck →
    t.state = .established ∨ t.state = .synRcvd ∨ t.state = .closeWait → R t { t with state := s }
  unopens : ∀ t : Tcb P, R t t.closeUnopened
  gives : ∀ t : Tcb P, R t ({ t with isListener := false } : Tcb P).abortLocal

/-- What the calls of the interface do that take no packet and set nothing of the host's. -/
structure ApiAtoms (R : Tcb P → Tcb P → Prop) : Prop extends ConnAtoms R where
  moves : ∀ {c : Call}, c.moves = true → ∀ t : Tcb P, R t (final (c.run t))

/-- What the calls of the interface do that set nothing of the host's. -/
structure CallAtoms (R : Tcb P → Tcb P → Prop) : Prop extends ApiAtoms R where
  segments : ∀ seg, InjectAtoms R seg

namespace ConnAtoms

variable {R : Tcb P → Tcb P → Prop} [Std.Refl R] [IsTrans (Tcb P) R]

lemma connect (h : ConnAtoms R) : Leaves R (Tcb.connect (P := P)) := by
  refine Leaves.ofGetBind fun t => ?_
  split
  · exact refl_of R t
  rw [run_modify_bind]
  refine trans_of R (h.opens t) (bind_at (h.timers.ack emitSyn_footprint _) fun sent u hu => ?_)
  have hsame := emitSyn_footprint t.activeOpen
  rw [hu] at hsame
  have hstate : u.state = .synSent := hsame.of fun t => t.state
  rw [run_modify, final_ok]
  split
  · exact h.offered u hstate
  · exact refl_of R u

omit [IsTrans (Tcb P) R] in
lemma listen (h : ConnAtoms R) : Leaves R (Tcb.listen (P := P)) := by
  have hopen (t : Tcb P) : Leaves R (if !t.secretSet && !t.cookieSecretSet then
      throw (Fault.tcp .invalidState) else modify passiveOpen : TcbM P Unit) :=
    Leaves.ite (Leaves.ofThrow _) (Leaves.ofModify h.listens)
  refine Leaves.ofGetBind fun t => ?_
  cases t.state with
  | closed | listen | timeWait => exact hopen t t
  | synSent | synRcvd | established | finWait1 | finWait2 | closing | closeWait | lastAck =>
    exact refl_of R t

/-- A close moves the state and then sends what is queued, the FIN last. -/
lemma close (h : ConnAtoms R) : Leaves R (Tcb.close (P := P)) := by
  refine Leaves.ofGetBind fun t => ?_
  have hmove (s : State) (hs : s = .finWait1 ∨ s = .lastAck)
      (ht : t.state = .established ∨ t.state = .synRcvd ∨ t.state = .closeWait) :
      R t (final (maybeSendData ({ t with state := s } : Tcb P))) :=
    trans_of R (h.closes t s hs ht) (h.timers.output _)
  cases hs : t.state with
  | established => exact hmove .finWait1 (.inl rfl) (.inl hs)
  | synRcvd => exact hmove .finWait1 (.inl rfl) (.inr (.inl hs))
  | closeWait => exact hmove .lastAck (.inr rfl) (.inr (.inr hs))
  | closed | finWait1 | finWait2 | closing | timeWait | lastAck => exact refl_of R t
  | synSent | listen => exact h.unopens t

lemma abort (h : ConnAtoms R) : Leaves R (Tcb.abort (P := P)) := by
  refine Leaves.bind Leaves.ofGet fun t => ?_
  cases t.state with
  | closed => exact Leaves.ofPure _
  | listen | synSent => exact Leaves.ofModify h.gives
  | established | finWait1 | finWait2 | closing | timeWait | closeWait | lastAck | synRcvd =>
    exact Leaves.bind (h.timers.ack (emitCtl_footprint _ _ _)) fun _ => Leaves.ofModify h.timers.aborts

end ConnAtoms

end Tcb

/-- The calls that set something of the host's. -/
def Call.sets : Call → Bool
  | .setNow _ | .setEgressPaused _ | .setTxCsumOffload _ | .setKeepalive .. | .setUserTimeout _
  | .setFinWait2Timeout _ | .setSecret _ | .setCookieSecret _ | .reinit _ => true
  | _ => false

/-- The calls that take a packet. -/
def Call.injects : Call → Bool
  | .injectPacket _ | .injectPacketL4CsumTrusted _ => true
  | _ => false

open Tcb

variable {R : Tcb P → Tcb P → Prop} [Std.Refl R] [IsTrans (Tcb P) R]

/-- A call that takes no packet. -/
lemma Tcb.ApiAtoms.run (h : ApiAtoms R) {c : Call} (hc : c.sets = false) (hown : c.injects = false)
    (t : Tcb P) : R t (final (c.run t)) := by
  have hof {α : Type} {x : TcbM P α} (h : Leaves R x) (f : α → Reply) :
      R t (final ((x >>= fun a => pure (f a)) t)) :=
    Leaves.bind h (fun _ => Leaves.ofPure _) t
  cases c with
  | setNow | setEgressPaused | setTxCsumOffload | setKeepalive | setUserTimeout | setFinWait2Timeout
  | setSecret | setCookieSecret | reinit => cases hc
  | injectPacket | injectPacketL4CsumTrusted => cases hown
  | setMtu | updatePmtu | send | sendReserve | sendFill | sendCommit | recv | extractPacket
  | extractPacketWith => exact h.moves rfl t
  | connect => exact hof h.connect _
  | listen => exact hof h.listen _
  | close => exact hof h.close _
  | abort => exact hof h.abort _
  | tick => exact hof h.timers.runTimers _

lemma Tcb.InjectAtoms.injectParsed {parsed : Except TcpError Segment}
    (h : ∀ seg, parsed = .ok seg → InjectAtoms R seg) : Leaves R (Tcb.injectParsed parsed) := by
  cases parsed with
  | ok seg => exact (h seg rfl).injectSegment
  | error e => exact Leaves.ofThrow _

/-- A call that takes a packet. -/
lemma Tcb.InjectAtoms.run (h : ∀ seg, InjectAtoms R seg) {c : Call} (hc : c.injects = true) (t : Tcb P) :
    R t (final (c.run t)) := by
  cases c with
  | injectPacket packet =>
    exact Leaves.bind (Tcb.InjectAtoms.injectParsed fun seg _ => h seg) (fun _ => Leaves.ofPure _) t
  | injectPacketL4CsumTrusted packet =>
    exact Leaves.bind (Tcb.InjectAtoms.injectParsed fun seg _ => h seg) (fun _ => Leaves.ofPure _) t
  | _ => cases hc

/-- A relation that every part of a call keeps is kept by every call that sets nothing. -/
lemma Tcb.CallAtoms.run (h : CallAtoms R) {c : Call} (hc : c.sets = false) (t : Tcb P) :
    R t (final (c.run t)) := by
  cases hown : c.injects with
  | true => exact Tcb.InjectAtoms.run h.segments hown t
  | false => exact h.toApiAtoms.run hc hown t

end TcpSansIo
