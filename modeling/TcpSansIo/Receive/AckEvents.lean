import Mathlib.Logic.Relation
import TcpSansIo.Receive.Stream
import TcpSansIo.Send.RetransmitTimer
import TcpSansIo.Send.Stream
import TcpSansIo.Tcb.OutputTraversal

/-!
# What happens to acknowledgments

`AckEvent` lists what can happen to the part of a block that the acknowledgments it sends depend on
(`AckView`): a segment goes out and tells `RCV.NXT`; an acknowledgment that rode on it is settled; one
that finds the egress path blocked is deferred; a connection ends.

All output is a sequence of these events that leaves the connection open (`Attends`), and so is all of a
tick, whose last event is the timer of delayed acknowledgments (`runTimers_ticks`).
-/

namespace TcpSansIo

open Proc FixedWidth

variable {P : Params}

/-- The states in which the peer's SYN was heard and the connection is not over. -/
def State.heard : State → Bool
  | .closed | .listen | .synSent => false
  | _ => true

namespace Tcb

/-! ## Events -/

/-- What the acknowledgments a block sends depend on. -/
structure AckView (P : Params) where
  state : State
  rcvNxt : U32
  lastAckSent : U32
  pendingAck : Bool
  ackDeadline : Deadline
  nowMs : U64
  egressPaused : Bool
  txRing : TxRing P.TXQ
  sent : List (Emission P)

def ackView (t : Tcb P) : AckView P :=
  ⟨t.state, t.rcvNxt, t.lastAckSent, t.pendingAck, t.ackDeadline, t.nowMs, t.egressPaused, t.txRing, t.sent⟩

/-- A segment was staged, of which `Q` holds, and nothing else of the view changed but what it told. -/
structure Stated (Q : Emission P → Prop) (t : Tcb P) (last : U32) (t' : Tcb P) : Prop where
  view : t'.ackView = { t.ackView with lastAckSent := last, txRing := t'.txRing, sent := t'.sent }
  sent : ∃ e, t'.sent = t.sent ++ [e] ∧ Q e

/-- What can happen to the acknowledgments of a block. -/
inductive AckEvent : Tcb P → Tcb P → Prop
  | aside {t t' : Tcb P} (h : Agree ackView t t') : AckEvent t t'
  | told {t t' : Tcb P} (hheard : t.state.heard = true)
      (h : Stated (fun e => e.state = t.state) t t.rcvNxt t') : AckEvent t t'
  | settled {t : Tcb P} (h : t.lastAckSent = t.rcvNxt) : AckEvent t t.ackSent
  | deferred {t : Tcb P} (hheard : t.state.heard = true) (hfull : t.egressFull = true) :
      AckEvent t { t with pendingAck := true, ackDeadline := Deadline.atMs t.nowMs }
  | greeted {t t' : Tcb P} (hstate : t.state.heard = false)
      (h : Stated (fun e => e.header.flags.ack = false) t t.lastAckSent t') : AckEvent t t'
  | parted {t t' : Tcb P} (h : Stated (fun e => e.header.flags.rst = true) t t.lastAckSent t') :
      AckEvent t t'.abortLocal
  | ended {t t' : Tcb P} (hover : t'.state.heard = false) (hpend : t'.pendingAck = false)
      (hdead : t'.ackDeadline = Deadline.OFF) (hsent : t'.sent = t.sent ∨ t'.sent = []) : AckEvent t t'

/-- A sequence of events. -/
abbrev AckRun : Tcb P → Tcb P → Prop := Relation.ReflTransGen AckEvent

lemma AckRun.aside {t t' : Tcb P} (h : Agree ackView t t') : AckRun t t' := .single (.aside h)

/-- While the peer is heard, all that happens are events that leave the connection open. -/
def Attends (t t' : Tcb P) : Prop := t.state.heard = true → AckRun t t' ∧ t'.state = t.state

instance : Std.Refl (Attends (P := P)) := ⟨fun _ _ => ⟨.refl, rfl⟩⟩

instance : IsTrans (Tcb P) Attends := ⟨fun t t' t'' h h' hheard => by
  obtain ⟨hrun, hstate⟩ := h hheard
  obtain ⟨hrun', hstate'⟩ := h' (hstate ▸ hheard)
  exact ⟨hrun.trans hrun', hstate'.trans hstate⟩⟩

lemma Attends.aside {t t' : Tcb P} (h : Agree ackView t t') : Attends t t' :=
  fun _ => ⟨.aside h, h.of AckView.state⟩

/-! ## Output -/

/-- Staging does nothing, or appends the segment it was given. -/
lemma stage_states (h : Header) (len : ℕ) (fill : ℕ → Option (List U8)) (t : Tcb P) :
    (∃ e, stage h len fill t = .error e t) ∨ stage h len fill t = .ok false t ∨
      ∃ t', stage h len fill t = .ok true t' ∧
        Stated (fun e => e.state = t.state ∧ e.header = h) t t.lastAckSent t' := by
  rcases stage_cases h len fill t with ⟨e, he, -⟩ | ⟨-, he⟩ | ⟨-, pkt, ring, -, -, -, -, he⟩
  · exact .inl ⟨_, he⟩
  · exact .inr (.inl he)
  · exact .inr (.inr ⟨_, he, rfl, _, rfl, rfl, rfl⟩)

/-- What `emit_segment` does: nothing, or it stages a segment with these flags; one that acknowledges and is
no reset is remembered. -/
lemma emitSegment_states (fl : Flags) (seq ack : U32) (opts : TcpOptions) (payload : RingSlice) (ect : Bool)
    (t : Tcb P) :
    (Agree ackView t (final (emitSegment fl seq ack opts payload ect t)) ∧
        ∀ t', emitSegment fl seq ack opts payload ect t ≠ .ok true t') ∨
      ∃ t', emitSegment fl seq ack opts payload ect t = .ok true t' ∧
        Stated (fun e => e.state = t.state ∧ e.header.flags.ack = fl.ack ∧ e.header.flags.rst = fl.rst) t
          (if fl.ack && !fl.rst then ack else t.lastAckSent) t' := by
  unfold emitSegment
  rw [run_get_bind]
  split
  · exact .inl ⟨rfl, fun t' h => by cases h⟩
  rw [run_modify_bind]
  generalize hu : ({ t with sendCwrPending := _ } : Tcb P) = u
  have hview : Agree ackView t u := by
    rw [← hu]
    rfl
  rcases stage_states _ payload.len _ u with ⟨e, he⟩ | he | ⟨v, he, hstated⟩
  · rw [run_bind_error he]
    exact .inl ⟨hview, fun t' h => by cases h⟩
  · rw [run_bind_ok he]
    exact .inl ⟨hview, fun t' h => by cases h⟩
  · rw [run_bind_ok he, run_modify_bind, run_pure]
    obtain ⟨e, hsent, hstate, hheader⟩ := hstated.sent
    have hview' := hstated.view
    rw [hview, show u.lastAckSent = t.lastAckSent from hview.of AckView.lastAckSent] at hview'
    refine .inr ⟨_, rfl, ?_, e, ?_, ?_, ?_, ?_⟩
    · simp only [Bool.true_and]
      split
      · exact congrArg (fun w : AckView P => { w with lastAckSent := ack }) hview'
      · exact hview'
    · rw [show t.sent = u.sent from (hview.of AckView.sent).symm, ← hsent]
      split <;> rfl
    · exact hstate.trans (hview.of AckView.state)
    · rw [hheader]
    · rw [hheader]

/-- A segment that acknowledges goes out, or nothing happens; what went out told `RCV.NXT`. -/
lemma emitSegment_attends (fl : Flags) (hack : fl.ack = true) (hrst : fl.rst = false) (seq : U32)
    (opts : TcpOptions) (payload : RingSlice) (ect : Bool) (t : Tcb P) :
    Attends t (final (emitSegment fl seq t.rcvNxt opts payload ect t)) ∧
      ∀ t', emitSegment fl seq t.rcvNxt opts payload ect t = .ok true t' → t'.lastAckSent = t'.rcvNxt := by
  rcases emitSegment_states fl seq t.rcvNxt opts payload ect t with ⟨hsame, hnone⟩ | ⟨v, he, hstated⟩
  · exact ⟨.aside hsame, fun t' h => absurd h (hnone t')⟩
  · rw [hack, hrst, Bool.not_false, Bool.and_self, if_pos rfl] at hstated
    have hview := hstated.view
    rw [he]
    refine ⟨fun hheard => ⟨.single (.told hheard ⟨hview, ?_⟩), congrArg AckView.state hview⟩, fun t' h => ?_⟩
    · exact hstated.sent.imp fun e h => ⟨h.1, h.2.1⟩
    · cases h
      exact (congrArg AckView.lastAckSent hview).trans (congrArg AckView.rcvNxt hview).symm

/-- The acknowledgment that was owed rides on what goes out. -/
lemma settle_attends {x : TcbM P Bool} {t : Tcb P} (hx : Attends t (final (x t)))
    (htold : ∀ t', x t = .ok true t' → t'.lastAckSent = t'.rcvNxt) {α : Type} (f : Bool → α) :
    Attends t (final ((do
      let queued ← x
      modify fun t => if queued then t.ackSent else t
      return f queued : TcbM P α) t)) := by
  refine bind_at hx fun queued t' hrun => ?_
  rw [run_modify_bind]
  cases queued with
  | false => exact refl_of Attends t'
  | true => exact fun _ => ⟨.single (.settled (htold t' hrun)), rfl⟩

lemma segmentOptions_view (len : U32) (t : Tcb P) : Agree ackView t (segmentOptions len t).2 := by
  unfold segmentOptions
  lift_lets
  extract_lets
  split
  · split <;> rfl
  · rfl

lemma emitDataSegment_attends {fl : Flags} (hack : fl.ack = true) (hrst : fl.rst = false) (seq : U32)
    (payload : RingSlice) (ect : Bool) : Leaves Attends (emitDataSegment (P := P) fl seq payload ect) := by
  refine Leaves.bind (Leaves.ofModifyGet fun t => .aside (segmentOptions_view _ t)) fun opts => ?_
  refine Leaves.ofGetBind fun t => ?_
  obtain ⟨hrun, htold⟩ := emitSegment_attends fl hack hrst seq opts payload ect t
  exact settle_attends hrun htold id

lemma sendPureAck_attends : Leaves Attends (sendPureAck (P := P)) := by
  refine Leaves.ofGetBind fun t => ?_
  split
  case isTrue hfull => exact fun hheard => ⟨.single (.deferred hheard hfull), rfl⟩
  case isFalse =>
    refine bind_at (.aside (segmentOptions_view 0 t)) fun opts u _ => ?_
    rw [run_get_bind]
    obtain ⟨hrun, htold⟩ := emitSegment_attends { ack := true } rfl rfl u.sndNxt opts NO_PAYLOAD false u
    exact settle_attends hrun htold fun _ => PUnit.unit

lemma oowAllowed_view (t : Tcb P) : Agree ackView t (oowAllowed t).2 := by
  unfold oowAllowed
  lift_lets
  intro limited
  split <;> rfl

lemma sendOowAck_attends : Leaves Attends (sendOowAck (P := P)) :=
  Leaves.bind (Leaves.ofModifyGet fun t => .aside (oowAllowed_view t)) fun _ =>
    Leaves.ite sendPureAck_attends (Leaves.ofPure ())

lemma emitProbe_attends (seq : U32) : Leaves Attends (emitProbe (P := P) seq) :=
  Leaves.ofGetBind fun t => (emitSegment_attends { ack := true } rfl rfl seq _ _ _ t).1

lemma emitSynack_attends : Leaves Attends (emitSynack (P := P)) :=
  Leaves.ofGetBind fun t =>
    (emitSegment_attends { syn := true, ack := true, ece := t.ecnEnabled } rfl rfl t.iss _ _ _ t).1

/-! ### Data -/

lemma noteNew_view (seq len seqLen : U32) (fin : Bool) (t : Tcb P) :
    Agree ackView t (noteNew seq len seqLen fin t) := by
  unfold noteNew
  obtain ⟨d, hd⟩ := maybeArmTlp_eq (countSent len (advanceNxt seq len seqLen fin t)).ensureRto
  obtain ⟨d', hd'⟩ := ensureRto_eq (countSent len (advanceNxt seq len seqLen fin t))
  rw [hd, hd']
  simp only [countSent]
  split <;> rfl

lemma noteRetransmit_view (i : ℕ) (s : Seg) (plen sentLen : U32) (t : Tcb P) :
    Agree ackView t (noteRetransmit i s plen sentLen t) := by
  unfold noteRetransmit
  obtain ⟨d, hd⟩ := ensureRto_eq (P := P) _
  rw [hd]
  rfl

/-- Relations that see what `ackView` sees: of sending data they have to look at the segments only. -/
lemma OutputAtoms.ofView {R : Tcb P → Tcb P → Prop} (aside : ∀ {t t' : Tcb P}, Agree ackView t t' → R t t')
    (segments : ∀ {fl : Flags}, fl.ack = true → fl.rst = false → ∀ (seq : U32) (payload : RingSlice)
      (ect : Bool), Leaves R (emitDataSegment (P := P) fl seq payload ect)) : OutputAtoms R where
  segments := segments
  records _ _ := aside rfl
  news seq len seqLen fin t := aside (noteNew_view seq len seqLen fin t)
  again i s plen sentLen t := aside (noteRetransmit_view i s plen sentLen t)
  limited _ := aside rfl
  idles mss t := aside <| by
    unfold idleRestart
    split <;> rfl
  probes t seq probe := aside <| by
    unfold noteProbe
    split <;> rfl
  fails s t := aside <| by
    unfold failProbeOver
    split <;> rfl
  persists t := aside <| by
    simp only [updatePersist]
    split
    · rfl
    · split <;> rfl

lemma attends_output : OutputAtoms (Attends (P := P)) :=
  .ofView Attends.aside fun hack hrst seq payload ect => emitDataSegment_attends hack hrst seq payload ect

lemma heard_of_sends {s : State} (h : s.sends = true) : s.heard = true := by
  cases s <;> first | rfl | cases h

lemma heard_of_synchronized {s : State} (h : s.isSynchronized = true) : s.heard = true := by
  cases s <;> first | rfl | cases h

/-- Data is sent only while the peer is heard. -/
lemma maybeSendData_acks (t : Tcb P) :
    AckRun t (final (maybeSendData t)) ∧ (final (maybeSendData t)).state = t.state := by
  unfold maybeSendData
  rw [run_get_bind]
  split
  · exact ⟨.refl, rfl⟩
  case isFalse hsends => exact attends_output.loop t (heard_of_sends (not_not.mp hsends))

lemma maybeSendData_attends : Leaves Attends (maybeSendData (P := P)) := fun t _ => maybeSendData_acks t

/-! ## A tick -/

/-- An acknowledgment is pending only while the peer is heard. -/
def PendingHeard (t : Tcb P) : Prop := t.pendingAck = true → t.state.heard = true

lemma AckEvent.pendingHeard {t t' : Tcb P} (h : AckEvent t t') (hp : PendingHeard t) : PendingHeard t' := by
  have hstated {Q : Emission P → Prop} {last : U32} {u : Tcb P} (h : Stated Q t last u) : PendingHeard u := by
    intro hpend
    rw [show u.state = t.state from congrArg AckView.state h.view]
    exact hp ((congrArg AckView.pendingAck h.view).symm.trans hpend)
  cases h with
  | aside h =>
    intro hpend
    rw [show t'.state = t.state from h.of AckView.state]
    exact hp ((h.of AckView.pendingAck).symm.trans hpend)
  | told _ h => exact hstated h
  | settled => exact fun h => by cases h
  | deferred hheard => exact fun _ => hheard
  | greeted _ h => exact hstated h
  | parted => exact fun h => by cases h
  | ended _ hpend => exact fun h => by cases hpend.symm.trans h

lemma AckRun.pendingHeard {t t' : Tcb P} (h : AckRun t t') (hp : PendingHeard t) : PendingHeard t' := by
  induction h with
  | refl => exact hp
  | tail _ hevent ih => exact hevent.pendingHeard ih

lemma AckEvent.abort (t : Tcb P) : AckEvent t t.abortLocal := .ended rfl rfl rfl (.inl rfl)

lemma AckEvent.closeClean (t : Tcb P) : AckEvent t t.closeClean := .ended rfl rfl rfl (.inl rfl)

/-- A reset to the peer, and the end. -/
lemma reset_acks (seq ack : U32) (t : Tcb P) :
    AckRun t (final ((do
      let _ ← emitCtl { rst := true, ack := true } seq ack
      modify abortLocal : TcbM P Unit) t)) := by
  rcases emitSegment_states { rst := true, ack := true } seq ack TcpOptions.NONE NO_PAYLOAD false t with
    ⟨hsame, -⟩ | ⟨v, he, hstated⟩
  · refine bind_at (AckRun.aside hsame) fun _ u _ => ?_
    exact .single (.abort u)
  · rw [run_bind_ok (show emitCtl { rst := true, ack := true } seq ack t = _ from he)]
    exact .single (.parted ⟨hstated.view, hstated.sent.imp fun e h => ⟨h.1, h.2.2.2⟩⟩)

lemma emitSyn_acks {t : Tcb P} (hstate : t.state = .synSent) : AckRun t (final (emitSyn t)) := by
  unfold emitSyn
  rw [run_get_bind]
  rcases emitSegment_states { syn := true, ece := true, cwr := true } t.iss 0 _ NO_PAYLOAD false t with
    ⟨hsame, -⟩ | ⟨v, he, hstated⟩
  · exact AckRun.aside hsame
  · rw [he]
    refine .single (.greeted (by rw [hstate]; rfl) ⟨hstated.view, ?_⟩)
    exact hstated.sent.imp fun e h => ⟨h.1, h.2.2.1⟩

lemma synSentTimer_acks {t : Tcb P} (hstate : t.state = .synSent) : AckRun t (final (synSentTimer t)) := by
  unfold synSentTimer
  rw [run_get_bind]
  split
  · exact .refl
  refine bind_at (AckRun.aside rfl) fun _ u hu => ?_
  have hu : u.state = .synSent := by
    cases hu
    exact hstate
  rw [run_get_bind]
  split
  · exact .single (.abort u)
  · refine bind_at (AckRun.aside rfl) fun _ v hv => bind_at (emitSyn_acks ?_) fun _ _ _ => AckRun.aside rfl
    cases hv
    exact hu

lemma synRcvdTimer_acks {t : Tcb P} (hstate : t.state = .synRcvd) : AckRun t (final (synRcvdTimer t)) := by
  unfold synRcvdTimer
  rw [run_get_bind]
  split
  · exact .refl
  refine bind_at (AckRun.aside rfl) fun _ u hu => ?_
  have hu : u.state = .synRcvd := by
    cases hu
    exact hstate
  rw [run_get_bind]
  split
  · rw [run_modify, final_ok, giveUpHalfOpen]
    split
    case isTrue hlistens =>
      refine .single (.ended ?_ rfl rfl (.inr rfl))
      change (if u.isListener = true then State.listen else State.closed).heard = false
      rw [if_pos hlistens]
      rfl
    case isFalse => exact .single (.abort u)
  · refine bind_at (AckRun.aside rfl) fun _ v hv => ?_
    have hv : v.state.heard = true := by
      cases hv
      change u.state.heard = true
      rw [hu]
      rfl
    exact bind_at (emitSynack_attends v hv).1 fun _ _ _ => AckRun.aside rfl

lemma handshakeTimer_acks (t : Tcb P) : AckRun t (final (handshakeTimer t)) := by
  unfold handshakeTimer
  rw [run_get_bind]
  split
  case isTrue hstate => exact synSentTimer_acks hstate
  case isFalse =>
    split
    case isTrue hstate => exact synRcvdTimer_acks hstate
    case isFalse => exact .refl

lemma fireTlp_attends : Leaves Attends (fireTlp (P := P)) := by
  have hnote (isRetrans sent : Bool) :
      Leaves Attends (modify fun t => if sent then t.noteTlp isRetrans else t : TcbM P Unit) := by
    refine Leaves.ofModify fun t => .aside ?_
    split <;> rfl
  refine Leaves.bind (Leaves.ofModify fun t => .aside rfl) fun _ => Leaves.bind Leaves.ofGet fun t => ?_
  refine Leaves.ite (Leaves.ofPure _) (Leaves.ite (Leaves.ofModify fun u => .aside ?_) ?_)
  · obtain ⟨d, hd⟩ := maybeArmTlp_eq u
    rw [hd]
    rfl
  · refine Leaves.bind Leaves.ofGet fun u => Leaves.ite ?_ (Leaves.ite ?_ (Leaves.ofPure _))
    · exact Leaves.bind (attends_output.emitNew _ _) fun _ => hnote _ _
    · exact Leaves.bind (attends_output.retransmit _) fun _ => hnote _ _

/-- Nothing is outstanding before a connection and after it. -/
lemma Ledger.idle {t : Tcb P} (h : Ledger t) (hbegun : t.begun = false) : t.sndUna = t.sndNxt := by
  rw [h.backlog.flight.una_eq_nxt_iff, (h.spent hbegun).2]
  cases hsyn : t.synUnacked with
  | false => rfl
  | true =>
    have hstate := (h.backlog.flight.syn hsyn).2.2
    simp only [begun, Bool.and_eq_false_iff, bne_eq_false_iff_eq] at hbegun
    rcases hbegun with hs | hs <;> rw [hs] at hstate <;> cases hstate

lemma heard_of_begun {t : Tcb P} (h : t.begun = true) (hsyn : t.state ≠ .synSent) : t.state.heard = true := by
  simp only [begun, Bool.and_eq_true, bne_iff_ne] at h
  cases hs : t.state <;> first | rfl | exact absurd hs hsyn | exact absurd hs h.1 | exact absurd hs h.2

/-- A tail loss probe is pending only while the peer is heard. -/
lemma heard_of_tlp {t : Tcb P} (h : Ledger t) (ht : Timed t) (harmed : t.tlpDeadline.isArmed = true) :
    t.state.heard = true := by
  have hout := ht.rto.mp (ht.tlp harmed).1
  refine heard_of_begun (t := t) ?_ fun hs => ?_
  · by_contra hbegun
    exact hout (h.idle (by simpa using hbegun))
  · rw [ht.handshake (.inl hs)] at harmed
    cases harmed

/-- Data is stuck only while the peer is heard. -/
lemma heard_of_stuck {t : Tcb P} (h : Ledger t) (hunsent : t.unsentBytes ≠ 0) (hidle : t.sndUna = t.sndNxt) :
    t.state.heard = true := by
  refine heard_of_begun (t := t) ?_ fun hs => ?_
  · by_contra hbegun
    refine hunsent (BitVec.eq_of_toNat_eq ?_)
    simp only [unsentBytes, toNat_satSub, (h.spent (by simpa using hbegun)).1, BitVec.toNat_ofNat,
      Nat.zero_mod, Nat.zero_sub]
    rfl
  · exact h.backlog.flight.una_ne_nxt_of_syn (h.backlog.flight.handshake (.inl hs)).1 hidle

lemma persistAgain_view (t : Tcb P) : Agree ackView t t.persistAgain := by
  unfold persistAgain
  dsimp only
  split <;> rfl

lemma onPersistTimer_acks {t : Tcb P} (h : Ledger t) : AckRun t (final (onPersistTimer t)) := by
  refine bind_at (AckRun.aside rfl) fun _ u hu => ?_
  have hheard (hunsent : u.unsentBytes ≠ 0) (hidle : u.sndUna = u.sndNxt) : u.state.heard = true := by
    cases hu
    exact heard_of_stuck (t := t) h hunsent hidle
  rw [run_get_bind]
  dsimp only
  split
  · exact .refl
  case isFalse hstuck =>
    simp only [not_or, not_not] at hstuck
    have hheard := hheard hstuck.1 hstuck.2
    split
    · exact AckRun.aside rfl
    split
    · exact bind_at (attends_output.emitNew _ _ u hheard).1 fun _ v _ => AckRun.aside (persistAgain_view v)
    · refine bind_at (emitProbe_attends _ u hheard).1 fun _ v _ => bind_at (AckRun.aside rfl) fun _ w _ => ?_
      rw [run_modify, final_ok]
      split
      · exact .single (.abort w)
      · exact AckRun.aside (persistAgain_view w)

lemma checkKeepalive_acks (t : Tcb P) : AckRun t (final (checkKeepalive t)) := by
  unfold checkKeepalive
  rw [run_get_bind]
  split
  · exact .refl
  split
  · exact AckRun.aside rfl
  case isFalse happlies =>
    have hheard : t.state.heard = true := by
      simp only [keepaliveApplies, not_not] at happlies
      cases hs : t.state <;> first | rfl | (rw [hs] at happlies; cases happlies)
    split
    · exact AckRun.aside rfl
    split
    · rw [run_modify, final_ok]
      split
      · exact .single (.closeClean t)
      · exact .single (.abort t)
    · refine bind_at (emitProbe_attends _ t hheard).1 fun sent u _ => AckRun.aside ?_
      rw [run_modify, final_ok]
      split <;> rfl

lemma checkUserTimeout_acks (t : Tcb P) : AckRun t t.checkUserTimeout := by
  unfold checkUserTimeout
  split
  · exact AckRun.aside rfl
  split
  · exact AckRun.aside rfl
  split
  · exact .single (.abort t)
  · exact .refl

/-- The last thing a tick does. -/
def ackTimer (now : U64) : TcbM P Unit := do
  let t ← get
  if t.pendingAck && t.ackDeadline.due now then sendPureAck else return ()

/-- A tick, or the rest of one, ends with output and the timer of delayed acknowledgments unless it ends
the connection; before that come events. -/
structure Ticks (now : U64) (t : Tcb P) (r : EStateM.Result Fault (Tcb P) Unit) : Prop where
  events : AckRun t (final r)
  last : ∀ t', r = .ok () t' → t'.state.heard = true → ∃ u v, AckRun t u ∧
    maybeSendData u = .ok () v ∧ ackTimer now v = .ok () t'

namespace Ticks

variable {now : U64} {t : Tcb P}

lemma ended {r : EStateM.Result Fault (Tcb P) Unit} (h : AckRun t (final r))
    (hover : ∀ t', r = .ok () t' → t'.state.heard = false) : Ticks now t r :=
  ⟨h, fun t' hrun hheard => by cases (hover t' hrun).symm.trans hheard⟩

lemma bind {α : Type} {x : TcbM P α} {f : α → TcbM P Unit} (hx : AckRun t (final (x t)))
    (hf : ∀ a u, x t = .ok a u → Ticks now u (f a u)) : Ticks now t ((x >>= f) t) := by
  refine bind_rule (fun a u hu => ?_) (fun e u hu => ?_)
  · rw [hu] at hx
    refine ⟨hx.trans (hf a u hu).events, fun t' hrun hheard => ?_⟩
    obtain ⟨v, w, hv, hlast⟩ := (hf a u hu).last t' hrun hheard
    exact ⟨v, w, hx.trans hv, hlast⟩
  · rw [hu] at hx
    exact ⟨hx, fun t' h => by cases h⟩

end Ticks

lemma heard_of_closed {t : Tcb P} (h : t.state = .closed) : t.state.heard = false := by
  rw [h]
  rfl

/-- The output of a tick and the timer of delayed acknowledgments. -/
lemma output_ticks {t : Tcb P} (h : PendingHeard t) (now : U64) :
    Ticks now t ((do maybeSendData; ackTimer now : TcbM P Unit) t) := by
  have hsend := (maybeSendData_acks t).1
  have hack {u : Tcb P} (hu : PendingHeard u) : AckRun u (final (ackTimer now u)) := by
    unfold ackTimer
    rw [run_get_bind]
    split
    case isTrue hdue =>
      rw [Bool.and_eq_true] at hdue
      exact (sendPureAck_attends u (hu hdue.1)).1
    case isFalse => exact .refl
  refine bind_rule (fun _ u hu => ?_) (fun e u hu => ?_)
  · rw [hu] at hsend
    exact ⟨hsend.trans (hack (hsend.pendingHeard h)), fun t' hrun _ => ⟨t, u, .refl, hu, hrun⟩⟩
  · rw [hu] at hsend
    exact ⟨hsend, fun t' h => by cases h⟩

lemma idleTimers_ticks {t : Tcb P} (h : PendingHeard t) (now : U64) : Ticks now t (idleTimers now t) := by
  refine Ticks.bind (checkKeepalive_acks t) fun _ u hu => ?_
  have hpu : PendingHeard u := by
    have hrun := checkKeepalive_acks t
    rw [hu] at hrun
    exact hrun.pendingHeard h
  refine Ticks.bind (checkUserTimeout_acks u) fun _ v hv => ?_
  have hpv : PendingHeard v := by
    cases hv
    exact (checkUserTimeout_acks u).pendingHeard hpu
  rw [run_get_bind]
  split
  case isTrue hclosed => exact .ended .refl fun t' h => by cases h; exact heard_of_closed hclosed
  case isFalse => exact output_ticks hpv now

lemma rackTimer_view (now : U64) (t : Tcb P) : Agree ackView t (t.rackTimer now) := by
  unfold rackTimer
  split
  · have hfound : Agree ackView t ({ t with rackDeadline := Deadline.OFF } : Tcb P).rackDetect.2 := rfl
    generalize ({ t with rackDeadline := Deadline.OFF } : Tcb P).rackDetect = d at *
    dsimp only
    split
    · split
      · exact hfound
      · exact hfound
    · exact hfound
  · rfl

lemma lateTimers_ticks (hbuf : P.BUF < 2 ^ 32) {t : Tcb P} (h : Ledger t) (hp : PendingHeard t) (now : U64) :
    Ticks now t (lateTimers now t) := by
  have hview := AckRun.aside (rackTimer_view now t)
  refine Ticks.bind hview fun _ u hu => ?_
  cases hu
  have hl : Ledger (t.rackTimer now) := (Ledger.stable hbuf).leads (s := none) (rackTimer_leads now t) h
  have hp := hview.pendingHeard hp
  generalize t.rackTimer now = u at *
  rw [run_get_bind]
  split
  · refine Ticks.bind (onPersistTimer_acks hl) fun _ v hv => ?_
    have hrun := onPersistTimer_acks hl
    rw [hv] at hrun
    rw [run_get_bind]
    split
    case isTrue hclosed => exact .ended .refl fun t' h => by cases h; exact heard_of_closed hclosed
    case isFalse => exact idleTimers_ticks (hrun.pendingHeard hp) now
  · exact idleTimers_ticks hp now

lemma onRto_acks (t : Tcb P) : AckRun t t.onRto := by
  have hblack (t : Tcb P) : Agree ackView t t.blackholeCheck := by
    unfold blackholeCheck
    split
    · rfl
    · dsimp only
      split <;> rfl
  have hrenege (t : Tcb P) : Agree ackView t t.renegeCheck := by
    unfold renegeCheck
    split <;> rfl
  unfold onRto
  extract_lets t₁ t₂ stats t₃ t₄
  split
  · exact AckRun.aside rfl
  split
  · exact .tail (AckRun.aside (rfl : Agree ackView t t₂)) (.abort t₂)
  · have h₄ : Agree ackView t t₄ :=
      trans_of (Agree ackView) (hblack t₃) (hrenege t₃.blackholeCheck)
    exact AckRun.aside h₄

/-- A tick is a sequence of events. -/
lemma runTimers_ticks (hbuf : P.BUF < 2 ^ 32) {t : Tcb P} (h : Ledger t) (ht : Timed t) (hp : PendingHeard t) :
    Ticks t.nowMs t (runTimers t) := by
  unfold runTimers
  rw [run_get_bind]
  split
  · exact .ended (.single (.ended rfl rfl rfl (.inl rfl))) fun t' h => by cases h; rfl
  split
  · refine .ended (reset_acks _ _ t) fun t' hrun => ?_
    rw [run_bind] at hrun
    split at hrun
    · cases hrun
      rfl
    · cases hrun
  refine Ticks.bind (handshakeTimer_acks t) fun _ u hu => ?_
  have hpu : PendingHeard u := by
    have hrun := handshakeTimer_acks t
    rw [hu] at hrun
    exact hrun.pendingHeard hp
  have hlu : Ledger u := by
    have hstep := (Ledger.stable hbuf).run (handshakeTimer_refines (s := none) t) h
    rwa [hu] at hstep
  have htu : Timed u := by
    have hstep := (Timed.stable hbuf).run (handshakeTimer_refines (s := none) t) ht
    rwa [hu] at hstep
  rw [run_get_bind]
  have hprobe : AckRun u (final ((if u.tlpDeadline.due t.nowMs then fireTlp else return () : TcbM P Unit) u)) := by
    split
    case isTrue hdue => exact (fireTlp_attends u (heard_of_tlp hlu htu (isArmed_of_due hdue))).1
    case isFalse => exact .refl
  refine Ticks.bind hprobe fun _ v hv => ?_
  rw [hv] at hprobe
  have hlv : Ledger v := by
    have hfire : Refines (machine none) (if u.tlpDeadline.due t.nowMs then fireTlp else return ()) u := by
      split
      · exact fireTlp_refines u
      · exact Refines.ofPure _ _
    have hstep := (Ledger.stable hbuf).run hfire hlu
    rwa [hv] at hstep
  have hpv := hprobe.pendingHeard hpu
  rw [run_get_bind]
  split
  · refine Ticks.bind (onRto_acks v) fun _ w hw => ?_
    cases hw
    rw [run_get_bind]
    split
    case isTrue hclosed => exact .ended .refl fun t' h => by cases h; exact heard_of_closed hclosed
    case isFalse =>
      exact lateTimers_ticks hbuf ((Ledger.stable hbuf).leads (s := none) (onRto_leads v) hlv)
        ((onRto_acks v).pendingHeard hpv) _
  · exact lateTimers_ticks hbuf hlv hpv _

end Tcb

end TcpSansIo
