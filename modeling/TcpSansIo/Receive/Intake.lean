import Mathlib.Logic.Relation
import TcpSansIo.Machine.Api

/-!
# What a segment brings in

`Intake seg t t'` is one thing an acceptable segment does to the receive side: report bytes that came
before, append text at `RCV.NXT`, park text beyond it, consume or hold a FIN.  `receiveSegment` is a
sequence of these (`receiveSegment_intake`).

* `Intake.frame`: nothing but the receive side, the state and the timers of the closing states moves.
* `Advances n fin`: `n` bytes became readable at the end of the stream and, if `fin`, the peer's FIN
  was consumed after them (`receiveSegment_advances`).
-/

namespace TcpSansIo

open Proc FixedWidth

variable {P : Params}

namespace Tcb

/-! ## Intake -/

/-- One thing an acceptable segment does to the receive side. -/
inductive Intake (seg : Segment) : Tcb P → Tcb P → Prop
  | old {t : Tcb P} {n : ℕ} (hstate : t.state.canRecv = true) (hlt : seqLt seg.seq t.rcvNxt) :
      Intake seg t ((t.countDup n).noteDsack seg.seq t.rcvNxt)
  | inOrder {t : Tcb P} {data : List U8} (hstate : t.state.canRecv = true)
      (hle : ¬ seqGt seg.seq t.rcvNxt)
      (hdata : data <+: seg.payload.drop (t.rcvNxt - seg.seq).toNat)
      (hfit : data.length ≤ t.recvRing.free) :
      Intake seg t (t.receiveInOrder data (t.processedFin seg)).2
  | park {t : Tcb P} {data : List U8} (hstate : t.state.canRecv = true)
      (hlt : ¬ seqLt seg.seq t.rcvNxt) (hgap : seg.seq ≠ t.rcvNxt) (hdata : data <+: seg.payload)
      (hne : data ≠ []) (hfit : (seg.seq - t.rcvNxt).toNat + data.length ≤ t.recvRing.free) :
      Intake seg t (t.receiveOutOfOrder seg.seq (seg.seq - t.rcvNxt).toNat data)
  | fin {t : Tcb P} (hstate : t.state.canRecv = true) (hfin : seg.flags.fin = true) :
      Intake seg t (t.receiveFin seg.seq (seg.seq + seg.payloadLen))
  | heldFin {t : Tcb P} : Intake seg t t.maybeConsumeOooFin.2

/-- A sequence of intakes. -/
abbrev Takes (seg : Segment) : Tcb P → Tcb P → Prop := Relation.ReflTransGen (Intake seg)

lemma receiveText_takes {t : Tcb P} {seg : Segment} {seq : U32} {data : List U8}
    (hstate : t.state.canRecv = true) (hne : data ≠ [])
    (h : seq = t.rcvNxt ∧ ¬ seqGt seg.seq t.rcvNxt ∧
        data = seg.payload.drop (t.rcvNxt - seg.seq).toNat ∨
      seq = seg.seq ∧ ¬ seqLt seg.seq t.rcvNxt ∧ data = seg.payload) (ackNow : Bool) :
    Takes seg t (t.receiveText seq data (t.processedFin seg) ackNow).2 := by
  unfold receiveText
  dsimp only
  split
  · exact .refl
  case isFalse hroom =>
    have hfit : (seq - t.rcvNxt).toNat + (data.take (t.recvRing.free - (seq - t.rcvNxt).toNat)).length
        ≤ t.recvRing.free := by
      rw [List.length_take]
      omega
    split
    case isTrue hoff =>
      have hseq : seq = t.rcvNxt := by
        have hzero : seq - t.rcvNxt = 0 := BitVec.eq_of_toNat_eq hoff
        bv_omega
      refine .single (.inOrder hstate ?_ ?_ (by omega))
      · rcases h with ⟨-, h, -⟩ | ⟨h, -, -⟩
        · exact h
        · rw [← h, hseq, seqGt_iff, BitVec.sub_self]
          simp
      · refine (List.take_prefix _ _).trans ?_
        rcases h with ⟨-, -, h⟩ | ⟨h, -, hd⟩
        · rw [h]
        · rw [← h, hseq, BitVec.sub_self, hd]
          exact List.prefix_rfl
    case isFalse hoff =>
      rcases h with ⟨h, -, -⟩ | ⟨h, hlt, hd⟩
      · rw [h, BitVec.sub_self] at hoff
        exact absurd rfl hoff
      · subst h
        refine .single (.park hstate hlt (fun h => ?_) ?_ ?_ hfit)
        · rw [h, BitVec.sub_self] at hoff
          exact absurd rfl hoff
        · rw [hd]
          exact List.take_prefix _ _
        · rw [Ne, List.take_eq_nil_iff, not_or]
          exact ⟨by omega, hne⟩

lemma takeText_takes {t : Tcb P} (hstate : t.state.canRecv = true) (seg : Segment) :
    Takes seg t (t.takeText seg (t.processedFin seg)).2 := by
  unfold takeText
  split
  · exact .refl
  case isFalse hne =>
    rw [List.isEmpty_iff] at hne
    unfold receivePayload
    split
    case isTrue hlt =>
      dsimp only
      split
      · exact .refl
      case isFalse hrest =>
        rw [List.isEmpty_iff] at hrest
        have hle : ¬ seqGt seg.seq t.rcvNxt := by
          rw [seqLt_iff] at hlt
          rw [seqGt_iff]
          exact fun h => absurd h.2 (not_lt.mpr hlt)
        refine .head (.old (n := (t.rcvNxt - seg.seq).toNat) hstate hlt) ?_
        exact receiveText_takes
          (t := (t.countDup (t.rcvNxt - seg.seq).toNat).noteDsack seg.seq t.rcvNxt) hstate hrest
          (.inl ⟨rfl, hle, rfl⟩) true
    case isFalse hlt => exact receiveText_takes hstate hne (.inr ⟨rfl, hlt, rfl⟩) false

lemma state_takeText (t : Tcb P) (seg : Segment) (segFin : Option U32) :
    (t.takeText seg segFin).2.state = t.state := (takeText_text t seg segFin).of Tcb.state

/-- Last of all, a held FIN that was reached is consumed. -/
lemma receiveSegment_last {t : Tcb P} (hstate : t.state.canRecv = true) (seg : Segment) :
    ∃ u, Takes seg t u ∧ (t.receiveSegment seg).2 = u.maybeConsumeOooFin.2 := by
  unfold receiveSegment
  rw [if_neg (not_not.mpr hstate)]
  refine ⟨_, Relation.ReflTransGen.trans (takeText_takes hstate seg) ?_, rfl⟩
  unfold takeFin
  split
  case h_1 f hf =>
    unfold processedFin at hf
    dsimp only at hf
    split at hf
    case isTrue hfin =>
      cases hf
      rw [Bool.and_eq_true] at hfin
      refine .single (.fin ?_ hfin.1)
      rw [state_takeText]
      exact hstate
    case isFalse => cases hf
  case h_2 => exact .refl

lemma receiveSegment_takes (t : Tcb P) (seg : Segment) : Takes seg t (t.receiveSegment seg).2 := by
  by_cases hstate : t.state.canRecv = true
  · obtain ⟨u, htakes, hlast⟩ := receiveSegment_last hstate seg
    rw [hlast]
    exact .tail htakes .heldFin
  · unfold receiveSegment
    rw [if_pos hstate]

/-! ## What an intake leaves alone -/

/-- The block without what taking a segment's text and FIN writes. -/
def exceptIntake (t : Tcb P) : Tcb P :=
  { t.exceptText with
    state := .closed
    toCloseTimers := (zeroed : Tcb P).toCloseTimers
    keepaliveDeadline := Deadline.OFF
    userTimeoutDeadline := Deadline.OFF }

lemma consumeFin_frame (t : Tcb P) : Agree exceptIntake t t.consumeFin := by
  unfold consumeFin advanceStateOnRemoteFin
  split
  · rfl
  · split <;> rfl
  · rfl
  · rfl

lemma Intake.frame {seg : Segment} {t t' : Tcb P} (h : Intake seg t t') : Agree exceptIntake t t' := by
  have of_text {t t' : Tcb P} (h : Agree exceptText t t') : Agree exceptIntake t t' :=
    h.of exceptIntake
  cases h with
  | old => rfl
  | inOrder => exact of_text (receiveInOrder_text _ _ _)
  | park => exact of_text (receiveOutOfOrder_text _ _ _ _)
  | fin =>
    unfold receiveFin
    split
    · exact consumeFin_frame t
    split
    · split
      · split <;> rfl
      · rfl
    · rfl
  | heldFin =>
    unfold maybeConsumeOooFin
    split
    · exact consumeFin_frame t
    · rfl

/-- A segment's text and FIN move the receive side, the state and the closing timers only. -/
lemma receiveSegment_frame (t : Tcb P) (seg : Segment) :
    Agree exceptIntake t (t.receiveSegment seg).2 := by
  generalize (t.receiveSegment seg).2 = t', receiveSegment_takes t seg = h
  induction h with
  | refl => rfl
  | tail _ hstep ih => exact trans_of (Agree exceptIntake) ih hstep.frame

/-! ## Where the peer's FIN takes the state -/

/-- The state after the peer's FIN. -/
def finNext (t : Tcb P) : State :=
  match t.state with
  | .established => .closeWait
  | .finWait1 => if t.finSent ∧ t.sndUna = t.sndNxt then .timeWait else .closing
  | .finWait2 => .timeWait
  | s => s

lemma consumeFin_state (t : Tcb P) : t.consumeFin.state = t.finNext := by
  unfold consumeFin advanceStateOnRemoteFin finNext
  dsimp only
  cases hs : t.state with
  | finWait1 =>
    dsimp only
    split <;> rfl
  | _ => rfl

lemma finNext_canRecv {t : Tcb P} (h : t.state.canRecv = true) : t.finNext.canRecv = false := by
  unfold finNext
  split
  · rfl
  · split <;> rfl
  · rfl
  case h_4 h₁ h₂ h₃ => cases hs : t.state <;> simp_all [State.canRecv]

lemma finNext_of_frame {t t' : Tcb P} (h : Agree exceptIntake t t') (hstate : t'.state = t.state) :
    t'.finNext = t.finNext := by
  have hfin : t'.finSent = t.finSent := h.of fun t => t.finSent
  have huna : t'.sndUna = t.sndUna := h.of fun t => t.sndUna
  have hnxt : t'.sndNxt = t.sndNxt := h.of fun t => t.sndNxt
  unfold finNext
  rw [hstate, hfin, huna, hnxt]

lemma Intake.state {seg : Segment} {t t' : Tcb P} (h : Intake seg t t') :
    t'.state = t.state ∨ (t.state.canRecv = true ∧ t'.state = t.finNext) := by
  cases h with
  | old => exact .inl rfl
  | inOrder => exact .inl ((receiveInOrder_text _ _ _).of Tcb.state)
  | park => exact .inl ((receiveOutOfOrder_text _ _ _ _).of Tcb.state)
  | fin hstate =>
    unfold receiveFin
    split
    · exact .inr ⟨hstate, consumeFin_state t⟩
    split
    · split
      · split <;> exact .inl rfl
      · exact .inl rfl
    · exact .inl rfl
  | heldFin =>
    unfold maybeConsumeOooFin
    split
    case isTrue h =>
      rw [Bool.and_eq_true] at h
      exact .inr ⟨h.2, consumeFin_state t⟩
    case isFalse => exact .inl rfl

/-- A segment leaves the state alone, or its FIN (or a held one) moves it. -/
lemma receiveSegment_state (t : Tcb P) (seg : Segment) :
    (t.receiveSegment seg).2.state = t.state ∨
      (t.state.canRecv = true ∧ (t.receiveSegment seg).2.state = t.finNext) := by
  have hinv : Agree exceptIntake t (t.receiveSegment seg).2 ∧
      ((t.receiveSegment seg).2.state = t.state ∨
        (t.state.canRecv = true ∧ (t.receiveSegment seg).2.state = t.finNext)) := by
    generalize (t.receiveSegment seg).2 = t', receiveSegment_takes t seg = h
    induction h with
    | refl => exact ⟨rfl, .inl rfl⟩
    | tail _ hstep ih =>
      refine ⟨trans_of (Agree exceptIntake) ih.1 hstep.frame, ?_⟩
      rcases hstep.state with hsame | ⟨hrecv, hnext⟩
      · rw [hsame]
        exact ih.2
      · rcases ih.2 with hst | ⟨hrecv', hst⟩
        · rw [hst] at hrecv
          exact .inr ⟨hrecv, by rw [hnext, finNext_of_frame ih.1 hst]⟩
        · rw [hst, finNext_canRecv hrecv'] at hrecv
          cases hrecv
  exact hinv.2

lemma finNext_isSynchronized {t : Tcb P} (h : t.state.isSynchronized = true) :
    t.finNext.isSynchronized = true := by
  unfold finNext
  split
  · rfl
  · split <;> rfl
  · rfl
  · exact h

lemma isSynchronized_of_canRecv {s : State} (h : s.canRecv = true) : s.isSynchronized = true := by
  cases s <;> simp_all [State.canRecv, State.isSynchronized]

lemma receiveSegment_isSynchronized {t : Tcb P} (seg : Segment) (h : t.state.isSynchronized = true) :
    (t.receiveSegment seg).2.state.isSynchronized = true := by
  rcases receiveSegment_state t seg with hst | ⟨-, hst⟩
  · rw [hst]
    exact h
  · rw [hst]
    exact finNext_isSynchronized h

/-- The 2·MSL timer runs in TIME_WAIT only. -/
lemma consumeFin_timeWait {t : Tcb P} (h : t.timeWaitDeadline.isArmed = true → t.state = .timeWait)
    (harmed : t.consumeFin.timeWaitDeadline.isArmed = true) : t.consumeFin.state = .timeWait := by
  unfold consumeFin advanceStateOnRemoteFin at harmed ⊢
  dsimp only at harmed ⊢
  cases hs : t.state with
  | finWait1 =>
    rw [hs] at harmed h
    dsimp only at harmed ⊢
    split at harmed
    case isTrue hfin =>
      rw [if_pos hfin]
    case isFalse => cases h harmed
  | finWait2 => rfl
  | timeWait => rfl
  | _ =>
    rw [hs] at harmed h
    cases h harmed

lemma Intake.timeWait {seg : Segment} {t t' : Tcb P} (hstep : Intake seg t t')
    (h : t.timeWaitDeadline.isArmed = true → t.state = .timeWait) :
    t'.timeWaitDeadline.isArmed = true → t'.state = .timeWait := by
  have of_text {u : Tcb P} (hu : Agree exceptText t u) :
      u.timeWaitDeadline.isArmed = true → u.state = .timeWait := by
    rw [show u.timeWaitDeadline = t.timeWaitDeadline from hu.of fun t => t.timeWaitDeadline,
      show u.state = t.state from hu.of Tcb.state]
    exact h
  cases hstep with
  | old => exact h
  | inOrder => exact of_text (receiveInOrder_text _ _ _)
  | park => exact of_text (receiveOutOfOrder_text _ _ _ _)
  | fin =>
    unfold receiveFin
    split
    · exact consumeFin_timeWait h
    split
    · split
      · split <;> exact h
      · exact h
    · exact h
  | heldFin =>
    unfold maybeConsumeOooFin
    split
    · exact consumeFin_timeWait h
    · exact h

lemma receiveSegment_timeWait {t : Tcb P} (seg : Segment)
    (h : t.timeWaitDeadline.isArmed = true → t.state = .timeWait) :
    (t.receiveSegment seg).2.timeWaitDeadline.isArmed = true →
      (t.receiveSegment seg).2.state = .timeWait := by
  generalize (t.receiveSegment seg).2 = t', receiveSegment_takes t seg = htakes
  induction htakes with
  | refl => exact h
  | tail _ hstep ih => exact hstep.timeWait ih

/-! ## What an intake adds -/

/-- `n` bytes became readable and, if `fin`, the peer's FIN was consumed after them. -/
structure Advances (t t' : Tcb P) (n : ℕ) (fin : Bool) : Prop where
  nxt : t'.rcvNxt = t.rcvNxt + BitVec.ofNat 32 n + ofFlag 32 fin
  len : t'.recvRing.len = t.recvRing.len + n
  stream : t.recvRing.contents <+: t'.recvRing.contents
  irs : t'.irs = t.irs
  delivered : t'.delivered = t.delivered
  recv : t'.state.canRecv = (t.state.canRecv && !fin)
  once : fin = true → t.state.canRecv = true

namespace Advances

variable {t t' t'' : Tcb P} {n m : ℕ} {f g : Bool}

lemma refl (t : Tcb P) : Advances t t 0 false := by
  refine ⟨?_, rfl, List.prefix_rfl, rfl, rfl, ?_, nofun⟩
  · simp [ofFlag]
  · simp

/-- Nothing is readable after the FIN. -/
lemma trans (h : Advances t t' n f) (h' : Advances t' t'' m g) (hm : f = true → m = 0) :
    Advances t t'' (n + m) (f || g) where
  nxt := by
    have hg := h'.once
    rw [h'.nxt, h.nxt]
    rw [h.recv] at hg
    cases f with
    | false =>
      rw [Bool.false_or, BitVec.ofNat_add, show ofFlag 32 false = 0#32 from rfl, BitVec.add_zero,
        BitVec.add_assoc t.rcvNxt]
    | true =>
      have hg' : g = false := by
        cases g with
        | false => rfl
        | true => simp at hg
      rw [hm rfl, hg']
      simp [ofFlag]
  len := by
    rw [h'.len, h.len]
    omega
  stream := h.stream.trans h'.stream
  irs := h'.irs.trans h.irs
  delivered := h'.delivered.trans h.delivered
  recv := by
    rw [h'.recv, h.recv, Bool.and_assoc, Bool.not_or]
  once := by
    intro hfg
    rcases Bool.or_eq_true_iff.mp hfg with hf | hg
    · exact h.once hf
    · have hrecv := h'.once hg
      rw [h.recv, Bool.and_eq_true] at hrecv
      exact hrecv.1

end Advances

lemma appendText_advances (t : Tcb P) (data : List U8) :
    Advances t (t.appendText data) (min data.length t.recvRing.free) false where
  nxt := by
    unfold appendText
    dsimp only
    rw [Ring.fst_write]
    simp [ofFlag]
  len := Ring.len_write _ _
  stream := by
    rw [show (t.appendText data).recvRing = (t.recvRing.write data).2 from rfl, Ring.contents_write]
    exact List.prefix_append _ _
  irs := rfl
  delivered := rfl
  recv := by simp [appendText]
  once := nofun

lemma absorbOoo_advances (t : Tcb P) (segFin : Option U32) :
    ∃ n, Advances t (t.absorbOoo segFin).2 n false := by
  unfold absorbOoo
  dsimp only
  split
  · exact ⟨0, { Advances.refl t with }⟩
  · generalize hn : BitVec.toNat (_ - t.rcvNxt) = n
    refine ⟨min n t.recvRing.free, ?_, rfl, ?_, rfl, rfl, ?_, nofun⟩
    · simp [ofFlag, Ring.commit]
    · rw [Ring.contents_commit]
      exact List.prefix_append _ _
    · simp

lemma receiveOutOfOrder_advances (t : Tcb P) (seq : U32) (off : ℕ) (data : List U8) :
    Advances t (t.receiveOutOfOrder seq off data) 0 false := by
  unfold receiveOutOfOrder
  dsimp only
  split
  · split
    all_goals
      refine ⟨?_, ?_, ?_, rfl, rfl, ?_, nofun⟩
      · simp [ofFlag, noteDsack, countDup]
      · exact Ring.len_writeAt _ _ _
      · exact (Ring.contents_writeAt t.recvRing off data).symm ▸ List.prefix_rfl
      · simp [noteDsack, countDup]
  · exact { Advances.refl t with }

lemma consumeFin_advances {t : Tcb P} (hstate : t.state.canRecv = true) :
    Advances t t.consumeFin 0 true := by
  unfold consumeFin advanceStateOnRemoteFin
  dsimp only
  split
  case h_4 h₁ h₂ h₃ => cases hs : t.state <;> simp_all [State.canRecv]
  case h_2 =>
    split
    all_goals
      refine ⟨?_, rfl, List.prefix_rfl, rfl, rfl, ?_, fun _ => hstate⟩
      · simp [ofFlag, enterTimeWait]
      · simp [State.canRecv]
  all_goals
    refine ⟨?_, rfl, List.prefix_rfl, rfl, rfl, ?_, fun _ => hstate⟩
    · simp [ofFlag, enterTimeWait]
    · simp [State.canRecv]

lemma receiveFin_advances {t : Tcb P} (hstate : t.state.canRecv = true) (start fin : U32) :
    ∃ f, Advances t (t.receiveFin start fin) 0 f := by
  unfold receiveFin
  split
  · exact ⟨true, consumeFin_advances hstate⟩
  split
  · split
    · split
      · exact ⟨false, .refl t⟩
      · exact ⟨false, { Advances.refl t with }⟩
    · exact ⟨false, { Advances.refl t with }⟩
  · exact ⟨false, .refl t⟩

lemma Intake.advances {seg : Segment} {t t' : Tcb P} (h : Intake seg t t') :
    ∃ n f, Advances t t' n f ∧ (t.state.canRecv = false → n = 0) := by
  cases h with
  | old hstate =>
    refine ⟨0, false, { Advances.refl t with }, fun _ => rfl⟩
  | @inOrder data hstate =>
    obtain ⟨n, hn⟩ := absorbOoo_advances (t.appendText data) (t.processedFin seg)
    refine ⟨_, _, (appendText_advances t data).trans hn nofun, fun h => ?_⟩
    rw [h] at hstate
    cases hstate
  | park => exact ⟨0, false, receiveOutOfOrder_advances _ _ _ _, fun _ => rfl⟩
  | fin hstate =>
    obtain ⟨f, hf⟩ := receiveFin_advances hstate seg.seq (seg.seq + seg.payloadLen)
    exact ⟨0, f, hf, fun _ => rfl⟩
  | heldFin =>
    unfold maybeConsumeOooFin
    split
    case isTrue h =>
      rw [Bool.and_eq_true] at h
      exact ⟨0, true, consumeFin_advances h.2, fun _ => rfl⟩
    case isFalse => exact ⟨0, false, .refl t, fun _ => rfl⟩

/-- A segment appends bytes to the stream, and its FIN or a held one ends the stream. -/
lemma receiveSegment_advances (t : Tcb P) (seg : Segment) :
    ∃ n f, Advances t (t.receiveSegment seg).2 n f := by
  generalize (t.receiveSegment seg).2 = t', receiveSegment_takes t seg = h
  induction h with
  | refl => exact ⟨0, false, .refl t⟩
  | tail _ hstep ih =>
    obtain ⟨n, f, h⟩ := ih
    obtain ⟨m, g, h', hm⟩ := hstep.advances
    refine ⟨n + m, f || g, h.trans h' fun hf => hm ?_⟩
    rw [h.recv, hf]
    exact Bool.and_false _

end Tcb

end TcpSansIo
