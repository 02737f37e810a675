import TcpSansIo.Rtx.Arrived
import TcpSansIo.Tcb.Calls
import TcpSansIo.Transitions

/-!
# What happens between two ACKs

Everything but the reaction to an ACK leaves the send side of a connection much as it is: sequence
numbers are added behind `SND.NXT`, none of which has arrived, and a timeout may forget what has.
`Carries` says this, together with what becomes of a reduction of the congestion window that must last
(`Pend`).  `Moved` adds that the connection may also end, or another one begin.

All the output functions are of this kind (`Extends`), and so are a tick (`moved_timer`), the quiet part of
a segment (`moved_quiet`) and the other calls.
-/

namespace TcpSansIo

open Proc FixedWidth

variable {P : Params}

namespace Tcb

/-- For every sequence number outstanding beyond our SYN, in order, whether it was SACKed. -/
def line (t : Tcb P) : List Bool := arrived t.rtx.records

/-- Where a reduction of the congestion window stands: the state, the sequence number that ends it, and
whether a D-SACK can still undo it. -/
def phase (t : Tcb P) : CaState × U32 × Bool := (t.cc.state, t.cc.recoveryPoint, t.cc.undoValid)

/-! ## Output -/

/-- Sequence numbers were sent for the first time, if anything. -/
structure Extends (t t' : Tcb P) : Prop where
  phase : t'.phase = t.phase
  out : ∃ n : ℕ, t'.sndNxt = t.sndNxt + BitVec.ofNat 32 n ∧ t'.line = t.line ++ List.replicate n false

namespace Extends

variable {t t' : Tcb P}

lemma of_same (hphase : t'.phase = t.phase) (hnxt : t'.sndNxt = t.sndNxt) (hline : t'.line = t.line) :
    Extends t t' :=
  ⟨hphase, 0, by rw [hnxt]; exact (BitVec.add_zero _).symm, by rw [hline]; exact (List.append_nil _).symm⟩

instance : Std.Refl (Extends (P := P)) := ⟨fun _ => of_same rfl rfl rfl⟩

instance : IsTrans (Tcb P) Extends where
  trans _ _ _ h h' := by
    obtain ⟨n, hnxt, hline⟩ := h.out
    obtain ⟨n', hnxt', hline'⟩ := h'.out
    refine ⟨h'.phase.trans h.phase, n + n', ?_, ?_⟩
    · rw [hnxt', hnxt, BitVec.ofNat_add, BitVec.add_assoc]
    · rw [hline', hline, List.append_assoc, List.replicate_append_replicate]

lemma of_emit (h : Agree exceptEmit t t') : Extends t t' :=
  of_same (h.of Tcb.phase) (h.of fun t => t.sndNxt) (h.of Tcb.line)

lemma ofEmit {α : Type} {x : TcbM P α} (h : Leaves (Agree exceptEmit) x) : Leaves Extends x :=
  h.mono fun _ _ => of_emit

end Extends

lemma onSend_phase (r : Reno) (n : U32) :
    (r.onSend n).state = r.state ∧ (r.onSend n).recoveryPoint = r.recoveryPoint ∧
      (r.onSend n).undoValid = r.undoValid := by
  unfold Reno.onSend
  split <;> exact ⟨rfl, rfl, rfl⟩

lemma onRetransmit_phase (r : Reno) :
    r.onRetransmit.state = r.state ∧ r.onRetransmit.recoveryPoint = r.recoveryPoint ∧
      r.onRetransmit.undoValid = r.undoValid := by
  unfold Reno.onRetransmit
  split <;> exact ⟨rfl, rfl, rfl⟩

/-- The bookkeeping of a first transmission moves `SND.NXT`. -/
lemma noteNew_moves (seq len seqLen : U32) (fin : Bool) (t : Tcb P) :
    (noteNew seq len seqLen fin t).sndNxt = seq + seqLen ∧
      (noteNew seq len seqLen fin t).phase = t.phase ∧
      (noteNew seq len seqLen fin t).line = t.line := by
  obtain ⟨h₁, h₂, h₃⟩ := onSend_phase t.cc seqLen
  unfold noteNew
  obtain ⟨d, hd⟩ := maybeArmTlp_eq (countSent len (advanceNxt seq len seqLen fin t)).ensureRto
  obtain ⟨d', hd'⟩ := ensureRto_eq (countSent len (advanceNxt seq len seqLen fin t))
  rw [hd, hd']
  unfold countSent
  have hphase : (advanceNxt seq len seqLen fin t).phase = t.phase := by
    unfold advanceNxt phase
    dsimp only
    rw [h₁, h₂, h₃]
  split
  · exact ⟨rfl, hphase, rfl⟩
  · exact ⟨rfl, hphase, rfl⟩

/-- A record that is pushed at `SND.NXT`, and the move of `SND.NXT` to its end. -/
lemma noteNew_extends {t : Tcb P} {s : Seg} (len seqLen : U32) (fin : Bool)
    (hstart : s.start = t.sndNxt) (hstop : s.stop = t.sndNxt + seqLen) (hnew : s.flags.sacked = false)
    (hpushed : (t.rtx.push s).1 = true) :
    Extends t (noteNew t.sndNxt len seqLen fin { t with rtx := (t.rtx.push s).2 }) := by
  obtain ⟨hnxt, hphase, hline⟩ := noteNew_moves t.sndNxt len seqLen fin { t with rtx := (t.rtx.push s).2 }
  have hsize : s.seqLen = seqLen := by
    rw [Seg.seqLen, hstart, hstop, BitVec.add_comm, BitVec.add_sub_cancel]
  have hpush := RtxQueue.arrived_push t.rtx s
  rw [if_pos hpushed, hsize, hnew] at hpush
  refine ⟨hphase, seqLen.toNat, ?_, hline.trans hpush⟩
  rw [hnxt, BitVec.ofNat_toNat, BitVec.setWidth_eq]

lemma emitNew_extends (len : U32) (fin : Bool) : Leaves (Extends (P := P)) (emitNew len fin) := by
  refine Leaves.ofGetBind fun t => ?_
  dsimp only
  split
  · exact refl_of Extends t
  have hemit := emitDataSegment_footprint (P := P) { ack := true, psh := decide (0 < len.toNat), fin := fin }
    t.sndNxt ⟨(t.sndNxt - t.dataUna).toNat, len.toNat⟩ (decide (0 < len.toNat)) t
  refine bind_at (Extends.of_emit hemit) fun queued u hu => ?_
  rw [hu] at hemit
  have hnxt : u.sndNxt = t.sndNxt := hemit.of fun t => t.sndNxt
  split
  · rw [run_bind, run_modifyGet]
    dsimp only
    rw [← hnxt]
    split
    case isTrue hpushed => exact noteNew_extends _ _ _ rfl rfl rfl hpushed
    case isFalse hfull =>
      refine Extends.of_same rfl rfl ?_
      have hpush := RtxQueue.arrived_push u.rtx
      exact (hpush _).trans (if_neg hfull)
  · exact refl_of Extends u

lemma splitForMss_extends (i : ℕ) {s : Seg} {t : Tcb P} (hs : t.rtx.get i = some s) :
    Extends t (splitForMss i s t) := by
  unfold splitForMss
  split
  · refine Extends.of_same rfl rfl (RtxQueue.arrived_split t.rtx i _ fun x hx => .inr ?_)
    rw [hs] at hx
    cases hx
    have hsub : s.start + t.mssPayload - s.start = t.mssPayload := by
      rw [BitVec.add_comm, BitVec.add_sub_cancel]
    have hcap := t.mssCap.isLt
    rw [hsub, mssPayload, toNat_maxB, toNat_satSub, BitVec.toNat_setWidth]
    have hmod := Nat.mod_le t.mssCap.toNat (2 ^ 32)
    have hone : (1 : U32).toNat = 1 := rfl
    omega
  · exact refl_of Extends t

lemma noteRetransmit_extends (i : ℕ) (s : Seg) (plen sentLen : U32) (t : Tcb P) :
    Extends t (noteRetransmit i s plen sentLen t) := by
  obtain ⟨h₁, h₂, h₃⟩ := onSend_phase t.cc sentLen
  obtain ⟨h₁', h₂', h₃'⟩ := onRetransmit_phase (t.cc.onSend sentLen)
  unfold noteRetransmit
  obtain ⟨d, hd⟩ := ensureRto_eq (P := P) _
  rw [hd]
  refine Extends.of_same ?_ rfl ?_
  · unfold phase
    dsimp only
    rw [h₁', h₂', h₃', h₁, h₂, h₃]
  · unfold line
    dsimp only
    split
    · exact RtxQueue.arrived_retransmitted _ _ _ _
    · exact RtxQueue.arrived_retransmitted _ _ _ _

lemma resend_extends (i : ℕ) (s : Seg) : Leaves (Extends (P := P)) (resend i s) := by
  refine Leaves.bind Leaves.ofGet fun t => ?_
  dsimp only
  split
  · exact Leaves.ofThrow _
  refine Leaves.bind (Extends.ofEmit (emitDataSegment_footprint _ _ _ _)) fun queued => ?_
  exact Leaves.ite
    (Leaves.bind (Leaves.ofModify (noteRetransmit_extends _ _ _ _)) fun _ => Leaves.ofPure _)
    (Leaves.ofPure _)

lemma failProbeOver_queue (s : Seg) (t : Tcb P) :
    (failProbeOver s t).rtx = t.rtx ∧ Extends t (failProbeOver s t) := by
  unfold failProbeOver
  split
  · exact ⟨rfl, Extends.of_same rfl rfl rfl⟩
  · exact ⟨rfl, refl_of Extends t⟩

lemma retransmit_extends (i : ℕ) : Leaves (Extends (P := P)) (retransmit i) := by
  refine Leaves.ofGetBind fun t => ?_
  cases hs : t.rtx.get i with
  | none => exact refl_of Extends t
  | some s =>
    obtain ⟨hqueue, hfail⟩ := failProbeOver_queue s t
    refine trans_of Extends hfail (trans_of Extends (splitForMss_extends i ?_) (resend_extends _ _ _))
    rw [hqueue]
    exact hs

lemma sendNew_extends : Leaves (Extends (P := P)) sendNew := by
  have hidle (mss : U32) (t : Tcb P) : Extends t (idleRestart mss t) := by
    unfold idleRestart
    split
    · refine Extends.of_same ?_ rfl rfl
      unfold phase Reno.onIdleRestart
      dsimp only
      split <;> rfl
    · exact refl_of Extends t
  have hprobe (seq : U32) (probe : Option (U32 × U16)) (t : Tcb P) : Extends t (t.noteProbe seq probe) := by
    unfold noteProbe
    split
    · exact Extends.of_same rfl rfl rfl
    · exact refl_of Extends t
  refine Leaves.bind Leaves.ofGet fun t => ?_
  refine Leaves.ite (Leaves.ite (emitNew_extends _ _) (Leaves.ofPure _)) ?_
  refine Leaves.ite (Leaves.ofPure _) (Leaves.ite ?_ ?_)
  · exact Leaves.bind (Leaves.ofModify fun _ => Extends.of_same rfl rfl rfl) fun _ => Leaves.ofPure _
  split
  · exact Leaves.ofPure _
  refine Leaves.bind (Leaves.ofModify (hidle _)) fun _ => Leaves.bind (emitNew_extends _ _) fun _ => ?_
  refine Leaves.bind (Leaves.ofModify fun t' => ?_) fun _ => Leaves.ofPure _
  split
  · exact hprobe _ _ _
  · exact refl_of Extends t'

lemma sendOne_extends : Leaves (Extends (P := P)) sendOne := by
  refine Leaves.bind (Leaves.ofModifyGet fun t => ?_) fun next => ?_
  · exact Extends.of_same rfl rfl (RtxQueue.arrived_nextLost t.rtx)
  split
  · refine Leaves.bind Leaves.ofGet fun t => Leaves.ite ?_ (retransmit_extends _)
    exact Leaves.bind (Leaves.ofModify fun _ => Extends.of_same rfl rfl rfl) fun _ => Leaves.ofPure _
  · exact sendNew_extends

lemma sendLoop_extends (fuel : ℕ) (guard : U32) : Leaves (Extends (P := P)) (sendLoop fuel guard) := by
  induction fuel generalizing guard with
  | zero => exact Leaves.ofThrow _
  | succ fuel ih =>
    refine Leaves.bind Leaves.ofGet fun t => Leaves.ite (Leaves.ofPure _) ?_
    split
    · exact Leaves.ofThrow _
    refine Leaves.ite (Leaves.ite (Leaves.ofThrow _) (Leaves.ofPure _)) ?_
    exact Leaves.bind sendOne_extends fun _ => Leaves.ite (ih _) (Leaves.ofPure _)

lemma maybeSendData_extends : Leaves (Extends (P := P)) maybeSendData := by
  have hpersist (t : Tcb P) : Extends t t.updatePersist := by
    unfold updatePersist
    dsimp only
    split
    · exact Extends.of_same rfl rfl rfl
    · split
      · exact Extends.of_same rfl rfl rfl
      · exact refl_of Extends t
  exact Leaves.bind Leaves.ofGet fun _ => Leaves.ite (Leaves.ofPure _)
    (Leaves.bind (sendLoop_extends _ _) fun _ => Leaves.ofModify hpersist)

/-! ## Reductions that must last -/

/-- The congestion window is reduced, and stays so until at least `d` more sequence numbers are
acknowledged: no D-SACK can undo the reduction, and it ends that far beyond `SND.UNA` or later. -/
structure Pend (d : ℕ) (t : Tcb P) : Prop where
  reduced : t.cc.state ≠ .opened
  kept : t.cc.undoValid = false
  reach : ∃ m k : ℕ, t.cc.recoveryPoint = t.sndUna + BitVec.ofNat 32 (d + m) ∧
    t.sndNxt = t.cc.recoveryPoint + BitVec.ofNat 32 k ∧
    d + m + k = t.line.length + t.synUnacked.toNat

namespace Pend

variable {d : ℕ} {t t' : Tcb P}

/-- More was sent, if anything. -/
lemma extended {n : ℕ} (h : Pend d t) (hphase : t'.phase = t.phase) (huna : t'.sndUna = t.sndUna)
    (hsyn : t'.synUnacked = t.synUnacked) (hnxt : t'.sndNxt = t.sndNxt + BitVec.ofNat 32 n)
    (hline : t'.line.length = t.line.length + n) : Pend d t' := by
  simp only [phase, Prod.mk.injEq] at hphase
  obtain ⟨hstate, hpoint, hundo⟩ := hphase
  obtain ⟨m, k, h₁, h₂, h₃⟩ := h.reach
  refine ⟨hstate ▸ h.reduced, hundo.trans h.kept, m, k + n, ?_, ?_, ?_⟩
  · rw [hpoint, huna, h₁]
  · rw [hnxt, hpoint, h₂, BitVec.ofNat_add, BitVec.add_assoc]
  · rw [hline, hsyn]
    omega

/-- The end of the reduction has not been reached. -/
lemma not_over (h : Pend d t) (hd : 0 < d) (hlen : t.line.length < 2 ^ 30) :
    ¬ seqGe t.sndUna t.cc.recoveryPoint := by
  obtain ⟨m, k, h₁, -, h₃⟩ := h.reach
  have hflag := Bool.toNat_le t.synUnacked
  have hdist : t.sndUna - t.cc.recoveryPoint = -BitVec.ofNat 32 (d + m) := by
    rw [h₁]
    bv_omega
  have hnat : (BitVec.ofNat 32 (d + m)).toNat = d + m := by
    rw [BitVec.toNat_ofNat, Nat.mod_eq_of_lt (by omega)]
  rw [seqGe_iff, hdist, BitVec.toNat_neg, hnat]
  omega

/-- A timeout begins the reduction anew, at `SND.NXT`. -/
lemma onRto {flight mss : U32} (h : Pend d t) (hd : 0 < d) (hlen : t.line.length < 2 ^ 30)
    (hcc : t'.cc = t.cc.onRto flight t.sndUna t.sndNxt mss) (huna : t'.sndUna = t.sndUna)
    (hnxt : t'.sndNxt = t.sndNxt) (hline : t'.line.length = t.line.length)
    (hsyn : t'.synUnacked = t.synUnacked) : Pend d t' := by
  have hover := h.not_over hd hlen
  obtain ⟨m, k, h₁, h₂, h₃⟩ := h.reach
  refine ⟨?_, ?_, m + k, 0, ?_, ?_, ?_⟩
  · rw [hcc]
    exact nofun
  · rw [hcc]
    unfold Reno.onRto
    dsimp only
    rw [decide_eq_false hover, Bool.or_false]
    split
    case isTrue hst =>
      have hcwr : t.cc.state = .cwr := by
        simp only [Bool.or_eq_true, beq_iff_eq] at hst
        exact hst.resolve_left h.reduced
      rw [if_pos hcwr]
    case isFalse => exact h.kept
  · rw [hcc, huna]
    change t.sndNxt = _
    rw [h₂, h₁, BitVec.add_assoc, ← BitVec.ofNat_add, Nat.add_assoc]
  · rw [hnxt, hcc]
    exact (BitVec.add_zero _).symm
  · rw [hline, hsyn]
    omega

/-- Loss found while the window is reduced begins no new reduction. -/
lemma enterFastRecovery (h : Pend d t) (hloss : t.cc.inLossRecovery = false) (flight : U32) :
    Pend d (t.enterFastRecovery flight) := by
  have hcwr : t.cc.state = .cwr := by
    have hreduced := h.reduced
    unfold Reno.inLossRecovery at hloss
    cases hs : t.cc.state <;> simp_all
  have hcc : (t.enterFastRecovery flight).cc = { t.cc with state := .recovery } := by
    unfold Tcb.enterFastRecovery Reno.cwrToRecovery
    dsimp only
    rw [if_pos hcwr, if_pos hcwr]
  obtain ⟨m, k, h₁, h₂, h₃⟩ := h.reach
  refine ⟨?_, ?_, m, k, ?_, ?_, h₃⟩
  · rw [hcc]
    exact nofun
  · rw [hcc]
    exact h.kept
  · rw [hcc]
    exact h₁
  · rw [hcc]
    exact h₂

end Pend

/-! ## Anything but an ACK -/

/-- What anything but the reaction to an ACK does to the send side of a connection. -/
structure Carries (t t' : Tcb P) : Prop where
  una : t'.sndUna = t.sndUna
  syn : t'.synUnacked = t.synUnacked
  sack : t'.sackEnabled = t.sackEnabled
  reno : t.renoSacked = 0 → t'.renoSacked = 0
  history : ∃ k : ℕ, t'.history = t.history ++ List.replicate k .forgot
  sent : ∃ n : ℕ, t'.sndNxt = t.sndNxt + BitVec.ofNat 32 n ∧ t'.line.length = t.line.length + n ∧
    (t'.history = t.history → t'.line = t.line ++ List.replicate n false)
  pending : t'.line.length < 2 ^ 30 → ∀ d, 0 < d → Pend d t → Pend d t'

namespace Carries

variable {t t' t'' : Tcb P}

/-- Sequence numbers were added, and nothing forgotten. -/
lemma of_extends (h : Extends t t') (huna : t'.sndUna = t.sndUna) (hsyn : t'.synUnacked = t.synUnacked)
    (hsack : t'.sackEnabled = t.sackEnabled) (hreno : t'.renoSacked = t.renoSacked)
    (hhist : t'.history = t.history) : Carries t t' := by
  obtain ⟨n, hnxt, hline⟩ := h.out
  have hlen : t'.line.length = t.line.length + n := by
    rw [hline, List.length_append, List.length_replicate]
  refine ⟨huna, hsyn, hsack, fun hzero => hreno.trans hzero, ⟨0, ?_⟩, ⟨n, hnxt, hlen, fun _ => hline⟩,
    fun _ _ _ hp => hp.extended h.phase huna hsyn hnxt hlen⟩
  exact hhist.trans (List.append_nil _).symm

/-- Output, which leaves the rest alone. -/
lemma of_output (h : Extends t t') (hsame : Agree exceptTransmit t t') : Carries t t' :=
  of_extends h (hsame.of fun t => t.sndUna) (hsame.of fun t => t.synUnacked)
    (hsame.of fun t => t.sackEnabled) (hsame.of fun t => t.renoSacked) (hsame.of fun t => t.history)

/-- All that `Carries` looks at. -/
def ledger (t : Tcb P) : SendSeq × Bool × U32 × List LossEvent × RtxQueue P.RTX × CaState × U32 × Bool :=
  (t.toSendSeq, t.sackEnabled, t.renoSacked, t.history, t.rtx, t.phase)

lemma of_agree (h : Agree ledger t t') : Carries t t' :=
  of_extends
    (.of_same (h.of fun x => x.2.2.2.2.2) (h.of fun x => x.1.sndNxt)
      (h.of fun x => arrived x.2.2.2.2.1.records))
    (h.of fun x => x.1.sndUna) (h.of fun x => x.1.synUnacked) (h.of fun x => x.2.1)
    (h.of fun x => x.2.2.1) (h.of fun x => x.2.2.2.1)

/-- Closing, and the timers that go with it. -/
lemma of_closing (t : Tcb P) (s : State) (close : CloseTimers) (keep : KeepaliveTimer) (user : UserTimer) :
    Carries t { t with
      state := s, toCloseTimers := close, toKeepaliveTimer := keep, toUserTimer := user } :=
  of_agree rfl

lemma trans (h : Carries t t') (h' : Carries t' t'') : Carries t t'' := by
  obtain ⟨k, hk⟩ := h.history
  obtain ⟨k', hk'⟩ := h'.history
  obtain ⟨n, hnxt, hlen, hline⟩ := h.sent
  obtain ⟨n', hnxt', hlen', hline'⟩ := h'.sent
  refine ⟨h'.una.trans h.una, h'.syn.trans h.syn, h'.sack.trans h.sack, h'.reno ∘ h.reno,
    ⟨k + k', ?_⟩, ⟨n + n', ?_, ?_, fun hsame => ?_⟩, fun hlt d hd hp => ?_⟩
  · rw [hk', hk, List.append_assoc, List.replicate_append_replicate]
  · rw [hnxt', hnxt, BitVec.ofNat_add, BitVec.add_assoc]
  · omega
  · -- Nothing was forgotten in either part.
    have hnone : k + k' = 0 := by
      have hcount := congrArg List.length hsame
      rw [hk', hk] at hcount
      simp only [List.length_append, List.length_replicate] at hcount
      omega
    have hfirst : t'.history = t.history := by
      rw [hk, show k = 0 by omega]
      exact List.append_nil _
    rw [hline' (hsame.trans hfirst.symm), hline hfirst, List.append_assoc,
      List.replicate_append_replicate]
  · exact h'.pending hlt d hd (h.pending (by omega) d hd hp)

end Carries

/-- The same, in the same state. -/
structure Steady (t t' : Tcb P) : Prop extends Carries t t' where
  state : t'.state = t.state

namespace Steady

variable {t t' : Tcb P}

/-- All that `Steady` looks at. -/
def view (t : Tcb P) :
    State × SendSeq × Bool × U32 × List LossEvent × RtxQueue P.RTX × CaState × U32 × Bool :=
  (t.state, Carries.ledger t)

lemma of_agree (h : Agree view t t') : Steady t t' :=
  ⟨.of_agree (h.of Prod.snd), h.of Prod.fst⟩

lemma of_output (h : Extends t t') (hsame : Agree exceptTransmit t t') : Steady t t' :=
  ⟨.of_output h hsame, hsame.of fun t => t.state⟩

lemma output {α : Type} {x : TcbM P α} (h : Leaves Extends x) (hsame : Leaves (Agree exceptTransmit) x) :
    Leaves Steady x := fun t => of_output (h t) (hsame t)

instance : Std.Refl (Steady (P := P)) := ⟨fun _ => of_agree rfl⟩

instance : IsTrans (Tcb P) Steady :=
  ⟨fun _ _ _ h h' => ⟨h.toCarries.trans h'.toCarries, h'.state.trans h.state⟩⟩

end Steady

lemma steady_send : SendAtoms (Steady (P := P)) where
  acks h := .of_agree (h.of Steady.view)
  news len fin := .output (emitNew_extends len fin) (emitNew_footprint len fin)
  resends i := .output (retransmit_extends i) (retransmit_footprint i)
  output := .output maybeSendData_extends maybeSendData_footprint

/-! ### Timers -/

lemma renegeCheck_steady (t : Tcb P) : Steady t t.renegeCheck := by
  unfold renegeCheck
  split
  · have hlen : (arrived t.rtx.clearSacked.records).length = t.line.length := by
      rw [line, length_arrived, length_arrived, RtxQueue.span_clearSacked]
    refine ⟨⟨rfl, rfl, rfl, id, ⟨1, rfl⟩, ⟨0, (BitVec.add_zero _).symm, hlen, fun hsame => ?_⟩,
      fun _ _ _ hp => hp.extended rfl rfl rfl (BitVec.add_zero _).symm hlen⟩, rfl⟩
    exact absurd hsame (by simp)
  · exact refl_of Steady t

lemma blackholeCheck_steady (t : Tcb P) : Steady t t.blackholeCheck := by
  unfold blackholeCheck
  split
  · exact refl_of Steady t
  · dsimp only
    split <;> exact .of_agree rfl

/-- The window collapses to one segment. -/
lemma collapse_steady (t : Tcb P) (flight mss : U32) : Steady t ({ t with
    cc := t.cc.onRto flight t.sndUna t.sndNxt mss
    rtx := t.rtx.markAllLost
    renoSacked := 0
    tlpEndSeq := none
    tlpDeadline := Deadline.OFF
    rackDeadline := Deadline.OFF
    dupAcks := 0 } : Tcb P).backoffRto.armRto := by
  have hline := RtxQueue.arrived_markAllLost t.rtx
  refine ⟨⟨rfl, rfl, rfl, fun _ => rfl, ⟨0, (List.append_nil _).symm⟩,
    ⟨0, (BitVec.add_zero _).symm, congrArg List.length hline, fun _ => ?_⟩, fun hlt d hd hp => ?_⟩, rfl⟩
  · exact hline.trans (List.append_nil _).symm
  · refine hp.onRto hd ?_ rfl rfl rfl (congrArg List.length hline) rfl
    rwa [show t.line.length = _ from (congrArg List.length hline).symm]

/-- A timeout, unless it is the last. -/
lemma onRto_steady (t : Tcb P) : t.onRto = ({ t with
      rtoDeadline := Deadline.OFF, rtxCount := satAdd t.rtxCount 1 } : Tcb P).abortLocal ∨
    Steady t t.onRto := by
  unfold onRto
  lift_lets
  intro t₁ t₂ stats t₃ t₄
  split
  · exact .inr (.of_agree rfl)
  split
  · exact .inl rfl
  have h₃ : Steady t t₃ := .of_agree rfl
  have h₄ : Steady t₃ t₄ := trans_of Steady (blackholeCheck_steady t₃) (renegeCheck_steady _)
  exact .inr (trans_of Steady h₃ (trans_of Steady h₄ (collapse_steady t₄ _ _)))

lemma prrUpdate_phase (r : Reno) (delivered pipe mss : U32) (safeAck : Bool) :
    (r.prrUpdate delivered pipe mss safeAck).state = r.state ∧
      (r.prrUpdate delivered pipe mss safeAck).recoveryPoint = r.recoveryPoint ∧
      (r.prrUpdate delivered pipe mss safeAck).undoValid = r.undoValid := by
  unfold Reno.prrUpdate
  split <;> exact ⟨rfl, rfl, rfl⟩

/-- Losses the reordering timer finds. -/
lemma rackDetect_steady (t : Tcb P) : Steady t t.rackDetect.2 := by
  have hline : t.rackDetect.2.line = t.line := RtxQueue.arrived_detectLoss _ _ _ _
  exact ⟨.of_extends (.of_same rfl rfl hline) rfl rfl rfl rfl rfl, rfl⟩

lemma enterFastRecovery_steady {t : Tcb P} (hloss : t.cc.inLossRecovery = false) (flight : U32) :
    Steady t (t.enterFastRecovery flight) :=
  ⟨⟨rfl, rfl, rfl, id, ⟨0, (List.append_nil _).symm⟩, ⟨0, (BitVec.add_zero _).symm, rfl,
    fun _ => (List.append_nil _).symm⟩, fun _ _ _ hp => hp.enterFastRecovery hloss flight⟩, rfl⟩

lemma rackTimer_steady (now : U64) (t : Tcb P) : Steady t (t.rackTimer now) := by
  have hpace (t : Tcb P) (delivered pipe mss : U32) :
      Steady t { t with cc := t.cc.prrUpdate delivered pipe mss false } := by
    obtain ⟨h₁, h₂, h₃⟩ := prrUpdate_phase t.cc delivered pipe mss false
    refine .of_agree ?_
    unfold Agree Steady.view Carries.ledger phase
    dsimp only
    rw [h₁, h₂, h₃]
  have hfound : Steady t ({ t with rackDeadline := Deadline.OFF } : Tcb P).rackDetect.2 :=
    trans_of Steady (.of_agree rfl : Steady t { t with rackDeadline := Deadline.OFF })
      (rackDetect_steady _)
  unfold Tcb.rackTimer
  split
  · refine trans_of Steady hfound ?_
    generalize ({ t with rackDeadline := Deadline.OFF } : Tcb P).rackDetect = d
    dsimp only
    split
    · split
      · exact hpace d.2 _ _ _
      case isFalse hloss =>
        rw [Bool.not_eq_true] at hloss
        exact trans_of Steady (enterFastRecovery_steady hloss _) (hpace _ _ _ _)
    · exact refl_of Steady d.2
  · exact refl_of Steady t

/-! ### Calls and segments -/

lemma updatePmtu_steady (mtu : U16) : Leaves (Steady (P := P)) (updatePmtu mtu) := by
  have hbound (mss : U16) (t : Tcb P) : Steady t (boundRestore mss t) := by
    unfold boundRestore
    dsimp only
    split <;> exact .of_agree rfl
  have hmark (limit : U32) (q : RtxQueue P.RTX) (i : ℕ) :
      arrived (markOversized limit q i).records = arrived q.records := by
    unfold markOversized
    split
    · split
      · exact RtxQueue.arrived_markLost q i
      · rfl
    · rfl
  refine Leaves.bind (Leaves.ofModify (hbound _)) fun _ => Leaves.bind Leaves.ofGet fun t => ?_
  refine Leaves.ite (Leaves.ofPure _) (Leaves.bind (Leaves.ofModify fun _ => .of_agree rfl) fun _ => ?_)
  refine Leaves.bind Leaves.ofGet fun t => Leaves.ite ?_ (Leaves.ofPure _)
  refine Leaves.bind (Leaves.ofModify fun t => ?_) fun _ => ignoreError_leaves steady_send.output
  have hline := RtxQueue.foldl_same (f := fun q => arrived q.records) (hmark t.mssPayload)
    (List.range t.rtx.len) t.rtx
  exact ⟨.of_extends (.of_same rfl rfl hline) rfl rfl rfl rfl rfl, rfl⟩

lemma Steady.of_transfer {t t' : Tcb P} (h : Agree exceptTransfer t t') : Steady t t' :=
  .of_agree (h.of Steady.view)

lemma sampleRtt_view (t : Tcb P) (sample : Option U32) : Agree Steady.view t (t.sampleRtt sample) := by
  unfold sampleRtt updateRtt
  split
  · split
    · dsimp only
      split <;> exact rfl
    · exact rfl
  · exact rfl

lemma Steady.of_noted {t t' : Tcb P} (h : Agree exceptNoted t t') : Steady t t' :=
  .of_agree (h.of Steady.view)

lemma Steady.of_set {t t' : Tcb P} (h : Agree exceptSet t t') : Steady t t' :=
  .of_agree (h.of Steady.view)

end Tcb

end TcpSansIo
