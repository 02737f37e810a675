import TcpSansIo.Machine.Data

/-!
# Acknowledgments take steps

`process_ack` touches the retransmission queue, the send window and the segment sizes on its way, and
sets the timers only at the end.  The steps that account for it come in another order: the window
first, which looks at the old `SND.UNA`, then the acknowledgment together with the timers it ends up
with.  `timed r d` is a block with the timers it will have.
-/

namespace TcpSansIo

open Proc FixedWidth

variable {P : Params}

/-! ## Loss marks keep the retransmission queue -/

namespace RtxQueue

variable {CAP : ℕ} [RtxCap CAP] {q : RtxQueue CAP} {a b : U32} {f : Option Bool}

lemma Valid.detectLossLoop (rack : Rack) (now thresh : U64) (fuel i : ℕ) (scan : LossScan CAP)
    (h : Valid scan.queue a b f) :
    Valid (TcpSansIo.detectLossLoop rack now thresh fuel i scan).queue a b f := by
  induction fuel generalizing i scan with
  | zero => exact h
  | succ fuel ih =>
    rw [TcpSansIo.detectLossLoop]
    split
    · exact h
    · split
      · split
        · exact ih _ _ h
        · exact h
      · split
        · exact ih _ _ h
        · split
          · split
            · exact h
            · exact ih _ _ h
          · dsimp only
            split
            · exact ih _ _ (h.markLost i)
            · exact ih _ _ h

lemma Valid.detectLoss (h : Valid q a b f) (rack : Rack) (now : U64) (reo : U32) :
    Valid (TcpSansIo.detectLoss rack q now reo).2.2 a b f := by
  unfold TcpSansIo.detectLoss
  split
  · exact h
  · exact Valid.detectLossLoop rack now _ _ _ _ h

end RtxQueue

namespace Tcb

variable {s : Option Segment}

/-! ## The parts of `process_ack` -/

/-- The block with other retransmission and probe deadlines. -/
def timed (t : Tcb P) (r d : Deadline) : Tcb P := { t with rtoDeadline := r, tlpDeadline := d }

/-- Only marks in the retransmission queue changed. -/
structure Marks (t t' : Tcb P) : Prop where
  core : t'.core = ({ t with rtx := t'.rtx } : Tcb P).core
  valid : ∀ a b f, t.rtx.Valid a b f → t'.rtx.Valid a b f

/-- Up to the timers, only marks in the retransmission queue changed. -/
structure Remarks (t t' : Tcb P) : Prop where
  core : ∀ r d, (t'.timed r d).core = ({ t.timed r d with rtx := t'.rtx } : Tcb P).core
  valid : ∀ a b f, t.rtx.Valid a b f → t'.rtx.Valid a b f

namespace Marks

variable {t t' t'' : Tcb P}

lemma of_core (h : t'.core = t.core) : Marks t t' := by
  have hrtx : t'.rtx = t.rtx := core_of h fun c => c.rtx
  refine ⟨?_, fun a b f hv => ?_⟩
  · rw [hrtx]
    exact h
  · rw [hrtx]
    exact hv

lemma trans (h : Marks t t') (h' : Marks t' t'') : Marks t t'' where
  core := by
    have hset := congrArg (fun c : Tcb P => ({ c with rtx := t''.rtx } : Tcb P)) h.core
    exact h'.core.trans hset
  valid a b f hv := h'.valid a b f (h.valid a b f hv)

instance : Std.Refl (Marks (P := P)) := ⟨fun _ => of_core rfl⟩

instance : IsTrans (Tcb P) Marks := ⟨fun _ _ _ => trans⟩

lemma leads (h : Marks t t') : (machine s).Leads t t' := leads_quiet (.remark h.valid) h.core

lemma remarks (h : Marks t t') : Remarks t t' where
  core r d := by
    have hset := congrArg (fun c : Tcb P => c.timed r d) h.core
    exact hset
  valid := h.valid

end Marks

namespace Remarks

variable {t t' t'' : Tcb P}

lemma trans (h : Remarks t t') (h' : Remarks t' t'') : Remarks t t'' where
  core r d := by
    have hset := congrArg (fun c : Tcb P => ({ c with rtx := t''.rtx } : Tcb P)) (h.core r d)
    exact (h'.core r d).trans hset
  valid a b f hv := h'.valid a b f (h.valid a b f hv)

lemma leads (h : Remarks t t') (r d : Deadline) :
    (machine s).Leads (t.timed r d) (t'.timed r d) :=
  leads_quiet (.remark h.valid) (h.core r d)

lemma nxt (h : Remarks t t') : t'.sndNxt = t.sndNxt := core_of (h.core .OFF .OFF) fun c => c.sndNxt

lemma una (h : Remarks t t') : t'.sndUna = t.sndUna := core_of (h.core .OFF .OFF) fun c => c.sndUna

end Remarks

lemma believeDsack_marks (t : Tcb P) (l r mss : U32) : Marks t (t.believeDsack l r mss) := by
  unfold believeDsack
  refine ⟨rfl, fun a b f h => ?_⟩
  dsimp only
  split
  · exact h.unmarkLost
  · exact h

lemma sackBlock_marks (d : U32 × Tcb P) (b : U32 × U32) : Marks d.2 (sackBlock d b).2 :=
  ⟨rfl, fun _ _ _ h => h.sack b.1 b.2⟩

lemma absorbSack_marks (seg : Segment) (mss : U32) (t : Tcb P) :
    Marks t (absorbSack seg mss t).2 :=
  absorbSack_rule (R := Marks) (fun _ _ => Marks.of_core rfl) believeDsack_marks sackBlock_marks seg mss t

lemma sampleRtt_core (t : Tcb P) (sample : Option U32) : (t.sampleRtt sample).core = t.core := by
  unfold sampleRtt updateRtt
  split
  · split
    · dsimp only
      split <;> rfl
    · rfl
  · rfl

lemma noteProgress_core (t : Tcb P) (acked : U32) : (t.noteProgress acked).core = t.core := by
  unfold noteProgress
  dsimp only
  split
  · rfl
  · split
    · rfl
    · split <;> rfl

/-- What a cumulative ACK acknowledges, removed. -/
def ackedBy (t : Tcb P) (seg : Segment) : Tcb P :=
  { t with
    sndUna := seg.ack
    synUnacked := false
    sendRing := t.sendRing.consume
      (satSub (satSub (seg.ack - t.sndUna)
        (ofFlag 32 (t.finSent && decide (seqLe t.sndUna t.finSeq) &&
          decide (seqGt seg.ack t.finSeq)))) (ofFlag 32 t.synUnacked)).toNat
    rtx := (t.rtx.ackTo seg.ack).queue }

/-- A cumulative ACK, on the core of the block. -/
lemma cumulativeAck_core (seg : Segment) (mss : U32) (tsecr : Option U32) (delivered : U32) (t : Tcb P) :
    (cumulativeAck seg.ack (seg.ack - t.sndUna) mss tsecr delivered t).2.core =
      (t.ackedBy seg).core := by
  unfold cumulativeAck
  dsimp only
  rw [noteProgress_core, sampleRtt_core]
  rfl

/-- A path-MTU probe that arrived resizes segments; nothing else changes. -/
lemma pmtuProbeOnAck_core (t : Tcb P) :
    ∃ sz, (pmtuProbeOnAck t).core = ({ t with toSizes := sz } : Tcb P).core ∧
      (sz = t.toSizes ∨ Resized t.toSizes sz) := by
  unfold pmtuProbeOnAck
  extract_lets sacked mss restored
  split
  case isFalse => exact ⟨t.toSizes, rfl, .inl rfl⟩
  case isTrue h =>
    refine ⟨_, rfl, .inr ?_⟩
    have hif : (if restored = true then (0 : U16) else t.pmtuRestoreMss) =
        if t.pmtuRestoreMss.toNat ≤ (maxB t.pmtuMss t.pmtuProbeMss).toNat then 0
        else t.pmtuRestoreMss := by
      by_cases hle : t.pmtuRestoreMss.toNat ≤ (maxB t.pmtuMss t.pmtuProbeMss).toNat
      · rw [if_pos hle, if_pos (decide_eq_true hle)]
      · have hnot : restored = false := decide_eq_false hle
        rw [if_neg hle, hnot]
        rfl
    rw [hif]
    exact .delivered h.1

/-- The sequence number that orders the window of `seg` among the windows seen. -/
def windowSeq (t : Tcb P) (seg : Segment) : U32 :=
  if seqGt seg.seq t.rcvNxt then t.rcvNxt else seg.seq

/-- The window of `seg` is news, for an ACK after `una`. -/
def NewerWindow (t : Tcb P) (seg : Segment) (una : U32) : Prop :=
  seqGt seg.ack una ∨ seqLt t.sndWl1 (t.windowSeq seg) ∨
    (t.sndWl1 = t.windowSeq seg ∧ seqLe t.sndWl2 seg.ack)

instance (t : Tcb P) (seg : Segment) (una : U32) : Decidable (t.NewerWindow seg una) :=
  inferInstanceAs (Decidable (_ ∨ _))

/-- The send window after `seg`. -/
def windowAfter (t : Tcb P) (seg : Segment) (una : U32) : SendWindow :=
  if t.NewerWindow seg una then
    { sndWnd := t.scalePeerWindow seg.window, sndWl1 := t.windowSeq seg, sndWl2 := seg.ack
      wlPos := t.streamPos (t.windowSeq seg) }
  else t.toSendWindow

lemma updateSendWindow_eq (t : Tcb P) (seg : Segment) (una : U32) :
    t.updateSendWindow seg una =
      if t.NewerWindow seg una then
        { t with
          sndWnd := t.scalePeerWindow seg.window
          sndWl1 := t.windowSeq seg
          sndWl2 := seg.ack
          wlPos := t.streamPos (t.windowSeq seg)
          maxSndWnd := maxB t.maxSndWnd (t.scalePeerWindow seg.window) }
      else t := rfl

lemma updateSendWindow_window (t : Tcb P) (seg : Segment) (una : U32) :
    (t.updateSendWindow seg una).toSendWindow = t.windowAfter seg una := by
  rw [updateSendWindow_eq, windowAfter]
  split <;> rfl

lemma updateSendWindow_core (t : Tcb P) (seg : Segment) (una : U32) :
    (t.updateSendWindow seg una).core =
      ({ t with toSendWindow := t.windowAfter seg una } : Tcb P).core := by
  rw [updateSendWindow_eq, windowAfter]
  split <;> rfl

lemma windowAfter_core (t : Tcb P) (seg : Segment) (una : U32) :
    t.core.windowAfter seg una = t.windowAfter seg una := rfl

lemma ecnEcho_core (t : Tcb P) (seg : Segment) (flight mss : U32) :
    (t.ecnEcho seg flight mss).core = t.core := by
  unfold ecnEcho
  split <;> rfl

lemma rackDetect_marks (t : Tcb P) : Marks t (rackDetect t).2 :=
  ⟨rfl, fun _ _ _ h => h.detectLoss _ _ _⟩

lemma newrenoDetect_marks (seg : Segment) (acked wnd : U32) (t : Tcb P) :
    Marks t (newrenoDetect seg acked wnd t).2 := by
  unfold newrenoDetect
  split
  · dsimp only
    split
    · split
      · exact ⟨rfl, fun _ _ _ h => h.markLost 0⟩
      · exact Marks.of_core rfl
    · exact Marks.of_core rfl
  · split
    · exact ⟨rfl, fun _ _ _ h => h.markLost 0⟩
    · exact Marks.of_core rfl

/-- Only an ACK that acknowledges nothing new counts as a duplicate. -/
lemma newrenoDetect_dup {seg : Segment} {acked wnd : U32} {t : Tcb P}
    (h : (newrenoDetect seg acked wnd t).1.2 = true) : acked = 0 := by
  unfold newrenoDetect at h
  split at h
  case isTrue h0 => exact h0
  case isFalse => split at h <;> cases h

lemma renoCredit_cases (mss delivered : U32) (t : Tcb P) :
    (∃ a t', renoCredit mss delivered t = .ok a t' ∧ t'.core = t.core) ∨
      (renoCredit mss delivered t = .error .panic t ∧ (t.sndNxt - t.dataUna).toNat = 2 ^ 32 - 1) := by
  unfold renoCredit
  rw [run_get_bind]
  split
  case isFalse => exact .inl ⟨_, t, rfl, rfl⟩
  case isTrue hle =>
    split
    case isTrue => exact .inl ⟨_, _, rfl, rfl⟩
    case isFalse hover =>
      refine .inr ⟨rfl, ?_⟩
      rw [toNat_satAdd] at hle
      have := (t.sndNxt - t.dataUna).isLt
      omega

/-- Loss detection marks records; only for a duplicate ACK can its counter leave its range. -/
lemma detectLosses_cases (seg : Segment) (present : Bool) (acked wnd mss delivered : U32)
    (t : Tcb P) :
    (∃ a t', detectLosses seg present acked wnd mss delivered t = .ok a t' ∧ Marks t t') ∨
      (acked = 0 ∧ ∃ t', detectLosses seg present acked wnd mss delivered t = .error .panic t' ∧
        Marks t t' ∧ (t'.sndNxt - t'.dataUna).toNat = 2 ^ 32 - 1) := by
  unfold detectLosses
  rw [run_get_bind, run_bind_ok (run_modifyGet _ _)]
  have hrack : Marks t (if t.sackEnabled = true then t.rackDetect else (false, t)).2 := by
    split
    · exact rackDetect_marks t
    · exact Marks.of_core rfl
  generalize (if t.sackEnabled = true then t.rackDetect else (false, t)) = r at hrack
  cases present with
  | true => exact .inl ⟨_, _, rfl, hrack⟩
  | false =>
    rw [if_neg (by decide), run_bind_ok (run_modifyGet _ _)]
    have hreno := hrack.trans (newrenoDetect_marks seg acked wnd r.2)
    split
    case isFalse => exact .inl ⟨_, _, rfl, hreno⟩
    case isTrue hdup =>
      rw [Bool.and_eq_true] at hdup
      rcases renoCredit_cases mss delivered (newrenoDetect seg acked wnd r.2).2 with
        ⟨a, t', hrun, hcore⟩ | ⟨hrun, hfull⟩
      · exact .inl ⟨_, t', run_bind_ok hrun _, hreno.trans (Marks.of_core hcore)⟩
      · exact .inr ⟨newrenoDetect_dup hdup.1, _, run_bind_error hrun _, hreno, hfull⟩

lemma reactToLoss_remarks (t : Tcb P) (flight : U32) : Remarks t (t.reactToLoss flight) := by
  unfold reactToLoss
  dsimp only
  split
  · exact ⟨fun _ _ => rfl, fun _ _ _ h => h⟩
  · exact ⟨fun _ _ => rfl, fun _ _ _ h => h⟩

lemma tlpOnAck_core (t : Tcb P) (ack : U32) (dsack : Option (U32 × U32)) (sack : Bool)
    (delivered : U32) : (t.tlpOnAck ack dsack sack delivered).core = t.core := by
  unfold tlpOnAck
  split
  · rfl
  · split
    · rfl
    · split
      · rfl
      · split
        · rfl
        · split
          · dsimp only
            split <;> rfl
          · rfl

lemma congestionOnAck_core (t : Tcb P) (acked delivered mss : U32) (lost : Bool) :
    (t.congestionOnAck acked delivered mss lost).core = t.core := by
  have hlim : ∀ u : Tcb P, u.takeCwndLimited.2.core = u.core := by
    intro u
    unfold takeCwndLimited
    dsimp only
    split <;> rfl
  have hexit : t.exitRecovery.core = t.core := rfl
  exact (hlim t.exitRecovery).trans hexit

/-- The timers `process_ack` ends with. -/
lemma rearmAfterAck_spec (t : Tcb P) (acked : U32) :
    ∃ r d, (t.rearmAfterAck acked).core = (t.timed r d).core ∧
      (t.sndUna = t.sndNxt → r = Deadline.OFF ∧ d = Deadline.OFF) ∧
      (t.sndUna ≠ t.sndNxt → acked ≠ 0 → r.isArmed = true ∧ NotAfter d r) ∧
      (t.sndUna ≠ t.sndNxt → acked = 0 → r = t.rtoDeadline ∧
        (d.isArmed = true → r.isArmed = true → d.raw.toNat ≤ r.raw.toNat)) := by
  unfold rearmAfterAck
  split
  case isTrue hidle =>
    obtain ⟨d, hd, hspec⟩ := maybeArmTlp_spec ({ t with
      rtoDeadline := Deadline.OFF, tlpDeadline := Deadline.OFF
      rackDeadline := Deadline.OFF } : Tcb P)
    rw [hd]
    refine ⟨Deadline.OFF, d, rfl, fun _ => ⟨rfl, ?_⟩, fun h => absurd hidle h, fun h => absurd hidle h⟩
    cases harmed : d.isArmed with
    | true => exact absurd hidle (hspec harmed).2.1
    | false => exact Deadline.eq_OFF harmed
  case isFalse hout =>
    split
    case isTrue hacked =>
      obtain ⟨d, hd, hspec⟩ := maybeArmTlp_spec t.armRto
      rw [hd]
      have harmed : t.armRto.rtoDeadline.isArmed = true := Deadline.isArmed_atMs _
      exact ⟨t.armRto.rtoDeadline, d, rfl, fun h => absurd h hout,
        fun _ _ => ⟨harmed, fun h => (hspec h).2.2 harmed⟩, fun _ h => absurd h hacked⟩
    case isFalse hacked =>
      obtain ⟨d, hd, hspec⟩ := maybeArmTlp_spec t
      rw [hd]
      exact ⟨t.rtoDeadline, d, rfl, fun h => absurd h hout, fun _ h => absurd h (by simpa using hacked),
        fun _ _ => ⟨rfl, fun h => (hspec h).2.2⟩⟩

/-! ## All of `process_ack` -/

/-- What is acceptable about an ACK that is processed. -/
structure AckOk (t : Tcb P) (seg : Segment) : Prop where
  state : t.state.isSynchronized = true
  lo : ¬ seqLt seg.ack t.sndUna
  hi : ¬ seqGt seg.ack t.sndNxt
  seq : t.segmentAcceptable seg = true ∨ seg.seq = t.rcvNxt ∨
    seqGe (seg.seq + seg.payloadLen + ofFlag 32 seg.flags.fin) t.lastAckSent

/-- The bookkeeping between the cumulative ACK, which left `c`, and loss detection. -/
lemma sized_window_core (c : Tcb P) (seg : Segment) (una flight mss : U32) :
    ∃ sz, (((pmtuProbeOnAck c).updateSendWindow seg una).ecnEcho seg flight mss).core =
        ({ c with toSizes := sz, toSendWindow := c.windowAfter seg una } : Tcb P).core ∧
      (sz = c.toSizes ∨ Resized c.toSizes sz) := by
  obtain ⟨sz, hcore, hsz⟩ := pmtuProbeOnAck_core c
  refine ⟨sz, ?_, hsz⟩
  have hwin : (pmtuProbeOnAck c).windowAfter seg una = c.windowAfter seg una := by
    rw [← windowAfter_core, hcore]
    rfl
  rw [ecnEcho_core, updateSendWindow_core, hwin]
  exact congrArg (fun c' : Tcb P => ({ c' with toSendWindow := c.windowAfter seg una } : Tcb P)) hcore

/-- Resizing is a step, whatever else of the block changes with it. -/
lemma leads_sizes {t t' : Tcb P} {sz : Sizes} (hsz : sz = t.toSizes ∨ Resized t.toSizes sz)
    (h : t'.core = ({ t with toSizes := sz } : Tcb P).core) : (machine s).Leads t t' := by
  rcases hsz with rfl | hsz
  · exact leads_soft h
  · exact leads_quiet (.resized hsz) h

lemma AckOk.of_marks {t t' : Tcb P} {seg : Segment} (h : Marks t t') (hok : t.AckOk seg) :
    t'.AckOk seg := by
  have hcore : ({ t with rtx := t'.rtx } : Tcb P).core.AckOk seg := ⟨hok.state, hok.lo, hok.hi, hok.seq⟩
  rw [← h.core] at hcore
  exact ⟨hcore.state, hcore.lo, hcore.hi, hcore.seq⟩

lemma window_leads {t : Tcb P} {seg : Segment} (hok : t.AckOk seg) (hack : seg.ack = t.sndUna) :
    (machine (some seg)).Leads t { t with toSendWindow := t.windowAfter seg t.sndUna } := by
  have hstep := Step.window hok.state hack hok.seq
  rw [updateSendWindow_window] at hstep
  exact leads_step hstep rfl rfl (.inr rfl)

/-- A probe may always be called off. -/
lemma probe_off (t : Tcb P) : Step t none { t with tlpDeadline := Deadline.OFF } :=
  .probe fun harmed => absurd harmed (by simp)

/-- An ACK that acknowledges nothing new: the window, sizes, marks and probe timer it leaves. -/
lemma duplicate_leads {t w v : Tcb P} {seg : Segment} {sz : Sizes} (hok : t.AckOk seg)
    (hack : seg.ack = t.sndUna) (hsz : sz = t.toSizes ∨ Resized t.toSizes sz)
    (hw : w.core = ({ t with toSizes := sz, toSendWindow := t.windowAfter seg t.sndUna } : Tcb P).core)
    (hv : Remarks w v) (hrto : v.rtoDeadline = w.rtoDeadline) :
    (machine (some seg)).Leads t (v.rearmAfterAck 0) := by
  have hwin : (machine (some seg)).Leads t w :=
    leads_trans (window_leads hok hack) (leads_sizes hsz hw)
  obtain ⟨r, d, hcore, hidle, -, hout⟩ := rearmAfterAck_spec v 0
  refine leads_trans hwin (leads_trans ?_ (leads_trans (hv.leads r d) (leads_soft hcore)))
  rw [hv.una, hv.nxt] at hidle hout
  by_cases h : w.sndUna = w.sndNxt
  · obtain ⟨rfl, rfl⟩ := hidle h
    exact leads_trans (leads_quiet (.rest h) rfl) (leads_quiet (probe_off _) rfl)
  · obtain ⟨hr, hd⟩ := hout h rfl
    rw [hrto] at hr
    subst hr
    have hstate : w.state = t.state := core_of hw fun c => c.state
    exact leads_quiet (.probe fun harmed => ⟨hstate ▸ hok.state, h, hd harmed⟩) rfl

/-- An ACK that advances `SND.UNA`, with the window, sizes, marks and timers it leaves. -/
lemma advance_leads {t c w v : Tcb P} {seg : Segment} {sz : Sizes} (hok : t.AckOk seg)
    (hne : seg.ack ≠ t.sndUna)
    (hc : c.core = (t.ackedBy seg).core)
    (hsz : sz = c.toSizes ∨ Resized c.toSizes sz)
    (hw : w.core = ({ c with toSizes := sz, toSendWindow := c.windowAfter seg t.sndUna } : Tcb P).core)
    (hv : Remarks w v) :
    (machine (some seg)).Leads t (v.rearmAfterAck (seg.ack - t.sndUna)) := by
  have hacked : seg.ack - t.sndUna ≠ 0 := fun h => hne (by bv_omega)
  have hwin : c.windowAfter seg t.sndUna = t.windowAfter seg t.sndUna := by
    rw [← windowAfter_core, hc]
    rfl
  have hcsz : c.toSizes = t.toSizes := core_of hc fun c => c.toSizes
  have huna : w.sndUna = seg.ack :=
    Eq.trans (core_of hw fun c => c.sndUna) (core_of hc fun c => c.sndUna)
  have hnxt : w.sndNxt = t.sndNxt :=
    Eq.trans (core_of hw fun c => c.sndNxt) (core_of hc fun c => c.sndNxt)
  obtain ⟨r, d, hcore, hidle, hout, -⟩ := rearmAfterAck_spec v (seg.ack - t.sndUna)
  rw [hv.una, hv.nxt, huna, hnxt] at hidle hout
  rw [hwin] at hw
  rw [hcsz] at hsz
  refine leads_trans ?_ (leads_trans (hv.leads r d) (leads_soft hcore))
  have hstep : Step t (some seg) _ :=
    .acked hok.state hok.lo hok.hi hne hok.seq (fun b f h hin => h.ackTo hin) hidle
      (fun h => hout h hacked)
  rw [updateSendWindow_window] at hstep
  refine leads_trans (leads_step hstep rfl rfl (.inr rfl)) (leads_sizes hsz ?_)
  have h₁ := congrArg (fun c : Tcb P => c.timed r d) hw
  have h₂ := congrArg (fun c' : Tcb P =>
    ({ c'.timed r d with toSizes := sz, toSendWindow := t.windowAfter seg t.sndUna } : Tcb P)) hc
  exact Eq.trans h₁ h₂

/-- What `process_ack` does between loss detection, which returned `d`, and congestion control. -/
def repair (t : Tcb P) (seg : Segment) (info : SackInfo) (flight : U32) (d : Bool × U32) : Tcb P :=
  (t.reactToLoss flight).tlpOnAck seg.ack info.dsack info.present d.2

/-- What `process_ack` does between loss detection, which returned `d`, and the timers. -/
def recover (t : Tcb P) (seg : Segment) (info : SackInfo) (flight acked mss : U32) (d : Bool × U32) :
    Tcb P :=
  (t.repair seg info flight d).congestionOnAck acked d.2 mss d.1

lemma recover_remarks (t : Tcb P) (seg : Segment) (info : SackInfo) (flight acked mss : U32)
    (d : Bool × U32) : Remarks t (t.recover seg info flight acked mss d) :=
  (reactToLoss_remarks t flight).trans
    ((Marks.of_core (tlpOnAck_core _ _ _ _ _)).trans
      (Marks.of_core (congestionOnAck_core _ _ _ _ _))).remarks

lemma recover_rto (t : Tcb P) (seg : Segment) (info : SackInfo) (flight acked mss : U32)
    (d : Bool × U32) : (t.recover seg info flight acked mss d).rtoDeadline = t.rtoDeadline := by
  have h₁ : (t.reactToLoss flight).rtoDeadline = t.rtoDeadline := by
    unfold reactToLoss
    dsimp only
    split <;> rfl
  have h₂ := core_of ((congestionOnAck_core _ acked d.2 mss d.1).trans
    (tlpOnAck_core (t.reactToLoss flight) seg.ack info.dsack info.present d.2)) fun c => c.rtoDeadline
  exact Eq.trans h₂ h₁

lemma recordAck_leads (before marked echoed found : Tcb P) (d : Bool × U32) (mss : U32) (t : Tcb P) :
    (machine s).Leads t (recordAck before marked echoed found d mss t) := leads_soft rfl

/-- `process_ack` from loss detection on, for an ACK that found the block as `before`; its ECN-Echo
found it as `marked`. -/
def detectAndRecover (before marked : Tcb P) (seg : Segment) (info : SackInfo)
    (flight acked mss wnd delivered : U32) : TcbM P Unit := do
  let echoed ← get
  let d ← detectLosses seg info.present acked wnd mss delivered
  modify fun t : Tcb P => t.repair seg info flight d
  let found ← get
  modify fun t : Tcb P => (t.congestionOnAck acked d.2 mss d.1).rearmAfterAck acked
  modify (recordAck before marked echoed found d mss)

/-- How that ends, once losses were detected. -/
lemma detectAndRecover_ok {before marked t v : Tcb P} {seg : Segment} {info : SackInfo}
    {flight acked mss wnd delivered : U32} {d : Bool × U32}
    (hdet : detectLosses seg info.present acked wnd mss delivered t = .ok d v) :
    detectAndRecover before marked seg info flight acked mss wnd delivered t =
      .ok () (recordAck before marked t (v.repair seg info flight d) d mss
        ((v.recover seg info flight acked mss d).rearmAfterAck acked)) := by
  rw [detectAndRecover, run_get_bind, run_bind_ok hdet]
  rfl

/-- `process_ack` up to loss detection, which runs from `w`.  The SACK option left `t₁`, and the
cumulative ACK, if there is one, `c`. -/
lemma reactToAck_run (seg : Segment) (t : Tcb P) :
    ∃ (info : SackInfo) (flight mss wnd delivered : U32) (marked t₁ c w : Tcb P) (sz : Sizes),
      Marks t t₁ ∧
      (seg.ack = t₁.sndUna ∧ c = t₁ ∨ seg.ack ≠ t₁.sndUna ∧ c.core = (t₁.ackedBy seg).core) ∧
      (sz = c.toSizes ∨ Resized c.toSizes sz) ∧
      w.core = ({ c with toSizes := sz, toSendWindow := c.windowAfter seg t₁.sndUna } : Tcb P).core ∧
      reactToAck seg t =
        detectAndRecover t marked seg info flight (seg.ack - t₁.sndUna) mss wnd delivered w := by
  have hstart : Marks t ({ t with rack := t.rack.onAckStart } : Tcb P) := Marks.of_core rfl
  have hmarks : Marks t (absorbSack seg t.mssPayload { t with rack := t.rack.onAckStart }).2 :=
    hstart.trans (absorbSack_marks seg t.mssPayload _)
  have huna : (absorbSack seg t.mssPayload { t with rack := t.rack.onAckStart }).2.sndUna = t.sndUna :=
    core_of hmarks.core fun c => c.sndUna
  set a := absorbSack seg t.mssPayload ({ t with rack := t.rack.onAckStart } : Tcb P) with ha
  set c : U32 × Tcb P :=
    if seg.ack - t.sndUna ≠ 0 then
      cumulativeAck seg.ack (seg.ack - t.sndUna) t.mssPayload (t.tsecrOf seg) a.1.delivered a.2
    else (a.1.delivered, a.2) with hc
  obtain ⟨sz, hsized, hsz⟩ :=
    sized_window_core c.2 seg t.sndUna (t.sndNxt - t.dataUna) t.mssPayload
  refine ⟨a.1, t.sndNxt - t.dataUna, t.mssPayload, (pmtuProbeOnAck c.2).sndWnd, c.1,
    pmtuProbeOnAck c.2, a.2, c.2,
    ((pmtuProbeOnAck c.2).updateSendWindow seg t.sndUna).ecnEcho seg (t.sndNxt - t.dataUna) t.mssPayload,
    sz, hmarks, ?_, hsz, ?_, ?_⟩
  · rw [huna]
    by_cases hacked : seg.ack - t.sndUna = 0
    · rw [if_neg (not_not.mpr hacked)] at hc
      exact .inl ⟨by bv_omega, by rw [hc]⟩
    · rw [if_pos hacked] at hc
      refine .inr ⟨fun h => hacked (by rw [h]; bv_omega), ?_⟩
      rw [hc, ← huna]
      exact cumulativeAck_core _ _ _ _ _
  · rw [huna]
    exact hsized
  · rw [huna]
    rfl

lemma reactToAck_refines {t : Tcb P} {seg : Segment} (hok : t.AckOk seg) :
    Refines (machine (some seg)) (reactToAck seg) t := by
  obtain ⟨info, flight, mss, wnd, delivered, marked, t₁, c, w, sz, hmarks, hc, hsz, hsized, hrun⟩ :=
    reactToAck_run seg t
  have hok₁ := hok.of_marks hmarks
  rcases detectLosses_cases seg info.present (seg.ack - t₁.sndUna) wnd mss delivered w with
    ⟨d, v, hdet, hmark⟩ | ⟨hdup, v, hdet, hmark, hfull⟩
  · refine Refines.of_ok (hrun.trans (detectAndRecover_ok hdet)) (leads_trans hmarks.leads ?_)
    have hrec := hmark.remarks.trans
      (recover_remarks v seg info flight (seg.ack - t₁.sndUna) mss d)
    rcases hc with ⟨hack, rfl⟩ | ⟨hne, hc⟩
    · have hrto := (recover_rto v seg info flight (seg.ack - c.sndUna) mss d).trans
        (core_of hmark.core fun c => c.rtoDeadline)
      have hzero : seg.ack - c.sndUna = 0 := by rw [hack]; exact BitVec.sub_self _
      rw [hzero] at hrec hrto ⊢
      exact leads_trans (duplicate_leads hok₁ hack hsz hsized hrec hrto) (recordAck_leads t marked w _ d mss _)
    · exact leads_trans (advance_leads hok₁ hne hc hsz hsized hrec) (recordAck_leads t marked w _ d mss _)
  · refine Refines.of_error (hrun.trans ((run_get_bind _ _).trans (run_bind_error hdet _))) (leads_trans hmarks.leads ?_)
      (.credit hfull)
    rcases hc with ⟨hack, rfl⟩ | ⟨hne, -⟩
    · exact leads_trans (window_leads hok₁ hack) (leads_trans (leads_sizes hsz hsized) hmark.leads)
    · exact absurd (by bv_omega) hne

/-- Loss detection and what follows it leave the send window and `SND.UNA` alone. -/
lemma detectAndRecover_window (before marked : Tcb P) (seg : Segment) (info : SackInfo)
    (flight acked mss wnd delivered : U32) (t : Tcb P) :
    (final (detectAndRecover before marked seg info flight acked mss wnd delivered t)).toSendWindow =
        t.toSendWindow ∧
      (final (detectAndRecover before marked seg info flight acked mss wnd delivered t)).sndUna =
        t.sndUna := by
  rcases detectLosses_cases seg info.present acked wnd mss delivered t with
    ⟨d, v, hdet, hmark⟩ | ⟨-, v, hdet, hmark, -⟩
  · rw [detectAndRecover_ok hdet]
    have hrec := hmark.remarks.trans (recover_remarks v seg info flight acked mss d)
    obtain ⟨r, d', hcore, -⟩ := rearmAfterAck_spec (v.recover seg info flight acked mss d) acked
    exact ⟨Eq.trans (core_of hcore fun c => c.toSendWindow)
        (core_of (hrec.core r d') fun c => c.toSendWindow),
      Eq.trans (core_of hcore fun c => c.sndUna) (core_of (hrec.core r d') fun c => c.sndUna)⟩
  · rw [detectAndRecover, run_get_bind, run_bind_error hdet]
    exact ⟨core_of hmark.core fun c => c.toSendWindow, core_of hmark.core fun c => c.sndUna⟩

/-- The send window an ACK leaves. -/
lemma reactToAck_window (seg : Segment) (t : Tcb P) :
    (final (reactToAck seg t)).toSendWindow = t.windowAfter seg t.sndUna := by
  obtain ⟨info, flight, mss, wnd, delivered, marked, t₁, c, w, sz, hmarks, hc, hsz, hsized, hrun⟩ :=
    reactToAck_run seg t
  have huna : t₁.sndUna = t.sndUna := core_of hmarks.core fun c => c.sndUna
  have hwin₁ : t₁.windowAfter seg t₁.sndUna = t.windowAfter seg t.sndUna := by
    rw [huna, ← windowAfter_core, hmarks.core]
    rfl
  have hwin : w.toSendWindow = t.windowAfter seg t.sndUna := by
    rw [← hwin₁, show w.toSendWindow = c.windowAfter seg t₁.sndUna from
      core_of hsized fun c => c.toSendWindow]
    rcases hc with ⟨-, rfl⟩ | ⟨-, hc⟩
    · rfl
    · rw [← windowAfter_core, hc]
      rfl
  rw [hrun, ← hwin]
  exact (detectAndRecover_window _ _ _ _ _ _ _ _ _ w).1

/-- An ACK that is reacted to becomes `SND.UNA`. -/
lemma reactToAck_una (seg : Segment) (t : Tcb P) :
    (final (reactToAck seg t)).sndUna = seg.ack := by
  obtain ⟨info, flight, mss, wnd, delivered, marked, t₁, c, w, sz, hmarks, hc, hsz, hsized, hrun⟩ :=
    reactToAck_run seg t
  have huna : w.sndUna = seg.ack := by
    rw [show w.sndUna = c.sndUna from core_of hsized fun c => c.sndUna]
    rcases hc with ⟨hack, rfl⟩ | ⟨-, hc⟩
    · exact hack.symm
    · exact core_of hc fun c => c.sndUna
  rw [hrun]
  exact (detectAndRecover_window _ _ _ _ _ _ _ _ _ w).2.trans huna

lemma ourFinAcked_leads (t : Tcb P) : (machine s).Leads t (ourFinAcked t) := by
  unfold ourFinAcked
  split
  case isFalse => exact leads_soft rfl
  case isTrue h =>
    split
    case h_1 hstate => exact leads_quiet (.finWait2 hstate h.1 h.2) rfl
    case h_2 hstate =>
      have hstep : Step t none { t with
          state := .timeWait
          timeWaitDeadline := Deadline.atMs (satAdd t.nowMs TIME_WAIT_MS) } :=
        .timeWait hstate h.1 h.2
      refine leads_quiet hstep ?_
      unfold core enterTimeWait
      rfl
    case h_3 hstate => exact leads_quiet (.closeClean (by rw [hstate]; rfl)) rfl
    case h_4 => exact leads_soft rfl

lemma applyAck_refines {t : Tcb P} {seg : Segment} (hok : t.AckOk seg) :
    Refines (machine (some seg)) (applyAck seg) t :=
  (reactToAck_refines hok).bind fun _ t' _ => Refines.ofModify (ourFinAcked_leads t')

end Tcb

end TcpSansIo
