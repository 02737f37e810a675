import TcpSansIo.Receive.Frame
import TcpSansIo.Receive.Stream
import TcpSansIo.Send.Flight

/-!
# Window updates

`SND.WL1` and `SND.WL2` are the sequence and acknowledgment numbers of the segment the send window was
last taken from; they keep an older segment from overriding a newer one.  `update_send_window` never
takes a sequence number ahead of `RCV.NXT` for `SND.WL1`: with one, every segment the peer sends next
would look old.  `WindowOrigin` says that `SND.WL1` stays behind `RCV.NXT` and that `SND.WL2` is
`SND.UNA`; then the window of a segment at `RCV.NXT` is always taken.

The ACK that completes a handshake in SYN-RECEIVED is not treated that way: its sequence number becomes
`SND.WL1` as it is.  Where it is ahead of `RCV.NXT`, the window is frozen (`third_ack_freezes_window`);
where it is not (`OnTime`), in no state of the run (`send_window_never_frozen`).
-/

namespace TcpSansIo

open Proc FixedWidth

variable {P : Params}

namespace Tcb

/-- The peer's SYN has arrived. -/
def hasPeer : State → Bool
  | .synRcvd => true
  | s => s.isSynchronized

lemma hasPeer_of_isSynchronized {s : State} (h : s.isSynchronized = true) : hasPeer s = true := by
  cases s <;> first | rfl | cases h

/-- Where the send window was taken from. -/
structure WindowOrigin (t : Tcb P) : Prop where
  behind : hasPeer t.state = true → ∃ n : ℕ, ((t.received : ℤ) + t.finTaken.toNat) = t.wlPos + n ∧
    t.rcvNxt = t.sndWl1 + BitVec.ofNat 32 n
  ack : hasPeer t.state = true →
    t.sndWl2 = t.sndUna ∨ t.wlPos < (t.received : ℤ) + t.finTaken.toNat

namespace WindowOrigin

variable {t : Tcb P}

/-- A state of another kind, in the same connection. -/
lemma of_state (h : WindowOrigin t) {s : State} (hpeer : hasPeer t.state = true)
    (hfin : (s.isSynchronized && !s.canRecv) = t.finTaken) : WindowOrigin { t with state := s } := by
  refine ⟨fun _ => ?_, fun _ => ?_⟩
  · obtain ⟨n, hpos, hnxt⟩ := h.behind hpeer
    refine ⟨n, ?_, hnxt⟩
    change (t.received : ℤ) + (s.isSynchronized && !s.canRecv).toNat = _
    rw [hfin]
    exact hpos
  · change _ ∨ t.wlPos < (t.received : ℤ) + (s.isSynchronized && !s.canRecv).toNat
    rw [hfin]
    exact h.ack hpeer

lemma of_no_peer (h : hasPeer t.state = false) : WindowOrigin t := by
  refine ⟨fun hpeer => ?_, fun hpeer => ?_⟩ <;> rw [h] at hpeer <;> cases hpeer

/-- A window taken from a segment at or before `RCV.NXT` that acknowledges `SND.UNA`. -/
lemma of_update (seq : U32) (hseq : ¬ seqGt seq t.rcvNxt) (hwl1 : t.sndWl1 = seq)
    (hpos : t.wlPos = t.streamPos seq) (hwl2 : t.sndWl2 = t.sndUna) : WindowOrigin t := by
  refine ⟨fun _ => ⟨(-(seq - t.rcvNxt).toInt).toNat, ?_, ?_⟩, fun _ => .inl hwl2⟩
  · rw [seqGt, not_lt] at hseq
    rw [hpos, streamPos, Int.toNat_of_nonneg (by omega)]
    omega
  · rw [seqGt, not_lt] at hseq
    rw [hwl1]
    have hneg : BitVec.ofNat 32 (-(seq - t.rcvNxt).toInt).toNat = t.rcvNxt - seq := by
      rw [← BitVec.ofInt_natCast, Int.toNat_of_nonneg (by omega), BitVec.ofInt_neg, BitVec.ofInt_toInt]
      bv_omega
    rw [hneg]
    bv_omega

/-- The sequence number the window of a segment is ordered by is not ahead of the stream. -/
lemma windowSeq_behind (t : Tcb P) (seg : Segment) : ¬ seqGt (t.windowSeq seg) t.rcvNxt := by
  unfold windowSeq
  split
  case isTrue =>
    rw [seqGt_iff, BitVec.sub_self]
    simp
  case isFalse h => exact h

/-- The block with the window that `seg` leaves. -/
lemma of_window (h : WindowOrigin t) {seg : Segment} (hack : seg.ack = t.sndUna) :
    WindowOrigin { t with toSendWindow := t.windowAfter seg t.sndUna } := by
  unfold windowAfter
  split
  · exact of_update (t.windowSeq seg) (windowSeq_behind t seg) rfl rfl hack
  · exact h

/-- An ACK that advances `SND.UNA` always updates the window. -/
lemma newer_of_acked (hf : Flight t) {seg : Segment} (hlo : ¬ seqLt seg.ack t.sndUna)
    (hhi : ¬ seqGt seg.ack t.sndNxt) (hne : seg.ack ≠ t.sndUna) : t.NewerWindow seg t.sndUna := by
  left
  have hle := hf.ack_le hlo hhi
  have hlt := hf.flight_lt
  have hpos : seg.ack - t.sndUna ≠ 0#32 := fun h => hne (by bv_omega)
  rw [seqGt_iff]
  generalize seg.ack - t.sndUna = x at *
  constructor
  · bv_omega
  · omega

/-- Text and FIN of a segment move `RCV.NXT` on. -/
lemma of_segment (h : WindowOrigin t) {seg : Segment} (hstate : t.state.canRecv = true) :
    WindowOrigin (t.receiveSegment seg).2 := by
  obtain ⟨n, f, hadv⟩ := receiveSegment_advances t seg
  have hframe := receiveSegment_frame t seg
  have hsync := isSynchronized_of_canRecv hstate
  have hpeer := hasPeer_of_isSynchronized hsync
  have hfin : t.finTaken = false := by
    rw [finTaken, hstate, Bool.not_true, Bool.and_false]
  have hfin' : (t.receiveSegment seg).2.finTaken = f := by
    rw [finTaken, receiveSegment_isSynchronized seg hsync, hadv.recv, hstate]
    cases f <;> rfl
  have hrec : (t.receiveSegment seg).2.received = t.received + n := by
    rw [received, received, hadv.delivered, hadv.len, Nat.add_assoc]
  have hwin : (t.receiveSegment seg).2.toSendWindow = t.toSendWindow := hframe.of fun t => t.toSendWindow
  have huna : (t.receiveSegment seg).2.sndUna = t.sndUna := hframe.of fun t => t.sndUna
  obtain ⟨m, hpos, hnxt⟩ := h.behind hpeer
  have hack := h.ack hpeer
  rw [hfin, Bool.toNat_false] at hpos hack
  refine ⟨fun _ => ⟨m + n + f.toNat, ?_, ?_⟩, fun _ => ?_⟩
  · rw [hfin', hrec, hwin]
    push_cast
    omega
  · rw [hadv.nxt, hwin, hnxt, BitVec.ofNat_add, BitVec.ofNat_add, ofFlag]
    simp only [BitVec.add_assoc]
    cases f <;> rfl
  · rw [hwin, huna, hfin', hrec]
    refine hack.imp id fun hlt => ?_
    push_cast at hlt ⊢
    omega

/-- The peer's SYN. -/
lemma of_syn (irs : U32) (hwl1 : t.sndWl1 = irs) (hnxt : t.rcvNxt = irs + 1)
    (hpos : t.wlPos = (t.received : ℤ) - 1) (hfin : t.finTaken = false) : WindowOrigin t := by
  refine ⟨fun _ => ⟨1, ?_, ?_⟩, fun _ => .inr ?_⟩
  · rw [hpos, hfin]
    simp
  · rw [hwl1, hnxt]
    rfl
  · rw [hpos, hfin]
    simp

lemma received_deliver (t : Tcb P) (n : ℕ) :
    (t.delivered ++ (t.recvRing.read n).1).length + (t.recvRing.read n).2.len = t.received := by
  rw [received, ← Ring.length_contents, ← Ring.length_contents, ← List.length_append,
    ← List.length_append, stream_deliver]
  rfl

end WindowOrigin

instance (t : Tcb P) (seg : Segment) : Decidable (t.ThirdAck seg) :=
  decidable_of_iff
    (t.OnTuple seg ∧ seg.flags.ack = true ∧ seg.flags.rst = false ∧ seg.ack = t.iss + 1 ∧
      if seg.flags.syn then seg.seq = t.irs
      else t.acceptable seg.seq (seg.payloadLen + ofFlag 32 seg.flags.fin) = true)
    ⟨fun ⟨htuple, hflag, hrst, hack, hseq⟩ => ⟨htuple, hflag, hrst, hack, hseq⟩,
      fun h => ⟨h.tuple, h.flag, h.rst, h.ack, h.seq⟩⟩

/-- The segment, if it completes an open in SYN-RECEIVED, is not ahead of the stream. -/
def OnTime (t : Tcb P) (seg : Segment) : Prop :=
  t.state = .synRcvd → t.ThirdAck seg → ¬ seqGt seg.seq t.rcvNxt

instance (t : Tcb P) (seg : Segment) : Decidable (t.OnTime seg) :=
  inferInstanceAs (Decidable (_ → _ → _))

lemma WindowOrigin.step {t t' : Tcb P} {l : Option Segment} (hstep : Step t l t') (hf : Flight t)
    (htime : ∀ seg ∈ l, t.OnTime seg) (h : WindowOrigin t) : WindowOrigin t' := by
  cases hstep with
  | @acked seg q rto tlp hstate hlo hhi hne =>
    rw [updateSendWindow_window, windowAfter, if_pos (newer_of_acked hf hlo hhi hne)]
    exact of_update (t.windowSeq seg) (windowSeq_behind t seg) rfl rfl rfl
  | @window seg hstate hack =>
    rw [updateSendWindow_window]
    exact h.of_window hack
  | finWait2 hstate =>
    refine h.of_state (by rw [hstate]; rfl) ?_
    rw [finTaken, hstate]
    rfl
  | timeWait hstate =>
    have h' := h.of_state (s := .timeWait) (by rw [hstate]; rfl) (by rw [finTaken, hstate]; rfl)
    exact ⟨h'.behind, h'.ack⟩
  | segment hstate => exact h.of_segment hstate
  | @deliver n =>
    have hrec := received_deliver t n
    refine ⟨fun hpeer => ?_, fun hpeer => ?_⟩
    · obtain ⟨m, hpos, hnxt⟩ := h.behind hpeer
      refine ⟨m, ?_, hnxt⟩
      rw [← hpos, ← hrec]
      rfl
    · have hack := h.ack hpeer
      rw [← hrec] at hack
      exact hack
  | @close s hstate =>
    refine h.of_state ?_ ?_
    · rcases hstate with ⟨hs | hs, -⟩ | ⟨hs, -⟩ <;> rw [hs] <;> rfl
    · rw [finTaken]
      rcases hstate with ⟨hs | hs, rfl⟩ | ⟨hs, rfl⟩ <;> rw [hs] <;> rfl
  | abort => exact of_no_peer rfl
  | closeClean => exact of_no_peer rfl
  | timeWaitOver => exact of_no_peer rfl
  | @reset s _ _ _ _ hstate =>
    refine of_no_peer ?_
    change hasPeer s = false
    rcases hstate with rfl | rfl <;> rfl
  | connected => exact of_no_peer rfl
  | @halfOpened seg => exact of_syn seg.seq rfl rfl rfl rfl
  | @activeOpened seg =>
    refine ⟨fun _ => ⟨1, ?_, rfl⟩, fun _ => .inl rfl⟩
    change (t.received : ℤ) + 0 = (t.received : ℤ) - 1 + 1
    omega
  | @simultaneous seg => exact of_syn seg.seq rfl rfl rfl rfl
  | @passiveOpened seg hstate hthird =>
    have hseq := htime seg rfl hstate hthird
    refine of_update seg.seq hseq rfl ?_ rfl
    change t.streamPos seg.seq = (t.received : ℤ) + 0 + (seg.seq - t.rcvNxt).toInt
    rw [streamPos, finTaken, hstate]
    rfl
  | @cookieOpened seg =>
    refine ⟨fun _ => ⟨0, ?_, ?_⟩, fun _ => .inl rfl⟩
    · rfl
    · change seg.seq - 1 + 1 = seg.seq + 0
      bv_omega
  | _ => exact ⟨h.behind, h.ack⟩

/-! ## Runs -/

/-- A half-open connection in `t` was there in `t₀`. -/
def SameHalfOpen (t₀ t : Tcb P) : Prop :=
  t.state = .synRcvd → t₀.state = .synRcvd ∧ t.rcvNxt = t₀.rcvNxt ∧ t.irs = t₀.irs ∧ t.iss = t₀.iss ∧
    t.localEp = t₀.localEp ∧ t.remoteEp = t₀.remoteEp

/-- Only a segment without ACK makes a connection half-open. -/
lemma SameHalfOpen.step {t₀ t t' : Tcb P} {l : Option Segment} (hstep : Step t l t')
    (hack : ∀ seg ∈ l, seg.flags.ack = true) (h : SameHalfOpen t₀ t) : SameHalfOpen t₀ t' := by
  have hother : ∀ {s : State}, s ≠ .synRcvd → t'.state = s → SameHalfOpen t₀ t' :=
    fun hne hs hsyn => absurd (hs.symm.trans hsyn) hne
  cases hstep with
  | finWait2 => exact hother (s := .finWait2) (by decide) rfl
  | timeWait => exact hother (s := .timeWait) (by decide) rfl
  | @segment seg hstate =>
    intro hs
    have hsync := receiveSegment_isSynchronized seg (isSynchronized_of_canRecv hstate)
    rw [hs] at hsync
    cases hsync
  | @close s hstate =>
    refine hother (s := s) ?_ rfl
    rcases hstate with ⟨-, rfl⟩ | ⟨-, rfl⟩ <;> decide
  | abort => exact hother (s := .closed) (by decide) rfl
  | closeClean => exact hother (s := .closed) (by decide) rfl
  | timeWaitOver => exact hother (s := .closed) (by decide) rfl
  | @reset s _ _ _ _ hstate =>
    refine hother (s := s) ?_ rfl
    rcases hstate with rfl | rfl <;> decide
  | connected => exact hother (s := .synSent) (by decide) rfl
  | @halfOpened seg _ _ _ _ _ _ _ _ _ _ _ hno =>
    rw [hack seg rfl] at hno
    cases hno
  | activeOpened => exact hother (s := .established) (by decide) rfl
  | @simultaneous seg _ _ hno =>
    rw [hack seg rfl] at hno
    cases hno
  | passiveOpened => exact hother (s := .established) (by decide) rfl
  | cookieOpened => exact hother (s := .established) (by decide) rfl
  | _ => exact h

/-- The receive window is all of the receive buffer until the connection is open. -/
lemma Receipts.free {t : Tcb P} (h : Receipts t) (hs : t.state = .synRcvd) :
    t.recvRing.free = P.BUF := by
  have hrec := h.early (.inr hs)
  rw [received] at hrec
  rw [Ring.free]
  omega

/-- What completes the open of a half-open connection stays the same while it is half-open. -/
lemma OnTime.of_same {t₀ t : Tcb P} {seg : Segment} (h : t₀.OnTime seg) (hr₀ : Receipts t₀)
    (hr : Receipts t) (hsame : seg.flags.ack = true → SameHalfOpen t₀ t) : t.OnTime seg := by
  intro hs hthird
  obtain ⟨hs₀, hnxt, hirs, hiss, hlocal, hremote⟩ := hsame hthird.flag hs
  have hacc : t₀.acceptable = t.acceptable := by
    funext seq len
    rw [acceptable, acceptable, hr.free hs, hr₀.free hs₀, hnxt]
  rw [hnxt]
  refine h hs₀ ⟨?_, hthird.flag, hthird.rst, ?_, ?_⟩
  · rw [OnTuple, ← hlocal, ← hremote]
    exact hthird.tuple
  · rw [← hiss]
    exact hthird.ack
  · rw [← hirs, hacc]
    exact hthird.seq

end Tcb

open Tcb

/-- What one call keeps if the segment it delivers is on time. -/
lemma stableOn_windowOrigin {t₀ : Tcb P} {s : Option Segment} (hr₀ : Receipts t₀)
    (htime : ∀ seg ∈ s, t₀.OnTime seg) : StableOn s fun t => t.Flight ∧ Receipts t ∧ WindowOrigin t ∧
      ((∀ seg ∈ s, seg.flags.ack = true) → SameHalfOpen t₀ t) where
  core t := and_congr (Flight.stable.core t) (and_congr (Receipts.stable.core t)
    (and_congr ⟨fun h => ⟨h.behind, h.ack⟩, fun h => ⟨h.behind, h.ack⟩⟩ Iff.rfl))
  step t l t' hl hstep h := by
    obtain ⟨hf, hr, hw, hsame⟩ := h
    have hsub : ∀ seg ∈ l, seg ∈ s := by
      intro seg hseg
      rcases hl with hl | hl
      · rw [hl] at hseg
        exact absurd hseg (Option.not_mem_none seg)
      · rw [← hl]
        exact hseg
    refine ⟨Flight.stable.step t l t' hstep hf, Receipts.step t l t' hstep hr,
      hw.step hstep hf fun seg hseg => ?_, fun hack => ?_⟩
    · refine (htime seg (hsub seg hseg)).of_same hr₀ hr fun hflag => hsame fun seg' hseg' => ?_
      cases Option.mem_unique (hsub seg hseg) hseg'
      exact hflag
    · exact (hsame hack).step hstep fun seg hseg => hack seg (hsub seg hseg)

/-- The segment the call hands to the connection is on time. -/
def OnTimeCall (t : Tcb P) (c : Call) : Prop := ∀ seg ∈ c.taken P, t.OnTime seg

instance (t : Tcb P) (c : Call) : Decidable (OnTimeCall t c) :=
  inferInstanceAs (Decidable (∀ seg ∈ c.taken P, _))

lemma ReachableBy.windowOrigin {t : Tcb P} (ht : ReachableBy OnTimeCall t) : WindowOrigin t := by
  refine ht.invariant (fun cfg => WindowOrigin.of_no_peer rfl) fun t c hreach htime h => ?_
  have hr := hreach.receipts
  have hstable := stableOn_windowOrigin (s := c.taken P) hr htime
  exact (hstable.leads (c.run_leads t)
    ⟨hreach.flight, hr, h, fun _ hs => ⟨hs, rfl, rfl, rfl, rfl, rfl⟩⟩).2.2.1

/-! ## Segments at `RCV.NXT` -/

namespace Tcb

namespace WindowOrigin

variable {t : Tcb P}

/-- How far `SND.WL1` is behind `RCV.NXT`. -/
lemma lag (h : WindowOrigin t) (hsync : t.state.isSynchronized = true)
    (hsince : (t.received : ℤ) - t.wlPos < 2 ^ 31) :
    ∃ n ≤ 2 ^ 31, t.rcvNxt = t.sndWl1 + BitVec.ofNat 32 n ∧ (n = 0 → t.sndWl2 = t.sndUna) := by
  have hpeer := hasPeer_of_isSynchronized hsync
  obtain ⟨n, hpos, hnxt⟩ := h.behind hpeer
  have hflag := Bool.toNat_le t.finTaken
  refine ⟨n, by omega, hnxt, fun hn => (h.ack hpeer).resolve_right ?_⟩
  omega

lemma wl1_le (h : WindowOrigin t) (hsync : t.state.isSynchronized = true)
    (hsince : (t.received : ℤ) - t.wlPos < 2 ^ 31) : seqLe t.sndWl1 t.rcvNxt := by
  obtain ⟨n, hn, hnxt, -⟩ := h.lag hsync hsince
  rw [hnxt, seqLe_iff]
  have hsub : t.sndWl1 - (t.sndWl1 + BitVec.ofNat 32 n) = 0#32 - BitVec.ofNat 32 n := by bv_omega
  rw [hsub]
  bv_omega

lemma wl2_eq (h : WindowOrigin t) (hsync : t.state.isSynchronized = true)
    (hsince : (t.received : ℤ) - t.wlPos < 2 ^ 31) (heq : t.sndWl1 = t.rcvNxt) :
    t.sndWl2 = t.sndUna := by
  obtain ⟨n, hn, hnxt, hack⟩ := h.lag hsync hsince
  refine hack ?_
  rw [heq] at hnxt
  bv_omega

/-- The window of a segment at `RCV.NXT` is newer than any window seen. -/
lemma newer (h : WindowOrigin t) (hsync : t.state.isSynchronized = true)
    (hsince : (t.received : ℤ) - t.wlPos < 2 ^ 31) {seg : Segment} (hseq : seg.seq = t.rcvNxt)
    (hlo : ¬ seqLt seg.ack t.sndUna) : t.NewerWindow seg t.sndUna := by
  have hwin : t.windowSeq seg = t.rcvNxt := by
    rw [windowSeq, hseq, ite_self]
  have hle := h.wl1_le hsync hsince
  rw [NewerWindow, hwin]
  by_cases heq : t.sndWl1 = t.rcvNxt
  · refine .inr (.inr ⟨heq, ?_⟩)
    rw [h.wl2_eq hsync hsince heq]
    by_contra hnot
    exact hlo (seqLt_of_not_seqLe hnot)
  · refine .inr (.inl ?_)
    rw [seqLe_iff] at hle
    rw [seqLt_iff]
    refine hle.resolve_left fun hzero => heq ?_
    bv_omega

end WindowOrigin

lemma ourFinAcked_wnd (t : Tcb P) : t.ourFinAcked.sndWnd = t.sndWnd := by
  unfold ourFinAcked
  split
  · split <;> rfl
  · rfl

/-- A newer window is taken. -/
lemma processAck_wnd {t : Tcb P} {seg : Segment} (hlo : ¬ seqLt seg.ack t.sndUna)
    (hnew : t.NewerWindow seg t.sndUna) :
    (final (processAck seg t)).sndWnd = t.scalePeerWindow seg.window := by
  unfold processAck
  rw [run_modify_bind, run_get_bind, if_neg hlo]
  have hwin : (t.windowAfter seg t.sndUna).sndWnd = t.scalePeerWindow seg.window := by
    rw [windowAfter, if_pos hnew]
  have hreact := (congrArg SendWindow.sndWnd
    (reactToAck_window seg ({ t with rtxCount := 0 } : Tcb P))).trans hwin
  refine bind_rule (Q := fun r : EStateM.Result Fault (Tcb P) Unit => (final r).sndWnd = t.scalePeerWindow seg.window)
    (fun _ t' h => ?_) (fun e t' h => ?_)
  · rw [h] at hreact
    exact (ourFinAcked_wnd t').trans hreact
  · rw [h] at hreact
    exact hreact

lemma maybeSendData_wnd : Leaves (Agree fun t : Tcb P => t.sndWnd) maybeSendData :=
  maybeSendData_footprint.agree_of (fun t => t.sndWnd) fun _ => rfl

lemma sendPureAck_wnd : Leaves (Agree fun t : Tcb P => t.sndWnd) sendPureAck :=
  sendPureAck_footprint.agree_of (fun t => t.sndWnd) fun _ => rfl

lemma answerText_wnd (seg : Segment) (ackNow advanced : Bool) :
    Leaves (Agree fun t : Tcb P => t.sndWnd) (answerText seg ackNow advanced) := by
  refine Leaves.ite sendPureAck_wnd (Leaves.ite ?_ (Leaves.ite ?_ (Leaves.ofPure _)))
  · exact Leaves.ofModify fun t => (scheduleDelayedAck_footprint _ t).of fun t => t.sndWnd
  · exact sendOowAck_footprint.agree_of (fun t => t.sndWnd) fun _ => rfl

/-- Nothing an accepted segment does after its ACK touches the send window. -/
lemma acceptSegment_wnd {t : Tcb P} {seg : Segment} (probe : Bool) (hlo : ¬ seqLt seg.ack t.sndUna)
    (hnew : t.NewerWindow seg t.sndUna) :
    (final (acceptSegment seg probe t)).sndWnd = t.scalePeerWindow seg.window := by
  unfold acceptSegment
  rw [run_modify_bind]
  set u : Tcb P := ((t.updateTsRecent seg).updateEcnEcho seg).onPeerAlive with hu
  have hcore : u.core = t.core :=
    (onPeerAlive_core _).trans ((updateEcnEcho_core _ seg).trans (updateTsRecent_core t seg))
  have huna : u.sndUna = t.sndUna := core_of hcore fun c => c.sndUna
  have hproc : (final (processAck seg u)).sndWnd = u.scalePeerWindow seg.window := by
    refine processAck_wnd (by rw [huna]; exact hlo) ?_
    have hnew' : u.core.NewerWindow seg u.sndUna := by
      rw [hcore, huna]
      exact hnew
    exact hnew'
  have hscale : u.scalePeerWindow seg.window = t.scalePeerWindow seg.window :=
    core_of hcore fun c => c.scalePeerWindow seg.window
  rw [← hscale]
  refine bind_rule (Q := fun r : EStateM.Result Fault (Tcb P) Unit => (final r).sndWnd = u.scalePeerWindow seg.window)
    (fun _ t' h => ?_) (fun e t' h => ?_)
  · rw [h] at hproc
    refine Eq.trans ?_ hproc
    have hrest : Leaves (Agree fun t : Tcb P => t.sndWnd) (do
        let ackNow ← modifyGet fun t => t.receiveSegment seg
        let t'' ← get
        answerText seg ackNow (t''.rcvNxt != t'.rcvNxt)
        maybeSendData) := by
      refine Leaves.bind (Leaves.ofModifyGet fun t => ?_) fun _ => Leaves.bind Leaves.ofGet fun _ =>
        Leaves.bind (answerText_wnd _ _ _) fun _ => maybeSendData_wnd
      exact (receiveSegment_frame t seg).of fun t => t.sndWnd
    have hprobe : Leaves (Agree fun t : Tcb P => t.sndWnd) (do sendPureAck; maybeSendData) :=
      Leaves.bind sendPureAck_wnd fun _ => maybeSendData_wnd
    exact Leaves.ite (Leaves.ofPure _) (Leaves.ite hprobe hrest) t'
  · rw [h] at hproc
    exact hproc

end Tcb

/-- In every run in which no ACK that completes an open in SYN-RECEIVED is ahead of the stream:
`SND.WL1` is not ahead of `RCV.NXT`, and `SND.WL2` not ahead of `SND.UNA` where `SND.WL1` has reached
it.  So an accepted segment at `RCV.NXT` whose ACK is not old sets the send window. -/
theorem send_window_never_frozen {t : Tcb P} (ht : ReachableBy OnTimeCall t)
    (hsync : t.state.isSynchronized = true) (hsince : (t.received : ℤ) - t.wlPos < 2 ^ 31) :
    seqLe t.sndWl1 t.rcvNxt ∧ (t.sndWl1 = t.rcvNxt → seqLe t.sndWl2 t.sndUna) ∧
      ∀ (c : Call) (seg : Segment), c.Delivers P seg → t.OnTuple seg → t.Accepted seg →
        seg.seq = t.rcvNxt → ¬ seqLt seg.ack t.sndUna →
        (final (c.run t)).sndWnd = t.scalePeerWindow seg.window := by
  have h := ht.windowOrigin
  refine ⟨h.wl1_le hsync hsince, fun heq => ?_, fun c seg hc htuple hacc hseq hlo => ?_⟩
  · rw [h.wl2_eq hsync hsince heq, seqLe, BitVec.sub_self]
    rfl
  · rw [hc.final_run, injectSegment_of_accepted hsync htuple hacc]
    exact acceptSegment_wnd (t := t.countIn) _ hlo (h.newer hsync hsince hseq hlo)

lemma tinyOpen_onTime : ReachableBy OnTimeCall tinyOpen :=
  (ReachableBy.new _).runAll (by decide +kernel)

/-- The peer of the tiny client opens its window to 32 bytes. -/
def peerWindow : List U8 := datagram { peerAck with window := 32 } []

lemma peerWindow_parses : (parse tiny.littleEndian peerWindow).toOption.isSome = true := by
  decide +kernel

theorem tiny_window_taken :
    (final (Call.run (.injectPacket peerWindow) tinyOpen)).sndWnd =
      tinyOpen.scalePeerWindow ((parse tiny.littleEndian peerWindow).toOption.get
        peerWindow_parses).window := by
  refine (send_window_never_frozen tinyOpen_onTime (by decide +kernel) (by decide +kernel)).2.2 _ _
    (.inl ⟨peerWindow, rfl, parse_get peerWindow_parses⟩) ?_ ?_ (by decide +kernel) (by decide +kernel)
  · exact ⟨by decide +kernel, by decide +kernel, by decide +kernel, by decide +kernel⟩
  · exact ⟨by decide +kernel, by decide +kernel, by decide +kernel, .inl (by decide +kernel),
      by decide +kernel, by decide +kernel⟩

/-! ## An ACK of the SYN-ACK that is ahead of the stream -/

/-- A listener that has answered the SYN of a peer. -/
def tinyHalfOpen : Tcb tiny :=
  runAll [.setSecret (Vector.replicate 16 0), .listen, .injectPacket (datagram
    { peerAck with seq := 5, ack := 0, flags := { syn := true } } [])] tinyClient

/-- The peer's ACK of the SYN-ACK, ten bytes ahead of the stream, with a window of one byte. -/
def tinyAhead : Tcb tiny :=
  runAll [.injectPacket (datagram { peerAck with seq := 16, ack := 1, window := 1 } [])] tinyHalfOpen

/-- The segment that comes next in the stream, with a window of 64 bytes. -/
def nextInStream : List U8 := datagram { peerAck with seq := 6, ack := 1, window := 64 } []

/-- An ACK of our SYN-ACK that is ahead of the stream freezes the send window: the segment at `RCV.NXT`
is accepted and its window is not taken. -/
theorem third_ack_freezes_window :
    Reachable tinyAhead ∧ tinyAhead.state.isSynchronized = true ∧ tinyAhead.received = 0 ∧
      ¬ seqLe tinyAhead.sndWl1 tinyAhead.rcvNxt ∧
      (final (Call.run (.injectPacket nextInStream) tinyAhead)).sndWnd = 1 := by
  have hreach : Reachable tinyHalfOpen := (Reachable.new _).runAll (by decide +kernel)
  exact ⟨hreach.runAll (by decide +kernel), by decide +kernel, by decide +kernel, by decide +kernel,
    by decide +kernel⟩

end TcpSansIo
