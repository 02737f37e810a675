import TcpSansIo.Machine.Log

/-!
# What is in flight

`Flight` ties the send sequence space to the retransmission queue: the records cover exactly what is
outstanding beyond our SYN, our SYN is outstanding only while there is no data, and during a handshake
nothing else is.  It holds in every reachable block (`Reachable.flight`), whatever the capacity of the
rings.  Far less than half the sequence space is ever outstanding (`Flight.flight_lt`), so comparisons
of sequence numbers around `SND.UNA` mean what they say.
-/

namespace TcpSansIo

open Proc FixedWidth

variable {P : Params}

namespace Tcb

/-- The states in which our SYN can be unacknowledged: `close` is allowed in SYN-RECEIVED. -/
def synOutStates : State → Bool
  | .synSent | .synRcvd | .finWait1 | .closing => true
  | _ => false

/-- Outstanding sequence numbers from the first data byte on. -/
def out (t : Tcb P) : ℕ := (t.sndNxt - t.dataUna).toNat

/-- What is in flight: the records of the queue, and our SYN. -/
structure Flight (t : Tcb P) : Prop where
  queue : t.rtx.Valid t.dataUna t.sndNxt none
  syn : t.synUnacked = true →
    t.sndUna = t.iss ∧ t.sendRing.len = 0 ∧ synOutStates t.state = true
  handshake : t.state = .synSent ∨ t.state = .synRcvd → t.synUnacked = true ∧ t.sndNxt = t.iss + 1
  timeWait : t.timeWaitDeadline.isArmed = true → t.state = .timeWait

namespace Flight

variable {t : Tcb P}

/-- All that `Flight` looks at. -/
def view (t : Tcb P) : SendSeq × RtxQueue P.RTX × Ring P.BUF × State × Deadline :=
  (t.toSendSeq, t.rtx, t.sendRing, t.state, t.timeWaitDeadline)

lemma of_agree {t' : Tcb P} (h : Flight t) (hsame : Agree view t t') : Flight t' := by
  have hseq : t'.toSendSeq = t.toSendSeq := hsame.of Prod.fst
  have hrtx : t'.rtx = t.rtx := hsame.of fun x => x.2.1
  have hring : t'.sendRing = t.sendRing := hsame.of fun x => x.2.2.1
  have hstate : t'.state = t.state := hsame.of fun x => x.2.2.2.1
  have htw : t'.timeWaitDeadline = t.timeWaitDeadline := hsame.of fun x => x.2.2.2.2
  constructor
  · unfold dataUna synOutstanding
    rw [hseq, hrtx]
    exact h.queue
  · rw [hseq, hring, hstate]
    exact h.syn
  · rw [hseq, hstate]
    exact h.handshake
  · rw [htw, hstate]
    exact h.timeWait

lemma out_lt (h : Flight t) : t.out < 2 ^ 21 := by
  rw [out, h.queue.span_eq]
  exact h.queue.span_lt

/-- Everything outstanding: the data and the FIN, after the SYN if it is still out. -/
lemma flight_eq (h : Flight t) : (t.sndNxt - t.sndUna).toNat = t.out + t.synUnacked.toNat := by
  have hlt := h.out_lt
  have hflag := Bool.toNat_le t.synUnacked
  have hsplit : t.sndNxt - t.sndUna = (t.sndNxt - t.dataUna) + ofFlag 32 t.synUnacked := by
    unfold dataUna synOutstanding
    bv_omega
  rw [hsplit, BitVec.toNat_add, toNat_ofFlag (by decide)]
  change (t.out + _) % 2 ^ 32 = _
  rw [Nat.mod_eq_of_lt (by omega)]

lemma flight_lt (h : Flight t) : (t.sndNxt - t.sndUna).toNat ≤ 2 ^ 21 := by
  have hlt := h.out_lt
  have hflag := Bool.toNat_le t.synUnacked
  rw [h.flight_eq]
  omega

lemma una_eq_nxt_iff (h : Flight t) : t.sndUna = t.sndNxt ↔ t.out + t.synUnacked.toNat = 0 := by
  rw [← h.flight_eq]
  constructor
  · intro heq
    rw [heq, BitVec.sub_self]
    rfl
  · intro hzero
    bv_omega

lemma una_ne_nxt_of_syn (h : Flight t) (hsyn : t.synUnacked = true) : t.sndUna ≠ t.sndNxt := by
  rw [Ne, h.una_eq_nxt_iff, hsyn]
  simp

/-- An ACK that is neither old nor ahead acknowledges part of what is outstanding. -/
lemma ack_le (h : Flight t) {ack : U32} (hlo : ¬ seqLt ack t.sndUna) (hhi : ¬ seqGt ack t.sndNxt) :
    (ack - t.sndUna).toNat ≤ (t.sndNxt - t.sndUna).toNat := by
  have hlt := h.flight_lt
  rw [seqLt_iff] at hlo
  rw [seqGt_iff] at hhi
  have hsub : ack - t.sndNxt = (ack - t.sndUna) - (t.sndNxt - t.sndUna) := by bv_omega
  rw [hsub] at hhi
  generalize ack - t.sndUna = x at *
  generalize t.sndNxt - t.sndUna = y at *
  clear hsub
  bv_omega

/-- Without the SYN, if it was outstanding. -/
lemma ack_le_data (h : Flight t) {ack : U32} (hlo : ¬ seqLt ack t.sndUna) (hhi : ¬ seqGt ack t.sndNxt)
    (hne : ack ≠ t.sndUna) : (ack - t.dataUna).toNat ≤ (t.sndNxt - t.dataUna).toNat := by
  have hle := h.ack_le hlo hhi
  have hlt := h.flight_lt
  unfold dataUna synOutstanding
  cases t.synUnacked with
  | false =>
    change (ack - (t.sndUna + 0#32)).toNat ≤ (t.sndNxt - (t.sndUna + 0#32)).toNat
    rw [BitVec.add_zero]
    exact hle
  | true =>
    change (ack - (t.sndUna + 1#32)).toNat ≤ (t.sndNxt - (t.sndUna + 1#32)).toNat
    have h₁ : ack - (t.sndUna + 1#32) = (ack - t.sndUna) - 1#32 := by bv_omega
    have h₂ : t.sndNxt - (t.sndUna + 1#32) = (t.sndNxt - t.sndUna) - 1#32 := by bv_omega
    have hpos : ack - t.sndUna ≠ 0#32 := fun h => hne (by bv_omega)
    rw [h₁, h₂]
    generalize ack - t.sndUna = x at *
    generalize t.sndNxt - t.sndUna = y at *
    clear h₁ h₂
    bv_omega

/-- While the SYN is out there is no data to send. -/
lemma newOk_closing (h : Flight t) (hsyn : t.synUnacked = true) {len : U32} {fin : Bool}
    {probe : Option (U32 × U16)} (hnew : t.NewOk len fin probe) : t.finOwed = true := by
  have hring := (h.syn hsyn).2.1
  have hunsent : t.unsentBytes.toNat = 0 := by
    unfold unsentBytes
    rw [toNat_satSub, hring]
    simp
  have hqueued := hnew.queued
  have hfin : fin = true := hnew.nonempty.resolve_left (by omega)
  have hlast := hnew.last
  rw [hfin, Bool.true_eq, Bool.and_eq_true] at hlast
  exact hlast.1

/-- Nothing is sent for the first time during a handshake. -/
lemma no_new_in_handshake (h : Flight t) (hstate : t.state = .synSent ∨ t.state = .synRcvd) {len : U32}
    {fin : Bool} {probe : Option (U32 × U16)} (hnew : t.NewOk len fin probe) : False := by
  have howed := h.newOk_closing (h.handshake hstate).1 hnew
  unfold finOwed at howed
  rcases hstate with hs | hs <;> rw [hs] at howed <;> cases howed

/-! ## Steps -/

lemma toNat_newLen {len : U32} (fin : Bool) (hshort : len.toNat ≤ MSS.toNat) :
    (len + ofFlag 32 fin).toNat = len.toNat + fin.toNat := by
  have h₁ : MSS.toNat = 1460 := rfl
  have h₂ := Bool.toNat_le fin
  rw [BitVec.toNat_add, toNat_ofFlag (by decide), Nat.mod_eq_of_lt (by omega)]

/-- The record of a first transmission is well formed and adds nothing to the counters. -/
lemma newSeg_ok {len : U32} {fin : Bool} (t : Tcb P) (now : U64) (hshort : len.toNat ≤ MSS.toNat)
    (hsome : 0 < len.toNat ∨ fin = true) :
    (t.newSeg now len fin).Ok ∧ (t.newSeg now len fin).share = 0 := by
  have h₁ : MSS.toNat = 1460 := rfl
  have h₂ := Bool.toNat_le fin
  have hlen : (t.newSeg now len fin).seqLen = len + ofFlag 32 fin := by
    simp only [Seg.seqLen, newSeg]
    bv_omega
  have hnat := toNat_newLen fin hshort
  refine ⟨⟨?_, ?_, fun h => (by cases h), fun h => (by cases h), fun h => (by cases h), fun _ => rfl⟩, rfl⟩
  · rw [hlen, hnat]
    rcases hsome with hpos | hfin
    · omega
    · rw [hfin, Bool.toNat_true]
      omega
  · rw [hlen, hnat]
    omega

/-- What is sent again was not reported to have arrived. -/
lemma unsacked (h : Flight t) {i : ℕ} {s : Seg} (hre : t.ResendOk i s) : s.flags.sacked = false := by
  rcases hre.free with hawaits | hfree
  · have hok := h.queue.ok s (RtxQueue.mem_of_get hre.record)
    by_contra hs
    simp only [Bool.not_eq_false] at hs
    simp [Seg.awaitsRetrans, (hok.sacked hs).1] at hawaits
  · exact hfree

lemma resent (h : Flight t) {i : ℕ} {s : Seg} {len : U32} (hre : t.ResendOk i s)
    (hshort : len.toNat ≤ MSS.toNat) (now : U64) :
    (t.rtx.retransmitted i now
      (if len.toNat < s.payloadLen.toNat then len.setWidth 16 else 0)).Valid t.dataUna t.sndNxt none := by
  refine h.queue.retransmitted hre.record (h.unsacked hre) ?_ now
  split
  case isTrue hlt =>
    have hmss : MSS.toNat = 1460 := rfl
    rw [BitVec.toNat_setWidth, Nat.mod_eq_of_lt (by omega)]
    exact .inr hlt
  case isFalse => exact .inl rfl

/-- Nothing is in flight, and no timer of an earlier connection runs. -/
lemma of_empty {t : Tcb P} {q : RtxQueue P.RTX} (hexact : q.saturated = false) (hq : t.rtx = q.clear)
    (hseq : t.dataUna = t.sndNxt)
    (hsyn : t.synUnacked = true → t.sndUna = t.iss ∧ t.sendRing.len = 0 ∧ synOutStates t.state = true)
    (hhand : t.state = .synSent ∨ t.state = .synRcvd → t.synUnacked = true ∧ t.sndNxt = t.iss + 1)
    (htw : t.timeWaitDeadline = Deadline.OFF) : Flight t where
  queue := by
    rw [hq, hseq]
    exact .clear hexact _ _
  syn := hsyn
  handshake := hhand
  timeWait harmed := by
    rw [htw] at harmed
    cases harmed

lemma segment {seg : Segment} (h : Flight t) (hstate : t.state.canRecv = true) :
    Flight (t.receiveSegment seg).2 := by
  have hframe := receiveSegment_frame t seg
  have hseq : (t.receiveSegment seg).2.toSendSeq = t.toSendSeq := hframe.of fun t => t.toSendSeq
  have hring : (t.receiveSegment seg).2.sendRing = t.sendRing := hframe.of fun t => t.sendRing
  have hrtx : (t.receiveSegment seg).2.rtx = t.rtx := hframe.of fun t => t.rtx
  have hsyn : (t.receiveSegment seg).2.synUnacked = t.synUnacked := congrArg SendSeq.synUnacked hseq
  have huna : (t.receiveSegment seg).2.sndUna = t.sndUna := congrArg SendSeq.sndUna hseq
  have hnxt : (t.receiveSegment seg).2.sndNxt = t.sndNxt := congrArg SendSeq.sndNxt hseq
  have hiss : (t.receiveSegment seg).2.iss = t.iss := congrArg SendSeq.iss hseq
  have hsync := receiveSegment_isSynchronized seg (isSynchronized_of_canRecv hstate)
  refine ⟨?_, fun hs => ?_, fun hs => ?_, receiveSegment_timeWait seg h.timeWait⟩
  · unfold dataUna synOutstanding
    rw [hrtx, hsyn, huna, hnxt]
    exact h.queue
  · rw [hsyn] at hs
    obtain ⟨h₁, h₂, h₃⟩ := h.syn hs
    rw [huna, hiss, hring]
    refine ⟨h₁, h₂, ?_⟩
    rcases receiveSegment_state t seg with hst | ⟨-, hst⟩
    · rw [hst]
      exact h₃
    · -- Our SYN is out, so the FIN that arrived does not find ours acknowledged.
      have hfw : t.state = .finWait1 := by
        cases hs' : t.state <;> rw [hs'] at h₃ hstate <;> 
          first | rfl | exact absurd h₃ (by decide) | exact absurd hstate (by decide)
      have hne := h.una_ne_nxt_of_syn hs
      rw [hst]
      unfold finNext
      rw [hfw]
      dsimp only
      rw [if_neg fun hc => hne hc.2]
      rfl
  · rcases hs with hs | hs <;> rw [hs] at hsync <;> cases hsync

/-- Our SYN went out and nothing else. -/
lemma synOut {u : Tcb P} {q : RtxQueue P.RTX} (hexact : q.saturated = false)
    (hq : u.rtx = q.clear) (huna : u.sndUna = u.iss)
    (hring : u.sendRing.len = 0) (hstate : u.state = .synSent ∨ u.state = .synRcvd)
    (htw : u.timeWaitDeadline = Deadline.OFF) (rto : Deadline) : Flight (u.synOut rto) := by
  refine of_empty hexact hq ?_ (fun _ => ⟨huna, hring, ?_⟩) (fun _ => ⟨rfl, rfl⟩) htw
  · change u.sndUna + 1#32 = u.iss + 1
    rw [huna]
    rfl
  · change synOutStates u.state = true
    rcases hstate with hs | hs <;> rw [hs] <;> rfl

/-- Our SYN is all that is out during the handshake. -/
lemma dataUna_handshake (h : Flight t) (hstate : t.state = .synSent ∨ t.state = .synRcvd) :
    t.dataUna = t.sndNxt ∧ t.sndNxt = t.iss + 1 ∧ t.timeWaitDeadline.isArmed = false := by
  obtain ⟨hsyn, hnxt⟩ := h.handshake hstate
  refine ⟨?_, hnxt, ?_⟩
  · unfold dataUna synOutstanding
    rw [hsyn, hnxt, (h.syn hsyn).1]
    rfl
  · by_contra harmed
    have htw := h.timeWait (by simpa using harmed)
    rcases hstate with hs | hs <;> rw [hs] at htw <;> cases htw

/-- Our SYN was acknowledged, and with it everything. -/
lemma answered {u : Tcb P} {ack : U32} (h : Flight t) (hstate : t.state = .synSent ∨ t.state = .synRcvd)
    (hack : ack = t.sndNxt) (hu : u.state = .established) (hseq : u.dataUna = ack)
    (hnxt : u.sndNxt = t.sndNxt) (hrtx : u.rtx = t.rtx) (hsyn : u.synUnacked = false)
    (htw : u.timeWaitDeadline = t.timeWaitDeadline) : Flight u := by
  obtain ⟨huna, -, hoff⟩ := h.dataUna_handshake hstate
  refine ⟨?_, fun hs => ?_, fun hs => ?_, fun harmed => ?_⟩
  · have hq := h.queue
    rw [huna] at hq
    rw [hseq, hack, hnxt, hrtx]
    exact hq
  · rw [hsyn] at hs
    cases hs
  · rw [hu] at hs
    rcases hs with hs | hs <;> cases hs
  · rw [htw, hoff] at harmed
    cases harmed

lemma synAnswered {seg : Segment} (h : Flight t) (hstate : t.state = .synSent)
    (hlo : seqGt seg.ack t.iss) (hhi : seqLe seg.ack t.sndNxt) : Flight (t.synAnswered seg) := by
  obtain ⟨-, hnxt, -⟩ := h.dataUna_handshake (.inl hstate)
  have hack : seg.ack = t.sndNxt := by
    rw [hnxt, seqLe_iff] at hhi
    rw [seqGt_iff] at hlo
    rw [hnxt]
    bv_omega
  exact h.answered (.inl hstate) hack rfl (BitVec.add_zero _) rfl rfl rfl rfl

lemma synackAnswered {seg : Segment} (h : Flight t) (hstate : t.state = .synRcvd)
    (hack : seg.ack = t.iss + 1) : Flight (t.synackAnswered seg) := by
  obtain ⟨-, hnxt, -⟩ := h.dataUna_handshake (.inr hstate)
  exact h.answered (.inr hstate) (hack.trans hnxt.symm) rfl (BitVec.add_zero _) rfl rfl rfl rfl

lemma crossed {seg : Segment} (h : Flight t) (hstate : t.state = .synSent) : Flight (t.crossed seg) := by
  obtain ⟨-, -, hoff⟩ := h.dataUna_handshake (.inl hstate)
  refine ⟨h.queue, fun hs => ⟨(h.syn hs).1, (h.syn hs).2.1, rfl⟩, fun _ => h.handshake (.inl hstate),
    fun harmed => ?_⟩
  rw [show (t.crossed seg).timeWaitDeadline = t.timeWaitDeadline from rfl, hoff] at harmed
  cases harmed

lemma step (t : Tcb P) (l : Option Segment) (t' : Tcb P) (hstep : Step t l t') (h : Flight t) :
    Flight t' := by
  cases hstep with
  | @first len fin probe opts d hd pkt ring rto tlp now hnew hshort hopts hh hlen hpkt hrto htlp =>
    obtain ⟨hok, hshare⟩ := newSeg_ok t now hshort hnew.nonempty
    refine ⟨(h.queue.push nofun hnew.room rfl hok hshare).2, h.syn, fun hs => ?_, h.timeWait⟩
    exact absurd hnew fun hnew => h.no_new_in_handshake hs hnew
  | again now hre hpart hshort => exact ⟨h.resent hre hshort now, h.syn, h.handshake, h.timeWait⟩
  | remark hq => exact ⟨hq _ _ _ h.queue, h.syn, h.handshake, h.timeWait⟩
  | linger hstate => exact ⟨h.queue, h.syn, h.handshake, fun _ => hstate⟩
  | @acked seg q rto tlp hstate hlo hhi hne hseq hq hidle hout =>
    refine ⟨?_, nofun, fun hs => ?_, h.timeWait⟩
    · have hvalid := hq _ _ h.queue (h.ack_le_data hlo hhi hne)
      change q.Valid (seg.ack + 0#32) t.sndNxt none
      rw [BitVec.add_zero]
      exact hvalid
    · rcases hs with hs | hs <;> rw [show t.state = _ from hs] at hstate <;> cases hstate
  | finWait2 hstate hfin hidle =>
    refine ⟨h.queue, fun hs => absurd hidle (h.una_ne_nxt_of_syn hs), nofun, fun harmed => ?_⟩
    have htw := h.timeWait harmed
    rw [hstate] at htw
    cases htw
  | timeWait hstate hfin hidle =>
    exact ⟨h.queue, fun hs => absurd hidle (h.una_ne_nxt_of_syn hs), nofun, fun _ => rfl⟩
  | segment hstate => exact h.segment hstate
  | @accept bytes ring hstate hring =>
    refine ⟨h.queue, fun hs => ?_, h.handshake, h.timeWait⟩
    obtain ⟨h₁, h₂, h₃⟩ := h.syn hs
    refine ⟨h₁, ?_, h₃⟩
    have hnil : bytes = [] := by
      by_contra hne
      have hsend := hstate hne
      cases hs' : t.state <;> rw [hs'] at h₃ hsend <;>
        first | exact absurd h₃ (by decide) | exact absurd hsend (by decide)
    rw [← Ring.length_contents, hring, hnil, List.append_nil, Ring.length_contents]
    exact h₂
  | @close s hstate =>
    refine ⟨h.queue, fun hs => ?_, fun hs => ?_, fun harmed => ?_⟩
    · obtain ⟨h₁, h₂, h₃⟩ := h.syn hs
      refine ⟨h₁, h₂, ?_⟩
      rcases hstate with ⟨-, rfl⟩ | ⟨hst, -⟩
      · rfl
      · rw [hst] at h₃
        cases h₃
    · rcases hstate with ⟨-, rfl⟩ | ⟨-, rfl⟩ <;> rcases hs with hs | hs <;> cases hs
    · have htw := h.timeWait harmed
      rcases hstate with ⟨hst | hst, -⟩ | ⟨hst, -⟩ <;> rw [hst] at htw <;> cases htw
  | abort => exact of_empty h.queue.exact rfl (BitVec.add_zero _) nofun nofun rfl
  | closeClean => exact of_empty h.queue.exact rfl (BitVec.add_zero _) nofun nofun rfl
  | timeWaitOver hdue =>
    refine ⟨h.queue, fun hs => ?_, nofun, nofun⟩
    obtain ⟨-, -, h₃⟩ := h.syn hs
    rw [h.timeWait hdue] at h₃
    cases h₃
  | @reset s localEp remoteEp iss mtu hstate hmtu =>
    refine of_empty h.queue.exact rfl (BitVec.add_zero _) nofun (fun hs => ?_) rfl
    change s = .synSent ∨ s = .synRcvd at hs
    rcases hstate with rfl | rfl <;> rcases hs with hs | hs <;> cases hs
  | connected => exact synOut h.queue.exact rfl rfl rfl (.inl rfl) rfl _
  | halfOpened => exact synOut h.queue.exact rfl rfl rfl (.inr rfl) rfl _
  | activeOpened hstate _ _ _ hlo hhi => exact h.synAnswered hstate hlo hhi
  | simultaneous hstate => exact h.crossed hstate
  | passiveOpened hstate hseg => exact h.synackAnswered hstate hseg.ack
  | cookieOpened => exact of_empty h.queue.exact rfl (BitVec.add_zero _) nofun nofun rfl
  | _ => exact ⟨h.queue, h.syn, h.handshake, h.timeWait⟩

lemma stable : Stable (Flight (P := P)) where
  core _ := ⟨fun h => ⟨h.queue, h.syn, h.handshake, h.timeWait⟩,
    fun h => ⟨h.queue, h.syn, h.handshake, h.timeWait⟩⟩
  step := step

end Flight

end Tcb

open Tcb

lemma Reachable.flight {t : Tcb P} (ht : Reachable t) : Flight t :=
  ht.stable Flight.stable fun cfg =>
    Flight.of_empty (t := Tcb.new cfg) (q := (zeroed : Tcb P).rtx) rfl rfl (BitVec.add_zero _) nofun nofun rfl

end TcpSansIo
