import TcpSansIo.Core.RateLimit
import TcpSansIo.OffPath

/-!
# Replies to bogus traffic

A segment that is out of place, carries a SYN, lacks an ACK or acknowledges outside the ACK window
(`Bogus`) draws from a synchronized connection at most the rate-limited ACK.  Such a segment may still
be a RST exactly at `RCV.NXT`: it closes the connection, which then answers nothing.

`Metered` says what one segment does to the rate limiter and the egress ring; a sequence of them is a
run of the limiter (`deliverAll_metered`), which bounds what it stages.
-/

namespace TcpSansIo

open Proc FixedWidth RateLimit

variable {P : Params}

namespace Tcb

/-- An out-of-place RST, a SYN, no ACK, or an ACK outside the ACK window. -/
def Bogus (t : Tcb P) (seg : Segment) : Prop :=
  (seg.flags.rst = true ∧ seg.seq ≠ t.rcvNxt) ∨ seg.flags.syn = true ∨ seg.flags.ack = false ∨
    t.ackAcceptable seg.ack = false

lemma Bogus.offPath {t : Tcb P} {seg : Segment} (h : t.Bogus seg) :
    t.OffPath seg ∨ (seg.flags.rst = true ∧ seg.seq = t.rcvNxt) := by
  rcases h with h | h
  · exact .inl (.inl h)
  · by_cases hrst : seg.flags.rst = true
    · by_cases hseq : seg.seq = t.rcvNxt
      · exact .inr ⟨hrst, hseq⟩
      · exact .inl (.inl ⟨hrst, hseq⟩)
    · exact .inl (.inr ⟨Bool.not_eq_true _ ▸ hrst, h⟩)

/-! ## The limiter -/

/-- When the limiter last granted an answer. -/
def lastOow (t : Tcb P) : Option ℕ := t.lastOowMs.get.map BitVec.toNat

/-- The limiter refuses an answer now. -/
def OowLimited (t : Tcb P) : Prop := Limited OOW_RATELIMIT_MS.toNat t.lastOow t.nowMs.toNat

lemma oowAllowed_cases (t : Tcb P) :
    ((oowAllowed t).1 = false ∧ (oowAllowed t).2.lastOowMs = t.lastOowMs) ∨
      ((oowAllowed t).1 = true ∧ ¬ t.OowLimited ∧
        (oowAllowed t).2.lastOowMs = Deadline.atMs t.nowMs) := by
  unfold oowAllowed
  lift_lets
  intro limited
  split
  · exact .inl ⟨rfl, rfl⟩
  case isFalse hfree =>
    refine .inr ⟨rfl, ?_, rfl⟩
    rintro ⟨l, hl, hle, hlt⟩
    obtain ⟨last, hget, rfl⟩ := Option.map_eq_some_iff.mp hl
    have hsub := toNat_subIn t.nowMs last hle
    apply hfree
    simp only [limited, hget, dif_pos hle, decide_eq_true_eq, hsub]
    omega

/-- One segment at the current time: no answer and no request to the limiter granted, or a granted
request and at most one answer. -/
def Metered (t t' : Tcb P) : Prop :=
  (Stages 0 t t' ∧ t'.lastOowMs = t.lastOowMs) ∨
    (Stages 1 t t' ∧ ¬ t.OowLimited ∧ t'.lastOowMs = Deadline.atMs t.nowMs)

lemma metered_refl (t : Tcb P) : Metered t t := .inl ⟨Stages.of_agree 0 rfl, rfl⟩

lemma sendPureAck_oow : Leaves (Agree fun t : Tcb P => t.lastOowMs) sendPureAck := by
  have hstage (h : Header) (len : ℕ) (fill : ℕ → Option (List U8)) :
      Leaves (Agree fun t : Tcb P => t.lastOowMs) (stage h len fill) := by
    intro t
    rcases stage_cases h len fill t with ⟨e, he, -⟩ | ⟨_, he⟩ | ⟨_, _, _, _, _, _, _, he⟩
    all_goals
      rw [he]
      exact rfl
  have hemit (fl : Flags) (seq ack : U32) (options : TcpOptions) :
      Leaves (Agree fun t : Tcb P => t.lastOowMs)
        (emitSegment fl seq ack options NO_PAYLOAD false) := by
    refine Leaves.bind Leaves.ofGet fun t => Leaves.ite (Leaves.ofPure _) ?_
    refine Leaves.bind (Leaves.ofModify fun _ => rfl) fun _ => Leaves.bind (hstage _ _ _) fun _ => ?_
    refine Leaves.bind (Leaves.ofModify fun t' => ?_) fun _ => Leaves.ofPure _
    split <;> exact rfl
  refine Leaves.bind Leaves.ofGet fun t => Leaves.ite (Leaves.ofModify fun _ => rfl) ?_
  refine Leaves.bind (Leaves.ofModifyGet fun t => ?_) fun _ => Leaves.bind Leaves.ofGet fun _ => ?_
  · unfold segmentOptions
    lift_lets
    extract_lets
    split
    · split <;> exact rfl
    · exact rfl
  refine Leaves.bind (hemit _ _ _ _) fun _ => Leaves.ofModify fun t => ?_
  split <;> exact rfl

lemma sendOowAck_metered (t : Tcb P) : Metered t (final (sendOowAck t)) := by
  unfold sendOowAck
  rw [run_bind_ok (run_modifyGet oowAllowed t)]
  rcases oowAllowed_cases t with ⟨hno, hlast⟩ | ⟨hyes, hfree, hlast⟩
  · rw [hno, if_neg Bool.false_ne_true]
    exact .inl ⟨Stages.of_agree 0 (oowAllowed_txRing t), hlast⟩
  · rw [hyes, if_pos rfl]
    refine .inr ⟨?_, hfree, (sendPureAck_oow (oowAllowed t).2).trans hlast⟩
    exact (Stages.of_agree 0 (oowAllowed_txRing t)).trans (sendPureAck_stages (oowAllowed t).2)

lemma DropsOrAcks.metered {x : TcbM P Unit} {t : Tcb P} (h : DropsOrAcks x t) :
    Metered t (final (x t)) := by
  rcases h with h | h
  · rw [h]
    exact metered_refl t
  · rw [h]
    exact sendOowAck_metered t

/-! ## One segment -/

/-- The connection is synchronized, or was and is closed. -/
def Past (t : Tcb P) : Prop := t.state.isSynchronized = true ∨ t.state = .closed

lemma onResetReceived_quiet (t : Tcb P) :
    t.onResetReceived.state = .closed ∧ t.onResetReceived.txRing = t.txRing ∧
      t.onResetReceived.lastOowMs = t.lastOowMs := by
  unfold onResetReceived
  split <;> exact ⟨rfl, rfl, rfl⟩

/-- A RST exactly at `RCV.NXT` is dropped or closes the connection. -/
lemma onSynchronized_reset {t : Tcb P} {seg : Segment} (hrst : seg.flags.rst = true)
    (hseq : seg.seq = t.rcvNxt) :
    onSynchronized seg t = .ok () t ∨ onSynchronized seg t = .ok () t.onResetReceived := by
  have hpaws : t.pawsReject seg = false := by simp [pawsReject, hrst]
  unfold onSynchronized
  rw [run_get_bind, if_neg (by simp [hrst])]
  split
  · left
    unfold onUnacceptable
    rw [run_get_bind, if_pos hrst]
    rfl
  · right
    simp only [hpaws, Bool.false_eq_true, if_false, run_modify]

lemma onSynchronized_metered {t : Tcb P} {seg : Segment} (hsync : t.state.isSynchronized = true)
    (h : t.Bogus seg) :
    Metered t (final (onSynchronized seg t)) ∧ Past (final (onSynchronized seg t)) := by
  rcases h.offPath with hoff | ⟨hrst, hseq⟩
  · have hdrop := onSynchronized_offPath hoff
    have hstate := hdrop.one.1.of fun t => t.state
    refine ⟨hdrop.metered, .inl ?_⟩
    rw [← hsync]
    exact congrArg State.isSynchronized hstate
  · rcases onSynchronized_reset hrst hseq with h | h
    · rw [h]
      exact ⟨metered_refl t, .inl hsync⟩
    · obtain ⟨hclosed, hring, hlast⟩ := onResetReceived_quiet t
      rw [h]
      exact ⟨.inl ⟨Stages.of_agree 0 hring, hlast⟩, .inr hclosed⟩

lemma dispatch_metered {t : Tcb P} {seg : Segment} (hpast : t.Past) (h : t.Bogus seg) :
    Metered t (final (dispatch seg t)) ∧ Past (final (dispatch seg t)) := by
  unfold dispatch
  rw [run_modify_bind]
  rcases hpast with hsync | hclosed
  · rw [route_synchronized (t := t.countIn) hsync]
    exact onSynchronized_metered (t := t.countIn) hsync h
  · have hroute : (route seg : TcbM P Unit) t.countIn = .error (.tcp .invalidState) t.countIn := by
      unfold route
      rw [run_get_bind, show t.countIn.state = .closed from hclosed]
      rfl
    rw [hroute]
    exact ⟨.inl ⟨Stages.of_agree 0 rfl, rfl⟩, .inr hclosed⟩

/-- Only the connected peer is heard. -/
lemma injectSegment_metered {t : Tcb P} {seg : Segment} (hpast : t.Past) (h : t.Bogus seg) :
    Metered t (final (injectSegment seg t)) ∧ Past (final (injectSegment seg t)) := by
  have hbusy : t.state ≠ .synRcvd := by
    intro hstate
    rcases hpast with hsync | hclosed
    · rw [hstate] at hsync
      cases hsync
    · rw [hstate] at hclosed
      cases hclosed
  unfold injectSegment
  rw [run_get_bind]
  split
  · exact ⟨metered_refl t, hpast⟩
  split
  · rw [if_neg (by simp [mayReplaceHalfOpen, hbusy])]
    unfold onBusyListener
    rw [run_get_bind, if_pos (.inl hbusy)]
    exact ⟨metered_refl t, hpast⟩
  · exact dispatch_metered hpast h

/-! ## A sequence of segments -/

/-- Packets injected one after the other, each at its own time. -/
def deliverAll : List (U64 × Call) → Tcb P → Tcb P
  | [], t => t
  | (now, c) :: rest, t => deliverAll rest (final (c.run (t.setNow now)))

/-- Each call injects a bogus segment. -/
def AllBogus : List (U64 × Call) → Tcb P → Prop
  | [], _ => True
  | (now, c) :: rest, t =>
    (∃ seg, c.Delivers P seg ∧ (Tcb.setNow now t).Bogus seg) ∧ AllBogus rest (final (c.run (t.setNow now)))

/-- The segments make a run of the limiter, and what they stage are its grants. -/
lemma deliverAll_metered {stop : U64} (events : List (U64 × Call)) :
    ∀ {t : Tcb P} {start : ℕ}, t.Past → AllBogus events t →
      (events.map fun e => e.1.toNat).Pairwise (· ≤ ·) →
      (∀ e ∈ events, start ≤ e.1.toNat ∧ e.1.toNat ≤ stop.toNat) →
      ∃ n, Grants OOW_RATELIMIT_MS.toNat stop.toNat start t.lastOow n ∧ Stages n t (deliverAll events t) := by
  induction events with
  | nil => exact fun _ _ _ _ => ⟨0, .done, Stages.of_agree 0 rfl⟩
  | cons e rest ih =>
    intro t start hpast hbogus hclock hwithin
    obtain ⟨⟨seg, hc, hseg⟩, hrest⟩ := hbogus
    obtain ⟨hmeter, hpast'⟩ := injectSegment_metered (t := t.setNow e.1) hpast hseg
    rw [← hc.final_run] at hmeter hpast'
    rw [List.map_cons, List.pairwise_cons] at hclock
    have hnow := hwithin e (List.mem_cons_self ..)
    obtain ⟨n, hgrants, hstages⟩ := ih hpast' hrest hclock.2 fun e' he' =>
      ⟨hclock.1 _ (List.mem_map_of_mem he'), (hwithin e' (List.mem_cons_of_mem _ he')).2⟩
    have hsame {d d' : Deadline} (h : d' = d) : d'.get.map BitVec.toNat = d.get.map BitVec.toNat :=
      congrArg (fun d : Deadline => d.get.map BitVec.toNat) h
    rcases hmeter with ⟨hnone, hlast⟩ | ⟨hone, hfree, hlast⟩
    · refine ⟨n, .refused hnow.1 ?_, Nat.zero_add n ▸ hnone.trans hstages⟩
      have hlast' : (final (e.2.run (t.setNow e.1))).lastOow = t.lastOow := hsame hlast
      exact hlast' ▸ hgrants
    · -- A grant at the last tick of the clock is remembered one earlier, and no time is left.
      obtain ⟨stamp, hget, hstamp⟩ := Deadline.get_atMs e.1
      have hlast' : (final (e.2.run (t.setNow e.1))).lastOow = some stamp.toNat :=
        (hsame hlast).trans (congrArg (Option.map BitVec.toNat) hget)
      rw [hlast'] at hgrants
      have hend := stop.isLt
      refine ⟨n + 1, .granted hnow.1 hnow.2 hfree (by omega) ?_ hgrants,
        Nat.add_comm 1 n ▸ hone.trans hstages⟩
      have hW : OOW_RATELIMIT_MS.toNat = 500 := rfl
      rw [hW]
      omega

end Tcb

open Tcb

/-- Bogus segments at times from `start` to `stop`, from any source, draw at most one datagram and one
more for each half second. -/
theorem bogus_replies_rate_limited {t : Tcb P} (hsync : t.state.isSynchronized = true)
    {start stop : U64} {events : List (U64 × Call)}
    (hclock : (events.map fun e => e.1.toNat).Pairwise (· ≤ ·))
    (hwithin : ∀ e ∈ events, start.toNat ≤ e.1.toNat ∧ e.1.toNat ≤ stop.toNat)
    (hbogus : AllBogus events t) :
    Stages (1 + (stop.toNat - start.toNat) / 500) t (deliverAll events t) := by
  obtain ⟨n, hgrants, pkts, hlen, hring⟩ := deliverAll_metered events (.inl hsync) hbogus hclock hwithin
  exact ⟨pkts, hlen.trans (hgrants.le (by decide)), hring⟩

/-- Two resets past `RCV.NXT`, 400 ms apart: one answer. -/
theorem tiny_resets_rate_limited :
    Stages 1 tinyOpen (deliverAll [(100, .injectPacket strayRst), (500, .injectPacket strayRst)] tinyOpen) :=
  @bogus_replies_rate_limited tiny tinyOpen (by decide +kernel) 100 500 _
    (by decide +kernel) (by decide +kernel)
    ⟨⟨_, .inl ⟨strayRst, rfl, parse_get strayRst_parses⟩, .inl ⟨by decide +kernel, by decide +kernel⟩⟩,
      ⟨_, .inl ⟨strayRst, rfl, parse_get strayRst_parses⟩, .inl ⟨by decide +kernel, by decide +kernel⟩⟩,
      trivial⟩

end TcpSansIo
