import TcpSansIo.Tcb.Staging

/-!
# Off-path segments leave no trace

A segment an off-path sender can produce without guessing `RCV.NXT` or the ACK window (`OffPath`)
draws at most one rate-limited pure ACK from a synchronized connection, and changes nothing but what
that ACK writes.
-/

namespace TcpSansIo

open Proc FixedWidth

variable {P : Params}

namespace Tcb

/-- A RST that is not exactly at `RCV.NXT`; or, without RST, a SYN, no ACK bit, or an ACK field
outside the ACK window. -/
def OffPath (t : Tcb P) (seg : Segment) : Prop :=
  (seg.flags.rst = true ∧ seg.seq ≠ t.rcvNxt) ∨
    (seg.flags.rst = false ∧
      (seg.flags.syn = true ∨ seg.flags.ack = false ∨ t.ackAcceptable seg.ack = false))

/-- Nothing changed but what one pure ACK writes, and at most one datagram was staged. -/
def OnePureAck (t t' : Tcb P) : Prop := Agree exceptAck t t' ∧ Stages 1 t t'

lemma onePureAck_refl (t : Tcb P) : OnePureAck t t := ⟨rfl, Stages.of_agree 1 rfl⟩

lemma sendOowAck_one (t : Tcb P) : OnePureAck t (final (sendOowAck t)) :=
  ⟨sendOowAck_footprint t, sendOowAck_stages t⟩

lemma not_mayAnswerAtOnce {t : Tcb P} {seg : Segment} (h : t.OffPath seg)
    (hrst : seg.flags.rst = false) : t.mayAnswerAtOnce seg = false := by
  rcases h with ⟨h, _⟩ | ⟨_, h | h | h⟩
  · rw [hrst] at h
    cases h
  all_goals simp [mayAnswerAtOnce, h]

lemma pawsReject_rst {t : Tcb P} {seg : Segment} (h : t.pawsReject seg = true) :
    seg.flags.rst = false := by
  by_contra hrst
  rw [Bool.not_eq_false] at hrst
  simp [pawsReject, hrst] at h

/-- Dropped in silence, or answered by the rate-limited ACK. -/
def DropsOrAcks (x : TcbM P Unit) (t : Tcb P) : Prop := x t = .ok () t ∨ x t = sendOowAck t

lemma DropsOrAcks.one {x : TcbM P Unit} {t : Tcb P} (h : DropsOrAcks x t) :
    OnePureAck t (final (x t)) := by
  rcases h with h | h
  · rw [h]
    exact onePureAck_refl t
  · rw [h]
    exact sendOowAck_one t

lemma onUnacceptable_offPath {t : Tcb P} {seg : Segment} (h : t.OffPath seg) :
    DropsOrAcks (onUnacceptable seg) t := by
  unfold DropsOrAcks onUnacceptable
  rw [run_get_bind]
  split
  · exact .inl rfl
  case isFalse hrst =>
    split
    · exact .inr rfl
    · rename_i hgood
      rw [Bool.not_eq_true] at hrst
      rcases h with ⟨h, _⟩ | ⟨_, h⟩
      · rw [hrst] at h
        cases h
      · exfalso
        apply hgood
        rcases h with h | h | h <;> simp [h]

/-- The checks of `on_synchronized`, in its order. -/
lemma onSynchronized_offPath {t : Tcb P} {seg : Segment} (h : t.OffPath seg) :
    DropsOrAcks (onSynchronized seg) t := by
  unfold DropsOrAcks onSynchronized
  rw [run_get_bind]
  split
  · exact .inl rfl
  split
  · exact onUnacceptable_offPath h
  split
  case isTrue hpaws =>
    rw [not_mayAnswerAtOnce h (pawsReject_rst hpaws)]
    exact .inr rfl
  split
  case isTrue hrst =>
    rcases h with ⟨_, hseq⟩ | ⟨hrst', _⟩
    · rw [if_neg hseq]
      exact .inr rfl
    · rw [hrst] at hrst'
      cases hrst'
  case isFalse hrst =>
    rw [Bool.not_eq_true] at hrst
    split
    · exact .inr rfl
    case isFalse hsyn =>
      split
      · exact .inl rfl
      case isFalse hack =>
        rcases h with ⟨h, _⟩ | ⟨_, h | h | h⟩
        · rw [hrst] at h
          cases h
        · exact absurd h hsyn
        · rw [h] at hack
          exact absurd rfl hack
        · rw [h]
          exact .inr rfl

lemma countIn_one {t t' : Tcb P} (h : OnePureAck t.countIn t') : OnePureAck t t' := by
  refine ⟨trans_of (Agree exceptAck) ?_ h.1, h.2⟩
  exact rfl

lemma route_synchronized {t : Tcb P} (hs : t.state.isSynchronized = true) (seg : Segment) :
    (route seg : TcbM P Unit) t = onSynchronized seg t := by
  unfold route
  rw [run_get_bind]
  cases ht : t.state with
  | established | finWait1 | finWait2 | closeWait | closing | lastAck | timeWait => rfl
  | closed | listen | synSent | synRcvd =>
    rw [ht] at hs
    cases hs

/-- A segment on the connected 4-tuple is counted and dispatched. -/
lemma injectSegment_onTuple {t : Tcb P} {seg : Segment} (hs : t.state.isSynchronized = true)
    (htuple : t.OnTuple seg) : injectSegment seg t = onSynchronized seg t.countIn := by
  obtain ⟨h₁, h₂, h₃, h₄⟩ := htuple
  unfold injectSegment
  rw [run_get_bind, if_neg (by simp [h₁, h₂]), if_neg (by simp [fromRemote, h₃, h₄])]
  unfold dispatch
  rw [run_modify_bind, route_synchronized (t := t.countIn) hs]

/-- A segment on another 4-tuple is not for a connection that is past its handshake. -/
lemma injectSegment_stray {t : Tcb P} {seg : Segment} (hs : t.state.isSynchronized = true)
    (htuple : ¬ t.OnTuple seg) : injectSegment seg t = .error (.tcp .notForUs) t := by
  have hsyn : t.state ≠ .synRcvd := by
    intro h
    rw [h] at hs
    cases hs
  have hlisten : t.state ≠ .listen := by
    intro h
    rw [h] at hs
    cases hs
  unfold injectSegment
  rw [run_get_bind]
  split
  case isTrue => rfl
  case isFalse hlocal =>
    have hremote : t.fromRemote seg = false := by
      by_contra hfrom
      simp only [fromRemote, Bool.not_eq_false, Bool.and_eq_true, beq_iff_eq] at hfrom
      simp only [ne_eq, not_or, not_not] at hlocal
      exact htuple ⟨hlocal.1, hlocal.2, hfrom.1, hfrom.2⟩
    have hreplace : t.mayReplaceHalfOpen seg = false := by simp [mayReplaceHalfOpen, hsyn]
    rw [if_pos ⟨hlisten, by simp [hremote]⟩, if_neg (by simp [hreplace]), onBusyListener, run_get_bind,
      if_pos (.inl hsyn)]
    rfl

lemma injectSegment_one {t : Tcb P} {seg : Segment} (hs : t.state.isSynchronized = true)
    (htuple : t.OnTuple seg) (h : t.OffPath seg) : OnePureAck t (final (injectSegment seg t)) := by
  rw [injectSegment_onTuple hs htuple]
  exact countIn_one (onSynchronized_offPath (t := t.countIn) h).one

end Tcb

open Tcb

lemma Call.Delivers.final_run {c : Call} {seg : Segment} (hc : c.Delivers P seg) (t : Tcb P) :
    final (c.run t) = final (injectSegment seg t) := by
  rcases hc with ⟨packet, rfl, hparse⟩ | ⟨packet, rfl, hparse⟩
  · rw [Call.run, final_bind_pure, Tcb.injectPacket, hparse]
    rfl
  · rw [Call.run, final_bind_pure, Tcb.injectPacketL4CsumTrusted, hparse]
    rfl

/-- In a synchronized state, an off-path segment on the connected 4-tuple leaves the connection as it
was: only the egress ring, the IP id, the statistics, the rate limiter and the ACK bookkeeping may
change, and at most one datagram is staged. -/
theorem off_path_segment_leaves_no_trace {t : Tcb P} (hs : t.state.isSynchronized = true)
    {c : Call} {seg : Segment} (hc : c.Delivers P seg) (htuple : t.OnTuple seg) (hoff : t.OffPath seg) :
    (final (c.run t)).exceptAck = t.exceptAck ∧ Stages 1 t (final (c.run t)) := by
  rw [hc.final_run]
  exact injectSegment_one hs htuple hoff

/-- A RST from the tiny client's peer, one past `RCV.NXT`. -/
def strayRst : List U8 := datagram { peerAck with seq := 7, flags := { rst := true } } []

lemma strayRst_parses : (parse tiny.littleEndian strayRst).toOption.isSome = true := by decide +kernel

theorem stray_rst_leaves_no_trace :
    (final (Call.run (.injectPacket strayRst) tinyOpen)).exceptAck = tinyOpen.exceptAck ∧
      Stages 1 tinyOpen (final (Call.run (.injectPacket strayRst) tinyOpen)) :=
  off_path_segment_leaves_no_trace (by decide +kernel)
    (.inl ⟨strayRst, rfl, parse_get strayRst_parses⟩)
    ⟨by decide +kernel, by decide +kernel, by decide +kernel, by decide +kernel⟩
    (.inl ⟨by decide +kernel, by decide +kernel⟩)

end TcpSansIo
