import TcpSansIo.Tcb.Traversal
import TcpSansIo.Transitions

/-!
# The first segment of an opened connection

The ACK that completes a passive open is processed again as the first segment of the connection it
opened.  It acknowledges exactly `SND.UNA` and starts at `RCV.NXT`; whatever text or FIN it carries, it
leaves the connection open, its identity and options alone, `SND.UNA` where it was, and moves `RCV.NXT`
by no more than it carries (`Settles`).
-/

namespace TcpSansIo

open Proc FixedWidth

variable {P : Params}

namespace Tcb

/-- Who the connection is with, and what was agreed. -/
def identity (t : Tcb P) : U32 × U32 × Endpoint × U16 × Negotiated :=
  (t.iss, t.irs, t.remoteEp, t.peerMss, t.toNegotiated)

/-- Our side of the stream is open. -/
def Open (t : Tcb P) : Prop := t.state = .established ∨ t.state = .closeWait

lemma absorbOoo_nil {t : Tcb P} (h : t.ooo.ranges = []) (fin : Option U32) :
    (t.absorbOoo fin).2 = { t with ooo := (t.ooo.advance t.rcvNxt).2 } := by
  have hlimit (f : Option U32) : limitAtFin t.rcvNxt t.rcvNxt f = t.rcvNxt := by
    unfold limitAtFin
    split
    case h_1 f =>
      refine if_neg fun hlt => ?_
      obtain ⟨hge, hgt⟩ := hlt
      rw [seqGt_iff] at hgt
      rw [seqGe, BitVec.toInt_eq_toNat_cond] at hge
      split at hge <;> bv_omega
    case h_2 => rfl
  have hadvance : (t.ooo.advance t.rcvNxt).1 = t.rcvNxt := by
    simp only [OooList.advance, h, OooList.absorb]
  unfold absorbOoo
  simp only [hadvance, hlimit, BitVec.sub_self]
  exact congrArg Prod.snd (if_pos rfl)

/-- `RCV.NXT` lies within what `seg` carries, from its start on, and nothing is parked. -/
structure Along (seg : Segment) (t : Tcb P) : Prop where
  parked : t.ooo.ranges = []
  nxt : ∃ k, t.rcvNxt = seg.seq + BitVec.ofNat 32 k ∧ k ≤ seg.payload.length + 1 ∧
    (t.state.canRecv = true → k ≤ seg.payload.length)

namespace Along

variable {seg : Segment} {t t' : Tcb P}

lemma of_agree (h : Along seg t) (hsame : (t'.rcvNxt, t'.ooo) = (t.rcvNxt, t.ooo))
    (hstate : t'.state.canRecv = true → t.state.canRecv = true) : Along seg t' where
  parked := by
    rw [show t'.ooo = t.ooo from congrArg Prod.snd hsame]
    exact h.parked
  nxt := by
    obtain ⟨k, hk, hle, hrecv⟩ := h.nxt
    exact ⟨k, (congrArg Prod.fst hsame).trans hk, hle, hrecv ∘ hstate⟩

/-- Nothing is parked, so in-order text absorbs nothing. -/
lemma inOrder (h : Along seg t) (hstate : t.state.canRecv = true) {data : List U8}
    (hdata : data <+: seg.payload.drop (t.rcvNxt - seg.seq).toNat) (fin : Option U32) :
    Along seg (t.receiveInOrder data fin).2 := by
  have hparked : (t.appendText data).ooo.ranges = [] := h.parked
  obtain ⟨k, hk, -, hle⟩ := h.nxt
  have hk' := hle hstate
  have hmax := seg.payload_le
  have hMAX : MAX_PAYLOAD ≤ 65535 := by decide
  have hpos : (t.rcvNxt - seg.seq).toNat = k := by
    rw [hk]
    bv_omega
  have hlen : data.length ≤ seg.payload.length - k := by
    rw [← hpos, ← List.length_drop]
    exact hdata.length_le
  rw [receiveInOrder, absorbOoo_nil hparked]
  refine ⟨by simp [OooList.advance, hparked, OooList.absorb], k + (t.recvRing.write data).1, ?_, ?_, ?_⟩
  · change t.rcvNxt + BitVec.ofNat 32 (t.recvRing.write data).1 = _
    rw [hk, BitVec.ofNat_add, BitVec.add_assoc]
  · rw [Ring.fst_write]
    omega
  · intro _
    rw [Ring.fst_write]
    omega

lemma consumeFin (h : Along seg t) (hstate : t.state.canRecv = true) : Along seg t.consumeFin := by
  obtain ⟨k, hk, -, hle⟩ := h.nxt
  have hseq : t.consumeFin.rcvNxt = t.rcvNxt + 1 ∧ t.consumeFin.ooo = t.ooo.clear := by
    unfold Tcb.consumeFin advanceStateOnRemoteFin
    split
    · exact ⟨rfl, rfl⟩
    · split <;> exact ⟨rfl, rfl⟩
    · exact ⟨rfl, rfl⟩
    · exact ⟨rfl, rfl⟩
  refine ⟨by rw [hseq.2]; rfl, k + 1, ?_, Nat.succ_le_succ (hle hstate), fun hrecv => ?_⟩
  · rw [hseq.1, hk, BitVec.ofNat_add, BitVec.add_assoc]
    rfl
  · rw [consumeFin_state, finNext_canRecv hstate] at hrecv
    cases hrecv

lemma intake (h : Along seg t) (hstep : Intake seg t t') : Along seg t' := by
  cases hstep with
  | old => exact h.of_agree rfl id
  | inOrder hstate _ hdata => exact h.inOrder hstate hdata _
  | park hstate hlt hgap =>
    -- `RCV.NXT` never lies before the segment.
    obtain ⟨k, hk, -, hle⟩ := h.nxt
    have hk' := hle hstate
    have hmax := seg.payload_le
    have hMAX : MAX_PAYLOAD ≤ 65535 := by decide
    exfalso
    apply hlt
    rw [seqLt_iff]
    rw [hk] at hgap ⊢
    bv_omega
  | fin hstate =>
    unfold receiveFin
    split
    · exact h.consumeFin hstate
    split
    · split
      · split <;> exact h.of_agree rfl id
      · exact h.of_agree rfl id
    · exact h
  | heldFin =>
    unfold maybeConsumeOooFin
    split
    case isTrue hheld =>
      rw [Bool.and_eq_true] at hheld
      exact h.consumeFin hheld.2
    case isFalse => exact h

lemma receiveSegment (h : Along seg t) : Along seg (t.receiveSegment seg).2 := by
  generalize (t.receiveSegment seg).2 = t', receiveSegment_takes t seg = htakes
  induction htakes with
  | refl => exact h
  | tail _ hstep ih => exact ih.intake hstep

end Along

/-- What the segment that opened a connection does to it. -/
structure Settles (seg : Segment) (t t' : Tcb P) : Prop where
  same : Agree identity t t'
  una : t.sndUna = seg.ack → t'.sndUna = seg.ack
  stays : t.Open → t'.Open
  along : t.Along seg → t'.Along seg

instance (seg : Segment) : Std.Refl (Settles (P := P) seg) := ⟨fun _ => ⟨rfl, id, id, id⟩⟩

instance (seg : Segment) : IsTrans (Tcb P) (Settles seg) where
  trans _ _ _ h h' := ⟨trans_of (Agree identity) h.same h'.same, h'.una ∘ h.una, h'.stays ∘ h.stays,
    h'.along ∘ h.along⟩

namespace Settles

variable {seg : Segment} {t t' : Tcb P}

/-- A step that leaves the receive side, `SND.UNA` and the state alone. -/
lemma of_agree (hid : t'.identity = t.identity) (huna : t'.sndUna = t.sndUna)
    (hrecv : (t'.rcvNxt, t'.ooo) = (t.rcvNxt, t.ooo)) (hstate : t'.state = t.state) : Settles seg t t' where
  same := hid
  una h := huna.trans h
  stays h := by
    rw [Open, hstate]
    exact h
  along h := h.of_agree hrecv (by rw [hstate]; exact id)

lemma ofTransmit (h : Agree exceptTransmit t t') : Settles seg t t' :=
  of_agree (h.of fun t => (t.iss, t.irs, t.remoteEp, t.peerMss, t.toNegotiated))
    (h.of fun t => t.sndUna) (h.of fun t => (t.rcvNxt, t.ooo)) (h.of fun t => t.state)

lemma ofReact : Leaves (Settles (P := P) seg) (reactToAck seg) := by
  intro t
  have h := reactToAck_react seg t
  have huna := reactToAck_una seg t
  generalize final (reactToAck seg t) = t' at h huna
  refine ⟨h.of fun t => (t.iss, t.irs, t.remoteEp, t.peerMss, t.toNegotiated), fun _ => huna, ?_, ?_⟩
  · intro hopen
    rw [Open, show t'.state = t.state from h.of fun t => t.state]
    exact hopen
  · intro halong
    refine halong.of_agree (h.of fun t => (t.rcvNxt, t.ooo)) ?_
    rw [show t'.state = t.state from h.of fun t => t.state]
    exact id

/-- Only the states after our FIN end here. -/
lemma ourFinAcked (t : Tcb P) : Settles seg t t.ourFinAcked := by
  have hclosing {s : State} (ht : t.state = s) (hs : s ≠ .established ∧ s ≠ .closeWait) :
      ¬ t.Open := by
    rw [Open, ht, not_or]
    exact hs
  unfold Tcb.ourFinAcked
  split
  · split
    case h_1 h =>
      refine ⟨rfl, id, fun ho => absurd ho (hclosing h (by decide)), fun ha => ha.of_agree rfl fun _ => ?_⟩
      rw [h]
      rfl
    case h_2 h =>
      unfold enterTimeWait
      generalize Deadline.atMs _ = d
      refine ⟨rfl, id, fun ho => absurd ho (hclosing h (by decide)), fun ha => ha.of_agree rfl nofun⟩
    case h_3 h =>
      refine ⟨rfl, id, fun ho => absurd ho (hclosing h (by decide)), fun ha => ⟨rfl, ?_⟩⟩
      obtain ⟨k, hk, hle, -⟩ := ha.nxt
      exact ⟨k, hk, hle, nofun⟩
    case h_4 => exact refl_of (Settles seg) t
  · exact refl_of (Settles seg) t

lemma receiveSegment (t : Tcb P) : Settles seg t (t.receiveSegment seg).2 := by
  obtain ⟨n, fin, hadv⟩ := receiveSegment_advances t seg
  have hframe := receiveSegment_frame t seg
  have hstate := receiveSegment_state t seg
  have halong : t.Along seg → (t.receiveSegment seg).2.Along seg := fun h => h.receiveSegment
  generalize (t.receiveSegment seg).2 = t' at hadv hframe hstate halong
  refine ⟨?_, fun h => (hframe.of fun t => t.sndUna).trans h, fun hopen => ?_, halong⟩
  · have hrest : (t'.iss, t'.remoteEp, t'.peerMss, t'.toNegotiated) =
        (t.iss, t.remoteEp, t.peerMss, t.toNegotiated) :=
      hframe.of fun t => (t.iss, t.remoteEp, t.peerMss, t.toNegotiated)
    simp only [Prod.mk.injEq] at hrest
    obtain ⟨hiss, hremote, hmss, hneg⟩ := hrest
    rw [Agree, identity, hiss, hadv.irs, hremote, hmss, hneg, identity]
  · rcases hopen with hest | hcw
    · rcases hstate with hst | ⟨-, hst⟩
      · exact .inl (hst.trans hest)
      · exact .inr (by rw [hst, finNext, hest])
    · rcases hstate with hst | ⟨hrecv, -⟩
      · exact .inr (hst.trans hcw)
      · rw [hcw] at hrecv
        cases hrecv

lemma updateTsRecent (t : Tcb P) : Settles seg t (t.updateTsRecent seg).onPeerAlive := by
  unfold Tcb.updateTsRecent
  split
  · split <;> exact of_agree rfl rfl rfl rfl
  · exact of_agree rfl rfl rfl rfl

lemma noteSegment (t : Tcb P) : Settles seg t (t.noteSegment seg) := by
  unfold Tcb.noteSegment updateEcnEcho
  split
  · refine trans_of (Settles seg) (updateTsRecent t) ?_
    exact of_agree rfl rfl rfl rfl
  · exact updateTsRecent t

lemma atoms (hrst : seg.flags.rst = false) : SegmentAtoms (Settles (P := P) seg) seg where
  toSendAtoms := .ofTransmit ofTransmit
  retries _ := of_agree rfl rfl rfl rfl
  reacts := ofReact
  finAcked := ourFinAcked
  notes := noteSegment
  notesOld := updateTsRecent
  takes := receiveSegment
  duplicate _ := of_agree rfl rfl rfl rfl
  lingers t := by
    unfold restartTimeWait
    generalize Deadline.atMs _ = d
    exact of_agree rfl rfl rfl rfl
  resets h := absurd h (by rw [hrst]; exact Bool.false_ne_true)

end Settles

/-- The segment that opened a connection, processed as its first: it acknowledges `SND.UNA` and starts
at `RCV.NXT`. -/
lemma onSynchronized_settles (t : Tcb P) {seg : Segment} (hrst : seg.flags.rst = false)
    (hopen : t.state = .established) (hack : t.sndUna = seg.ack) (hseq : t.rcvNxt = seg.seq)
    (hparked : t.ooo.ranges = []) :
    let t' := final (onSynchronized seg t)
    t'.state.isSynchronized = true ∧ t'.identity = t.identity ∧ t'.sndUna = seg.ack ∧
      seqGe t'.rcvNxt seg.seq := by
  have h := (Settles.atoms hrst).onSynchronized t
  generalize final (onSynchronized seg t) = t' at h
  have hstart : t.Along seg := ⟨hparked, 0, by rw [hseq, BitVec.add_zero], by omega, by omega⟩
  obtain ⟨k, hk, hle, -⟩ := (h.along hstart).nxt
  refine ⟨?_, h.same, h.una hack, ?_⟩
  · rcases h.stays (.inl hopen) with hs | hs
    all_goals
      rw [hs]
      rfl
  · have hmax := seg.payload_le
    have hMAX : MAX_PAYLOAD ≤ 65535 := by decide
    rw [seqGe, hk, BitVec.toInt_eq_toNat_cond]
    split <;> bv_omega

end Tcb

end TcpSansIo
