import TcpSansIo.Receive.Parked
import TcpSansIo.Rtx.Consistency
import TcpSansIo.Send.RetransmitTimer

/-!
# The block's own consistency check

`debug_validate_invariants` finds nothing wrong in any reachable block whose rings hold at most `2 ^ 30`
bytes (`invariants_hold`).  What it checks of the send side follows from `Timed`, of the receive side
from `Parked`, and of the egress ring from the size of every packet that was staged.
-/

namespace TcpSansIo

open Proc FixedWidth Intervals

variable {P : Params}

namespace Tcb

/-! ## Staged packets -/

/-- Every staged packet has a size the egress ring can hold. -/
lemma stable_staged : Stable fun t : Tcb P => ∀ pkt ∈ t.txRing.toList, pkt.length ≤ MAX_PACKET where
  core _ := Iff.rfl
  step t l t' hstep h := by
    have hpush {ring : TxRing P.TXQ} {pkt hd p} (hst : t.Staged hd p pkt ring) :
        ∀ q ∈ ring.toList, q.length ≤ MAX_PACKET := by
      intro q hq
      rw [hst.ring, List.mem_append, List.mem_singleton] at hq
      rcases hq with hq | rfl
      · exact h q hq
      · exact hst.size.2
    have hfresh {u : Tcb P} {ring : TxRing P.TXQ} {pkt hd p} (hu : u.txRing.toList = [])
        (hst : u.Staged hd p pkt ring) : ∀ q ∈ ring.toList, q.length ≤ MAX_PACKET := by
      intro q hq
      rw [hst.ring, hu, List.nil_append, List.mem_singleton] at hq
      rw [hq]
      exact hst.size.2
    cases hstep with
    | control hctl hh hpkt => exact hpush hpkt
    | stateless hh hpkt => exact hpush hpkt
    | first now hnew hshort hopts hh hlen hpkt => exact hpush hpkt
    | again now hre hpart hshort hopts hh hlen hpkt => exact hpush hpkt
    | @extracted ring hring =>
      intro q hq
      rw [show ({ t with txRing := ring } : Tcb P).txRing = ring from rfl, hring] at hq
      exact h q (List.mem_of_mem_tail hq)
    | @segment seg =>
      rw [show (t.receiveSegment seg).2.txRing = t.txRing from
        (receiveSegment_frame t seg).of fun t => t.txRing]
      exact h
    | reset => exact fun q hq => (by cases hq)
    | connected hstate hsyn hctl hh hpkt => exact hfresh rfl hpkt
    | halfOpened hstate _ _ _ _ hsyn hctl hh hpkt => exact hfresh rfl hpkt
    | cookieOpened => exact fun q hq => (by cases hq)
    | _ => exact h

/-! ## The checks -/

lemma reject_ok {bad : Prop} [Decidable bad] (h : ¬ bad) (msg : String) : reject bad msg = .ok () :=
  if_neg h

lemma ok_bind {x : Except String Unit} (h : x = .ok ()) (f : Unit → Except String Unit) :
    (x >>= f) = f () := by
  rw [h]
  rfl

section

variable {t : Tcb P}

/-- The first record begins where the queue does. -/
lemma Backlog.first_start (h : Backlog t) {s : Seg} (hs : t.rtx.get 0 = some s) :
    s.start = t.dataUna := by
  have hchain := h.queue.chain
  rw [RtxQueue.records_cons hs] at hchain
  exact hchain.1

lemma Backlog.aligned (h : Backlog t) : ¬ t.rtxMisaligned := by
  rintro ⟨hsome, hstart⟩
  cases hs : t.rtx.get 0 with
  | some s =>
    rw [hs] at hstart
    exact hstart (congrArg some (h.first_start hs))
  | none =>
    have hlen : t.rtx.segs.len = 0 := by
      rw [RtxQueue.get_eq] at hs
      simpa using hs
    have hnil : t.rtx.records = [] := by
      refine List.eq_nil_of_length_eq_zero ?_
      rw [RingQueue.length_toList, hlen]
    have hchain := h.queue.chain
    rw [hnil] at hchain
    have heq : t.dataUna = t.sndNxt := hchain
    rcases hsome with hne | hne
    · exact hne (by simp [RtxQueue.isEmpty, RtxQueue.len, hlen])
    · exact hne (by rw [heq, BitVec.sub_self]; rfl)

lemma Backlog.dataOut_le (h : Backlog t) : t.dataOut.toNat ≤ t.sendRing.len := by
  have hlt := h.flight.flight_lt
  have hflag : (t.finSent && decide (seqLt t.sndUna t.sndNxt)) = t.finOut := by
    have hiff : seqLt t.sndUna t.sndNxt ↔ t.sndUna ≠ t.sndNxt := by
      rw [seqLt_iff]
      constructor
      · intro hfar heq
        rw [heq, BitVec.sub_self] at hfar
        exact absurd hfar (by decide)
      · intro hne
        bv_omega
    simp only [finOut, hiff]
    rw [Bool.eq_iff_iff]
    simp
  have hdata := h.data
  rw [dataOut, hflag, toNat_satSub, toNat_ofFlag (by decide)]
  change t.out - t.finOut.toNat ≤ _
  omega

lemma Backlog.validateSync (h : Backlog t) : t.debugValidateSync = .ok () := by
  have hrtx : t.rtx.debugValid t.dataUna t.sndNxt = .ok () := by
    refine h.queue.board.debugValid (fun s hs => ?_) fun s hs => (h.queue.board.last_stop hs).2
    rw [h.first_start hs]
    exact seqLt_irrefl _
  unfold debugValidateSync
  rw [ok_bind hrtx, ok_bind (reject_ok h.aligned _)]
  exact reject_ok (not_lt.mpr h.dataOut_le) _

lemma Backlog.validateFin (h : Backlog t) (hfin : t.finSent = true) : t.debugValidateFin = .ok () := by
  obtain ⟨hseq, hstate, -⟩ := h.fin hfin
  unfold debugValidateFin
  rw [ok_bind (reject_ok (not_not.mpr hseq) _), ok_bind (reject_ok (not_not.mpr hstate) _)]
  refine reject_ok ?_ _
  rintro ⟨hdone, hle⟩
  have heq := (h.done hdone).2
  rw [seqLe_iff] at hle
  bv_omega

lemma Parked.debugValid (h : Parked t) (hbuf : P.BUF ≤ 2 ^ 30) : t.ooo.debugValid t.rcvNxt = true := by
  rw [OooList.debugValid_iff]
  refine ⟨h.spaced, fun r hr => ?_⟩
  have hroom := h.room r hr
  unfold Ring.free at hroom
  omega

lemma Parked.validateHeldFin (h : Parked t) {f : HeldFin} (hf : t.oooFin = some f) :
    t.debugValidateHeldFin f = .ok () := by
  obtain ⟨hnear, -, hstart⟩ := h.fin f hf
  have hahead := h.ahead f hf
  unfold debugValidateHeldFin
  rw [ok_bind (reject_ok ?_ _)]
  · exact reject_ok hstart _
  · rw [not_or, not_not, not_not]
    constructor
    · by_contra hrecv
      have hnone := (h.idle (by simpa using hrecv)).2
      rw [hf] at hnone
      cases hnone
    · rw [seqGt_iff]
      unfold off at hnear
      refine ⟨?_, hnear⟩
      rw [Nat.pos_iff_ne_zero]
      intro hzero
      exact hahead (by bv_omega)

end

end Tcb

open Tcb

lemma Reachable.staged {t : Tcb P} (ht : Reachable t) :
    ∀ pkt ∈ t.txRing.toList, pkt.length ≤ MAX_PACKET :=
  ht.stable stable_staged fun cfg q hq => (by cases hq)

/-- The block's own consistency check finds nothing wrong, whatever calls were made. -/
theorem invariants_hold (hbuf : P.BUF ≤ 2 ^ 30) {t : Tcb P} (ht : Reachable t) :
    t.debugValidateInvariants = .ok () := by
  have htimed := ht.timed (by omega)
  have hback := htimed.backlog
  have hpark := ht.parked
  have hlt := hback.flight.flight_lt
  unfold debugValidateInvariants
  rw [ok_bind (reject_ok ?order _), ok_bind (reject_ok ?syn _), ok_bind ?sync, ok_bind ?fin,
    ok_bind (reject_ok ?rto _), ok_bind (reject_ok ?ranges _), ok_bind (reject_ok ?room _),
    ok_bind ?held]
  case order =>
    rw [seqLt_iff]
    bv_omega
  case syn =>
    rintro ⟨hsyn, hne | heq⟩
    · exact hne (hback.flight.syn hsyn).1
    · exact hback.flight.una_ne_nxt_of_syn hsyn (by rw [heq, (hback.flight.syn hsyn).1])
  case sync =>
    split
    · exact hback.validateSync
    · rfl
  case fin =>
    split
    case isTrue hfin => exact hback.validateFin hfin
    case isFalse => rfl
  case rto =>
    rintro ⟨harmed, heq⟩
    exact htimed.rto.mp harmed heq
  case ranges => exact not_not.mpr (hpark.debugValid hbuf)
  case room =>
    simp only [OooList.lastEnd, Option.any_map, Bool.not_eq_true, Option.any_eq_false]
    intro r hr
    have := hpark.room r (List.mem_of_getLast? hr)
    unfold off at this
    simpa using this
  case held =>
    split
    case h_1 f hf => exact hpark.validateHeldFin hf
    case h_2 => rfl
  refine reject_ok ?_ _
  simp only [TxRing.peekHeadLen, Option.any_map, Bool.not_eq_true, Option.any_eq_false]
  intro pkt hpkt
  have := ht.staged pkt (List.mem_of_getElem? ((RingQueue.get?_eq ..).symm.trans hpkt))
  simpa using this

/-- Three bytes and the FIN are in flight, two bytes are parked, and a FIN is held behind them. -/
def tinyBusy : Tcb tiny :=
  runAll [.send [1, 2, 3], .injectPacket (datagram { peerAck with seq := 16 } [7, 8]),
    .injectPacket (datagram { peerAck with seq := 18, flags := { ack := true, fin := true } } []),
    .extractPacketWith, .extractPacketWith, .close] tinyOpen

theorem tinyBusy_invariants :
    tinyBusy.finSent = true ∧ tinyBusy.out = 4 ∧ tinyBusy.ooo.ranges.length = 1 ∧
      tinyBusy.oooFin = some ⟨18, 18⟩ ∧ tinyBusy.debugValidateInvariants = .ok () :=
  ⟨by decide +kernel, by decide +kernel, by decide +kernel, by decide +kernel,
    invariants_hold (by decide) (reachable_tinyOpen.runAll (by decide +kernel))⟩

end TcpSansIo
