import TcpSansIo.Receive.HeldRanges
import TcpSansIo.Send.Flight

/-!
# What is parked beyond `RCV.NXT`

Out-of-order ranges are spaced, begin within half the sequence space above `RCV.NXT` and end within the
free space of the receive ring; so does a held FIN.  Nothing is parked where nothing more is received.
This holds in every reachable block, whatever the capacity of the ring (`Reachable.parked`).

`Appended` is what in-order text does: the text is appended, and the parked bytes it connects to follow,
up to a FIN that comes before them.
-/

namespace TcpSansIo

open Proc FixedWidth Intervals

variable {P : Params}

namespace Tcb

/-- The offsets above `RCV.NXT` of the bytes that are parked. -/
def parked (t : Tcb P) : Set ℕ := held (Range.lo t.rcvNxt) (Range.hi t.rcvNxt) t.ooo.ranges

structure Holding (t : Tcb P) : Prop where
  spaced : Spaced (Range.lo t.rcvNxt) (Range.hi t.rcvNxt) 0 t.ooo.ranges
  near : ∀ r ∈ t.ooo.ranges, off r.start t.rcvNxt < 2 ^ 31
  room : ∀ r ∈ t.ooo.ranges, off r.stop t.rcvNxt ≤ t.recvRing.free
  fin : ∀ h ∈ t.oooFin, off h.seq t.rcvNxt < 2 ^ 31 ∧ off h.seq t.rcvNxt ≤ t.recvRing.free ∧
    ¬ seqGt h.start h.seq
  idle : t.state.canRecv = false → t.ooo.ranges = [] ∧ t.oooFin = none

/-- Between segments a held FIN is not yet reached. -/
structure Parked (t : Tcb P) : Prop extends Holding t where
  ahead : ∀ h ∈ t.oooFin, h.seq ≠ t.rcvNxt

/-! ## In-order text -/

lemma limitAtFin_le {nxt new : U32} (hnew : off new nxt < 2 ^ 31) (fin : Option U32) :
    off (limitAtFin nxt new fin) nxt ≤ off new nxt ∧
      ∀ f ∈ fin, off f nxt < 2 ^ 31 → off (limitAtFin nxt new fin) nxt ≤ off f nxt := by
  unfold limitAtFin off at *
  cases fin with
  | none => exact ⟨le_refl _, nofun⟩
  | some f =>
    dsimp only
    have hge := seqGe_iff (a := f) (b := nxt)
    split
    case isTrue h =>
      rw [hge] at h
      have hgt := (seqGt_offset hnew h.1).mp h.2
      refine ⟨by omega, ?_⟩
      rintro _ ⟨rfl⟩ -
      exact le_refl _
    case isFalse h =>
      refine ⟨le_refl _, ?_⟩
      rintro _ ⟨rfl⟩ hf
      rw [hge, seqGt_offset hnew hf] at h
      omega

/-- In-order text `data` was appended, and `n` parked bytes it connects to after it. -/
structure Appended (t u : Tcb P) (data : List U8) (n : ℕ) : Prop where
  nxt : u.rcvNxt = t.rcvNxt + BitVec.ofNat 32 (data.length + n)
  fits : data.length + n ≤ t.recvRing.free
  short : data.length + n < 2 ^ 32
  len : u.recvRing.len = t.recvRing.len + (data.length + n)
  cell : ∀ k, u.recvRing.cell k = (t.recvRing.write data).2.cell k
  reached : Set.Ico data.length (data.length + n) ⊆ t.parked
  spaced : Spaced (Range.lo t.rcvNxt) (Range.hi t.rcvNxt) (data.length + n) u.ooo.ranges
  suffix : u.ooo.ranges <:+ t.ooo.ranges
  fin : ∀ h ∈ u.oooFin, h ∈ t.oooFin ∧ data.length + n ≤ off h.seq t.rcvNxt
  state : u.state = t.state

lemma absorbOoo_shape (t : Tcb P) (segFin : Option U32) :
    ∃ new : U32, new = limitAtFin t.rcvNxt (limitAtFin t.rcvNxt (t.ooo.advance t.rcvNxt).1 segFin)
        (t.oooFin.map HeldFin.seq) ∧
      (t.absorbOoo segFin).2.rcvNxt = t.rcvNxt + BitVec.ofNat 32 (min (off new t.rcvNxt) t.recvRing.free) ∧
      (t.absorbOoo segFin).2.recvRing.len =
        t.recvRing.len + min (off new t.rcvNxt) t.recvRing.free ∧
      (∀ k, (t.absorbOoo segFin).2.recvRing.cell k = t.recvRing.cell k) ∧
      (t.absorbOoo segFin).2.ooo.ranges = (OooList.absorb t.rcvNxt t.ooo.ranges).2 ∧
      (t.absorbOoo segFin).2.oooFin = t.oooFin := by
  refine ⟨_, rfl, ?_⟩
  unfold absorbOoo
  dsimp only
  split
  case isTrue hzero =>
    have hoff : off (limitAtFin t.rcvNxt (limitAtFin t.rcvNxt (t.ooo.advance t.rcvNxt).1 segFin)
        (t.oooFin.map HeldFin.seq)) t.rcvNxt = 0 := by
      rw [off, hzero]
      rfl
    rw [hoff, Nat.zero_min]
    exact ⟨(BitVec.add_zero _).symm, rfl, fun _ => rfl, rfl, rfl⟩
  case isFalse => exact ⟨rfl, rfl, fun _ => rfl, rfl, rfl⟩

lemma off_add_ofNat {b : U32} {n : ℕ} (hn : n < 2 ^ 32) : off (b + BitVec.ofNat 32 n) b = n := by
  have hcancel : b + BitVec.ofNat 32 n - b = BitVec.ofNat 32 n := by
    rw [BitVec.add_comm, BitVec.add_sub_cancel]
  rw [off, hcancel, BitVec.toNat_ofNat, Nat.mod_eq_of_lt hn]

/-- Where up to a packet of bytes beyond `b` begins and ends. -/
lemma off_beyond {seq b : U32} {n : ℕ} (hlt : ¬ seqLt seq b) (hgap : seq ≠ b) (hlen : n ≤ MAX_PAYLOAD) :
    off seq b < 2 ^ 31 ∧ 0 < off seq b ∧ off (seq + BitVec.ofNat 32 n) b = off seq b + n := by
  have hnear : off seq b < 2 ^ 31 := by
    rw [seqLt_iff] at hlt
    unfold off
    omega
  refine ⟨hnear, ?_, ?_⟩
  · unfold off
    rw [Nat.pos_iff_ne_zero]
    intro hzero
    exact hgap (by bv_omega)
  · have hsum : seq + BitVec.ofNat 32 n - b = (seq - b) + BitVec.ofNat 32 n := by bv_omega
    unfold MAX_PAYLOAD at hlen
    unfold off at hnear ⊢
    rw [hsum, BitVec.toNat_add, BitVec.toNat_ofNat, Nat.mod_eq_of_lt (a := n) (by omega),
      Nat.mod_eq_of_lt (by omega)]

namespace Holding

variable {t : Tcb P}

/-- Parked bytes lie in the free space. -/
lemma lt_free (h : Holding t) {x : ℕ} (hx : x ∈ t.parked) : 0 < x ∧ x < t.recvRing.free := by
  obtain ⟨r, hr, hlo, hhi⟩ := hx
  have h₁ := h.spaced.above r hr
  have h₂ := h.room r hr
  dsimp only [Range.lo, Range.hi] at hlo hhi h₁
  omega

lemma receiveInOrder {data : List U8} (h : Holding t) (segFin : Option U32)
    (hfit : data.length ≤ t.recvRing.free) (hlen : data.length ≤ MAX_PAYLOAD) :
    ∃ n, Appended t (t.receiveInOrder data segFin).2 data n := by
  have hshort : data.length < 2 ^ 31 := by
    unfold MAX_PAYLOAD at hlen
    omega
  -- After the text, relative to where it began.
  set v := t.appendText data with hv
  have hwrote : (t.recvRing.write data).1 = data.length := by
    rw [Ring.fst_write, Nat.min_eq_left hfit]
  have hnxt : v.rcvNxt = t.rcvNxt + BitVec.ofNat 32 data.length := by
    rw [hv, ← hwrote]
    rfl
  have hoff : off v.rcvNxt t.rcvNxt = data.length := by
    rw [hnxt]
    exact off_add_ofNat (by omega)
  have hlenv : v.recvRing.len = t.recvRing.len + data.length := by
    rw [hv]
    change (t.recvRing.write data).2.len = _
    rw [Ring.len_write, Nat.min_eq_left hfit]
  have hfreev : v.recvRing.free = t.recvRing.free - data.length := by
    unfold Ring.free
    rw [hlenv]
    omega
  have hstart : off v.rcvNxt t.rcvNxt < 2 ^ 31 := by
    rw [hoff]
    exact hshort
  obtain ⟨hle, hlt, hreach, hspaced⟩ := OooList.absorb_sound h.spaced h.near hstart
  rw [hoff] at hle hlt hreach
  obtain ⟨new, hnew, h₁, h₂, h₃, h₄, h₅⟩ := absorbOoo_shape v segFin
  have hadv : (v.ooo.advance v.rcvNxt).1 = (OooList.absorb v.rcvNxt t.ooo.ranges).1 := rfl
  have hend : off (OooList.absorb v.rcvNxt t.ooo.ranges).1 v.rcvNxt =
      off (OooList.absorb v.rcvNxt t.ooo.ranges).1 t.rcvNxt - data.length := by
    have := toNat_sub_offset (a := t.rcvNxt) (p := v.rcvNxt)
      (x := (OooList.absorb v.rcvNxt t.ooo.ranges).1) (by unfold off at hle hoff; omega)
    unfold off at hoff ⊢
    rw [this, hoff]
  generalize hm : OooList.absorb v.rcvNxt t.ooo.ranges = a at *
  have hbits : off a.1 t.rcvNxt < 2 ^ 32 := (a.1 - t.rcvNxt).isLt
  -- What is absorbed was parked, so it fits.
  have hroom : off a.1 t.rcvNxt ≤ t.recvRing.free := by
    rcases hle.lt_or_eq with hlt' | heq
    · have hin : off a.1 t.rcvNxt - 1 ∈ t.parked := hreach ⟨by omega, by omega⟩
      have := h.lt_free hin
      omega
    · omega
  -- The FINs only hold it back.
  rw [hadv] at hnew
  have hnear : off a.1 v.rcvNxt < 2 ^ 31 := by omega
  obtain ⟨hl₁, -⟩ := limitAtFin_le hnear segFin
  obtain ⟨hl₂, hl₃⟩ := limitAtFin_le (lt_of_le_of_lt hl₁ hnear) (v.oooFin.map HeldFin.seq)
  rw [← hnew] at hl₂ hl₃
  have hmin : min (off new v.rcvNxt) v.recvRing.free = off new v.rcvNxt := by
    rw [Nat.min_eq_left]
    omega
  rw [hmin] at h₁ h₂
  refine ⟨off new v.rcvNxt, ?_, by omega, by omega, ?_, h₃, fun x hx => ?_, ?_, ?_, fun f hf => ?_, ?_⟩
  · rw [Tcb.receiveInOrder, h₁, hnxt, BitVec.ofNat_add, BitVec.add_assoc]
  · rw [Tcb.receiveInOrder, h₂, hlenv, Nat.add_assoc]
  · have hx₁ : data.length ≤ x := hx.1
    have hx₂ : x < data.length + off new v.rcvNxt := hx.2
    exact hreach ⟨hx₁, by omega⟩
  · rw [Tcb.receiveInOrder, h₄]
    change Spaced _ _ _ (OooList.absorb v.rcvNxt t.ooo.ranges).2
    rw [hm]
    refine ⟨fun r hr => ?_, hspaced.nonempty, hspaced.apart⟩
    have := hspaced.above r hr
    omega
  · rw [Tcb.receiveInOrder, h₄]
    exact OooList.absorb_suffix _ _
  · rw [Tcb.receiveInOrder, h₅] at hf
    have hmem : f ∈ t.oooFin ∧ ¬ seqGt v.rcvNxt f.seq := by
      rw [hv] at hf
      change f ∈ t.oooFin.filter _ at hf
      simp only [Option.mem_filter_iff, Bool.not_eq_true', decide_eq_false_iff_not] at hf
      exact hf
    obtain ⟨hfar, -, -⟩ := h.fin f hmem.1
    have hge : data.length ≤ off f.seq t.rcvNxt := by
      have hgt := seqGt_offset (a := t.rcvNxt) (x := v.rcvNxt) (y := f.seq)
        (by unfold off at hoff; omega) hfar
      rw [hgt] at hmem
      unfold off at *
      omega
    have hback : off f.seq v.rcvNxt = off f.seq t.rcvNxt - data.length := by
      have := toNat_sub_offset (a := t.rcvNxt) (p := v.rcvNxt) (x := f.seq)
        (by unfold off at *; omega)
      unfold off at *
      rw [this, hoff]
    refine ⟨hmem.1, ?_⟩
    have := hl₃ f.seq (Option.mem_map_of_mem _ hf) (by omega)
    omega
  · exact (receiveInOrder_text t data segFin).of Tcb.state

/-! ## What a segment does to what is parked -/

/-- A block with nothing parked. -/
lemma of_empty (hooo : t.ooo.ranges = []) (hfin : t.oooFin = none) : Parked t where
  spaced := by
    rw [hooo]
    exact .nil _
  near := by simp [hooo]
  room := by simp [hooo]
  fin := by simp [hfin]
  idle _ := ⟨hooo, hfin⟩
  ahead := by simp [hfin]

lemma appended {u : Tcb P} {data : List U8} {n : ℕ} (h : Holding t) (happ : Appended t u data n) :
    Holding u := by
  have hoff : off u.rcvNxt t.rcvNxt = data.length + n := by
    rw [happ.nxt]
    exact off_add_ofNat happ.short
  have hfree : u.recvRing.free = t.recvRing.free - (data.length + n) := by
    unfold Ring.free
    rw [happ.len]
    omega
  have hends {r : Range} (hr : r ∈ u.ooo.ranges) := OooList.off_rebase happ.spaced hoff.le hr
  have hmem : ∀ r ∈ u.ooo.ranges, r ∈ t.ooo.ranges := fun r hr => happ.suffix.subset hr
  refine ⟨OooList.spaced_rebase happ.spaced hoff.le, fun r hr => ?_, fun r hr => ?_, fun f hf => ?_,
    fun hrecv => ?_⟩
  · have h₁ := h.near r (hmem r hr)
    have h₂ := hends hr
    omega
  · have h₁ := h.room r (hmem r hr)
    have h₂ := hends hr
    omega
  · obtain ⟨hf', hle⟩ := happ.fin f hf
    obtain ⟨h₁, h₂, h₃⟩ := h.fin f hf'
    have hback : off f.seq u.rcvNxt = off f.seq t.rcvNxt - (data.length + n) := by
      have := toNat_sub_offset (a := t.rcvNxt) (p := u.rcvNxt) (x := f.seq) (by unfold off at *; omega)
      unfold off at *
      rw [this, hoff]
    exact ⟨by omega, by omega, h₃⟩
  · rw [happ.state] at hrecv
    obtain ⟨h₁, h₂⟩ := h.idle hrecv
    refine ⟨List.suffix_nil.mp (h₁ ▸ happ.suffix), ?_⟩
    cases hfin : u.oooFin with
    | none => rfl
    | some f =>
      have := (happ.fin f hfin).1
      simp [h₂] at this

lemma receiveOutOfOrder {seq : U32} {data : List U8} (h : Holding t) (hstate : t.state.canRecv = true)
    (hlt : ¬ seqLt seq t.rcvNxt) (hgap : seq ≠ t.rcvNxt) (hne : data ≠ [])
    (hlen : data.length ≤ MAX_PAYLOAD) (hfit : (seq - t.rcvNxt).toNat + data.length ≤ t.recvRing.free) :
    Holding (t.receiveOutOfOrder seq (seq - t.rcvNxt).toNat data) := by
  obtain ⟨hnear, hpos, hstop⟩ := off_beyond hlt hgap hlen
  have hpos' : 0 < data.length := List.length_pos_iff.mpr hne
  have hlong : off seq t.rcvNxt < off (seq + BitVec.ofNat 32 data.length) t.rcvNxt := by omega
  have hins := OooList.insert_spread h.spaced hpos hlong
  -- Whatever the outcome, the ranges are those of the insertion and the ring has the same room.
  have hkeep {u : Tcb P} (hnxt : u.rcvNxt = t.rcvNxt)
      (hooo : u.ooo = (t.ooo.insert seq (seq + BitVec.ofNat 32 data.length) t.rcvNxt).2)
      (hring : u.recvRing.len = t.recvRing.len) (hfin : ∀ f ∈ u.oooFin, f ∈ t.oooFin)
      (hs : u.state = t.state) : Holding u := by
    have hfree : u.recvRing.free = t.recvRing.free := by
      unfold Ring.free
      rw [hring]
    refine ⟨?_, fun r hr => ?_, fun r hr => ?_, fun f hf => ?_, fun hrecv => ?_⟩
    · rw [hnxt, hooo]
      exact hins.spaced
    · rw [hooo] at hr
      rw [hnxt]
      rcases (hins.ends r hr).1 with heq | ⟨r', hr', heq⟩
      · omega
      · rw [heq]
        exact h.near r' hr'
    · rw [hooo] at hr
      rw [hnxt, hfree]
      rcases (hins.ends r hr).2 with heq | ⟨r', hr', heq⟩
      · unfold off at *
        omega
      · rw [heq]
        exact h.room r' hr'
    · rw [hnxt, hfree]
      exact h.fin f (hfin f hf)
    · rw [hs, hstate] at hrecv
      cases hrecv
  unfold Tcb.receiveOutOfOrder
  dsimp only
  split
  case h_1 dup hdup =>
    refine hkeep ?_ ?_ ?_ (fun f hf => ?_) ?_
    · split <;> rfl
    · split <;> rfl
    · split <;> exact Ring.len_writeAt _ _ _
    · have hf' := (Option.mem_filter_iff.mp hf).1
      split at hf' <;> exact hf'
    · split <;> rfl
  case h_2 => exact hkeep rfl rfl rfl (fun f hf => hf) rfl

lemma consumeFin_parked (t : Tcb P) : Parked t.consumeFin := by
  have h₁ : t.consumeFin.ooo.ranges = [] := by
    unfold Tcb.consumeFin advanceStateOnRemoteFin
    split
    · rfl
    · split <;> rfl
    · rfl
    · rfl
  have h₂ : t.consumeFin.oooFin = none := by
    unfold Tcb.consumeFin advanceStateOnRemoteFin
    split
    · rfl
    · split <;> rfl
    · rfl
    · rfl
  exact of_empty h₁ h₂

lemma receiveFin {seg : Segment} (h : Holding t) (hstate : t.state.canRecv = true) :
    Holding (t.receiveFin seg.seq (seg.seq + seg.payloadLen)) := by
  have hold : seqGt (seg.seq + seg.payloadLen) t.rcvNxt ∧
      ((seg.seq + seg.payloadLen) - t.rcvNxt).toNat ≤ t.recvRing.free →
      Holding { t with oooFin := some ⟨seg.seq, seg.seq + seg.payloadLen⟩ } := by
    rintro ⟨hgt, hroom⟩
    refine ⟨h.spaced, h.near, h.room, ?_, fun hrecv => ?_⟩
    · rintro _ ⟨rfl⟩
      rw [seqGt_iff] at hgt
      refine ⟨hgt.2, hroom, ?_⟩
      have hlen := seg.toNat_payloadLen
      have hle := seg.payload_le
      unfold MAX_PAYLOAD at hle
      dsimp only
      rw [seqGt_iff]
      bv_omega
    · exact absurd hrecv (by simp [hstate])
  unfold Tcb.receiveFin
  split
  · exact (consumeFin_parked t).toHolding
  split
  case isTrue hin =>
    split
    · split
      · exact h
      · exact hold hin
    · exact hold hin
  case isFalse => exact h

lemma maybeConsumeOooFin (h : Holding t) : Parked t.maybeConsumeOooFin.2 := by
  unfold Tcb.maybeConsumeOooFin
  split
  case isTrue => exact consumeFin_parked t
  case isFalse hno =>
    refine ⟨h, fun f hf heq => hno ?_⟩
    dsimp only at hf heq
    have hrecv : t.state.canRecv = true := by
      by_contra hidle
      have := (h.idle (by simpa using hidle)).2
      simp [this] at hf
    rw [Option.mem_def] at hf
    simp [hf, heq, hrecv]

lemma intake {seg : Segment} {u : Tcb P} (h : Holding t) (hstep : Intake seg t u) : Holding u := by
  cases hstep with
  | old => exact ⟨h.spaced, h.near, h.room, h.fin, h.idle⟩
  | inOrder hstate hle hdata hfit =>
    have hlen := hdata.length_le
    have hmax := seg.payload_le
    rw [List.length_drop] at hlen
    obtain ⟨n, happ⟩ := h.receiveInOrder (t.processedFin seg) hfit (by omega)
    exact h.appended happ
  | park hstate hlt hgap hdata hne hfit =>
    exact h.receiveOutOfOrder hstate hlt hgap hne (hdata.length_le.trans seg.payload_le) hfit
  | fin hstate => exact h.receiveFin hstate
  | heldFin => exact h.maybeConsumeOooFin.toHolding

lemma takes {seg : Segment} {u : Tcb P} (h : Holding t) (htakes : Takes seg t u) : Holding u := by
  induction htakes with
  | refl => exact h
  | tail _ hstep ih => exact ih.intake hstep

end Holding

namespace Parked

variable {t : Tcb P}

lemma receiveSegment {seg : Segment} (h : Parked t) (hstate : t.state.canRecv = true) :
    Parked (t.receiveSegment seg).2 := by
  obtain ⟨u, htakes, hlast⟩ := receiveSegment_last hstate seg
  rw [hlast]
  exact (h.takes htakes).maybeConsumeOooFin

/-- The receive side is the same, or more of the ring is free. -/
lemma of_same {u : Tcb P} (h : Parked t) (hnxt : u.rcvNxt = t.rcvNxt) (hooo : u.ooo = t.ooo)
    (hfin : u.oooFin = t.oooFin) (hring : u.recvRing.len ≤ t.recvRing.len)
    (hstate : u.state.canRecv = false → t.state.canRecv = false) : Parked u := by
  have hfree : t.recvRing.free ≤ u.recvRing.free := by
    unfold Ring.free
    omega
  refine ⟨⟨?_, ?_, fun r hr => ?_, fun f hf => ?_, fun hrecv => ?_⟩, ?_⟩
  · rw [hnxt, hooo]
    exact h.spaced
  · rw [hnxt, hooo]
    exact h.near
  · rw [hooo] at hr
    rw [hnxt]
    exact (h.room r hr).trans hfree
  · rw [hfin] at hf
    rw [hnxt]
    obtain ⟨h₁, h₂, h₃⟩ := h.fin f hf
    exact ⟨h₁, h₂.trans hfree, h₃⟩
  · rw [hooo, hfin]
    exact h.idle (hstate hrecv)
  · rw [hnxt, hfin]
    exact h.ahead

/-- A connection that receives nothing may renumber what it expects. -/
lemma of_idle {u : Tcb P} (h : Parked t) (hrecv : t.state.canRecv = false) (hooo : u.ooo = t.ooo)
    (hfin : u.oooFin = t.oooFin) : Parked u := by
  obtain ⟨h₁, h₂⟩ := h.idle hrecv
  exact Holding.of_empty (hooo ▸ h₁) (hfin.trans h₂)

lemma step (t : Tcb P) (l : Option Segment) (t' : Tcb P) (hstep : Step t l t')
    (h : Flight t ∧ Parked t) : Flight t' ∧ Parked t' := by
  refine ⟨Flight.step t l t' hstep h.1, ?_⟩
  obtain ⟨hflight, h⟩ := h
  cases hstep with
  | segment hstate => exact h.receiveSegment hstate
  | @deliver n =>
    refine h.of_same rfl rfl rfl ?_ id
    change t.recvRing.len - min _ t.recvRing.len ≤ _
    exact Nat.sub_le _ _
  | finWait2 => exact h.of_same rfl rfl rfl (le_refl _) nofun
  | timeWait hstate => exact h.of_same rfl rfl rfl (le_refl _) fun _ => by rw [hstate]; rfl
  | @close s hstate =>
    refine h.of_same rfl rfl rfl (le_refl _) fun hrecv => ?_
    rcases hstate with ⟨-, rfl⟩ | ⟨hs, -⟩
    · cases hrecv
    · rw [hs]
      rfl
  | abort => exact Holding.of_empty rfl rfl
  | closeClean => exact Holding.of_empty rfl rfl
  | timeWaitOver hdue =>
    refine h.of_same rfl rfl rfl (le_refl _) fun _ => ?_
    rw [hflight.timeWait hdue]
    rfl
  | reset => exact Holding.of_empty rfl rfl
  | connected => exact Holding.of_empty rfl rfl
  | halfOpened => exact Holding.of_empty rfl rfl
  | activeOpened hstate => exact h.of_idle (by rw [hstate]; rfl) rfl rfl
  | simultaneous hstate => exact h.of_idle (by rw [hstate]; rfl) rfl rfl
  | passiveOpened hstate => exact h.of_idle (by rw [hstate]; rfl) rfl rfl
  | cookieOpened => exact Holding.of_empty rfl rfl
  | _ => exact h.of_same rfl rfl rfl (le_refl _) id

lemma stable : Stable fun t : Tcb P => Flight t ∧ Parked t where
  core t := by
    refine and_congr (Flight.stable.core t) ?_
    constructor
    · intro h
      exact ⟨⟨h.spaced, h.near, h.room, h.fin, h.idle⟩, h.ahead⟩
    · intro h
      exact ⟨⟨h.spaced, h.near, h.room, h.fin, h.idle⟩, h.ahead⟩
  step := step

end Parked

end Tcb

open Tcb

lemma Reachable.parked {t : Tcb P} (ht : Reachable t) : Parked t :=
  (ht.stable Parked.stable fun cfg => ⟨(Reachable.new cfg).flight, Holding.of_empty rfl rfl⟩).2

end TcpSansIo
