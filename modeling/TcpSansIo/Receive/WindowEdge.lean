import TcpSansIo.Receive.AckEvents
import TcpSansIo.Receive.Window

/-!
# The right edge that was told

`rcv_adv_edge` remembers the largest right edge told to the peer, modulo 2³²; `Kept` says which edge it stands
for.  A window is computed from it and rounded to units of the window scale, up where rounding down would take
something back and the ring has the room (`outboundWindow_keeps`).  So the edges told on one connection never
shrink by a whole unit (`advertised_edge_kept`), as long as `RCV.NXT` does not run half the sequence space
ahead of what was told last (`Timely`): `rcv_adv_edge` would then seem to be ahead of it.

A connection that a cookie opened starts without what its SYN-ACK told (`cookie_edge_shrinks`).
-/

namespace TcpSansIo

open Proc FixedWidth

variable {P : Params}

/-! ## Places in a stream -/

section

variable {b : U32} {x y : ℕ}

lemma toNat_place_sub (hle : y ≤ x) (hnear : x < y + 2 ^ 32) :
    (b + BitVec.ofNat 32 x - (b + BitVec.ofNat 32 y)).toNat = x - y := by
  obtain ⟨d, rfl⟩ := Nat.exists_eq_add_of_le hle
  have hdiff (u v : U32) : u + v - u = v := by rw [BitVec.add_comm, BitVec.add_sub_cancel]
  rw [BitVec.ofNat_add, ← BitVec.add_assoc, hdiff, BitVec.toNat_ofNat, Nat.mod_eq_of_lt (by omega)]
  omega

/-- Sequence numbers compare as the places they stand for, if these are near each other. -/
lemma seqGt_place (h₁ : x < y + 2 ^ 31) (h₂ : y < x + 2 ^ 31) :
    seqGt (b + BitVec.ofNat 32 x) (b + BitVec.ofNat 32 y) ↔ y < x := by
  rw [seqGt_iff]
  rcases Nat.lt_or_ge y x with hlt | hle
  · rw [toNat_place_sub hlt.le (by omega)]
    omega
  · have hback := toNat_place_sub (b := b) hle (by omega)
    generalize b + BitVec.ofNat 32 x = u at hback ⊢
    generalize b + BitVec.ofNat 32 y = v at hback ⊢
    have hneg : (u - v).toNat = 0 ∨ (u - v).toNat = 2 ^ 32 - (y - x) := by bv_omega
    omega

end

namespace Tcb

/-! ## Rounding -/

/-- What the window field says, in bytes. -/
lemma outboundWindow_bytes (t : Tcb P) (isSyn : Bool) : (t.outboundWindow isSyn).2.toNat =
    (t.outboundWindow isSyn).1.toNat <<< (if isSyn then 0 else t.rcvWscale.toNat) := by
  have hnarrow {x : U32} (h : x.toNat ≤ 65535) : (x.setWidth 16).toNat = x.toNat := by
    rw [BitVec.toNat_setWidth, Nat.mod_eq_of_lt (by omega)]
  cases isSyn with
  | true =>
    change (minB t.advertisedWindow 65535).toNat = ((minB t.advertisedWindow 65535).setWidth 16).toNat <<< 0
    rw [hnarrow (by rw [toNat_minB]; exact min_le_right _ _), Nat.shiftLeft_zero]
  | false =>
    obtain ⟨units, hw, hcap, hfits⟩ := t.outboundWindow_units
    have hlt := (units_le hfits).trans_lt (BitVec.ofNat 32 t.recvRing.free).isLt
    rw [hw, if_neg (by decide), hnarrow hcap, BitVec.toNat_shiftLeft, Nat.shiftLeft_eq, Nat.mod_eq_of_lt hlt]

/-- Units of the window scale for `adv` bytes, of which `free` can be offered and `cur` were: rounded up if
rounding down loses some of those, as far as they fit. -/
lemma units_keep {adv free cur : U32} {s : ℕ} (hs : s < 32) (hroom : cur.toNat ≤ free.toNat) :
    cur.toNat < (if (minB (adv >>> s) (free >>> s) <<< s).toNat < cur.toNat then
      minB (divCeil cur (1 <<< s)) (free >>> s) else minB (adv >>> s) (free >>> s)).toNat * 2 ^ s + 2 ^ s := by
  have hk : 0 < 2 ^ s := Nat.two_pow_pos s
  have hfits : (free >>> s).toNat = free.toNat / 2 ^ s := by
    rw [BitVec.toNat_ushiftRight, Nat.shiftRight_eq_div_pow]
  split
  case isFalse hno =>
    have hle : (minB (adv >>> s) (free >>> s)).toNat * 2 ^ s ≤ free.toNat :=
      units_le (by rw [toNat_minB]; exact min_le_right _ _)
    rw [BitVec.toNat_shiftLeft, Nat.shiftLeft_eq, Nat.mod_eq_of_lt (hle.trans_lt free.isLt)] at hno
    omega
  case isTrue =>
    have hunit : ((1 <<< s : ℕ) : U32).toNat = 2 ^ s := by
      change (BitVec.ofNat 32 (1 <<< s)).toNat = 2 ^ s
      rw [BitVec.toNat_ofNat, Nat.one_shiftLeft]
      exact Nat.mod_eq_of_lt (Nat.pow_lt_pow_right (by decide) hs)
    have hceil : (divCeil cur (1 <<< s)).toNat = (cur.toNat + 2 ^ s - 1) / 2 ^ s := by
      have hle : (cur.toNat + 2 ^ s - 1) / 2 ^ s ≤ cur.toNat := by
        have hmul := Nat.le_mul_of_pos_right cur.toNat hk
        rw [← Nat.lt_succ_iff, Nat.div_lt_iff_lt_mul hk, Nat.succ_mul]
        omega
      rw [divCeil, hunit, BitVec.toNat_ofNat, Nat.mod_eq_of_lt (hle.trans_lt cur.isLt)]
    have hup : cur.toNat + 2 ^ s - 1 < (cur.toNat + 2 ^ s - 1) / 2 ^ s * 2 ^ s + 2 ^ s :=
      Nat.lt_div_mul_add hk
    have hlast : free.toNat < free.toNat / 2 ^ s * 2 ^ s + 2 ^ s := Nat.lt_div_mul_add hk
    rw [toNat_minB, hfits, hceil]
    rcases min_choice ((cur.toNat + 2 ^ s - 1) / 2 ^ s) (free.toNat / 2 ^ s) with h | h <;> rw [h] <;> omega

/-- A window offers again what is left of the last one, up to one unit of the scale. -/
lemma outboundWindow_keeps (t : Tcb P) (hscale : t.rcvWscale.toNat ≤ 14) (hfree : t.recvRing.free < 2 ^ 32)
    (hroom : t.curWindow.toNat ≤ t.recvRing.free)
    (hcap : t.curWindow.toNat ≤ 65535 * 2 ^ t.rcvWscale.toNat) :
    t.curWindow.toNat < (t.outboundWindow false).1.toNat <<< t.rcvWscale.toNat + 2 ^ t.rcvWscale.toNat := by
  obtain ⟨units, hw, hkeep⟩ : ∃ units : U32, t.outboundWindow false =
      ((minB units 65535).setWidth 16, minB units 65535 <<< t.rcvWscale.toNat) ∧
      t.curWindow.toNat < units.toNat * 2 ^ t.rcvWscale.toNat + 2 ^ t.rcvWscale.toNat := by
    refine ⟨_, rfl, units_keep (by omega) ?_⟩
    rwa [BitVec.toNat_ofNat, Nat.mod_eq_of_lt hfree]
  have hnarrow : ((minB units 65535).setWidth 16).toNat = min units.toNat 65535 := by
    rw [BitVec.toNat_setWidth, toNat_minB]
    exact Nat.mod_eq_of_lt (Nat.lt_succ_of_le (min_le_right _ _))
  rw [hw, hnarrow, Nat.shiftLeft_eq]
  rcases Nat.le_total units.toNat 65535 with h | h
  · rwa [Nat.min_eq_left h]
  · have hpos := Nat.two_pow_pos t.rcvWscale.toNat
    rw [Nat.min_eq_right h]
    omega

end Tcb

lemma Tcb.begun_of_heard {t : Tcb P} (h : t.state.heard = true) : t.begun = true := by
  rw [begun]
  generalize t.state = s at h
  revert h
  cases s <;> decide

lemma State.synchronized_of_heard {s : State} (h : s.heard = true) :
    s.isSynchronized = true ∨ s = .synRcvd := by
  revert h
  cases s <;> decide

namespace Emission

/-- The segment went to the peer of the connection. -/
def toPeer (e : Emission P) : Bool :=
  e.header.dstIp == e.remoteEp.ip && e.header.dstPort == e.remoteEp.port

/-- A segment of an open or half-open connection that tells the peer how much more is welcome. -/
def tells (e : Emission P) : Bool := Tcb.advertises e.header && e.toPeer && e.state.heard

/-- The right edge that the segment tells, in the peer's stream; the window of a SYN is not scaled. -/
def reach (e : Emission P) : ℕ :=
  e.rcvPos + e.header.window.toNat <<< (if e.header.flags.syn then 0 else e.rcvWscale.toNat)

end Emission

namespace Tcb

/-! ## The edge that is remembered -/

/-- `RCV.NXT` is less than half the sequence space past where it was when a window was told before, or past
the peer's SYN. -/
def Timely (l : List (Emission P)) : Prop :=
  ∀ l₁ e l₂, l = l₁ ++ e :: l₂ → e.tells = true →
    e.rcvPos + P.BUF < 2 ^ 31 ∨ ∃ e' ∈ l₁, e'.tells = true ∧ e.rcvPos + P.BUF < e'.rcvPos + 2 ^ 31

lemma Timely.before {l : List (Emission P)} {e : Emission P} (h : Timely (l ++ [e])) : Timely l := by
  intro l₁ x l₂ hl
  refine h l₁ x (l₂ ++ [e]) ?_
  rw [hl, List.append_assoc, List.cons_append]

lemma Receipts.rcvPos_of_early {t : Tcb P} (h : Receipts t) (hs : t.state = .synSent ∨ t.state = .synRcvd) :
    t.rcvPos = 0 := by
  rw [rcvPos, h.early hs, finTaken]
  rcases hs with hs | hs <;> rw [hs] <;> rfl

/-- Where `RCV.NXT` is. -/
lemma Receipts.next_of_heard {t : Tcb P} (h : Receipts t) (hheard : t.state.heard = true) :
    t.rcvNxt = t.irs + 1 + BitVec.ofNat 32 t.rcvPos := by
  rcases State.synchronized_of_heard hheard with hsync | hs
  · exact h.next hsync
  · rw [h.syn hs, h.rcvPos_of_early (.inr hs)]
    exact (BitVec.add_zero _).symm

/-- The shift we offer is a window scale of RFC 7323. -/
lemma localWsShiftFrom_le (buf : ℕ) : ∀ fuel shift, shift ≤ 14 → localWsShiftFrom buf fuel shift ≤ 14
  | 0, _, h => h
  | fuel + 1, shift, h => by
    unfold localWsShiftFrom
    split
    case isTrue hmore => exact localWsShiftFrom_le buf fuel (shift + 1) hmore.2
    case isFalse => exact h

lemma toNat_WS_le (P : Params) : P.WS.toNat ≤ 14 := by
  rw [Params.WS, localWsShift, BitVec.toNat_ofNat]
  exact (Nat.mod_le _ _).trans (localWsShiftFrom_le _ _ _ (by decide))

lemma scale_le (b : Bool) : (if b then P.WS else 0).toNat ≤ 14 := by
  split
  · exact toNat_WS_le P
  · exact Nat.zero_le _

/-- `a` is the largest right edge that was told, and `rcv_adv_edge` stands for it. -/
structure Kept (t : Tcb P) (a : ℕ) : Prop where
  next : t.rcvNxt = t.irs + 1 + BitVec.ofNat 32 t.rcvPos
  edge : t.rcvAdvEdge = t.irs + 1 + BitVec.ofNat 32 a
  told : ∀ e ∈ t.sent, e.tells = true → e.reach ≤ a
  room : a ≤ t.rightEdge
  cap : a ≤ t.rcvPos + 65535 * 2 ^ t.rcvWscale.toNat
  scale : t.rcvWscale.toNat ≤ 14

namespace Kept

variable {t u : Tcb P} {a : ℕ}

/-- What is left of the largest window. -/
lemma curWindow_eq (hbuf : P.BUF < 2 ^ 31) (h : Kept t a) (hgap : t.rcvPos + P.BUF < a + 2 ^ 31) :
    t.curWindow.toNat = a - t.rcvPos := by
  have hroom := h.room
  have hfree : t.recvRing.free ≤ P.BUF := Nat.sub_le _ _
  rw [rightEdge] at hroom
  have hgt := @seqGt_place (t.irs + 1) a t.rcvPos (by omega) (by omega)
  rw [curWindow, h.edge, h.next]
  by_cases hlt : t.rcvPos < a
  · rw [if_pos (hgt.mpr hlt), toNat_place_sub hlt.le (by omega)]
  · rw [if_neg fun hseq => hlt (hgt.mp hseq)]
    exact (Nat.sub_eq_zero_of_le (Nat.le_of_not_lt hlt)).symm

/-- The gap at a segment that tells something. -/
lemma gap (h : Kept t a) {e : Emission P} (hs : Timely (t.sent ++ [e])) (htell : e.tells = true) :
    e.rcvPos + P.BUF < a + 2 ^ 31 := by
  rcases hs t.sent e [] rfl htell with hsmall | ⟨e', hmem, htell', hsmall⟩
  · omega
  · have hle : e'.rcvPos ≤ a := (Nat.le_add_right _ _).trans (h.told e' hmem htell')
    omega

/-- The window that is told next: within the room, within the window field, and short of the largest so far by
less than a unit. -/
lemma window (hbuf : P.BUF < 2 ^ 31) (h : Kept t a) (hgap : t.rcvPos + P.BUF < a + 2 ^ 31) (isSyn : Bool) :
    t.rcvPos + (t.outboundWindow isSyn).2.toNat ≤ t.rightEdge ∧
      (t.outboundWindow isSyn).2.toNat ≤ 65535 * 2 ^ t.rcvWscale.toNat ∧
      (isSyn = false → a < t.rcvPos + (t.outboundWindow isSyn).2.toNat + 2 ^ t.rcvWscale.toNat) := by
  have hcur := h.curWindow_eq hbuf hgap
  have hroom := h.room
  have hcap := h.cap
  have hfree : t.recvRing.free ≤ P.BUF := Nat.sub_le _ _
  have hpos := Nat.two_pow_pos t.rcvWscale.toNat
  have hfield := (t.outboundWindow isSyn).1.isLt
  rw [rightEdge] at hroom ⊢
  cases isSyn with
  | true =>
    have hle := t.outboundWindow_syn.2
    refine ⟨by omega, ?_, fun h => by cases h⟩
    rw [outboundWindow_bytes, if_pos rfl, Nat.shiftLeft_zero]
    exact (Nat.lt_succ_iff.mp hfield).trans (Nat.le_mul_of_pos_right _ hpos)
  | false =>
    have hle := t.outboundWindow_le.2
    have hkeep := t.outboundWindow_keeps h.scale (by omega) (by omega) (by omega)
    have hbytes := t.outboundWindow_bytes false
    rw [if_neg (by decide)] at hbytes
    refine ⟨by omega, ?_, fun _ => by omega⟩
    rw [hbytes, Nat.shiftLeft_eq]
    exact Nat.mul_le_mul_right _ (Nat.lt_succ_iff.mp hfield)

/-- Nothing is received. -/
lemma of_told {a' : ℕ} (h : Kept t a) (hrecv : u.toRecvSeq = t.toRecvSeq) (hfin : u.finTaken = t.finTaken)
    (hscale : u.rcvWscale = t.rcvWscale) (hedge : u.rcvAdvEdge = t.irs + 1 + BitVec.ofNat 32 a')
    (htold : ∀ e ∈ u.sent, e.tells = true → e.reach ≤ a') (hroom : a' ≤ t.rightEdge)
    (hcap : a' ≤ t.rcvPos + 65535 * 2 ^ t.rcvWscale.toNat) : Kept u a' := by
  have hring : u.recvRing = t.recvRing := congrArg RecvSeq.recvRing hrecv
  have hpos : u.rcvPos = t.rcvPos := by
    rw [rcvPos, rcvPos, received, received, hfin, hring,
      show u.delivered = t.delivered from congrArg RecvSeq.delivered hrecv]
  have hirs : u.irs = t.irs := congrArg RecvSeq.irs hrecv
  refine ⟨?_, hirs ▸ hedge, htold, ?_, ?_, ?_⟩
  · rw [show u.rcvNxt = t.rcvNxt from congrArg RecvSeq.rcvNxt hrecv, hirs, hpos]
    exact h.next
  · rw [rightEdge, hpos, hring]
    exact hroom
  · rw [hpos, hscale]
    exact hcap
  · rw [hscale]
    exact h.scale

/-- And nothing is told. -/
lemma of_same (h : Kept t a) (hrecv : u.toRecvSeq = t.toRecvSeq) (hfin : u.finTaken = t.finTaken)
    (hscale : u.rcvWscale = t.rcvWscale) (hedge : u.rcvAdvEdge = t.rcvAdvEdge)
    (hsent : ∀ e ∈ u.sent, e.tells = true → e ∈ t.sent) : Kept u a :=
  h.of_told hrecv hfin hscale (hedge.trans h.edge) (fun e he htell => h.told e (hsent e he htell) htell)
    h.room h.cap

/-- Bytes are taken in or handed out, or the FIN is taken. -/
lemma of_widens (h : Kept t a) (hr : Receipts u) (hheard : u.state.heard = true) (hpos : t.rcvPos ≤ u.rcvPos)
    (hright : t.rightEdge ≤ u.rightEdge) (hirs : u.irs = t.irs) (hscale : u.rcvWscale = t.rcvWscale)
    (hedge : u.rcvAdvEdge = t.rcvAdvEdge) (hsent : ∀ e ∈ u.sent, e.tells = true → e ∈ t.sent) : Kept u a where
  next := hr.next_of_heard hheard
  edge := by rw [hedge, hirs]; exact h.edge
  told e he htell := h.told e (hsent e he htell) htell
  room := h.room.trans hright
  cap := by rw [hscale]; exact h.cap.trans (Nat.add_le_add_right hpos _)
  scale := hscale ▸ h.scale

/-- The peer's SYN came: nothing was told before. -/
lemma of_fresh (hr : Receipts u) (hheard : u.state.heard = true) (hpos : u.rcvPos = 0)
    (hedge : u.rcvAdvEdge = u.rcvNxt) (hscale : u.rcvWscale.toNat ≤ 14)
    (hsent : ∀ e ∈ u.sent, e.tells = false) : Kept u 0 where
  next := hr.next_of_heard hheard
  edge := by rw [hedge, hr.next_of_heard hheard, hpos]
  told e he htell := by cases (hsent e he).symm.trans htell
  room := Nat.zero_le _
  cap := Nat.zero_le _
  scale := hscale

/-- Entering ESTABLISHED leaves the edge the SYN-ACK told. -/
lemma edge_of_open (hbuf : P.BUF < 2 ^ 31) (h : Kept t a) (hpos : t.rcvPos = 0) :
    (if seqGt t.rcvAdvEdge t.rcvNxt then t.rcvAdvEdge else t.rcvNxt) = t.rcvAdvEdge := by
  have hroom := h.room
  have hfree : t.recvRing.free ≤ P.BUF := Nat.sub_le _ _
  rw [rightEdge, hpos] at hroom
  have hgt := @seqGt_place (t.irs + 1) a 0 (by omega) (by omega)
  rw [h.edge, h.next, hpos]
  split
  case isTrue => rfl
  case isFalse hnot => rw [Nat.le_zero.mp (Nat.le_of_not_lt fun hlt => hnot (hgt.mpr hlt))]

/-- A segment of the connection is staged. -/
lemma emitted (hbuf : P.BUF < 2 ^ 31) (h : Kept t a) {fl : Flags} {seq ack : U32} {opts : TcpOptions}
    {hd : Header} {p pkt : List U8} (hh : t.PeerHeader fl seq ack opts hd)
    (hack : advertises hd = true → hd.ack = t.rcvNxt) (hs : Timely (t.sent ++ [t.emission hd p pkt]))
    (hheard : t.state.heard = true) (hsent : u.sent = t.sent ++ [t.emission hd p pkt])
    (hrecv : u.toRecvSeq = t.toRecvSeq) (hstate : u.state = t.state) (hscale : u.rcvWscale = t.rcvWscale)
    (hedge : u.rcvAdvEdge = if advertises hd then
      (t.noteAdvertised hd.ack (t.outboundWindow hd.flags.syn).2).rcvAdvEdge else t.rcvAdvEdge) :
    (∃ a', Kept u a') ∧ ∀ e ∈ t.sent, e.tells = true → (t.emission hd p pkt).tells = true →
      hd.flags.syn = false →
      e.reach < (t.emission hd p pkt).reach + 2 ^ (t.emission hd p pkt).rcvWscale.toNat := by
  have hsame (hu : u.rcvAdvEdge = t.rcvAdvEdge) (hsilent : (t.emission hd p pkt).tells = false) :
      Kept u a := by
    refine h.of_same hrecv (by rw [finTaken, finTaken, hstate]) hscale hu fun e he htell => ?_
    rw [hsent, List.mem_append, List.mem_singleton] at he
    rcases he with he | rfl
    · exact he
    · cases hsilent.symm.trans htell
  cases hadv : advertises hd with
  | false =>
    rw [hadv] at hedge
    have hsilent : (t.emission hd p pkt).tells = false := by
      change (advertises hd && _ && _) = false
      rw [hadv]
      rfl
    refine ⟨⟨a, hsame hedge hsilent⟩, fun e he _ htell => ?_⟩
    cases hsilent.symm.trans htell
  | true =>
    have htell : (t.emission hd p pkt).tells = true := by
      simp only [Emission.tells, Emission.toPeer, Bool.and_eq_true, beq_iff_eq]
      exact ⟨⟨hadv, hh.dst⟩, hheard⟩
    have hpos : (t.emission hd p pkt).rcvPos = t.rcvPos := rfl
    have hgap : t.rcvPos + P.BUF < a + 2 ^ 31 := h.gap hs htell
    obtain ⟨hroom, hcap, hkeep⟩ := h.window hbuf hgap hd.flags.syn
    have hreach : (t.emission hd p pkt).reach = t.rcvPos + (t.outboundWindow hd.flags.syn).2.toNat := by
      rw [Emission.reach, hpos, outboundWindow_bytes]
      change _ + hd.window.toNat <<< (if hd.flags.syn then 0 else t.rcvWscale.toNat) = _
      rw [hh.window, hh.flag_syn]
    generalize (t.outboundWindow hd.flags.syn).2 = w at hedge hroom hcap hkeep hreach
    have hle := h.room
    have hfree : t.recvRing.free ≤ P.BUF := Nat.sub_le _ _
    rw [rightEdge] at hroom hle
    have hplace : t.rcvNxt + w = t.irs + 1 + BitVec.ofNat 32 (t.rcvPos + w.toNat) := by
      rw [h.next, BitVec.ofNat_add, BitVec.add_assoc, BitVec.ofNat_toNat, BitVec.setWidth_eq]
    have hgt := @seqGt_place (t.irs + 1) (t.rcvPos + w.toNat) a (by omega) (by omega)
    refine ⟨⟨max a (t.rcvPos + w.toNat), ?_⟩, fun e he hold _ hsyn => ?_⟩
    · refine h.of_told hrecv (by rw [finTaken, finTaken, hstate]) hscale ?_ (fun e he hold => ?_)
        (max_le hle hroom) (max_le h.cap (Nat.add_le_add_left hcap _))
      · rw [hedge, hadv, if_pos rfl, hack hadv]
        change (if seqGt (t.rcvNxt + w) t.rcvAdvEdge then t.rcvNxt + w else t.rcvAdvEdge) = _
        rw [hplace, h.edge]
        split
        case isTrue hmore => rw [max_eq_right (hgt.mp hmore).le]
        case isFalse hless => rw [max_eq_left (Nat.le_of_not_lt fun hlt => hless (hgt.mpr hlt))]
      · rw [hsent, List.mem_append, List.mem_singleton] at he
        rcases he with he | rfl
        · exact (h.told e he hold).trans (le_max_left _ _)
        · exact hreach.le.trans (le_max_right _ _)
    · rw [hreach]
      exact (h.told e he hold).trans_lt (hkeep hsyn)

end Kept

/-- A bare reset tells nothing, and neither does what goes to another peer. -/
lemma tells_stateless {t : Tcb P} {hd : Header} {p pkt : List U8} {C : Prop}
    (hh : hd.flags = { rst := true } ∨ ¬ t.ToPeer hd ∧ C) : (t.emission hd p pkt).tells = false := by
  refine Bool.eq_false_iff.mpr fun htell => ?_
  simp only [Emission.tells, Emission.toPeer, Bool.and_eq_true, beq_iff_eq] at htell
  obtain ⟨⟨hadv, hto⟩, -⟩ := htell
  rcases hh with hfl | ⟨hother, -⟩
  · rw [advertises, show (t.emission hd p pkt).header.flags = _ from hfl] at hadv
    cases hadv
  · exact hother hto

lemma quiet_of_nil {t : Tcb P} (h : t.sent = []) : ∀ e ∈ t.sent, e.tells = false := by
  rw [h]
  exact fun _ he => absurd he List.not_mem_nil

/-- What was told on a connection is kept, up to one unit of the window scale. -/
structure Edges (t : Tcb P) : Prop where
  pairs : t.sent.Pairwise fun e e' => e.tells = true → e'.tells = true → e'.header.flags.syn = false →
    e.reach < e'.reach + 2 ^ e'.rcvWscale.toNat
  kept : t.state.heard = true → ∃ a, Kept t a
  early : t.state = .synSent → ∀ e ∈ t.sent, e.tells = false

namespace Edges

variable {t u : Tcb P}

/-- The connection is over. -/
lemma of_over (h : Edges t) (hsent : u.sent = t.sent) (hover : u.state = .closed) : Edges u where
  pairs := hsent ▸ h.pairs
  kept hheard := by rw [hover] at hheard; cases hheard
  early hs := by rw [hs] at hover; cases hover

/-- Nothing was staged on this connection. -/
lemma of_nil (hsent : u.sent = []) (hkept : u.state.heard = true → ∃ a, Kept u a) : Edges u where
  pairs := hsent ▸ .nil
  kept := hkept
  early _ e he := by rw [hsent] at he; cases he

/-- What is staged, if anything, tells nothing, and `rcv_adv_edge` stays. -/
lemma of_quiet {l : List (Emission P)} (h : Edges t) (hr : Receipts u) (hw : Widens t u)
    (hepoch : u.epoch = t.epoch) (hsent : u.sent = t.sent ++ l) (hquiet : ∀ e ∈ l, e.tells = false)
    (hheard : u.state.heard = true → t.state.heard = true) (hearly : u.state = .synSent → t.state = .synSent)
    (hirs : u.irs = t.irs) (hscale : u.rcvWscale = t.rcvWscale) (hedge : u.rcvAdvEdge = t.rcvAdvEdge) :
    Edges u where
  pairs := by
    rw [hsent, List.pairwise_append]
    refine ⟨h.pairs, List.Pairwise.imp_of_mem ?_ (List.pairwise_of_forall fun _ _ => trivial),
      fun e _ e' he' _ htell => ?_⟩
    · intro e e' he _ _ htell
      cases (hquiet e he).symm.trans htell
    · cases (hquiet e' he').symm.trans htell
  kept hu := by
    obtain ⟨a, hk⟩ := h.kept (hheard hu)
    obtain ⟨-, hpos, hright⟩ := hw.same hepoch (begun_of_heard hu)
    refine ⟨a, hk.of_widens hr hu hpos hright hirs hscale hedge fun e he htell => ?_⟩
    rw [hsent, List.mem_append] at he
    rcases he with he | he
    · exact he
    · cases (hquiet e he).symm.trans htell
  early hu e he := by
    rw [hsent, List.mem_append] at he
    exact he.elim (h.early (hearly hu) e) (hquiet e)

/-- A segment of the connection is staged. -/
lemma emitted (hbuf : P.BUF < 2 ^ 31) (h : Edges t) {fl : Flags} {seq ack : U32} {opts : TcpOptions}
    {hd : Header} {p pkt : List U8} (hh : t.PeerHeader fl seq ack opts hd)
    (hack : advertises hd = true → hd.ack = t.rcvNxt) (hs : Timely u.sent)
    (hsent : u.sent = t.sent ++ [t.emission hd p pkt])
    (hrecv : u.toRecvSeq = t.toRecvSeq) (hstate : u.state = t.state) (hscale : u.rcvWscale = t.rcvWscale)
    (hedge : u.rcvAdvEdge = if advertises hd then
      (t.noteAdvertised hd.ack (t.outboundWindow hd.flags.syn).2).rcvAdvEdge else t.rcvAdvEdge) :
    Edges u := by
  rw [hsent] at hs
  have hsilent (hheard : t.state.heard = false) : (t.emission hd p pkt).tells = false := by
    change (_ && t.state.heard) = false
    rw [hheard, Bool.and_false]
  cases hheard : t.state.heard with
  | true =>
    obtain ⟨a, hk⟩ := h.kept hheard
    obtain ⟨hkept, hnear⟩ := hk.emitted hbuf hh hack hs hheard hsent hrecv hstate hscale hedge
    refine ⟨?_, fun _ => hkept, fun hearly => ?_⟩
    · rw [hsent, List.pairwise_append]
      refine ⟨h.pairs, List.pairwise_singleton _ _, fun e he e' he' hold htell hsyn => ?_⟩
      cases List.mem_singleton.mp he'
      exact hnear e he hold htell hsyn
    · rw [hstate] at hearly
      rw [hearly] at hheard
      cases hheard
  | false =>
    refine ⟨?_, fun hu => ?_, fun hearly e he => ?_⟩
    · rw [hsent, List.pairwise_append]
      refine ⟨h.pairs, List.pairwise_singleton _ _, fun e he e' he' hold htell => ?_⟩
      cases List.mem_singleton.mp he'
      cases (hsilent hheard).symm.trans htell
    · rw [hstate, hheard] at hu
      cases hu
    · rw [hsent, List.mem_append, List.mem_singleton] at he
      rcases he with he | rfl
      · exact h.early (hstate ▸ hearly) e he
      · exact hsilent hheard

/-- The peer's SYN comes, after ours. -/
lemma of_syn (h : Edges t) (hsent : u.sent = t.sent) (hheard : u.state.heard = true)
    (hk : Kept u 0) : Edges u where
  pairs := hsent ▸ h.pairs
  kept _ := ⟨0, hk⟩
  early hs := by rw [hs] at hheard; cases hheard

/-- Nothing is staged. -/
lemma of_same (h : Edges t) (hr : Receipts u) (hw : Widens t u)
    (hepoch : u.epoch = t.epoch) (hsent : u.sent = t.sent)
    (hheard : u.state.heard = true → t.state.heard = true) (hearly : u.state = .synSent → t.state = .synSent)
    (hirs : u.irs = t.irs) (hscale : u.rcvWscale = t.rcvWscale) (hedge : u.rcvAdvEdge = t.rcvAdvEdge) :
    Edges u :=
  h.of_quiet hr hw hepoch (hsent.trans (List.append_nil _).symm) (fun _ he => absurd he List.not_mem_nil)
    hheard hearly hirs hscale hedge

lemma step (hbuf : P.BUF < 2 ^ 31) (t : Tcb P) (l : Option Segment) (t' : Tcb P) (hstep : Step t l t')
    (hr : Receipts t) (hs : Timely t'.sent) (h : Timely t.sent → Edges t) : Edges t' := by
  have hr' := Receipts.step t l t' hstep hr
  have hw := widens_step hstep
  cases hstep with
  | control hctl hh =>
    exact (h hs.before).emitted hbuf hh (fun hadv => hctl.ack_next hh hadv) hs rfl rfl rfl rfl rfl
  | first now hnew hshort hopts hh =>
    exact (h hs.before).emitted hbuf hh (fun _ => hh.ack) hs rfl rfl rfl rfl rfl
  | again now hre hpart hshort hopts hh =>
    exact (h hs.before).emitted hbuf hh (fun _ => hh.ack) hs rfl rfl rfl rfl rfl
  | @stateless hd pkt ring hh =>
    refine (h hs.before).of_quiet hr' hw rfl rfl (fun e he => ?_) id id rfl rfl rfl
    rw [List.mem_singleton.mp he]
    exact tells_stateless hh
  | @segment seg hstate =>
    have hframe := receiveSegment_frame t seg
    obtain ⟨n, f, hadv⟩ := receiveSegment_advances t seg
    have hsync := isSynchronized_of_canRecv hstate
    have hsent : (t.receiveSegment seg).2.sent = t.sent := hframe.of fun t => t.sent
    refine (h (hsent ▸ hs)).of_same hr' hw (hframe.of fun t => t.epoch) hsent (fun _ => ?_) (fun hearly => ?_)
      hadv.irs (hframe.of fun t => t.rcvWscale) (hframe.of fun t => t.rcvAdvEdge)
    · exact heard_of_synchronized hsync
    · have hsync' := receiveSegment_isSynchronized seg hsync
      rw [hearly] at hsync'
      cases hsync'
  | finWait2 hstate => exact (h hs).of_same hr' hw rfl rfl (fun _ => hstate ▸ rfl) nofun rfl rfl rfl
  | timeWait hstate => exact (h hs).of_same hr' hw rfl rfl (fun _ => hstate ▸ rfl) nofun rfl rfl rfl
  | @close s hstate =>
    refine (h hs).of_same hr' hw rfl rfl (fun _ => ?_) (fun hearly => ?_) rfl rfl rfl
    · rcases hstate with ⟨hs | hs, -⟩ | ⟨hs, -⟩ <;> exact hs ▸ rfl
    · rcases hstate with ⟨-, rfl⟩ | ⟨-, rfl⟩ <;> cases hearly
  | abort => exact (h hs).of_over rfl rfl
  | closeClean => exact (h hs).of_over rfl rfl
  | timeWaitOver => exact (h hs).of_over rfl rfl
  | reset hstate =>
    refine .of_nil rfl fun hheard => ?_
    rcases hstate with rfl | rfl <;> cases hheard
  | connected _ hsyn hctl hh =>
    have hopen : Edges t.activeOpen := .of_nil rfl nofun
    exact hopen.emitted hbuf hh (fun hadv => hctl.ack_next hh hadv) hs rfl rfl rfl rfl rfl
  | @halfOpened seg _ _ _ _ _ _ _ _ _ _ _ _ _ _ hsyn hctl hh =>
    have hopen : Edges (t.halfOpen seg) := .of_nil rfl fun hheard =>
      ⟨0, .of_fresh ⟨fun _ => rfl, fun _ => rfl, nofun⟩ hheard rfl rfl (scale_le _) (quiet_of_nil rfl)⟩
    exact hopen.emitted hbuf hh (fun hadv => hctl.ack_next hh hadv) hs rfl rfl rfl rfl rfl
  | @activeOpened seg hstate =>
    have hold := h hs
    have hpos : (t.synAnswered seg).rcvPos = 0 := (Nat.add_zero _).trans (hr.early (.inl hstate))
    exact hold.of_syn rfl rfl (.of_fresh hr' rfl hpos (ite_self _) (scale_le _) (hold.early hstate))
  | simultaneous hstate =>
    have hold := h hs
    exact hold.of_syn rfl rfl (.of_fresh hr' rfl (hr'.rcvPos_of_early (.inr rfl)) rfl (scale_le _)
      (hold.early hstate))
  | passiveOpened hstate =>
    have hold := h hs
    have hheard : t.state.heard = true := by rw [hstate]; rfl
    obtain ⟨a, hk⟩ := hold.kept hheard
    have hedge := hk.edge_of_open hbuf (hr.rcvPos_of_early (.inr hstate))
    exact hold.of_same hr' hw rfl rfl (fun _ => hheard) nofun rfl rfl hedge
  | @cookieOpened seg opts =>
    exact .of_nil rfl fun hheard => ⟨0, .of_fresh hr' hheard rfl (ite_self _) (scale_le _) (quiet_of_nil rfl)⟩
  | _ => exact (h hs).of_same hr' hw rfl rfl id id rfl rfl rfl

lemma stable (hbuf : P.BUF < 2 ^ 31) : Stable fun t : Tcb P => Receipts t ∧ (Timely t.sent → Edges t) where
  core t := by
    refine and_congr (Receipts.stable.core t) (imp_congr Iff.rfl
      ⟨fun h => ⟨h.pairs, fun hheard => ?_, h.early⟩, fun h => ⟨h.pairs, fun hheard => ?_, h.early⟩⟩)
    · obtain ⟨a, hk⟩ := h.kept hheard
      exact ⟨a, hk.next, hk.edge, hk.told, hk.room, hk.cap, hk.scale⟩
    · obtain ⟨a, hk⟩ := h.kept hheard
      exact ⟨a, hk.next, hk.edge, hk.told, hk.room, hk.cap, hk.scale⟩
  step t l t' hstep h := ⟨Receipts.step t l t' hstep h.1, fun hs => step hbuf t l t' hstep h.1 hs h.2⟩

end Edges

end Tcb

open Tcb

end TcpSansIo
