import TcpSansIo.Receive.EndOfStream
import TcpSansIo.Receive.Parked

/-!
# The stream that is received

The books of the receiving side.  `RCV.NXT` counts on from the peer's SYN through the bytes received in
order to the peer's FIN (`Receipts`).

What a peer sends is an `Offer`: its initial sequence number, its stream, and whether it ended the stream.
Segments of the offer may be lost, repeated, reordered, and cut anew; each carries the stream at its place
(`Segment.From`).  If nothing else arrives, then what is delivered, what waits in the receive ring and what
is parked beyond it are all bytes of the stream at their place, and the peer's FIN is taken only at the end
of the stream (`Matches`).  Sequence numbers tell the places of a stream shorter than 2³¹ bytes apart.
-/

namespace TcpSansIo

open Proc FixedWidth Intervals

variable {P : Params}

/-! ## Offers -/

/-- What a peer sends on a connection. -/
structure Offer where
  iss : U32
  stream : List U8
  /-- The peer sent its FIN. -/
  ended : Bool

/-- The segment carries the offer's stream from its byte `n` on. -/
structure Segment.At (seg : Segment) (o : Offer) (n : ℕ) : Prop where
  place : seg.seq = o.iss + 1 + BitVec.ofNat 32 n
  text : seg.payload <+: o.stream.drop n
  le : n ≤ o.stream.length
  fin : seg.flags.fin = true → o.ended = true ∧ n + seg.payload.length = o.stream.length

/-- What the segment carries, if it carries anything, is of the offer. -/
def Segment.From (seg : Segment) (o : Offer) : Prop :=
  seg.payload ≠ [] ∨ seg.flags.fin = true → ∃ n, seg.At o n

namespace Offer

/-- More was sent. -/
structure Le (o o' : Offer) : Prop where
  iss : o'.iss = o.iss
  stream : o.stream <+: o'.stream
  ended : o.ended = true → o'.ended = true ∧ o'.stream = o.stream

variable {b : U32} {i j : ℕ}

lemma place_gt (hi : i < 2 ^ 31) (hj : j < 2 ^ 31) :
    seqGt (b + BitVec.ofNat 32 i) (b + BitVec.ofNat 32 j) ↔ j < i := by
  have h₁ : (b + BitVec.ofNat 32 i - b).toNat = i := Tcb.off_add_ofNat (by omega)
  have h₂ : (b + BitVec.ofNat 32 j - b).toNat = j := Tcb.off_add_ofNat (by omega)
  rw [seqGt_offset (a := b) (by omega) (by omega), h₁, h₂]

lemma place_lt (hi : i < 2 ^ 31) (hj : j < 2 ^ 31) :
    seqLt (b + BitVec.ofNat 32 i) (b + BitVec.ofNat 32 j) ↔ i < j := by
  have h₁ : (b + BitVec.ofNat 32 i - b).toNat = i := Tcb.off_add_ofNat (by omega)
  have h₂ : (b + BitVec.ofNat 32 j - b).toNat = j := Tcb.off_add_ofNat (by omega)
  rw [seqLt_offset (a := b) (by omega) (by omega), h₁, h₂]

lemma place_sub (hi : i < 2 ^ 31) (hij : j ≤ i) :
    (b + BitVec.ofNat 32 i - (b + BitVec.ofNat 32 j)).toNat = i - j := by
  have h₁ : (b + BitVec.ofNat 32 i - b).toNat = i := Tcb.off_add_ofNat (by omega)
  have h₂ : (b + BitVec.ofNat 32 j - b).toNat = j := Tcb.off_add_ofNat (by omega)
  rw [toNat_sub_offset (a := b) (by omega), h₁, h₂]

lemma place_inj (hi : i < 2 ^ 31) (hj : j < 2 ^ 31) (h : b + BitVec.ofNat 32 i = b + BitVec.ofNat 32 j) :
    i = j := by
  have h₁ : (b + BitVec.ofNat 32 i - b).toNat = i := Tcb.off_add_ofNat (by omega)
  have h₂ : (b + BitVec.ofNat 32 j - b).toNat = j := Tcb.off_add_ofNat (by omega)
  rw [← h₁, h, h₂]

end Offer

namespace Tcb

/-! ## Receipts -/

/-- `RCV.NXT` counts what was received in order. -/
structure Receipts (t : Tcb P) : Prop where
  early : t.state = .synSent ∨ t.state = .synRcvd → t.received = 0
  syn : t.state = .synRcvd → t.rcvNxt = t.irs + 1
  next : t.state.isSynchronized = true →
    t.rcvNxt = t.irs + 1 + BitVec.ofNat 32 (t.received + t.finTaken.toNat)

lemma finTaken_of_canRecv {t : Tcb P} (h : t.state.canRecv = true) : t.finTaken = false := by
  rw [finTaken, h, Bool.not_true, Bool.and_false]

namespace Receipts

variable {t u : Tcb P}

lemma of_over (h : u.state = .closed ∨ u.state = .listen) : Receipts u := by
  refine ⟨fun hs => ?_, fun hs => ?_, fun hs => ?_⟩ <;> rcases h with h | h <;> rw [h] at hs
  · rcases hs with hs | hs <;> cases hs
  · rcases hs with hs | hs <;> cases hs
  all_goals cases hs

lemma of_same (h : Receipts t) (hnxt : u.rcvNxt = t.rcvNxt) (hirs : u.irs = t.irs)
    (hrec : u.received = t.received) (hstate : u.state = t.state) : Receipts u := by
  refine ⟨fun hs => ?_, fun hs => ?_, fun hs => ?_⟩
  · rw [hrec]
    exact h.early (hstate ▸ hs)
  · rw [hnxt, hirs]
    exact h.syn (hstate ▸ hs)
  · rw [finTaken, hnxt, hirs, hrec, hstate, ← finTaken]
    exact h.next (hstate ▸ hs)

/-- The state moves on while nothing is received. -/
lemma of_state (h : Receipts t) (hsync : t.state.isSynchronized = true) (hnxt : u.rcvNxt = t.rcvNxt)
    (hirs : u.irs = t.irs) (hrec : u.received = t.received) (hu : u.state.isSynchronized = true)
    (hfin : u.finTaken = t.finTaken) : Receipts u := by
  refine ⟨fun hs => ?_, fun hs => ?_, fun _ => ?_⟩
  · rcases hs with hs | hs <;> rw [hs] at hu <;> cases hu
  · rw [hs] at hu
    cases hu
  · rw [hnxt, hirs, hrec, hfin]
    exact h.next hsync

/-- A connection that was just opened. -/
lemma of_open (hrec : u.received = 0) (hnxt : u.rcvNxt = u.irs + 1) (hrecv : u.state.canRecv = true) :
    Receipts u := by
  refine ⟨fun _ => hrec, fun _ => hnxt, fun _ => ?_⟩
  rw [hrec, finTaken_of_canRecv hrecv, hnxt]
  exact (BitVec.add_zero _).symm

lemma segment {seg : Segment} (h : Receipts t) (hstate : t.state.canRecv = true) :
    Receipts (t.receiveSegment seg).2 := by
  obtain ⟨n, f, hadv⟩ := receiveSegment_advances t seg
  have hsync := isSynchronized_of_canRecv hstate
  have hnext := h.next hsync
  have hu := receiveSegment_isSynchronized seg hsync
  have hfin : (t.receiveSegment seg).2.finTaken = f := by
    rw [finTaken, hu, hadv.recv, hstate]
    cases f <;> rfl
  have hrec : (t.receiveSegment seg).2.received = t.received + n := by
    rw [received, received, hadv.delivered, hadv.len, Nat.add_assoc]
  refine ⟨fun hs => ?_, fun hs => ?_, fun _ => ?_⟩
  · rcases hs with hs | hs <;> rw [hs] at hu <;> cases hu
  · rw [hs] at hu
    cases hu
  · rw [hadv.nxt, hadv.irs, hrec, hfin, hnext, finTaken_of_canRecv hstate, BitVec.ofNat_add, BitVec.ofNat_add,
      BitVec.ofNat_add, ofFlag]
    simp only [BitVec.add_assoc]
    cases f <;> simp

lemma step (t : Tcb P) (l : Option Segment) (t' : Tcb P) (hstep : Step t l t') (h : Receipts t) :
    Receipts t' := by
  cases hstep with
  | segment hstate => exact h.segment hstate
  | @deliver n =>
    refine h.of_same rfl rfl ?_ rfl
    rw [received, received, ← Ring.length_contents, ← Ring.length_contents, ← List.length_append,
      ← List.length_append, stream_deliver]
    rfl
  | finWait2 hstate => exact h.of_state (by rw [hstate]; rfl) rfl rfl rfl rfl (by rw [finTaken, finTaken, hstate]; rfl)
  | timeWait hstate => exact h.of_state (by rw [hstate]; rfl) rfl rfl rfl rfl (by rw [finTaken, finTaken, hstate]; rfl)
  | @close s hstate =>
    rcases hstate with ⟨hs | hs, rfl⟩ | ⟨hs, rfl⟩
    · exact h.of_state (by rw [hs]; rfl) rfl rfl rfl rfl (by rw [finTaken, finTaken, hs]; rfl)
    · exact of_open (h.early (.inr hs)) (h.syn hs) rfl
    · exact h.of_state (by rw [hs]; rfl) rfl rfl rfl rfl (by rw [finTaken, finTaken, hs]; rfl)
  | abort => exact of_over (.inl rfl)
  | closeClean => exact of_over (.inl rfl)
  | timeWaitOver => exact of_over (.inl rfl)
  | reset hstate => exact of_over hstate
  | connected => exact ⟨fun _ => rfl, nofun, nofun⟩
  | halfOpened => exact ⟨fun _ => rfl, fun _ => rfl, nofun⟩
  | activeOpened hstate => exact of_open (h.early (.inl hstate)) rfl rfl
  | simultaneous hstate => exact ⟨fun _ => h.early (.inl hstate), fun _ => rfl, nofun⟩
  | passiveOpened hstate => exact of_open (h.early (.inr hstate)) (h.syn hstate) rfl
  | cookieOpened => exact of_open rfl rfl rfl
  | _ => exact h.of_same rfl rfl rfl rfl

lemma stable : Stable (Receipts (P := P)) where
  core _ := ⟨fun h => ⟨h.early, h.syn, h.next⟩, fun h => ⟨h.early, h.syn, h.next⟩⟩
  step := step

end Receipts

/-! ## What is received of an offer -/

/-- Everything the block holds of the peer's stream is the offer's, at its place. -/
structure Matches (o : Offer) (t : Tcb P) : Prop where
  next : t.state.canRecv = true → t.rcvNxt = o.iss + 1 + BitVec.ofNat 32 t.received
  read : t.delivered <+: o.stream
  text : ∀ k < t.recvRing.len, o.stream[t.delivered.length + k]? = some (t.recvRing.cell k)
  ahead : ∀ x ∈ t.parked, o.stream[t.received + x]? = some (t.recvRing.cell (t.recvRing.len + x))
  fin : ∀ h ∈ t.oooFin, o.ended = true ∧ h.seq = o.iss + 1 + BitVec.ofNat 32 o.stream.length
  done : t.finTaken = true → o.ended = true ∧ t.received = o.stream.length

namespace Matches

variable {o : Offer} {t u : Tcb P} {seg : Segment}

/-- So what was received in order is the beginning of the stream. -/
lemma stream_le (h : Matches o t) : t.stream <+: o.stream := by
  rw [stream, List.prefix_iff_getElem?]
  intro k hk
  rw [List.length_append, Ring.length_contents] at hk
  by_cases hlt : k < t.delivered.length
  · rw [List.getElem_append_left hlt]
    exact List.prefix_iff_getElem?.mp h.read k hlt
  · have htext := h.text (k - t.delivered.length) (by omega)
    rw [Nat.add_sub_cancel' (by omega)] at htext
    rw [List.getElem_append_right (by omega), Ring.getElem_contents]
    exact htext

lemma length_stream (t : Tcb P) : t.stream.length = t.received := by
  rw [stream, List.length_append, Ring.length_contents, received]

lemma received_le (h : Matches o t) : t.received ≤ o.stream.length := by
  rw [← length_stream]
  exact h.stream_le.length_le

/-- After the peer's FIN the stream is complete. -/
lemma complete (h : Matches o t) (hfin : t.finTaken = true) : o.ended = true ∧ t.stream = o.stream := by
  obtain ⟨hended, hlen⟩ := h.done hfin
  exact ⟨hended, h.stream_le.eq_of_length (by rw [length_stream, hlen])⟩

/-- A longer offer has the same bytes. -/
lemma mono {o' : Offer} (h : Matches o t) (hle : o.Le o') : Matches o' t := by
  have hbyte {k : ℕ} {b : U8} (hk : o.stream[k]? = some b) : o'.stream[k]? = some b := by
    obtain ⟨hlt, hget⟩ := List.getElem?_eq_some_iff.mp hk
    rw [← hget]
    exact List.prefix_iff_getElem?.mp hle.stream k hlt
  refine ⟨fun hs => ?_, h.read.trans hle.stream, fun k hk => hbyte (h.text k hk),
    fun x hx => hbyte (h.ahead x hx), fun f hf => ?_, fun hfin => ?_⟩
  · rw [hle.iss]
    exact h.next hs
  · obtain ⟨hended, hseq⟩ := h.fin f hf
    rw [hle.iss, (hle.ended hended).2]
    exact ⟨(hle.ended hended).1, hseq⟩
  · obtain ⟨hended, hlen⟩ := h.done hfin
    rw [(hle.ended hended).2]
    exact ⟨(hle.ended hended).1, hlen⟩

/-- A block that received nothing. -/
lemma of_empty (hrec : t.received = 0) (hnxt : t.state.canRecv = true → t.rcvNxt = o.iss + 1)
    (hooo : t.ooo.ranges = []) (hfin : t.oooFin = none) (htaken : t.finTaken = false) : Matches o t := by
  rw [received] at hrec
  have hdel : t.delivered = [] := List.length_eq_zero_iff.mp (by omega)
  refine ⟨fun hs => ?_, ?_, fun k hk => ?_, fun x hx => ?_, fun f hf => ?_, fun hf => ?_⟩
  · rw [hnxt hs, received, hrec]
    exact (BitVec.add_zero _).symm
  · rw [hdel]
    exact List.nil_prefix
  · omega
  · rw [parked, hooo, held_nil] at hx
    cases hx
  · rw [hfin] at hf
    cases hf
  · rw [htaken] at hf
    cases hf

/-- The receive side is the same, and no FIN was taken. -/
lemma of_same (h : Matches o t) (hnxt : u.rcvNxt = t.rcvNxt) (hdel : u.delivered = t.delivered)
    (hring : u.recvRing = t.recvRing) (hooo : u.ooo.ranges = t.ooo.ranges ∨ u.ooo.ranges = [])
    (hfin : ∀ f ∈ u.oooFin, f ∈ t.oooFin) (hrecv : u.state.canRecv = true → t.state.canRecv = true)
    (htaken : u.finTaken = true → t.finTaken = true) : Matches o u := by
  have hrec : u.received = t.received := by rw [received, received, hdel, hring]
  refine ⟨fun hs => ?_, ?_, ?_, fun x hx => ?_, fun f hf => h.fin f (hfin f hf), fun hf => ?_⟩
  · rw [hnxt, hrec]
    exact h.next (hrecv hs)
  · rw [hdel]
    exact h.read
  · rw [hdel, hring]
    exact h.text
  · rw [hrec, hring]
    refine h.ahead x ?_
    rw [parked, hnxt] at hx
    rcases hooo with hsame | hnil
    · rwa [hsame] at hx
    · rw [hnil, held_nil] at hx
      cases hx
  · rw [hrec]
    exact h.done (htaken hf)

/-- The application reads. -/
lemma deliver (h : Matches o t) {n : ℕ} (hnxt : u.rcvNxt = t.rcvNxt)
    (hdel : u.delivered = t.delivered ++ (t.recvRing.read n).1) (hring : u.recvRing = (t.recvRing.read n).2)
    (hooo : u.ooo = t.ooo) (hfin : u.oooFin = t.oooFin) (hstate : u.state = t.state) : Matches o u := by
  have hstream : u.stream = t.stream := by
    rw [stream, hdel, hring]
    exact stream_deliver t n
  have hrec : u.received = t.received := by rw [← length_stream, ← length_stream, hstream]
  have hlen : (t.recvRing.read n).1.length = min n t.recvRing.len := Ring.length_peek _ _
  have hcell (k : ℕ) : u.recvRing.cell k = t.recvRing.cell ((t.recvRing.read n).1.length + k) := by
    rw [hring]
    change (t.recvRing.consume (t.recvRing.read n).1.length).cell k = _
    rw [Ring.cell_consume, hlen, Nat.min_assoc, Nat.min_self]
  have hrest : u.recvRing.len = t.recvRing.len - (t.recvRing.read n).1.length := by
    rw [hring]
    change t.recvRing.len - min (t.recvRing.read n).1.length t.recvRing.len = _
    rw [Nat.min_eq_left (by omega)]
  refine ⟨fun hs => ?_, ?_, fun k hk => ?_, fun x hx => ?_, ?_, fun hf => ?_⟩
  · rw [hnxt, hrec]
    exact h.next (hstate ▸ hs)
  · refine List.IsPrefix.trans ?_ (hstream ▸ h.stream_le)
    exact List.prefix_append _ _
  · rw [hdel, hcell, List.length_append, Nat.add_assoc]
    exact h.text _ (by omega)
  · have hx' : x ∈ t.parked := by rwa [parked, hnxt, hooo] at hx
    rw [hrec, hcell, hrest, ← Nat.add_assoc, Nat.add_sub_cancel' (by omega)]
    exact h.ahead x hx'
  · rw [hfin]
    exact h.fin
  · rw [hrec]
    rw [finTaken, hstate] at hf
    exact h.done hf

/-! ## Segments of the offer -/

/-- In-order text continues the stream. -/
lemma inOrder_text (hshort : o.stream.length < 2 ^ 31) (h : Matches o t) (hseg : seg.From o)
    {data : List U8} (hstate : t.state.canRecv = true) (hle : ¬ seqGt seg.seq t.rcvNxt)
    (hdata : data <+: seg.payload.drop (t.rcvNxt - seg.seq).toNat) : data <+: o.stream.drop t.received := by
  by_cases hnil : seg.payload = []
  · rw [hnil, List.drop_nil, List.prefix_nil] at hdata
    rw [hdata]
    exact List.nil_prefix
  · obtain ⟨n, hat⟩ := hseg (.inl hnil)
    have hrec := h.received_le
    have hn := hat.le
    have hbefore : n ≤ t.received := by
      rw [hat.place, h.next hstate, Offer.place_gt (by omega) (by omega)] at hle
      omega
    have hskip : (t.rcvNxt - seg.seq).toNat = t.received - n := by
      rw [hat.place, h.next hstate]
      exact Offer.place_sub (by omega) hbefore
    rw [hskip] at hdata
    refine hdata.trans ?_
    have hdrop := hat.text.drop (t.received - n)
    rwa [List.drop_drop, Nat.add_sub_cancel' hbefore] at hdrop

/-- Text beyond `RCV.NXT` is the stream further on. -/
lemma park_text (hshort : o.stream.length < 2 ^ 31) (h : Matches o t) (hseg : seg.From o)
    {data : List U8} (hstate : t.state.canRecv = true) (hlt : ¬ seqLt seg.seq t.rcvNxt)
    (hdata : data <+: seg.payload) (hne : data ≠ []) :
    data <+: o.stream.drop (t.received + (seg.seq - t.rcvNxt).toNat) := by
  have hpay : seg.payload ≠ [] := by
    intro hnil
    rw [hnil, List.prefix_nil] at hdata
    exact hne hdata
  obtain ⟨n, hat⟩ := hseg (.inl hpay)
  have hrec := h.received_le
  have hn := hat.le
  have hbeyond : t.received ≤ n := by
    rw [hat.place, h.next hstate, Offer.place_lt (by omega) (by omega)] at hlt
    omega
  have hoff : (seg.seq - t.rcvNxt).toNat = n - t.received := by
    rw [hat.place, h.next hstate]
    exact Offer.place_sub (by omega) hbeyond
  rw [hoff, Nat.add_sub_cancel' hbeyond]
  exact hdata.trans hat.text

/-- A byte of a piece of the stream. -/
lemma byte_of_piece {data S : List U8} {n k : ℕ} (h : data <+: S.drop n) (hk : k < data.length) (d : U8) :
    S[n + k]? = some ((data[k]?).getD d) := by
  have hget := List.prefix_iff_getElem?.mp h k hk
  rw [List.getElem?_drop] at hget
  rw [hget, List.getElem?_eq_getElem hk, Option.getD_some]

lemma appended {data : List U8} {n : ℕ} (h : Matches o t) (hh : Holding t) (happ : Appended t u data n)
    (hdel : u.delivered = t.delivered) (hdata : data <+: o.stream.drop t.received)
    (hstate : t.state.canRecv = true) : Matches o u := by
  have hfits := happ.fits
  have hlen := happ.len
  have hroom : t.recvRing.len ≤ P.BUF := t.recvRing.len_le
  have hroom' : u.recvRing.len ≤ P.BUF := u.recvRing.len_le
  have hfree : t.recvRing.free = P.BUF - t.recvRing.len := rfl
  have hrec : u.received = t.received + (data.length + n) := by
    rw [received, received, hdel, hlen, Nat.add_assoc]
  have hoff : off u.rcvNxt t.rcvNxt = data.length + n := by
    rw [happ.nxt]
    exact off_add_ofNat happ.short
  refine ⟨fun _ => ?_, hdel ▸ h.read, fun k hk => ?_, fun x hx => ?_, fun f hf => h.fin f (happ.fin f hf).1,
    fun hf => ?_⟩
  · rw [happ.nxt, h.next hstate, hrec, BitVec.ofNat_add, BitVec.ofNat_add, BitVec.ofNat_add]
    simp only [BitVec.add_assoc]
  · -- What is readable was readable, or is the new text, or was parked.
    rw [happ.cell, Ring.cell_write _ _ (by omega), hdel]
    split
    case isFalse hlt => exact h.text k (by omega)
    case isTrue hge =>
      have hk' : t.delivered.length + k = t.received + (k - t.recvRing.len) := by
        rw [received]
        omega
      rw [hk']
      by_cases hnew : k - t.recvRing.len < data.length
      · exact byte_of_piece hdata hnew _
      · have hpark := h.ahead (k - t.recvRing.len) (happ.reached ⟨by omega, by omega⟩)
        rw [Nat.add_sub_cancel' hge] at hpark
        rw [hpark, List.getElem?_eq_none (by omega), Option.getD_none]
  · -- What is parked was parked.
    obtain ⟨r, hr, hlo, hhi⟩ := hx
    obtain ⟨h₁, h₂⟩ := OooList.off_rebase happ.spaced hoff.le hr
    have habove := happ.spaced.above r hr
    dsimp only [Range.lo, Range.hi] at hlo hhi habove
    have hold : data.length + n + x ∈ t.parked :=
      ⟨r, happ.suffix.subset hr, by dsimp only [Range.lo]; omega, by dsimp only [Range.hi]; omega⟩
    have hin := hh.lt_free hold
    have hbyte := h.ahead _ hold
    have hnone : data[u.recvRing.len + x - t.recvRing.len]? = none := List.getElem?_eq_none (by omega)
    rw [happ.cell, Ring.cell_write _ _ (by omega), if_pos (by omega), hnone, Option.getD_none, hrec, hlen,
      Nat.add_assoc, Nat.add_assoc t.recvRing.len]
    exact hbyte
  · rw [finTaken, happ.state, hstate, Bool.not_true, Bool.and_false] at hf
    cases hf

lemma receiveOutOfOrder_shape (t : Tcb P) (seq : U32) (off : ℕ) (data : List U8) :
    (t.receiveOutOfOrder seq off data).rcvNxt = t.rcvNxt ∧
      (t.receiveOutOfOrder seq off data).delivered = t.delivered ∧
      (t.receiveOutOfOrder seq off data).state = t.state ∧
      (t.receiveOutOfOrder seq off data).ooo =
        (t.ooo.insert seq (seq + BitVec.ofNat 32 data.length) t.rcvNxt).2 ∧
      (∀ f ∈ (t.receiveOutOfOrder seq off data).oooFin, f ∈ t.oooFin) ∧
      ((t.ooo.insert seq (seq + BitVec.ofNat 32 data.length) t.rcvNxt).1 = .full ∧
          (t.receiveOutOfOrder seq off data).recvRing = t.recvRing ∨
        (t.receiveOutOfOrder seq off data).recvRing = (t.recvRing.writeAt off data).2) := by
  unfold receiveOutOfOrder
  dsimp only
  split
  case h_1 dup hdup =>
    refine ⟨?_, ?_, ?_, ?_, fun f hf => ?_, .inr ?_⟩
    · split <;> rfl
    · split <;> rfl
    · split <;> rfl
    · split <;> rfl
    · have hf' := (Option.mem_filter_iff.mp hf).1
      split at hf' <;> exact hf'
    · split <;> rfl
  case h_2 hfull => exact ⟨rfl, rfl, rfl, rfl, fun f hf => hf, .inl ⟨hfull, rfl⟩⟩

lemma parkedText {data : List U8} {seq : U32} (h : Matches o t) (hh : Holding t)
    (hstate : t.state.canRecv = true) (hlt : ¬ seqLt seq t.rcvNxt) (hgap : seq ≠ t.rcvNxt) (hne : data ≠ [])
    (hlen : data.length ≤ MAX_PAYLOAD) (hfit : off seq t.rcvNxt + data.length ≤ t.recvRing.free)
    (hdata : data <+: o.stream.drop (t.received + off seq t.rcvNxt)) :
    Matches o (t.receiveOutOfOrder seq (off seq t.rcvNxt) data) := by
  obtain ⟨hnear, hpos, hstop⟩ := off_beyond hlt hgap hlen
  have hlong : 0 < data.length := List.length_pos_iff.mpr hne
  have hins : t.ooo.Spread seq (seq + BitVec.ofNat 32 data.length) t.rcvNxt :=
    OooList.insert_spread hh.spaced hpos (by omega)
  obtain ⟨hnxt, hdel, hs, hooo, hfin, hring⟩ := receiveOutOfOrder_shape t seq (off seq t.rcvNxt) data
  generalize t.receiveOutOfOrder seq (off seq t.rcvNxt) data = u at *
  have htaken : u.finTaken = t.finTaken := by rw [finTaken, finTaken, hs]
  have hrecv : u.state.canRecv = true → t.state.canRecv = true := fun _ => hstate
  rcases hring with ⟨hfull, hring⟩ | hring
  · -- No room for another range: nothing is written.
    have hsame := hins.held.resolve_right fun hstored => by
      obtain ⟨dup, hdup⟩ := hstored.1
      cases hfull.symm.trans hdup
    refine h.of_same hnxt hdel hring (.inl ?_) hfin hrecv (fun hf => htaken ▸ hf)
    rw [hooo]
    exact hsame.2
  · have hlen' : u.recvRing.len = t.recvRing.len := by
      rw [hring]
      exact Ring.len_writeAt _ _ _
    have hrec : u.received = t.received := by rw [received, received, hdel, hlen']
    have hroom := t.recvRing.len_le
    have hfree : t.recvRing.free = P.BUF - t.recvRing.len := rfl
    refine ⟨fun _ => ?_, hdel ▸ h.read, fun k hk => ?_, fun x hx => ?_, fun f hf => h.fin f (hfin f hf),
      fun hf => ?_⟩
    · rw [hnxt, hrec]
      exact h.next hstate
    · rw [hring, Ring.cell_writeAt _ _ _ (by omega), if_neg (by omega), hdel]
      exact h.text k (by omega)
    · -- What is parked was parked before, or is the new text.
      have hx' : x ∈ t.parked ∪ Set.Ico (off seq t.rcvNxt) (off seq t.rcvNxt + data.length) := by
        rw [parked, hnxt, hooo] at hx
        rcases hins.held with ⟨-, hsame⟩ | ⟨-, hheld⟩
        · rw [hsame] at hx
          exact .inl hx
        · rwa [hheld, hstop] at hx
      have hin : x < t.recvRing.free := by
        rcases hx' with hold | hnew
        · exact (hh.lt_free hold).2
        · exact hnew.2.trans_le hfit
      rw [hrec, hlen', hring, Ring.cell_writeAt _ _ _ (by omega)]
      by_cases hnew : off seq t.rcvNxt ≤ x ∧ x < off seq t.rcvNxt + data.length
      · have hplace : t.received + x = t.received + off seq t.rcvNxt + (x - off seq t.rcvNxt) := by omega
        have hindex : t.recvRing.len + x - (t.recvRing.len + off seq t.rcvNxt) =
            x - off seq t.rcvNxt := Nat.add_sub_add_left _ _ _
        rw [if_pos (Nat.add_le_add_left hnew.1 _), hindex, hplace]
        exact byte_of_piece hdata (by omega) _
      · have hold : x ∈ t.parked := hx'.resolve_right fun hin => hnew hin
        split
        case isTrue hge =>
          have hbeyond : off seq t.rcvNxt ≤ x := Nat.le_of_add_le_add_left hge
          have hnone : data[t.recvRing.len + x - (t.recvRing.len + off seq t.rcvNxt)]? = none := by
            rw [List.getElem?_eq_none_iff, Nat.add_sub_add_left]
            omega
          rw [hnone, Option.getD_none]
          exact h.ahead x hold
        case isFalse => exact h.ahead x hold
    · rw [htaken, finTaken_of_canRecv hstate] at hf
      cases hf

/-- The peer's FIN at the end of the stream. -/
lemma consumeFin (h : Matches o t) (hstate : t.state.canRecv = true) (hended : o.ended = true)
    (hlen : t.received = o.stream.length) : Matches o t.consumeFin := by
  have hadv := consumeFin_advances hstate
  have hparked := Holding.consumeFin_parked t
  have hrecv : t.consumeFin.state.canRecv = false := by rw [hadv.recv, Bool.not_true, Bool.and_false]
  have hring : t.consumeFin.recvRing = t.recvRing := by
    unfold Tcb.consumeFin advanceStateOnRemoteFin
    split
    · rfl
    · split <;> rfl
    · rfl
    · rfl
  have hrec : t.consumeFin.received = t.received := by rw [received, received, hadv.delivered, hring]
  obtain ⟨hooo, hfin⟩ := hparked.idle hrecv
  refine ⟨fun hs => ?_, ?_, ?_, fun x hx => ?_, fun f hf => ?_, fun _ => ⟨hended, hrec.trans hlen⟩⟩
  · rw [hrecv] at hs
    cases hs
  · rw [hadv.delivered]
    exact h.read
  · rw [hadv.delivered, hring]
    exact h.text
  · rw [parked, hooo, held_nil] at hx
    cases hx
  · rw [hfin] at hf
    cases hf

/-- The FIN stands at the end of the stream. -/
lemma at_end (hshort : o.stream.length < 2 ^ 31) (h : Matches o t) (hstate : t.state.canRecv = true)
    (hnxt : t.rcvNxt = o.iss + 1 + BitVec.ofNat 32 o.stream.length) : t.received = o.stream.length := by
  have hrec := h.received_le
  rw [h.next hstate] at hnxt
  exact Offer.place_inj (by omega) hshort hnxt

lemma receiveFin (hshort : o.stream.length < 2 ^ 31) (h : Matches o t) (hseg : seg.From o)
    (hstate : t.state.canRecv = true) (hfin : seg.flags.fin = true) :
    Matches o (t.receiveFin seg.seq (seg.seq + seg.payloadLen)) := by
  obtain ⟨n, hat⟩ := hseg (.inr hfin)
  obtain ⟨hended, hlen⟩ := hat.fin hfin
  have hend : seg.seq + seg.payloadLen = o.iss + 1 + BitVec.ofNat 32 o.stream.length := by
    rw [hat.place, ← hlen, BitVec.ofNat_add, BitVec.add_assoc (o.iss + 1)]
    rfl
  have hold : Matches o { t with oooFin := some ⟨seg.seq, seg.seq + seg.payloadLen⟩ } := by
    refine ⟨h.next, h.read, h.text, h.ahead, ?_, h.done⟩
    rintro _ ⟨rfl⟩
    exact ⟨hended, hend⟩
  unfold Tcb.receiveFin
  split
  case isTrue heq => exact h.consumeFin hstate hended (h.at_end hshort hstate (heq.symm.trans hend))
  case isFalse =>
    split
    · split
      · split
        · exact h
        · exact hold
      · exact hold
    · exact h

lemma maybeConsumeOooFin (hshort : o.stream.length < 2 ^ 31) (h : Matches o t) :
    Matches o t.maybeConsumeOooFin.2 := by
  unfold Tcb.maybeConsumeOooFin
  split
  case isTrue hreached =>
    rw [Bool.and_eq_true, Option.any_eq_true] at hreached
    obtain ⟨⟨f, hf, heq⟩, hstate⟩ := hreached
    obtain ⟨hended, hseq⟩ := h.fin f hf
    rw [beq_iff_eq] at heq
    exact h.consumeFin hstate hended (h.at_end hshort hstate (heq.symm.trans hseq))
  case isFalse => exact h

lemma intake (hshort : o.stream.length < 2 ^ 31) (h : Matches o t) (hh : Holding t) (hseg : seg.From o)
    (hstep : Intake seg t u) : Matches o u := by
  cases hstep with
  | old => exact ⟨h.next, h.read, h.text, h.ahead, h.fin, h.done⟩
  | @inOrder data hstate hle hdata hfit =>
    have hlen := hdata.length_le
    have hmax := seg.payload_le
    rw [List.length_drop] at hlen
    obtain ⟨n, happ⟩ := hh.receiveInOrder (t.processedFin seg) hfit (by omega)
    obtain ⟨m, f, hadv, -⟩ := Intake.advances (.inOrder hstate hle hdata hfit)
    exact h.appended hh happ hadv.delivered (h.inOrder_text hshort hseg hstate hle hdata) hstate
  | park hstate hlt hgap hdata hne hfit =>
    exact h.parkedText hh hstate hlt hgap hne (hdata.length_le.trans seg.payload_le) hfit
      (h.park_text hshort hseg hstate hlt hdata hne)
  | fin hstate hfin => exact h.receiveFin hshort hseg hstate hfin
  | heldFin => exact h.maybeConsumeOooFin hshort

lemma receiveSegment (hshort : o.stream.length < 2 ^ 31) (h : Matches o t) (hh : Holding t)
    (hseg : seg.From o) : Matches o (t.receiveSegment seg).2 := by
  have hinv : Holding (t.receiveSegment seg).2 ∧ Matches o (t.receiveSegment seg).2 := by
    generalize (t.receiveSegment seg).2 = u, receiveSegment_takes t seg = htakes
    induction htakes with
    | refl => exact ⟨hh, h⟩
    | tail _ hstep ih => exact ⟨ih.1.intake hstep, ih.2.intake hshort ih.1 hseg hstep⟩
  exact hinv.2

end Matches

/-! ## Receivers of an offer -/

/-- If the connection is numbered as the offer is, what it received is of the offer. -/
structure Receiver (o : Offer) (t : Tcb P) : Prop where
  flight : Flight t
  parked : Parked t
  receipts : Receipts t
  matched : t.irs = o.iss → Matches o t

namespace Receiver

variable {o : Offer} {t u : Tcb P}

/-- A connection on which nothing was received. -/
lemma of_empty (hf : Flight u) (hp : Parked u) (hr : Receipts u) (hrec : u.received = 0)
    (hnxt : u.state.canRecv = true → u.rcvNxt = u.irs + 1) (hooo : u.ooo.ranges = []) (hfin : u.oooFin = none)
    (htaken : u.finTaken = false) : Receiver o u := by
  refine ⟨hf, hp, hr, fun hirs => ?_⟩
  rw [hirs] at hnxt
  exact .of_empty hrec hnxt hooo hfin htaken

lemma step (hshort : o.stream.length < 2 ^ 31) {s : Option Segment} (hs : ∀ seg ∈ s, seg.From o) (t : Tcb P)
    (l : Option Segment) (t' : Tcb P) (hl : l = none ∨ l = s) (hstep : Step t l t') (h : Receiver o t) :
    Receiver o t' := by
  obtain ⟨hf, hp⟩ := Parked.step t l t' hstep ⟨h.flight, h.parked⟩
  have hr := Receipts.step t l t' hstep h.receipts
  -- The handshake leaves nothing received and nothing parked.
  have hopen {v : Tcb P} (hstate : t.state = .synSent ∨ t.state = .synRcvd) (hf : Flight v) (hp : Parked v)
      (hr : Receipts v) (hrec : v.received = t.received)
      (hnxt : v.state.canRecv = true → v.rcvNxt = v.irs + 1) (hooo : v.ooo = t.ooo) (hfin : v.oooFin = t.oooFin)
      (htaken : v.finTaken = false) : Receiver o v := by
    have hidle := h.parked.idle (by rcases hstate with hs | hs <;> rw [hs] <;> rfl)
    exact of_empty hf hp hr (hrec.trans (h.receipts.early hstate)) hnxt (hooo ▸ hidle.1)
      (hfin.trans hidle.2) htaken
  cases hstep with
  | @segment seg hstate =>
    have hseg : seg.From o := by
      rcases hl with hl | hl
      · cases hl
      · exact hs seg hl.symm
    refine ⟨hf, hp, hr, fun hirs => ?_⟩
    obtain ⟨n, f, hadv⟩ := receiveSegment_advances t seg
    exact (h.matched (hadv.irs.symm.trans hirs)).receiveSegment hshort h.parked.toHolding hseg
  | deliver => exact ⟨hf, hp, hr, fun hirs => (h.matched hirs).deliver rfl rfl rfl rfl rfl rfl⟩
  | finWait2 hstate =>
    refine ⟨hf, hp, hr, fun hirs => ?_⟩
    exact (h.matched hirs).of_same rfl rfl rfl (.inl rfl) (fun _ hf => hf) (fun _ => by rw [hstate]; rfl) nofun
  | timeWait hstate =>
    refine ⟨hf, hp, hr, fun hirs => ?_⟩
    exact (h.matched hirs).of_same rfl rfl rfl (.inl rfl) (fun _ hf => hf) nofun
      (fun _ => by rw [finTaken, hstate]; rfl)
  | @close st hstate =>
    rcases hstate with ⟨hst | hst, rfl⟩ | ⟨hst, rfl⟩
    · refine ⟨hf, hp, hr, fun hirs => ?_⟩
      exact (h.matched hirs).of_same rfl rfl rfl (.inl rfl) (fun _ hf => hf) (fun _ => by rw [hst]; rfl) nofun
    · exact hopen (.inr hst) hf hp hr rfl (fun _ => h.receipts.syn hst) rfl rfl rfl
    · refine ⟨hf, hp, hr, fun hirs => ?_⟩
      exact (h.matched hirs).of_same rfl rfl rfl (.inl rfl) (fun _ hf => hf) nofun
        (fun _ => by rw [finTaken, hst]; rfl)
  | abort =>
    refine ⟨hf, hp, hr, fun hirs => ⟨nofun, (h.matched hirs).read, nofun, fun x hx => ?_, nofun, nofun⟩⟩
    rw [Tcb.parked, show t.abortLocal.ooo.ranges = [] from rfl, held_nil] at hx
    cases hx
  | closeClean =>
    refine ⟨hf, hp, hr, fun hirs => ?_⟩
    exact (h.matched hirs).of_same rfl rfl rfl (.inr rfl) nofun nofun nofun
  | timeWaitOver =>
    refine ⟨hf, hp, hr, fun hirs => ?_⟩
    exact (h.matched hirs).of_same rfl rfl rfl (.inl rfl) (fun _ hf => hf) nofun nofun
  | @reset st localEp remoteEp iss mtu hstate =>
    refine of_empty hf hp hr rfl (fun hrecv => ?_) rfl rfl ?_
    · rcases hstate with rfl | rfl <;> cases hrecv
    · rcases hstate with rfl | rfl <;> rfl
  | connected => exact of_empty hf hp hr rfl nofun rfl rfl rfl
  | halfOpened => exact of_empty hf hp hr rfl nofun rfl rfl rfl
  | activeOpened hstate => exact hopen (.inl hstate) hf hp hr rfl (fun _ => rfl) rfl rfl rfl
  | simultaneous hstate => exact hopen (.inl hstate) hf hp hr rfl nofun rfl rfl rfl
  | passiveOpened hstate =>
    exact hopen (.inr hstate) hf hp hr rfl (fun _ => h.receipts.syn hstate) rfl rfl rfl
  | cookieOpened => exact of_empty hf hp hr rfl (fun _ => rfl) rfl rfl rfl
  | _ =>
    refine ⟨hf, hp, hr, fun hirs => ?_⟩
    exact (h.matched hirs).of_same rfl rfl rfl (.inl rfl) (fun _ hf => hf) id id

lemma stableOn (hshort : o.stream.length < 2 ^ 31) {s : Option Segment} (hs : ∀ seg ∈ s, seg.From o) :
    StableOn s (Receiver (P := P) o) where
  core t := by
    constructor
    · intro h
      obtain ⟨hf, hp⟩ := (Parked.stable.core t).mp ⟨h.flight, h.parked⟩
      refine ⟨hf, hp, (Receipts.stable.core t).mp h.receipts, fun hirs => ?_⟩
      have hm := h.matched hirs
      exact ⟨hm.next, hm.read, hm.text, hm.ahead, hm.fin, hm.done⟩
    · intro h
      obtain ⟨hf, hp⟩ := (Parked.stable.core t).mpr ⟨h.flight, h.parked⟩
      refine ⟨hf, hp, (Receipts.stable.core t).mpr h.receipts, fun hirs => ?_⟩
      have hm := h.matched hirs
      exact ⟨hm.next, hm.read, hm.text, hm.ahead, hm.fin, hm.done⟩
  step := step hshort hs

end Receiver

end Tcb

open Tcb

lemma Reachable.receipts {t : Tcb P} (ht : Reachable t) : Receipts t :=
  ht.stable Receipts.stable fun _ => Receipts.of_over (.inl rfl)

/-! ## Runs with one peer -/

instance (seg : Segment) (o : Offer) (n : ℕ) : Decidable (seg.At o n) :=
  decidable_of_iff (seg.seq = o.iss + 1 + BitVec.ofNat 32 n ∧ seg.payload <+: o.stream.drop n ∧
    n ≤ o.stream.length ∧
    (seg.flags.fin = true → o.ended = true ∧ n + seg.payload.length = o.stream.length))
    ⟨fun h => ⟨h.1, h.2.1, h.2.2.1, h.2.2.2⟩, fun h => ⟨h.place, h.text, h.le, h.fin⟩⟩

instance (seg : Segment) (o : Offer) : Decidable (seg.From o) :=
  decidable_of_iff (seg.payload ≠ [] ∨ seg.flags.fin = true →
    ∃ n ∈ List.range (o.stream.length + 1), seg.At o n)
    ⟨fun h hdata => (h hdata).imp fun _ hn => hn.2,
      fun h hdata => (h hdata).imp fun _ hn => ⟨List.mem_range.mpr (Nat.lt_succ_of_le hn.le), hn⟩⟩

/-- The call hands over nothing but segments of the offer. -/
def Call.Brings (P : Params) (o : Offer) (c : Call) : Prop := ∀ seg ∈ c.taken P, seg.From o

instance (o : Offer) (c : Call) : Decidable (c.Brings P o) := by
  unfold Call.Brings
  infer_instance

lemma ReachableBy.receiver {o : Offer} (hshort : o.stream.length < 2 ^ 31) {t : Tcb P}
    (ht : ReachableBy (fun _ c => c.Brings P o) t) : Receiver o t := by
  refine ht.invariant (fun cfg => ?_) fun t c _ hbrings h => ?_
  · have hnew := Reachable.new (P := P) cfg
    exact .of_empty hnew.flight hnew.parked hnew.receipts rfl nofun rfl rfl rfl
  · exact (Receiver.stableOn hshort hbrings).leads (c.run_leads t) h

/-- Whatever segments of an offer arrive, in whatever order and however often: what is received in order is
the beginning of its stream, `RCV.NXT` says how much, what is parked is the stream further on, and the FIN is
taken after all of it. -/
theorem receives_the_offer {o : Offer} (hshort : o.stream.length < 2 ^ 31) {t : Tcb P}
    (ht : ReachableBy (fun _ c => c.Brings P o) t) (hirs : t.irs = o.iss) :
    t.stream <+: o.stream ∧
      (t.state.isSynchronized = true →
        t.rcvNxt = o.iss + 1 + BitVec.ofNat 32 (t.stream.length + t.finTaken.toNat)) ∧
      (∀ x ∈ t.parked, o.stream[t.stream.length + x]? = some (t.recvRing.cell (t.recvRing.len + x))) ∧
      (t.finTaken = true → o.ended = true ∧ t.stream = o.stream) := by
  have hr := ht.receiver hshort
  have hm := hr.matched hirs
  refine ⟨hm.stream_le, fun hsync => ?_, ?_, hm.complete⟩
  · rw [Matches.length_stream, ← hirs]
    exact hr.receipts.next hsync
  · rw [Matches.length_stream]
    exact hm.ahead

/-- The tiny client's peer sends three bytes and its FIN; the last byte and the FIN come first. -/
def tinyReordered : List Call :=
  tinyHandshake ++
    [.injectPacket (datagram { peerAck with seq := 8, flags := { ack := true, fin := true } } [67]),
      .extractPacketWith, .injectPacket (datagram peerAck [65]), .recv 8]

theorem tinyReordered_receives :
    (runAll tinyReordered tinyClient).stream = [65] ∧
      some ((runAll tinyReordered tinyClient).recvRing.cell
        ((runAll tinyReordered tinyClient).recvRing.len + 1)) = some 67 := by
  have hreach : ReachableBy (fun _ c => c.Brings tiny ⟨5, [65, 66, 67], true⟩)
      (runAll tinyReordered tinyClient) := (ReachableBy.new _).runAll (by decide +kernel)
  have hparked : 1 ∈ (runAll tinyReordered tinyClient).parked := by
    change ∃ r ∈ (runAll tinyReordered tinyClient).ooo.ranges, _ ∧ _
    decide +kernel
  have hstream : (runAll tinyReordered tinyClient).stream = [65] := by decide +kernel
  have hahead := (receives_the_offer (by decide) hreach (by decide +kernel)).2.2.1 1 hparked
  rw [hstream] at hahead
  exact ⟨hstream, hahead.symm⟩

end TcpSansIo
