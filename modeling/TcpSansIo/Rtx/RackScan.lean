import TcpSansIo.Rack
import TcpSansIo.Rtx.Edits

/-!
# RACK's scan and its early exit

`detect_loss` leaves its scan at the first record that was sent after `RACK.segment` and never
retransmitted.  That is right because first transmissions go out in sequence order: `Timeline` says
that no record behind one never retransmitted was sent earlier than it, and that what was sent
together with `RACK.segment` still lies within half the sequence space of it.  Edits keep both, and a
transmission takes the next number.  So the scan marks what the scan of every record marks
(`detectLoss_scan`).
-/

namespace TcpSansIo

open FixedWidth

/-! ## Transmission numbers -/

/-- How many transmissions ago `x` was the latest, when `next` is the next to be given. -/
def age (next x : U32) : ℕ := (next - 1 - x).toNat

lemma age_succ {next x : U32} (h : age next x < 2 ^ 31) : age (next + 1) x = age next x + 1 := by
  unfold age at *
  have hnext : next + 1 - 1 - x = (next - 1 - x) + 1 := by bv_omega
  rw [hnext]
  generalize next - 1 - x = y at *
  bv_omega

lemma age_self (next : U32) : age (next + 1) next = 0 := by
  unfold age
  have hnext : next + 1 - 1 - next = 0 := by bv_omega
  rw [hnext]
  rfl

/-- The next number is not one of the last. -/
lemma ne_next_of_age {next x : U32} (h : age next x < 2 ^ 31) : x ≠ next := by
  rintro rfl
  unfold age at h
  have hlast : x - 1 - x = -1 := by bv_omega
  rw [hlast] at h
  exact absurd h (by decide)

/-- Among numbers given lately, `RACK_sent_after` compares how long ago they were. -/
lemma sentAfter_iff {next x₁ e₁ x₂ e₂ : U32} (h₁ : age next x₁ < 2 ^ 31)
    (h₂ : age next x₂ < 2 ^ 31) :
    sentAfter x₁ e₁ x₂ e₂ ↔ age next x₁ < age next x₂ ∨ x₁ = x₂ ∧ seqGt e₁ e₂ := by
  have hgt : 0 < (x₁ - x₂).toInt ↔ age next x₁ < age next x₂ := by
    change seqGt x₁ x₂ ↔ _
    have hdiff : x₁ - x₂ = (next - 1 - x₂) - (next - 1 - x₁) := by bv_omega
    unfold age at *
    rw [seqGt_iff, hdiff]
    generalize next - 1 - x₂ = y at *
    generalize next - 1 - x₁ = z at *
    clear hdiff
    bv_omega
  have heq : (x₁ - x₂).toInt = 0 ↔ x₁ = x₂ := by
    constructor
    · intro h
      have hzero : x₁ - x₂ = 0 := BitVec.eq_of_toInt_eq h
      bv_omega
    · rintro rfl
      rw [BitVec.sub_self]
      rfl
  rw [sentAfter, hgt, heq]

/-- The distance of a record's end from a base the record does not reach around. -/
lemma Seg.toNat_stop_sub {s : Seg} {c : U32} {L : ℕ} (hL : L < 2 ^ 31)
    (h : (s.start - c).toNat + s.seqLen.toNat ≤ L) :
    (s.stop - c).toNat = (s.start - c).toNat + s.seqLen.toNat := by
  have hsum : s.stop - c = (s.start - c) + s.seqLen := by
    rw [Seg.seqLen]
    bv_omega
  rw [hsum, BitVec.toNat_add, Nat.mod_eq_of_lt (by omega)]

/-! ## The order of transmissions -/

/-- No record behind one never retransmitted was sent earlier than it. -/
def InOrder (next : U32) (l : List Seg) : Prop :=
  l.Pairwise fun s x => s.flags.everRetrans = false → age next x.xmitSeq ≤ age next s.xmitSeq

/-- What was sent in transmission `x`, and `e`, lie within half the sequence space. -/
def Near (x e : U32) (l : List Seg) : Prop :=
  ∃ c L, L < 2 ^ 31 ∧ (e - c).toNat ≤ L ∧
    ∀ s ∈ l, s.xmitSeq = x → (s.start - c).toNat + s.seqLen.toNat ≤ L

lemma InOrder.edits {next : U32} {l l' : List Seg} (h : InOrder next l) (he : Edits l l') :
    InOrder next l' := by
  refine he.keep (fun {l l'} hedit hl => ?_) h
  obtain ⟨l₁, l₂, hmid⟩ := hedit
  obtain ⟨h₁, hs, hcross⟩ := List.pairwise_append.mp hl
  obtain ⟨hbehind, h₂⟩ := List.pairwise_cons.mp hs
  refine List.pairwise_append.mpr ⟨List.pairwise_append.mpr ⟨h₁, ?_, ?_⟩, h₂, ?_⟩
  · -- Pieces of one record were sent together.
    refine List.Pairwise.imp_of_mem (R := fun _ _ => True) ?_ (List.pairwise_of_forall fun _ _ => trivial)
    intro x y hx hy _ _
    rw [(hmid x hx).xmit, (hmid y hy).xmit]
  · intro x hx y hy
    rw [(hmid y hy).xmit]
    exact hcross x hx _ (List.mem_cons_self ..)
  · intro x hx y hy
    rcases List.mem_append.mp hx with hx | hx
    · exact hcross x hx y (List.mem_cons_of_mem _ hy)
    · rw [(hmid x hx).xmit, (hmid x hx).retrans]
      exact hbehind y hy

/-- Every transmission is one longer ago than it was. -/
lemma InOrder.succ {next : U32} {l : List Seg} (h : InOrder next l)
    (hlate : ∀ s ∈ l, age next s.xmitSeq < 2 ^ 31) : InOrder (next + 1) l := by
  refine List.Pairwise.imp_of_mem (fun hs hx hle hfirst => ?_) h
  rw [age_succ (hlate _ hs), age_succ (hlate _ hx)]
  exact Nat.succ_le_succ (hle hfirst)

lemma InOrder.push {next : U32} {l : List Seg} {s : Seg} (h : InOrder next l)
    (hlate : ∀ s ∈ l, age next s.xmitSeq < 2 ^ 31) (hs : s.xmitSeq = next) :
    InOrder (next + 1) (l ++ [s]) := by
  refine List.pairwise_append.mpr ⟨h.succ hlate, List.pairwise_singleton _ _, ?_⟩
  intro x _ y hy _
  rw [List.mem_singleton.mp hy, hs, age_self]
  exact Nat.zero_le _

lemma InOrder.retransmit {next : U32} {l₁ l₂ : List Seg} {s x : Seg}
    (h : InOrder next (l₁ ++ s :: l₂)) (hlate : ∀ y ∈ l₁ ++ s :: l₂, age next y.xmitSeq < 2 ^ 31)
    (hx : x.xmitSeq = next) (hretrans : x.flags.everRetrans = true) :
    InOrder (next + 1) (l₁ ++ x :: l₂) := by
  obtain ⟨h₁, htail, hcross⟩ := List.pairwise_append.mp (h.succ hlate)
  refine List.pairwise_append.mpr ⟨h₁, List.pairwise_cons.mpr ⟨?_, (List.pairwise_cons.mp htail).2⟩, ?_⟩
  · intro y _ hfirst
    rw [hretrans] at hfirst
    cases hfirst
  · intro y hy z hz
    rcases List.mem_cons.mp hz with rfl | hz
    · intro _
      rw [hx, age_self]
      exact Nat.zero_le _
    · exact hcross y hy z (List.mem_cons_of_mem _ hz)

lemma Near.edits {x e : U32} {l l' : List Seg} (h : Near x e l) (he : Edits l l') : Near x e l' := by
  obtain ⟨c, L, hL, hend, hall⟩ := h
  refine ⟨c, L, hL, hend, fun y hy hxmit => ?_⟩
  obtain ⟨s, hs, hpiece⟩ := he.mem hy
  have hle := hall s hs (hpiece.xmit ▸ hxmit)
  have hinside := hpiece.inside
  have hstart := toNat_sub_le c s.start y.start
  omega

/-- Another transmission adds records of its own only. -/
lemma Near.of_other {x e : U32} {l l' : List Seg} (h : Near x e l)
    (hmem : ∀ s ∈ l', s ∈ l ∨ s.xmitSeq ≠ x) : Near x e l' := by
  obtain ⟨c, L, hL, hend, hall⟩ := h
  exact ⟨c, L, hL, hend, fun s hs hxmit => hall s ((hmem s hs).resolve_right fun hne => hne hxmit) hxmit⟩

lemma Laid.stops {a : U32} {o : ℕ} {l : List Seg} (h : Laid a o l) :
    l.Pairwise fun s x => (s.stop - a).toNat ≤ (x.stop - a).toNat := by
  induction l generalizing o with
  | nil => exact .nil
  | cons s l ih =>
    obtain ⟨-, -, hstop, hrest⟩ := h
    refine List.pairwise_cons.mpr ⟨fun x hx => ?_, ih hrest⟩
    have hge := hrest.start_ge hx
    have hends := (hrest.ends hx).1
    omega

/-! ## The full scan -/

section Scan

variable (r : Rack) (reoWnd : U32) (now : U64)

/-- Not SACKed, not waiting for a retransmission, and sent before `RACK.segment`, if there is one. -/
def Seg.candidate (s : Seg) : Bool :=
  r.valid && !s.flags.sacked && !s.awaitsRetrans &&
    decide (sentAfter r.xmitSeq r.endSeq s.xmitSeq s.stop)

/-- When a candidate counts as lost: the sum stops at the end of the clock. -/
def Seg.lostAt (s : Seg) : ℕ := min (s.xmitTs.toNat + r.rtt.toNat + reoWnd.toNat) (2 ^ 64 - 1)

/-- A candidate whose time has come. -/
def Seg.expired (s : Seg) : Bool := s.candidate r && decide (s.lostAt r reoWnd ≤ now.toNat)

/-- A candidate whose time has not come. -/
def Seg.pending (s : Seg) : Bool := s.candidate r && decide (now.toNat < s.lostAt r reoWnd)

/-- Lost, and so is its retransmission, if any. -/
def Seg.markLost (s : Seg) : Seg :=
  { s with flags := { s.flags with lost := true, retrans := false, isPartial := false }, sent := 0 }

/-- The records after a scan of them all. -/
def fullScan (l : List Seg) : List Seg :=
  l.map fun s => if s.expired r reoWnd now then s.markLost else s

/-- Where the scan may stop: a record never retransmitted and not sent before `RACK.segment` has no
candidate behind it. -/
def Sorted (l : List Seg) : Prop :=
  l.Pairwise fun s x => s.flags.everRetrans = false →
    ¬ sentAfter r.xmitSeq r.endSeq s.xmitSeq s.stop → ¬ sentAfter r.xmitSeq r.endSeq x.xmitSeq x.stop

end Scan

namespace RtxQueue

variable {CAP M : ℕ} {g : Bool} [RtxCap CAP] {q q' : RtxQueue CAP} {r r' : Rack} {a b : U32}
  {f : Option Bool}

/-! ## Transmissions -/

lemma records_push (hroom : q.segs.len < CAP) (s : Seg) :
    (q.push s).2.records = q.records ++ [{ s with xmitSeq := q.nextXmit }] ∧
      (q.push s).2.nextXmit = q.nextXmit + 1 := by
  rw [RtxQueue.push, dif_pos hroom]
  exact ⟨q.segs.toList_pushBack _ hroom, rfl⟩

/-- A retransmission gives its record the next number. -/
lemma records_retransmitted {i : ℕ} {s : Seg} (hs : q.get i = some s) (now : U64) (sent : U16) :
    ∃ x : Seg, x.xmitSeq = q.nextXmit ∧ x.flags.everRetrans = true ∧
      (q.retransmitted i now sent).records = q.records.take i ++ x :: q.records.drop (i + 1) ∧
      (q.retransmitted i now sent).nextXmit = q.nextXmit + 1 := by
  have hrec := records_around hs
  have hlen : (q.records.take i).length = i := by
    rw [List.length_take, RingQueue.length_toList]
    have := lt_of_get hs
    omega
  generalize hflags :
    ({ s.flags with retrans := true, everRetrans := true, isPartial := (sent != 0) } : SegFlags) = flags
  obtain ⟨hset, -⟩ := records_setState hrec flags sent
  have hnext : (q.setState i flags sent).nextXmit = q.nextXmit := by
    unfold RtxQueue.setState
    rw [hs]
    dsimp only
    generalize (if flags.isPartial = true then sent else 0) = kept
    split <;> rfl
  rw [hlen] at hset
  have hget := get_of_records hset
  rw [hlen] at hget
  have hover (x : Seg) := records_setSeg (lt_of_get hget) x
  simp only [hset, List.take_left' hlen, List.drop_append, hlen, Nat.add_sub_cancel_left,
    List.drop_of_length_le (show (q.records.take i).length ≤ i + 1 by omega), List.nil_append,
    List.append_assoc, List.drop_one, List.tail_cons, List.singleton_append] at hover
  refine ⟨{ s with
    flags := flags
    sent := if flags.isPartial then sent else 0
    xmitTs := now
    xmitSeq := (q.setState i flags sent).nextXmit }, hnext, by rw [← hflags], ?_, ?_⟩
  · rw [RtxQueue.retransmitted, hs]
    dsimp only
    rw [hflags, hget]
    exact hover _
  · rw [RtxQueue.retransmitted, hs]
    dsimp only
    rw [hflags, hget, ← hnext]

/-! ## Runs of the queue and RACK -/

/-- Fewer than half of all transmission numbers were given since those still in use. -/
structure Fresh (q : RtxQueue CAP) (r : Rack) : Prop where
  records : ∀ s ∈ q.records, age q.nextXmit s.xmitSeq < 2 ^ 31
  rack : r.valid = true → age q.nextXmit r.xmitSeq < 2 ^ 31

/-- The queue and the RACK state that the TCB's calls lead to.  Deliveries are reported of records of
the queue, one by one or by the two calls that acknowledge, of which the caller may ignore some; the
other calls to RACK leave `RACK.segment`. -/
inductive RackRun : RtxQueue CAP → Rack → Prop
  | new : RackRun RtxQueue.new Rack.new
  | call {q : RtxQueue CAP} {r : Rack} {op : Op} : RackRun q r → op.Allowed q →
      Fresh (op.apply q) r → RackRun (op.apply q) r
  | delivered {q : RtxQueue CAP} {r : Rack} {s : Seg} (now : U64) (tsecrMs : Option U32) :
      RackRun q r → s ∈ q.records → RackRun q (r.onDelivered s now tsecrMs)
  | acked {q : RtxQueue CAP} {r : Rack} {l : List Seg} (una : U32) (now : U64)
      (tsecrMs : Option U32) : RackRun q r → (∀ s ∈ l, s ∈ (q.ackTo una).calls.map Prod.fst) →
      RackRun (q.ackTo una).queue (l.foldl (fun r s => r.onDelivered s now tsecrMs) r)
  | sacked {q : RtxQueue CAP} {r : Rack} {l : List Seg} (left right : U32) (now : U64)
      (tsecrMs : Option U32) : RackRun q r → (∀ s ∈ l, s ∈ (q.sack left right).calls) →
      RackRun (q.sack left right).queue (l.foldl (fun r s => r.onDelivered s now tsecrMs) r)
  | other {q : RtxQueue CAP} {r r' : Rack} : RackRun q r → r'.valid = r.valid →
      r'.xmitSeq = r.xmitSeq → r'.endSeq = r.endSeq → RackRun q r'

lemma RackRun.run (h : RackRun q r) : Run q := by
  induction h with
  | new => exact .new
  | call _ hop _ ih => exact .step ih hop
  | delivered _ _ _ _ ih => exact ih
  | acked una _ _ _ _ ih => exact @Run.step CAP _ _ (.ackTo una) ih trivial
  | sacked left right _ _ _ _ ih => exact @Run.step CAP _ _ (.sack left right) ih trivial
  | other _ _ _ _ ih => exact ih

/-- What RACK's scan rests on. -/
structure Timeline (q : RtxQueue CAP) (r : Rack) : Prop where
  fresh : Fresh q r
  order : InOrder q.nextXmit q.records
  near : r.valid = true → Near r.xmitSeq r.endSeq q.records

/-- A delivery leaves `RACK.segment` or makes it the segment delivered. -/
lemma onDelivered_segment (r : Rack) (s : Seg) (now : U64) (tsecrMs : Option U32) :
    ((r.onDelivered s now tsecrMs).valid = r.valid ∧
      (r.onDelivered s now tsecrMs).xmitSeq = r.xmitSeq ∧
      (r.onDelivered s now tsecrMs).endSeq = r.endSeq) ∨
    ((r.onDelivered s now tsecrMs).xmitSeq = s.xmitSeq ∧
      (r.onDelivered s now tsecrMs).endSeq = s.stop) := by
  have hnote : (r.noteOrder s).valid = r.valid ∧ (r.noteOrder s).xmitSeq = r.xmitSeq ∧
      (r.noteOrder s).endSeq = r.endSeq := by
    unfold Rack.noteOrder
    dsimp only
    split <;> split <;> exact ⟨rfl, rfl, rfl⟩
  unfold Rack.onDelivered
  dsimp only
  split
  · exact .inl hnote
  · split
    · exact .inr ⟨rfl, rfl⟩
    · exact .inl hnote

namespace Timeline

lemma of_segment (h : Timeline q r) (hvalid : r'.valid = true → r.valid = true)
    (hxmit : r'.xmitSeq = r.xmitSeq) (hend : r'.endSeq = r.endSeq) : Timeline q r' where
  fresh := ⟨h.fresh.records, fun hv => hxmit ▸ h.fresh.rack (hvalid hv)⟩
  order := h.order
  near hv := by
    rw [hxmit, hend]
    exact h.near (hvalid hv)

/-- A record of the queue, or a piece of one, is delivered. -/
lemma onDelivered {s x : Seg} (h : Timeline q r) (hboard : Board M g q a b f) (hs : s ∈ q.records)
    (hx : s.Piece x) (now : U64) (tsecrMs : Option U32) :
    Timeline q (r.onDelivered x now tsecrMs) := by
  rcases onDelivered_segment r x now tsecrMs with ⟨hvalid, hxmit, hend⟩ | ⟨hxmit, hend⟩
  · exact h.of_segment (fun hv => hvalid ▸ hv) hxmit hend
  · refine ⟨⟨h.fresh.records, fun _ => ?_⟩, h.order, fun _ => ?_⟩
    · rw [hxmit, hx.xmit]
      exact h.fresh.records s hs
    · -- Everything outstanding lies within half the sequence space.
      have hspan := hboard.span_eq
      have hhalf := hboard.half
      refine ⟨a, (b - a).toNat, by omega, ?_, fun y hy _ => hboard.record_le hy⟩
      have hle := hboard.record_le hs
      have hinside := hx.inside
      have hstart := toNat_sub_le a s.start x.start
      have hin : (x.start - a).toNat + x.seqLen.toNat ≤ (b - a).toNat := by omega
      rw [hend, Seg.toNat_stop_sub (by omega) hin]
      exact hin

lemma foldl_onDelivered {l : List Seg} (h : Timeline q r) (hboard : Board M g q a b f)
    (hl : ∀ x ∈ l, ∃ s ∈ q.records, s.Piece x) (now : U64) (tsecrMs : Option U32) :
    Timeline q (l.foldl (fun r s => r.onDelivered s now tsecrMs) r) := by
  induction l generalizing r with
  | nil => exact h
  | cons x l ih =>
    obtain ⟨s, hs, hpiece⟩ := hl x (List.mem_cons_self ..)
    exact ih (h.onDelivered hboard hs hpiece now tsecrMs) fun y hy => hl y (List.mem_cons_of_mem _ hy)

lemma edited (h : Timeline q r) (he : Edited q q') (hpos : q.NonEmpty) : Timeline q' r := by
  have hrec := he.records hpos
  refine ⟨⟨fun x hx => ?_, fun hv => ?_⟩, ?_, fun hv => (h.near hv).edits hrec⟩
  · obtain ⟨s, hs, hpiece⟩ := hrec.mem hx
    rw [he.next, hpiece.xmit]
    exact h.fresh.records s hs
  · rw [he.next]
    exact h.fresh.rack hv
  · rw [he.next]
    exact h.order.edits hrec

lemma push (h : Timeline q r) (s : Seg) (hfresh : Fresh (q.push s).2 r) : Timeline (q.push s).2 r := by
  by_cases hroom : q.segs.len < CAP
  · obtain ⟨hrec, hnext⟩ := records_push hroom s
    refine ⟨hfresh, ?_, fun hv => (h.near hv).of_other fun x hx => ?_⟩
    · rw [hrec, hnext]
      exact h.order.push h.fresh.records rfl
    · rw [hrec] at hx
      rcases List.mem_append.mp hx with hx | hx
      · exact .inl hx
      · rw [List.mem_singleton.mp hx]
        exact .inr (ne_next_of_age (h.fresh.rack hv)).symm
  · rw [RtxQueue.push, dif_neg hroom]
    exact h

lemma retransmitted (h : Timeline q r) (i : ℕ) (now : U64) (sent : U16)
    (hfresh : Fresh (q.retransmitted i now sent) r) : Timeline (q.retransmitted i now sent) r := by
  cases hs : q.get i with
  | none =>
    rw [RtxQueue.retransmitted, hs]
    exact h
  | some s =>
    obtain ⟨x, hxmit, hretrans, hrec, hnext⟩ := records_retransmitted hs now sent
    have haround := records_around hs
    have horder := h.order
    have hlate := h.fresh.records
    rw [haround] at horder hlate
    refine ⟨hfresh, ?_, fun hv => (h.near hv).of_other fun y hy => ?_⟩
    · rw [hrec, hnext]
      exact horder.retransmit hlate hxmit hretrans
    · rw [hrec] at hy
      rcases List.mem_append.mp hy with hy | hy
      · exact .inl (List.mem_of_mem_take hy)
      · rcases List.mem_cons.mp hy with rfl | hy
        · rw [hxmit]
          exact .inr (ne_next_of_age (h.fresh.rack hv)).symm
        · exact .inl (List.mem_of_mem_drop hy)

lemma call {op : Op} (h : Timeline q r) (hpos : q.NonEmpty) (hfresh : Fresh (op.apply q) r) :
    Timeline (op.apply q) r := by
  cases op with
  | push s => exact h.push s hfresh
  | split i cut => exact h.edited (.split q i cut) hpos
  | ackTo una => exact h.edited (Edited.ackTo q una).1 hpos
  | sack left right => exact h.edited (Edited.sack hpos left right).1 hpos
  | markLost i => exact h.edited (.markLost q i) hpos
  | markAllLost => exact h.edited (.markAllLost q) hpos
  | unmarkLost => exact h.edited (.unmarkLost q) hpos
  | clearSacked => exact h.edited (.clearSacked q) hpos
  | nextLost => exact h.edited (.nextLost q) hpos
  | onRetransmit i now => exact h.retransmitted i now 0 hfresh
  | onPartialRetransmit i now sent => exact h.retransmitted i now sent hfresh

end Timeline

lemma Board.nonEmpty (h : Board M g q a b f) : q.NonEmpty := fun s hs => (h.sound s hs).pos

/-- In every run, transmissions are in order. -/
lemma RackRun.timeline (h : RackRun q r) : Timeline q r := by
  induction h with
  | new => exact ⟨⟨nofun, nofun⟩, .nil, nofun⟩
  | call hrun _ hfresh ih =>
    obtain ⟨a, b, on, hboard⟩ := hrun.run.consistent
    exact ih.call hboard.nonEmpty hfresh
  | delivered now tsecrMs hrun hs ih =>
    obtain ⟨a, b, on, hboard⟩ := hrun.run.consistent
    exact ih.onDelivered hboard hs (.refl _) now tsecrMs
  | @acked q _ _ una now tsecrMs hrun hl ih =>
    obtain ⟨a, b, on, hboard⟩ := hrun.run.consistent
    obtain ⟨hedit, hcalls⟩ := Edited.ackTo q una
    -- The records reported were in the queue before the acknowledgment took them off it.
    refine (ih.foldl_onDelivered hboard (fun x hx => ?_) now tsecrMs).edited hedit hboard.nonEmpty
    obtain ⟨c, hc, rfl⟩ := List.mem_map.mp (hl x hx)
    exact ⟨c.1, hcalls c hc, .refl _⟩
  | sacked left right now tsecrMs hrun hl ih =>
    obtain ⟨a, b, on, hboard⟩ := hrun.run.consistent
    obtain ⟨hedit, hcalls⟩ := Edited.sack hboard.nonEmpty left right
    refine (ih.foldl_onDelivered hboard (fun x hx => ?_) now tsecrMs).edited hedit hboard.nonEmpty
    exact hcalls x (hl x hx)
  | other _ hvalid hxmit hend ih => exact ih.of_segment (fun hv => hvalid ▸ hv) hxmit hend

/-! ## The scan -/

/-- The early exit of the scan is right. -/
lemma Timeline.sorted (h : Timeline q r) (hboard : Board M g q a b f) (hv : r.valid = true) :
    Sorted r q.records := by
  obtain ⟨c, L, hL, hend, hnear⟩ := h.near hv
  have hrack := h.fresh.rack hv
  have hboth := List.Pairwise.and h.order hboard.laid.stops
  refine List.Pairwise.imp_of_mem (fun {s x} hs hx hsx hfirst hafter => ?_) hboth
  obtain ⟨hage, hstop⟩ := hsx
  have hage := hage hfirst
  rw [sentAfter_iff hrack (h.fresh.records s hs)] at hafter
  rw [sentAfter_iff hrack (h.fresh.records x hx)]
  rintro (hlater | ⟨hsame, hgt⟩)
  · exact hafter (.inl (by omega))
  · -- Both were sent together with `RACK.segment`, so only their ends count.
    rw [← hsame] at hage
    have hsent : s.xmitSeq = r.xmitSeq := by
      by_contra hne
      have hlt : age q.nextXmit r.xmitSeq < age q.nextXmit s.xmitSeq := by
        refine lt_of_le_of_ne hage fun heq => hne ?_
        unfold age at heq
        have heq' := BitVec.eq_of_toNat_eq heq
        generalize q.nextXmit - 1 = n at heq'
        bv_omega
      exact hafter (.inl hlt)
    have hs' := hnear s hs hsent
    have hx' := hnear x hx hsame.symm
    have hstop₁ := Seg.toNat_stop_sub hL hs'
    have hstop₂ := Seg.toNat_stop_sub hL hx'
    have hspan := hboard.span_eq
    have hhalf := hboard.half
    have hle := hboard.record_le hx
    have hstop₃ := Seg.toNat_stop_sub (by omega) hle
    have hcases := toNat_sub_cases c s.stop x.stop
    have hoffset := toNat_sub_offset hstop
    refine hafter (.inr ⟨hsent.symm, ?_⟩)
    rw [seqGt_offset (a := c) (by omega) (by omega)] at hgt ⊢
    omega

/-- What a scan of the records `t`, from its state `acc`, comes to. -/
structure Scans (r : Rack) (reoWnd : U32) (now : U64) (pre t : List Seg) (acc out : LossScan CAP) :
    Prop where
  records : out.queue.records = pre ++ fullScan r reoWnd now t
  marked : out.marked = (acc.marked || t.any fun s => s.expired r reoWnd now)
  ge : acc.timeout.toNat ≤ out.timeout.toNat
  bound : ∀ s ∈ t, s.pending r reoWnd now = true → s.lostAt r reoWnd - now.toNat ≤ out.timeout.toNat
  attained : out.timeout = acc.timeout ∨
    ∃ s ∈ t, s.pending r reoWnd now = true ∧ out.timeout.toNat = s.lostAt r reoWnd - now.toNat

namespace Scans

variable {reoWnd : U32} {now : U64} {pre t : List Seg} {acc acc' out : LossScan CAP} {s : Seg}

lemma fullScan_eq_self (h : ∀ x ∈ t, x.candidate r = false) : fullScan r reoWnd now t = t := by
  have hsame : ∀ x ∈ t, (if x.expired r reoWnd now then x.markLost else x) = id x := by
    intro x hx
    rw [Seg.expired, h x hx]
    rfl
  rw [fullScan, List.map_congr_left hsame, List.map_id]

/-- Records that are no candidates do not count. -/
lemma skip {run : List Seg} (h : Scans r reoWnd now (pre ++ run) t acc out)
    (hrun : ∀ x ∈ run, x.candidate r = false) : Scans r reoWnd now pre (run ++ t) acc out where
  records := by
    rw [h.records, fullScan, fullScan, List.map_append, List.append_assoc]
    exact congrArg (fun l => pre ++ (l ++ _)) (fullScan_eq_self hrun).symm
  marked := by
    have hnone : (run.any fun s => s.expired r reoWnd now) = false := by
      rw [List.any_eq_false]
      intro x hx
      rw [Seg.expired, hrun x hx]
      exact Bool.false_ne_true
    rw [h.marked, List.any_append, hnone, Bool.false_or]
  ge := h.ge
  bound x hx hp := by
    rcases List.mem_append.mp hx with hx | hx
    · rw [Seg.pending, hrun x hx] at hp
      cases hp
    · exact h.bound x hx hp
  attained := h.attained.imp_right fun ⟨x, hx, hp⟩ => ⟨x, List.mem_append_right _ hx, hp⟩

/-- A scan may be left where no candidate follows. -/
lemma stay (hrec : acc.queue.records = pre ++ t) (ht : ∀ x ∈ t, x.candidate r = false) :
    Scans r reoWnd now pre t acc acc := by
  have hend : Scans r reoWnd now (pre ++ t) [] acc acc :=
    ⟨by rw [hrec]; simp [fullScan], by simp, le_refl _, nofun, .inl rfl⟩
  simpa using hend.skip ht

/-- One record more. -/
lemma cons (h : Scans r reoWnd now (pre ++ [if s.expired r reoWnd now then s.markLost else s]) t acc' out)
    (hmarked : acc'.marked = (acc.marked || s.expired r reoWnd now))
    (hge : acc.timeout.toNat ≤ acc'.timeout.toNat)
    (hbound : s.pending r reoWnd now = true → s.lostAt r reoWnd - now.toNat ≤ acc'.timeout.toNat)
    (hattained : acc'.timeout = acc.timeout ∨
      s.pending r reoWnd now = true ∧ acc'.timeout.toNat = s.lostAt r reoWnd - now.toNat) :
    Scans r reoWnd now pre (s :: t) acc out where
  records := by
    rw [h.records, List.append_assoc]
    rfl
  marked := by rw [h.marked, hmarked, List.any_cons, Bool.or_assoc]
  ge := hge.trans h.ge
  bound x hx hp := by
    rcases List.mem_cons.mp hx with rfl | hx
    · exact (hbound hp).trans h.ge
    · exact h.bound x hx hp
  attained := by
    rcases h.attained with heq | ⟨x, hx, hp⟩
    · rw [heq]
      exact hattained.imp_right fun hp => ⟨s, List.mem_cons_self .., hp⟩
    · exact .inr ⟨x, List.mem_cons_of_mem _ hx, hp⟩

end Scans

lemma records_markLost {pre t : List Seg} {s : Seg} (h : q.records = pre ++ s :: t)
    (hs : s.flags.sacked = false) (hw : s.awaitsRetrans = false) :
    (q.markLost pre.length).records = pre ++ s.markLost :: t := by
  rw [RtxQueue.markLost, get_of_records h]
  dsimp only
  rw [if_pos (by simp [hs, hw])]
  exact (records_setState h _ _).1

variable {reoWnd : U32} {now thresh : U64}

/-- The scan with its early exit is the scan of every record. -/
lemma detectLossLoop_spec {fuel : ℕ} {acc : LossScan CAP} {pre t : List Seg}
    (h : Board M g acc.queue a b f) (hrec : acc.queue.records = pre ++ t) (hsorted : Sorted r t)
    (hv : r.valid = true) (hthresh : thresh.toNat = r.rtt.toNat + reoWnd.toNat)
    (hfuel : t.length < fuel) :
    Scans r reoWnd now pre t acc (detectLossLoop r now thresh fuel pre.length acc) := by
  induction fuel generalizing acc pre t with
  | zero => omega
  | succ fuel ih =>
    rw [detectLossLoop]
    cases t with
    | nil =>
      have hnone : acc.queue.get pre.length = none := by
        rw [get_eq, hrec, List.append_nil, List.getElem?_eq_none (le_refl _)]
      rw [hnone]
      exact .stay hrec nofun
    | cons s t =>
      rw [get_of_records hrec]
      obtain ⟨hbehind, htail⟩ := List.pairwise_cons.mp hsorted
      rw [List.length_cons] at hfuel
      dsimp only
      -- A record that is no candidate, with the scan going on behind it.
      have hnext (hs : s.candidate r = false) : Scans r reoWnd now pre (s :: t) acc
          (detectLossLoop r now thresh fuel (pre.length + 1) acc) := by
        have hrec' : acc.queue.records = (pre ++ [s]) ++ t := by
          rw [hrec, List.append_assoc, List.singleton_append]
        have hlater := ih h hrec' htail (by omega)
        rw [List.length_append, List.length_singleton] at hlater
        have hone : ∀ x ∈ [s], x.candidate r = false := by
          intro x hx
          rw [List.mem_singleton.mp hx]
          exact hs
        exact hlater.skip hone
      by_cases hsacked : s.flags.sacked = true
      · rw [if_pos hsacked]
        have hskip : ∀ x : Seg, x.flags.sacked = true → x.candidate r = false := by
          intro x hx
          simp [Seg.candidate, hx]
        obtain ⟨hnone, hsome⟩ := nextUnsacked_behind h.map hrec hsacked
        cases hj : acc.queue.nextUnsacked (pre.length + 1) with
        | none => exact .stay hrec fun x hx => hskip x (hnone hj x hx)
        | some j =>
          obtain ⟨run, t', rfl, rfl, hrun⟩ := hsome j hj
          have hrec' : acc.queue.records = (pre ++ s :: run) ++ t' := by
            rw [hrec, List.append_assoc, List.cons_append]
          have hsorted' : Sorted r t' := (List.pairwise_append.mp htail).2.1
          rw [List.length_append] at hfuel
          exact (ih h hrec' hsorted' (by omega)).skip fun x hx => hskip x (hrun x hx)
      rw [if_neg hsacked]
      by_cases hwaits : s.awaitsRetrans = true
      · rw [if_pos hwaits]
        exact hnext (by simp [Seg.candidate, hwaits])
      rw [if_neg hwaits]
      by_cases hafter : sentAfter r.xmitSeq r.endSeq s.xmitSeq s.stop
      swap
      · rw [if_pos hafter]
        have hs : s.candidate r = false := by simp [Seg.candidate, hafter]
        split
        case isTrue hfirst =>
          -- Whatever follows was sent later.
          refine .stay hrec fun x hx => ?_
          rcases List.mem_cons.mp hx with rfl | hx
          · exact hs
          · have hlate := hbehind x hx (by simpa using hfirst) hafter
            simp [Seg.candidate, hlate]
        case isFalse => exact hnext hs
      rw [if_neg (not_not.mpr hafter)]
      have hcand : s.candidate r = true := by simp [Seg.candidate, hv, hsacked, hwaits, hafter]
      have hdeadline : (satAdd s.xmitTs thresh).toNat = s.lostAt r reoWnd := by
        rw [toNat_satAdd, hthresh, Seg.lostAt, Nat.add_assoc]
      split
      case isTrue hdue =>
        rw [hdeadline] at hdue
        have hexpired : s.expired r reoWnd now = true := by simp [Seg.expired, hcand, hdue]
        have hpending : s.pending r reoWnd now = false := by
          simp only [Seg.pending, hcand, Bool.true_and, decide_eq_false_iff_not]
          omega
        have hmark := records_markLost hrec (by simpa using hsacked) (by simpa using hwaits)
        generalize hacc : ({ acc with queue := acc.queue.markLost pre.length, marked := true } :
          LossScan CAP) = acc'
        have hrec' : acc'.queue.records = (pre ++ [s.markLost]) ++ t := by
          rw [← hacc, List.append_assoc]
          exact hmark
        have hlater := ih (hacc ▸ h.markLost _) hrec' htail (by omega)
        rw [List.length_append, List.length_singleton] at hlater
        refine Scans.cons (?_ : Scans r reoWnd now _ t acc' _) ?_ ?_ ?_ (.inl ?_)
        · rw [if_pos hexpired]
          exact hlater
        · rw [← hacc, hexpired, Bool.or_true]
        · rw [← hacc]
        · rw [hpending]
          exact nofun
        · rw [← hacc]
      case isFalse hdue =>
        rw [hdeadline] at hdue
        have hexpired : s.expired r reoWnd now = false := by
          simp only [Seg.expired, hcand, Bool.true_and, decide_eq_false_iff_not]
          exact hdue
        have hpending : s.pending r reoWnd now = true := by
          simp only [Seg.pending, hcand, Bool.true_and, decide_eq_true_eq]
          omega
        generalize hwait : subIn (satAdd s.xmitTs thresh) now _ = wait
        have hrest : wait.toNat = s.lostAt r reoWnd - now.toNat := by
          rw [← hwait, toNat_subIn, hdeadline]
        generalize hacc : ({ acc with timeout := maxB acc.timeout wait } : LossScan CAP) = acc'
        have hrec' : acc'.queue.records = (pre ++ [s]) ++ t := by
          rw [← hacc, List.append_assoc]
          exact hrec
        have hlater := ih (hacc ▸ h) hrec' htail (by omega)
        rw [List.length_append, List.length_singleton] at hlater
        have htimeout : acc'.timeout = maxB acc.timeout wait := by rw [← hacc]
        refine Scans.cons (?_ : Scans r reoWnd now _ t acc' _) ?_ ?_ ?_ ?_
        · rw [if_neg (Bool.eq_false_iff.mp hexpired)]
          exact hlater
        · rw [← hacc, hexpired, Bool.or_false]
        · rw [htimeout, toNat_maxB]
          exact le_max_left _ _
        · intro _
          rw [htimeout, toNat_maxB, ← hrest]
          exact le_max_right _ _
        · rw [htimeout]
          unfold maxB
          split
          · exact .inr ⟨hpending, hrest⟩
          · exact .inl rfl

/-- After any run, `detect_loss` marks exactly the candidates whose time has come, says whether there
were any, and returns the longest time any of the other candidates has left.  The time of a candidate
is its transmission plus RTT plus reordering window, or the end of the clock if that comes first. -/
theorem detectLoss_scan (h : RackRun q r) (reoWnd : U32) (now : U64) :
    (detectLoss r q now reoWnd).2.2.records = (q.records.map fun s =>
      if s.candidate r = true ∧ s.lostAt r reoWnd ≤ now.toNat then s.markLost else s) ∧
    ((detectLoss r q now reoWnd).1 = true ↔
      ∃ s ∈ q.records, s.candidate r = true ∧ s.lostAt r reoWnd ≤ now.toNat) ∧
    ((detectLoss r q now reoWnd).2.1 = none ↔
      ∀ s ∈ q.records, s.candidate r = true → s.lostAt r reoWnd ≤ now.toNat) ∧
    ∀ d, (detectLoss r q now reoWnd).2.1 = some d →
      (∃ s ∈ q.records, s.candidate r = true ∧ now.toNat < s.lostAt r reoWnd ∧
        d.toNat = s.lostAt r reoWnd - now.toNat) ∧
      ∀ s ∈ q.records, s.candidate r = true → now.toNat < s.lostAt r reoWnd →
        s.lostAt r reoWnd - now.toNat ≤ d.toNat := by
  by_cases hv : r.valid = true
  swap
  · have hnone : ∀ s : Seg, s.candidate r = false := by
      intro s
      simp [Seg.candidate, hv]
    rw [detectLoss, if_pos hv]
    simp [hnone]
  obtain ⟨a, b, on, hboard⟩ := h.run.consistent
  have hthresh : (satAdd (r.rtt.setWidth 64) (reoWnd.setWidth 64)).toNat =
      r.rtt.toNat + reoWnd.toNat := by
    have h₁ := r.rtt.isLt
    have h₂ := reoWnd.isLt
    rw [toNat_satAdd, BitVec.toNat_setWidth_of_le (by decide), BitVec.toNat_setWidth_of_le (by decide)]
    omega
  have hfuel : q.records.length < q.len + 1 := by
    rw [RingQueue.length_toList]
    exact Nat.lt_succ_self _
  have hscan : Scans r reoWnd now [] q.records ⟨q, 0, false⟩ _ :=
    detectLossLoop_spec hboard rfl (h.timeline.sorted hboard hv) hv hthresh hfuel
  have hexpired : ∀ s : Seg, s.expired r reoWnd now = true ↔
      s.candidate r = true ∧ s.lostAt r reoWnd ≤ now.toNat := by
    intro s
    simp [Seg.expired]
  have hpending : ∀ s : Seg, s.pending r reoWnd now = true ↔
      s.candidate r = true ∧ now.toNat < s.lostAt r reoWnd := by
    intro s
    simp [Seg.pending]
  rw [detectLoss, if_neg (by simp [hv])]
  dsimp only
  rw [List.length_nil] at hscan
  generalize detectLossLoop r now (satAdd (r.rtt.setWidth 64) (reoWnd.setWidth 64)) (q.len + 1) 0
    ⟨q, 0, false⟩ = out at hscan ⊢
  refine ⟨?_, ?_, ⟨fun hnone s hs hc => ?_, fun hnone => ?_⟩, fun d hd => ?_⟩
  · rw [hscan.records, List.nil_append, fullScan]
    simp only [hexpired]
  · rw [hscan.marked, Bool.false_or, List.any_eq_true]
    simp only [hexpired]
  · by_contra hlate
    have hbound := hscan.bound s hs ((hpending s).mpr ⟨hc, by omega⟩)
    split at hnone
    case isTrue hzero =>
      rw [hzero] at hbound
      change _ ≤ 0 at hbound
      omega
    case isFalse => cases hnone
  · rcases hscan.attained with hzero | ⟨s, hs, hp, -⟩
    · rw [if_pos hzero]
    · have hp := (hpending s).mp hp
      have hle := hnone s hs hp.1
      omega
  · split at hd
    case isTrue => cases hd
    case isFalse hne =>
      cases hd
      refine ⟨?_, fun s hs hc hlt => hscan.bound s hs ((hpending s).mpr ⟨hc, hlt⟩)⟩
      rcases hscan.attained with hzero | ⟨s, hs, hp, heq⟩
      · exact absurd hzero hne
      · obtain ⟨hc, hlt⟩ := (hpending s).mp hp
        exact ⟨s, hs, hc, hlt, heq⟩

/-- Two segments sent shortly before the end of the clock. -/
def lateQueue : RtxQueue 64 :=
  small [.push ⟨100, 200, BitVec.ofNat 64 (2 ^ 64 - 100), 0, {}, 0⟩,
    .push ⟨200, 300, BitVec.ofNat 64 (2 ^ 64 - 100), 0, {}, 0⟩]

/-- RACK after the second of them is SACKed 40 ms later. -/
def lateRack : Rack :=
  (smallSacked lateQueue 200 300).foldl
    (fun r s => r.onDelivered s (BitVec.ofNat 64 (2 ^ 64 - 60)) none) Rack.new

lemma rackRun_late : RackRun (lateQueue.sack 200 300).queue lateRack := by
  have hfirst : RackRun ((Op.push ⟨100, 200, BitVec.ofNat 64 (2 ^ 64 - 100), 0, {}, 0⟩).apply
      (new : RtxQueue 64)) Rack.new :=
    .call .new ⟨rfl, rfl, by decide, nofun, by decide⟩ ⟨by decide +kernel, nofun⟩
  have hboth : RackRun lateQueue Rack.new := by
    change RackRun ((Op.push ⟨200, 300, BitVec.ofNat 64 (2 ^ 64 - 100), 0, {}, 0⟩).apply
      ((Op.push ⟨100, 200, BitVec.ofNat 64 (2 ^ 64 - 100), 0, {}, 0⟩).apply new)) _
    refine .call hfirst ⟨rfl, rfl, by decide, fun x hx => ?_, by decide +kernel⟩
      ⟨by decide +kernel, nofun⟩
    have hlast : x = ⟨100, 200, BitVec.ofNat 64 (2 ^ 64 - 100), 0, {}, 0⟩ := by
      rw [← Option.some_inj, ← hx]
      decide +kernel
    rw [hlast]
    exact ⟨rfl, rfl⟩
  exact .sacked 200 300 _ none hboth fun _ hs => hs

/-- The first one is lost 10 ms after the RTT of the second. -/
theorem detectLoss_late :
    (detectLoss lateRack (lateQueue.sack 200 300).queue (BitVec.ofNat 64 (2 ^ 64 - 40)) 10).1 =
      true := by
  obtain ⟨-, hmarked, -⟩ := detectLoss_scan rackRun_late 10 (BitVec.ofNat 64 (2 ^ 64 - 40))
  rw [hmarked]
  decide +kernel

/-- At the last instant of the clock a candidate is marked whose RTT plus reordering window has not
passed: the sum stops there. -/
theorem detectLoss_clock_end :
    ∃ s ∈ (lateQueue.sack 200 300).queue.records,
      RackRun (lateQueue.sack 200 300).queue lateRack ∧ s.candidate lateRack = true ∧
      (BitVec.allOnes 64).toNat < s.xmitTs.toNat + lateRack.rtt.toNat + (100 : U32).toNat ∧
      (detectLoss lateRack (lateQueue.sack 200 300).queue (BitVec.allOnes 64) 100).2.2.records.head? =
        some s.markLost := by
  refine ⟨⟨100, 200, BitVec.ofNat 64 (2 ^ 64 - 100), 0, {}, 0⟩, ?_, rackRun_late, ?_⟩
  · decide +kernel
  · decide +kernel

end RtxQueue

end TcpSansIo
