import TcpSansIo.RtxQueue

/-!
# Records of transmitted segments

What a single record of the retransmission queue promises, and what a list of them covers.  A list
of records is a chain when each begins where the one before ends; its span is then the distance
between the chain's ends.  The shares of the records in the queue's three counters add up, so
replacing a record by others moves every counter by the difference of the shares.
-/

namespace TcpSansIo

open FixedWidth

/-! ## One record -/

/-- A record is nonempty; a SACKed record is neither lost nor in flight again; a resent prefix lies
strictly inside the payload of a retransmitted record. -/
structure Seg.Sound (s : Seg) : Prop where
  pos : 0 < s.seqLen.toNat
  sacked : s.flags.sacked = true → s.flags.lost = false ∧ s.flags.retrans = false
  retrans : s.flags.retrans = true → s.flags.everRetrans = true
  resent : s.flags.isPartial = true →
    s.flags.retrans = true ∧ 0 < s.sent.toNat ∧ s.sent.toNat < s.payloadLen.toNat
  whole : s.flags.isPartial = false → s.sent = 0

/-- A sound record that is no longer than a full segment with a FIN. -/
structure Seg.Ok (s : Seg) : Prop where
  pos : 0 < s.seqLen.toNat
  short : s.seqLen.toNat ≤ 1461
  sacked : s.flags.sacked = true → s.flags.lost = false ∧ s.flags.retrans = false
  retrans : s.flags.retrans = true → s.flags.everRetrans = true
  resent : s.flags.isPartial = true →
    s.flags.retrans = true ∧ 0 < s.sent.toNat ∧ s.sent.toNat < s.payloadLen.toNat
  whole : s.flags.isPartial = false → s.sent = 0

lemma Seg.ok_iff {s : Seg} : s.Ok ↔ s.Sound ∧ s.seqLen.toNat ≤ 1461 :=
  ⟨fun h => ⟨⟨h.pos, h.sacked, h.retrans, h.resent, h.whole⟩, h.short⟩,
    fun ⟨h, hshort⟩ => ⟨h.pos, hshort, h.sacked, h.retrans, h.resent, h.whole⟩⟩

namespace Seg

lemma toNat_payloadLen (s : Seg) :
    s.payloadLen.toNat = s.seqLen.toNat - s.flags.fin.toNat := by
  rw [payloadLen, toNat_satSub, toNat_ofFlag (by decide)]

lemma toNat_retransLen_le {s : Seg} (h : s.Sound) : (retransLen s).toNat ≤ s.seqLen.toNat := by
  unfold retransLen
  split
  case isTrue hp =>
    have hsent := (h.resent hp).2.2
    rw [toNat_payloadLen] at hsent
    rw [BitVec.toNat_setWidth]
    have := s.sent.isLt
    omega
  case isFalse => exact le_refl _

/-- What a record adds to the counters `sacked`, `lost` and `retrans`. -/
def share (s : Seg) : ℕ × ℕ × ℕ :=
  (if s.flags.sacked then s.seqLen.toNat else 0,
   if s.flags.lost then s.seqLen.toNat else 0,
   if s.flags.retrans then (retransLen s).toNat else 0)

end Seg

/-! ### Marking a record -/

/-- Marks that leave no resent prefix behind. -/
lemma Seg.Sound.mark {s : Seg} {flags : SegFlags} (h : s.Sound)
    (hsacked : flags.sacked = true → flags.lost = false ∧ flags.retrans = false)
    (hretrans : flags.retrans = true → flags.everRetrans = true) (hwhole : flags.isPartial = false) :
    ({ s with flags := flags, sent := if flags.isPartial then s.sent else 0 } : Seg).Sound where
  pos := h.pos
  sacked := hsacked
  retrans := hretrans
  resent hp := absurd (hwhole.symm.trans hp) (by decide)
  whole _ := by simp [hwhole]

/-! ### Cutting a record -/

lemma toNat_add_of_neg {x y : U32} (hx : 2 ^ 31 ≤ (-x).toNat) (hy : 2 ^ 31 ≤ (-y).toNat)
    (hpos : 0 < (y + x).toNat) (h : (y + x).toNat < 2 ^ 31) :
    0 < x.toNat ∧ 0 < y.toNat ∧ x.toNat + y.toNat = (y + x).toNat := by
  bv_omega

/-- A cut strictly inside a record, as lengths. -/
lemma cut_inside {s : Seg} {cut : U32} (hpos : 0 < s.seqLen.toNat) (hlt : s.seqLen.toNat < 2 ^ 31)
    (hlo : seqLt s.start cut) (hhi : seqLt cut s.stop) :
    0 < (cut - s.start).toNat ∧ 0 < (s.stop - cut).toNat ∧
      (cut - s.start).toNat + (s.stop - cut).toNat = s.seqLen.toNat := by
  have hsum : s.seqLen = (s.stop - cut) + (cut - s.start) := by
    rw [Seg.seqLen]
    bv_omega
  have hx : s.start - cut = -(cut - s.start) := by bv_omega
  have hy : cut - s.stop = -(s.stop - cut) := by bv_omega
  rw [seqLt_iff, hx] at hlo
  rw [seqLt_iff, hy] at hhi
  rw [hsum] at hpos hlt ⊢
  exact toNat_add_of_neg hlo hhi hpos hlt

/-- Where the halves of a split record lie; the upper half keeps the FIN, both keep the SACK mark. -/
lemma splitSeg_shape (s : Seg) (cut : U32) :
    ((RtxQueue.splitSeg s cut).1.start = s.start ∧ (RtxQueue.splitSeg s cut).1.stop = cut ∧
      (RtxQueue.splitSeg s cut).1.flags.fin = false ∧
      (RtxQueue.splitSeg s cut).1.flags.sacked = s.flags.sacked) ∧
    ((RtxQueue.splitSeg s cut).2.start = cut ∧ (RtxQueue.splitSeg s cut).2.stop = s.stop ∧
      (RtxQueue.splitSeg s cut).2.flags.fin = s.flags.fin ∧
      (RtxQueue.splitSeg s cut).2.flags.sacked = s.flags.sacked) := by
  unfold RtxQueue.splitSeg
  dsimp only
  split
  · dsimp only
    constructor
    · split <;> exact ⟨rfl, rfl, rfl, rfl⟩
    · split <;> exact ⟨rfl, rfl, rfl, rfl⟩
  · exact ⟨⟨rfl, rfl, rfl, rfl⟩, rfl, rfl, rfl, rfl⟩

/-- Both halves keep the time of transmission and the mark of having been retransmitted. -/
lemma splitSeg_history (s : Seg) (cut : U32) :
    ((RtxQueue.splitSeg s cut).1.xmitTs = s.xmitTs ∧
      (RtxQueue.splitSeg s cut).1.flags.everRetrans = s.flags.everRetrans) ∧
    (RtxQueue.splitSeg s cut).2.xmitTs = s.xmitTs ∧
      (RtxQueue.splitSeg s cut).2.flags.everRetrans = s.flags.everRetrans := by
  unfold RtxQueue.splitSeg
  dsimp only
  split
  · dsimp only
    constructor
    · split <;> exact ⟨rfl, rfl⟩
    · split <;> exact ⟨rfl, rfl⟩
  · exact ⟨⟨rfl, rfl⟩, rfl, rfl⟩

lemma toNat_sent (s : Seg) : (s.sent.setWidth 32).toNat = s.sent.toNat := by
  have := s.sent.isLt
  rw [BitVec.toNat_setWidth]
  omega

/-- A resent prefix cut at its lower end. -/
lemma toNat_rest (x y : U32) (h : y.toNat ≤ x.toNat) (hx : x.toNat < 2 ^ 16) :
    ((subIn x y h).setWidth 16).toNat = x.toNat - y.toNat := by
  rw [BitVec.toNat_setWidth, toNat_subIn]
  omega

lemma Seg.Sound.not_sacked_of_partial {s : Seg} (h : s.Sound) (hp : s.flags.isPartial = true) :
    s.flags.sacked = false := by
  by_contra hs
  have := (h.sacked (by simpa using hs)).2
  simp [(h.resent hp).1] at this

/-- The halves divide the length of a record. -/
lemma splitSeg_len {s : Seg} {cut : U32} (hpos : 0 < s.seqLen.toNat) (hlt : s.seqLen.toNat < 2 ^ 31)
    (hlo : seqLt s.start cut) (hhi : seqLt cut s.stop) :
    (RtxQueue.splitSeg s cut).1.seqLen.toNat + (RtxQueue.splitSeg s cut).2.seqLen.toNat =
      s.seqLen.toNat := by
  obtain ⟨⟨h₁, h₂, -⟩, h₃, h₄, -⟩ := splitSeg_shape s cut
  rw [Seg.seqLen, Seg.seqLen, h₁, h₂, h₃, h₄]
  exact (cut_inside hpos hlt hlo hhi).2.2

lemma splitSeg_sound {s : Seg} {cut : U32} (h : s.Sound) (hlen : s.seqLen.toNat < 2 ^ 31)
    (hlo : seqLt s.start cut) (hhi : seqLt cut s.stop) :
    (RtxQueue.splitSeg s cut).1.Sound ∧ (RtxQueue.splitSeg s cut).2.Sound := by
  obtain ⟨hbelow, habove, hsum⟩ := cut_inside h.pos hlen hlo hhi
  have hpay := s.toNat_payloadLen
  have hsent' := toNat_sent s
  have hlt := s.sent.isLt
  unfold RtxQueue.splitSeg
  dsimp only
  split
  case isTrue hp =>
    obtain ⟨hretrans, hsent, hinside⟩ := h.resent hp
    have hsacked := h.not_sacked_of_partial hp
    dsimp only
    constructor
    · split
      · exact ⟨hbelow, h.sacked, h.retrans, nofun, fun _ => rfl⟩
      case isFalse hle =>
        refine ⟨hbelow, h.sacked, h.retrans, fun _ => ⟨hretrans, hsent, ?_⟩,
          fun hw => absurd (hp.symm.trans hw) (by decide)⟩
        rw [Seg.toNat_payloadLen]
        simp only [Seg.seqLen, Bool.toNat_false] at *
        omega
    · split
      case isTrue hbs =>
        have hrest := toNat_rest _ _ hbs.le (by omega)
        refine ⟨habove, h.sacked, h.retrans, fun _ => ⟨hretrans, by simp only [hrest]; omega, ?_⟩,
          fun hw => absurd (hp.symm.trans hw) (by decide)⟩
        rw [Seg.toNat_payloadLen]
        simp only [Seg.seqLen, hrest] at *
        omega
      · exact ⟨habove, by simp [hsacked], nofun, nofun, fun _ => rfl⟩
  case isFalse hp =>
    have hp' : s.flags.isPartial = false := by simpa using hp
    constructor
    · exact ⟨hbelow, h.sacked, h.retrans, fun hw => absurd hw hp, fun _ => h.whole hp'⟩
    · exact ⟨habove, h.sacked, h.retrans, fun hw => absurd hw hp, fun _ => h.whole hp'⟩

/-- Splitting a record that was sent whole divides its share between the halves. -/
lemma share_splitSeg {s : Seg} {cut : U32} (hpos : 0 < s.seqLen.toNat)
    (hlt : s.seqLen.toNat < 2 ^ 31) (hlo : seqLt s.start cut) (hhi : seqLt cut s.stop)
    (hp : s.flags.isPartial = false) :
    (RtxQueue.splitSeg s cut).1.share + (RtxQueue.splitSeg s cut).2.share = s.share := by
  obtain ⟨-, -, hsum⟩ := cut_inside hpos hlt hlo hhi
  unfold RtxQueue.splitSeg Seg.share retransLen
  simp only [hp, Bool.false_eq_true, if_false, Prod.mk_add_mk, Prod.mk.injEq]
  simp only [Seg.seqLen] at hsum ⊢
  refine ⟨?_, ?_, ?_⟩ <;> split <;> omega

/-- Trimming the acknowledged front off a record leaves what splitting it there leaves above. -/
lemma trimSeg_fst (s : Seg) (una : U32) :
    (RtxQueue.trimSeg s una).1 = (RtxQueue.splitSeg s una).2 := by
  unfold RtxQueue.trimSeg RtxQueue.splitSeg
  dsimp only
  split
  · dsimp only
    split <;> rfl
  · rfl

/-! ## Lists of records -/

/-- The records of `l` begin at `a`, each where the one before ends, and end at `b`. -/
def Chain (a : U32) : List Seg → U32 → Prop
  | [], b => a = b
  | s :: l, b => s.start = a ∧ Chain s.stop l b

/-- Sequence numbers the records of `l` cover. -/
def span (l : List Seg) : ℕ := (l.map fun s => s.seqLen.toNat).sum

/-- What the records of `l` add to the counters. -/
def shares (l : List Seg) : ℕ × ℕ × ℕ := (l.map Seg.share).sum

@[simp] lemma span_nil : span [] = 0 := rfl

@[simp] lemma span_cons (s : Seg) (l : List Seg) : span (s :: l) = s.seqLen.toNat + span l := by
  simp [span]

@[simp] lemma span_append (l l' : List Seg) : span (l ++ l') = span l + span l' := by
  simp [span]

@[simp] lemma shares_nil : shares [] = 0 := rfl

@[simp] lemma shares_cons (s : Seg) (l : List Seg) : shares (s :: l) = s.share + shares l := by
  simp [shares]

@[simp] lemma shares_append (l l' : List Seg) : shares (l ++ l') = shares l + shares l' := by
  simp [shares]

/-- Replacing the middle record of a list moves the shares by the difference. -/
lemma shares_middle (l₁ l₂ : List Seg) (mid : List Seg) :
    shares (l₁ ++ mid ++ l₂) = shares mid + (shares l₁ + shares l₂) := by
  rw [shares_append, shares_append]
  abel

lemma shares_le {l : List Seg} (h : ∀ s ∈ l, s.Sound) :
    (shares l).1 ≤ span l ∧ (shares l).2.1 ≤ span l ∧ (shares l).2.2 ≤ span l := by
  induction l with
  | nil => simp
  | cons s l ih =>
    have hs := h s (List.mem_cons_self ..)
    have hlen := Seg.toNat_retransLen_le hs
    obtain ⟨h₁, h₂, h₃⟩ := ih fun x hx => h x (List.mem_cons_of_mem _ hx)
    simp only [shares_cons, span_cons, Prod.fst_add, Prod.snd_add, Seg.share]
    refine ⟨?_, ?_, ?_⟩ <;> split <;> omega

lemma span_le {l : List Seg} {M : ℕ} (h : ∀ s ∈ l, s.seqLen.toNat ≤ M) :
    span l ≤ M * l.length := by
  induction l with
  | nil => simp
  | cons s l ih =>
    have hs := h s (List.mem_cons_self ..)
    have := ih fun x hx => h x (List.mem_cons_of_mem _ hx)
    rw [span_cons, List.length_cons, Nat.mul_succ]
    omega

lemma seqLen_le_span {l : List Seg} {s : Seg} (hs : s ∈ l) : s.seqLen.toNat ≤ span l := by
  obtain ⟨l₁, l₂, rfl⟩ := List.append_of_mem hs
  rw [span_append, span_cons]
  omega

namespace Chain

variable {a b c : U32} {l l₁ l₂ : List Seg}

lemma append : Chain a (l₁ ++ l₂) c ↔ ∃ b, Chain a l₁ b ∧ Chain b l₂ c := by
  induction l₁ generalizing a with
  | nil => simp [Chain]
  | cons s l₁ ih => simp [Chain, ih, and_assoc]

/-- The end of a chain is its start plus its span. -/
lemma end_eq (h : Chain a l b) : b = a + BitVec.ofNat 32 (span l) := by
  induction l generalizing a with
  | nil => simpa [Chain] using h.symm
  | cons s l ih =>
    obtain ⟨hs, hl⟩ := h
    rw [ih hl, span_cons, ← hs, BitVec.ofNat_add, Seg.seqLen, BitVec.ofNat_toNat,
      BitVec.setWidth_eq, ← BitVec.add_assoc, BitVec.add_comm s.start, BitVec.sub_add_cancel]

/-- The span of a chain is the distance between its ends. -/
lemma span_eq (h : Chain a l b) (hlt : span l < 2 ^ 32) : (b - a).toNat = span l := by
  rw [h.end_eq, BitVec.add_comm, BitVec.add_sub_cancel, BitVec.toNat_ofNat, Nat.mod_eq_of_lt hlt]

/-- A record of a chain lies inside it, as far from the start as the records before it reach. -/
lemma offset (h : Chain a (l₁ ++ s :: l₂) b) (hlt : span (l₁ ++ s :: l₂) < 2 ^ 32) :
    (s.start - a).toNat = span l₁ := by
  obtain ⟨c, h₁, h₂⟩ := append.mp h
  rw [span_append] at hlt
  rw [h₂.1]
  exact h₁.span_eq (by omega)

/-- A chain that goes on past a nonempty record does not end where it got to. -/
lemma ne_end {s : Seg} (h : Chain a l c) (hs : Chain c (s :: l₂) b)
    (hlt : span (l ++ s :: l₂) < 2 ^ 32) (hpos : 0 < s.seqLen.toNat) : c ≠ b := by
  intro heq
  have hwhole : Chain a (l ++ s :: l₂) b := append.mpr ⟨c, h, hs⟩
  have h₁ := hwhole.span_eq hlt
  rw [span_append, span_cons] at h₁ hlt
  have h₂ := h.span_eq (by omega)
  rw [heq] at h₂
  omega

/-- A record of a chain lies inside it. -/
lemma start_le {s : Seg} (h : Chain a l b) (hlt : span l < 2 ^ 32) (hs : s ∈ l) :
    (s.start - a).toNat + s.seqLen.toNat ≤ span l := by
  obtain ⟨l₁, l₂, rfl⟩ := List.append_of_mem hs
  obtain ⟨c, h₁, h₂, -⟩ := append.mp h
  rw [span_append, span_cons] at hlt ⊢
  rw [h₂, h₁.span_eq (by omega)]
  omega

lemma stop_le {s : Seg} (h : Chain a l b) (hlt : span l < 2 ^ 32) (hs : s ∈ l) :
    (s.stop - a).toNat ≤ span l := by
  obtain ⟨l₁, l₂, rfl⟩ := List.append_of_mem hs
  obtain ⟨c, h₁, h₂, -⟩ := append.mp h
  have hfront : Chain a (l₁ ++ [s]) s.stop := append.mpr ⟨c, h₁, h₂, rfl⟩
  rw [span_append, span_cons] at hlt ⊢
  rw [hfront.span_eq (by simp; omega), span_append, span_cons, span_nil]
  omega

end Chain

end TcpSansIo
