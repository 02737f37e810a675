import TcpSansIo.Rtx.Records

/-!
# What the records say about single sequence numbers

A record speaks for every sequence number it covers.  `Seg.byteFlags` is what it says about one of
them; a resent prefix is then a statement about the numbers in it, not about the record.  `flagsAt`
reads that off a list of records.

Selective acknowledgment changes a list in two ways: a record is cut in two at an edge of the block
(`cutAll`), and a record inside the block is marked (`markAll`).  A cut changes what is said about a
sequence number in one case only, `Remainder`: what lies above a cut that the resent prefix does
not reach is now lost.
-/

namespace TcpSansIo

open FixedWidth

/-! ## Sequence numbers of a record -/

/-- `x` is one of the sequence numbers of `s`. -/
def Seg.covers (s : Seg) (x : U32) : Bool := decide ((x - s.start).toNat < s.seqLen.toNat)

/-- What is known about one sequence number. -/
structure ByteFlags where
  sacked : Bool
  lost : Bool
  resent : Bool
  everRetrans : Bool
  fin : Bool
  deriving Repr, DecidableEq

/-- What `s` says about the sequence number `x` in it.  A retransmission counts for the numbers it
resent, and the FIN is the last number. -/
def Seg.byteFlags (s : Seg) (x : U32) : ByteFlags where
  sacked := s.flags.sacked
  lost := s.flags.lost
  resent := s.flags.retrans && (!s.flags.isPartial || decide ((x - s.start).toNat < s.sent.toNat))
  everRetrans := s.flags.everRetrans
  fin := s.flags.fin && x + 1 == s.stop

/-- What the records of `t` say about `x`, if it is one of theirs. -/
def flagsAt (t : List Seg) (x : U32) : Option ByteFlags :=
  (t.find? fun s => s.covers x).map fun s => s.byteFlags x

@[simp] lemma flagsAt_nil (x : U32) : flagsAt [] x = none := rfl

@[simp] lemma flagsAt_cons (s : Seg) (t : List Seg) (x : U32) :
    flagsAt (s :: t) x = if s.covers x then some (s.byteFlags x) else flagsAt t x := by
  unfold flagsAt
  rw [List.find?_cons]
  cases s.covers x <;> rfl

/-! ## Distances from the start of the queue -/

/-- The records of `t` lie end to end, from `o` sequence numbers after `a` on. -/
def Laid (a : U32) : ℕ → List Seg → Prop
  | _, [] => True
  | o, s :: t =>
    0 < s.seqLen.toNat ∧ (s.start - a).toNat = o ∧ (s.stop - a).toNat = o + s.seqLen.toNat ∧
      Laid a (o + s.seqLen.toNat) t

lemma Chain.laid {a p b : U32} {t : List Seg} {o : ℕ} (h : Chain p t b) (hp : (p - a).toNat = o)
    (hlt : o + span t < 2 ^ 32) (hpos : ∀ s ∈ t, 0 < s.seqLen.toNat) : Laid a o t := by
  induction t generalizing p o with
  | nil => trivial
  | cons s t ih =>
    obtain ⟨hstart, hrest⟩ := h
    rw [span_cons] at hlt
    have hstop : (s.stop - a).toNat = o + s.seqLen.toNat := by
      have hsum : s.stop - a = s.seqLen + (p - a) := by
        rw [Seg.seqLen, hstart]
        bv_omega
      rw [hsum, BitVec.toNat_add, hp]
      omega
    exact ⟨hpos s (List.mem_cons_self ..), by rw [hstart]; exact hp, hstop,
      ih hrest hstop (by omega) fun x hx => hpos x (List.mem_cons_of_mem _ hx)⟩

namespace Laid

variable {a : U32} {o : ℕ} {s : Seg} {t t₁ t₂ : List Seg}

lemma append : Laid a o (t₁ ++ t₂) ↔ Laid a o t₁ ∧ Laid a (o + span t₁) t₂ := by
  induction t₁ generalizing o with
  | nil => simp [Laid]
  | cons s t₁ ih => simp [Laid, ih, and_assoc, Nat.add_assoc]

lemma ends (h : Laid a o t) (hs : s ∈ t) :
    (s.stop - a).toNat = (s.start - a).toNat + s.seqLen.toNat ∧ 0 < s.seqLen.toNat := by
  obtain ⟨t₁, t₂, rfl⟩ := List.append_of_mem hs
  obtain ⟨hpos, hstart, hstop, -⟩ := (append.mp h).2
  exact ⟨by rw [hstop, hstart], hpos⟩

lemma start_ge (h : Laid a o t) (hs : s ∈ t) : o ≤ (s.start - a).toNat := by
  obtain ⟨t₁, t₂, rfl⟩ := List.append_of_mem hs
  obtain ⟨-, hstart, -⟩ := (append.mp h).2
  omega

lemma stop_le (h : Laid a o t) (hs : s ∈ t) : (s.stop - a).toNat ≤ o + span t := by
  obtain ⟨t₁, t₂, rfl⟩ := List.append_of_mem hs
  obtain ⟨-, hstart, hstop, -⟩ := (append.mp h).2
  rw [span_append, span_cons]
  omega

end Laid

/-- A record covers the numbers from its start to its end. -/
lemma Seg.covers_iff {a x : U32} {s : Seg}
    (h : (s.stop - a).toNat = (s.start - a).toNat + s.seqLen.toNat) :
    s.covers x = true ↔
      (s.start - a).toNat ≤ (x - a).toNat ∧ (x - a).toNat < (s.stop - a).toNat := by
  have hdiff : x - s.start = (x - a) - (s.start - a) := by bv_omega
  have hlt := (s.stop - a).isLt
  rw [Seg.covers, decide_eq_true_iff, hdiff, h]
  rw [h] at hlt
  generalize x - a = y at *
  generalize s.start - a = p at *
  generalize s.seqLen.toNat = n at *
  bv_omega

/-- Every number between the ends is covered. -/
lemma Laid.exists_covers {a x : U32} {o : ℕ} {t : List Seg} (h : Laid a o t)
    (hlo : o ≤ (x - a).toNat) (hhi : (x - a).toNat < o + span t) : ∃ s ∈ t, s.covers x = true := by
  induction t generalizing o with
  | nil => rw [span_nil] at hhi; omega
  | cons s t ih =>
    have hends := h.ends (List.mem_cons_self ..)
    rw [span_cons] at hhi
    by_cases hin : (x - a).toNat < o + s.seqLen.toNat
    · refine ⟨s, List.mem_cons_self .., (Seg.covers_iff hends.1).mpr ?_⟩
      rw [h.2.1, h.2.2.1]
      exact ⟨hlo, hin⟩
    · obtain ⟨r, hr, hx⟩ := ih h.2.2.2 (by omega) (by omega)
      exact ⟨r, List.mem_cons_of_mem _ hr, hx⟩

/-- The first record that covers a number is the only one. -/
lemma Laid.find {a x : U32} {o : ℕ} {s : Seg} {t : List Seg} (h : Laid a o t) (hs : s ∈ t)
    (hx : s.covers x = true) : t.find? (fun s => s.covers x) = some s := by
  induction t generalizing o with
  | nil => cases hs
  | cons r t ih =>
    rw [List.find?_cons]
    rcases List.mem_cons.mp hs with rfl | hs
    · rw [hx]
    · have hrest := h.2.2.2
      have hr := h.ends (List.mem_cons_self ..)
      have hgap := hrest.start_ge hs
      have hx' := (Seg.covers_iff (hrest.ends hs).1).mp hx
      have hr' : r.covers x = false := by
        rw [Bool.eq_false_iff, ne_eq, Seg.covers_iff hr.1, h.2.2.1]
        omega
      rw [hr']
      exact ih hrest hs

lemma Laid.flagsAt_eq {a x : U32} {o : ℕ} {s : Seg} {t : List Seg} (h : Laid a o t) (hs : s ∈ t)
    (hx : s.covers x = true) : flagsAt t x = some (s.byteFlags x) := by
  rw [flagsAt, h.find hs hx]
  rfl

lemma flagsAt_eq_some {t : List Seg} {x : U32} {fl : ByteFlags} (h : flagsAt t x = some fl) :
    ∃ s ∈ t, s.covers x = true ∧ s.byteFlags x = fl := by
  obtain ⟨s, hfind, hs⟩ := Option.map_eq_some_iff.mp h
  have hx := List.find?_some hfind
  exact ⟨s, List.mem_of_find?_eq_some hfind, hx, hs⟩

/-! ## Cutting -/

/-- `c` lies strictly inside the record. -/
def Seg.Inside (s : Seg) (c : U32) : Prop := seqLt s.start c ∧ seqLt c s.stop

instance (s : Seg) (c : U32) : Decidable (s.Inside c) := inferInstanceAs (Decidable (_ ∧ _))

/-- Cut the records that are not SACKed at `c`. -/
def cutAll (room : Bool) (c : U32) (t : List Seg) : List Seg :=
  t.flatMap fun s =>
    if room = true ∧ s.flags.sacked = false ∧ s.Inside c then
      [(RtxQueue.splitSeg s c).1, (RtxQueue.splitSeg s c).2]
    else [s]

/-- `x` lies in the part of a record, resent only in front, that a cut at `c` leaves wholly
unsent. -/
def Seg.Remainder (s : Seg) (c x : U32) : Prop :=
  s.flags.isPartial = true ∧ s.Inside c ∧ s.sent.toNat ≤ (c - s.start).toNat ∧
    (x - c).toNat < (s.stop - c).toNat

@[simp] lemma cutAll_nil (room : Bool) (c : U32) : cutAll room c [] = [] := rfl

lemma cutAll_append (room : Bool) (c : U32) (t₁ t₂ : List Seg) :
    cutAll room c (t₁ ++ t₂) = cutAll room c t₁ ++ cutAll room c t₂ := List.flatMap_append

lemma cutAll_cons_of_not {room : Bool} {c : U32} {s : Seg} (t : List Seg)
    (h : ¬ (room = true ∧ s.flags.sacked = false ∧ s.Inside c)) :
    cutAll room c (s :: t) = s :: cutAll room c t := by
  rw [cutAll, List.flatMap_cons, if_neg h]
  rfl

lemma cutAll_cons_of_cut {c : U32} {s : Seg} (t : List Seg) (hs : s.flags.sacked = false)
    (hc : s.Inside c) :
    cutAll true c (s :: t) =
      (RtxQueue.splitSeg s c).1 :: (RtxQueue.splitSeg s c).2 :: cutAll true c t := by
  rw [cutAll, List.flatMap_cons, if_pos ⟨rfl, hs, hc⟩]
  rfl

/-- Records without `c` inside stay as they are. -/
lemma cutAll_eq_self {room : Bool} {c : U32} {t : List Seg}
    (h : ∀ s ∈ t, room = true → s.flags.sacked = false → ¬ s.Inside c) : cutAll room c t = t := by
  induction t with
  | nil => rfl
  | cons s t ih =>
    rw [cutAll_cons_of_not t fun hs => h s (List.mem_cons_self ..) hs.1 hs.2.1 hs.2.2,
      ih fun x hx => h x (List.mem_cons_of_mem _ hx)]

/-- A record after the cut is one from before, or a half of one. -/
lemma mem_cutAll {room : Bool} {c : U32} {s : Seg} {t : List Seg} (h : s ∈ cutAll room c t) :
    (s ∈ t ∧ ¬ (room = true ∧ s.flags.sacked = false ∧ s.Inside c)) ∨
      ∃ r ∈ t, r.flags.sacked = false ∧ r.Inside c ∧
        (s = (RtxQueue.splitSeg r c).1 ∨ s = (RtxQueue.splitSeg r c).2) := by
  obtain ⟨r, hr, hs⟩ := List.mem_flatMap.mp h
  split at hs
  case isTrue hc =>
    exact .inr ⟨r, hr, hc.2.1, hc.2.2, by simpa using hs⟩
  case isFalse hc =>
    rw [List.mem_singleton.mp hs]
    exact .inl ⟨hr, hc⟩

lemma mem_cutAll_of_not {room : Bool} {c : U32} {s : Seg} {t : List Seg} (hs : s ∈ t)
    (h : ¬ s.Inside c) : s ∈ cutAll room c t :=
  List.mem_flatMap.mpr ⟨s, hs, by rw [if_neg fun hc => h hc.2.2]; exact List.mem_singleton_self s⟩

section Cut

variable {a c : U32} {s : Seg}

/-- A cut strictly inside, as distances. -/
lemma Seg.inside_iff (hspan : (s.stop - a).toNat < 2 ^ 31) (hc : (c - a).toNat < 2 ^ 31)
    (h : (s.stop - a).toNat = (s.start - a).toNat + s.seqLen.toNat) :
    s.Inside c ↔ (s.start - a).toNat < (c - a).toNat ∧ (c - a).toNat < (s.stop - a).toNat := by
  rw [Seg.Inside, seqLt_offset (by omega) hc, seqLt_offset hc hspan]

/-- The halves of a cut record lie end to end over the record. -/
lemma splitSeg_ends (hpos : 0 < s.seqLen.toNat) (hlt : s.seqLen.toNat < 2 ^ 31) (hc : s.Inside c)
    (h : (s.stop - a).toNat = (s.start - a).toNat + s.seqLen.toNat) :
    0 < (RtxQueue.splitSeg s c).1.seqLen.toNat ∧ 0 < (RtxQueue.splitSeg s c).2.seqLen.toNat ∧
      (c - a).toNat = (s.start - a).toNat + (RtxQueue.splitSeg s c).1.seqLen.toNat ∧
      (s.stop - a).toNat = (c - a).toNat + (RtxQueue.splitSeg s c).2.seqLen.toNat := by
  obtain ⟨⟨h₁, h₂, -⟩, h₃, h₄, -⟩ := splitSeg_shape s c
  obtain ⟨hlo, hhi, hsum⟩ := cut_inside hpos hlt hc.1 hc.2
  have hmid : c - a = (c - s.start) + (s.start - a) := by bv_omega
  have hstop := (s.stop - a).isLt
  simp only [Seg.seqLen, h₁, h₂, h₃, h₄] at *
  refine ⟨hlo, hhi, ?_, ?_⟩
  · rw [hmid, BitVec.toNat_add]
    omega
  · rw [hmid, BitVec.toNat_add, h]
    omega

/-- A cut leaves the records end to end. -/
lemma Laid.cutAll {o : ℕ} {t : List Seg} (room : Bool) (c : U32) (h : Laid a o t)
    (hhalf : span t < 2 ^ 31) : Laid a o (TcpSansIo.cutAll room c t) ∧
      span (TcpSansIo.cutAll room c t) = span t := by
  induction t generalizing o with
  | nil => exact ⟨trivial, rfl⟩
  | cons s t ih =>
    obtain ⟨hpos, hstart, hstop, hrest⟩ := h
    rw [span_cons] at hhalf
    obtain ⟨hlaid, hspan⟩ := ih hrest (by omega)
    by_cases hc : room = true ∧ s.flags.sacked = false ∧ s.Inside c
    · obtain ⟨rfl, hs, hin⟩ := hc
      obtain ⟨⟨h₁, h₂, -⟩, h₃, h₄, -⟩ := splitSeg_shape s c
      obtain ⟨hlo, hhi, hmid, hend⟩ := splitSeg_ends hpos (by omega) hin (hstop.trans (by rw [hstart]))
      rw [cutAll_cons_of_cut t hs hin, span_cons, span_cons, span_cons, hspan]
      refine ⟨⟨hlo, by rw [h₁, hstart], by rw [h₂, hmid, hstart], hhi, by rw [h₃, hmid, hstart],
        by rw [h₄, hend, hmid, hstart], ?_⟩, by omega⟩
      rwa [show o + (RtxQueue.splitSeg s c).1.seqLen.toNat + (RtxQueue.splitSeg s c).2.seqLen.toNat =
        o + s.seqLen.toNat by omega]
    · rw [cutAll_cons_of_not t hc, span_cons, span_cons, hspan]
      exact ⟨⟨hpos, hstart, hstop, hlaid⟩, rfl⟩

/-- What the lower half says is what the record said. -/
lemma byteFlags_splitSeg_fst {x : U32} (hx : (x - s.start).toNat < (c - s.start).toNat)
    (hfin : s.flags.fin = true → x + 1 ≠ s.stop) :
    (RtxQueue.splitSeg s c).1.byteFlags x = s.byteFlags x := by
  have hlast : (s.flags.fin && x + 1 == s.stop) = false := by
    cases hf : s.flags.fin with
    | false => rfl
    | true => rw [Bool.true_and, beq_false_of_ne (hfin hf)]
  unfold RtxQueue.splitSeg Seg.byteFlags
  dsimp only
  rw [hlast]
  split
  case isTrue hp =>
    dsimp only
    split
    case isTrue hall =>
      have hsent : (x - s.start).toNat < s.sent.toNat := by
        rw [toNat_sent] at hall
        omega
      simp [-BitVec.toNat_sub, hsent]
    case isFalse => simp
  case isFalse => simp

/-- What the upper half says is what the record said, but for a remainder that was not resent. -/
lemma byteFlags_splitSeg_snd {x : U32} (hx : (x - s.start).toNat = (c - s.start).toNat + (x - c).toNat)
    (hc : s.Inside c) (hin : (x - c).toNat < (s.stop - c).toNat) :
    (RtxQueue.splitSeg s c).2.byteFlags x = s.byteFlags x ∨
      s.Remainder c x ∧ (s.byteFlags x).resent = false ∧
        (RtxQueue.splitSeg s c).2.byteFlags x = { s.byteFlags x with lost := true } := by
  unfold RtxQueue.splitSeg
  dsimp only
  split
  case isTrue hp =>
    dsimp only
    split
    case isTrue hrest =>
      left
      have hsent := toNat_sent s
      have hrest' := toNat_rest (s.sent.setWidth 32) (c - s.start) hrest.le
        (by rw [hsent]; exact s.sent.isLt)
      have hiff : decide ((x - c).toNat < (s.sent.setWidth 32).toNat - (c - s.start).toNat) =
          decide ((x - s.start).toNat < s.sent.toNat) := by
        rw [hsent, hx]
        rw [hsent] at hrest
        exact decide_eq_decide.mpr (by omega)
      simp only [Seg.byteFlags]
      rw [hrest', hiff]
    case isFalse hrest =>
      right
      rw [toNat_sent] at hrest
      have hresent : decide ((x - s.start).toNat < s.sent.toNat) = false := by
        rw [hx]
        exact decide_eq_false (by omega)
      refine ⟨⟨hp, hc, by omega, hin⟩, ?_, ?_⟩
      · rw [Seg.byteFlags, hresent, hp, Bool.not_true, Bool.or_false, Bool.and_false]
      · simp only [Seg.byteFlags, hresent, hp, Bool.not_true, Bool.or_false, Bool.and_false,
          Bool.false_and]
  case isFalse hp =>
    left
    simp [Seg.byteFlags, hp]

/-- The two ways a cut shows in what is said about `x`. -/
lemma flagsAt_cutAll {o : ℕ} {t : List Seg} (room : Bool) (c x : U32) (h : Laid a o t)
    (hhalf : o + span t < 2 ^ 31) :
    flagsAt (cutAll room c t) x = flagsAt t x ∨
      ∃ s ∈ t, s.covers x = true ∧ s.Remainder c x ∧ (s.byteFlags x).resent = false ∧
        flagsAt (cutAll room c t) x = some { s.byteFlags x with lost := true } := by
  induction t generalizing o with
  | nil => exact .inl rfl
  | cons s t ih =>
    have hends := h.ends (List.mem_cons_self ..)
    obtain ⟨hpos, hstart, hstop, hrest⟩ := h
    rw [span_cons] at hhalf
    have htail := ih hrest (by omega)
    by_cases hcut : room = true ∧ s.flags.sacked = false ∧ s.Inside c
    · obtain ⟨rfl, hs, hc⟩ := hcut
      obtain ⟨⟨h₁, h₂, -⟩, h₃, h₄, -⟩ := splitSeg_shape s c
      obtain ⟨hlo, hhi, hmid, hend⟩ := splitSeg_ends hpos (by omega) hc hends.1
      have hcov := Seg.covers_iff (x := x) hends.1
      have hcov₁ := Seg.covers_iff (s := (RtxQueue.splitSeg s c).1) (a := a) (x := x)
        (by rw [h₁, h₂]; exact hmid)
      have hcov₂ := Seg.covers_iff (s := (RtxQueue.splitSeg s c).2) (a := a) (x := x)
        (by rw [h₃, h₄]; exact hend)
      rw [h₁, h₂] at hcov₁
      rw [h₃, h₄] at hcov₂
      rw [cutAll_cons_of_cut t hs hc]
      simp only [flagsAt_cons]
      by_cases hlower : (RtxQueue.splitSeg s c).1.covers x = true
      · have hx := hcov₁.mp hlower
        left
        rw [if_pos hlower, if_pos (hcov.mpr (by omega)), byteFlags_splitSeg_fst]
        · have hfar := toNat_sub_offset hx.1
          have hcut := toNat_sub_offset (a := a) (p := s.start) (x := c) (by omega)
          omega
        · -- The last number of the record is in its upper half.
          intro _ hlast
          have hone : (s.stop - x).toNat = 1 := by
            rw [← hlast, BitVec.add_comm, BitVec.add_sub_cancel]
            rfl
          rw [toNat_sub_offset (a := a) (p := x) (x := s.stop) (by omega)] at hone
          omega
      · rw [if_neg hlower]
        by_cases hupper : (RtxQueue.splitSeg s c).2.covers x = true
        · have hx := hcov₂.mp hupper
          have hall : s.covers x = true := hcov.mpr (by omega)
          have hfar := toNat_sub_offset (a := a) (p := s.start) (x := x) (by omega)
          have hcut := toNat_sub_offset (a := a) (p := s.start) (x := c) (by omega)
          have hrest := toNat_sub_offset hx.1
          have hlen := toNat_sub_offset (a := a) (p := c) (x := s.stop) (by omega)
          rw [if_pos hupper, if_pos hall]
          refine (byteFlags_splitSeg_snd (by omega) hc (by omega)).imp (congrArg some) ?_
          rintro ⟨hrem, hunsent, hflags⟩
          exact ⟨s, List.mem_cons_self .., hall, hrem, hunsent, congrArg some hflags⟩
        · have hnone : ¬ s.covers x = true := by
            rw [hcov]
            rw [hcov₁] at hlower
            rw [hcov₂] at hupper
            omega
          rw [if_neg hupper, if_neg hnone]
          refine htail.imp_right ?_
          rintro ⟨r, hr, hrest⟩
          exact ⟨r, List.mem_cons_of_mem _ hr, hrest⟩
    · rw [cutAll_cons_of_not t hcut]
      simp only [flagsAt_cons]
      by_cases hall : s.covers x = true
      · left
        rw [if_pos hall, if_pos hall]
      · rw [if_neg hall, if_neg hall]
        refine htail.imp_right ?_
        rintro ⟨r, hr, hrest⟩
        exact ⟨r, List.mem_cons_of_mem _ hr, hrest⟩

end Cut

/-! ## Marking -/

/-- The record as `sack` leaves it when it marks it. -/
def Seg.markSacked (s : Seg) : Seg :=
  { s with
    flags := { s.flags with sacked := true, lost := false, retrans := false, isPartial := false }
    sent := 0 }

/-- `s` is not SACKed yet and lies in `[l, r)`. -/
def Seg.fresh (l r : U32) (s : Seg) : Bool :=
  !s.flags.sacked && decide (seqLe l s.start) && decide (seqLe s.stop r)

/-- Mark the records inside `[l, r)`. -/
def markAll (l r : U32) (t : List Seg) : List Seg :=
  t.map fun s => if s.fresh l r then s.markSacked else s

/-- Whether the records of `t` have `x` SACKed. -/
def sackedAt (t : List Seg) (x : U32) : Bool := (flagsAt t x).any fun fl => fl.sacked

lemma markAll_append (l r : U32) (t₁ t₂ : List Seg) :
    markAll l r (t₁ ++ t₂) = markAll l r t₁ ++ markAll l r t₂ := List.map_append

lemma Seg.fresh_iff {l r : U32} {s : Seg} :
    s.fresh l r = true ↔ s.flags.sacked = false ∧ seqLe l s.start ∧ seqLe s.stop r := by
  simp [Seg.fresh, and_assoc]

/-- Records that are not fresh stay as they are. -/
lemma markAll_eq_self {l r : U32} {t : List Seg} (h : ∀ s ∈ t, s.fresh l r = false) :
    markAll l r t = t := by
  induction t with
  | nil => rfl
  | cons s t ih =>
    rw [markAll, List.map_cons, h s (List.mem_cons_self ..)]
    exact congrArg (s :: ·) (ih fun x hx => h x (List.mem_cons_of_mem _ hx))

lemma byteFlags_markSacked (s : Seg) (x : U32) :
    s.markSacked.byteFlags x = { s.byteFlags x with sacked := true, lost := false, resent := false } :=
  rfl

lemma find_markAll (l r x : U32) (t : List Seg) :
    (markAll l r t).find? (fun s => s.covers x) =
      (t.find? fun s => s.covers x).map fun s => if s.fresh l r then s.markSacked else s := by
  have hcovers : ∀ s : Seg, (if s.fresh l r then s.markSacked else s).covers x = s.covers x := by
    intro s
    split <;> rfl
  rw [markAll, List.find?_map]
  congr 2
  funext s
  exact hcovers s

section Marks

variable {a l r x : U32} {o : ℕ} {s : Seg} {t : List Seg} {room₀ room₁ : Bool}

/-- The SACK marks of a list do not depend on where its records are cut. -/
lemma sackedAt_cutAll (room : Bool) (c x : U32) (h : Laid a o t) (hhalf : o + span t < 2 ^ 31) :
    sackedAt (cutAll room c t) x = sackedAt t x ∧
      (flagsAt (cutAll room c t) x).isSome = (flagsAt t x).isSome := by
  rcases flagsAt_cutAll room c x h hhalf with heq | ⟨s, hs, hx, -, -, hflags⟩
  · rw [sackedAt, sackedAt, heq]
    exact ⟨rfl, rfl⟩
  · rw [sackedAt, sackedAt, hflags, h.flagsAt_eq hs hx]
    exact ⟨rfl, rfl⟩

/-- The records of `t` cut at `l` and at `r`. -/
def cutBoth (room₀ room₁ : Bool) (l r : U32) (t : List Seg) : List Seg :=
  cutAll room₁ r (cutAll room₀ l t)

lemma Laid.cutBoth (room₀ room₁ : Bool) (l r : U32) (h : Laid a 0 t) (hhalf : span t < 2 ^ 31) :
    Laid a 0 (TcpSansIo.cutBoth room₀ room₁ l r t) ∧
      span (TcpSansIo.cutBoth room₀ room₁ l r t) = span t := by
  obtain ⟨h₁, hspan₁⟩ := h.cutAll room₀ l hhalf
  obtain ⟨h₂, hspan₂⟩ := h₁.cutAll room₁ r (by omega)
  exact ⟨h₂, hspan₂.trans hspan₁⟩

lemma sackedAt_cutBoth (room₀ room₁ : Bool) (l r x : U32) (h : Laid a 0 t)
    (hhalf : span t < 2 ^ 31) :
    sackedAt (cutBoth room₀ room₁ l r t) x = sackedAt t x ∧
      (flagsAt (cutBoth room₀ room₁ l r t) x).isSome = (flagsAt t x).isSome := by
  obtain ⟨h₁, hspan₁⟩ := h.cutAll room₀ l hhalf
  obtain ⟨hs₀, hf₀⟩ := sackedAt_cutAll room₀ l x h (by omega)
  obtain ⟨hs₁, hf₁⟩ := sackedAt_cutAll room₁ r x h₁ (by omega)
  exact ⟨hs₁.trans hs₀, hf₁.trans hf₀⟩

/-- A fresh record lies between the edges, as distances. -/
lemma Laid.fresh_iff (h : Laid a 0 t) (hhalf : span t < 2 ^ 31) (hl : (l - a).toNat ≤ span t)
    (hr : (r - a).toNat ≤ span t) (hs : s ∈ t) :
    s.fresh l r = true ↔ s.flags.sacked = false ∧ (l - a).toNat ≤ (s.start - a).toNat ∧
      (s.stop - a).toNat ≤ (r - a).toNat := by
  have hstop := h.stop_le hs
  have hends := h.ends hs
  rw [Seg.fresh_iff, seqLe_offset (a := a) (by omega) (by omega),
    seqLe_offset (a := a) (by omega) (by omega)]

lemma sackedAt_markAll_iff (h : Laid a 0 t) :
    sackedAt (markAll l r t) x = true ↔
      sackedAt t x = true ∨ ∃ s ∈ t, s.covers x = true ∧ s.fresh l r = true := by
  rw [sackedAt, sackedAt, flagsAt, flagsAt, find_markAll]
  cases hfind : t.find? fun s => s.covers x with
  | none =>
    have hnone := List.find?_eq_none.mp hfind
    simp only [Option.map_none, Option.any_none, Bool.false_eq_true, false_or, false_iff]
    rintro ⟨s, hs, hx, -⟩
    exact hnone s hs hx
  | some s =>
    have hmem := List.mem_of_find?_eq_some hfind
    have hx : s.covers x = true := by
      have := List.find?_some hfind
      exact this
    simp only [Option.map_some, Option.any_some]
    constructor
    · intro hsacked
      split at hsacked
      case isTrue hf => exact .inr ⟨s, hmem, hx, hf⟩
      case isFalse => exact .inl hsacked
    · rintro (hsacked | ⟨s', hs', hx', hf⟩)
      · split
        · rfl
        · exact hsacked
      · -- The record that covers `x` is the one found.
        cases hfind.symm.trans (h.find hs' hx')
        rw [if_pos hf]
        rfl

/-- Nothing outside the edges gets marked. -/
lemma sackedAt_marked (h : Laid a 0 t) (hhalf : span t < 2 ^ 31) (hl : (l - a).toNat ≤ span t)
    (hr : (r - a).toNat ≤ span t)
    (hx : sackedAt (markAll l r (cutBoth room₀ room₁ l r t)) x = true) :
    sackedAt t x = true ∨ (l - a).toNat ≤ (x - a).toNat ∧ (x - a).toNat < (r - a).toNat := by
  obtain ⟨hlaid, hspan⟩ := h.cutBoth room₀ room₁ l r hhalf
  rcases (sackedAt_markAll_iff hlaid).mp hx with hold | ⟨s, hs, hcov, hfresh⟩
  · exact .inl ((sackedAt_cutBoth room₀ room₁ l r x h hhalf).1.symm.trans hold)
  · rw [hlaid.fresh_iff (by omega) (by omega) (by omega) hs] at hfresh
    rw [Seg.covers_iff (hlaid.ends hs).1] at hcov
    omega

/-- Neither edge lies inside a record that is not SACKed, once there was room for both cuts. -/
lemma not_inside_cutBoth (h : Laid a 0 t) (hhalf : span t < 2 ^ 31) (hl : (l - a).toNat ≤ span t)
    (hr : (r - a).toNat ≤ span t) (hs : s ∈ cutBoth true true l r t)
    (hfree : s.flags.sacked = false) : ¬ s.Inside l ∧ ¬ s.Inside r := by
  obtain ⟨h₁, hspan₁⟩ := h.cutAll true l hhalf
  -- A record of the list cut at `l` does not have `l` inside.
  have hfirst : ∀ p ∈ cutAll true l t, p.flags.sacked = false → ¬ p.Inside l := by
    intro p hp hpfree
    have hstop := h₁.stop_le hp
    have hends := h₁.ends hp
    rcases mem_cutAll hp with ⟨-, hnot⟩ | ⟨w, hw, hwfree, hwin, hhalf⟩
    · exact fun hin => hnot ⟨rfl, hpfree, hin⟩
    · obtain ⟨⟨h₁, h₂, -⟩, h₃, h₄, -⟩ := splitSeg_shape w l
      rw [Seg.inside_iff (a := a) (by omega) (by omega) hends.1]
      rcases hhalf with rfl | rfl
      · rw [h₂]
        omega
      · rw [h₃]
        omega
  obtain ⟨h₂, hspan₂⟩ := h₁.cutAll true r (by omega)
  have hstop := h₂.stop_le hs
  have hends := h₂.ends hs
  rcases mem_cutAll hs with ⟨hmem, hnot⟩ | ⟨w, hw, hwfree, hwin, hhalves⟩
  · exact ⟨hfirst s hmem hfree, fun hin => hnot ⟨rfl, hfree, hin⟩⟩
  · have hwstop := h₁.stop_le hw
    have hwends := h₁.ends hw
    have hwnot := hfirst w hw hwfree
    rw [Seg.inside_iff (a := a) (by omega) (by omega) hwends.1] at hwin hwnot
    rw [Seg.inside_iff (a := a) (by omega) (by omega) hends.1,
      Seg.inside_iff (a := a) (by omega) (by omega) hends.1]
    obtain ⟨⟨h₁, h₂, -⟩, h₃, h₄, -⟩ := splitSeg_shape w r
    rcases hhalves with rfl | rfl
    · rw [h₁, h₂]
      omega
    · rw [h₃, h₄]
      omega

/-- With room for both cuts, exactly what lies between the edges gets marked. -/
lemma sackedAt_marked_iff (h : Laid a 0 t) (hhalf : span t < 2 ^ 31) (hl : (l - a).toNat ≤ span t)
    (hr : (r - a).toNat ≤ span t) :
    sackedAt (markAll l r (cutBoth true true l r t)) x = true ↔
      sackedAt t x = true ∨ (flagsAt t x).isSome = true ∧
        (l - a).toNat ≤ (x - a).toNat ∧ (x - a).toNat < (r - a).toNat := by
  obtain ⟨hlaid, hspan⟩ := h.cutBoth true true l r hhalf
  obtain ⟨hsacked, hsome⟩ := sackedAt_cutBoth true true l r x h hhalf
  rw [sackedAt_markAll_iff hlaid, hsacked, ← hsome]
  refine or_congr_right' fun hnot => ?_
  constructor
  · rintro ⟨s, hs, hcov, hfresh⟩
    rw [hlaid.flagsAt_eq hs hcov]
    rw [hlaid.fresh_iff (by omega) (by omega) (by omega) hs] at hfresh
    rw [Seg.covers_iff (hlaid.ends hs).1] at hcov
    exact ⟨rfl, by omega, by omega⟩
  · rintro ⟨hcovered, hlx, hxr⟩
    obtain ⟨fl, hfl⟩ := Option.isSome_iff_exists.mp hcovered
    obtain ⟨s, hs, hcov, -⟩ := flagsAt_eq_some hfl
    have hfree : s.flags.sacked = false := by
      rw [← hsacked, sackedAt, hlaid.flagsAt_eq hs hcov] at hnot
      simpa [Seg.byteFlags] using hnot
    obtain ⟨hnl, hnr⟩ := not_inside_cutBoth h hhalf hl hr hs hfree
    have hstop := hlaid.stop_le hs
    have hends := hlaid.ends hs
    rw [Seg.inside_iff (a := a) (by omega) (by omega) hends.1] at hnl hnr
    refine ⟨s, hs, hcov, ?_⟩
    rw [Seg.covers_iff hends.1] at hcov
    rw [hlaid.fresh_iff (by omega) (by omega) (by omega) hs]
    exact ⟨hfree, by omega, by omega⟩

/-- A record between the edges is not cut, and marked unless it already was. -/
lemma mem_marked (h : Laid a 0 t) (hhalf : span t < 2 ^ 31) (hl : (l - a).toNat ≤ span t)
    (hr : (r - a).toNat ≤ span t) (hs : s ∈ t) (hfree : s.flags.sacked = false)
    (hls : (l - a).toNat ≤ (s.start - a).toNat) (hsr : (s.stop - a).toNat ≤ (r - a).toNat) :
    s.markSacked ∈ markAll l r (cutBoth room₀ room₁ l r t) := by
  obtain ⟨hlaid, hspan⟩ := h.cutBoth room₀ room₁ l r hhalf
  have hstop := h.stop_le hs
  have hends := h.ends hs
  have hkept : s ∈ cutBoth room₀ room₁ l r t := by
    refine mem_cutAll_of_not (mem_cutAll_of_not hs ?_) ?_
    all_goals
      rw [Seg.inside_iff (a := a) (by omega) (by omega) hends.1]
      omega
  refine List.mem_map.mpr ⟨s, hkept, if_pos ?_⟩
  rw [hlaid.fresh_iff (by omega) (by omega) (by omega) hkept]
  exact ⟨hfree, hls, hsr⟩

/-! ### The counter and the calls -/

lemma sacked_cutAll (room : Bool) (c : U32) (t : List Seg) :
    (shares (cutAll room c t)).1 = (shares t).1 := by
  induction t with
  | nil => rfl
  | cons s t ih =>
    by_cases hcut : room = true ∧ s.flags.sacked = false ∧ s.Inside c
    · obtain ⟨rfl, hs, hc⟩ := hcut
      obtain ⟨⟨-, -, -, h₁⟩, -, -, -, h₂⟩ := splitSeg_shape s c
      rw [cutAll_cons_of_cut t hs hc]
      simp only [shares_cons, Prod.fst_add, Seg.share, h₁, h₂, hs, ih, Bool.false_eq_true, if_false]
      omega
    · rw [cutAll_cons_of_not t hcut, shares_cons, shares_cons, Prod.fst_add, Prod.fst_add, ih]

/-- Marking adds the lengths of the records marked to the SACKed bytes. -/
lemma sacked_markAll (l r : U32) (t : List Seg) :
    (shares (markAll l r t)).1 = (shares t).1 + span (t.filter fun s => s.fresh l r) := by
  induction t with
  | nil => rfl
  | cons s t ih =>
    rw [markAll, List.map_cons]
    change (shares ((if s.fresh l r then s.markSacked else s) :: markAll l r t)).1 = _
    rw [shares_cons, shares_cons, Prod.fst_add, Prod.fst_add, ih, List.filter_cons]
    by_cases hfresh : s.fresh l r = true
    · have hs := (Seg.fresh_iff.mp hfresh).1
      rw [if_pos hfresh, if_pos hfresh, span_cons]
      simp only [Seg.share, hs, Bool.false_eq_true, if_false]
      change s.seqLen.toNat + _ = _
      omega
    · rw [if_neg hfresh, if_neg hfresh]
      omega

/-- The records marked are those SACKed now whose numbers were not before. -/
lemma filter_markAll (h : Laid a 0 t) (hhalf : span t < 2 ^ 31) :
    (markAll l r (cutBoth room₀ room₁ l r t)).filter
        (fun s => s.flags.sacked && !sackedAt t s.start) =
      ((cutBoth room₀ room₁ l r t).filter fun s => s.fresh l r).map Seg.markSacked := by
  obtain ⟨hlaid, -⟩ := h.cutBoth room₀ room₁ l r hhalf
  have hown : ∀ s ∈ cutBoth room₀ room₁ l r t, sackedAt t s.start = s.flags.sacked := by
    intro s hs
    have hcov : s.covers s.start = true := by
      rw [Seg.covers, decide_eq_true_iff, BitVec.sub_self]
      exact (hlaid.ends hs).2
    rw [← (sackedAt_cutBoth room₀ room₁ l r s.start h hhalf).1, sackedAt, hlaid.flagsAt_eq hs hcov]
    rfl
  rw [markAll, List.filter_map]
  have hsame : ∀ s ∈ cutBoth room₀ room₁ l r t,
      ((fun s : Seg => s.flags.sacked && !sackedAt t s.start) ∘
        fun s => if s.fresh l r then s.markSacked else s) s = s.fresh l r := by
    intro s hs
    by_cases hfresh : s.fresh l r = true
    · have hfree := (Seg.fresh_iff.mp hfresh).1
      have hstart := hown s hs
      rw [Function.comp_apply, if_pos hfresh, hfresh]
      change (true && !sackedAt t s.start) = true
      rw [hstart, hfree]
      rfl
    · rw [Function.comp_apply, if_neg hfresh, hown s hs, Bool.eq_false_iff.mpr hfresh,
        Bool.and_not_self]
  rw [List.filter_congr hsame]
  refine List.map_congr_left fun s hs => ?_
  rw [if_pos (List.mem_filter.mp hs).2]

/-! ### Everything said about a number -/

/-- How what is said about `x` changes when the block `[left, right)` is acknowledged: not at all,
or the number is SACKed now, or it is in the remainder of a record of `t` that was cut. -/
inductive ByteStep (t : List Seg) (left right x : U32) :
    Option ByteFlags → Option ByteFlags → Prop
  | same (fl : Option ByteFlags) : ByteStep t left right x fl fl
  | sacked (fl : ByteFlags) (hfree : fl.sacked = false)
      (hx : (x - left).toNat < (right - left).toNat) :
      ByteStep t left right x (some fl)
        (some { fl with sacked := true, lost := false, resent := false })
  | remainder (s : Seg) (c : U32) (hs : s ∈ t) (hx : s.covers x = true)
      (hc : c = left ∨ c = right) (hrem : s.Remainder c x)
      (hunsent : (s.byteFlags x).resent = false) :
      ByteStep t left right x (some (s.byteFlags x)) (some { s.byteFlags x with lost := true })

/-- A remainder of the upper half of a cut record is one of the record. -/
lemma remainder_of_half {w : Seg} (hends : (w.stop - a).toNat = (w.start - a).toNat + w.seqLen.toNat)
    (hhalf : (w.stop - a).toNat < 2 ^ 31) (hpos : 0 < w.seqLen.toNat) (hin : w.Inside l)
    (hl : (l - a).toNat < (r - a).toNat) (hr : (r - a).toNat < 2 ^ 31)
    (h : (RtxQueue.splitSeg w l).2.Remainder r x) : w.Remainder r x := by
  obtain ⟨-, h₃, h₄, -⟩ := splitSeg_shape w l
  obtain ⟨hpart, hinside, hsent, hx⟩ := h
  have hin' := (Seg.inside_iff (a := a) hhalf (by omega) hends).mp hin
  have hup : (l - a).toNat + (RtxQueue.splitSeg w l).2.seqLen.toNat = (w.stop - a).toNat :=
    ((splitSeg_ends hpos (by omega) hin hends).2.2.2).symm
  have hinside' := (Seg.inside_iff (a := a) (s := (RtxQueue.splitSeg w l).2) (by rw [h₄]; exact hhalf)
    (by omega) (by rw [h₃, h₄]; exact hup.symm)).mp hinside
  rw [h₃, h₄] at hinside'
  rw [h₃] at hsent
  rw [h₄] at hx
  have hfar : (r - w.start).toNat = (l - w.start).toNat + (r - l).toNat := by
    rw [toNat_sub_offset (a := a) (p := w.start) (x := r) (by omega), toNat_sub_offset hin'.1.le,
      toNat_sub_offset hl.le]
    omega
  refine ⟨?_, (Seg.inside_iff (a := a) hhalf (by omega) hends).mpr (by omega), ?_, hx⟩
  · by_contra hw
    simp [RtxQueue.splitSeg, hw] at hpart
  · rw [hfar]
    by_cases hw : w.flags.isPartial = true
    · unfold RtxQueue.splitSeg at hpart hsent
      dsimp only at hpart hsent
      rw [if_pos hw] at hpart hsent
      dsimp only at hpart hsent
      split at hsent
      case isTrue hreach =>
        have hsent' := toNat_sent w
        rw [toNat_rest _ _ hreach.le (by rw [hsent']; exact w.sent.isLt), hsent'] at hsent
        omega
      case isFalse hreach =>
        rw [dif_neg hreach] at hpart
        cases hpart
    · simp [RtxQueue.splitSeg, hw] at hpart

/-- The two cuts together. -/
lemma flagsAt_cutBoth (room₀ room₁ : Bool) (x : U32) (h : Laid a 0 t) (hhalf : span t < 2 ^ 31)
    (hl : (l - a).toNat ≤ (r - a).toNat) (hr : (r - a).toNat ≤ span t) :
    flagsAt (cutBoth room₀ room₁ l r t) x = flagsAt t x ∨
      ∃ s ∈ t, ∃ c, (c = l ∨ c = r) ∧ s.covers x = true ∧ s.Remainder c x ∧
        (s.byteFlags x).resent = false ∧
        flagsAt (cutBoth room₀ room₁ l r t) x = some { s.byteFlags x with lost := true } := by
  obtain ⟨h₁, hspan₁⟩ := h.cutAll room₀ l hhalf
  rcases flagsAt_cutAll room₀ l x h (by omega) with hsame | ⟨s, hs, hx, hrem, hunsent, hflags⟩
  · rcases flagsAt_cutAll room₁ r x h₁ (by omega) with hsame₁ | ⟨s₁, hs₁, hx₁, hrem₁, hunsent₁, hflags₁⟩
    · exact .inl (hsame₁.trans hsame)
    · right
      rw [cutBoth, hflags₁]
      rw [h₁.flagsAt_eq hs₁ hx₁] at hsame
      rcases mem_cutAll hs₁ with ⟨hmem, -⟩ | ⟨w, hw, hfree, hin, hhalves⟩
      · exact ⟨s₁, hmem, r, .inr rfl, hx₁, hrem₁, hunsent₁, rfl⟩
      · have hstop := h.stop_le hw
        have hends := h.ends hw
        have hin' := (Seg.inside_iff (a := a) (by omega) (by omega) hends.1).mp hin
        have hends₁ := h₁.ends hs₁
        have hstop₁ := h₁.stop_le hs₁
        have hin₁ := (Seg.inside_iff (a := a) (by omega) (by omega) hends₁.1).mp hrem₁.2.1
        have hcov₁ := (Seg.covers_iff hends₁.1).mp hx₁
        obtain ⟨⟨e₁, e₂, -⟩, e₃, e₄, -⟩ := splitSeg_shape w l
        rcases hhalves with rfl | rfl
        · rw [e₂] at hin₁
          omega
        · rw [e₃, e₄] at hcov₁
          rw [e₃] at hin₁
          have hx : w.covers x = true := (Seg.covers_iff hends.1).mpr (by omega)
          rw [h.flagsAt_eq hw hx] at hsame
          rw [Option.some.inj hsame] at hunsent₁ ⊢
          exact ⟨w, hw, r, .inr rfl, hx, remainder_of_half hends.1 (by omega) hends.2 hin hin₁.1
            (by omega) hrem₁, hunsent₁, rfl⟩
  · refine .inr ⟨s, hs, l, .inl rfl, hx, hrem, hunsent, ?_⟩
    rcases flagsAt_cutAll room₁ r x h₁ (by omega) with hsame₁ | ⟨s₁, hs₁, hx₁, -, -, hflags₁⟩
    · exact hsame₁.trans hflags
    · rw [h₁.flagsAt_eq hs₁ hx₁] at hflags
      rw [cutBoth, hflags₁, Option.some.inj hflags]

/-- Cutting at the edges of a block and marking what lies between them. -/
lemma byteStep_marked {left right : U32} (h : Laid a 0 t) (hhalf : span t < 2 ^ 31)
    (hl : (l - a).toNat ≤ (r - a).toNat) (hr : (r - a).toNat ≤ span t)
    (hleft : l = left ∨ ∀ s ∈ t, ¬ s.Inside l) (hright : r = right ∨ ∀ s ∈ t, ¬ s.Inside r)
    (hblock : ∀ x, (l - a).toNat ≤ (x - a).toNat → (x - a).toNat < (r - a).toNat →
      (x - left).toNat < (right - left).toNat) :
    ByteStep t left right x (flagsAt t x) (flagsAt (markAll l r (cutBoth room₀ room₁ l r t)) x) := by
  obtain ⟨hlaid, hspan⟩ := h.cutBoth room₀ room₁ l r hhalf
  have hcuts := flagsAt_cutBoth room₀ room₁ x h hhalf hl hr
  have hfind := find_markAll l r x (cutBoth room₀ room₁ l r t)
  cases hold : (cutBoth room₀ room₁ l r t).find? fun s => s.covers x with
  | none =>
    have hnone : flagsAt (cutBoth room₀ room₁ l r t) x = none := by rw [flagsAt, hold]; rfl
    rw [hnone] at hcuts
    rcases hcuts with hsame | ⟨_, _, _, _, _, _, _, hflags⟩
    · rw [← hsame, flagsAt, hfind, hold]
      exact .same none
    · cases hflags
  | some s =>
    have hs := List.mem_of_find?_eq_some hold
    have hx : s.covers x = true := by
      have hfound := List.find?_some hold
      exact hfound
    have hsome : flagsAt (cutBoth room₀ room₁ l r t) x = some (s.byteFlags x) := by
      rw [flagsAt, hold]
      rfl
    have hnew : flagsAt (markAll l r (cutBoth room₀ room₁ l r t)) x =
        some ((if s.fresh l r then s.markSacked else s).byteFlags x) := by
      rw [flagsAt, hfind, hold]
      rfl
    rw [hsome] at hcuts
    rw [hnew]
    by_cases hfresh : s.fresh l r = true
    · -- The number is SACKed now; what a cut said about its loss no longer matters.
      rw [if_pos hfresh, byteFlags_markSacked]
      have hfree := (Seg.fresh_iff.mp hfresh).1
      have hin : (x - left).toNat < (right - left).toNat := by
        rw [hlaid.fresh_iff (by omega) (by omega) (by omega) hs] at hfresh
        have hcov := (Seg.covers_iff (hlaid.ends hs).1).mp hx
        exact hblock x (by omega) (by omega)
      rcases hcuts with hsame | ⟨s', hs', c, hc, hx', hrem, hunsent, hflags⟩
      · rw [← hsame]
        exact .sacked (s.byteFlags x) hfree hin
      · rw [h.flagsAt_eq hs' hx', Option.some.inj hflags]
        have hfree' : (s'.byteFlags x).sacked = false := by
          have hsacked := congrArg ByteFlags.sacked (Option.some.inj hflags)
          exact hsacked.symm.trans hfree
        exact .sacked (s'.byteFlags x) hfree' hin
    · rw [if_neg hfresh]
      rcases hcuts with hsame | ⟨s', hs', c, hc, hx', hrem, hunsent, hflags⟩
      · rw [← hsame]
        exact .same _
      · rw [hflags, h.flagsAt_eq hs' hx']
        refine .remainder s' c hs' hx' ?_ hrem hunsent
        rcases hc with rfl | rfl
        · exact .inl (hleft.resolve_right fun hno => hno s' hs' hrem.2.1)
        · exact .inr (hright.resolve_right fun hno => hno s' hs' hrem.2.1)

end Marks

end TcpSansIo
