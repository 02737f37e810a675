import TcpSansIo.Core.Intervals
import TcpSansIo.Ooo

/-!
# The out-of-order list is a set

Seen from `RCV.NXT`, a valid list is a sorted list of intervals of offsets (`debugValid_iff`), so what
`insert` and `advance` do to the sequence numbers held is what adding an interval, and taking off the
front, do to such a list.
-/

namespace TcpSansIo

open Intervals

/-- A range of sequence numbers, by the offsets of its ends. -/
lemma seqInRange_iff_off {b p q : U32} (h : off p b ≤ off q b) (x : U32) :
    seqInRange x p q ↔ off p b ≤ off x b ∧ off x b < off q b := by
  unfold off at *
  have hlen := toNat_sub_offset h
  have hx := toNat_sub_cases b p x
  have hbits := (q - b).isLt
  unfold seqInRange
  omega

/-- The offset of a range's first number. -/
abbrev Range.lo (b : U32) (r : Range) : ℕ := off r.start b

/-- The offset of the number behind a range. -/
abbrev Range.hi (b : U32) (r : Range) : ℕ := off r.stop b

namespace OooList

variable {MAX : ℕ} {l : OooList MAX} {start stop rcvNxt : U32}

/-- The sequence numbers held. -/
def Holds (l : OooList MAX) (x : U32) : Prop := ∃ r ∈ l.ranges, seqInRange x r.start r.stop

/-! ## Validity -/

/-- Seen from `rcvNxt`: sorted intervals of offsets, the last of which ends within half the space. -/
structure Valid (l : List Range) (rcvNxt : U32) (p : ℕ) : Prop where
  spaced : Spaced (Range.lo rcvNxt) (Range.hi rcvNxt) p l
  bounded : ∀ r ∈ l, off r.stop rcvNxt ≤ 2 ^ 31 - 1

lemma validFrom_iff (rcvNxt : U32) (prev : Option ℕ) (l : List Range) :
    validFrom rcvNxt prev l = true ↔ Valid l rcvNxt (prev.getD 0) := by
  induction l generalizing prev with
  | nil => exact ⟨fun _ => ⟨.nil _, nofun⟩, fun _ => rfl⟩
  | cons r l ih =>
    rw [validFrom]
    constructor
    · intro h
      split at h
      · cases h
      case isFalse hends =>
        split at h
        · cases h
        case isFalse hprev =>
          obtain ⟨hspaced, hbounded⟩ := (ih _).mp h
          have habove : prev.getD 0 < off r.start rcvNxt := by
            cases prev with
            | none =>
              change 0 < _
              omega
            | some p => simpa using hprev
          have hne : off r.start rcvNxt < off r.stop rcvNxt := by omega
          refine ⟨Spaced.cons_iff.mpr ⟨habove, hne, hspaced⟩, fun x hx => ?_⟩
          rcases List.mem_cons.mp hx with rfl | hx
          · omega
          · exact hbounded x hx
    · rintro ⟨hspaced, hbounded⟩
      obtain ⟨habove, hne, htail⟩ := Spaced.cons_iff.mp hspaced
      have hr := hbounded r (List.mem_cons_self ..)
      dsimp only [Range.lo, Range.hi] at habove hne
      rw [if_neg (by omega), if_neg]
      · exact (ih _).mpr ⟨htail, fun x hx => hbounded x (List.mem_cons_of_mem _ hx)⟩
      · cases prev with
        | none => simp
        | some p => simpa using habove

lemma debugValid_iff : l.debugValid rcvNxt = true ↔ Valid l.ranges rcvNxt 0 :=
  validFrom_iff rcvNxt none l.ranges

lemma Valid.holds_iff {ranges : List Range} {p : ℕ} (h : Valid ranges rcvNxt p) (x : U32) :
    (∃ r ∈ ranges, seqInRange x r.start r.stop) ↔
      off x rcvNxt ∈ held (Range.lo rcvNxt) (Range.hi rcvNxt) ranges := by
  have hiff : ∀ r ∈ ranges, (seqInRange x r.start r.stop ↔
      off r.start rcvNxt ≤ off x rcvNxt ∧ off x rcvNxt < off r.stop rcvNxt) :=
    fun r hr => seqInRange_iff_off (h.spaced.nonempty r hr).le x
  constructor
  · rintro ⟨r, hr, hx⟩
    exact ⟨r, hr, (hiff r hr).mp hx⟩
  · rintro ⟨r, hr, hx⟩
    exact ⟨r, hr, (hiff r hr).mpr hx⟩

/-! ## Insertion -/

/-- What `insert` does to the list: `mid` are the ranges it touches, and the range that takes their
place carries the next stamp. -/
structure Inserted (l : OooList MAX) (start stop rcvNxt : U32) (A mid C : List Range) : Prop where
  ranges : l.ranges = A ++ mid ++ C
  before : A = l.ranges.takeWhile fun r => off r.stop rcvNxt < off start rcvNxt
  touched : mid = (l.ranges.dropWhile fun r => off r.stop rcvNxt < off start rcvNxt).takeWhile
    fun r => off r.start rcvNxt ≤ off stop rcvNxt
  behind : C = (l.ranges.dropWhile fun r => off r.stop rcvNxt < off start rcvNxt).dropWhile
    fun r => off r.start rcvNxt ≤ off stop rcvNxt
  index : l.touched (off start rcvNxt) (off stop rcvNxt) rcvNxt = (A.length, A.length + mid.length)
  stamp : (l.insert start stop rcvNxt).2.nextTag = l.nextTag + 1
  result : (mid = [] ∧ MAX ≤ l.ranges.length ∧ (l.insert start stop rcvNxt).1 = .full ∧
      (l.insert start stop rcvNxt).2.ranges = l.ranges) ∨
    (mid = [] ∧ l.ranges.length < MAX ∧ (l.insert start stop rcvNxt).1 = .stored false ∧
      (l.insert start stop rcvNxt).2.ranges = A ++ ⟨start, stop, l.nextTag⟩ :: C) ∨
    ∃ first last, mid.head? = some first ∧ mid.getLast? = some last ∧
      (l.insert start stop rcvNxt).1 = .stored (mid.length == 1 &&
        decide (off first.start rcvNxt ≤ off start rcvNxt) &&
        decide (off stop rcvNxt ≤ off first.stop rcvNxt)) ∧
      (l.insert start stop rcvNxt).2.ranges =
        A ++ merged first last start stop rcvNxt l.nextTag :: C

lemma insert_spec (hs : 0 < off start rcvNxt) (hse : off start rcvNxt < off stop rcvNxt) :
    ∃ A mid C, Inserted l start stop rcvNxt A mid C := by
  generalize hA : (l.ranges.takeWhile fun r => off r.stop rcvNxt < off start rcvNxt) = A
  generalize hrest : (l.ranges.dropWhile fun r => off r.stop rcvNxt < off start rcvNxt) = rest
  generalize hmid : (rest.takeWhile fun r => off r.start rcvNxt ≤ off stop rcvNxt) = mid
  generalize hC : (rest.dropWhile fun r => off r.start rcvNxt ≤ off stop rcvNxt) = C
  have hsplit : l.ranges = A ++ rest := by
    rw [← hA, ← hrest, List.takeWhile_append_dropWhile]
  have hsplit' : rest = mid ++ C := by
    rw [← hmid, ← hC, List.takeWhile_append_dropWhile]
  have hranges : l.ranges = A ++ mid ++ C := by rw [hsplit, hsplit', List.append_assoc]
  have hlo : (l.touched (off start rcvNxt) (off stop rcvNxt) rcvNxt).1 = A.length := by
    rw [OooList.touched, partitionPoint, hA]
  have hhi : (l.touched (off start rcvNxt) (off stop rcvNxt) rcvNxt).2 = A.length + mid.length := by
    rw [OooList.touched]
    dsimp only
    rw [partitionPoint, partitionPoint, hA, hsplit, List.drop_left, hmid]
  refine ⟨A, mid, C, hranges, hA.symm, by rw [hrest, hmid], by rw [hrest, hC], Prod.ext hlo hhi, ?_, ?_⟩
  · unfold OooList.insert
    rw [if_neg (by omega)]
    dsimp only
    split
    · split <;> rfl
    · split <;> rfl
  · have htake : l.ranges.take A.length = A := by rw [hsplit, List.take_left]
    unfold OooList.insert
    rw [if_neg (by omega)]
    dsimp only
    split
    case isTrue hdisj =>
      have hnil : mid = [] := by
        rw [hlo, hhi] at hdisj
        exact List.eq_nil_of_length_eq_zero (by omega)
      have hdrop : l.ranges.drop A.length = C := by
        rw [hsplit, List.drop_left, hsplit', hnil, List.nil_append]
      split
      case isTrue hroom =>
        refine .inr (.inl ⟨hnil, hroom, rfl, ?_⟩)
        dsimp only
        rw [hlo, htake, hdrop]
      case isFalse hfull => exact .inl ⟨hnil, by omega, rfl, rfl⟩
    case isFalse hmeets =>
      have hpos : 0 < mid.length := by omega
      have hnil : mid ≠ [] := List.length_pos_iff.mp hpos
      obtain ⟨first, hfirst⟩ : ∃ first, mid.head? = some first :=
        ⟨mid.head hnil, List.head?_eq_some_head hnil⟩
      obtain ⟨last, hlast⟩ : ∃ last, mid.getLast? = some last :=
        ⟨mid.getLast hnil, List.getLast?_eq_some_getLast hnil⟩
      have hget₁ : l.ranges[(l.touched (off start rcvNxt) (off stop rcvNxt) rcvNxt).1]? =
          some first := by
        rw [hlo, hsplit, hsplit', List.getElem?_append_right (le_refl _), Nat.sub_self,
          List.getElem?_append_left hpos, ← List.head?_eq_getElem?, hfirst]
      have hget₂ : l.ranges[(l.touched (off start rcvNxt) (off stop rcvNxt) rcvNxt).2 - 1]? =
          some last := by
        rw [hhi, hsplit, hsplit', List.getElem?_append_right (by omega),
          List.getElem?_append_left (by omega), Nat.add_sub_assoc hpos, Nat.add_sub_cancel_left,
          ← List.getLast?_eq_getElem?, hlast]
      have hdrop : l.ranges.drop (A.length + mid.length) = C := by
        rw [hranges, ← List.length_append, List.drop_left]
      rw [hget₁, hget₂]
      refine .inr (.inr ⟨first, last, hfirst, hlast, ?_, ?_⟩)
      · dsimp only
        rw [hlo, hhi, Nat.add_sub_cancel_left]
      · dsimp only
        rw [hlo, hhi, htake, hdrop]

lemma off_merged (first last : Range) (start stop rcvNxt tag : U32) :
    off (merged first last start stop rcvNxt tag).start rcvNxt =
        min (off first.start rcvNxt) (off start rcvNxt) ∧
      off (merged first last start stop rcvNxt tag).stop rcvNxt =
        max (off last.stop rcvNxt) (off stop rcvNxt) := by
  rw [merged]
  dsimp only
  constructor
  · split <;> omega
  · split <;> omega

/-- A new range is the hull of itself. -/
lemma hull_new (start stop rcvNxt tag : U32) :
    Hull (Range.lo rcvNxt) (Range.hi rcvNxt) (off start rcvNxt) (off stop rcvNxt) []
      ⟨start, stop, tag⟩ :=
  ⟨le_refl _, le_refl _, .inl rfl, .inl rfl, nofun⟩

/-- The merged range is the hull of the ranges touched and the new one. -/
lemma hull_merged {mid : List Range} {first last : Range} {p : ℕ}
    (h : Spaced (Range.lo rcvNxt) (Range.hi rcvNxt) p mid)
    (hfirst : mid.head? = some first) (hlast : mid.getLast? = some last) (start stop tag : U32) :
    Hull (Range.lo rcvNxt) (Range.hi rcvNxt) (off start rcvNxt)
      (off stop rcvNxt) mid (merged first last start stop rcvNxt tag) := by
  obtain ⟨hlo, hhi⟩ := off_merged first last start stop rcvNxt tag
  have hmem₁ : first ∈ mid := List.mem_of_mem_head? hfirst
  have hmem₂ : last ∈ mid := List.mem_of_getLast? hlast
  -- No range begins before the first, and none ends behind the last.
  have hends : ∀ r ∈ mid, off first.start rcvNxt ≤ off r.start rcvNxt ∧
      off r.stop rcvNxt ≤ off last.stop rcvNxt := by
    intro r hr
    constructor
    · obtain ⟨tail, rfl⟩ := List.head?_eq_some_iff.mp hfirst
      rcases List.mem_cons.mp hr with rfl | hr
      · exact le_refl _
      · have h₁ := h.tail.above r hr
        have h₂ := h.nonempty first (List.mem_cons_self ..)
        dsimp only [Range.lo, Range.hi] at h₁ h₂
        omega
    · obtain ⟨init, rfl⟩ := List.getLast?_eq_some_iff.mp hlast
      rcases List.mem_append.mp hr with hr | hr
      · have h₁ := h.around.1 r hr
        have h₂ := h.nonempty last (by simp)
        dsimp only [Range.lo, Range.hi] at h₁ h₂
        omega
      · rw [List.mem_singleton.mp hr]
  refine ⟨hlo.trans_le (min_le_right _ _), hhi.ge.trans' (le_max_right _ _), ?_, ?_, fun r hr => ?_⟩
  · rcases le_total (off first.start rcvNxt) (off start rcvNxt) with hle | hle
    · exact .inr ⟨first, hmem₁, hlo.trans (min_eq_left hle)⟩
    · exact .inl (hlo.trans (min_eq_right hle))
  · rcases le_total (off stop rcvNxt) (off last.stop rcvNxt) with hle | hle
    · exact .inr ⟨last, hmem₂, hhi.trans (max_eq_left hle)⟩
    · exact .inl (hhi.trans (max_eq_right hle))
  · have hr := hends r hr
    dsimp only [Range.lo, Range.hi]
    omega

/-- The ranges after an insertion that found room. -/
lemma Valid.replace {A mid C : List Range} {m : Range} (h : Valid (A ++ mid ++ C) rcvNxt 0)
    (ha : Around (Range.lo rcvNxt) (Range.hi rcvNxt) (off start rcvNxt)
      (off stop rcvNxt) A mid C)
    (hm : Hull (Range.lo rcvNxt) (Range.hi rcvNxt) (off start rcvNxt)
      (off stop rcvNxt) mid m)
    (hs : 0 < off start rcvNxt) (hse : off start rcvNxt < off stop rcvNxt)
    (hhi : off stop rcvNxt ≤ 2 ^ 31 - 1) :
    Valid (A ++ m :: C) rcvNxt 0 ∧ ∀ x, (∃ r ∈ A ++ m :: C, seqInRange x r.start r.stop) ↔
      (∃ r ∈ A ++ mid ++ C, seqInRange x r.start r.stop) ∨ seqInRange x start stop := by
  have hvalid : Valid (A ++ m :: C) rcvNxt 0 := by
    refine ⟨h.spaced.replace ha hm hs hse, fun r hr => ?_⟩
    rcases List.mem_append.mp hr with hr | hr
    · exact h.bounded r (List.mem_append_left _ (List.mem_append_left _ hr))
    · rcases List.mem_cons.mp hr with rfl | hr
      · rcases hm.hi_cases with heq | ⟨x, hx, heq⟩
        · change off r.stop rcvNxt = _ at heq
          omega
        · change off r.stop rcvNxt = _ at heq
          rw [heq]
          exact h.bounded x (List.mem_append_left _ (List.mem_append_right _ hx))
      · exact h.bounded r (List.mem_append_right _ hr)
  refine ⟨hvalid, fun x => ?_⟩
  rw [hvalid.holds_iff, h.holds_iff, held_replace ha.touched hm, seqInRange_iff_off hse.le]
  rfl

/-- An insertion leaves the list spaced, wherever its ranges lie; no end appears that was not an end
before or of the new range. -/
structure Spread (l : OooList MAX) (start stop rcvNxt : U32) : Prop where
  spaced : Spaced (Range.lo rcvNxt) (Range.hi rcvNxt) 0 (l.insert start stop rcvNxt).2.ranges
  ends : ∀ r ∈ (l.insert start stop rcvNxt).2.ranges,
    (off r.start rcvNxt = off start rcvNxt ∨ ∃ r' ∈ l.ranges, off r.start rcvNxt = off r'.start rcvNxt) ∧
    (off r.stop rcvNxt = off stop rcvNxt ∨ ∃ r' ∈ l.ranges, off r.stop rcvNxt = off r'.stop rcvNxt)
  held : (l.insert start stop rcvNxt).1 = .full ∧ (l.insert start stop rcvNxt).2.ranges = l.ranges ∨
    (∃ dup, (l.insert start stop rcvNxt).1 = .stored dup) ∧
      held (Range.lo rcvNxt) (Range.hi rcvNxt) (l.insert start stop rcvNxt).2.ranges =
        held (Range.lo rcvNxt) (Range.hi rcvNxt) l.ranges ∪
          Set.Ico (off start rcvNxt) (off stop rcvNxt)

lemma insert_spread (h : Spaced (Range.lo rcvNxt) (Range.hi rcvNxt) 0 l.ranges)
    (hs : 0 < off start rcvNxt) (hse : off start rcvNxt < off stop rcvNxt) :
    Spread l start stop rcvNxt := by
  obtain ⟨A, mid, C, hins⟩ := insert_spec (l := l) hs hse
  have ha : Around (Range.lo rcvNxt) (Range.hi rcvNxt) (off start rcvNxt) (off stop rcvNxt) A mid C := by
    rw [hins.before, hins.touched, hins.behind]
    exact h.around_takeWhile _ _
  have hsplit : Spaced (Range.lo rcvNxt) (Range.hi rcvNxt) 0 (A ++ mid ++ C) := hins.ranges ▸ h
  have hold : ∀ r ∈ l.ranges, (off r.start rcvNxt = off start rcvNxt ∨
      ∃ r' ∈ l.ranges, off r.start rcvNxt = off r'.start rcvNxt) ∧
      (off r.stop rcvNxt = off stop rcvNxt ∨ ∃ r' ∈ l.ranges, off r.stop rcvNxt = off r'.stop rcvNxt) :=
    fun r hr => ⟨.inr ⟨r, hr, rfl⟩, .inr ⟨r, hr, rfl⟩⟩
  -- An insertion that found room, given the hull that it put in place.
  have hstored : ∀ (d : Bool) (m : Range), (l.insert start stop rcvNxt).1 = .stored d →
      (l.insert start stop rcvNxt).2.ranges = A ++ m :: C →
      Hull (Range.lo rcvNxt) (Range.hi rcvNxt) (off start rcvNxt) (off stop rcvNxt) mid m →
      Spread l start stop rcvNxt := by
    intro d m hres hnew hm
    have hsub : ∀ r ∈ mid, r ∈ l.ranges := by
      intro r hr
      rw [hins.ranges]
      exact List.mem_append_left _ (List.mem_append_right _ hr)
    refine ⟨hnew ▸ hsplit.replace ha hm hs hse, fun r hr => ?_, .inr ⟨⟨d, hres⟩, ?_⟩⟩
    · rw [hnew] at hr
      rcases List.mem_append.mp hr with hr | hr
      · refine hold r ?_
        rw [hins.ranges]
        exact List.mem_append_left _ (List.mem_append_left _ hr)
      rcases List.mem_cons.mp hr with rfl | hr
      · exact ⟨hm.lo_cases.imp_right fun ⟨x, hx, heq⟩ => ⟨x, hsub x hx, heq⟩,
          hm.hi_cases.imp_right fun ⟨x, hx, heq⟩ => ⟨x, hsub x hx, heq⟩⟩
      · refine hold r ?_
        rw [hins.ranges]
        exact List.mem_append_right _ hr
    · rw [hnew, held_replace ha.touched hm, ← hins.ranges]
  rcases hins.result with ⟨-, -, hres, hsame⟩ | ⟨hnil, -, hres, hnew⟩ |
    ⟨first, last, hfirst, hlast, hres, hnew⟩
  · exact ⟨hsame ▸ h, fun r hr => hold r (hsame ▸ hr), .inl ⟨hres, hsame⟩⟩
  · exact hstored false _ hres hnew (hnil ▸ hull_new ..)
  · exact hstored _ _ hres hnew (hull_merged hsplit.of_append_left.of_append_right hfirst hlast ..)

/-! ## Advancing -/

lemma absorb_cons (nxt : U32) (r : Range) (rest : List Range) :
    absorb nxt (r :: rest) =
      if seqLe r.start nxt then absorb (if seqGt r.stop nxt then r.stop else nxt) rest
      else (nxt, r :: rest) := rfl

/-- Nothing is taken off the front by a number below all ranges. -/
lemma absorb_of_le {b nxt : U32} {ranges : List Range} {p : ℕ}
    (h : Spaced (Range.lo b) (Range.hi b) p ranges) (hnear : ∀ r ∈ ranges, off r.start b < 2 ^ 31)
    (hn : off nxt b ≤ p) : absorb nxt ranges = (nxt, ranges) := by
  cases ranges with
  | nil => rfl
  | cons r rest =>
    have h₁ := h.above r (List.mem_cons_self ..)
    have h₂ := hnear r (List.mem_cons_self ..)
    have hnot : ¬ seqLe r.start nxt := by
      have hdiff := toNat_sub_cases b nxt r.start
      rw [seqLe_iff]
      dsimp only [Range.lo, off] at h₁ h₂ hn
      omega
    rw [absorb_cons, if_neg hnot]

/-- What is taken off the front, when all ranges begin within half the space: `RCV.NXT` moves over held
numbers only, by less than half the space, and ranges above it are left. -/
lemma absorb_sound {b nxt : U32} {ranges : List Range} {p : ℕ}
    (h : Spaced (Range.lo b) (Range.hi b) p ranges) (hnear : ∀ r ∈ ranges, off r.start b < 2 ^ 31)
    (hn : off nxt b < 2 ^ 31) :
    off nxt b ≤ off (absorb nxt ranges).1 b ∧
    off (absorb nxt ranges).1 b < off nxt b + 2 ^ 31 ∧
    Set.Ico (off nxt b) (off (absorb nxt ranges).1 b) ⊆ held (Range.lo b) (Range.hi b) ranges ∧
    Spaced (Range.lo b) (Range.hi b) (off (absorb nxt ranges).1 b) (absorb nxt ranges).2 := by
  induction ranges generalizing p with
  | nil => exact ⟨le_refl _, by simp [absorb], by simp [absorb], .nil _⟩
  | cons r rest ih =>
    obtain ⟨hp, hne, htail⟩ := Spaced.cons_iff.mp h
    have hrest : ∀ r ∈ rest, off r.start b < 2 ^ 31 := fun x hx => hnear x (List.mem_cons_of_mem _ hx)
    have hstart := hnear r (List.mem_cons_self ..)
    have hle : seqLe r.start nxt ↔ off r.start b ≤ off nxt b := seqLe_offset hstart hn
    rw [absorb_cons]
    by_cases hreach : seqLe r.start nxt
    · rw [if_pos hreach]
      rw [hle] at hreach
      have hstop := toNat_sub_cases b nxt r.stop
      dsimp only [off, Range.lo, Range.hi] at hn hne hreach hstart
      split
      case isTrue hadv =>
        rw [seqGt_iff] at hadv
        rw [absorb_of_le htail hrest (le_refl _)]
        refine ⟨by dsimp only [off]; omega, by dsimp only [off]; omega, fun x hx => ?_, htail⟩
        have h₁ : off nxt b ≤ x := hx.1
        have h₂ : x < off r.stop b := hx.2
        rw [held_cons]
        left
        dsimp only [off] at h₁ h₂
        exact ⟨by dsimp only [Range.lo, off]; omega, h₂⟩
      case isFalse hstay =>
        obtain ⟨h₁, h₂, h₃, h₄⟩ := ih htail hrest
        refine ⟨h₁, h₂, fun x hx => ?_, h₄⟩
        rw [held_cons]
        exact .inr (h₃ hx)
    · rw [if_neg hreach]
      rw [hle] at hreach
      refine ⟨le_refl _, ?_, by simp, Spaced.cons_iff.mpr ⟨?_, hne, htail⟩⟩
      · dsimp only
        omega
      · dsimp only [Range.lo]
        omega

lemma absorb_eq_consume {b nxt : U32} {ranges : List Range} (hn : off nxt b ≤ 2 ^ 31 - 1)
    (h : ∀ r ∈ ranges, off r.start b < off r.stop b ∧ off r.stop b ≤ 2 ^ 31 - 1) :
    off (absorb nxt ranges).1 b =
        (consume (Range.lo b) (Range.hi b) (off nxt b) ranges).1 ∧
      (absorb nxt ranges).2 =
        (consume (Range.lo b) (Range.hi b) (off nxt b) ranges).2 := by
  induction ranges generalizing nxt with
  | nil => exact ⟨rfl, rfl⟩
  | cons r ranges ih =>
    obtain ⟨hne, hr⟩ := h r (List.mem_cons_self ..)
    have hrest : ∀ r ∈ ranges, off r.start b < off r.stop b ∧ off r.stop b ≤ 2 ^ 31 - 1 :=
      fun x hx => h x (List.mem_cons_of_mem _ hx)
    unfold off at hn hne hr
    have hle : (r.start - nxt).toInt ≤ 0 ↔ off r.start b ≤ off nxt b :=
      seqLe_offset (x := r.start) (y := nxt) (a := b) (by omega) (by omega)
    have hgt : 0 < (r.stop - nxt).toInt ↔ off nxt b < off r.stop b :=
      seqGt_offset (x := r.stop) (y := nxt) (a := b) (by omega) (by omega)
    rw [absorb, consume]
    simp only [hle, hgt]
    split
    · have hstep : (if off nxt b < off r.stop b then off r.stop b else off nxt b) =
          off (if off nxt b < off r.stop b then r.stop else nxt) b := by
        split <;> rfl
      rw [hstep]
      refine ih ?_ hrest
      split <;> assumption
    · exact ⟨rfl, rfl⟩

lemma absorb_suffix (nxt : U32) (ranges : List Range) : (absorb nxt ranges).2 <:+ ranges := by
  induction ranges generalizing nxt with
  | nil => exact List.suffix_refl _
  | cons r ranges ih =>
    rw [absorb]
    split
    · exact (ih _).trans (List.suffix_cons r ranges)
    · exact List.suffix_refl _

/-- The ends of ranges above `p`, seen from further on. -/
lemma off_rebase {ranges : List Range} {b n : U32} {p : ℕ}
    (h : Spaced (Range.lo b) (Range.hi b) p ranges) (hn : off n b ≤ p) {r : Range} (hr : r ∈ ranges) :
    off r.start n = off r.start b - off n b ∧ off r.stop n = off r.stop b - off n b := by
  have h₁ := h.above r hr
  have h₂ := h.nonempty r hr
  dsimp only [Range.lo, Range.hi] at h₁ h₂
  have hoff : ∀ x : U32, off n b ≤ off x b → off x n = off x b - off n b :=
    fun x hx => toNat_sub_offset hx
  exact ⟨hoff _ (by omega), hoff _ (by omega)⟩

/-- Ranges above `p`, seen from further on. -/
lemma spaced_rebase {ranges : List Range} {b n : U32} {p : ℕ}
    (h : Spaced (Range.lo b) (Range.hi b) p ranges) (hn : off n b ≤ p) :
    Spaced (Range.lo n) (Range.hi n) 0 ranges := by
  have hends : ∀ r ∈ ranges, off r.start n = off r.start b - off n b ∧
      off r.stop n = off r.stop b - off n b := fun r hr => off_rebase h hn hr
  refine ⟨fun r hr => ?_, fun r hr => ?_, ?_⟩
  · have h₁ := h.above r hr
    have h₂ := hends r hr
    dsimp only [Range.lo] at h₁ ⊢
    omega
  · have h₁ := h.above r hr
    have h₂ := h.nonempty r hr
    have h₃ := hends r hr
    dsimp only [Range.lo, Range.hi] at h₁ h₂ ⊢
    omega
  · refine List.Pairwise.imp_of_mem (fun {r r'} hr hr' hlt => ?_) h.apart
    have h₁ := h.above r hr
    have h₂ := h.nonempty r hr
    have h₃ := hends r hr
    have h₄ := hends r' hr'
    dsimp only [Range.lo, Range.hi] at h₁ h₂ hlt ⊢
    omega

/-- Seen from further on. -/
lemma Valid.rebase {ranges : List Range} {b n : U32} (h : Valid ranges b (off n b)) :
    Valid ranges n 0 := by
  refine ⟨spaced_rebase h.spaced (le_refl _), fun r hr => ?_⟩
  have h₁ := h.bounded r hr
  have h₂ := off_rebase h.spaced (le_refl _) hr
  omega

/-- An insertion into a valid list. -/
lemma insert_exact (h : Valid l.ranges rcvNxt 0) (hs : 0 < off start rcvNxt)
    (hse : off start rcvNxt < off stop rcvNxt) (hhi : off stop rcvNxt ≤ 2 ^ 31 - 1) :
    (l.insert start stop rcvNxt).2.debugValid rcvNxt = true ∧
    ((l.insert start stop rcvNxt).1 = .full ↔
      (∀ r ∈ l.ranges, off r.stop rcvNxt < off start rcvNxt ∨ off stop rcvNxt < off r.start rcvNxt) ∧
        l.ranges.length = MAX) ∧
    ((l.insert start stop rcvNxt).1 = .full →
      ∀ x, (l.insert start stop rcvNxt).2.Holds x ↔ l.Holds x) ∧
    ∀ dup, (l.insert start stop rcvNxt).1 = .stored dup →
      (∀ x, (l.insert start stop rcvNxt).2.Holds x ↔ l.Holds x ∨ seqInRange x start stop) ∧
      (dup = true ↔ ∀ x, seqInRange x start stop → l.Holds x) := by
  obtain ⟨A, mid, C, hins⟩ := insert_spec (l := l) hs hse
  have ha : Around (Range.lo rcvNxt) (Range.hi rcvNxt) (off start rcvNxt) (off stop rcvNxt) A mid C := by
    rw [hins.before, hins.touched, hins.behind]
    exact h.spaced.around_takeWhile _ _
  have hlen := l.len_le
  have hsplit : Valid (A ++ mid ++ C) rcvNxt 0 := hins.ranges ▸ h
  have hdup : (∀ x, seqInRange x start stop → l.Holds x) ↔
      ∃ r, mid = [r] ∧ off r.start rcvNxt ≤ off start rcvNxt ∧ off stop rcvNxt ≤ off r.stop rcvNxt := by
    rw [← hsplit.spaced.held_iff_within ha hse, ← hins.ranges]
    constructor
    · intro hall y hy
      have hbits : y < 2 ^ 32 := hy.2.trans (stop - rcvNxt).isLt
      have hoff : off (rcvNxt + BitVec.ofNat 32 y) rcvNxt = y := by
        have hcancel : rcvNxt + BitVec.ofNat 32 y - rcvNxt = BitVec.ofNat 32 y := by
          rw [BitVec.add_comm, BitVec.add_sub_cancel]
        rw [off, hcancel, BitVec.toNat_ofNat, Nat.mod_eq_of_lt hbits]
      have hheld := hall (rcvNxt + BitVec.ofNat 32 y)
        ((seqInRange_iff_off hse.le _).mpr (by rw [hoff]; exact hy))
      rw [OooList.Holds, h.holds_iff, hoff] at hheld
      exact hheld
    · intro hsub x hx
      rw [OooList.Holds, h.holds_iff]
      exact hsub ((seqInRange_iff_off hse.le x).mp hx)
  have hfree : (∀ r ∈ l.ranges, off r.stop rcvNxt < off start rcvNxt ∨
      off stop rcvNxt < off r.start rcvNxt) ↔ mid = [] := by
    rw [hins.ranges]
    constructor
    · intro hall
      refine List.eq_nil_iff_forall_not_mem.mpr fun r hr => ?_
      have h₁ := hall r (List.mem_append_left _ (List.mem_append_right _ hr))
      have h₂ := ha.touched r hr
      dsimp only [Range.lo, Range.hi] at h₂
      omega
    · rintro rfl r hr
      rw [List.append_nil] at hr
      exact (List.mem_append.mp hr).imp (ha.before r) (ha.behind r)
  rw [hfree, debugValid_iff]
  -- An insertion that found room, given the hull that it put in place.
  have hstored : ∀ (d : Bool) (m : Range), (l.insert start stop rcvNxt).1 = .stored d →
      (l.insert start stop rcvNxt).2.ranges = A ++ m :: C →
      Hull (Range.lo rcvNxt) (Range.hi rcvNxt) (off start rcvNxt) (off stop rcvNxt) mid m →
      ¬ (mid = [] ∧ l.ranges.length = MAX) →
      (d = true ↔ ∃ r, mid = [r] ∧ off r.start rcvNxt ≤ off start rcvNxt ∧
        off stop rcvNxt ≤ off r.stop rcvNxt) →
      Valid (l.insert start stop rcvNxt).2.ranges rcvNxt 0 ∧
      ((l.insert start stop rcvNxt).1 = .full ↔ mid = [] ∧ l.ranges.length = MAX) ∧
      ((l.insert start stop rcvNxt).1 = .full →
        ∀ x, (l.insert start stop rcvNxt).2.Holds x ↔ l.Holds x) ∧
      ∀ dup, (l.insert start stop rcvNxt).1 = .stored dup →
        (∀ x, (l.insert start stop rcvNxt).2.Holds x ↔ l.Holds x ∨ seqInRange x start stop) ∧
        (dup = true ↔ ∀ x, seqInRange x start stop → l.Holds x) := by
    intro d m hres hnew hm hroom hd
    obtain ⟨hvalid, hheld⟩ := hsplit.replace ha hm hs hse hhi
    rw [hres, hdup]
    refine ⟨hnew ▸ hvalid, ⟨nofun, fun hfull => absurd hfull hroom⟩, nofun, ?_⟩
    rintro _ ⟨rfl⟩
    refine ⟨fun x => ?_, hd⟩
    rw [OooList.Holds, hnew, hheld x, ← hins.ranges]
    rfl
  rcases hins.result with ⟨hnil, hfull, hres, hsame⟩ | ⟨hnil, hroom, hres, hnew⟩ |
    ⟨first, last, hfirst, hlast, hres, hnew⟩
  · rw [hres, hsame]
    refine ⟨h, ⟨fun _ => ⟨hnil, by omega⟩, fun _ => rfl⟩, fun _ x => ?_, nofun⟩
    rw [OooList.Holds, hsame]
    rfl
  · refine hstored false _ hres hnew (hnil ▸ hull_new ..) (by omega) ⟨nofun, ?_⟩
    rintro ⟨r, hr, -⟩
    rw [hnil] at hr
    cases hr
  · have hmid := hsplit.spaced.of_append_left.of_append_right
    refine hstored _ _ hres hnew (hull_merged hmid hfirst hlast ..) ?_ ?_
    · rintro ⟨rfl, -⟩
      cases hfirst
    · simp only [Bool.and_eq_true, beq_iff_eq, decide_eq_true_eq]
      constructor
      · rintro ⟨⟨hone, hlo⟩, hhi⟩
        obtain ⟨r, rfl⟩ := List.length_eq_one_iff.mp hone
        cases hfirst
        exact ⟨first, rfl, hlo, hhi⟩
      · rintro ⟨r, rfl, hlo, hhi⟩
        cases hfirst
        exact ⟨⟨rfl, hlo⟩, hhi⟩

lemma advance_exact {n : U32} (h : Valid l.ranges rcvNxt 0) (hn : off n rcvNxt ≤ 2 ^ 31 - 1) :
    off n rcvNxt ≤ off (l.advance n).1 rcvNxt ∧
    (∀ x, seqInRange x n (l.advance n).1 → l.Holds x) ∧ ¬ l.Holds (l.advance n).1 ∧
    (∀ x, (l.advance n).2.Holds x ↔
      l.Holds x ∧ off (l.advance n).1 rcvNxt < off x rcvNxt) ∧
    (l.advance n).2.debugValid (l.advance n).1 = true := by
  have hends : ∀ r ∈ l.ranges, off r.start rcvNxt < off r.stop rcvNxt ∧
      off r.stop rcvNxt ≤ 2 ^ 31 - 1 :=
    fun r hr => ⟨h.spaced.nonempty r hr, h.bounded r hr⟩
  obtain ⟨hnxt, hleft⟩ := absorb_eq_consume hn hends
  obtain ⟨hle, hreached, hfree, hspaced, hrest⟩ := consume_spec h.spaced (off n rcvNxt)
  rw [← hnxt] at hle hreached hfree hspaced hrest
  rw [← hleft] at hspaced hrest
  have hmem : ∀ r ∈ (absorb n l.ranges).2, r ∈ l.ranges := (absorb_suffix n l.ranges).subset
  have hvalid : Valid (absorb n l.ranges).2 rcvNxt (off (absorb n l.ranges).1 rcvNxt) :=
    ⟨hspaced, fun r hr => h.bounded r (hmem r hr)⟩
  refine ⟨hle, fun x hx => ?_, ?_, fun x => ?_, debugValid_iff.mpr hvalid.rebase⟩
  · rw [OooList.Holds, h.holds_iff]
    exact hreached ((seqInRange_iff_off hle x).mp hx)
  · rw [OooList.Holds, h.holds_iff]
    exact hfree
  · rw [OooList.Holds, OooList.Holds, h.holds_iff]
    refine (hvalid.holds_iff x).trans ?_
    rw [hrest]
    rfl

/-- Insertion and advancing, seen as operations on the set of sequence numbers held. -/
theorem ooo_exact (l : OooList MAX) (rcvNxt : U32) (hvalid : l.debugValid rcvNxt = true) :
    (∀ start stop : U32, 0 < (start - rcvNxt).toNat →
      (start - rcvNxt).toNat < (stop - rcvNxt).toNat → (stop - rcvNxt).toNat ≤ 2 ^ 31 - 1 →
      (l.insert start stop rcvNxt).2.debugValid rcvNxt = true ∧
      ((l.insert start stop rcvNxt).1 = .full ↔
        (∀ r ∈ l.ranges, (r.stop - rcvNxt).toNat < (start - rcvNxt).toNat ∨
          (stop - rcvNxt).toNat < (r.start - rcvNxt).toNat) ∧ l.ranges.length = MAX) ∧
      ((l.insert start stop rcvNxt).1 = .full →
        ∀ x, (l.insert start stop rcvNxt).2.Holds x ↔ l.Holds x) ∧
      ∀ dup, (l.insert start stop rcvNxt).1 = .stored dup →
        (∀ x, (l.insert start stop rcvNxt).2.Holds x ↔ l.Holds x ∨ seqInRange x start stop) ∧
        (dup = true ↔ ∀ x, seqInRange x start stop → l.Holds x)) ∧
    ∀ n : U32, (n - rcvNxt).toNat ≤ 2 ^ 31 - 1 →
      (n - rcvNxt).toNat ≤ ((l.advance n).1 - rcvNxt).toNat ∧
      (∀ x, seqInRange x n (l.advance n).1 → l.Holds x) ∧ ¬ l.Holds (l.advance n).1 ∧
      (∀ x, (l.advance n).2.Holds x ↔
        l.Holds x ∧ ((l.advance n).1 - rcvNxt).toNat < (x - rcvNxt).toNat) ∧
      (l.advance n).2.debugValid (l.advance n).1 = true := by
  have hranges := debugValid_iff.mp hvalid
  refine ⟨fun start stop hs hse hhi => ?_, fun n hn => ?_⟩
  · exact insert_exact hranges hs hse hhi
  · exact advance_exact hranges hn

/-- A range that bridges the two that are held. -/
theorem ooo_exact_bridge :
    let l := ((((OooList.new : OooList 4).insert 200 300 100).2).insert 400 500 100).2
    l.debugValid 100 = true ∧
      ∀ x, (l.insert 300 400 100).2.Holds x ↔ l.Holds x ∨ seqInRange x 300 400 := by
  refine ⟨by decide +kernel, ?_⟩
  obtain ⟨-, -, -, hstored⟩ := (ooo_exact ((((OooList.new : OooList 4).insert 200 300 100).2).insert
    400 500 100).2 100 (by decide +kernel)).1 300 400 (by decide) (by decide) (by decide)
  exact (hstored false (by decide +kernel)).1

end OooList

end TcpSansIo
