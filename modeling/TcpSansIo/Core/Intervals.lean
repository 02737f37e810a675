import Mathlib.Data.List.TakeWhile
import Mathlib.Data.Set.Lattice
import Mathlib.Order.Interval.Set.Basic

/-!
# Sets of numbers as sorted intervals

A finite set of natural numbers kept as a list of half-open intervals that is sorted, and whose
intervals are non-empty and neither overlap nor touch (`Spaced`).  The elements of the list are of any
type, with a lower and an upper end.

* **Adding** an interval replaces the intervals it touches, which stand together in the list, by their
  hull with it (`Spaced.replace`, `held_replace`).
* **Taking off** the front, from a number on, merges every interval that the number has reached into
  it (`consume_spec`).
-/

namespace Intervals

variable {α : Type*} (lo hi : α → ℕ)

/-- Sorted, non-empty, neither overlapping nor touching, and all above `p`. -/
structure Spaced (p : ℕ) (l : List α) : Prop where
  above : ∀ r ∈ l, p < lo r
  nonempty : ∀ r ∈ l, lo r < hi r
  apart : l.Pairwise fun r r' => hi r < lo r'

/-- The numbers held. -/
def held (l : List α) : Set ℕ := {x | ∃ r ∈ l, lo r ≤ x ∧ x < hi r}

variable {lo hi} {p s e : ℕ} {l l₁ l₂ l₃ : List α} {m r r' : α}

@[simp] lemma held_nil : held lo hi ([] : List α) = ∅ := by
  ext x
  simp [held]

lemma held_append : held lo hi (l₁ ++ l₂) = held lo hi l₁ ∪ held lo hi l₂ := by
  ext x
  change (∃ r ∈ l₁ ++ l₂, _) ↔ (∃ r ∈ l₁, _) ∨ ∃ r ∈ l₂, _
  simp only [List.mem_append]
  constructor
  · rintro ⟨r, hr | hr, hx⟩
    · exact .inl ⟨r, hr, hx⟩
    · exact .inr ⟨r, hr, hx⟩
  · rintro (⟨r, hr, hx⟩ | ⟨r, hr, hx⟩)
    · exact ⟨r, .inl hr, hx⟩
    · exact ⟨r, .inr hr, hx⟩

lemma held_cons : held lo hi (r :: l) = Set.Ico (lo r) (hi r) ∪ held lo hi l := by
  ext x
  simp [held]

namespace Spaced

lemma nil (p : ℕ) : Spaced lo hi p [] := ⟨nofun, nofun, .nil⟩

lemma cons_iff : Spaced lo hi p (r :: l) ↔ p < lo r ∧ lo r < hi r ∧ Spaced lo hi (hi r) l := by
  constructor
  · intro h
    obtain ⟨hr, hl⟩ := List.pairwise_cons.mp h.apart
    exact ⟨h.above r (List.mem_cons_self ..), h.nonempty r (List.mem_cons_self ..), hr,
      fun x hx => h.nonempty x (List.mem_cons_of_mem _ hx), hl⟩
  · rintro ⟨hp, hr, hl⟩
    refine ⟨fun x hx => ?_, fun x hx => ?_, List.pairwise_cons.mpr ⟨hl.above, hl.apart⟩⟩
    · rcases List.mem_cons.mp hx with rfl | hx
      · exact hp
      · exact (hp.trans hr).trans (hl.above x hx)
    · rcases List.mem_cons.mp hx with rfl | hx
      · exact hr
      · exact hl.nonempty x hx

lemma tail (h : Spaced lo hi p (r :: l)) : Spaced lo hi (hi r) l := (cons_iff.mp h).2.2

lemma of_append_right (h : Spaced lo hi p (l₁ ++ l₂)) : Spaced lo hi p l₂ :=
  ⟨fun r hr => h.above r (List.mem_append_right _ hr),
    fun r hr => h.nonempty r (List.mem_append_right _ hr), (List.pairwise_append.mp h.apart).2.1⟩

lemma of_append_left (h : Spaced lo hi p (l₁ ++ l₂)) : Spaced lo hi p l₁ :=
  ⟨fun r hr => h.above r (List.mem_append_left _ hr),
    fun r hr => h.nonempty r (List.mem_append_left _ hr), (List.pairwise_append.mp h.apart).1⟩

/-- The intervals before and after one of the list. -/
lemma around (h : Spaced lo hi p (l₁ ++ r :: l₂)) :
    (∀ x ∈ l₁, hi x < lo r) ∧ ∀ x ∈ l₂, hi r < lo x := by
  obtain ⟨-, hcons, hcross⟩ := List.pairwise_append.mp h.apart
  exact ⟨fun x hx => hcross x hx r (List.mem_cons_self ..), (List.pairwise_cons.mp hcons).1⟩

/-- Nothing is held at the end of an interval. -/
lemma hi_notMem (h : Spaced lo hi p l) (hr : r ∈ l) : hi r ∉ held lo hi l := by
  rintro ⟨x, hx, hle, hlt⟩
  obtain ⟨l₁, l₂, rfl⟩ := List.append_of_mem hr
  obtain ⟨hbefore, hbehind⟩ := h.around
  have hne := h.nonempty r hr
  rcases List.mem_append.mp hx with hx | hx
  · have := hbefore x hx
    omega
  · rcases List.mem_cons.mp hx with rfl | hx
    · omega
    · have := hbehind x hx
      omega

/-- A whole interval is held only within one of the list. -/
lemma Ico_subset_held_iff (h : Spaced lo hi p l) (hse : s < e) :
    Set.Ico s e ⊆ held lo hi l ↔ ∃ r ∈ l, lo r ≤ s ∧ e ≤ hi r := by
  constructor
  · intro hsub
    obtain ⟨r, hr, hlo, hhi⟩ := hsub ⟨le_refl s, hse⟩
    refine ⟨r, hr, hlo, ?_⟩
    by_contra hlt
    exact h.hi_notMem hr (hsub ⟨hhi.le, not_le.mp hlt⟩)
  · rintro ⟨r, hr, hlo, hhi⟩ x ⟨hsx, hxe⟩
    exact ⟨r, hr, hlo.trans hsx, hxe.trans_le hhi⟩

end Spaced

/-! ## Adding an interval -/

/-- The list around the intervals `mid` that `[s, e)` touches. -/
structure Around (lo hi : α → ℕ) (s e : ℕ) (l₁ mid l₂ : List α) : Prop where
  before : ∀ r ∈ l₁, hi r < s
  touched : ∀ r ∈ mid, s ≤ hi r ∧ lo r ≤ e
  behind : ∀ r ∈ l₂, e < lo r

lemma Spaced.of_dropWhile (h : Spaced lo hi p l) (q : α → Bool) : Spaced lo hi p (l.dropWhile q) := by
  rw [← List.takeWhile_append_dropWhile (p := q) (l := l)] at h
  exact h.of_append_right

/-- What fails at an interval and at those behind it fails from where it first fails. -/
lemma Spaced.forall_dropWhile {q : α → Bool} (h : Spaced lo hi p l)
    (hq : ∀ r r', q r = false → lo r < hi r → hi r < lo r' → lo r' < hi r' → q r' = false) :
    ∀ r ∈ l.dropWhile q, q r = false := by
  have hrest := h.of_dropWhile q
  have hhead := List.head?_dropWhile_not q l
  cases hl : l.dropWhile q with
  | nil => exact nofun
  | cons first rest =>
    rw [hl] at hrest hhead
    have hfirst : q first = false := by simpa using hhead
    obtain ⟨-, hne, htail⟩ := Spaced.cons_iff.mp hrest
    intro r hr
    rcases List.mem_cons.mp hr with rfl | hr
    · exact hfirst
    · exact hq first r hfirst hne (htail.above r hr) (htail.nonempty r hr)

/-- Where the search for the intervals that `[s, e)` touches divides the list. -/
lemma Spaced.around_takeWhile (h : Spaced lo hi p l) (s e : ℕ) :
    Around lo hi s e (l.takeWhile fun r => hi r < s)
      ((l.dropWhile fun r => hi r < s).takeWhile fun r => lo r ≤ e)
      ((l.dropWhile fun r => hi r < s).dropWhile fun r => lo r ≤ e) where
  before r hr := by simpa using List.mem_takeWhile_imp hr
  touched r hr := by
    have hrest := h.forall_dropWhile (q := fun r => decide (hi r < s)) fun r r' hr hne hlt hne' => by
      rw [decide_eq_false_iff_not] at hr ⊢
      omega
    have hmem := (List.takeWhile_prefix _).subset hr
    exact ⟨by simpa using hrest r hmem, by simpa using List.mem_takeWhile_imp hr⟩
  behind r hr := by
    have hrest := (h.of_dropWhile fun r => decide (hi r < s)).forall_dropWhile
      (q := fun r => decide (lo r ≤ e)) fun r r' hr hne hlt hne' => by
        rw [decide_eq_false_iff_not] at hr ⊢
        omega
    simpa using hrest r hr

/-- The hull `m` of `[s, e)` and the intervals it touches. -/
structure Hull (lo hi : α → ℕ) (s e : ℕ) (mid : List α) (m : α) : Prop where
  lo_le : lo m ≤ s
  le_hi : e ≤ hi m
  lo_cases : lo m = s ∨ ∃ r ∈ mid, lo m = lo r
  hi_cases : hi m = e ∨ ∃ r ∈ mid, hi m = hi r
  covers : ∀ r ∈ mid, lo m ≤ lo r ∧ hi r ≤ hi m

/-- The hull takes the place of what it covers. -/
lemma Spaced.replace {mid : List α} (h : Spaced lo hi p (l₁ ++ mid ++ l₂))
    (ha : Around lo hi s e l₁ mid l₂) (hm : Hull lo hi s e mid m) (hps : p < s) (hse : s < e) :
    Spaced lo hi p (l₁ ++ m :: l₂) := by
  obtain ⟨hfront, hback, hcross⟩ := List.pairwise_append.mp h.apart
  obtain ⟨h₁, hmid, hcross₁⟩ := List.pairwise_append.mp hfront
  have hbefore : ∀ x ∈ l₁, hi x < lo m := by
    intro x hx
    rcases hm.lo_cases with heq | ⟨r, hr, heq⟩
    · rw [heq]
      exact ha.before x hx
    · rw [heq]
      exact hcross₁ x hx r hr
  have hbehind : ∀ x ∈ l₂, hi m < lo x := by
    intro x hx
    rcases hm.hi_cases with heq | ⟨r, hr, heq⟩
    · rw [heq]
      exact ha.behind x hx
    · rw [heq]
      exact hcross r (List.mem_append_right _ hr) x hx
  have hp : p < lo m := by
    rcases hm.lo_cases with heq | ⟨r, hr, heq⟩
    · omega
    · rw [heq]
      exact h.above r (List.mem_append_left _ (List.mem_append_right _ hr))
  have hne : lo m < hi m := by
    have := hm.lo_le
    have := hm.le_hi
    omega
  refine ⟨fun x hx => ?_, fun x hx => ?_, List.pairwise_append.mpr ⟨h₁,
    List.pairwise_cons.mpr ⟨hbehind, hback⟩, fun x hx y hy => ?_⟩⟩
  · rcases List.mem_append.mp hx with hx | hx
    · exact h.above x (List.mem_append_left _ (List.mem_append_left _ hx))
    · rcases List.mem_cons.mp hx with rfl | hx
      · exact hp
      · exact h.above x (List.mem_append_right _ hx)
  · rcases List.mem_append.mp hx with hx | hx
    · exact h.nonempty x (List.mem_append_left _ (List.mem_append_left _ hx))
    · rcases List.mem_cons.mp hx with rfl | hx
      · exact hne
      · exact h.nonempty x (List.mem_append_right _ hx)
  · rcases List.mem_cons.mp hy with rfl | hy
    · exact hbefore x hx
    · exact hcross x (List.mem_append_left _ hx) y hy

/-- The hull holds what it covers, and the interval. -/
lemma held_hull {mid : List α} (ht : ∀ r ∈ mid, s ≤ hi r ∧ lo r ≤ e) (hm : Hull lo hi s e mid m) :
    Set.Ico (lo m) (hi m) = held lo hi mid ∪ Set.Ico s e := by
  ext x
  constructor
  · rintro ⟨hlo, hhi⟩
    by_cases hin : s ≤ x ∧ x < e
    · exact .inr hin
    left
    rcases lt_or_ge x s with hlt | hge
    · rcases hm.lo_cases with heq | ⟨r, hr, heq⟩
      · omega
      · exact ⟨r, hr, by omega, hlt.trans_le (ht r hr).1⟩
    · rcases hm.hi_cases with heq | ⟨r, hr, heq⟩
      · omega
      · exact ⟨r, hr, by have := (ht r hr).2; omega, by omega⟩
  · rintro (⟨r, hr, hlo, hhi⟩ | ⟨hlo, hhi⟩)
    · obtain ⟨h₁, h₂⟩ := hm.covers r hr
      exact ⟨h₁.trans hlo, hhi.trans_le h₂⟩
    · exact ⟨hm.lo_le.trans hlo, hhi.trans_le hm.le_hi⟩

/-- The list with the hull in place holds what it held, and the interval. -/
lemma held_replace {mid : List α} (ht : ∀ r ∈ mid, s ≤ hi r ∧ lo r ≤ e) (hm : Hull lo hi s e mid m) :
    held lo hi (l₁ ++ m :: l₂) = held lo hi (l₁ ++ mid ++ l₂) ∪ Set.Ico s e := by
  rw [held_append, held_cons, held_hull ht hm, held_append, held_append]
  ext x
  simp only [Set.mem_union]
  tauto

/-- The interval is held already exactly if it touches one interval only, and lies within it. -/
lemma Spaced.held_iff_within {mid : List α} (h : Spaced lo hi p (l₁ ++ mid ++ l₂))
    (ha : Around lo hi s e l₁ mid l₂) (hse : s < e) :
    Set.Ico s e ⊆ held lo hi (l₁ ++ mid ++ l₂) ↔ ∃ r, mid = [r] ∧ lo r ≤ s ∧ e ≤ hi r := by
  rw [h.Ico_subset_held_iff hse]
  constructor
  · rintro ⟨r, hr, hlo, hhi⟩
    have hmem : r ∈ mid := by
      rcases List.mem_append.mp hr with hr | hr
      · rcases List.mem_append.mp hr with hr | hr
        · have := ha.before r hr
          omega
        · exact hr
      · have := ha.behind r hr
        omega
    obtain ⟨u, v, rfl⟩ := List.append_of_mem hmem
    -- Anything else that is touched would be within the interval's reach of `r`.
    obtain ⟨hbefore, hbehind⟩ := h.of_append_left.of_append_right.around
    have hu : u = [] := by
      refine List.eq_nil_iff_forall_not_mem.mpr fun x hx => ?_
      have h₁ := hbefore x hx
      have h₂ := (ha.touched x (List.mem_append_left _ hx)).1
      omega
    have hv : v = [] := by
      refine List.eq_nil_iff_forall_not_mem.mpr fun x hx => ?_
      have h₁ := hbehind x hx
      have h₂ := (ha.touched x (List.mem_append_right _ (List.mem_cons_of_mem _ hx))).2
      omega
    exact ⟨r, by rw [hu, hv]; rfl, hlo, hhi⟩
  · rintro ⟨r, rfl, hlo, hhi⟩
    exact ⟨r, by simp, hlo, hhi⟩

/-! ## Taking off the front -/

variable (lo hi) in
/-- Take off every interval that begins at or below `n`, and go on from its end if that is above. -/
def consume : ℕ → List α → ℕ × List α
  | n, [] => (n, [])
  | n, r :: l => if lo r ≤ n then consume (if n < hi r then hi r else n) l else (n, r :: l)

/-- What `consume` leaves: the first number from `n` on that is not held, and the intervals above. -/
structure Consumed (lo hi : α → ℕ) (n : ℕ) (l : List α) (out : ℕ × List α) : Prop where
  le : n ≤ out.1
  reached : Set.Ico n out.1 ⊆ held lo hi l
  free : out.1 ∉ held lo hi l
  spaced : Spaced lo hi out.1 out.2
  rest : held lo hi out.2 = held lo hi l ∩ Set.Ioi out.1

lemma consume_spec (h : Spaced lo hi p l) (n : ℕ) : Consumed lo hi n l (consume lo hi n l) := by
  induction l generalizing n p with
  | nil =>
    refine ⟨le_refl n, fun x hx => ?_, ?_, .nil n, ?_⟩
    · have h₁ : n ≤ x := hx.1
      have h₂ : x < n := hx.2
      omega
    · simp [consume]
    · simp [consume]
  | cons r l ih =>
    obtain ⟨hp, hne, htail⟩ := Spaced.cons_iff.mp h
    rw [consume]
    split
    case isTrue hle =>
      generalize hn : (if n < hi r then hi r else n) = n'
      have hn' : n ≤ n' ∧ hi r ≤ n' ∧ (n' = n ∨ n < hi r ∧ n' = hi r) := by
        split at hn <;> omega
      obtain ⟨hge, hreach, hfree, hspaced, hrest⟩ := ih htail n'
      generalize consume lo hi n' l = out at *
      refine ⟨by omega, fun x hx => ?_, ?_, hspaced, ?_⟩
      · have hx₁ : n ≤ x := hx.1
        have hx₂ : x < out.1 := hx.2
        rw [held_cons]
        rcases lt_or_ge x n' with hlt | hge'
        · left
          change lo r ≤ x ∧ x < hi r
          omega
        · exact .inr (hreach ⟨hge', hx₂⟩)
      · rw [held_cons]
        rintro (⟨-, hlt⟩ | hin)
        · omega
        · exact hfree hin
      · rw [hrest, held_cons]
        ext x
        constructor
        · rintro ⟨hx, hgt⟩
          exact ⟨.inr hx, hgt⟩
        · rintro ⟨hx | hx, hgt⟩
          · have h₁ : x < hi r := hx.2
            have h₂ : out.1 < x := hgt
            omega
          · exact ⟨hx, hgt⟩
    case isFalse hlt =>
      have hspaced : Spaced lo hi n (r :: l) := Spaced.cons_iff.mpr ⟨by omega, hne, htail⟩
      refine ⟨le_refl n, fun x hx => ?_, ?_, hspaced, ?_⟩
      · have h₁ : n ≤ x := hx.1
        have h₂ : x < n := hx.2
        omega
      · rintro ⟨x, hx, hle, -⟩
        have := hspaced.above x hx
        dsimp only at hle
        omega
      · ext x
        refine ⟨fun hx => ⟨hx, ?_⟩, fun hx => hx.1⟩
        obtain ⟨y, hy, hle, -⟩ := hx
        have := hspaced.above y hy
        change n < x
        omega

end Intervals
