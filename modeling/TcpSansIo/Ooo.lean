import TcpSansIo.Wire.Segment

/-!
# Out-of-order receive tracking (`ooo.rs`)

Which sequence ranges beyond `RCV.NXT` are parked in the receive ring's free space.  The list is
bounded; only its first `len` entries mean anything, so the array and its length are modelled as
a list with the bound as a field, and the source's rotations as list surgery.
-/

namespace TcpSansIo

/-- A held range `[start, stop)` with its recency stamp. -/
structure Range where
  start : U32
  stop : U32
  tag : U32
  deriving Repr, DecidableEq

/-- Outcome of `OooList.insert`. -/
inductive Insert where
  /-- The range was recorded; `dup` when every byte of it was already held. -/
  | stored (dup : Bool)
  /-- No room for another disjoint range; the segment must be dropped. -/
  | full
  deriving Repr, DecidableEq

/-- Offset of a sequence number from `base`. -/
def off (seq base : U32) : ℕ := (seq - base).toNat

/-- Index of the first entry that fails `p` (the list is partitioned by `p`). -/
def partitionPoint {α : Type} (p : α → Bool) (l : List α) : ℕ := (l.takeWhile p).length

/-- Sorted set of out-of-order sequence ranges above `RCV.NXT`, at most `MAX` of them. -/
structure OooList (MAX : ℕ) where
  ranges : List Range
  nextTag : U32
  len_le : ranges.length ≤ MAX

namespace OooList

variable {MAX : ℕ}

def new : OooList MAX := ⟨[], 1, Nat.zero_le MAX⟩

def clear (_l : OooList MAX) : OooList MAX := new

def isEmpty (l : OooList MAX) : Bool := l.ranges.isEmpty

/-- End of the highest held range, if any. -/
def lastEnd (l : OooList MAX) : Option U32 := l.ranges.getLast?.map Range.stop

/-- First range ending at or after `s`, and one past the last range starting at or before `e`
(offsets from `RCV.NXT`): the ranges a new `[s, e)` touches. -/
def touched (l : OooList MAX) (s e : ℕ) (rcvNxt : U32) : ℕ × ℕ :=
  let lo := partitionPoint (fun r => off r.stop rcvNxt < s) l.ranges
  (lo, lo + partitionPoint (fun r => off r.start rcvNxt ≤ e) (l.ranges.drop lo))

lemma touched_le (l : OooList MAX) (s e : ℕ) (rcvNxt : U32) :
    (l.touched s e rcvNxt).1 ≤ (l.touched s e rcvNxt).2 ∧
      (l.touched s e rcvNxt).2 ≤ l.ranges.length := by
  have h₁ := (List.takeWhile_prefix (fun r : Range => decide (off r.stop rcvNxt < s))
    (l := l.ranges)).length_le
  have h₂ := (List.takeWhile_prefix (fun r : Range => decide (off r.start rcvNxt ≤ e))
    (l := l.ranges.drop (l.touched s e rcvNxt).1)).length_le
  rw [List.length_drop] at h₂
  simp only [touched, partitionPoint] at h₁ h₂ ⊢
  omega

/-- The new range `[start, stop)` merged with the held ranges `first` to `last`. -/
def merged (first last : Range) (start stop rcvNxt tag : U32) : Range where
  start := if off first.start rcvNxt < off start rcvNxt then first.start else start
  stop := if off last.stop rcvNxt > off stop rcvNxt then last.stop else stop
  tag := tag

/-- Record `[start, stop)` (all strictly above `rcvNxt`) as held. -/
def insert (l : OooList MAX) (start stop rcvNxt : U32) : Insert × OooList MAX :=
  let s := off start rcvNxt
  let e := off stop rcvNxt
  if s = 0 ∨ e ≤ s then
    (.stored true, l)
  else
    let lo := (l.touched s e rcvNxt).1
    let hi := (l.touched s e rcvNxt).2
    let tag := l.nextTag
    if hdisj : hi = lo then
      -- Disjoint from everything: insert a new range at `lo`.
      if h : l.ranges.length < MAX then
        (.stored false, ⟨l.ranges.take lo ++ ⟨start, stop, tag⟩ :: l.ranges.drop lo,
          l.nextTag + 1, by
            rw [List.length_append, List.length_cons, List.length_take, List.length_drop]
            omega⟩)
      else
        (.full, ⟨l.ranges, l.nextTag + 1, l.len_le⟩)
    else
      match l.ranges[lo]?, l.ranges[hi - 1]? with
      | some first, some last =>
        let dup := hi - lo == 1 && decide (off first.start rcvNxt ≤ s) &&
          decide (e ≤ off first.stop rcvNxt)
        (.stored dup, ⟨l.ranges.take lo ++ merged first last start stop rcvNxt tag ::
          l.ranges.drop hi, l.nextTag + 1, by
            have h₁ := l.len_le
            have h₂ : lo ≤ hi ∧ hi ≤ l.ranges.length := l.touched_le s e rcvNxt
            rw [List.length_append, List.length_cons, List.length_take, List.length_drop]
            omega⟩)
      | _, _ => (.full, ⟨l.ranges, l.nextTag + 1, l.len_le⟩)

/-- The run of ranges at or before `nxt`: the new `RCV.NXT` and the ranges left over. -/
def absorb (nxt : U32) : List Range → U32 × List Range
  | [] => (nxt, [])
  | r :: rest =>
    if (r.start - nxt).toInt ≤ 0 then
      absorb (if 0 < (r.stop - nxt).toInt then r.stop else nxt) rest
    else
      (nxt, r :: rest)

lemma length_absorb_le (nxt : U32) (l : List Range) : (absorb nxt l).2.length ≤ l.length := by
  induction l generalizing nxt with
  | nil => exact le_refl _
  | cons r rest ih =>
      rw [absorb]
      split
      · exact le_trans (ih _) (Nat.le_succ _)
      · exact le_refl _

/-- `RCV.NXT` has advanced to `rcvNxt`: consume what it reached; the new `RCV.NXT`. -/
def advance (l : OooList MAX) (rcvNxt : U32) : U32 × OooList MAX :=
  ((absorb rcvNxt l.ranges).1,
    ⟨(absorb rcvNxt l.ranges).2, l.nextTag, le_trans (length_absorb_le _ _) l.len_le⟩)

/-- Put `cand` into the list of the `k` youngest ranges, youngest first. -/
def topInsert (age : Range → ℕ) : ℕ → List Range → Range → List Range
  | 0, top, _ => top
  | _ + 1, [], cand => [cand]
  | k + 1, held :: top, cand =>
    if age cand < age held then
      cand :: topInsert age k top held
    else
      held :: topInsert age k top cand

/-- Append up to `max` (at most 4) SACK blocks, most recently changed first. -/
def fillSackBlocks (l : OooList MAX) (sack : SackBlocks) (max : ℕ) : SackBlocks :=
  let k := min max 4
  let age : Range → ℕ := fun r => (l.nextTag - r.tag).toNat
  let top := l.ranges.foldl (topInsert age k) []
  top.foldl (fun sb r => sb.push r.start r.stop) sack

/-! ### Which blocks are reported -/

lemma length_topInsert (age : Range → ℕ) (k : ℕ) (top : List Range) (cand : Range)
    (h : top.length ≤ k) : (topInsert age k top cand).length ≤ k := by
  induction k generalizing top cand with
  | zero => exact h
  | succ k ih =>
    cases top with
    | nil => exact Nat.succ_le_succ (Nat.zero_le k)
    | cons held top =>
      have hk : top.length ≤ k := Nat.le_of_succ_le_succ h
      rw [topInsert]
      split
      · exact Nat.succ_le_succ (ih top held hk)
      · exact Nat.succ_le_succ (ih top cand hk)

lemma mem_topInsert {age : Range → ℕ} {k : ℕ} {top : List Range} {cand r : Range}
    (h : r ∈ topInsert age k top cand) : r ∈ top ∨ r = cand := by
  induction k generalizing top cand with
  | zero => exact .inl h
  | succ k ih =>
    cases top with
    | nil => exact .inr (List.mem_singleton.mp h)
    | cons held top =>
      rw [topInsert] at h
      split at h
      all_goals
        rcases List.mem_cons.mp h with rfl | h
        · simp
        · rcases ih h with h | rfl
          · simp [h]
          · simp

/-- The ranges picked are ranges that are held, and no more than asked for. -/
lemma foldl_topInsert (age : Range → ℕ) (k : ℕ) (l top : List Range) (h : top.length ≤ k) :
    (l.foldl (topInsert age k) top).length ≤ k ∧
      ∀ r ∈ l.foldl (topInsert age k) top, r ∈ top ∨ r ∈ l := by
  induction l generalizing top with
  | nil => exact ⟨h, fun r hr => .inl hr⟩
  | cons c l ih =>
    obtain ⟨hlen, hmem⟩ := ih _ (length_topInsert age k top c h)
    refine ⟨hlen, fun r hr => ?_⟩
    rcases hmem r hr with hr | hr
    · rcases mem_topInsert hr with hr | rfl
      · exact .inl hr
      · exact .inr List.mem_cons_self
    · exact .inr (List.mem_cons_of_mem c hr)

lemma foldl_push (rs : List Range) (sb : SackBlocks) :
    (rs.foldl (fun sb r => sb.push r.start r.stop) sb).blocks =
      (sb.blocks ++ rs.map fun r => (r.start, r.stop)).take 4 := by
  induction rs generalizing sb with
  | nil =>
    rw [List.foldl_nil, List.map_nil, List.append_nil, List.take_of_length_le sb.len_le]
  | cons r rs ih =>
    rw [List.foldl_cons, ih, List.map_cons, SackBlocks.push]
    split
    · rw [List.append_assoc, List.singleton_append]
    case isFalse h =>
      have hlen : sb.blocks.length = 4 := le_antisymm sb.len_le (not_lt.mp h)
      rw [List.take_append_of_le_length hlen.ge, List.take_append_of_le_length hlen.ge]

/-- The blocks appended are held ranges, at most `max` of them. -/
lemma fillSackBlocks_blocks (l : OooList MAX) (sack : SackBlocks) (max : ℕ) :
    ∃ rs : List Range, rs.length ≤ max ∧ (∀ r ∈ rs, r ∈ l.ranges) ∧
      (l.fillSackBlocks sack max).blocks =
        (sack.blocks ++ rs.map fun r => (r.start, r.stop)).take 4 := by
  obtain ⟨hlen, hmem⟩ := foldl_topInsert (fun r => (l.nextTag - r.tag).toNat) (min max 4) l.ranges []
    (Nat.zero_le _)
  refine ⟨_, le_trans hlen (min_le_left _ _), fun r hr => ?_, foldl_push _ sack⟩
  rcases hmem r hr with hr | hr
  · cases hr
  · exact hr

/-- Range containing `seq`, if any. -/
def containing (l : OooList MAX) (seq : U32) : Option (U32 × U32) :=
  (l.ranges.find? fun r => decide (0 ≤ (seq - r.start).toInt) && decide (0 < (r.stop - seq).toInt)).map
    fun r => (r.start, r.stop)

/-- The loop of `debug_valid`: `prev` is the end of the range before. -/
def validFrom (rcvNxt : U32) : Option ℕ → List Range → Bool
  | _, [] => true
  | prev, r :: rest =>
    let s := off r.start rcvNxt
    let e := off r.stop rcvNxt
    if s = 0 ∨ e ≤ s ∨ 2 ^ 31 - 1 < e then
      false
    else if prev.any (fun p => decide (s ≤ p)) then
      false
    else
      validFrom rcvNxt (some e) rest

/-- Sorted, disjoint, non-adjacent, all above `rcvNxt`. -/
def debugValid (l : OooList MAX) (rcvNxt : U32) : Bool := validFrom rcvNxt none l.ranges

end OooList

end TcpSansIo
