import TcpSansIo.Receive.HeldRanges

/-!
# Which ranges are reported, and in which order

Every insert takes the next stamp and leaves it on the range it creates, extends or finds.  Counted
without wrapping, the inserts number the ranges by their last change (`Logged`); the stamps are those
numbers on 32 bits, so the age `fill_sack_blocks` goes by is how many inserts ago the last change was
(`Tracks`).  The insertion it keeps its few youngest ranges with is an insertion sort cut off behind
them (`topInsert_take`), so what it reports are the first ranges of the list sorted by last change.
-/

namespace TcpSansIo

namespace OooList

variable {MAX : ℕ}

/-! ## The youngest ranges -/

section Youngest

variable {age : Range → ℕ}

/-- Keeping the `k` youngest is sorting, and cutting off behind them. -/
lemma topInsert_take (k : ℕ) {sorted : List Range} (hsorted : sorted.Pairwise fun r r' => age r < age r')
    (cand : Range) :
    topInsert age k (sorted.take k) cand =
      (sorted.orderedInsert (fun r r' => age r < age r') cand).take k := by
  induction k generalizing sorted cand with
  | zero => rw [List.take_zero, List.take_zero, topInsert]
  | succ k ih =>
    cases sorted with
    | nil => rw [List.take_nil, topInsert, List.orderedInsert, List.take_succ_cons, List.take_nil]
    | cons held rest =>
      obtain ⟨hfirst, hrest⟩ := List.pairwise_cons.mp hsorted
      rw [List.take_succ_cons, topInsert, List.orderedInsert]
      split
      case isTrue hlt =>
        -- The range displaced is younger than the rest, so it is the next one kept.
        have hheld : rest.orderedInsert (fun r r' => age r < age r') held = held :: rest := by
          cases rest with
          | nil => rfl
          | cons r rest => rw [List.orderedInsert, if_pos (hfirst r (List.mem_cons_self ..))]
        rw [ih hrest held, hheld, List.take_succ_cons]
      case isFalse => rw [ih hrest cand, List.take_succ_cons]

lemma pairwise_orderedInsert {sorted : List Range} {cand : Range}
    (hsorted : sorted.Pairwise fun r r' => age r < age r') (hnew : ∀ r ∈ sorted, age r ≠ age cand) :
    (sorted.orderedInsert (fun r r' => age r < age r') cand).Pairwise fun r r' => age r < age r' := by
  induction sorted with
  | nil => exact List.pairwise_singleton _ _
  | cons held rest ih =>
    obtain ⟨hfirst, hrest⟩ := List.pairwise_cons.mp hsorted
    have hne := hnew held (List.mem_cons_self ..)
    rw [List.orderedInsert]
    split
    case isTrue hlt =>
      refine List.pairwise_cons.mpr ⟨fun r hr => ?_, hsorted⟩
      rcases List.mem_cons.mp hr with rfl | hr
      · exact hlt
      · exact hlt.trans (hfirst r hr)
    case isFalse hge =>
      refine List.pairwise_cons.mpr
        ⟨fun r hr => ?_, ih hrest fun r hr => hnew r (List.mem_cons_of_mem _ hr)⟩
      rcases List.mem_cons.mp ((List.perm_orderedInsert _ cand rest).mem_iff.mp hr) with rfl | hr
      · omega
      · exact hfirst r hr

/-- The pass over the list keeps the `k` youngest of what it has seen. -/
lemma foldl_topInsert_take (k : ℕ) {sorted rest all : List Range}
    (hsorted : sorted.Pairwise fun r r' => age r < age r')
    (hall : all.Pairwise fun r r' => age r < age r') (hperm : all.Perm (sorted ++ rest)) :
    rest.foldl (topInsert age k) (sorted.take k) = all.take k := by
  induction rest generalizing sorted with
  | nil =>
    rw [List.append_nil] at hperm
    have heq : all = sorted :=
      hperm.eq_of_pairwise (fun r r' _ _ h h' => absurd (h.trans h') (lt_irrefl _)) hall hsorted
    rw [List.foldl_nil, heq]
  | cons cand rest ih =>
    have hages : ((sorted ++ cand :: rest).map age).Nodup := by
      refine (hperm.map age).nodup_iff.mp ?_
      exact (List.pairwise_map.mpr hall).imp fun h => h.ne
    have hnew : ∀ r ∈ sorted, age r ≠ age cand := by
      intro r hr
      rw [List.map_append, List.map_cons, List.nodup_append] at hages
      exact hages.2.2 _ (List.mem_map_of_mem hr) _ (List.mem_cons_self ..)
    rw [List.foldl_cons, topInsert_take k hsorted cand]
    refine ih (pairwise_orderedInsert hsorted hnew) (hperm.trans ?_)
    refine List.perm_middle.trans ?_
    exact ((List.perm_orderedInsert _ cand sorted).append_right rest).symm

end Youngest

/-! ## Runs -/

/-- An operation on the list. -/
inductive OooOp where
  | insert (start stop rcvNxt : U32)
  | advance (rcvNxt : U32)
  | clear
  deriving Repr, DecidableEq

/-- A list with its past: how many inserts there were, for each range the number of the insert that
last created, extended or found it, and the number and range of the last insert that was stored. -/
structure Logged (MAX : ℕ) where
  list : OooList MAX
  last : List ℕ
  inserts : ℕ
  latest : Option (ℕ × U32 × U32)

namespace Logged

def new : Logged MAX := ⟨OooList.new, [], 0, none⟩

/-- An insert of nothing, or of what is not above `RCV.NXT`, is none. -/
def insert (t : Logged MAX) (start stop rcvNxt : U32) : Logged MAX :=
  if off start rcvNxt = 0 ∨ off stop rcvNxt ≤ off start rcvNxt then
    { t with list := (t.list.insert start stop rcvNxt).2 }
  else
    match t.list.insert start stop rcvNxt with
    | (.full, list) => { t with list := list, inserts := t.inserts + 1 }
    | (.stored _, list) =>
      let touched := t.list.touched (off start rcvNxt) (off stop rcvNxt) rcvNxt
      { list := list
        last := t.last.take touched.1 ++ (t.inserts + 1) :: t.last.drop touched.2
        inserts := t.inserts + 1
        latest := some (t.inserts + 1, start, stop) }

def advance (t : Logged MAX) (rcvNxt : U32) : Logged MAX :=
  let list := (t.list.advance rcvNxt).2
  { t with list := list, last := t.last.drop (t.list.ranges.length - list.ranges.length) }

def clear (t : Logged MAX) : Logged MAX := { t with list := t.list.clear, last := [] }

def step (t : Logged MAX) : OooOp → Logged MAX
  | .insert start stop rcvNxt => t.insert start stop rcvNxt
  | .advance rcvNxt => t.advance rcvNxt
  | .clear => t.clear

/-- The list after the operations. -/
def run (ops : List OooOp) : Logged MAX := ops.foldl step new

/-- Each range with the number of its last insert. -/
def entries (t : Logged MAX) : List (Range × ℕ) := t.list.ranges.zip t.last

end Logged

/-- The stamps are the numbers of the inserts, on 32 bits. -/
structure Tracks (t : Logged MAX) : Prop where
  length : t.last.length = t.list.ranges.length
  le : ∀ c ∈ t.last, c ≤ t.inserts
  nodup : t.last.Nodup
  stamp : ∀ x ∈ t.entries, t.list.nextTag - x.1.tag = BitVec.ofNat 32 (t.inserts + 1 - x.2)
  latest : ∀ n start stop, t.latest = some (n, start, stop) → n ≤ t.inserts ∧ (∀ c ∈ t.last, c ≤ n) ∧
    ∀ x ∈ t.entries, x.2 = n → ∀ y, seqInRange y start stop → seqInRange y x.1.start x.1.stop

namespace Tracks

variable {t : Logged MAX} {start stop rcvNxt : U32}

lemma new : Tracks (Logged.new : Logged MAX) :=
  ⟨rfl, nofun, .nil, nofun, nofun⟩

/-- A range left alone is one insert older after an insert. -/
lemma stamp_succ {x : Range × ℕ} {tag : U32} (h : Tracks t) (hx : x ∈ t.entries)
    (htag : tag = t.list.nextTag + 1) :
    tag - x.1.tag = BitVec.ofNat 32 (t.inserts + 1 + 1 - x.2) := by
  have hle := h.le x.2 (List.of_mem_zip hx).2
  have hstamp := h.stamp x hx
  have hsum : t.inserts + 1 + 1 - x.2 = (t.inserts + 1 - x.2) + 1 := by omega
  rw [htag, hsum, BitVec.ofNat_add, ← hstamp]
  bv_omega

/-- Ranges go off the front with their numbers. -/
lemma drop {list : OooList MAX} (h : Tracks t) (d : ℕ) (hranges : list.ranges = t.list.ranges.drop d)
    (htag : list.nextTag = t.list.nextTag) :
    Tracks { t with list := list, last := t.last.drop d } := by
  have hentries : list.ranges.zip (t.last.drop d) = t.entries.drop d := by
    rw [hranges]
    exact List.drop_zipWith.symm
  have hmem : ∀ x ∈ list.ranges.zip (t.last.drop d), x ∈ t.entries := by
    intro x hx
    rw [hentries] at hx
    exact List.mem_of_mem_drop hx
  constructor
  · dsimp only
    rw [hranges, List.length_drop, List.length_drop, h.length]
  · exact fun c hc => h.le c (List.mem_of_mem_drop hc)
  · exact h.nodup.sublist (List.drop_sublist d t.last)
  · intro x hx
    dsimp only
    rw [htag]
    exact h.stamp x (hmem x hx)
  · intro n start stop hn
    obtain ⟨hle, hlast, hcovers⟩ := h.latest n start stop hn
    exact ⟨hle, fun c hc => hlast c (List.mem_of_mem_drop hc), fun x hx => hcovers x (hmem x hx)⟩

/-- An insert that found no room takes a stamp all the same. -/
lemma skip {list : OooList MAX} (h : Tracks t) (hranges : list.ranges = t.list.ranges)
    (htag : list.nextTag = t.list.nextTag + 1) :
    Tracks { t with list := list, inserts := t.inserts + 1 } := by
  have hentries : list.ranges.zip t.last = t.entries := by rw [hranges]; rfl
  constructor
  · dsimp only
    rw [hranges, h.length]
  · exact fun c hc => (h.le c hc).trans (Nat.le_succ _)
  · exact h.nodup
  · intro x hx
    have hx : x ∈ t.entries := hentries ▸ hx
    exact stamp_succ h hx htag
  · intro n start stop hn
    obtain ⟨hle, hlast, hcovers⟩ := h.latest n start stop hn
    exact ⟨hle.trans (Nat.le_succ _), hlast, fun x hx => hcovers x (hentries ▸ hx)⟩

/-- An insert leaves its number on the range that takes the place of those it touches. -/
lemma store {list : OooList MAX} {A mid C : List Range} {m : Range} (h : Tracks t)
    (hold : t.list.ranges = A ++ mid ++ C) (hranges : list.ranges = A ++ m :: C)
    (htag : list.nextTag = t.list.nextTag + 1) (hm : m.tag = t.list.nextTag)
    (hcovers : ∀ y, seqInRange y start stop → seqInRange y m.start m.stop) :
    Tracks {
      list := list
      last := t.last.take A.length ++ (t.inserts + 1) :: t.last.drop (A.length + mid.length)
      inserts := t.inserts + 1
      latest := some (t.inserts + 1, start, stop) } := by
  have hlen := h.length
  rw [hold, List.length_append, List.length_append] at hlen
  generalize hL₁ : t.last.take A.length = L₁
  generalize hL₃ : t.last.drop (A.length + mid.length) = L₃
  obtain ⟨L₂, hlast⟩ : ∃ L₂, t.last = L₁ ++ (L₂ ++ L₃) := by
    refine ⟨(t.last.drop A.length).take mid.length, ?_⟩
    rw [← hL₁, ← hL₃, ← List.drop_drop, List.take_append_drop, List.take_append_drop]
  have hlen₁ : L₁.length = A.length := by
    rw [← hL₁, List.length_take]
    omega
  have hlen₃ : L₃.length = C.length := by
    rw [← hL₃, List.length_drop]
    omega
  have hlen₂ : L₂.length = mid.length := by
    rw [hlast, List.length_append, List.length_append] at hlen
    omega
  have hentries : t.entries = A.zip L₁ ++ (mid.zip L₂ ++ C.zip L₃) := by
    rw [Logged.entries, hold, hlast, List.append_assoc, List.zip_append hlen₁.symm,
      List.zip_append hlen₂.symm]
  have hentries' : list.ranges.zip (L₁ ++ (t.inserts + 1) :: L₃) =
      A.zip L₁ ++ (m, t.inserts + 1) :: C.zip L₃ := by
    rw [hranges, List.zip_append hlen₁.symm, List.zip_cons_cons]
  have hmem : ∀ x ∈ A.zip L₁ ++ C.zip L₃, x ∈ t.entries := by
    intro x hx
    rw [hentries]
    rcases List.mem_append.mp hx with hx | hx
    · exact List.mem_append_left _ hx
    · exact List.mem_append_right _ (List.mem_append_right _ hx)
  have hsub : (L₁ ++ L₃).Sublist t.last := by
    rw [hlast]
    exact (List.Sublist.refl L₁).append (List.sublist_append_right L₂ L₃)
  have hbound : ∀ c ∈ L₁ ++ L₃, c ≤ t.inserts := fun c hc => h.le c (hsub.subset hc)
  have hcases : ∀ {c : ℕ}, c ∈ L₁ ++ (t.inserts + 1) :: L₃ → c = t.inserts + 1 ∨ c ∈ L₁ ++ L₃ := by
    intro c hc
    rw [List.mem_append, List.mem_cons] at hc
    rw [List.mem_append]
    tauto
  constructor
  · dsimp only
    rw [hranges, List.length_append, List.length_append, List.length_cons, List.length_cons, hlen₁,
      hlen₃]
  · intro c hc
    rcases hcases hc with rfl | hc
    · exact le_refl _
    · exact (hbound c hc).trans (Nat.le_succ _)
  · refine List.nodup_middle.mpr (List.nodup_cons.mpr ⟨fun hc => ?_, h.nodup.sublist hsub⟩)
    have := hbound _ hc
    omega
  · intro x hx
    rw [Logged.entries, hentries', List.mem_append, List.mem_cons] at hx
    rcases hx with hx | rfl | hx
    · exact stamp_succ h (hmem x (List.mem_append_left _ hx)) htag
    · dsimp only
      rw [htag, hm, show t.inserts + 1 + 1 - (t.inserts + 1) = 1 by omega]
      bv_omega
    · exact stamp_succ h (hmem x (List.mem_append_right _ hx)) htag
  · rintro n start' stop' ⟨rfl⟩
    refine ⟨le_refl _, fun c hc => ?_, fun x hx hn => ?_⟩
    · rcases hcases hc with rfl | hc
      · exact le_refl _
      · exact (hbound c hc).trans (Nat.le_succ _)
    · have hold : ∀ x ∈ A.zip L₁ ++ C.zip L₃, x.2 ≤ t.inserts :=
        fun x hx => h.le _ (List.of_mem_zip (hmem x hx)).2
      rw [Logged.entries, hentries', List.mem_append, List.mem_cons] at hx
      rcases hx with hx | rfl | hx
      · have := hold x (List.mem_append_left _ hx)
        omega
      · exact hcovers
      · have := hold x (List.mem_append_right _ hx)
        omega

lemma insert (h : Tracks t) (start stop rcvNxt : U32) : Tracks (t.insert start stop rcvNxt) := by
  unfold Logged.insert
  by_cases hnone : off start rcvNxt = 0 ∨ off stop rcvNxt ≤ off start rcvNxt
  · rw [if_pos hnone, OooList.insert, if_pos hnone]
    exact h
  rw [if_neg hnone]
  obtain ⟨A, mid, C, hins⟩ : ∃ A mid C, Inserted t.list start stop rcvNxt A mid C :=
    insert_spec (by omega) (by omega)
  have hwithin : ∀ m : Range, off m.start rcvNxt ≤ off start rcvNxt →
      off stop rcvNxt ≤ off m.stop rcvNxt →
      ∀ y, seqInRange y start stop → seqInRange y m.start m.stop := by
    intro m hlo hhi y hy
    rw [seqInRange_iff_off (b := rcvNxt) (by omega)] at hy ⊢
    omega
  have hstamp := hins.stamp
  have hres := hins.result
  rw [hins.index]
  generalize t.list.insert start stop rcvNxt = out at hstamp hres ⊢
  obtain ⟨result, list⟩ := out
  rcases hres with ⟨-, -, rfl, hranges⟩ | ⟨-, -, rfl, hranges⟩ | ⟨first, last, -, -, rfl, hranges⟩
  · exact h.skip hranges hstamp
  · exact h.store hins.ranges hranges hstamp rfl (hwithin _ (le_refl _) (le_refl _))
  · obtain ⟨hlo, hhi⟩ := off_merged first last start stop rcvNxt t.list.nextTag
    exact h.store hins.ranges hranges hstamp rfl (hwithin _ (by omega) (by omega))

lemma advance (h : Tracks t) (rcvNxt : U32) : Tracks (t.advance rcvNxt) :=
  h.drop _ (List.suffix_iff_eq_drop.mp (absorb_suffix rcvNxt t.list.ranges)) rfl

lemma clear (h : Tracks t) : Tracks t.clear := by
  refine ⟨rfl, nofun, .nil, nofun, fun n start stop hn => ?_⟩
  exact ⟨(h.latest n start stop hn).1, nofun, nofun⟩

lemma run (ops : List OooOp) : Tracks (Logged.run ops : Logged MAX) := by
  have hfold : ∀ t : Logged MAX, Tracks t → Tracks (ops.foldl Logged.step t) := by
    induction ops with
    | nil => exact fun _ h => h
    | cons op ops ih =>
      intro t h
      refine ih _ ?_
      cases op with
      | insert start stop rcvNxt => exact h.insert start stop rcvNxt
      | advance rcvNxt => exact h.advance rcvNxt
      | clear => exact h.clear
  exact hfold _ .new

end Tracks

/-- The age that `fill_sack_blocks` goes by. -/
def age (l : OooList MAX) (r : Range) : ℕ := (l.nextTag - r.tag).toNat

/-- The ranges in the order of their last inserts, newest first. -/
def Logged.byRecency (t : Logged MAX) : List (Range × ℕ) :=
  t.entries.insertionSort fun x y => y.2 ≤ x.2

lemma Logged.byRecency_sorted (t : Logged MAX) : t.byRecency.Pairwise fun x y => y.2 ≤ x.2 := by
  have htrans : IsTrans (Range × ℕ) fun x y => y.2 ≤ x.2 := ⟨fun _ _ _ hxy hyz => hyz.trans hxy⟩
  have htotal : Std.Total fun x y : Range × ℕ => y.2 ≤ x.2 := ⟨fun x y => le_total y.2 x.2⟩
  exact List.pairwise_insertionSort _ _

/-- Ranges sorted by the number of their last insert are sorted by age. -/
lemma Tracks.youngest {t : Logged MAX} (h : Tracks t)
    (hage : ∀ c ∈ t.last, t.inserts + 1 - c < 2 ^ 32) (k : ℕ) :
    t.list.ranges.foldl (topInsert t.list.age k) [] = (t.byRecency.take k).map Prod.fst := by
  have hperm : t.byRecency.Perm t.entries := List.perm_insertionSort _ _
  have hfst : t.entries.map Prod.fst = t.list.ranges := List.map_fst_zip h.length.ge
  have hsnd : t.entries.map Prod.snd = t.last := List.map_snd_zip h.length.le
  have hages : ∀ x ∈ t.entries, t.list.age x.1 = t.inserts + 1 - x.2 := by
    intro x hx
    have hlt := hage x.2 (List.of_mem_zip hx).2
    rw [OooList.age, h.stamp x hx, BitVec.toNat_ofNat, Nat.mod_eq_of_lt hlt]
  -- No two ranges have the same last insert.
  have hdistinct : t.byRecency.Pairwise fun x y => x.2 ≠ y.2 := by
    have hnodup : (t.byRecency.map Prod.snd).Nodup := by
      rw [(hperm.map Prod.snd).nodup_iff, hsnd]
      exact h.nodup
    exact List.pairwise_map.mp hnodup
  have hstrict : (t.byRecency.map Prod.fst).Pairwise fun r r' => t.list.age r < t.list.age r' := by
    rw [List.pairwise_map]
    refine List.Pairwise.imp_of_mem (fun {x y} hx hy hxy => ?_) (t.byRecency_sorted.and hdistinct)
    have hx := hperm.mem_iff.mp hx
    have hy := hperm.mem_iff.mp hy
    have hle := h.le x.2 (List.of_mem_zip hx).2
    rw [hages x hx, hages y hy]
    omega
  have hall : (t.byRecency.map Prod.fst).Perm ([] ++ t.list.ranges) := by
    rw [List.nil_append, ← hfst]
    exact hperm.map _
  have hfold : t.list.ranges.foldl (topInsert t.list.age k) (([] : List Range).take k) =
      (t.byRecency.map Prod.fst).take k := foldl_topInsert_take k .nil hstrict hall
  rw [List.take_nil] at hfold
  rw [hfold, List.map_take]

/-- After any operations, `fill_sack_blocks` appends the ranges with the most recent last inserts, newest
first; and if the range of the latest insert that was stored is still held, the first block appended
contains what was inserted. -/
theorem fillSackBlocks_recent (ops : List OooOp) (sack : SackBlocks) (max : ℕ)
    (hage : ∀ c ∈ (Logged.run ops : Logged MAX).last,
      (Logged.run ops : Logged MAX).inserts + 1 - c < 2 ^ 32)
    (hroom : sack.blocks.length +
      min (min max 4) (Logged.run ops : Logged MAX).list.ranges.length ≤ 4) :
    ((Logged.run ops : Logged MAX).list.fillSackBlocks sack max).blocks =
      sack.blocks ++ (((Logged.run ops : Logged MAX).byRecency.take (min max 4)).map
        fun x => (x.1.start, x.1.stop)) ∧
    ∀ n start stop, (Logged.run ops : Logged MAX).latest = some (n, start, stop) →
      n ∈ (Logged.run ops : Logged MAX).last → 0 < max →
      ∃ block, ((Logged.run ops : Logged MAX).list.fillSackBlocks sack max).blocks[sack.blocks.length]? =
          some block ∧ ∀ y, seqInRange y start stop → seqInRange y block.1 block.2 := by
  have h : Tracks (Logged.run ops : Logged MAX) := .run ops
  generalize (Logged.run ops : Logged MAX) = t at *
  have hperm : t.byRecency.Perm t.entries := List.perm_insertionSort _ _
  have hblocks : (t.list.fillSackBlocks sack max).blocks =
      sack.blocks ++ ((t.byRecency.take (min max 4)).map fun x => (x.1.start, x.1.stop)) := by
    have hlen : t.byRecency.length = t.list.ranges.length := by
      rw [hperm.length_eq, Logged.entries, List.length_zip, h.length, Nat.min_self]
    rw [OooList.fillSackBlocks, foldl_push]
    change (sack.blocks ++ List.map _ (t.list.ranges.foldl (topInsert t.list.age (min max 4)) [])).take 4 = _
    rw [h.youngest hage, List.map_map, List.take_of_length_le]
    · rfl
    · rw [List.length_append, List.length_map, List.length_take, hlen]
      exact hroom
  refine ⟨hblocks, fun n start stop hlatest hn hmax => ?_⟩
  obtain ⟨-, hnewest, hcovers⟩ := h.latest n start stop hlatest
  obtain ⟨x, hx, rfl⟩ : ∃ x ∈ t.entries, x.2 = n := by
    rw [← List.map_snd_zip h.length.le] at hn
    exact List.mem_map.mp hn
  -- The number of the latest insert is the highest, so its range comes first.
  have hsorted := t.byRecency_sorted
  have hmem := hperm.mem_iff.mpr hx
  cases hfirst : t.byRecency with
  | nil =>
    rw [hfirst] at hmem
    cases hmem
  | cons first rest =>
    have hentry : first ∈ t.entries := hperm.mem_iff.mp (hfirst ▸ List.mem_cons_self ..)
    have hle := hnewest first.2 (List.of_mem_zip hentry).2
    rw [hfirst] at hmem hsorted
    have hge : x.2 ≤ first.2 := by
      rcases List.mem_cons.mp hmem with rfl | hmem
      · exact le_refl _
      · exact (List.pairwise_cons.mp hsorted).1 x hmem
    obtain ⟨k, hk⟩ : ∃ k, min max 4 = k + 1 := ⟨min max 4 - 1, by omega⟩
    refine ⟨(first.1.start, first.1.stop), ?_, hcovers first hentry (by omega)⟩
    rw [hblocks, hfirst, hk, List.take_succ_cons, List.map_cons,
      List.getElem?_append_right (le_refl _), Nat.sub_self, List.getElem?_cons_zero]

/-- Two ranges, the first of them found again, and a third that finds no room. -/
theorem fillSackBlocks_duplicate :
    ((Logged.run [.insert 200 300 100, .insert 400 500 100, .insert 210 220 100, .insert 600 700 100] :
      Logged 2).list.fillSackBlocks ⟨[], by decide⟩ 3).blocks = [(200, 300), (400, 500)] := by
  obtain ⟨hblocks, -⟩ := @fillSackBlocks_recent 2
    [.insert 200 300 100, .insert 400 500 100, .insert 210 220 100, .insert 600 700 100] ⟨[], by decide⟩ 3
    (by decide +kernel) (by decide +kernel)
  rw [hblocks]
  decide +kernel

end OooList

end TcpSansIo
