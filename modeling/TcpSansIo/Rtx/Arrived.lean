import TcpSansIo.Rack
import TcpSansIo.Rtx.Edits

/-!
# What the peer reported to have arrived

`arrived` reads the SACK marks of a list of records off as one flag per sequence number, in order.
Seen like this, the calls of the queue do very little: loss marks, cuts and retransmissions change
nothing, a transmission appends unset flags, a SACK block sets flags, and a cumulative acknowledgment
drops as many flags as it covers.  A count of delivered bytes is a count of flags.
-/

namespace TcpSansIo

open FixedWidth

/-- For every sequence number the records cover, in order, whether it was SACKed. -/
def arrived (l : List Seg) : List Bool :=
  l.flatMap fun s => List.replicate s.seqLen.toNat s.flags.sacked

@[simp] lemma arrived_nil : arrived [] = [] := rfl

@[simp] lemma arrived_cons (s : Seg) (l : List Seg) :
    arrived (s :: l) = List.replicate s.seqLen.toNat s.flags.sacked ++ arrived l := List.flatMap_cons

@[simp] lemma arrived_append (l l' : List Seg) : arrived (l ++ l') = arrived l ++ arrived l' :=
  List.flatMap_append

@[simp] lemma length_arrived (l : List Seg) : (arrived l).length = span l := by
  induction l with
  | nil => rfl
  | cons s l ih => rw [arrived_cons, List.length_append, List.length_replicate, ih, span_cons]

/-- The set flags are what the queue counts as SACKed. -/
lemma count_arrived (l : List Seg) : (arrived l).count true = (shares l).1 := by
  induction l with
  | nil => rfl
  | cons s l ih =>
    rw [arrived_cons, List.count_append, List.count_replicate, ih, shares_cons, Prod.fst_add, Seg.share]
    cases s.flags.sacked <;> simp

/-! ## Flags that only get set -/

/-- `m'` has every flag of `m`, and maybe more. -/
def Grows : List Bool → List Bool → Prop := List.Forall₂ fun b b' => b = true → b' = true

namespace Grows

variable {m m' m'' n n' : List Bool}

lemma refl (m : List Bool) : Grows m m := List.forall₂_same.mpr fun _ _ => id

lemma trans (h : Grows m m') (h' : Grows m' m'') : Grows m m'' := by
  induction h generalizing m'' with
  | nil => exact h'
  | cons hb _ ih =>
    cases h' with
    | cons hb' ht => exact .cons (hb' ∘ hb) (ih ht)

lemma append (h : Grows m m') (h' : Grows n n') : Grows (m ++ n) (m' ++ n') :=
  List.rel_append h h'

lemma length_eq (h : Grows m m') : m'.length = m.length := (List.Forall₂.length_eq h).symm

lemma getD (h : Grows m m') {i : ℕ} (hi : m.getD i false = true) : m'.getD i false = true := by
  induction h generalizing i with
  | nil => simp at hi
  | cons hb _ ih =>
    cases i with
    | zero => exact hb hi
    | succ i => exact ih hi

/-- Setting all flags of a stretch. -/
lemma replicate (k : ℕ) (b : Bool) : Grows (List.replicate k b) (List.replicate k true) := by
  induction k with
  | zero => exact .nil
  | succ k ih => exact .cons (fun _ => rfl) ih

end Grows

/-! ## Marks, cuts and transmissions -/

namespace RtxQueue

variable {CAP : ℕ} [RtxCap CAP] {q : RtxQueue CAP}

lemma records_setState_at {i : ℕ} {s : Seg} (hs : q.get i = some s) (flags : SegFlags) (sent : U16) :
    (q.setState i flags sent).records = q.records.take i ++
      { s with flags := flags, sent := if flags.isPartial then sent else 0 } :: q.records.drop (i + 1) := by
  have hlen : (q.records.take i).length = i := by
    rw [List.length_take, RingQueue.length_toList]
    have := lt_of_get hs
    omega
  obtain ⟨hset, -⟩ := records_setState (records_around hs) flags sent
  rwa [hlen] at hset

/-- New marks on one record: its flags are replaced. -/
lemma arrived_setState {i : ℕ} {s : Seg} (hs : q.get i = some s) (flags : SegFlags) (sent : U16) :
    arrived (q.setState i flags sent).records = arrived (q.records.take i) ++
      (List.replicate s.seqLen.toNat flags.sacked ++ arrived (q.records.drop (i + 1))) := by
  rw [records_setState_at hs, arrived_append, arrived_cons]
  rfl

lemma arrived_around {i : ℕ} {s : Seg} (hs : q.get i = some s) :
    arrived q.records = arrived (q.records.take i) ++
      (List.replicate s.seqLen.toNat s.flags.sacked ++ arrived (q.records.drop (i + 1))) := by
  conv_lhs => rw [records_around hs, arrived_append, arrived_cons]

lemma arrived_setFlags {i : ℕ} {s : Seg} {flags : SegFlags} (hs : q.get i = some s)
    (h : flags.sacked = s.flags.sacked) : arrived (q.setFlags i flags).records = arrived q.records := by
  rw [RtxQueue.setFlags, arrived_setState hs, h, ← arrived_around hs]

lemma arrived_markLost (q : RtxQueue CAP) (i : ℕ) :
    arrived (q.markLost i).records = arrived q.records := by
  unfold RtxQueue.markLost
  split
  · rfl
  case h_2 s hs =>
    split
    · exact arrived_setFlags hs rfl
    · rfl

lemma arrived_unmarkLostAt (q : RtxQueue CAP) (i : ℕ) :
    arrived (q.unmarkLostAt i).records = arrived q.records := by
  unfold RtxQueue.unmarkLostAt
  split
  · rfl
  case h_2 s hs =>
    split
    · exact arrived_setFlags hs rfl
    · rfl

omit [RtxCap CAP] in
/-- What every step of a fold leaves alone, the fold leaves alone. -/
lemma foldl_same {β : Type} {f : RtxQueue CAP → β} {step : RtxQueue CAP → ℕ → RtxQueue CAP}
    (hstep : ∀ q i, f (step q i) = f q) (l : List ℕ) (q : RtxQueue CAP) : f (l.foldl step q) = f q := by
  induction l generalizing q with
  | nil => rfl
  | cons i l ih => rw [List.foldl_cons, ih, hstep]

lemma arrived_markAllLost (q : RtxQueue CAP) : arrived q.markAllLost.records = arrived q.records :=
  foldl_same (f := fun q => arrived q.records) arrived_markLost _ q

lemma arrived_unmarkLost (q : RtxQueue CAP) : arrived q.unmarkLost.records = arrived q.records :=
  foldl_same (f := fun q => arrived q.records) arrived_unmarkLostAt _ q

lemma arrived_nextLost (q : RtxQueue CAP) : arrived q.nextLost.2.records = arrived q.records := by
  unfold RtxQueue.nextLost
  split <;> rfl

lemma arrived_retransmitted (q : RtxQueue CAP) (i : ℕ) (now : U64) (sent : U16) :
    arrived (q.retransmitted i now sent).records = arrived q.records := by
  unfold RtxQueue.retransmitted
  split
  · rfl
  case h_2 s hs =>
    dsimp only
    generalize hflags :
      ({ s.flags with retrans := true, everRetrans := true, isPartial := (sent != 0) } : SegFlags) = flags
    have hset : arrived (q.setState i flags sent).records = arrived q.records := by
      rw [arrived_setState hs, arrived_around hs, ← hflags]
    generalize q.setState i flags sent = q' at hset ⊢
    split
    · exact hset
    case h_2 d hd =>
      rw [← hset, arrived_around hd]
      change arrived (q'.setSeg i _).records = _
      rw [records_setSeg (lt_of_get hd), List.append_assoc, arrived_append]
      rfl

/-- A timeout that forgets SACK marks still covers the same sequence numbers. -/
lemma span_clearSacked (q : RtxQueue CAP) : span q.clearSacked.records = span q.records := by
  refine foldl_same (f := fun q => span q.records) (fun q i => ?_) _ q
  rw [← length_arrived, ← length_arrived]
  unfold RtxQueue.clearSackedAt
  split
  · rfl
  case h_2 s hs =>
    split
    · rw [RtxQueue.setFlags, arrived_setState hs, arrived_around hs]
      simp only [List.length_append, List.length_replicate]
    · rfl

lemma arrived_push (q : RtxQueue CAP) (s : Seg) : arrived (q.push s).2.records =
    if (q.push s).1 then arrived q.records ++ List.replicate s.seqLen.toNat s.flags.sacked
    else arrived q.records := by
  unfold RtxQueue.push
  split
  case isTrue hroom =>
    rw [if_pos rfl]
    change arrived (q.segs.pushBack { s with xmitSeq := q.nextXmit } hroom).toList = _
    rw [RingQueue.toList_pushBack, arrived_append, arrived_cons, arrived_nil, List.append_nil]
    rfl
  case isFalse => rfl

/-- Where a cut strictly inside a record lies, if the record is not empty or the cut not far away. -/
lemma halves_of_inside {s : Seg} {c : U32} (hc : s.Inside c)
    (h : 0 < s.seqLen.toNat ∨ (c - s.start).toNat < 2 ^ 31) :
    (c - s.start).toNat + (s.stop - c).toNat = s.seqLen.toNat := by
  rcases h with hpos | hnear
  · exact (Seg.Piece.lengths_of_inside hpos hc).2.2
  · have hsum : s.seqLen = (c - s.start) + (s.stop - c) := by
      rw [Seg.seqLen]
      bv_omega
    have hneg : s.stop - c = -(c - s.stop) := by bv_omega
    have hhi := hc.2
    rw [seqLt_iff] at hhi
    have hle : (s.stop - c).toNat ≤ 2 ^ 31 := by
      have hlt := (c - s.stop).isLt
      rw [hneg, BitVec.toNat_neg]
      omega
    rw [hsum, BitVec.toNat_add, Nat.mod_eq_of_lt (by omega)]

lemma arrived_split (q : RtxQueue CAP) (i : ℕ) (c : U32)
    (h : ∀ s, q.get i = some s → 0 < s.seqLen.toNat ∨ (c - s.start).toNat < 2 ^ 31) :
    arrived (q.split i c).2.records = arrived q.records := by
  cases hs : q.get i with
  | none =>
    rw [RtxQueue.split, hs]
  | some s =>
    by_cases hcut : s.Inside c ∧ q.segs.len < CAP
    · have hlen : (q.records.take i).length = i := by
        rw [List.length_take, RingQueue.length_toList]
        have := lt_of_get hs
        omega
      obtain ⟨-, hhalves, -⟩ := split_of_inside (records_around hs) hcut.1 hcut.2
      rw [hlen] at hhalves
      obtain ⟨⟨hstart₁, hstop₁, -, hsacked₁⟩, hstart₂, hstop₂, -, hsacked₂⟩ := splitSeg_shape s c
      have hsum := halves_of_inside hcut.1 (h s hs)
      rw [hhalves, arrived_around hs, arrived_append, arrived_cons, arrived_cons, hsacked₁, hsacked₂,
        Seg.seqLen, hstart₁, hstop₁, Seg.seqLen, hstart₂, hstop₂, ← List.append_assoc (List.replicate _ _),
        List.replicate_append_replicate, hsum]
    · rw [split_of_not hs hcut]

lemma arrived_detectLoss (rack : Rack) (q : RtxQueue CAP) (now : U64) (reoWnd : U32) :
    arrived (detectLoss rack q now reoWnd).2.2.records = arrived q.records := by
  have hloop (thresh : U64) (fuel i : ℕ) (a : LossScan CAP) :
      arrived (detectLossLoop rack now thresh fuel i a).queue.records = arrived a.queue.records := by
    induction fuel generalizing i a with
    | zero => rfl
    | succ fuel ih =>
      rw [detectLossLoop]
      split
      · rfl
      split
      · split
        · exact ih _ _
        · rfl
      split
      · exact ih _ _
      split
      · split
        · rfl
        · exact ih _ _
      dsimp only
      split
      · exact (ih _ _).trans (arrived_markLost _ _)
      · exact ih _ _
  unfold detectLoss
  split
  · rfl
  · exact hloop _ _ _ _

/-! ## SACK blocks -/

section Blocks

variable {M : ℕ} {g : Bool} {a b : U32} {f : Option Bool}

/-- The queue's counter is the number of set flags. -/
lemma Board.sacked_eq (h : Board M g q a b f) : q.sacked.toNat = (arrived q.records).count true := by
  rw [count_arrived, ← h.counts]
  rfl

lemma Board.count_lt (h : Board M g q a b f) : (arrived q.records).count true < 2 ^ 31 := by
  have hle := List.count_le_length (a := true) (l := arrived q.records)
  rw [length_arrived] at hle
  exact hle.trans_lt h.half

/-- A block sets flags, and `newly` of them are new. -/
structure SetsFlags (q : RtxQueue CAP) (out : Sacked CAP) (before : U32) : Prop where
  grows : Grows (arrived q.records) (arrived out.queue.records)
  newly : (arrived out.queue.records).count true + before.toNat =
    (arrived q.records).count true + out.newly.toNat

lemma SetsFlags.refl (out : Sacked CAP) : SetsFlags out.queue out out.newly := ⟨.refl _, rfl⟩

lemma SetsFlags.trans {mid out : Sacked CAP} {before : U32} (h : SetsFlags q mid before)
    (h' : SetsFlags mid.queue out mid.newly) : SetsFlags q out before := by
  refine ⟨h.grows.trans h'.grows, ?_⟩
  have h₁ := h.newly
  have h₂ := h'.newly
  omega

/-- A cut inside the queue changes no flag. -/
lemma Board.arrived_split (h : Board M g q a b f) (i : ℕ) (c : U32) :
    arrived (q.split i c).2.records = arrived q.records :=
  RtxQueue.arrived_split q i c fun s hs => .inl (h.sound s (mem_of_get hs)).pos

/-- The marking loop; as long as no more than what is set was counted, the count is exact. -/
lemma Board.sackLoop_arrived {l r : U32} (acc : Sacked CAP) (h : Board M g acc.queue a b f)
    (hle : acc.newly.toNat ≤ (arrived acc.queue.records).count true) (fuel i : ℕ) :
    SetsFlags acc.queue (RtxQueue.sackLoop l r fuel i acc) acc.newly := by
  induction fuel generalizing i acc with
  | zero => exact .refl acc
  | succ fuel ih =>
    rw [RtxQueue.sackLoop]
    cases hs : acc.queue.get i with
    | none => exact .refl acc
    | some s =>
      dsimp only
      split
      · exact .refl acc
      split
      · split
        · exact ih _ h hle _
        · exact .refl acc
      case isFalse hnew =>
        split
        · split
          · have hsame := h.arrived_split i r
            have hrest := ih { acc with queue := (acc.queue.split i r).2 } h.split
              (by dsimp only; rw [hsame]; exact hle) i
            refine ⟨?_, ?_⟩
            · have hgrows := hrest.grows
              rwa [hsame] at hgrows
            · have hnewly := hrest.newly
              rwa [hsame] at hnewly
          · exact .refl acc
        split
        · -- The flags of one record are set, none of which was.
          have hboard := h.markSacked hs
          have hcount := hboard.count_lt
          have hunset : s.flags.sacked = false := by simpa using hnew
          set q' := acc.queue.setFlags i { s.flags with
            sacked := true, lost := false, retrans := false, isPartial := false } with hq'
          have hafter : arrived q'.records = arrived (acc.queue.records.take i) ++
              (List.replicate s.seqLen.toNat true ++ arrived (acc.queue.records.drop (i + 1))) := by
            rw [hq', RtxQueue.setFlags, arrived_setState hs]
          have hbefore := arrived_around hs
          rw [hunset] at hbefore
          have hmore : (arrived q'.records).count true =
              (arrived acc.queue.records).count true + s.seqLen.toNat := by
            rw [hafter, hbefore]
            simp only [List.count_append, List.count_replicate]
            simp
            omega
          have hadd : (satAdd acc.newly s.seqLen).toNat = acc.newly.toNat + s.seqLen.toNat := by
            rw [toNat_satAdd]
            omega
          have hgrows : Grows (arrived acc.queue.records) (arrived q'.records) := by
            rw [hafter, hbefore]
            exact .append (.refl _) (.append (.replicate _ _) (.refl _))
          have hset : SetsFlags acc.queue
              (⟨satAdd acc.newly s.seqLen, acc.calls ++ [s], q'⟩ : Sacked CAP) acc.newly :=
            ⟨hgrows, by dsimp only; omega⟩
          refine hset.trans (ih _ hboard ?_ (i + 1))
          dsimp only
          omega
        · exact ih _ h hle _

/-- Every SACK block, wherever it lies: what it counts as new is what it sets. -/
lemma Board.sack_arrived (h : Board M g q a b f) (left right : U32) :
    SetsFlags q (q.sack left right) 0 := by
  have hnothing : SetsFlags q (⟨0, [], q⟩ : Sacked CAP) 0 := ⟨.refl _, rfl⟩
  unfold RtxQueue.sack
  split
  case h_1 first final _ _ =>
    dsimp only
    generalize (if seqLt left first.start then first.start else left) = l
    generalize (if seqLt final.stop right then final.stop else right) = r
    split
    · split
      · exact hnothing
      case h_2 i _ =>
        have hedge := h.splitLeftEdge i l
        have hsame : arrived (q.splitLeftEdge i l).2.records = arrived q.records := by
          unfold RtxQueue.splitLeftEdge
          split
          · rfl
          · split
            · split
              · exact h.arrived_split i l
              · rfl
            · rfl
        obtain ⟨hgrows, hnewly⟩ := Board.sackLoop_arrived (l := l) (r := r)
          ⟨0, [], (q.splitLeftEdge i l).2⟩ hedge (Nat.zero_le _) (2 * CAP + 1) (q.splitLeftEdge i l).1
        rw [hsame] at hgrows hnewly
        exact ⟨hgrows, hnewly⟩
    · exact hnothing
  · exact hnothing

end Blocks

end RtxQueue

/-! ## Cumulative acknowledgments -/

/-- What is left after an acknowledgment: as many flags are gone as it covers. -/
lemma arrived_dropBelow {a una : U32} {o : ℕ} {t : List Seg} (h : Laid a o t)
    (hhalf : o + span t < 2 ^ 31) (hlo : o ≤ (una - a).toNat) (hhi : (una - a).toNat ≤ o + span t) :
    arrived (dropBelow una t) = (arrived t).drop ((una - a).toNat - o) := by
  induction t generalizing o with
  | nil => simp [dropBelow]
  | cons s t ih =>
    have huna : (una - a).toNat < 2 ^ 31 := by omega
    obtain ⟨hfull, hpart⟩ := h.dropBelow_cons hhalf huna
    obtain ⟨hpos, hstart, hstop, hrest⟩ := h
    rw [span_cons] at hhalf hhi
    rw [dropBelow, arrived_cons, List.drop_append, List.length_replicate, List.drop_replicate]
    split
    case isTrue hcov =>
      rw [hfull] at hcov
      have hall : s.seqLen.toNat - ((una - a).toNat - o) = 0 := by omega
      rw [ih hrest (by omega) hcov (by omega), hall, List.replicate_zero, List.nil_append, Nat.sub_sub]
    case isFalse hcov =>
      rw [hfull] at hcov
      split
      case isTrue hin =>
        rw [hpart] at hin
        obtain ⟨-, hstart₂, hstop₂, -, hsacked₂⟩ := splitSeg_shape s una
        have hlen : (s.stop - una).toNat = s.seqLen.toNat - ((una - a).toNat - o) := by
          rw [toNat_sub_offset (a := a) (by omega), hstop]
          omega
        rw [arrived_cons, hsacked₂, Seg.seqLen, hstart₂, hstop₂, hlen,
          Nat.sub_eq_zero_of_le (by omega : (una - a).toNat - o ≤ s.seqLen.toNat), List.drop_zero]
      case isFalse hin =>
        rw [hpart] at hin
        rw [show (una - a).toNat - o = 0 by omega, Nat.sub_zero, Nat.zero_sub, List.drop_zero,
          arrived_cons]

namespace RtxQueue

variable {CAP : ℕ} [RtxCap CAP] {q : RtxQueue CAP} {M : ℕ} {g : Bool} {a b una : U32}
  {f : Option Bool}

lemma Board.ackTo_arrived (h : Board M g q a b f) (hin : (una - a).toNat ≤ (b - a).toNat) :
    arrived (q.ackTo una).queue.records = (arrived q.records).drop (una - a).toNat := by
  have hhalf := h.half
  rw [(h.ackTo_records hin).1]
  rw [h.span_eq] at hin
  exact arrived_dropBelow h.laid (by omega) (Nat.zero_le _) (by omega)

end RtxQueue

end TcpSansIo
