import TcpSansIo.Rtx.AckTo
import TcpSansIo.Rtx.LossSearch

/-!
# Records as pieces of transmissions

Apart from the two calls that stand for a transmission, a call replaces records by pieces of
themselves, one after the other (`Edits`): it cuts them, trims them, drops them or changes their
marks, and each piece keeps the number of the transmission it was sent in.  This holds whatever the
arguments are, as long as no record is empty, so what is true of transmissions in sequence order
survives every such call.
-/

namespace TcpSansIo

open FixedWidth

/-- `x` is a part of what record `s` says was sent, in the same transmission. -/
structure Seg.Piece (s x : Seg) : Prop where
  xmit : x.xmitSeq = s.xmitSeq
  retrans : x.flags.everRetrans = s.flags.everRetrans
  inside : (x.start - s.start).toNat + x.seqLen.toNat ≤ s.seqLen.toNat
  pos : 0 < s.seqLen.toNat → 0 < x.seqLen.toNat

namespace Seg.Piece

variable {s x y : Seg}

lemma refl (s : Seg) : s.Piece s := by
  refine ⟨rfl, rfl, ?_, id⟩
  rw [BitVec.sub_self]
  simp

lemma trans (h : s.Piece x) (h' : x.Piece y) : s.Piece y := by
  refine ⟨h'.xmit.trans h.xmit, h'.retrans.trans h.retrans, ?_, h'.pos ∘ h.pos⟩
  have h₁ := h.inside
  have h₂ := h'.inside
  have h₃ := toNat_sub_le s.start x.start y.start
  omega

/-- The same numbers, under other marks. -/
lemma of_marks {flags : SegFlags} {sent : U16} (h : flags.everRetrans = s.flags.everRetrans) :
    s.Piece { s with flags := flags, sent := sent } :=
  ⟨rfl, h, (refl s).inside, id⟩

/-- Where a cut strictly inside a record lies. -/
lemma lengths_of_inside {c : U32} (hpos : 0 < s.seqLen.toNat) (hc : s.Inside c) :
    0 < (c - s.start).toNat ∧ 0 < (s.stop - c).toNat ∧
      (c - s.start).toNat + (s.stop - c).toNat = s.seqLen.toNat := by
  obtain ⟨hlo, hhi⟩ := hc
  have hsum : s.seqLen = (c - s.start) + (s.stop - c) := by
    rw [Seg.seqLen]
    bv_omega
  have hneg₁ : c - s.start = -(s.start - c) := by bv_omega
  have hneg₂ : s.stop - c = -(c - s.stop) := by bv_omega
  rw [seqLt_iff] at hlo hhi
  have h₁ : (c - s.start).toNat = 2 ^ 32 - (s.start - c).toNat := by
    rw [hneg₁, BitVec.toNat_neg, Nat.mod_eq_of_lt (by omega)]
  have h₂ : (s.stop - c).toNat = 2 ^ 32 - (c - s.stop).toNat := by
    rw [hneg₂, BitVec.toNat_neg, Nat.mod_eq_of_lt (by omega)]
  have hlt₁ := (s.start - c).isLt
  have hlt₂ := (c - s.stop).isLt
  rw [hsum, BitVec.toNat_add] at hpos ⊢
  -- The two lengths are at most half the space each, and not both, or the record would be empty.
  have hne : (c - s.start).toNat + (s.stop - c).toNat ≠ 2 ^ 32 := by
    intro heq
    rw [heq] at hpos
    exact absurd hpos (by decide)
  rw [Nat.mod_eq_of_lt (by omega)]
  omega

lemma splitSeg {c : U32} (hpos : 0 < s.seqLen.toNat) (hc : s.Inside c) :
    s.Piece (RtxQueue.splitSeg s c).1 ∧ s.Piece (RtxQueue.splitSeg s c).2 := by
  obtain ⟨hlo, hhi, hsum⟩ := lengths_of_inside hpos hc
  obtain ⟨⟨hstart₁, hstop₁, -⟩, hstart₂, hstop₂, -⟩ := splitSeg_shape s c
  obtain ⟨⟨-, hretrans₁⟩, -, hretrans₂⟩ := splitSeg_history s c
  have hxmit : (RtxQueue.splitSeg s c).1.xmitSeq = s.xmitSeq ∧
      (RtxQueue.splitSeg s c).2.xmitSeq = s.xmitSeq := by
    unfold RtxQueue.splitSeg
    dsimp only
    split
    · dsimp only
      constructor
      · split <;> rfl
      · split <;> rfl
    · exact ⟨rfl, rfl⟩
  have hlen₁ : (RtxQueue.splitSeg s c).1.seqLen = c - s.start := by rw [Seg.seqLen, hstart₁, hstop₁]
  have hlen₂ : (RtxQueue.splitSeg s c).2.seqLen = s.stop - c := by rw [Seg.seqLen, hstart₂, hstop₂]
  refine ⟨⟨hxmit.1, hretrans₁, ?_, fun _ => hlen₁ ▸ hlo⟩, ⟨hxmit.2, hretrans₂, ?_, fun _ => hlen₂ ▸ hhi⟩⟩
  · rw [hlen₁, hstart₁, BitVec.sub_self, BitVec.toNat_zero]
    omega
  · rw [hlen₂, hstart₂]
    omega

end Seg.Piece

/-- One record gives way to pieces of it, to none when it is dropped. -/
inductive Edit : List Seg → List Seg → Prop
  | pieces (l₁ l₂ : List Seg) {s : Seg} {mid : List Seg} (h : ∀ x ∈ mid, s.Piece x) :
      Edit (l₁ ++ s :: l₂) (l₁ ++ mid ++ l₂)

/-- One edit after the other. -/
def Edits : List Seg → List Seg → Prop := Relation.ReflTransGen Edit

namespace Edits

variable {l l' l'' : List Seg}

lemma refl (l : List Seg) : Edits l l := Relation.ReflTransGen.refl

lemma trans (h : Edits l l') (h' : Edits l' l'') : Edits l l'' := Relation.ReflTransGen.trans h h'

lemma pieces (l₁ l₂ : List Seg) {s : Seg} {mid : List Seg} (h : ∀ x ∈ mid, s.Piece x) :
    Edits (l₁ ++ s :: l₂) (l₁ ++ mid ++ l₂) := Relation.ReflTransGen.single (.pieces l₁ l₂ h)

/-- Changing one record. -/
lemma piece (l₁ l₂ : List Seg) {s x : Seg} (h : s.Piece x) :
    Edits (l₁ ++ s :: l₂) (l₁ ++ x :: l₂) := by
  have hone : Edits (l₁ ++ s :: l₂) (l₁ ++ [x] ++ l₂) :=
    pieces l₁ l₂ fun y hy => by rw [List.mem_singleton.mp hy]; exact h
  rwa [List.append_assoc] at hone

/-- What every edit keeps, edits keep. -/
lemma keep {P : List Seg → Prop} (hstep : ∀ {l l'}, Edit l l' → P l → P l') (h : Edits l l')
    (hl : P l) : P l' := by
  induction h with
  | refl => exact hl
  | tail _ hedit ih => exact hstep hedit ih

/-- Every record left is a piece of one that was there. -/
lemma mem {x : Seg} (h : Edits l l') (hx : x ∈ l') : ∃ s ∈ l, s.Piece x := by
  have hall : ∀ y ∈ l', ∃ s ∈ l, s.Piece y := by
    refine h.keep (P := fun l' => ∀ y ∈ l', ∃ s ∈ l, s.Piece y) ?_ fun y hy => ⟨y, hy, .refl y⟩
    rintro _ _ ⟨l₁, l₂, hmid⟩ hl y hy
    rw [List.mem_append, List.mem_append] at hy
    rcases hy with (hy | hy) | hy
    · exact hl y (List.mem_append_left _ hy)
    · obtain ⟨s, hs, hpiece⟩ := hl _ (List.mem_append_right _ (List.mem_cons_self ..))
      exact ⟨s, hs, hpiece.trans (hmid y hy)⟩
    · exact hl y (List.mem_append_right _ (List.mem_cons_of_mem _ hy))
  exact hall x hx

lemma pos (h : Edits l l') (hl : ∀ s ∈ l, 0 < s.seqLen.toNat) : ∀ s ∈ l', 0 < s.seqLen.toNat := by
  intro x hx
  obtain ⟨s, hs, hpiece⟩ := h.mem hx
  exact hpiece.pos (hl s hs)

end Edits

namespace RtxQueue

variable {CAP : ℕ} [RtxCap CAP] {q q' q'' : RtxQueue CAP}

/-- No record is empty. -/
def NonEmpty (q : RtxQueue CAP) : Prop := ∀ s ∈ q.records, 0 < s.seqLen.toNat

/-- `q'` comes from `q` by edits, with no transmission in between. -/
structure Edited (q q' : RtxQueue CAP) : Prop where
  records : q.NonEmpty → Edits q.records q'.records
  next : q'.nextXmit = q.nextXmit

namespace Edited

lemma refl (q : RtxQueue CAP) : Edited q q := ⟨fun _ => .refl _, rfl⟩

lemma trans (h : Edited q q') (h' : Edited q' q'') : Edited q q'' :=
  ⟨fun hpos => (h.records hpos).trans (h'.records ((h.records hpos).pos hpos)),
    h'.next.trans h.next⟩

/-- Edits leave the records as they were. -/
lemma of_records_eq (h : q'.records = q.records) (hnext : q'.nextXmit = q.nextXmit) : Edited q q' :=
  ⟨fun _ => by rw [h]; exact .refl _, hnext⟩

lemma nonEmpty (h : Edited q q') (hpos : q.NonEmpty) : q'.NonEmpty := (h.records hpos).pos hpos

lemma setState {i : ℕ} {s : Seg} {flags : SegFlags} (hs : q.get i = some s)
    (h : flags.everRetrans = s.flags.everRetrans) (sent : U16) :
    Edited q (q.setState i flags sent) := by
  have hrec := records_around hs
  have hlen : (q.records.take i).length = i := by
    rw [List.length_take, RingQueue.length_toList]
    have := lt_of_get hs
    omega
  obtain ⟨hset, -⟩ := records_setState hrec flags sent
  rw [hlen] at hset
  refine ⟨fun _ => ?_, ?_⟩
  · rw [hset]
    conv_lhs => rw [hrec]
    exact .piece _ _ (.of_marks h)
  · unfold RtxQueue.setState
    rw [hs]
    dsimp only
    generalize (if flags.isPartial = true then sent else 0) = kept
    split <;> rfl

lemma setFlags {i : ℕ} {s : Seg} {flags : SegFlags} (hs : q.get i = some s)
    (h : flags.everRetrans = s.flags.everRetrans) : Edited q (q.setFlags i flags) :=
  setState hs h _

lemma markLost (q : RtxQueue CAP) (i : ℕ) : Edited q (q.markLost i) := by
  unfold RtxQueue.markLost
  split
  · exact .refl q
  case h_2 s hs =>
    split
    · exact setFlags hs rfl
    · exact .refl q

lemma unmarkLostAt (q : RtxQueue CAP) (i : ℕ) : Edited q (q.unmarkLostAt i) := by
  unfold RtxQueue.unmarkLostAt
  split
  · exact .refl q
  case h_2 s hs =>
    split
    · exact setFlags hs rfl
    · exact .refl q

lemma clearSackedAt (q : RtxQueue CAP) (i : ℕ) : Edited q (q.clearSackedAt i) := by
  unfold RtxQueue.clearSackedAt
  split
  · exact .refl q
  case h_2 s hs =>
    split
    · exact setFlags hs rfl
    · exact .refl q

lemma foldl {step : RtxQueue CAP → ℕ → RtxQueue CAP} (hstep : ∀ q i, Edited q (step q i))
    (l : List ℕ) (q : RtxQueue CAP) : Edited q (l.foldl step q) := by
  induction l generalizing q with
  | nil => exact .refl q
  | cons i l ih => exact (hstep q i).trans (ih _)

lemma markAllLost (q : RtxQueue CAP) : Edited q q.markAllLost := by
  have hfold := foldl markLost (List.range q.len) q
  exact ⟨hfold.records, hfold.next⟩

lemma unmarkLost (q : RtxQueue CAP) : Edited q q.unmarkLost := by
  have hfold := foldl unmarkLostAt (List.range q.len) q
  exact ⟨hfold.records, hfold.next⟩

lemma clearSacked (q : RtxQueue CAP) : Edited q q.clearSacked := foldl clearSackedAt _ q

lemma nextLost (q : RtxQueue CAP) : Edited q q.nextLost.2 := by
  unfold RtxQueue.nextLost
  split <;> exact .of_records_eq rfl rfl

lemma nextXmit_split (q : RtxQueue CAP) (i : ℕ) (cut : U32) :
    (q.split i cut).2.nextXmit = q.nextXmit := by
  unfold RtxQueue.split
  split
  · rfl
  · dsimp only
    split
    · dsimp only [setSackedBit, setSeg]
      split <;> rfl
    · rfl

lemma split (q : RtxQueue CAP) (i : ℕ) (cut : U32) : Edited q (q.split i cut).2 := by
  refine ⟨fun hpos => ?_, nextXmit_split q i cut⟩
  cases hs : q.get i with
  | none =>
    rw [RtxQueue.split, hs]
    exact .refl _
  | some s =>
    by_cases hcut : s.Inside cut ∧ q.segs.len < CAP
    · have hrec := records_around hs
      have hlen : (q.records.take i).length = i := by
        rw [List.length_take, RingQueue.length_toList]
        have := lt_of_get hs
        omega
      obtain ⟨-, hhalves, -⟩ := split_of_inside hrec hcut.1 hcut.2
      rw [hlen] at hhalves
      obtain ⟨hlo, hhi⟩ := Seg.Piece.splitSeg (hpos s (mem_of_get hs)) hcut.1
      have hedit : Edits (q.records.take i ++ s :: q.records.drop (i + 1))
          (q.records.take i ++ [(splitSeg s cut).1, (splitSeg s cut).2] ++ q.records.drop (i + 1)) := by
        refine .pieces _ _ fun x hx => ?_
        simp only [List.mem_cons, List.not_mem_nil, or_false] at hx
        rcases hx with rfl | rfl
        · exact hlo
        · exact hhi
      rw [← hrec, List.append_assoc] at hedit
      rw [hhalves]
      exact hedit
    · rw [split_of_not hs hcut]
      exact .refl _

/-- The marking loop edits, and reports pieces. -/
lemma sackLoop {l r : U32} (acc : Sacked CAP) (hpos : acc.queue.NonEmpty) (fuel i : ℕ) :
    Edited acc.queue (sackLoop l r fuel i acc).queue ∧
      ∀ c ∈ (RtxQueue.sackLoop l r fuel i acc).calls,
        c ∈ acc.calls ∨ ∃ s ∈ acc.queue.records, s.Piece c := by
  induction fuel generalizing i acc with
  | zero => exact ⟨.refl _, fun c hc => .inl hc⟩
  | succ fuel ih =>
    have hstay : Edited acc.queue acc.queue ∧
        ∀ c ∈ acc.calls, c ∈ acc.calls ∨ ∃ s ∈ acc.queue.records, s.Piece c :=
      ⟨.refl _, fun c hc => .inl hc⟩
    -- A round that edits, and adds at most a record of the queue to the calls.
    have hround : ∀ {next : Sacked CAP} (j : ℕ), Edited acc.queue next.queue →
        (∀ c ∈ next.calls, c ∈ acc.calls ∨ c ∈ acc.queue.records) →
        Edited acc.queue (RtxQueue.sackLoop l r fuel j next).queue ∧
          ∀ c ∈ (RtxQueue.sackLoop l r fuel j next).calls,
            c ∈ acc.calls ∨ ∃ s ∈ acc.queue.records, s.Piece c := by
      intro next j hedit hcalls
      obtain ⟨hrest, hlater⟩ := ih next (hedit.nonEmpty hpos) j
      refine ⟨hedit.trans hrest, fun c hc => ?_⟩
      rcases hlater c hc with hc | ⟨x, hx, hpiece⟩
      · exact (hcalls c hc).imp_right fun hc => ⟨c, hc, .refl c⟩
      · obtain ⟨s, hs, hsx⟩ := (hedit.records hpos).mem hx
        exact .inr ⟨s, hs, hsx.trans hpiece⟩
    rw [sackLoop_succ]
    unfold sackRound
    cases hs : acc.queue.get i with
    | none => exact hstay
    | some s =>
      dsimp only
      split
      case h_1 => exact hstay
      case h_2 next hnext =>
        split at hnext
        · cases hnext
        split at hnext
        · obtain ⟨j, -, rfl⟩ := Option.map_eq_some_iff.mp hnext
          exact ih acc hpos j
        split at hnext
        · split at hnext
          · cases hnext
            exact hround i (split acc.queue i r) fun c hc => .inl hc
          · cases hnext
        split at hnext
        · cases hnext
          refine hround (i + 1) (setFlags hs rfl) fun c hc => ?_
          rcases List.mem_append.mp hc with hc | hc
          · exact .inl hc
          · rw [List.mem_singleton.mp hc]
            exact .inr (mem_of_get hs)
        · cases hnext
          exact ih acc hpos (i + 1)

lemma splitLeftEdge (q : RtxQueue CAP) (i : ℕ) (l : U32) : Edited q (q.splitLeftEdge i l).2 := by
  unfold RtxQueue.splitLeftEdge
  split
  · exact .refl q
  · split
    · split
      · exact split q i l
      · exact .refl q
    · exact .refl q

lemma sack (hpos : q.NonEmpty) (left right : U32) :
    Edited q (q.sack left right).queue ∧
      ∀ c ∈ (q.sack left right).calls, ∃ s ∈ q.records, s.Piece c := by
  have hnothing : Edited q q ∧ ∀ c ∈ ([] : List Seg), ∃ s ∈ q.records, s.Piece c :=
    ⟨.refl q, fun c hc => absurd hc (List.not_mem_nil (a := c))⟩
  unfold RtxQueue.sack
  split
  case h_1 first final _ _ =>
    dsimp only
    generalize (if seqLt left first.start then first.start else left) = l
    generalize (if seqLt final.stop right then final.stop else right) = r
    split
    · split
      · exact hnothing
      case h_2 i _ =>
        have hedge := splitLeftEdge q i l
        obtain ⟨hloop, hcalls⟩ := sackLoop (l := l) (r := r) ⟨0, [], (q.splitLeftEdge i l).2⟩
          (hedge.nonEmpty hpos) (2 * CAP + 1) (q.splitLeftEdge i l).1
        refine ⟨hedge.trans hloop, fun c hc => ?_⟩
        rcases hcalls c hc with hc | ⟨x, hx, hpiece⟩
        · exact absurd hc (List.not_mem_nil (a := c))
        · obtain ⟨s, hs, hsx⟩ := (hedge.records hpos).mem hx
          exact ⟨s, hs, hsx.trans hpiece⟩
    · exact hnothing
  · exact hnothing

/-- A cumulative acknowledgment drops records and trims one, and reports records of the queue. -/
lemma ackToLoop (una : U32) (fuel : ℕ) (acc : Acked CAP) :
    Edited acc.queue (ackToLoop una fuel acc).queue ∧
      ∀ c ∈ (RtxQueue.ackToLoop una fuel acc).calls, c ∈ acc.calls ∨ c.1 ∈ acc.queue.records := by
  induction fuel generalizing acc with
  | zero => exact ⟨.refl _, fun c hc => .inl hc⟩
  | succ fuel ih =>
    rw [RtxQueue.ackToLoop]
    cases hs : acc.queue.get 0 with
    | none => exact ⟨.refl _, fun c hc => .inl hc⟩
    | some s =>
      have hcons := records_cons hs
      have hthis : ∀ c ∈ acc.calls ++ [(s, !s.flags.sacked)],
          c ∈ acc.calls ∨ c.1 ∈ acc.queue.records := by
        intro c hc
        rcases List.mem_append.mp hc with hc | hc
        · exact .inl hc
        · rw [List.mem_singleton.mp hc]
          exact .inr (mem_of_get hs)
      dsimp only
      split
      case isTrue =>
        have hrecords : (acc.queue.addCounts s false).dropFirst.records = acc.queue.records.tail :=
          acc.queue.segs.toList_popFront
        have hdrop : Edited acc.queue (acc.queue.addCounts s false).dropFirst := by
          refine ⟨fun _ => ?_, rfl⟩
          rw [hrecords]
          conv_lhs => rw [hcons]
          exact @Edits.pieces [] acc.queue.records.tail s [] fun x hx => (by cases hx)
        obtain ⟨hrest, hcalls⟩ := ih
          { removed := satAdd acc.removed s.seqLen
            calls := acc.calls ++ [(s, !s.flags.sacked)]
            queue := (acc.queue.addCounts s false).dropFirst }
        refine ⟨hdrop.trans hrest, fun c hc => ?_⟩
        rcases hcalls c hc with hc | hc
        · exact hthis c hc
        · rw [hrecords] at hc
          exact .inr (List.mem_of_mem_tail hc)
      case isFalse hstop =>
        split
        case isTrue hstart =>
          refine ⟨?_, hthis⟩
          have hset := records_setSeg
            (q := (acc.queue.addCounts s false).addCounts (trimSeg s una).1 true) (lt_of_get hs)
            (trimSeg s una).1
          have htrim : Edited acc.queue (((acc.queue.addCounts s false).addCounts
              (trimSeg s una).1 true).setSeg 0 (trimSeg s una).1) := by
            refine ⟨fun hpos => ?_, rfl⟩
            rw [hset]
            conv_lhs => rw [records_around hs]
            refine .piece [] _ ?_
            rw [trimSeg_fst]
            exact (Seg.Piece.splitSeg (hpos s (mem_of_get hs)) ⟨hstart, seqLt_of_not_seqLe hstop⟩).2
          dsimp only
          split
          · exact ⟨htrim.records, htrim.next⟩
          · exact htrim
        case isFalse => exact ⟨.refl _, fun c hc => .inl hc⟩

lemma ackTo (q : RtxQueue CAP) (una : U32) :
    Edited q (q.ackTo una).queue ∧ ∀ c ∈ (q.ackTo una).calls, c.1 ∈ q.records := by
  obtain ⟨hedit, hcalls⟩ := ackToLoop una (q.len + 1) ⟨0, [], q⟩
  refine ⟨⟨?_, ?_⟩, fun c hc => (hcalls c hc).resolve_left (List.not_mem_nil (a := c))⟩
  · intro hpos
    rw [RtxQueue.ackTo, records_rewindIfEmpty]
    exact hedit.records hpos
  · rw [← hedit.next]
    unfold RtxQueue.ackTo RtxQueue.rewindIfEmpty
    dsimp only
    split <;> rfl

end Edited

end RtxQueue

end TcpSansIo
