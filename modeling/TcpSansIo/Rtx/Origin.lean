import TcpSansIo.Rtx.Valid

/-!
# Where records come from

SACK blocks split records and set marks.  Every record they leave is a part of one that was there, with
its time of transmission and its mark of having been retransmitted (`Inherits`), and a record the queue
reports as acknowledged was in it, from before the acknowledgment on (`mem_calls_ackTo`).
-/

namespace TcpSansIo

open FixedWidth

namespace RtxQueue

variable {CAP : ℕ} [RtxCap CAP] {q q' q'' : RtxQueue CAP} {a b : U32} {f : Option Bool}

/-- `x` is a part of record `s` of a queue that begins at `a`, and is SACKed if `s` was. -/
structure PartOf (a : U32) (s x : Seg) : Prop where
  start : (s.start - a).toNat ≤ (x.start - a).toNat
  time : x.xmitTs = s.xmitTs
  retrans : x.flags.everRetrans = s.flags.everRetrans
  sacked : s.flags.sacked = true → x.flags.sacked = true

namespace PartOf

lemma refl (a : U32) (s : Seg) : PartOf a s s := ⟨le_refl _, rfl, rfl, id⟩

lemma trans {s x y : Seg} (h : PartOf a s x) (h' : PartOf a x y) : PartOf a s y where
  start := h.start.trans h'.start
  time := h'.time.trans h.time
  retrans := h'.retrans.trans h.retrans
  sacked := h'.sacked ∘ h.sacked

end PartOf

/-- Every record of `q'` is a part of one of `q`. -/
def Inherits (a : U32) (q q' : RtxQueue CAP) : Prop :=
  ∀ x ∈ q'.records, ∃ s ∈ q.records, PartOf a s x

namespace Inherits

lemma refl (a : U32) (q : RtxQueue CAP) : Inherits a q q := fun x hx => ⟨x, hx, .refl a x⟩

lemma trans (h : Inherits a q q') (h' : Inherits a q' q'') : Inherits a q q'' := by
  intro y hy
  obtain ⟨x, hx, hxy⟩ := h' y hy
  obtain ⟨s, hs, hsx⟩ := h x hx
  exact ⟨s, hs, hsx.trans hxy⟩

/-- Replacing one record by parts of it. -/
lemma splice {i : ℕ} {s : Seg} (mid : List Seg) (hs : q.get i = some s)
    (hrecords : q'.records = q.records.take i ++ mid ++ q.records.drop (i + 1))
    (hmid : ∀ x ∈ mid, PartOf a s x) : Inherits a q q' := by
  intro x hx
  rw [hrecords, List.mem_append, List.mem_append] at hx
  rcases hx with (hx | hx) | hx
  · exact ⟨x, List.mem_of_mem_take hx, .refl a x⟩
  · exact ⟨s, mem_of_get hs, hmid x hx⟩
  · exact ⟨x, List.mem_of_mem_drop hx, .refl a x⟩

lemma setState {i : ℕ} {s : Seg} {flags : SegFlags} {sent : U16} (hs : q.get i = some s)
    (hretrans : flags.everRetrans = s.flags.everRetrans)
    (hsacked : s.flags.sacked = true → flags.sacked = true) :
    Inherits a q (q.setState i flags sent) := by
  have hrecords : ∀ new : Seg, (((q.addCounts s false).addCounts new true).setSeg i new).records =
      q.records.take i ++ [new] ++ q.records.drop (i + 1) :=
    fun new => records_setSeg (q := (q.addCounts s false).addCounts new true) (lt_of_get hs) new
  unfold RtxQueue.setState
  simp only [hs]
  generalize (if flags.isPartial = true then sent else 0) = kept
  have hnew := hrecords { s with flags := flags, sent := kept }
  refine splice [{ s with flags := flags, sent := kept }] hs ?_ fun x hx => ?_
  · split <;> exact hnew
  · rw [List.mem_singleton.mp hx]
    exact ⟨le_refl _, rfl, hretrans, hsacked⟩

lemma setFlags {i : ℕ} {s : Seg} {flags : SegFlags} (hs : q.get i = some s)
    (hretrans : flags.everRetrans = s.flags.everRetrans)
    (hsacked : s.flags.sacked = true → flags.sacked = true) : Inherits a q (q.setFlags i flags) :=
  setState hs hretrans hsacked

lemma unmarkLostAt (q : RtxQueue CAP) (i : ℕ) : Inherits a q (q.unmarkLostAt i) := by
  unfold RtxQueue.unmarkLostAt
  cases hs : q.get i with
  | none => exact .refl a q
  | some s =>
    dsimp only
    split
    · exact setFlags hs rfl id
    · exact .refl a q

lemma unmarkLost (q : RtxQueue CAP) : Inherits a q q.unmarkLost := by
  have hfold (l : List ℕ) (q' : RtxQueue CAP) : Inherits a q' (l.foldl RtxQueue.unmarkLostAt q') := by
    induction l generalizing q' with
    | nil => exact .refl a q'
    | cons i l ih => exact (unmarkLostAt q' i).trans (ih _)
  exact hfold _ q

lemma split {i : ℕ} {cut : U32} (h : Valid q a b f) : Inherits a q (q.split i cut).2 := by
  unfold RtxQueue.split
  cases hs : q.get i with
  | none => exact .refl a q
  | some s =>
    dsimp only
    split
    case isFalse => exact .refl a q
    case isTrue hcut =>
      obtain ⟨⟨hlo, hhi⟩, hroom⟩ := hcut
      have hmem := mem_of_get hs
      have hle := h.record_le hmem
      have hlt := h.span_lt
      have hspan := h.span_eq
      obtain ⟨-, -, hcut⟩ := cut_inside (h.ok s hmem).pos (h.board.seqLen_lt hmem) hlo hhi
      refine splice [(splitSeg s cut).1, (splitSeg s cut).2] hs ?_ fun x hx => ?_
      · rw [← records_split hs hroom]
        dsimp only [setSackedBit, setSeg, records]
        split <;> rfl
      · obtain ⟨⟨hstart₁, -, -, hsack₁⟩, hstart₂, -, -, hsack₂⟩ := splitSeg_shape s cut
        obtain ⟨⟨htime₁, hretrans₁⟩, htime₂, hretrans₂⟩ := splitSeg_history s cut
        simp only [List.mem_cons, List.not_mem_nil, or_false] at hx
        rcases hx with rfl | rfl
        · exact ⟨by rw [hstart₁], htime₁, hretrans₁, fun h => hsack₁.trans h⟩
        · refine ⟨?_, htime₂, hretrans₂, fun h => hsack₂.trans h⟩
          have hsum : cut - a = (s.start - a) + (cut - s.start) := by bv_omega
          rw [hstart₂, hsum, BitVec.toNat_add, Nat.mod_eq_of_lt (by omega)]
          exact Nat.le_add_right _ _

lemma sackLoop {l r : U32} (acc : Sacked CAP) (h : Valid acc.queue a b f) (fuel i : ℕ) :
    Inherits a acc.queue (sackLoop l r fuel i acc).queue := by
  induction fuel generalizing i acc with
  | zero => exact .refl a _
  | succ fuel ih =>
    rw [RtxQueue.sackLoop]
    cases hs : acc.queue.get i with
    | none => exact .refl a _
    | some s =>
      dsimp only
      split
      · exact .refl a _
      · split
        · split
          · exact ih _ h _
          · exact .refl a _
        · split
          · split
            · exact (split h).trans (ih _ h.split _)
            · exact .refl a _
          · split
            · have hmark : Inherits a acc.queue (acc.queue.setFlags i { s.flags with
                  sacked := true, lost := false, retrans := false, isPartial := false }) :=
                setFlags hs rfl fun _ => rfl
              exact hmark.trans (ih _ (h.markSacked hs) _)
            · exact ih _ h _

lemma sack (h : Valid q a b f) (left right : U32) : Inherits a q (q.sack left right).queue := by
  have hedge (i : ℕ) (l : U32) : Inherits a q (q.splitLeftEdge i l).2 := by
    unfold RtxQueue.splitLeftEdge
    cases q.get i with
    | none => exact .refl a q
    | some s =>
      dsimp only
      split
      · split
        · exact split h
        · exact .refl a q
      · exact .refl a q
  unfold RtxQueue.sack
  cases q.get 0 with
  | none => exact .refl a q
  | some first =>
    cases q.last with
    | none => exact .refl a q
    | some final =>
      dsimp only
      generalize (if seqLt left first.start then first.start else left) = l
      generalize (if seqLt final.stop right then final.stop else right) = r
      split
      · split
        · exact .refl a q
        case h_2 i _ =>
          exact (hedge i l).trans (sackLoop ⟨0, [], (q.splitLeftEdge i l).2⟩ (h.splitLeftEdge i l) _ _)
      · exact .refl a q

end Inherits

/-! ## Acknowledged records -/

lemma mem_calls_ackToLoop {una : U32} {fuel : ℕ} (acc : Acked CAP) (h : Valid acc.queue a b f)
    (hin : (una - a).toNat ≤ (b - a).toNat) {c : Seg × Bool} (hc : c ∈ (ackToLoop una fuel acc).calls) :
    c ∈ acc.calls ∨ c.1 ∈ acc.queue.records ∧ c.2 = !c.1.flags.sacked ∧ seqLt c.1.start una := by
  induction fuel generalizing a acc with
  | zero => exact .inl hc
  | succ fuel ih =>
    have hspan := h.span_lt
    have hlen := h.span_eq
    rw [RtxQueue.ackToLoop] at hc
    cases hs : acc.queue.get 0 with
    | none =>
      rw [hs] at hc
      exact .inl hc
    | some s =>
      rw [hs] at hc
      have hcons := records_cons hs
      have hstart : s.start = a := by
        have hchain := h.chain
        rw [hcons] at hchain
        exact hchain.1
      have hrest : span acc.queue.records = s.seqLen.toNat + span acc.queue.records.tail := by
        conv_lhs => rw [hcons, span_cons]
      have hok := h.ok s (mem_of_get hs)
      have hin' : (una - s.start).toNat < 2 ^ 21 := by rw [hstart]; omega
      obtain ⟨hfull, hpart, hnext⟩ := ack_against (h.board.seqLen_lt (mem_of_get hs)) (hin'.trans (by decide))
      dsimp only at hc
      -- What is reported of this record, or of a later one.
      have hthis (hmem : c ∈ acc.calls ++ [(s, !s.flags.sacked)])
          (hlt : seqLt s.start una) : c ∈ acc.calls ∨
            c.1 ∈ acc.queue.records ∧ c.2 = !c.1.flags.sacked ∧ seqLt c.1.start una := by
        rcases List.mem_append.mp hmem with hmem | hmem
        · exact .inl hmem
        · rw [List.mem_singleton.mp hmem]
          exact .inr ⟨mem_of_get hs, rfl, hlt⟩
      split at hc
      case isTrue hcov =>
        have hcovered := hfull.mp hcov
        have hpos := hok.pos
        have hdrop := h.dropFirst hs
        have hrecords : (acc.queue.addCounts s false).dropFirst.records = acc.queue.records.tail :=
          acc.queue.segs.toList_popFront
        rcases ih _ hdrop (by rw [hnext hcovered, hdrop.span_eq, hrecords, hstart]; omega) hc with
          hc | ⟨hc, hsack, hlt⟩
        · exact hthis hc (hpart.mpr (by omega))
        · rw [hrecords] at hc
          exact .inr ⟨List.mem_of_mem_tail hc, hsack, hlt⟩
      case isFalse =>
        split at hc
        case isTrue hlt => exact hthis hc hlt
        case isFalse => exact .inl hc

/-- What a cumulative acknowledgment reports: records that start before it, each with whether it had not
been SACKed. -/
lemma mem_calls_ackTo {una : U32} (h : Valid q a b f) (hin : (una - a).toNat ≤ (b - a).toNat)
    {c : Seg × Bool} (hc : c ∈ (q.ackTo una).calls) :
    c.1 ∈ q.records ∧ c.2 = !c.1.flags.sacked ∧ seqLt c.1.start una :=
  (mem_calls_ackToLoop ⟨0, [], q⟩ h hin hc).resolve_left (List.not_mem_nil (a := c))

/-- A part that starts before `una` belongs to a record that does. -/
lemma PartOf.seqLt {s x : Seg} {una : U32} (h : PartOf a s x) (hv : Valid q a b f) (hv' : Valid q' a b f)
    (hs : s ∈ q.records) (hx : x ∈ q'.records) (hin : (una - a).toNat ≤ (b - a).toNat)
    (hlt : TcpSansIo.seqLt x.start una) : TcpSansIo.seqLt s.start una := by
  have h₁ := hv.record_le hs
  have h₂ := hv'.record_le hx
  have h₃ := hv.span_lt
  have h₄ := hv.span_eq
  have h₅ := h.start
  have hsub₁ : s.start - una = (s.start - a) - (una - a) := by bv_omega
  have hsub₂ : x.start - una = (x.start - a) - (una - a) := by bv_omega
  rw [seqLt_iff, hsub₂] at hlt
  rw [seqLt_iff, hsub₁]
  generalize s.start - a = y at *
  generalize x.start - a = z at *
  generalize una - a = w at *
  clear hsub₁ hsub₂
  bv_omega

end RtxQueue

end TcpSansIo
