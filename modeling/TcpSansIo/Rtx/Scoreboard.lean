import TcpSansIo.Rtx.Records
import TcpSansIo.Rtx.Bitmap

/-!
# The scoreboard keeps its invariant

`Board M g q a b f`: the records of `q` are a chain from `a` to `b` that covers less than half the
sequence space, each of them sound and of at most `M` sequence numbers, with the FIN (if `f`) on the
record that ends at `b`; the counters are the sums of the records' shares, and the bitmap has the
bit of a record's slot set exactly when the record is SACKed.  `g` says whether a counter was ever
asked to leave its range; no operation changes that.

Every operation replaces a stretch of records by another one, so there is one lemma about that
(`Board.splice`) and one fact per operation about what it replaces.
-/

namespace TcpSansIo

open FixedWidth

namespace RtxQueue

variable {CAP M : ℕ} {g : Bool} {q q' : RtxQueue CAP} {a b : U32} {f : Option Bool}

/-! ## Counters -/

/-- The counters `sacked`, `lost` and `retrans`. -/
def counts (q : RtxQueue CAP) : ℕ × ℕ × ℕ := (q.sacked.toNat, q.lost.toNat, q.retrans.toNat)

/-- Counts that three 32-bit counters can hold. -/
def Fits (c : ℕ × ℕ × ℕ) : Prop := c.1 < 2 ^ 32 ∧ c.2.1 < 2 ^ 32 ∧ c.2.2 < 2 ^ 32

lemma fits_shares {l : List Seg} (h : ∀ s ∈ l, s.Sound) (hspan : span l < 2 ^ 31) :
    Fits (shares l) := by
  have h₁ := shares_le h
  unfold Fits
  omega

lemma toNat_counter_add {c n : U32} {on : Bool}
    (h : (if on then n.toNat else 0) + c.toNat < 2 ^ 32) :
    (if on then satAdd c n else c).toNat = (if on then n.toNat else 0) + c.toNat := by
  cases on with
  | false => simp
  | true =>
    simp only [if_true, toNat_satAdd] at h ⊢
    omega

lemma toNat_counter_sub {c n : U32} {on : Bool} {r : ℕ}
    (h : c.toNat = (if on then n.toNat else 0) + r) :
    (if on then satSub c n else c).toNat = r := by
  cases on with
  | false => simpa using h
  | true =>
    simp only [if_true, toNat_satSub] at h ⊢
    omega

lemma counts_addCounts_true {s : Seg} (h : Fits (s.share + q.counts)) :
    (q.addCounts s true).counts = s.share + q.counts := by
  obtain ⟨h₁, h₂, h₃⟩ := h
  exact Prod.ext (toNat_counter_add h₁) (Prod.ext (toNat_counter_add h₂) (toNat_counter_add h₃))

lemma counts_addCounts_false {s : Seg} {r : ℕ × ℕ × ℕ} (h : q.counts = s.share + r) :
    (q.addCounts s false).counts = r := by
  obtain ⟨h₁, h₂₃⟩ := Prod.ext_iff.mp h
  obtain ⟨h₂, h₃⟩ := Prod.ext_iff.mp h₂₃
  exact Prod.ext (toNat_counter_sub h₁) (Prod.ext (toNat_counter_sub h₂) (toNat_counter_sub h₃))

/-- Counters that have room for a record's share do not saturate. -/
lemma saturated_addCounts_true {s : Seg} (h : Fits (s.share + q.counts)) :
    (q.addCounts s true).saturated = q.saturated := by
  obtain ⟨h₁, h₂, h₃⟩ := h
  simp only [Seg.share, RtxQueue.counts, Prod.fst_add, Prod.snd_add] at h₁ h₂ h₃
  have hone : ∀ {on : Bool} {c n : U32}, (if on then n.toNat else 0) + c.toNat < 2 ^ 32 →
      (on && decide (2 ^ 32 ≤ c.toNat + n.toNat)) = false := by
    intro on c n hlt
    cases on with
    | false => rfl
    | true =>
      rw [Bool.true_and, decide_eq_false_iff_not]
      simp only [if_true] at hlt
      omega
  simp only [addCounts, if_true, hone h₁, hone h₂, hone h₃, Bool.or_false]

/-- Counters that hold a record's share do not saturate when it is taken out. -/
lemma saturated_addCounts_false {s : Seg} {r : ℕ × ℕ × ℕ} (h : q.counts = s.share + r) :
    (q.addCounts s false).saturated = q.saturated := by
  obtain ⟨h₁, h₂₃⟩ := Prod.ext_iff.mp h
  obtain ⟨h₂, h₃⟩ := Prod.ext_iff.mp h₂₃
  simp only [Seg.share, RtxQueue.counts, Prod.fst_add, Prod.snd_add] at h₁ h₂ h₃
  have hone : ∀ {on : Bool} {c n : U32} {k : ℕ}, c.toNat = (if on then n.toNat else 0) + k →
      (on && decide (c.toNat < n.toNat)) = false := by
    intro on c n k heq
    cases on with
    | false => rfl
    | true =>
      rw [Bool.true_and, decide_eq_false_iff_not]
      simp only [if_true] at heq
      omega
  simp only [addCounts, Bool.false_eq_true, if_false, hone h₁, hone h₂, hone h₃, Bool.or_false]

variable [RtxCap CAP]

/-- The records, oldest first. -/
abbrev records (q : RtxQueue CAP) : List Seg := q.segs.toList

/-! ## The bitmap -/

/-- The bitmap says of every record in use whether it is SACKed. -/
def MapOk (q : RtxQueue CAP) : Prop :=
  ∀ i s, q.get i = some s → bitAt q.sackedMap (q.phys i) = s.flags.sacked

lemma get_eq (q : RtxQueue CAP) (i : ℕ) : q.get i = q.records[i]? := q.segs.get?_eq i

lemma lt_of_get {i : ℕ} {s : Seg} (h : q.get i = some s) : i < q.segs.len := by
  rw [get_eq] at h
  simpa using (List.getElem?_eq_some_iff.mp h).1

lemma phys_lt (q : RtxQueue CAP) (i : ℕ) : q.phys i < 1024 :=
  (q.segs.phys i).isLt.trans_le (RtxCap.le (n := CAP))

lemma phys_inj {i j : ℕ} (hi : i < CAP) (hj : j < CAP) (h : q.phys i = q.phys j) : i = j :=
  q.segs.phys_inj hi hj (Fin.ext h)

/-- Overwriting a record and its bit together keeps the bitmap in step. -/
lemma MapOk.set {i : ℕ} {s : Seg} (h : MapOk q) (hi : i < q.segs.len) :
    MapOk ((q.setSeg i s).setSackedBit (q.phys i) s.flags.sacked) := by
  intro j x hx
  have hj := lt_of_get hx
  have hlen := q.segs.len_le
  rw [get_eq] at hx
  change (q.segs.set i s).toList[j]? = some x at hx
  change j < q.segs.len at hj
  change bitAt (setBit q.sackedMap (q.phys i) s.flags.sacked) (q.phys j) = _
  rw [bitAt_setBit _ _ (q.phys_lt i) (q.phys_lt j)]
  rw [RingQueue.toList_set _ hi, List.getElem?_set] at hx
  by_cases hij : j = i
  · subst hij
    simp only [if_true] at hx ⊢
    split at hx
    · cases hx
      rfl
    · cases hx
  · rw [if_neg (Ne.symm hij)] at hx
    rw [if_neg fun hp => hij (phys_inj (by omega) (by omega) hp)]
    exact h j x (by rw [get_eq]; exact hx)

/-- Overwriting a record by one with the same SACK mark needs no change of the bitmap. -/
lemma MapOk.setSeg {i : ℕ} {s : Seg} (h : MapOk q) (hs : q.get i = some s) (new : Seg)
    (hsacked : new.flags.sacked = s.flags.sacked) : MapOk (q.setSeg i new) := by
  have hi := lt_of_get hs
  intro j x hx
  rw [get_eq] at hx
  change (q.segs.set i new).toList[j]? = some x at hx
  rw [RingQueue.toList_set _ hi, List.getElem?_set] at hx
  by_cases hij : i = j
  · subst hij
    have hx' : new = x := by simpa [hi] using hx
    rw [← hx', hsacked]
    exact h i s hs
  · rw [if_neg hij] at hx
    exact h j x (by rw [get_eq]; exact hx)

/-! ## The invariant -/

/-- The records cover `[a, b)`, and the counters and the bitmap agree with the records.  With
`f = some on`, the FIN (if `on`) is the last sequence number of it. -/
structure Board (M : ℕ) (g : Bool) (q : RtxQueue CAP) (a b : U32) (f : Option Bool) : Prop where
  chain : Chain a q.records b
  sound : ∀ s ∈ q.records, s.Sound
  short : ∀ s ∈ q.records, s.seqLen.toNat ≤ M
  half : span q.records < 2 ^ 31
  fin : ∀ on ∈ f, ∀ s ∈ q.records, s.flags.fin = (on && s.stop == b)
  counts : q.counts = shares q.records
  exact : q.saturated = g
  map : q.MapOk

namespace Board

lemma span_eq (h : Board M g q a b f) : (b - a).toNat = span q.records :=
  h.chain.span_eq (h.half.trans (by decide))

lemma seqLen_lt {s : Seg} (h : Board M g q a b f) (hs : s ∈ q.records) : s.seqLen.toNat < 2 ^ 31 :=
  (seqLen_le_span hs).trans_lt h.half

/-- A queue without records covers nothing, wherever that is. -/
lemma of_nil (hnil : q.records = []) (hcounts : q.counts = 0) (hexact : q.saturated = g) :
    Board M g q a a f where
  chain := by rw [hnil]; rfl
  sound := by rw [hnil]; exact nofun
  short := by rw [hnil]; exact nofun
  half := by rw [hnil]; decide
  fin := by rw [hnil]; exact nofun
  counts := by rw [hnil, hcounts]; rfl
  exact := hexact
  map i s h := by
    rw [get_eq, hnil] at h
    cases h

/-- A record lies inside what the queue covers. -/
lemma record_le {s : Seg} (h : Board M g q a b f) (hs : s ∈ q.records) :
    (s.start - a).toNat + s.seqLen.toNat ≤ (b - a).toNat := by
  rw [h.span_eq]
  exact h.chain.start_le (h.half.trans (by decide)) hs

/-- Replacing one record by a chain of records over the same sequence numbers. -/
lemma splice {l₁ l₂ mid : List Seg} {s : Seg} (h : Board M g q a b f)
    (hl : q.records = l₁ ++ s :: l₂) (hl' : q'.records = l₁ ++ mid ++ l₂)
    (hmid : Chain s.start mid s.stop) (hok : ∀ x ∈ mid, x.Sound)
    (hspan : span mid = s.seqLen.toNat)
    (hfin : ∀ on ∈ f, ∀ x ∈ mid, x.flags.fin = (on && x.stop == b))
    (hcounts : q'.counts = shares q'.records) (hexact : q'.saturated = g) (hmap : q'.MapOk) :
    Board M g q' a b f := by
  have hkept : ∀ x, x ∈ l₁ ∨ x ∈ l₂ → x ∈ q.records := by
    intro x hx
    rw [hl]
    rcases hx with hx | hx
    · exact List.mem_append_left _ hx
    · exact List.mem_append_right _ (List.mem_cons_of_mem _ hx)
  refine ⟨?_, ?_, ?_, ?_, ?_, hcounts, hexact, hmap⟩
  · have hchain := h.chain
    rw [hl, Chain.append] at hchain
    obtain ⟨c, h₁, h₂, h₃⟩ := hchain
    rw [hl', Chain.append]
    exact ⟨s.stop, Chain.append.mpr ⟨c, h₁, h₂ ▸ hmid⟩, h₃⟩
  · intro x hx
    rw [hl', List.mem_append, List.mem_append] at hx
    rcases hx with (hx | hx) | hx
    · exact h.sound x (hkept x (.inl hx))
    · exact hok x hx
    · exact h.sound x (hkept x (.inr hx))
  · intro x hx
    rw [hl', List.mem_append, List.mem_append] at hx
    rcases hx with (hx | hx) | hx
    · exact h.short x (hkept x (.inl hx))
    · have hs := h.short s (by rw [hl]; simp)
      exact (seqLen_le_span hx).trans (hspan ▸ hs)
    · exact h.short x (hkept x (.inr hx))
  · have hhalf := h.half
    rw [hl, span_append, span_cons] at hhalf
    rw [hl', span_append, span_append, hspan]
    omega
  · intro on hon x hx
    rw [hl', List.mem_append, List.mem_append] at hx
    rcases hx with (hx | hx) | hx
    · exact h.fin on hon x (hkept x (.inl hx))
    · exact hfin on hon x hx
    · exact h.fin on hon x (hkept x (.inr hx))

end Board

/-- The list around the record at index `i`. -/
lemma records_around {i : ℕ} {s : Seg} (h : q.get i = some s) :
    q.records = q.records.take i ++ s :: q.records.drop (i + 1) := by
  rw [get_eq] at h
  obtain ⟨hi, hs⟩ := List.getElem?_eq_some_iff.mp h
  rw [← hs, List.getElem_cons_drop, List.take_append_drop]

lemma mem_of_get {i : ℕ} {s : Seg} (h : q.get i = some s) : s ∈ q.records :=
  List.mem_of_getElem? ((get_eq q i).symm.trans h)

lemma records_setSeg {i : ℕ} (hi : i < q.segs.len) (s : Seg) :
    (q.setSeg i s).records = q.records.take i ++ [s] ++ q.records.drop (i + 1) := by
  change (q.segs.set i s).toList = _
  rw [RingQueue.toList_set _ hi, List.set_eq_take_append_cons_drop,
    if_pos (by simpa using hi), List.append_assoc, List.singleton_append]

/-- Taking a record's share out of the counters and putting others' in, when the result fits. -/
lemma Board.counts_around {i : ℕ} {s : Seg} (h : Board M g q a b f) (hs : q.get i = some s) :
    q.counts = s.share + (shares (q.records.take i) + shares (q.records.drop (i + 1))) := by
  have hmid := shares_middle (q.records.take i) (q.records.drop (i + 1)) [s]
  rw [List.append_assoc, List.singleton_append, ← records_around hs] at hmid
  rw [h.counts, hmid, shares_cons, shares_nil, add_zero]

/-! ## Changing a record's marks -/

lemma Board.setLostHint {i : ℕ} (h : Board M g q a b f) (hi : i ≤ q.segs.len) :
    Board M g (q.setLostHint i hi) a b f :=
  ⟨h.chain, h.sound, h.short, h.half, h.fin, h.counts, h.exact, h.map⟩

/-- Overwriting record `i` by one over the same sequence numbers, with counters and bitmap. -/
lemma Board.replace {i : ℕ} {s : Seg} (h : Board M g q a b f) (hs : q.get i = some s) (new : Seg)
    (hstart : new.start = s.start) (hstop : new.stop = s.stop) (hfin : new.flags.fin = s.flags.fin)
    (hok : new.Sound) :
    Board M g ((((q.addCounts s false).addCounts new true).setSeg i new).setSackedBit
      (q.phys i) new.flags.sacked) a b f := by
  have hi := lt_of_get hs
  have hmem := mem_of_get hs
  have hrecords : ((((q.addCounts s false).addCounts new true).setSeg i new).setSackedBit
      (q.phys i) new.flags.sacked).records =
        q.records.take i ++ [new] ++ q.records.drop (i + 1) :=
    records_setSeg (q := (q.addCounts s false).addCounts new true) hi new
  have hoks : ∀ x ∈ q.records.take i ++ [new] ++ q.records.drop (i + 1), x.Sound := by
    intro x hx
    rw [List.mem_append, List.mem_append, List.mem_singleton] at hx
    rcases hx with (hx | rfl) | hx
    · exact h.sound x (List.mem_of_mem_take hx)
    · exact hok
    · exact h.sound x (List.mem_of_mem_drop hx)
  have hlen : span [new] = s.seqLen.toNat := by
    rw [span_cons, span_nil, add_zero, Seg.seqLen, Seg.seqLen, hstart, hstop]
  have hhalf : span (q.records.take i ++ [new] ++ q.records.drop (i + 1)) < 2 ^ 31 := by
    have hhalf := h.half
    rw [records_around hs, span_append, span_cons] at hhalf
    rw [span_append, span_append, hlen]
    omega
  have hfits := fits_shares hoks hhalf
  have hsub := counts_addCounts_false (h.counts_around hs)
  rw [shares_middle, shares_cons, shares_nil, add_zero, ← hsub] at hfits
  refine h.splice (records_around hs) hrecords ⟨hstart, hstop⟩ ?_ hlen ?_ ?_ ?_ ?_
  · rintro x hx
    rw [List.mem_singleton.mp hx]
    exact hok
  · rintro on hon x hx
    rw [List.mem_singleton.mp hx, hfin, hstop]
    exact h.fin on hon s hmem
  · rw [hrecords, shares_middle, shares_cons, shares_nil, add_zero, ← hsub]
    exact counts_addCounts_true hfits
  · exact (saturated_addCounts_true hfits).trans
      ((saturated_addCounts_false (h.counts_around hs)).trans h.exact)
  · exact MapOk.set (q := (q.addCounts s false).addCounts new true) h.map hi

lemma Board.setState {i : ℕ} {s : Seg} {flags : SegFlags} {sent : U16} (h : Board M g q a b f)
    (hs : q.get i = some s) (hfin : flags.fin = s.flags.fin)
    (hok : ({ s with flags := flags, sent := if flags.isPartial then sent else 0 } : Seg).Sound) :
    Board M g (q.setState i flags sent) a b f := by
  unfold RtxQueue.setState
  simp only [hs]
  generalize (if flags.isPartial = true then sent else 0) = kept at hok ⊢
  have hnew := h.replace hs { s with flags := flags, sent := kept } rfl rfl hfin hok
  split
  · exact hnew.setLostHint _
  · exact hnew

lemma Board.setFlags {i : ℕ} {s : Seg} {flags : SegFlags} (h : Board M g q a b f)
    (hs : q.get i = some s) (hfin : flags.fin = s.flags.fin)
    (hok : ({ s with flags := flags, sent := if flags.isPartial then s.sent else 0 } : Seg).Sound) :
    Board M g (q.setFlags i flags) a b f := by
  unfold RtxQueue.setFlags
  simp only [hs]
  exact h.setState hs hfin hok

lemma Board.markLost (h : Board M g q a b f) (i : ℕ) : Board M g (q.markLost i) a b f := by
  unfold RtxQueue.markLost
  cases hs : q.get i with
  | none => exact h
  | some s =>
    have hok := h.sound s (mem_of_get hs)
    dsimp only
    split
    case isTrue hfree =>
      exact h.setFlags hs rfl (hok.mark (by simp [hfree.1]) nofun rfl)
    case isFalse => exact h

lemma Board.unmarkLostAt (h : Board M g q a b f) (i : ℕ) : Board M g (q.unmarkLostAt i) a b f := by
  unfold RtxQueue.unmarkLostAt
  cases hs : q.get i with
  | none => exact h
  | some s =>
    have hok := h.sound s (mem_of_get hs)
    dsimp only
    split
    case isTrue hwaits =>
      obtain ⟨hlost, hretrans⟩ : s.flags.lost = true ∧ s.flags.retrans = false := by
        simpa [Seg.awaitsRetrans] using hwaits
      have hwhole : s.flags.isPartial = false := by
        by_contra hp
        simp [(hok.resent (by simpa using hp)).1] at hretrans
      exact h.setFlags hs rfl (hok.mark (fun hx => ⟨rfl, hretrans⟩) hok.retrans hwhole)
    case isFalse => exact h

lemma Board.clearSackedAt (h : Board M g q a b f) (i : ℕ) : Board M g (q.clearSackedAt i) a b f := by
  unfold RtxQueue.clearSackedAt
  cases hs : q.get i with
  | none => exact h
  | some s =>
    have hok := h.sound s (mem_of_get hs)
    dsimp only
    split
    case isTrue hsacked =>
      have hwhole : s.flags.isPartial = false := by
        by_contra hp
        simp [hok.not_sacked_of_partial (by simpa using hp)] at hsacked
      exact h.setFlags hs rfl (hok.mark nofun hok.retrans hwhole)
    case isFalse => exact h

/-- What every step of a fold keeps, the fold keeps. -/
lemma Board.foldl {step : RtxQueue CAP → ℕ → RtxQueue CAP}
    (hstep : ∀ (q : RtxQueue CAP) (i : ℕ), Board M g q a b f → Board M g (step q i) a b f)
    (l : List ℕ) (h : Board M g q a b f) : Board M g (l.foldl step q) a b f := by
  induction l generalizing q with
  | nil => exact h
  | cons i l ih => exact ih (hstep q i h)

lemma Board.markAllLost (h : Board M g q a b f) : Board M g q.markAllLost a b f :=
  (Board.foldl (fun _ i h => h.markLost i) _ h).setLostHint _

lemma Board.unmarkLost (h : Board M g q a b f) : Board M g q.unmarkLost a b f :=
  (Board.foldl (fun _ i h => h.unmarkLostAt i) _ h).setLostHint _

lemma Board.clearSacked (h : Board M g q a b f) : Board M g q.clearSacked a b f :=
  Board.foldl (fun _ i h => h.clearSackedAt i) _ h

lemma Board.nextLost (h : Board M g q a b f) : Board M g q.nextLost.2 a b f := by
  unfold RtxQueue.nextLost
  split
  · exact h.setLostHint _
  · exact h.setLostHint _

/-! ## Transmitting -/

/-- A new transmission stamp is no change the invariant sees. -/
lemma Board.restamp {i : ℕ} {s : Seg} (h : Board M g q a b f) (hs : q.get i = some s) (now : U64)
    (x y : U32) :
    Board M g { q.setSeg i { s with xmitTs := now, xmitSeq := x } with nextXmit := y } a b f := by
  have hi := lt_of_get hs
  have hmem := mem_of_get hs
  have hrecords := records_setSeg hi { s with xmitTs := now, xmitSeq := x }
  refine h.splice (records_around hs) hrecords ⟨rfl, rfl⟩ ?_ ?_ ?_ ?_ h.exact ?_
  · intro r hr
    rw [List.mem_singleton.mp hr]
    obtain ⟨h₁, h₂, h₃, h₄, h₅⟩ := h.sound s hmem
    exact ⟨h₁, h₂, h₃, h₄, h₅⟩
  · rw [span_cons, span_nil, add_zero]
    rfl
  · intro on hon r hr
    rw [List.mem_singleton.mp hr]
    exact h.fin on hon s hmem
  · change q.counts = shares (q.setSeg i { s with xmitTs := now, xmitSeq := x }).records
    rw [hrecords, shares_middle, h.counts_around hs, shares_cons, shares_nil, add_zero]
    rfl
  · exact h.map.setSeg hs { s with xmitTs := now, xmitSeq := x } rfl

/-- Retransmitting a record that is not SACKed, whole (`sent = 0`) or a proper prefix of it. -/
lemma Board.retransmitted {i : ℕ} {s : Seg} {sent : U16} (h : Board M g q a b f)
    (hs : q.get i = some s) (hsacked : s.flags.sacked = false)
    (hsent : sent = 0 ∨ sent.toNat < s.payloadLen.toNat) (now : U64) : Board M g (q.retransmitted i now sent) a b f := by
  have hok := h.sound s (mem_of_get hs)
  unfold RtxQueue.retransmitted
  simp only [hs]
  have hset : Board M g (q.setState i
      { s.flags with retrans := true, everRetrans := true, isPartial := sent != 0 } sent) a b f := by
    have hkept : (if (sent != 0) = true then sent else 0) = sent := by
      by_cases h0 : sent = 0
      · subst h0
        rfl
      · rw [if_pos (by simpa using h0)]
    refine h.setState hs rfl ⟨hok.pos, by simp [hsacked], fun _ => rfl, ?_, ?_⟩
    · intro hp
      have hne : sent ≠ 0 := by simpa using hp
      have hpos : 0 < sent.toNat := Nat.pos_of_ne_zero fun h0 => hne (BitVec.eq_of_toNat_eq h0)
      dsimp only
      rw [hkept]
      exact ⟨rfl, hpos, hsent.resolve_left hne⟩
    · intro hw
      dsimp only
      rw [hkept]
      simpa using hw
  split
  · exact hset
  case h_2 d hd => exact hset.restamp hd now _ _

/-- Appending the record of a fresh transmission; no FIN is known to be out before it. -/
lemma Board.push {s : Seg} (h : Board M g q a b f) (hf : ∀ on ∈ f, on = false)
    (hroom : q.segs.len < CAP) (hstart : s.start = b) (hok : s.Sound) (hshort : s.seqLen.toNat ≤ M)
    (hhalf : span q.records + s.seqLen.toNat < 2 ^ 31) (hfresh : s.share = 0) :
    (q.push s).1 = true ∧ Board M g (q.push s).2 a s.stop (f.map fun _ => s.flags.fin) := by
  unfold RtxQueue.push
  rw [dif_pos hroom]
  refine ⟨rfl, ?_⟩
  have hrecords : (q.segs.pushBack { s with xmitSeq := q.nextXmit } hroom).toList =
      q.records ++ [{ s with xmitSeq := q.nextXmit }] := RingQueue.toList_pushBack ..
  have hchain : Chain a (q.records ++ [{ s with xmitSeq := q.nextXmit }]) s.stop :=
    Chain.append.mpr ⟨b, h.chain, hstart, rfl⟩
  have hlen : span (q.records ++ [{ s with xmitSeq := q.nextXmit }]) =
      span q.records + s.seqLen.toNat := by
    rw [span_append, span_cons, span_nil, add_zero]
    rfl
  have hpos := hok.pos
  refine ⟨?_, ?_, ?_, ?_, ?_, ?_, h.exact, ?_⟩
  · change Chain a (q.segs.pushBack _ hroom).toList s.stop
    rw [hrecords]
    exact hchain
  · intro x hx
    change x ∈ (q.segs.pushBack _ hroom).toList at hx
    rw [hrecords, List.mem_append, List.mem_singleton] at hx
    rcases hx with hx | rfl
    · exact h.sound x hx
    · exact ⟨hok.pos, hok.sacked, hok.retrans, hok.resent, hok.whole⟩
  · intro x hx
    change x ∈ (q.segs.pushBack _ hroom).toList at hx
    rw [hrecords, List.mem_append, List.mem_singleton] at hx
    rcases hx with hx | rfl
    · exact h.short x hx
    · exact hshort
  · change span (q.segs.pushBack _ hroom).toList < 2 ^ 31
    rw [hrecords, hlen]
    exact hhalf
  · intro on' hon' x hx
    obtain ⟨on, hon, rfl⟩ := Option.mem_map.mp hon'
    change x ∈ (q.segs.pushBack _ hroom).toList at hx
    rw [hrecords, List.mem_append, List.mem_singleton] at hx
    rcases hx with hx | rfl
    · have hinside := h.chain.stop_le (by omega) hx
      have hend := hchain.span_eq (by omega)
      have hne : x.stop ≠ s.stop := by
        intro heq
        rw [heq] at hinside
        omega
      rw [h.fin on hon x hx, hf on hon, Bool.false_and, beq_false_of_ne hne, Bool.and_false]
    · simp
  · change q.counts = shares (q.segs.pushBack _ hroom).toList
    rw [hrecords, shares_append, shares_cons, shares_nil, add_zero, h.counts]
    change _ = shares q.records + s.share
    rw [hfresh, add_zero]
  · intro j x hx
    have hj : j < q.segs.len + 1 := lt_of_get hx
    rw [get_eq] at hx
    change (q.segs.pushBack _ hroom).toList[j]? = some x at hx
    change bitAt (setBit q.sackedMap (q.phys q.segs.len) s.flags.sacked) (q.phys j) = _
    rw [bitAt_setBit _ _ (q.phys_lt _) (q.phys_lt _)]
    rw [hrecords, List.getElem?_append, RingQueue.length_toList] at hx
    by_cases hnew : j < q.segs.len
    · rw [if_pos hnew] at hx
      rw [if_neg fun hp => hnew.ne (phys_inj (by omega) hroom hp)]
      exact h.map j x (by rw [get_eq]; exact hx)
    · have hj' : j = q.segs.len := by omega
      subst hj'
      simp only [lt_irrefl, if_false, Nat.sub_self, List.getElem?_cons_zero,
        Option.some.injEq] at hx
      rw [if_pos rfl, ← hx]

/-! ## Splitting -/

lemma phys_eq (q : RtxQueue CAP) (i : ℕ) : q.phys i = (q.segs.head + i) % CAP := rfl

/-- The slots from logical index `i` on, counted from the slot of `i`. -/
lemma phys_add (q : RtxQueue CAP) (i k : ℕ) : (q.phys i + k) % CAP = q.phys (i + k) := by
  rw [phys_eq, phys_eq, Nat.mod_add_mod, Nat.add_assoc]

lemma phys_add_cap (q : RtxQueue CAP) (j : ℕ) : q.phys (j + CAP) = q.phys j := by
  rw [phys_eq, phys_eq, ← Nat.add_assoc, Nat.add_mod_right]

/-- Opening a gap at `i + 1` moves the bits of the records after it along with them. -/
lemma bitAt_gap {i j : ℕ} (hi : i < q.segs.len) (hroom : q.segs.len < CAP) (hj : j < CAP) :
    bitAt (shiftSackedBitsUp CAP (q.phys (i + 1)) (q.segs.len - (i + 1)) (q.segs.len - (i + 1))
        q.sackedMap) (q.phys j) =
      if i + 1 < j ∧ j ≤ q.segs.len then bitAt q.sackedMap (q.phys (j - 1))
      else bitAt q.sackedMap (q.phys j) := by
  have hstart : q.phys (i + 1) < CAP := (q.segs.phys (i + 1)).isLt
  have hshift := fun k hk => bitAt_shiftSackedBitsUp hstart (le_refl (q.segs.len - (i + 1)))
    (by omega) q.sackedMap (j := k) hk
  by_cases hafter : i + 1 ≤ j
  · have h := hshift (j - (i + 1)) (by omega)
    rw [phys_add, phys_add, Nat.add_sub_cancel' hafter] at h
    rw [h]
    by_cases hmoved : i + 1 < j ∧ j ≤ q.segs.len
    · rw [if_pos hmoved, if_pos (by omega)]
      congr 2
      omega
    · rw [if_neg hmoved, if_neg (by omega)]
  · -- Slots before the gap are reached by going once around the ring.
    have h := hshift (j + CAP - (i + 1)) (by omega)
    rw [phys_add, Nat.add_sub_cancel' (by omega), phys_add_cap, if_neg (by omega)] at h
    rw [h, if_neg (by omega)]

lemma records_split {i : ℕ} {s : Seg} (hs : q.get i = some s) (hroom : q.segs.len < CAP)
    (lo hi : Seg) :
    (((q.segs.openGap (i + 1) hroom).set i lo).set (i + 1) hi).toList =
      q.records.take i ++ [lo, hi] ++ q.records.drop (i + 1) := by
  have hlt := lt_of_get hs
  rw [RingQueue.set_comm _ (by omega) (by omega) (by omega), RingQueue.toList_set _
    (by simp only [RingQueue.len_set]; change i < q.segs.len + 1; omega),
    RingQueue.toList_openGap_set _ (by omega)]
  have htake : q.records.take (i + 1) = q.records.take i ++ [s] := by
    rw [List.take_add_one, ← get_eq, hs, Option.toList_some]
  have hlen : (q.records.take i).length = i := by
    rw [List.length_take, RingQueue.length_toList]
    omega
  rw [htake, List.append_assoc, List.set_append_right _ _ (by omega), hlen, Nat.sub_self]
  simp

/-- The counters after a split: only a record resent in part changes its share. -/
lemma Board.counts_split {i : ℕ} {s lo hi : Seg} (h : Board M g q a b f) (hs : q.get i = some s)
    (hlo : lo.Sound) (hhi : hi.Sound) (hspan : span [lo, hi] = s.seqLen.toNat)
    (hwhole : s.flags.isPartial = false → lo.share + hi.share = s.share)
    (hq : q'.counts = q.counts) (hexact : q'.saturated = g) :
    (if s.flags.isPartial then
        ((q'.addCounts s false).addCounts lo true).addCounts hi true else q').counts =
      shares (q.records.take i ++ [lo, hi] ++ q.records.drop (i + 1)) ∧
    (if s.flags.isPartial then
        ((q'.addCounts s false).addCounts lo true).addCounts hi true else q').saturated = g := by
  have hoks : ∀ x ∈ q.records.take i ++ [lo, hi] ++ q.records.drop (i + 1), x.Sound := by
    intro x hx
    simp only [List.mem_append, List.mem_cons, List.not_mem_nil, or_false] at hx
    rcases hx with (hx | rfl | rfl) | hx
    · exact h.sound x (List.mem_of_mem_take hx)
    · exact hlo
    · exact hhi
    · exact h.sound x (List.mem_of_mem_drop hx)
  have hfits := fits_shares hoks (by
    have hhalf := h.half
    rw [records_around hs, span_append, span_cons] at hhalf
    rw [span_append, span_append, hspan]
    omega)
  have hcounts := h.counts_around hs
  rw [← hq] at hcounts
  rw [shares_middle, shares_cons, shares_cons, shares_nil, add_zero] at hfits ⊢
  split
  case isTrue =>
    have hsub := counts_addCounts_false hcounts
    rw [add_comm lo.share, add_assoc] at hfits ⊢
    rw [← hsub] at hfits ⊢
    have hmid : Fits (lo.share + (q'.addCounts s false).counts) := by
      obtain ⟨h₁, h₂, h₃⟩ := hfits
      simp only [Prod.fst_add, Prod.snd_add] at h₁ h₂ h₃
      refine ⟨?_, ?_, ?_⟩ <;> simp only [Prod.fst_add, Prod.snd_add] <;> omega
    rw [← counts_addCounts_true hmid] at hfits ⊢
    refine ⟨counts_addCounts_true hfits, ?_⟩
    rw [saturated_addCounts_true hfits, saturated_addCounts_true hmid,
      saturated_addCounts_false hcounts]
    exact hexact
  case isFalse hp =>
    refine ⟨?_, hexact⟩
    rw [hcounts, hwhole (by simpa using hp)]

/-- The bitmap after a split: the halves share the mark, the records after them move up. -/
lemma MapOk.split {i : ℕ} {s lo hi : Seg} (h : q.MapOk) (hs : q.get i = some s)
    (hroom : q.segs.len < CAP) (hlo : lo.flags.sacked = s.flags.sacked)
    (hhi : hi.flags.sacked = s.flags.sacked)
    (hsegs : q'.segs = ((q.segs.openGap (i + 1) hroom).set i lo).set (i + 1) hi)
    (hmap : q'.sackedMap = setBit (shiftSackedBitsUp CAP (q.phys (i + 1)) (q.segs.len - (i + 1))
      (q.segs.len - (i + 1)) q.sackedMap) (q.phys (i + 1)) s.flags.sacked) : q'.MapOk := by
  have hlt := lt_of_get hs
  intro j x hx
  have hphys : q'.phys j = q.phys j := by
    rw [RtxQueue.phys, hsegs]
    rfl
  have hj := lt_of_get hx
  rw [hsegs] at hj
  change j < q.segs.len + 1 at hj
  rw [get_eq, records, hsegs, records_split hs hroom] at hx
  rw [hphys, hmap, bitAt_setBit _ _ (q.phys_lt _) (q.phys_lt _), bitAt_gap hlt hroom (by omega)]
  have hlen : (q.records.take i).length = i := by
    rw [List.length_take, RingQueue.length_toList]
    omega
  rw [List.append_assoc, List.getElem?_append, hlen] at hx
  by_cases hgap : j = i + 1
  · subst hgap
    rw [if_neg (by omega)] at hx
    have hx' : hi = x := by simpa using hx
    rw [if_pos rfl, ← hx', hhi]
  · rw [if_neg fun hp => hgap (phys_inj (by omega) (by omega) hp)]
    by_cases hbefore : j < i
    · rw [if_pos hbefore, List.getElem?_take_of_lt hbefore, ← get_eq] at hx
      rw [if_neg (by omega)]
      exact h j x hx
    · rw [if_neg hbefore] at hx
      by_cases hat : j = i
      · subst hat
        have hx' : lo = x := by simpa using hx
        rw [if_neg (by omega), ← hx', hlo]
        exact h j s hs
      · rw [List.getElem?_append_right (by simp; omega), List.getElem?_drop, ← get_eq] at hx
        rw [if_pos (by omega)]
        refine h (j - 1) x ?_
        rw [← hx]
        congr 1
        simp
        omega

lemma Board.of_gap {i : ℕ} {s lo hi : Seg} (h : Board M g q a b f) (hs : q.get i = some s)
    (hroom : q.segs.len < CAP) (hchain : Chain s.start [lo, hi] s.stop) (hlo : lo.Sound)
    (hhi : hi.Sound) (hspan : span [lo, hi] = s.seqLen.toNat)
    (hlofin : lo.flags.fin = false) (hhifin : hi.flags.fin = s.flags.fin)
    (hlosack : lo.flags.sacked = s.flags.sacked) (hhisack : hi.flags.sacked = s.flags.sacked)
    (hsegs : q'.segs = ((q.segs.openGap (i + 1) hroom).set i lo).set (i + 1) hi)
    (hmap : q'.sackedMap = setBit (shiftSackedBitsUp CAP (q.phys (i + 1)) (q.segs.len - (i + 1))
      (q.segs.len - (i + 1)) q.sackedMap) (q.phys (i + 1)) s.flags.sacked)
    (hcounts : q'.counts = shares (q.records.take i ++ [lo, hi] ++ q.records.drop (i + 1)))
    (hexact : q'.saturated = g) : Board M g q' a b f := by
  have hrecords : q'.records = q.records.take i ++ [lo, hi] ++ q.records.drop (i + 1) := by
    rw [records, hsegs, records_split hs hroom]
  refine h.splice (records_around hs) hrecords hchain ?_ hspan ?_ (hrecords ▸ hcounts) hexact
    (h.map.split hs hroom hlosack hhisack hsegs hmap)
  · intro x hx
    simp only [List.mem_cons, List.not_mem_nil, or_false] at hx
    rcases hx with rfl | rfl
    · exact hlo
    · exact hhi
  · intro on hon x hx
    simp only [List.mem_cons, List.not_mem_nil, or_false] at hx
    rcases hx with rfl | rfl
    · -- The lower half ends below the end of the queue, by the length of the upper half at least.
      obtain ⟨c, h₁, h₂, h₃⟩ := Chain.append.mp (records_around hs ▸ h.chain)
      have hfront : Chain a (q.records.take i ++ [x]) x.stop :=
        Chain.append.mpr ⟨c, h₁, hchain.1.trans h₂, rfl⟩
      have hhalf := h.half
      rw [records_around hs, span_append, span_cons] at hhalf
      have hne : x.stop ≠ b := by
        have hrest : Chain x.stop (hi :: q.records.drop (i + 1)) b :=
          ⟨hchain.2.1, hchain.2.2 ▸ h₃⟩
        refine hfront.ne_end hrest ?_ hhi.pos
        simp only [span_append, span_cons, span_nil] at hspan ⊢
        omega
      rw [hlofin, beq_false_of_ne hne, Bool.and_false]
    · rw [hhifin, hchain.2.2]
      exact h.fin on hon s (mem_of_get hs)

lemma Board.split {i : ℕ} {cut : U32} (h : Board M g q a b f) : Board M g (q.split i cut).2 a b f := by
  unfold RtxQueue.split
  cases hs : q.get i with
  | none => exact h
  | some s =>
    dsimp only
    split
    case isFalse => exact h
    case isTrue hcut =>
      obtain ⟨⟨hlo, hhi⟩, hroom⟩ := hcut
      have hok := h.sound s (mem_of_get hs)
      obtain ⟨⟨hstart₁, hstop₁, hfin₁, hsack₁⟩, hstart₂, hstop₂, hfin₂, hsack₂⟩ :=
        splitSeg_shape s cut
      have hlt := h.seqLen_lt (mem_of_get hs)
      obtain ⟨hok₁, hok₂⟩ := splitSeg_sound hok hlt hlo hhi
      have hspan : span [(splitSeg s cut).1, (splitSeg s cut).2] = s.seqLen.toNat := by
        rw [span_cons, span_cons, span_nil, add_zero]
        exact splitSeg_len hok.pos hlt hlo hhi
      have hshare := share_splitSeg hok.pos hlt hlo hhi
      refine h.of_gap hs hroom ⟨hstart₁, hstart₂.trans hstop₁.symm, hstop₂⟩ hok₁ hok₂ hspan hfin₁
        hfin₂ hsack₁ hsack₂ ?_ ?_ ?_ ?_
      · dsimp only [setSackedBit, setSeg]
        split <;> rfl
      · dsimp only [setSackedBit, setSeg]
        split <;> rfl
      · exact And.left (h.counts_split hs hok₁ hok₂ hspan hshare rfl h.exact)
      · exact And.right (h.counts_split hs hok₁ hok₂ hspan hshare rfl h.exact)

lemma get_split {i : ℕ} {s : Seg} (hs : q.get i = some s) (cut : U32) :
    (q.split i cut).2.get i = some s ∨ (q.split i cut).2.get i = some (splitSeg s cut).1 := by
  unfold RtxQueue.split
  rw [hs]
  dsimp only
  split
  case isFalse => exact .inl hs
  case isTrue hcut =>
    right
    have hlt := lt_of_get hs
    have hsegs : ∀ q' : RtxQueue CAP, q'.segs = ((q.segs.openGap (i + 1) hcut.2).set i
        (splitSeg s cut).1).set (i + 1) (splitSeg s cut).2 → q'.get i = some (splitSeg s cut).1 := by
      intro q' hq'
      rw [get_eq, records, hq', records_split hs hcut.2, List.append_assoc,
        List.getElem?_append_right (by rw [List.length_take]; omega)]
      have hlen : (q.records.take i).length = i := by
        rw [List.length_take, RingQueue.length_toList]
        omega
      rw [hlen, Nat.sub_self]
      rfl
    apply hsegs
    dsimp only [setSackedBit, setSeg]
    split <;> rfl

lemma awaitsRetrans_splitSeg (s : Seg) (cut : U32) :
    (splitSeg s cut).1.awaitsRetrans = s.awaitsRetrans := by
  unfold splitSeg
  dsimp only
  split
  · dsimp only
    split <;> rfl
  · rfl

lemma awaits_nextLostFrom {fuel i j : ℕ} (h : q.nextLostFrom fuel i = some j) :
    ∃ s, q.get j = some s ∧ s.awaitsRetrans = true := by
  induction fuel generalizing i with
  | zero => cases h
  | succ fuel ih =>
    rw [nextLostFrom] at h
    split at h
    · cases h
    case h_2 s hs =>
      split at h
      case isTrue hawaits =>
        cases h
        exact ⟨s, hs, hawaits⟩
      case isFalse => exact ih h

/-- The record `next_lost` finds waits for its retransmission. -/
lemma awaits_nextLost {i : ℕ} (h : q.nextLost.1 = some i) :
    ∃ s, q.nextLost.2.get i = some s ∧ s.awaitsRetrans = true := by
  revert h
  unfold RtxQueue.nextLost
  split
  case h_1 j hj =>
    intro h
    cases h
    obtain ⟨s, hs, hawaits⟩ := awaits_nextLostFrom hj
    exact ⟨s, hs, hawaits⟩
  case h_2 => exact fun h => by cases h

/-! ## Selective acknowledgment -/

lemma Board.markSacked {i : ℕ} {s : Seg} (h : Board M g q a b f) (hs : q.get i = some s) :
    Board M g (q.setFlags i { s.flags with
      sacked := true, lost := false, retrans := false, isPartial := false }) a b f :=
  h.setFlags hs rfl ((h.sound s (mem_of_get hs)).mark (fun _ => ⟨rfl, rfl⟩) nofun rfl)

lemma Board.sackLoop {l r : U32} (acc : Sacked CAP) (h : Board M g acc.queue a b f) (fuel i : ℕ) :
    Board M g (sackLoop l r fuel i acc).queue a b f := by
  induction fuel generalizing i acc with
  | zero => exact h
  | succ fuel ih =>
    rw [RtxQueue.sackLoop]
    cases hs : acc.queue.get i with
    | none => exact h
    | some s =>
      dsimp only
      split
      · exact h
      · split
        · split
          · exact ih _ h _
          · exact h
        · split
          · split
            · exact ih _ h.split _
            · exact h
          · split
            · exact ih _ (h.markSacked hs) _
            · exact ih _ h _

lemma Board.splitLeftEdge (h : Board M g q a b f) (i : ℕ) (l : U32) :
    Board M g (q.splitLeftEdge i l).2 a b f := by
  unfold RtxQueue.splitLeftEdge
  cases q.get i with
  | none => exact h
  | some s =>
    dsimp only
    split
    · split
      · exact h.split
      · exact h
    · exact h

lemma Board.sack (h : Board M g q a b f) (left right : U32) :
    Board M g (q.sack left right).queue a b f := by
  unfold RtxQueue.sack
  cases q.get 0 with
  | none => exact h
  | some first =>
    cases q.last with
    | none => exact h
    | some final =>
      dsimp only
      generalize (if seqLt left first.start then first.start else left) = l
      generalize (if seqLt final.stop right then final.stop else right) = r
      split
      · split
        · exact h
        case h_2 i _ =>
          exact Board.sackLoop ⟨0, [], (q.splitLeftEdge i l).2⟩ (h.splitLeftEdge i l) _ _
      · exact h

/-! ## Cumulative acknowledgment -/

lemma records_cons {s : Seg} (h : q.get 0 = some s) : q.records = s :: q.records.tail := by
  have := records_around h
  rwa [List.take_zero, List.nil_append, List.drop_one] at this

/-- Dropping the first record: the chain begins where it ended. -/
lemma Board.dropFirst {s : Seg} (h : Board M g q a b f) (hs : q.get 0 = some s) :
    Board M g (q.addCounts s false).dropFirst s.stop b f := by
  have hcons := records_cons hs
  have hrecords : (q.addCounts s false).dropFirst.records = q.records.tail :=
    q.segs.toList_popFront
  have hmem : ∀ x ∈ q.records.tail, x ∈ q.records := fun x hx => List.mem_of_mem_tail hx
  have hcounts : q.counts = s.share + shares q.records.tail := by
    rw [h.counts, hcons, shares_cons, List.tail_cons]
  refine ⟨?_, ?_, ?_, ?_, ?_, ?_, (saturated_addCounts_false hcounts).trans h.exact, ?_⟩
  · have hchain := h.chain
    rw [hcons] at hchain
    rw [hrecords]
    exact hchain.2
  · rw [hrecords]
    exact fun x hx => h.sound x (hmem x hx)
  · rw [hrecords]
    exact fun x hx => h.short x (hmem x hx)
  · have hhalf := h.half
    rw [hcons, span_cons] at hhalf
    rw [hrecords]
    omega
  · rw [hrecords]
    exact fun on hon x hx => h.fin on hon x (hmem x hx)
  · rw [hrecords]
    exact counts_addCounts_false hcounts
  · intro j x hx
    have hphys : (q.addCounts s false).dropFirst.phys j = q.phys (j + 1) := by
      change ((q.segs.head + 1) % CAP + j) % CAP = (q.segs.head + (j + 1)) % CAP
      rw [Nat.mod_add_mod, Nat.add_assoc, Nat.add_comm 1]
    rw [get_eq, hrecords, List.getElem?_tail, ← get_eq] at hx
    rw [hphys]
    exact h.map (j + 1) x hx

/-- Trimming the first record: the chain begins at the trimmed start. -/
lemma Board.trimFirst {s : Seg} {una : U32} (h : Board M g q a b f) (hs : q.get 0 = some s)
    (hlo : seqLt s.start una) (hhi : seqLt una s.stop) :
    Board M g (((q.addCounts s false).addCounts (trimSeg s una).1 true).setSeg 0 (trimSeg s una).1)
      una b f := by
  have hcons := records_cons hs
  have hmem := mem_of_get hs
  have hlt := lt_of_get hs
  obtain ⟨-, hstart, hstop, hfin, hsacked⟩ := splitSeg_shape s una
  have hsound := h.sound s hmem
  have hlen := splitSeg_len hsound.pos (h.seqLen_lt hmem) hlo hhi
  have hok := (splitSeg_sound hsound (h.seqLen_lt hmem) hlo hhi).2
  rw [← trimSeg_fst] at hstart hstop hfin hsacked hok hlen
  generalize (trimSeg s una).1 = new at *
  have hrecords : (((q.addCounts s false).addCounts new true).setSeg 0 new).records =
      new :: q.records.tail := by
    rw [records_setSeg (q := (q.addCounts s false).addCounts new true) hlt new, List.take_zero,
      List.nil_append, List.drop_one, List.singleton_append]
    rfl
  have hoks : ∀ x ∈ new :: q.records.tail, x.Sound := by
    intro x hx
    rcases List.mem_cons.mp hx with rfl | hx
    · exact hok
    · exact h.sound x (List.mem_of_mem_tail hx)
  have hhalf := h.half
  rw [hcons, span_cons] at hhalf
  have hfits := fits_shares hoks (by rw [span_cons]; omega)
  have hcounts : q.counts = s.share + shares q.records.tail := by
    rw [h.counts, hcons, shares_cons, List.tail_cons]
  have hsub := counts_addCounts_false hcounts
  rw [shares_cons, ← hsub] at hfits
  refine ⟨?_, hrecords ▸ hoks, ?_, ?_, ?_, ?_, ?_, ?_⟩
  · have hchain := h.chain
    rw [hcons] at hchain
    rw [hrecords]
    exact ⟨hstart, hstop ▸ hchain.2⟩
  · rw [hrecords]
    intro x hx
    rcases List.mem_cons.mp hx with rfl | hx
    · have := h.short s hmem
      omega
    · exact h.short x (List.mem_of_mem_tail hx)
  · rw [hrecords, span_cons]
    omega
  · rw [hrecords]
    intro on hon x hx
    rcases List.mem_cons.mp hx with rfl | hx
    · rw [hfin, hstop]
      exact h.fin on hon s hmem
    · exact h.fin on hon x (List.mem_of_mem_tail hx)
  · rw [hrecords, shares_cons, ← hsub]
    exact counts_addCounts_true hfits
  · exact (saturated_addCounts_true hfits).trans
      ((saturated_addCounts_false hcounts).trans h.exact)
  · exact MapOk.setSeg (q := (q.addCounts s false).addCounts new true) h.map hs new hsacked

/-- Where `una` lies against the first record, as lengths. -/
lemma ack_against {s : Seg} {una : U32} (hs : s.seqLen.toNat < 2 ^ 31)
    (hin : (una - s.start).toNat < 2 ^ 31) :
    (seqLe s.stop una ↔ s.seqLen.toNat ≤ (una - s.start).toNat) ∧
      (seqLt s.start una ↔ 0 < (una - s.start).toNat) ∧
      (s.seqLen.toNat ≤ (una - s.start).toNat →
        (una - s.stop).toNat = (una - s.start).toNat - s.seqLen.toNat) := by
  have h₁ : s.stop - una = s.seqLen - (una - s.start) := by
    rw [Seg.seqLen]
    bv_omega
  have h₂ : una - s.stop = (una - s.start) - s.seqLen := by
    rw [Seg.seqLen]
    bv_omega
  have h₃ : s.start - una = -(una - s.start) := by bv_omega
  rw [seqLe_iff, seqLt_iff, h₁, h₂, h₃]
  generalize s.seqLen = x at *
  generalize una - s.start = y at *
  clear h₁ h₂ h₃
  bv_omega

lemma Board.ackToLoop {una : U32} {fuel : ℕ} (acc : Acked CAP) (h : Board M g acc.queue a b f)
    (hin : (una - a).toNat ≤ (b - a).toNat) (hfuel : acc.queue.segs.len < fuel) :
    Board M g (ackToLoop una fuel acc).queue una b f := by
  -- Every round but the last drops a record, so the records left are what the fuel must cover.
  induction fuel generalizing a acc with
  | zero => omega
  | succ fuel ih =>
    have hspan := h.half
    have hlen := h.span_eq
    rw [RtxQueue.ackToLoop]
    cases hs : acc.queue.get 0 with
    | none =>
      have hnil : acc.queue.records = [] := by
        rw [get_eq] at hs
        exact List.eq_nil_of_length_eq_zero (by simpa using List.getElem?_eq_none_iff.mp hs)
      have hab := h.chain
      rw [hnil] at hab
      change a = b at hab
      have hzero : una = a := by
        rw [hnil, span_nil] at hlen
        bv_omega
      rw [hzero]
      exact h
    | some s =>
      have hcons := records_cons hs
      have hstart : s.start = a := by
        have hchain := h.chain
        rw [hcons] at hchain
        exact hchain.1
      have hrest : span acc.queue.records = s.seqLen.toNat + span acc.queue.records.tail := by
        conv_lhs => rw [hcons, span_cons]
      have hin' : (una - s.start).toNat < 2 ^ 31 := by rw [hstart]; omega
      obtain ⟨hfull, hpart, hnext⟩ := ack_against (h.seqLen_lt (mem_of_get hs)) hin'
      rw [hstart] at hfull hpart hnext
      dsimp only
      split
      case isTrue hcov =>
        have hdrop := h.dropFirst hs
        have hcovered := hfull.mp hcov
        refine ih _ hdrop ?_ ?_
        · have hrecords : (acc.queue.addCounts s false).dropFirst.records = acc.queue.records.tail :=
            acc.queue.segs.toList_popFront
          rw [hnext hcovered, hdrop.span_eq, hrecords]
          omega
        · have := lt_of_get hs
          change acc.queue.segs.len - 1 < fuel
          omega
      case isFalse hcov =>
        split
        case isTrue hinside =>
          have htrim := h.trimFirst hs hinside (seqLt_of_not_seqLe hcov)
          dsimp only
          split
          · exact htrim.setLostHint _
          · exact htrim
        case isFalse hout =>
          have hzero : una = a := by
            have : (una - a).toNat = 0 := by
              by_contra hne
              exact hout (hstart ▸ hpart.mpr (Nat.pos_of_ne_zero hne))
            bv_omega
          rw [hzero]
          exact h

lemma Board.rewindIfEmpty (h : Board M g q a b f) : Board M g q.rewindIfEmpty a b f := by
  unfold RtxQueue.rewindIfEmpty
  split
  case isTrue hempty =>
    have hnil : q.records = [] :=
      List.eq_nil_of_length_eq_zero (by rw [RingQueue.length_toList]; exact hempty)
    have hchain := h.chain
    have hcounts := h.counts
    rw [hnil] at hchain hcounts
    rw [show b = a from hchain.symm]
    exact Board.of_nil rfl hcounts h.exact
  case isFalse => exact h

/-- Whatever `una` is, records only go off the front. -/
lemma Board.ackToLoop_any {una : U32} (fuel : ℕ) (acc : Acked CAP) (h : Board M g acc.queue a b f) :
    ∃ a', Board M g (RtxQueue.ackToLoop una fuel acc).queue a' b f := by
  induction fuel generalizing a acc with
  | zero => exact ⟨a, h⟩
  | succ fuel ih =>
    rw [RtxQueue.ackToLoop]
    cases hs : acc.queue.get 0 with
    | none => exact ⟨a, h⟩
    | some s =>
      dsimp only
      split
      · exact ih _ (h.dropFirst hs)
      case isFalse hcov =>
        split
        case isTrue hinside =>
          have htrim := h.trimFirst hs hinside (seqLt_of_not_seqLe hcov)
          refine ⟨una, ?_⟩
          dsimp only
          split
          · exact htrim.setLostHint _
          · exact htrim
        case isFalse => exact ⟨a, h⟩

lemma Board.ackTo_any (h : Board M g q a b f) (una : U32) :
    ∃ a', Board M g (q.ackTo una).queue a' b f := by
  obtain ⟨a', h'⟩ := Board.ackToLoop_any (q.len + 1) ⟨0, [], q⟩ h
  exact ⟨a', h'.rewindIfEmpty⟩

/-- A cumulative acknowledgment inside the queue leaves what lies above it. -/
lemma Board.ackTo {una : U32} (h : Board M g q a b f) (hin : (una - a).toNat ≤ (b - a).toNat) :
    Board M g (q.ackTo una).queue una b f :=
  (Board.ackToLoop ⟨0, [], q⟩ h hin (Nat.lt_succ_self _)).rewindIfEmpty

end RtxQueue

end TcpSansIo
