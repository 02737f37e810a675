import TcpSansIo.Rtx.Sack

/-!
# What `ack_to` does

A cumulative acknowledgment drops the records below it and keeps of the record it lands in what lies
above (`dropBelow`).  That is the upper half of cutting the record there, so what the rest of it says
is known from the cut: it stays as it was, but for a remainder of which nothing was resent.
-/

namespace TcpSansIo

open FixedWidth

/-- What is left of the records when everything below `una` is acknowledged. -/
def dropBelow (una : U32) : List Seg → List Seg
  | [] => []
  | s :: t =>
    if seqLe s.stop una then dropBelow una t
    else if seqLt s.start una then (RtxQueue.splitSeg s una).2 :: t
    else s :: t

/-- The records that have a number below `una`, with whether they were not SACKed. -/
def ackedBelow (a una : U32) (t : List Seg) : List (Seg × Bool) :=
  (t.filter fun s => decide ((s.start - a).toNat < (una - a).toNat)).map
    fun s => (s, !s.flags.sacked)

section Drop

variable {a una x : U32} {o : ℕ} {s : Seg} {t : List Seg}

/-- Where `una` lies against the records, as distances. -/
lemma Laid.dropBelow_cons (h : Laid a o (s :: t)) (hhalf : o + span (s :: t) < 2 ^ 31)
    (huna : (una - a).toNat < 2 ^ 31) :
    (seqLe s.stop una ↔ o + s.seqLen.toNat ≤ (una - a).toNat) ∧
      (seqLt s.start una ↔ o < (una - a).toNat) := by
  obtain ⟨hpos, hstart, hstop, -⟩ := h
  rw [span_cons] at hhalf
  rw [seqLe_offset (a := a) (by omega) huna, seqLt_offset (a := a) (by omega) huna, hstart, hstop]
  exact ⟨Iff.rfl, Iff.rfl⟩

lemma ackedBelow_of_ge (h : Laid a o t) (huna : (una - a).toNat ≤ o) : ackedBelow a una t = [] := by
  rw [ackedBelow, List.filter_eq_nil_iff.mpr, List.map_nil]
  intro s hs
  have hge := h.start_ge hs
  simpa [-BitVec.toNat_sub] using (by omega : (una - a).toNat ≤ (s.start - a).toNat)

lemma ackedBelow_cons_of_lt (h : (s.start - a).toNat < (una - a).toNat) :
    ackedBelow a una (s :: t) = (s, !s.flags.sacked) :: ackedBelow a una t := by
  rw [ackedBelow, List.filter_cons, if_pos (decide_eq_true h)]
  rfl

/-- What is left lies end to end from `una` on. -/
lemma Laid.dropBelow (h : Laid a o t) (hhalf : o + span t < 2 ^ 31) (hlo : o ≤ (una - a).toNat)
    (hhi : (una - a).toNat ≤ o + span t) :
    Laid a (una - a).toNat (TcpSansIo.dropBelow una t) ∧
      (una - a).toNat + span (TcpSansIo.dropBelow una t) = o + span t := by
  induction t generalizing o with
  | nil => exact ⟨trivial, by rw [TcpSansIo.dropBelow, span_nil] at *; omega⟩
  | cons s t ih =>
    have hends := h.ends (List.mem_cons_self ..)
    have huna : (una - a).toNat < 2 ^ 31 := by omega
    obtain ⟨hfull, hpart⟩ := h.dropBelow_cons hhalf huna
    obtain ⟨hpos, hstart, hstop, hrest⟩ := h
    rw [span_cons] at hhalf hhi ⊢
    rw [TcpSansIo.dropBelow]
    by_cases hcov : seqLe s.stop una
    · rw [if_pos hcov]
      obtain ⟨hlaid, hspan⟩ := ih hrest (by omega) (hfull.mp hcov) (by omega)
      exact ⟨hlaid, by omega⟩
    · rw [if_neg hcov]
      rw [hfull] at hcov
      by_cases hin : seqLt s.start una
      · rw [if_pos hin]
        have hinside : s.Inside una := by
          rw [Seg.inside_iff (a := a) (by omega) (by omega) hends.1, hstart, hstop]
          exact ⟨hpart.mp hin, by omega⟩
        obtain ⟨-, hhi, hmid, hend⟩ := splitSeg_ends hpos (by omega) hinside hends.1
        obtain ⟨-, h₃, h₄, -⟩ := splitSeg_shape s una
        refine ⟨⟨hhi, by rw [h₃], by rw [h₄]; exact hend, ?_⟩, ?_⟩
        · rw [← hend, hstop]
          exact hrest
        · rw [span_cons]
          omega
      · rw [if_neg hin]
        rw [hpart] at hin
        have heq : (una - a).toNat = o := by omega
        rw [heq, span_cons]
        exact ⟨⟨hpos, hstart, hstop, hrest⟩, rfl⟩

/-- A half above which nothing was resent is lost now. -/
lemma byteFlags_of_remainder (hrem : s.Remainder una x) :
    (RtxQueue.splitSeg s una).2.byteFlags x =
        { s.byteFlags x with lost := true, resent := false } ∧
      (RtxQueue.splitSeg s una).2.awaitsRetrans = true := by
  obtain ⟨hp, -, hsent, -⟩ := hrem
  unfold RtxQueue.splitSeg
  dsimp only
  rw [if_pos hp, dif_neg (by rw [toNat_sent]; omega)]
  exact ⟨rfl, rfl⟩

/-- What is said about a number that is left. -/
lemma flagsAt_dropBelow (h : Laid a o t) (hhalf : o + span t < 2 ^ 31) (hlo : o ≤ (una - a).toNat)
    (hs : s ∈ t) (hx : s.covers x = true) (hge : (una - a).toNat ≤ (x - a).toNat) :
    (s.Remainder una x →
      flagsAt (dropBelow una t) x = some { s.byteFlags x with lost := true, resent := false }) ∧
    (¬ s.Remainder una x → flagsAt (dropBelow una t) x = some (s.byteFlags x)) := by
  induction t generalizing o with
  | nil => cases hs
  | cons r t ih =>
    have hends := h.ends (List.mem_cons_self ..)
    have hall := h
    have hcov := (Seg.covers_iff (h.ends hs).1).mp hx
    have hstop_le := h.stop_le hs
    have huna : (una - a).toNat < 2 ^ 31 := by omega
    obtain ⟨hfull, hpart⟩ := h.dropBelow_cons hhalf huna
    obtain ⟨hpos, hstart, hstop, hrest⟩ := h
    rw [span_cons] at hhalf hstop_le
    rw [dropBelow]
    by_cases hdrop : seqLe r.stop una
    · -- The record is acknowledged, so it is not the one that covers `x`.
      rw [if_pos hdrop]
      rw [hfull] at hdrop
      have hs' : s ∈ t := by
        rcases List.mem_cons.mp hs with rfl | hs'
        · omega
        · exact hs'
      exact ih hrest (by omega) hdrop hs'
    · rw [if_neg hdrop]
      rw [hfull] at hdrop
      have hnot : s ∈ t → ¬ s.Remainder una x := by
        intro hs' hrem
        have hge := hrest.start_ge hs'
        have hin := (Seg.inside_iff (a := a) (by omega) (by omega) (hrest.ends hs').1).mp hrem.2.1
        omega
      by_cases hin : seqLt r.start una
      · rw [if_pos hin]
        rw [hpart] at hin
        have hinside : r.Inside una := by
          rw [Seg.inside_iff (a := a) (by omega) (by omega) hends.1, hstart, hstop]
          exact ⟨hin, by omega⟩
        obtain ⟨-, hhi, hmid, hend⟩ := splitSeg_ends hpos (by omega) hinside hends.1
        obtain ⟨-, h₃, h₄, -⟩ := splitSeg_shape r una
        have hcov₂ := Seg.covers_iff (s := (RtxQueue.splitSeg r una).2) (a := a) (x := x)
          (by rw [h₃, h₄]; exact hend)
        rw [h₃, h₄] at hcov₂
        rw [flagsAt_cons]
        rcases List.mem_cons.mp hs with rfl | hs'
        · rw [if_pos (hcov₂.mpr (by omega))]
          have hfar := toNat_sub_offset (a := a) (p := s.start) (x := x) (by omega)
          have hcut := toNat_sub_offset (a := a) (p := s.start) (x := una) (by omega)
          have hrest := toNat_sub_offset hge
          have hlen := toNat_sub_offset (a := a) (p := una) (x := s.stop) (by omega)
          refine ⟨fun hrem => by rw [(byteFlags_of_remainder hrem).1], fun hno => ?_⟩
          rcases byteFlags_splitSeg_snd (x := x) (by omega) hinside (by omega) with
            hsame | ⟨hrem, -⟩
          · rw [hsame]
          · exact absurd hrem hno
        · have hgap := hrest.start_ge hs'
          rw [if_neg (by rw [hcov₂]; omega), hrest.flagsAt_eq hs' hx]
          exact ⟨fun hrem => absurd hrem (hnot hs'), fun _ => rfl⟩
      · rw [if_neg hin, hall.flagsAt_eq hs hx]
        rw [hpart] at hin
        refine ⟨fun hrem => ?_, fun _ => rfl⟩
        rcases List.mem_cons.mp hs with rfl | hs'
        · have hinside := (Seg.inside_iff (a := a) (by omega) (by omega) hends.1).mp hrem.2.1
          omega
        · exact absurd hrem (hnot hs')

/-- The record the acknowledgment lands in becomes the first. -/
lemma dropBelow_of_inside (h : Laid a o t) (hhalf : o + span t < 2 ^ 31)
    (huna : (una - a).toNat < 2 ^ 31) (hs : s ∈ t) (hin : s.Inside una) :
    ∃ t', dropBelow una t = (RtxQueue.splitSeg s una).2 :: t' := by
  induction t generalizing o with
  | nil => cases hs
  | cons r t ih =>
    have hstop_le := h.stop_le hs
    have hin' := (Seg.inside_iff (a := a) (by omega) huna (h.ends hs).1).mp hin
    have hfull := (h.dropBelow_cons hhalf huna).1
    rw [dropBelow]
    rcases List.mem_cons.mp hs with rfl | hs'
    · rw [if_neg (by rw [hfull, ← h.2.2.1]; omega), if_pos hin.1]
      exact ⟨t, rfl⟩
    · have hge := h.2.2.2.start_ge hs'
      rw [if_pos (hfull.mpr (by omega))]
      rw [span_cons] at hhalf
      exact ih h.2.2.2 (by omega) hs'

end Drop

namespace RtxQueue

variable {CAP M : ℕ} {g : Bool} [RtxCap CAP] {q : RtxQueue CAP} {a b una : U32} {f : Option Bool}

/-- The loop of `ack_to`. -/
lemma ackToLoop_spec {fuel o : ℕ} {p : U32} (acc : Acked CAP) (h : Board M g acc.queue p b f)
    (hp : (p - a).toNat = o) (hhalf : o + span acc.queue.records < 2 ^ 31)
    (hlo : o ≤ (una - a).toNat) (hhi : (una - a).toNat ≤ o + span acc.queue.records)
    (hremoved : acc.removed.toNat = o) (hfuel : acc.queue.segs.len < fuel) :
    (ackToLoop una fuel acc).queue.records = dropBelow una acc.queue.records ∧
      (ackToLoop una fuel acc).calls = acc.calls ++ ackedBelow a una acc.queue.records ∧
      (ackToLoop una fuel acc).removed.toNat = (una - a).toNat := by
  -- Every round but the last drops a record, so the records left are what the fuel must cover.
  induction fuel generalizing p o acc with
  | zero => omega
  | succ fuel ih =>
    have hlaid : Laid a o acc.queue.records :=
      h.chain.laid hp (by omega) fun s hs => (h.sound s hs).pos
    rw [RtxQueue.ackToLoop]
    cases hs : acc.queue.get 0 with
    | none =>
      have hnil : acc.queue.records = [] := by
        rw [get_eq] at hs
        exact List.eq_nil_of_length_eq_zero (by simpa using List.getElem?_eq_none_iff.mp hs)
      rw [hnil, span_nil] at hhi
      dsimp only
      rw [hnil]
      exact ⟨rfl, (List.append_nil _).symm, by omega⟩
    | some s =>
      have hcons := records_cons hs
      have hends := hlaid.ends (mem_of_get hs)
      rw [hcons] at hlaid hhalf hhi ⊢
      have huna : (una - a).toNat < 2 ^ 31 := by omega
      obtain ⟨hfull, hpart⟩ := hlaid.dropBelow_cons hhalf huna
      have hall := hlaid
      obtain ⟨hpos, hstart, hstop, hrest⟩ := hlaid
      rw [span_cons] at hhalf hhi
      dsimp only
      rw [dropBelow]
      by_cases hcov : seqLe s.stop una
      · rw [if_pos hcov, if_pos hcov]
        rw [hfull] at hcov
        have hrecords : (acc.queue.addCounts s false).dropFirst.records = acc.queue.records.tail :=
          acc.queue.segs.toList_popFront
        have hlt := lt_of_get hs
        have hnext := ih ⟨satAdd acc.removed s.seqLen, acc.calls ++ [(s, !s.flags.sacked)],
          (acc.queue.addCounts s false).dropFirst⟩ (h.dropFirst hs) hstop
          (by dsimp only; rw [hrecords]; omega) hcov (by dsimp only; rw [hrecords]; omega)
          (by dsimp only; rw [toNat_satAdd]; omega)
          (by change acc.queue.segs.len - 1 < fuel; omega)
        dsimp only at hnext
        rw [hrecords] at hnext
        rw [ackedBelow_cons_of_lt (by omega)]
        refine ⟨hnext.1, ?_, hnext.2.2⟩
        rw [hnext.2.1, List.append_assoc]
        rfl
      · rw [if_neg hcov, if_neg hcov]
        rw [hfull] at hcov
        by_cases hin : seqLt s.start una
        · rw [if_pos hin, if_pos hin]
          rw [hpart] at hin
          have hlt := lt_of_get hs
          have hrecords := records_setSeg
            (q := (acc.queue.addCounts s false).addCounts (trimSeg s una).1 true) hlt (trimSeg s una).1
          have hdist : (una - s.start).toNat = (una - a).toNat - o := by
            rw [toNat_sub_offset (a := a) (by omega), hstart]
          rw [List.take_zero, List.nil_append, List.drop_one, List.singleton_append] at hrecords
          rw [ackedBelow_cons_of_lt (by omega), ackedBelow_of_ge hrest (by omega)]
          refine ⟨?_, rfl, ?_⟩
          · rw [← trimSeg_fst]
            dsimp only
            split
            · exact hrecords
            · exact hrecords
          · change (satAdd acc.removed (una - s.start)).toNat = _
            rw [toNat_satAdd]
            omega
        · rw [if_neg hin, if_neg hin]
          rw [hpart] at hin
          rw [ackedBelow_of_ge hall (by omega), List.append_nil]
          exact ⟨hcons, rfl, by omega⟩

lemma records_rewindIfEmpty (q : RtxQueue CAP) : q.rewindIfEmpty.records = q.records := by
  unfold RtxQueue.rewindIfEmpty
  split
  case isTrue hempty =>
    have hnil : q.records = [] :=
      List.eq_nil_of_length_eq_zero (by rw [RingQueue.length_toList]; exact hempty)
    rw [hnil]
    rfl
  case isFalse => rfl

/-- The whole call, on the list of records. -/
lemma Board.ackTo_records (h : Board M g q a b f) (hin : (una - a).toNat ≤ (b - a).toNat) :
    (q.ackTo una).queue.records = dropBelow una q.records ∧
      (q.ackTo una).calls = ackedBelow a una q.records ∧
      (q.ackTo una).removed = una - a := by
  have hhalf := h.half
  rw [h.span_eq] at hin
  have hloop := ackToLoop_spec ⟨0, [], q⟩ h (by rw [BitVec.sub_self]; rfl)
    (by rw [Nat.zero_add]; exact hhalf) (Nat.zero_le _) (by rw [Nat.zero_add]; exact hin) rfl
    (Nat.lt_succ_self q.len)
  unfold RtxQueue.ackTo
  dsimp only
  rw [records_rewindIfEmpty]
  exact ⟨hloop.1, hloop.2.1.trans (List.nil_append _), BitVec.eq_of_toNat_eq hloop.2.2⟩

/-- `ack_to` is exact: what is left, what is said about it, what is returned and which calls are
made. -/
theorem ackTo_exact {una₀ nxt b e una : U32} (hvalid : q.debugValid una₀ nxt = .ok ())
    (hcover : Chain b q.records e) (hspan : span q.records < 2 ^ 31)
    (hin : (una - b).toNat ≤ (e - b).toNat) :
    -- The queue covers exactly what lies from `una` on.
    Chain una (q.ackTo una).queue.records e ∧
    (∀ x, (flagsAt (q.ackTo una).queue.records x).isSome = true ↔
      (x - una).toNat < (e - una).toNat) ∧
    -- What is said about a number that is left stays, but for a remainder that was not resent.
    (∀ s ∈ q.records, ∀ x, s.covers x = true → (x - una).toNat < (e - una).toNat →
      (¬ s.Remainder una x →
        flagsAt (q.ackTo una).queue.records x = some (s.byteFlags x)) ∧
      (s.Remainder una x →
        flagsAt (q.ackTo una).queue.records x =
          some { s.byteFlags x with lost := true, resent := false })) ∧
    (∀ s ∈ q.records, s.Remainder una una →
      ∃ first, (q.ackTo una).queue.get 0 = some first ∧ first.start = una ∧ first.stop = s.stop ∧
        first.awaitsRetrans = true) ∧
    (q.ackTo una).removed = una - b ∧
    (q.ackTo una).calls = (q.records.filter fun s =>
      decide ((s.start - b).toNat < (una - b).toNat)).map fun s => (s, !s.flags.sacked) := by
  obtain ⟨a', b', h'⟩ := board_of_debugValid hvalid hspan
  have h : Board (2 ^ 31) q.saturated q b e none :=
    ⟨hcover, h'.sound, h'.short, hspan, nofun, h'.counts, rfl, h'.map⟩
  have hlaid := h.laid
  have hlen := h.span_eq
  obtain ⟨hrecords, hcalls, hremoved⟩ := h.ackTo_records hin
  have hchain := (h.ackTo hin).chain
  have hinside : (una - b).toNat ≤ 0 + span q.records := by omega
  obtain ⟨hleft, hleftspan⟩ := hlaid.dropBelow (by omega) (Nat.zero_le _) hinside
  have hend := toNat_sub_offset hin
  -- A number that is left, by its distance from where the queue began.
  have hrange : ∀ x, (x - una).toNat < (e - una).toNat ↔
      (una - b).toNat ≤ (x - b).toNat ∧ (x - b).toNat < (e - b).toNat := by
    intro x
    have hx := toNat_sub_cases b una x
    omega
  rw [hrecords] at hchain ⊢
  refine ⟨hchain, fun x => ?_, fun s hs x hx hleft' => ?_, fun s hs hrem => ?_, hremoved, hcalls⟩
  · rw [hrange]
    constructor
    · intro hsome
      obtain ⟨fl, hfl⟩ := Option.isSome_iff_exists.mp hsome
      obtain ⟨s, hs, hx, -⟩ := flagsAt_eq_some hfl
      have hcov := (Seg.covers_iff (hleft.ends hs).1).mp hx
      have hge := hleft.start_ge hs
      have hle := hleft.stop_le hs
      omega
    · rintro ⟨hlo, hhi⟩
      obtain ⟨s, hs, hx⟩ := hleft.exists_covers hlo (by omega)
      rw [hleft.flagsAt_eq hs hx]
      rfl
  · obtain ⟨hlo, -⟩ := (hrange x).mp hleft'
    obtain ⟨hrem, hno⟩ := flagsAt_dropBelow hlaid (by omega) (Nat.zero_le _) hs hx hlo
    exact ⟨hno, hrem⟩
  · obtain ⟨t, ht⟩ := dropBelow_of_inside hlaid (by omega) (by omega) hs hrem.2.1
    obtain ⟨-, h₃, h₄, -⟩ := splitSeg_shape s una
    refine ⟨(splitSeg s una).2, ?_, h₃, h₄, (byteFlags_of_remainder hrem).2⟩
    rw [get_eq, hrecords, ht]
    rfl

theorem loneQueue_ackTo :
    loneQueue.debugValid 100 200 = .ok () ∧ Chain 130 (loneQueue.ackTo 130).queue.records 200 ∧
      (loneQueue.ackTo 130).removed = 30 := by
  have hvalid : loneQueue.debugValid 100 200 = .ok () := by decide +kernel
  have hcover : Chain 100 loneQueue.records 200 := by
    rw [show loneQueue.records = [⟨100, 200, 9, 1,
      { lost := true, retrans := true, everRetrans := true, isPartial := true }, 20⟩] by decide +kernel]
    exact ⟨rfl, rfl⟩
  have hin : ((130 : U32) - 100).toNat ≤ ((200 : U32) - 100).toNat := by decide
  have hexact := ackTo_exact hvalid hcover (by decide +kernel) hin
  exact ⟨hvalid, hexact.1, hexact.2.2.2.2.1⟩

end RtxQueue

end TcpSansIo
