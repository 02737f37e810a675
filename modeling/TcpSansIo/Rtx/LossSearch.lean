import TcpSansIo.Rtx.Sack

/-!
# The search for the next lost record

`next_lost` starts at `lost_hint`, so it finds the first record that waits for its retransmission
only if no record below the hint does.  That is `HintOk`, and every operation keeps it, whatever its
arguments: a record that begins to wait pulls the hint down, a record that goes off the front moves
it, and a split below it pushes it up.
-/

namespace TcpSansIo

open FixedWidth

namespace RtxQueue

variable {CAP : ℕ} [RtxCap CAP] {q q' : RtxQueue CAP}

/-- No record below the hint is lost and not retransmitted. -/
def HintOk (q : RtxQueue CAP) : Prop :=
  ∀ i s, i < q.lostHint → q.get i = some s → s.awaitsRetrans = false

/-- The records below the hint of `q'` are those of `q`. -/
lemma HintOk.of_get (h : HintOk q) (hhint : q'.lostHint ≤ q.lostHint)
    (hget : ∀ i, i < q'.lostHint → q'.get i = q.get i) : HintOk q' := by
  intro i s hi hs
  rw [hget i hi] at hs
  exact h i s (by omega) hs

lemma HintOk.of_zero (h : q.lostHint = 0) : HintOk q := by
  intro i s hi
  omega

lemma HintOk.push (h : HintOk q) (s : Seg) : HintOk (q.push s).2 := by
  unfold RtxQueue.push
  split
  case isTrue hroom =>
    refine h.of_get (le_refl _) fun i hi => ?_
    have hhint := q.lostHint_le
    have hlt : i < q.segs.len := lt_of_lt_of_le hi hhint
    rw [get_eq, get_eq]
    change (q.segs.pushBack _ hroom).toList[i]? = _
    rw [RingQueue.toList_pushBack, List.getElem?_append_left (by rw [RingQueue.length_toList]; exact hlt)]
  case isFalse => exact h

/-! ## Changing a record -/

lemma get_setSeg {i j : ℕ} (hi : i < q.segs.len) (s : Seg) :
    (q.setSeg i s).get j = if j = i then some s else q.get j := by
  rw [get_eq, get_eq]
  change (q.segs.set i s).toList[j]? = _
  rw [RingQueue.toList_set _ hi, List.getElem?_set, RingQueue.length_toList, if_pos hi]
  simp only [eq_comm (a := i)]

/-- Overwriting a record, with the hint at or below it if the new one waits. -/
lemma HintOk.overwrite {i : ℕ} {new : Seg} (h : HintOk q) (hi : i < q.segs.len)
    (hsegs : q'.segs = q.segs.set i new) (hhint : q'.lostHint ≤ q.lostHint)
    (hnew : i < q'.lostHint → new.awaitsRetrans = false) : HintOk q' := by
  intro j s hj hs
  have hget : q'.get j = if j = i then some new else q.get j := by
    rw [RtxQueue.get, hsegs]
    exact get_setSeg hi new
  rw [hget] at hs
  split at hs
  case isTrue hij =>
    cases hs
    exact hnew (hij ▸ hj)
  case isFalse => exact h j s (by omega) hs

lemma HintOk.setState (h : HintOk q) (i : ℕ) (flags : SegFlags) (sent : U16) :
    HintOk (q.setState i flags sent) := by
  unfold RtxQueue.setState
  cases hs : q.get i with
  | none => exact h
  | some old =>
    have hi := lt_of_get hs
    dsimp only
    generalize (if flags.isPartial = true then sent else 0) = kept
    split
    case isTrue hlower => exact h.overwrite hi rfl hlower.2.2.le fun hlt => absurd hlt (lt_irrefl i)
    case isFalse hkeep =>
      refine h.overwrite hi rfl (le_refl _) fun hlt => ?_
      rw [Seg.awaitsRetrans]
      by_contra hwaits
      have hflags : flags.lost = true ∧ flags.retrans = false := by simpa using hwaits
      exact hkeep ⟨hflags.1, by simp [hflags.2], hlt⟩

lemma HintOk.setFlags (h : HintOk q) (i : ℕ) (flags : SegFlags) : HintOk (q.setFlags i flags) :=
  h.setState i flags _

lemma HintOk.markLost (h : HintOk q) (i : ℕ) : HintOk (q.markLost i) := by
  unfold RtxQueue.markLost
  split
  · exact h
  · split
    · exact h.setFlags i _
    · exact h

lemma HintOk.unmarkLostAt (h : HintOk q) (i : ℕ) : HintOk (q.unmarkLostAt i) := by
  unfold RtxQueue.unmarkLostAt
  split
  · exact h
  · split
    · exact h.setFlags i _
    · exact h

lemma HintOk.clearSackedAt (h : HintOk q) (i : ℕ) : HintOk (q.clearSackedAt i) := by
  unfold RtxQueue.clearSackedAt
  split
  · exact h
  · split
    · exact h.setFlags i _
    · exact h

lemma HintOk.clearSacked (h : HintOk q) : HintOk q.clearSacked := by
  unfold RtxQueue.clearSacked
  generalize List.range q.len = l
  induction l generalizing q with
  | nil => exact h
  | cons i l ih => exact ih (h.clearSackedAt i)

lemma HintOk.retransmitted (h : HintOk q) (i : ℕ) (now : U64) (sent : U16) :
    HintOk (q.retransmitted i now sent) := by
  unfold RtxQueue.retransmitted
  split
  · exact h
  case h_2 s hs =>
    have hset := h.setState i
      { s.flags with retrans := true, everRetrans := true, isPartial := sent != 0 } sent
    dsimp only
    split
    · exact hset
    case h_2 d hd =>
      exact hset.overwrite (lt_of_get hd) rfl (le_refl _) fun hlt => hset i d hlt hd

/-! ## Splitting and selective acknowledgment -/

/-- The upper half waits only if the record did, or if the cut left it wholly unsent. -/
lemma awaitsRetrans_splitSeg_snd {s : Seg} {cut : U32} (hp : s.flags.isPartial = false) :
    (splitSeg s cut).2.awaitsRetrans = s.awaitsRetrans := by
  unfold splitSeg
  rw [if_neg (by simp [hp])]
  rfl

/-- Where a split leaves the hint. -/
lemma lostHint_split {i : ℕ} {s : Seg} {cut : U32} (hs : q.get i = some s)
    (hcut : s.Inside cut ∧ q.segs.len < CAP) :
    (q.split i cut).2.lostHint =
      if s.flags.isPartial ∧ (splitSeg s cut).2.awaitsRetrans then
        min (if i + 1 < q.lostHint then q.lostHint + 1 else q.lostHint) (i + 1)
      else if i + 1 < q.lostHint then q.lostHint + 1 else q.lostHint := by
  unfold RtxQueue.split
  rw [hs]
  dsimp only
  rw [dif_pos ⟨hcut.1, hcut.2⟩]

lemma HintOk.split (h : HintOk q) (i : ℕ) (cut : U32) : HintOk (q.split i cut).2 := by
  cases hs : q.get i with
  | none =>
    unfold RtxQueue.split
    rw [hs]
    exact h
  | some s =>
    by_cases hcut : s.Inside cut ∧ q.segs.len < CAP
    swap
    · rw [split_of_not hs hcut]
      exact h
    have hlen : (q.records.take i).length = i := by
      rw [List.length_take, RingQueue.length_toList]
      have := lt_of_get hs
      omega
    obtain ⟨-, hrecords, -⟩ := split_of_inside (records_around hs) hcut.1 hcut.2
    have hhint := lostHint_split hs hcut
    rw [hlen] at hrecords
    intro j x hj hx
    rw [get_eq, hrecords, List.getElem?_append, hlen] at hx
    -- Where the record at `j` was before: in front of the halves, one of them, or behind them.
    rcases Nat.lt_trichotomy j i with hbefore | rfl | hafter
    · rw [if_pos hbefore, List.getElem?_take_of_lt hbefore, ← get_eq] at hx
      refine h j x ?_ hx
      split at hhint <;> split at hhint <;> omega
    · rw [if_neg (lt_irrefl j), Nat.sub_self] at hx
      cases hx
      rw [awaitsRetrans_splitSeg]
      refine h j s ?_ hs
      split at hhint <;> split at hhint <;> omega
    · rw [if_neg (by omega)] at hx
      obtain ⟨k, rfl⟩ : ∃ k, j = i + 1 + k := ⟨j - (i + 1), by omega⟩
      rw [show i + 1 + k - i = k + 1 by omega, List.getElem?_cons_succ] at hx
      cases k with
      | zero =>
        cases hx
        by_cases hp : s.flags.isPartial = true
        · by_contra hwaits
          rw [Bool.not_eq_false] at hwaits
          rw [if_pos ⟨hp, hwaits⟩] at hhint
          omega
        · rw [if_neg fun hc => hp hc.1] at hhint
          rw [awaitsRetrans_splitSeg_snd (by simpa using hp)]
          refine h i s ?_ hs
          split at hhint <;> omega
      | succ k =>
        rw [List.getElem?_cons_succ, List.getElem?_drop, ← get_eq] at hx
        refine h _ x ?_ hx
        split at hhint <;> split at hhint <;> omega

lemma HintOk.sackLoop {l r : U32} (acc : Sacked CAP) (h : HintOk acc.queue) (fuel i : ℕ) :
    HintOk (sackLoop l r fuel i acc).queue := by
  induction fuel generalizing i acc with
  | zero => exact h
  | succ fuel ih =>
    rw [sackLoop_succ]
    unfold sackRound
    cases acc.queue.get i with
    | none => exact h
    | some s =>
      dsimp only
      split
      case h_1 => exact h
      case h_2 next hnext =>
        refine ih next.2 ?_ next.1
        split at hnext
        · cases hnext
        split at hnext
        · obtain ⟨j, -, rfl⟩ := Option.map_eq_some_iff.mp hnext
          exact h
        split at hnext
        · split at hnext
          · cases hnext
            exact h.split i r
          · cases hnext
        split at hnext
        · cases hnext
          exact h.setFlags i _
        · cases hnext
          exact h

lemma HintOk.sack (h : HintOk q) (left right : U32) : HintOk (q.sack left right).queue := by
  have hedge : ∀ i l, HintOk (q.splitLeftEdge i l).2 := by
    intro i l
    unfold RtxQueue.splitLeftEdge
    split
    · exact h
    · split
      · split
        · exact h.split i l
        · exact h
      · exact h
  unfold RtxQueue.sack
  split
  case h_1 first final _ _ =>
    dsimp only
    generalize (if seqLt left first.start then first.start else left) = l
    generalize (if seqLt final.stop right then final.stop else right) = r
    split
    · split
      · exact h
      case h_2 i _ => exact HintOk.sackLoop ⟨0, [], (q.splitLeftEdge i l).2⟩ (hedge i l) _ _
    · exact h
  · exact h

/-! ## Cumulative acknowledgment -/

lemma HintOk.dropFirst (h : HintOk q) (s : Seg) : HintOk (q.addCounts s false).dropFirst := by
  intro i x hi hx
  have hrecords : (q.addCounts s false).dropFirst.records = q.records.tail := q.segs.toList_popFront
  rw [get_eq, hrecords, List.getElem?_tail, ← get_eq] at hx
  change i < q.lostHint - 1 at hi
  exact h (i + 1) x (by omega) hx

lemma HintOk.ackToLoop {una : U32} (fuel : ℕ) (acc : Acked CAP) (h : HintOk acc.queue) :
    HintOk (ackToLoop una fuel acc).queue := by
  induction fuel generalizing acc with
  | zero => exact h
  | succ fuel ih =>
    rw [RtxQueue.ackToLoop]
    cases hs : acc.queue.get 0 with
    | none => exact h
    | some s =>
      dsimp only
      split
      · exact ih _ (h.dropFirst s)
      split
      · dsimp only
        split
        · exact .of_zero rfl
        case isFalse hkept =>
          -- A trimmed record that is not lost now has the marks it had.
          refine h.overwrite (lt_of_get hs) rfl (le_refl _) fun hlt => ?_
          have hflags : (trimSeg s una).1.flags = s.flags := by
            revert hkept
            unfold trimSeg
            dsimp only
            split
            · split
              · exact fun _ => rfl
              · exact fun hkept => absurd rfl hkept
            · exact fun _ => rfl
          rw [Seg.awaitsRetrans, hflags]
          exact h 0 s hlt hs
      · exact h

lemma HintOk.ackTo (h : HintOk q) (una : U32) : HintOk (q.ackTo una).queue := by
  have hloop : HintOk (RtxQueue.ackToLoop una (q.len + 1) ⟨0, [], q⟩).queue :=
    HintOk.ackToLoop (q.len + 1) ⟨0, [], q⟩ h
  unfold RtxQueue.ackTo RtxQueue.rewindIfEmpty
  dsimp only
  split
  · exact .of_zero rfl
  · exact hloop

/-! ## The search -/

/-- The search from the hint on. -/
lemma nextLostFrom_spec {fuel i : ℕ} (hfuel : q.len < fuel + i) :
    (∀ j, q.nextLostFrom fuel i = some j → i ≤ j ∧ (∃ s, q.get j = some s ∧ s.awaitsRetrans = true) ∧
      ∀ k s, i ≤ k → k < j → q.get k = some s → s.awaitsRetrans = false) ∧
    (q.nextLostFrom fuel i = none → ∀ k s, i ≤ k → q.get k = some s → s.awaitsRetrans = false) := by
  induction fuel generalizing i with
  | zero =>
    refine ⟨fun j hj => (by cases hj), fun _ k s hik hs => ?_⟩
    have hlt : k < q.len := lt_of_get hs
    omega
  | succ fuel ih =>
    rw [nextLostFrom]
    cases hs : q.get i with
    | none =>
      refine ⟨fun j hj => (by cases hj), fun _ k s hik hk => ?_⟩
      have hlt := lt_of_get hk
      rw [get_eq, List.getElem?_eq_none_iff, RingQueue.length_toList] at hs
      omega
    | some s =>
      dsimp only
      have hnext := ih (i := i + 1) (by omega)
      split
      case isTrue hwaits =>
        refine ⟨?_, fun hnone => (by cases hnone)⟩
        rintro j ⟨rfl⟩
        exact ⟨le_refl _, ⟨s, hs, hwaits⟩, fun k x hik hk => by omega⟩
      case isFalse hwaits =>
        have hfirst : ∀ x, q.get i = some x → x.awaitsRetrans = false := by
          intro x hx
          cases hs.symm.trans hx
          simpa using hwaits
        refine ⟨fun j hj => ?_, fun hnone k x hik hx => ?_⟩
        · obtain ⟨hle, hwait, hskipped⟩ := hnext.1 j hj
          refine ⟨by omega, hwait, fun k x hik hk hx => ?_⟩
          rcases Nat.eq_or_lt_of_le hik with rfl | hlt
          · exact hfirst x hx
          · exact hskipped k x hlt hk hx
        · rcases Nat.eq_or_lt_of_le hik with rfl | hlt
          · exact hfirst x hx
          · exact hnext.2 hnone k x hlt hx

/-- The first record that waits, if one does. -/
lemma HintOk.nextLost_spec (h : HintOk q) :
    (∀ j, q.nextLost.1 = some j → (∃ s, q.get j = some s ∧ s.awaitsRetrans = true) ∧
      ∀ k s, k < j → q.get k = some s → s.awaitsRetrans = false) ∧
    (q.nextLost.1 = none → ∀ k s, q.get k = some s → s.awaitsRetrans = false) ∧
    HintOk q.nextLost.2 := by
  have hfuel : q.len < q.len + 1 + q.lostHint := by omega
  obtain ⟨hsome, hnone⟩ := nextLostFrom_spec hfuel
  have hbelow : ∀ {P : ℕ → Seg → Prop}, (∀ k s, q.lostHint ≤ k → P k s → q.get k = some s →
      s.awaitsRetrans = false) → ∀ k s, P k s → q.get k = some s → s.awaitsRetrans = false := by
    intro P hP k s hp hs
    rcases Nat.lt_or_ge k q.lostHint with hlt | hge
    · exact h k s hlt hs
    · exact hP k s hge hp hs
  unfold RtxQueue.nextLost
  split
  case h_1 i hi =>
    obtain ⟨hle, hwaits, hskipped⟩ := hsome i hi
    have hfirst : ∀ k s, k < i → q.get k = some s → s.awaitsRetrans = false :=
      hbelow fun k s hk hlt => hskipped k s hk hlt
    refine ⟨?_, fun hnone => (by cases hnone), hfirst⟩
    rintro j ⟨rfl⟩
    exact ⟨hwaits, hfirst⟩
  case h_2 hi =>
    have hall : ∀ k s, True → q.get k = some s → s.awaitsRetrans = false :=
      hbelow fun k s hk _ => hnone hi k s hk
    exact ⟨fun j hj => (by cases hj), fun _ k s => hall k s trivial, fun k s _ => hall k s trivial⟩

/-! ## Runs -/

lemma HintOk.apply (h : HintOk q) (op : Op) : HintOk (op.apply q) := by
  cases op with
  | push s => exact h.push s
  | split i cut => exact h.split i cut
  | ackTo una => exact h.ackTo una
  | sack left right => exact h.sack left right
  | markLost i => exact h.markLost i
  | markAllLost => exact .of_zero rfl
  | unmarkLost => exact .of_zero rfl
  | clearSacked => exact h.clearSacked
  | nextLost => exact h.nextLost_spec.2.2
  | onRetransmit i now => exact h.retransmitted i now 0
  | onPartialRetransmit i now sent => exact h.retransmitted i now sent

/-- The queue after any calls, with any arguments. -/
def after (CAP : ℕ) [RtxCap CAP] (ops : List Op) : RtxQueue CAP :=
  ops.foldl (fun q op => op.apply q) new

lemma hintOk_after (CAP : ℕ) [RtxCap CAP] (ops : List Op) : HintOk (after CAP ops) := by
  have hfold : ∀ (q : RtxQueue CAP), HintOk q → HintOk (ops.foldl (fun q op => op.apply q) q) := by
    induction ops with
    | nil => exact fun _ h => h
    | cons op ops ih => exact fun q h => ih _ (h.apply op)
  exact hfold new (.of_zero rfl)

/-- After any calls, `next_lost` returns the first record that is lost and not retransmitted, and
nothing exactly if there is none. -/
theorem nextLost_complete (ops : List Op) :
    (∀ i, (after CAP ops).nextLost.1 = some i ↔
      (∃ s, (after CAP ops).get i = some s ∧ s.flags.lost = true ∧ s.flags.retrans = false) ∧
        ∀ k s, k < i → (after CAP ops).get k = some s →
          ¬ (s.flags.lost = true ∧ s.flags.retrans = false)) ∧
    ((after CAP ops).nextLost.1 = none ↔
      ∀ k s, (after CAP ops).get k = some s → ¬ (s.flags.lost = true ∧ s.flags.retrans = false)) := by
  have hiff : ∀ s : Seg, s.awaitsRetrans = true ↔ s.flags.lost = true ∧ s.flags.retrans = false := by
    intro s
    simp [Seg.awaitsRetrans]
  obtain ⟨hsome, hnone, -⟩ := (hintOk_after CAP ops).nextLost_spec
  simp only [← hiff, Bool.not_eq_true]
  generalize after CAP ops = q at *
  refine ⟨fun i => ⟨hsome i, ?_⟩, hnone, fun hno => ?_⟩
  · rintro ⟨⟨s, hs, hwaits⟩, hfirst⟩
    cases hfound : q.nextLost.1 with
    | none =>
      rw [hnone hfound i s hs] at hwaits
      cases hwaits
    | some j =>
      obtain ⟨⟨x, hx, hxwaits⟩, hbefore⟩ := hsome j hfound
      rcases Nat.lt_trichotomy i j with hlt | rfl | hgt
      · rw [hbefore i s hlt hs] at hwaits
        cases hwaits
      · rfl
      · rw [hfirst j x hgt hx] at hxwaits
        cases hxwaits
  · cases hfound : q.nextLost.1 with
    | none => rfl
    | some j =>
      obtain ⟨⟨x, hx, hxwaits⟩, -⟩ := hsome j hfound
      rw [hno j x hx] at hxwaits
      cases hxwaits

/-- Two lost segments, the first of them retransmitted. -/
theorem nextLost_second :
    (after 64 [.push ⟨100, 200, 5, 0, {}, 0⟩, .push ⟨200, 300, 6, 0, {}, 0⟩, .markAllLost,
      .onRetransmit 0 9]).nextLost.1 = some 1 := by
  refine ((nextLost_complete _).1 1).mpr ⟨⟨⟨200, 300, 6, 1, { lost := true }, 0⟩, ?_, rfl, rfl⟩, ?_⟩
  · decide +kernel
  · intro k s hk hs
    obtain rfl : k = 0 := by omega
    have hfirst : (after 64 [.push ⟨100, 200, 5, 0, {}, 0⟩, .push ⟨200, 300, 6, 0, {}, 0⟩, .markAllLost,
        .onRetransmit 0 9]).get 0 =
        some ⟨100, 200, 9, 2, { lost := true, retrans := true, everRetrans := true }, 0⟩ := by
      decide +kernel
    cases hfirst.symm.trans hs
    decide

end RtxQueue

end TcpSansIo
