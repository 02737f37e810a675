import TcpSansIo.Rtx.Bytes
import TcpSansIo.Rtx.Consistency

/-!
# What `sack` does

`sack` clips the block to the queue, cuts the record the clipped block begins in, and walks up from
there, cutting the record the block ends in and marking what lies between.  The result is said on
the list of records: it is cut at both edges where there is room (`cutBoth`) and marked between them
(`markAll`), and the calls are the records marked (`sackLoop_spec`, `sack_marks`).

The walk skips SACKed runs with the bitmap (`nextUnsacked_spec`) and begins where a binary search
puts it (`find_iff`).
-/

namespace TcpSansIo

open FixedWidth

namespace RtxQueue

variable {CAP M : ℕ} {g : Bool} [RtxCap CAP] {q : RtxQueue CAP} {a b l r : U32} {f : Option Bool}

/-! ## The bitmap search -/

lemma trailingZeros_lt {w : U64} (h : trailingZeros w < 64) : w.getLsbD (trailingZeros w) = true := by
  unfold trailingZeros at h ⊢
  cases hfind : (List.range 64).find? fun k => w.getLsbD k with
  | none =>
    rw [hfind] at h
    exact absurd h (by decide)
  | some k =>
    have hk := List.find?_some hfind
    exact hk

lemma below_trailingZeros {w : U64} {d : ℕ} (h : d < trailingZeros w) (hd : d < 64) :
    w.getLsbD d = false := by
  unfold trailingZeros at h
  cases hfind : (List.range 64).find? fun k => w.getLsbD k with
  | none => simpa using List.find?_eq_none.mp hfind d (List.mem_range.mpr hd)
  | some k =>
    rw [hfind] at h
    simpa using (List.find?_range_eq_some.mp hfind).2.2 d h

/-- Slots that share a bitmap word follow one another. -/
lemma phys_add_of_word {i d : ℕ} (h : q.phys i % 64 + d < 64) : q.phys (i + d) = q.phys i + d := by
  have hlt : q.phys i < CAP := (q.segs.phys i).isLt
  obtain ⟨k, hk⟩ := RtxCap.words (n := CAP)
  rw [← phys_add, Nat.mod_eq_of_lt]
  omega

/-- The bits of the word that holds slot `i`, from that slot on. -/
lemma getLsbD_clear {i d : ℕ} (h : q.phys i % 64 + d < 64) :
    (~~~(q.sackedMap (Fin.ofNat 16 (q.phys i / 64))) >>> (q.phys i % 64)).getLsbD d =
      !bitAt q.sackedMap (q.phys (i + d)) := by
  have hword : (q.phys i + d) / 64 = q.phys i / 64 := by omega
  have hbit : (q.phys i + d) % 64 = q.phys i % 64 + d := by omega
  rw [phys_add_of_word h, bitAt, hword, hbit, BitVec.getLsbD_ushiftRight, BitVec.getLsbD_not]
  simp [h]

/-- The records from index `i` up to `j` are SACKed. -/
def SackedRun (q : RtxQueue CAP) (i j : ℕ) : Prop :=
  ∀ k s, i ≤ k → k < j → q.get k = some s → s.flags.sacked = true

/-- The word-wise search finds the first record that is not SACKed, if there is one. -/
lemma nextUnsackedFrom_spec (hmap : q.MapOk) {fuel i : ℕ} (hfuel : q.len < fuel + i) :
    (∀ j, q.nextUnsackedFrom fuel i = some j →
      i ≤ j ∧ SackedRun q i j ∧ ∃ s, q.get j = some s ∧ s.flags.sacked = false) ∧
    (q.nextUnsackedFrom fuel i = none → SackedRun q i q.len) := by
  induction fuel generalizing i with
  | zero => exact ⟨fun j hj => (by cases hj), fun _ k s hik hk => by omega⟩
  | succ fuel ih =>
    rw [RtxQueue.nextUnsackedFrom]
    by_cases hi : i < q.len
    · rw [if_pos hi]
      dsimp only
      have hmod : q.phys i % 64 < 64 := Nat.mod_lt _ (by decide)
      generalize hspan : min (64 - q.phys i % 64) (q.len - i) = n
      generalize hzeros : trailingZeros
        (~~~(q.sackedMap (Fin.ofNat 16 (q.phys i / 64))) >>> (q.phys i % 64)) = z
      -- Before the lowest clear bit every record in the word is SACKed.
      have hrun : ∀ d, d < z → d < n → ∀ s, q.get (i + d) = some s → s.flags.sacked = true := by
        intro d hdz hdn s hs
        have hclear := getLsbD_clear (q := q) (i := i) (d := d) (by omega)
        rw [below_trailingZeros (by omega) (by omega)] at hclear
        rw [← hmap (i + d) s hs]
        simpa using hclear.symm
      split
      case isTrue hz =>
        refine ⟨?_, fun hnone => (by cases hnone)⟩
        rintro j ⟨rfl⟩
        refine ⟨by omega, ?_, ?_⟩
        · intro k s hik hk hs
          obtain ⟨d, rfl⟩ := Nat.exists_eq_add_of_le hik
          exact hrun d (by omega) (by omega) s hs
        · have hclear := getLsbD_clear (q := q) (i := i) (d := z) (by omega)
          rw [← hzeros, trailingZeros_lt (by omega), hzeros] at hclear
          have hlen : i + z < q.records.length := by
            rw [RingQueue.length_toList]
            change i + z < q.len
            omega
          have hget : q.get (i + z) = some (q.records[i + z]) := by
            rw [get_eq, List.getElem?_eq_getElem hlen]
          refine ⟨_, hget, ?_⟩
          rw [← hmap _ _ hget]
          simpa using hclear.symm
      case isFalse hz =>
        have hnext := ih (i := i + n) (by omega)
        refine ⟨fun j hj => ?_, fun hnone => ?_⟩
        · obtain ⟨hle, hmore, hfree⟩ := hnext.1 j hj
          refine ⟨by omega, ?_, hfree⟩
          intro k s hik hk hs
          by_cases hkn : k < i + n
          · obtain ⟨d, rfl⟩ := Nat.exists_eq_add_of_le hik
            exact hrun d (by omega) (by omega) s hs
          · exact hmore k s (by omega) hk hs
        · intro k s hik hk hs
          by_cases hkn : k < i + n
          · obtain ⟨d, rfl⟩ := Nat.exists_eq_add_of_le hik
            exact hrun d (by omega) (by omega) s hs
          · exact hnext.2 hnone k s (by omega) hk hs
    · rw [if_neg hi]
      exact ⟨fun j hj => (by cases hj), fun _ k s hik hk => by omega⟩

lemma nextUnsacked_spec (hmap : q.MapOk) (i : ℕ) :
    (∀ j, q.nextUnsacked i = some j →
      i ≤ j ∧ SackedRun q i j ∧ ∃ s, q.get j = some s ∧ s.flags.sacked = false) ∧
    (q.nextUnsacked i = none → SackedRun q i q.len) :=
  nextUnsackedFrom_spec hmap (by omega)

/-- The word-wise search is the linear scan: it returns the least index at or after `i` whose record
is not SACKed, and nothing exactly when there is none.  Of a valid queue it needs only that the
bitmap is right about the records in use; bits of unused slots are never taken for records. -/
theorem nextUnsacked_isLeast (hmap : q.MapOk) (i : ℕ) :
    (∀ j, q.nextUnsacked i = some j ↔
      IsLeast {k | i ≤ k ∧ k < q.len ∧ ∃ s, q.get k = some s ∧ s.flags.sacked = false} j) ∧
    (q.nextUnsacked i = none ↔
      ∀ k s, i ≤ k → k < q.len → q.get k = some s → s.flags.sacked = true) := by
  obtain ⟨hsome, hnone⟩ := nextUnsacked_spec hmap i
  have hfound : ∀ j, q.nextUnsacked i = some j →
      IsLeast {k | i ≤ k ∧ k < q.len ∧ ∃ s, q.get k = some s ∧ s.flags.sacked = false} j := by
    intro j hj
    obtain ⟨hle, hrun, s, hs, hfree⟩ := hsome j hj
    refine ⟨⟨hle, lt_of_get hs, s, hs, hfree⟩, ?_⟩
    rintro k ⟨hik, -, s', hs', hfree'⟩
    by_contra hlt
    rw [hrun k s' hik (by omega) hs'] at hfree'
    cases hfree'
  refine ⟨fun j => ⟨hfound j, fun hleast => ?_⟩, fun h k s hik hk hs => hnone h k s hik hk hs,
    fun hall => ?_⟩
  · cases hj : q.nextUnsacked i with
    | some k => rw [(hfound k hj).unique hleast]
    | none =>
      obtain ⟨⟨hle, hlt, s, hs, hfree⟩, -⟩ := hleast
      rw [hnone hj j s hle hlt hs] at hfree
      cases hfree
  · cases hj : q.nextUnsacked i with
    | none => rfl
    | some k =>
      obtain ⟨⟨hle, hlt, s, hs, hfree⟩, -⟩ := hfound k hj
      rw [hall k s hle hlt hs] at hfree
      cases hfree

/-- Four records around the end of the ring, the first two SACKed; every unused slot has its bit
set. -/
def wrappedQueue : RtxQueue 64 where
  segs := {
    slots := fun p => { zeroSeg with flags := { sacked := 2 ≤ p.val } }
    head := 62
    len := 4
    head_lt := by decide
    len_le := by decide }
  sackedMap := fun _ => ~~~3
  sacked := 0
  lost := 0
  retrans := 0
  lostHint := 0
  nextXmit := 0
  saturated := false
  lostHint_le := Nat.zero_le _

theorem wrappedQueue_isLeast :
    (∀ j, wrappedQueue.nextUnsacked 0 = some j ↔ IsLeast {k | 0 ≤ k ∧ k < wrappedQueue.len ∧
      ∃ s, wrappedQueue.get k = some s ∧ s.flags.sacked = false} j) ∧
    (wrappedQueue.nextUnsacked 0 = none ↔ ∀ k s, 0 ≤ k → k < wrappedQueue.len →
      wrappedQueue.get k = some s → s.flags.sacked = true) := by
  have hbits : ∀ i < 4, (wrappedQueue.get i).map (fun s => s.flags.sacked) =
      some (bitAt wrappedQueue.sackedMap (wrappedQueue.phys i)) := by decide +kernel
  refine nextUnsacked_isLeast (fun i s hs => ?_) 0
  have hbit := hbits i (lt_of_get hs)
  rw [hs] at hbit
  exact (Option.some.inj hbit).symm

/-! ## The binary search -/

lemma Board.laid (h : Board M g q a b f) : Laid a 0 q.records :=
  h.chain.laid (by rw [BitVec.sub_self]; rfl) (by have := h.half; omega)
    fun s hs => (h.sound s hs).pos

lemma get_of_records {pre t : List Seg} {s : Seg} (h : q.records = pre ++ s :: t) :
    q.get pre.length = some s := by
  rw [get_eq, h, List.getElem?_append_right (le_refl _), Nat.sub_self]
  rfl

/-- A record lies before the records behind it. -/
lemma Board.get_order {i j : ℕ} {x y : Seg} (h : Board M g q a b f) (hx : q.get i = some x)
    (hy : q.get j = some y) (hij : i < j) : (x.stop - a).toNat ≤ (y.start - a).toNat := by
  have haround := records_around hx
  have hlaid := haround ▸ h.laid
  obtain ⟨-, -, hstart, hstop, hrest⟩ := Laid.append.mp hlaid
  rw [hstop]
  refine hrest.start_ge ?_
  rw [get_eq] at hy
  have hdrop : (q.records.drop (i + 1))[j - (i + 1)]? = some y := by
    rw [List.getElem?_drop, ← hy]
    congr 1
    omega
  exact List.mem_of_getElem? hdrop

/-- The search returns a record that covers the number. -/
lemma covers_findLoop {x : U32} {fuel lo hi i : ℕ} (h : Board M g q a b f)
    (hfound : q.findLoop a (x - a) fuel lo hi = some i) :
    ∃ s, q.get i = some s ∧ s.covers x = true := by
  induction fuel generalizing lo hi with
  | zero => cases hfound
  | succ fuel ih =>
    rw [RtxQueue.findLoop] at hfound
    split at hfound
    · dsimp only at hfound
      split at hfound
      · cases hfound
      case h_2 s hs =>
        split at hfound
        · exact ih hfound
        · split at hfound
          · exact ih hfound
          · cases hfound
            refine ⟨s, hs, (Seg.covers_iff (h.laid.ends (mem_of_get hs)).1).mpr ?_⟩
            omega
    · cases hfound

/-- The search finds the record that covers the number. -/
lemma findLoop_of_covers {x : U32} {fuel lo hi i : ℕ} {s : Seg} (h : Board M g q a b f)
    (hs : q.get i = some s) (hx : s.covers x = true) (hlo : lo ≤ i) (hhi : i < hi)
    (hlen : hi ≤ q.len) (hfuel : hi - lo < fuel) :
    q.findLoop a (x - a) fuel lo hi = some i := by
  induction fuel generalizing lo hi with
  | zero => omega
  | succ fuel ih =>
    have hin := (Seg.covers_iff (h.laid.ends (mem_of_get hs)).1).mp hx
    rw [RtxQueue.findLoop, if_pos (by omega)]
    dsimp only
    generalize hmid : lo + (hi - lo) / 2 = mid
    have hlt : mid < q.records.length := by
      rw [RingQueue.length_toList]
      change mid < q.len
      omega
    have hget : q.get mid = some q.records[mid] := by rw [get_eq, List.getElem?_eq_getElem hlt]
    rw [hget]
    dsimp only
    rcases Nat.lt_trichotomy mid i with hbelow | rfl | habove
    · have horder := h.get_order hget hs hbelow
      rw [if_pos (by omega)]
      exact ih (by omega) hhi hlen (by omega)
    · cases hget.symm.trans hs
      rw [if_neg (by omega), if_neg (by omega)]
    · have horder := h.get_order hs hget habove
      have hends := h.laid.ends (mem_of_get hget)
      rw [if_neg (by omega), if_pos (by omega)]
      exact ih hlo (by omega) (by omega) (by omega)

/-- `find` gives the index of the record that covers a number. -/
lemma Board.find_iff {x : U32} {i : ℕ} (h : Board M g q a b f) :
    q.find x = some i ↔ ∃ s, q.get i = some s ∧ s.covers x = true := by
  unfold RtxQueue.find
  cases hfirst : q.get 0 with
  | none =>
    refine ⟨nofun, ?_⟩
    rintro ⟨s, hs, -⟩
    have hlt := lt_of_get hs
    rw [get_eq, List.getElem?_eq_none_iff, RingQueue.length_toList] at hfirst
    omega
  | some first =>
    have hstart : first.start = a := by
      have hchain := h.chain
      rw [records_cons hfirst] at hchain
      exact hchain.1
    dsimp only
    rw [hstart]
    refine ⟨covers_findLoop h, ?_⟩
    rintro ⟨s, hs, hx⟩
    exact findLoop_of_covers h hs hx (Nat.zero_le _) (lt_of_get hs) (le_refl _) (by omega)

/-! ## One round -/

/-- The records after a cut that has room. -/
lemma split_of_inside {pre t : List Seg} {s : Seg} {c : U32} (h : q.records = pre ++ s :: t)
    (hc : s.Inside c) (hroom : q.segs.len < CAP) :
    (q.split pre.length c).1 = true ∧
      (q.split pre.length c).2.records = pre ++ (splitSeg s c).1 :: (splitSeg s c).2 :: t ∧
      (q.split pre.length c).2.segs.len = q.segs.len + 1 := by
  have hs := get_of_records h
  have htake : q.records.take pre.length = pre := by rw [h, List.take_left]
  have hdrop : q.records.drop (pre.length + 1) = t := by
    rw [h, List.drop_append, List.drop_of_length_le (by omega)]
    simp
  have hsegs : ∀ q' : RtxQueue CAP, q'.segs = ((q.segs.openGap (pre.length + 1) hroom).set pre.length
      (splitSeg s c).1).set (pre.length + 1) (splitSeg s c).2 →
      q'.records = pre ++ (splitSeg s c).1 :: (splitSeg s c).2 :: t ∧
        q'.segs.len = q.segs.len + 1 := by
    intro q' hq'
    rw [records, hq', records_split hs hroom, htake, hdrop, List.append_assoc]
    exact ⟨rfl, rfl⟩
  unfold RtxQueue.split
  rw [hs]
  dsimp only
  rw [dif_pos ⟨hc, hroom⟩]
  refine ⟨rfl, hsegs _ ?_⟩
  dsimp only [setSackedBit, setSeg]
  split <;> rfl

lemma split_of_not {i : ℕ} {s : Seg} {c : U32} (hs : q.get i = some s)
    (h : ¬ (s.Inside c ∧ q.segs.len < CAP)) : q.split i c = (false, q) := by
  unfold RtxQueue.split
  rw [hs]
  exact dif_neg h

/-- The records after one of them gets new marks. -/
lemma records_setState {pre t : List Seg} {s : Seg} (h : q.records = pre ++ s :: t)
    (flags : SegFlags) (sent : U16) :
    (q.setState pre.length flags sent).records =
      pre ++ { s with flags := flags, sent := if flags.isPartial then sent else 0 } :: t ∧
    (q.setState pre.length flags sent).segs.len = q.segs.len := by
  have hs := get_of_records h
  have hi := lt_of_get hs
  have htake : q.records.take pre.length = pre := by rw [h, List.take_left]
  have hdrop : q.records.drop (pre.length + 1) = t := by
    rw [h, List.drop_append, List.drop_of_length_le (by omega)]
    simp
  have hsegs : ∀ (x : Seg) (q' : RtxQueue CAP), q'.segs = q.segs.set pre.length x →
      q'.records = pre ++ x :: t ∧ q'.segs.len = q.segs.len := by
    intro x q' hq'
    have hset := records_setSeg hi x
    rw [htake, hdrop, List.append_assoc] at hset
    rw [records, hq']
    exact ⟨hset, rfl⟩
  unfold RtxQueue.setState
  simp only [hs]
  apply hsegs
  generalize (if flags.isPartial = true then sent else 0) = kept
  split <;> rfl

/-- The records after a record is marked. -/
lemma records_markSacked {pre t : List Seg} {s : Seg} (h : q.records = pre ++ s :: t) :
    (q.setFlags pre.length { s.flags with
        sacked := true, lost := false, retrans := false, isPartial := false }).records =
      pre ++ s.markSacked :: t ∧
    (q.setFlags pre.length { s.flags with
        sacked := true, lost := false, retrans := false, isPartial := false }).segs.len =
      q.segs.len :=
  records_setState h _ _

/-- One round of the marking loop of `sack`: the next index and state, or nothing when the loop is
left. -/
def sackRound (l r : U32) (i : ℕ) (acc : Sacked CAP) : Option (ℕ × Sacked CAP) :=
  match acc.queue.get i with
  | none => none
  | some s =>
    if ¬ seqLt s.start r then
      none
    else if s.flags.sacked then
      (acc.queue.nextUnsacked (i + 1)).map fun j => (j, acc)
    else if seqLt r s.stop then
      if (acc.queue.split i r).1 then
        some (i, { acc with queue := (acc.queue.split i r).2 })
      else
        none
    else if seqLe l s.start then
      some (i + 1,
        { newly := satAdd acc.newly s.seqLen
          calls := acc.calls ++ [s]
          queue := acc.queue.setFlags i { s.flags with
            sacked := true, lost := false, retrans := false, isPartial := false } })
    else
      some (i + 1, acc)

lemma sackLoop_succ (fuel i : ℕ) (acc : Sacked CAP) :
    sackLoop l r (fuel + 1) i acc =
      match sackRound l r i acc with
      | none => acc
      | some next => sackLoop l r fuel next.1 next.2 := by
  rw [RtxQueue.sackLoop, sackRound]
  cases acc.queue.get i with
  | none => rfl
  | some s =>
    dsimp only
    split
    · rfl
    · split
      · cases acc.queue.nextUnsacked (i + 1) <;> rfl
      · split
        · split <;> rfl
        · split <;> rfl

/-- The marking loop is left after finitely many rounds. -/
inductive SackEnds (l r : U32) : ℕ → Sacked CAP → Prop
  | left {i : ℕ} {acc : Sacked CAP} : sackRound l r i acc = none → SackEnds l r i acc
  | round {i j : ℕ} {acc acc' : Sacked CAP} :
      sackRound l r i acc = some (j, acc') → SackEnds l r j acc' → SackEnds l r i acc

/-! ## The loop -/

/-- What the loop does with the records `t` from its index on: they are cut at `r` and marked, and
the calls are the records marked. -/
structure Marks (l r : U32) (pre t : List Seg) (acc out : Sacked CAP) : Prop where
  records : out.queue.records = pre ++ markAll l r t
  calls : out.calls = acc.calls ++ t.filter fun s => s.fresh l r
  newly : out.newly.toNat = acc.newly.toNat + span (t.filter fun s => s.fresh l r)

/-- Records from `r` on are neither cut nor marked. -/
lemma untouched_above {o : ℕ} {t : List Seg} (ht : Laid a o t) (hhalf : o + span t < 2 ^ 31)
    (hr : (r - a).toNat ≤ o) (room : Bool) :
    cutAll room r t = t ∧ ∀ s ∈ t, s.fresh l r = false := by
  refine ⟨cutAll_eq_self fun s hs _ _ hin => ?_, fun s hs => ?_⟩
  · have hge := ht.start_ge hs
    have hle := ht.stop_le hs
    have := (Seg.inside_iff (a := a) (by omega) (by omega) (ht.ends hs).1).mp hin
    omega
  · have hge := ht.start_ge hs
    have hle := ht.stop_le hs
    have hends := ht.ends hs
    rw [Bool.eq_false_iff]
    intro hfresh
    have hstop := (Seg.fresh_iff.mp hfresh).2.2
    rw [seqLe_offset (a := a) (by omega) (by omega)] at hstop
    omega

lemma filter_eq_nil {t : List Seg} (h : ∀ s ∈ t, s.fresh l r = false) :
    (t.filter fun s => s.fresh l r) = [] :=
  List.filter_eq_nil_iff.mpr fun s hs => by simp [h s hs]

/-- A loop that is left at once, in front of records it would not touch. -/
lemma Marks.of_untouched {pre t : List Seg} {acc : Sacked CAP} (h : acc.queue.records = pre ++ t)
    (hfresh : ∀ s ∈ t, s.fresh l r = false) : Marks l r pre t acc acc where
  records := by rw [h, markAll_eq_self hfresh]
  calls := by rw [filter_eq_nil hfresh, List.append_nil]
  newly := by rw [filter_eq_nil hfresh, span_nil, Nat.add_zero]

/-- Records that the loop passes over without a change. -/
lemma Marks.skip {pre run t : List Seg} {acc out : Sacked CAP}
    (hfresh : ∀ s ∈ run, s.fresh l r = false) (h : Marks l r (pre ++ run) t acc out) :
    Marks l r pre (run ++ t) acc out where
  records := by rw [h.records, markAll_append, markAll_eq_self hfresh, List.append_assoc]
  calls := by rw [h.calls, List.filter_append, filter_eq_nil hfresh, List.nil_append]
  newly := by rw [h.newly, List.filter_append, filter_eq_nil hfresh, List.nil_append]

/-- A record that the loop marks. -/
lemma Marks.mark {pre t : List Seg} {s : Seg} {acc acc' out : Sacked CAP} (hs : s.fresh l r = true)
    (hcalls : acc'.calls = acc.calls ++ [s])
    (hnewly : acc'.newly.toNat = acc.newly.toNat + s.seqLen.toNat)
    (h : Marks l r (pre ++ [s.markSacked]) t acc' out) : Marks l r pre (s :: t) acc out where
  records := by
    rw [h.records, markAll, markAll, List.map_cons, if_pos hs, List.append_assoc]
    rfl
  calls := by rw [h.calls, hcalls, List.filter_cons, if_pos hs, List.append_assoc]; rfl
  newly := by
    rw [h.newly, hnewly, List.filter_cons, if_pos hs, span_cons, Nat.add_assoc]

lemma not_fresh_of_sacked {s : Seg} (h : s.flags.sacked = true) : s.fresh l r = false := by
  simp [Seg.fresh, h]

/-- The records of a SACKed run behind `pre`. -/
lemma SackedRun.mem {pre t : List Seg} {j : ℕ} {x : Seg} (h : SackedRun q pre.length j)
    (hrec : q.records = pre ++ t) (hx : x ∈ t.take (j - pre.length)) : x.flags.sacked = true := by
  obtain ⟨k, hk, rfl⟩ := List.mem_take_iff_getElem.mp hx
  have hk' : k < t.length := by omega
  refine h (pre.length + k) _ (by omega) (by omega) ?_
  rw [get_eq, hrec, List.getElem?_append_right (by omega), Nat.add_sub_cancel_left,
    List.getElem?_eq_getElem hk']

lemma cutAll_append_sacked {run t : List Seg} (room : Bool) (h : ∀ x ∈ run, x.flags.sacked = true) :
    cutAll room r (run ++ t) = run ++ cutAll room r t := by
  rw [cutAll_append, cutAll_eq_self]
  intro x hx _ hfree
  simp [h x hx] at hfree

/-- The halves of a record cut at `r` are not cut again there. -/
lemma cutAll_halves {s : Seg} {t : List Seg} (room : Bool) (h : cutAll room r t = t) :
    cutAll room r ((splitSeg s r).1 :: (splitSeg s r).2 :: t) =
      (splitSeg s r).1 :: (splitSeg s r).2 :: t := by
  obtain ⟨⟨-, hstop, -⟩, hstart, -⟩ := splitSeg_shape s r
  have hself : ¬ seqLt r r := by
    rw [seqLt_iff, BitVec.sub_self]
    decide
  have hlower : ¬ (splitSeg s r).1.Inside r := by
    rw [Seg.Inside, hstop]
    exact fun hin => hself hin.2
  have hupper : ¬ (splitSeg s r).2.Inside r := by
    rw [Seg.Inside, hstart]
    exact fun hin => hself hin.1
  rw [cutAll_cons_of_not _ fun hc => hlower hc.2.2, cutAll_cons_of_not _ fun hc => hupper hc.2.2, h]

/-- Where the search behind a SACKed record leads: past a SACKed run, or past everything. -/
lemma nextUnsacked_behind {pre t : List Seg} {s : Seg} (hmap : q.MapOk)
    (hrec : q.records = pre ++ s :: t) (hs : s.flags.sacked = true) :
    (q.nextUnsacked (pre.length + 1) = none → ∀ x ∈ s :: t, x.flags.sacked = true) ∧
    ∀ j, q.nextUnsacked (pre.length + 1) = some j → ∃ run t', t = run ++ t' ∧
      j = (pre ++ s :: run).length ∧ ∀ x ∈ s :: run, x.flags.sacked = true := by
  have hrec' : q.records = (pre ++ [s]) ++ t := by
    rw [hrec, List.append_assoc, List.singleton_append]
  have hlen : pre.length + 1 = (pre ++ [s]).length := by simp
  have htotal : (pre ++ [s]).length + t.length = q.segs.len := by
    rw [← RingQueue.length_toList, ← List.length_append]
    exact congrArg List.length hrec'.symm
  rw [hlen]
  obtain ⟨hsome, hnone⟩ := nextUnsacked_spec hmap (pre ++ [s]).length
  have hcons : ∀ {l : List Seg}, (∀ x ∈ l, x.flags.sacked = true) →
      ∀ x ∈ s :: l, x.flags.sacked = true := by
    intro l hl x hx
    rcases List.mem_cons.mp hx with rfl | hx
    · exact hs
    · exact hl x hx
  constructor
  · intro hn
    refine hcons fun x hx => (hnone hn).mem hrec' ?_
    rw [List.take_of_length_le]
    · exact hx
    · change t.length ≤ q.segs.len - (pre ++ [s]).length
      omega
  · intro j hj
    obtain ⟨hle, hrun, x, hx, -⟩ := hsome j hj
    have hlt := lt_of_get hx
    refine ⟨t.take (j - (pre ++ [s]).length), t.drop (j - (pre ++ [s]).length),
      (List.take_append_drop _ t).symm, ?_, hcons fun x hx => hrun.mem hrec' hx⟩
    rw [List.length_append, List.length_cons, List.length_take]
    omega

/-- The whole loop. -/
lemma sackLoop_spec {fuel : ℕ} {acc : Sacked CAP} {pre t : List Seg}
    (h : Board M g acc.queue a b f) (hrec : acc.queue.records = pre ++ t)
    (hr : (r - a).toNat ≤ span acc.queue.records) (hnew : acc.newly.toNat + span t < 2 ^ 32)
    (hfuel : (CAP - pre.length) + (CAP - acc.queue.segs.len) < fuel) :
    SackEnds l r pre.length acc ∧
      Marks l r pre (cutAll (decide (acc.queue.segs.len < CAP)) r t) acc
        (sackLoop l r fuel pre.length acc) := by
  -- Every round moves up a record or adds one, and neither can go on beyond the capacity.
  induction fuel generalizing acc pre t with
  | zero => omega
  | succ fuel ih =>
    have hlen := acc.queue.segs.len_le
    have hprelen : pre.length + t.length = acc.queue.segs.len := by
      rw [← RingQueue.length_toList, ← List.length_append]
      exact congrArg List.length hrec.symm
    have hhalf := h.half
    have hlaid : Laid a (span pre) t := by
      have hall := h.laid
      rw [hrec, Laid.append, Nat.zero_add] at hall
      exact hall.2
    have hspan := congrArg span hrec
    rw [span_append] at hspan
    rw [sackLoop_succ]
    cases t with
    | nil =>
      have hround : sackRound l r pre.length acc = none := by
        have hget : acc.queue.get pre.length = none := by
          rw [get_eq, hrec, List.append_nil, List.getElem?_eq_none (le_refl _)]
        rw [sackRound, hget]
      rw [hround]
      exact ⟨.left hround, .of_untouched hrec nofun⟩
    | cons s t =>
      have hget := get_of_records hrec
      have hall := hlaid
      obtain ⟨hpos, hstart, hstop, hrest⟩ := hlaid
      rw [span_cons] at hspan hnew
      rw [List.length_cons] at hprelen
      have hbelow_iff : seqLt s.start r ↔ (s.start - a).toNat < (r - a).toNat :=
        seqLt_offset (by omega) (by omega)
      have hstraddle_iff : seqLt r s.stop ↔ (r - a).toNat < (s.stop - a).toNat :=
        seqLt_offset (by omega) (by omega)
      by_cases hbelow : seqLt s.start r
      swap
      · -- The record, and so every later one, begins at or above `r`.
        have hround : sackRound l r pre.length acc = none := by
          rw [sackRound, hget]
          exact if_pos hbelow
        rw [hbelow_iff] at hbelow
        obtain ⟨hcut, hfresh⟩ := untouched_above (l := l) (r := r) hall
          (by rw [span_cons]; omega) (by omega) (decide (acc.queue.segs.len < CAP))
        rw [hround, hcut]
        exact ⟨.left hround, .of_untouched hrec hfresh⟩
      by_cases hsacked : s.flags.sacked = true
      · have hround : sackRound l r pre.length acc =
            (acc.queue.nextUnsacked (pre.length + 1)).map fun j => (j, acc) := by
          rw [sackRound, hget]
          dsimp only
          rw [if_neg (not_not.mpr hbelow), if_pos hsacked]
        obtain ⟨hnone, hsome⟩ := nextUnsacked_behind h.map hrec hsacked
        cases hnext : acc.queue.nextUnsacked (pre.length + 1) with
        | none =>
          have hrun := hnone hnext
          have hcut := cutAll_append_sacked (r := r) (t := [])
            (decide (acc.queue.segs.len < CAP)) hrun
          rw [List.append_nil, cutAll_nil, List.append_nil] at hcut
          rw [hnext, Option.map_none] at hround
          rw [hround, hcut]
          exact ⟨.left hround, .of_untouched hrec fun x hx => not_fresh_of_sacked (hrun x hx)⟩
        | some j =>
          obtain ⟨run, t', rfl, rfl, hrun⟩ := hsome j hnext
          rw [hnext, Option.map_some] at hround
          have hlength : (pre ++ s :: run).length = pre.length + run.length + 1 := by
            rw [List.length_append, List.length_cons, Nat.add_assoc]
          rw [List.length_append] at hprelen
          rw [span_append] at hspan hnew
          have hrec' : acc.queue.records = (pre ++ s :: run) ++ t' := by
            rw [hrec, List.append_assoc, List.cons_append]
          obtain ⟨hends, hmarks⟩ := ih h hrec' hr (by omega) (by omega)
          rw [hround, ← List.cons_append, cutAll_append_sacked _ hrun]
          exact ⟨.round hround hends, hmarks.skip fun x hx => not_fresh_of_sacked (hrun x hx)⟩
      have hfree : s.flags.sacked = false := by simpa using hsacked
      by_cases hstraddle : seqLt r s.stop
      · -- The block ends inside the record; every later record begins above `r`.
        have hin : s.Inside r := ⟨hbelow, hstraddle⟩
        have habove := untouched_above (l := l) (r := r) hrest (by omega)
          (by rw [hstraddle_iff] at hstraddle; omega)
        by_cases hroom : acc.queue.segs.len < CAP
        · have hroom' : decide (acc.queue.segs.len < CAP) = true := decide_eq_true hroom
          obtain ⟨hsplit, hrecords, hlength⟩ := split_of_inside hrec hin hroom
          have hround : sackRound l r pre.length acc =
              some (pre.length, { acc with queue := (acc.queue.split pre.length r).2 }) := by
            rw [sackRound, hget]
            dsimp only
            rw [if_neg (not_not.mpr hbelow), if_neg hsacked, if_pos hstraddle, if_pos hsplit]
          have hboard : Board M g (acc.queue.split pre.length r).2 a b f := h.split
          have hspan' : span (acc.queue.split pre.length r).2.records = span acc.queue.records := by
            rw [← hboard.span_eq, h.span_eq]
          have htail : span ((splitSeg s r).1 :: (splitSeg s r).2 :: t) = s.seqLen.toNat + span t := by
            rw [hrecords, hspan, span_append] at hspan'
            omega
          have hmore : CAP - pre.length + (CAP - (acc.queue.split pre.length r).2.segs.len) < fuel := by
            omega
          obtain ⟨hends, hmarks⟩ := @ih ⟨acc.newly, acc.calls, (acc.queue.split pre.length r).2⟩ pre _
            hboard hrecords (by rw [hspan']; exact hr) (by rw [htail]; exact hnew) hmore
          rw [hround, hroom', cutAll_cons_of_cut t hfree hin, (habove true).1]
          rw [cutAll_halves _ (habove _).1] at hmarks
          exact ⟨.round hround hends, hmarks.records, hmarks.calls, hmarks.newly⟩
        · have hround : sackRound l r pre.length acc = none := by
            rw [sackRound, hget]
            dsimp only
            rw [if_neg (not_not.mpr hbelow), if_neg hsacked, if_pos hstraddle,
              split_of_not hget fun hc => hroom hc.2]
            rfl
          have hfresh : ∀ x ∈ s :: t, x.fresh l r = false := by
            intro x hx
            rcases List.mem_cons.mp hx with rfl | hx
            · rw [Bool.eq_false_iff]
              intro hx
              have hstop' := (Seg.fresh_iff.mp hx).2.2
              rw [seqLe_offset (a := a) (by omega) (by omega)] at hstop'
              rw [hstraddle_iff] at hstraddle
              omega
            · exact (habove true).2 x hx
          have hcut : cutAll (decide (acc.queue.segs.len < CAP)) r (s :: t) = s :: t :=
            cutAll_eq_self fun _ _ hr => absurd (of_decide_eq_true hr) hroom
          rw [hround, hcut]
          exact ⟨.left hround, .of_untouched hrec hfresh⟩
      · have hout : ¬ (decide (acc.queue.segs.len < CAP) = true ∧ s.flags.sacked = false ∧ s.Inside r) :=
          fun hc => hstraddle hc.2.2.2
        rw [cutAll_cons_of_not t hout]
        by_cases hl : seqLe l s.start
        · obtain ⟨hrecords, hlength⟩ := records_markSacked hrec
          have hround : sackRound l r pre.length acc = some (pre.length + 1,
              { newly := satAdd acc.newly s.seqLen
                calls := acc.calls ++ [s]
                queue := acc.queue.setFlags pre.length { s.flags with
                  sacked := true, lost := false, retrans := false, isPartial := false } }) := by
            rw [sackRound, hget]
            dsimp only
            rw [if_neg (not_not.mpr hbelow), if_neg hsacked, if_neg hstraddle, if_pos hl]
          have hboard := h.markSacked hget
          generalize acc.queue.setFlags pre.length { s.flags with
            sacked := true, lost := false, retrans := false, isPartial := false } = q' at *
          have hrec' : q'.records = (pre ++ [s.markSacked]) ++ t := by
            rw [hrecords, List.append_assoc, List.singleton_append]
          have hnewly : (satAdd acc.newly s.seqLen).toNat = acc.newly.toNat + s.seqLen.toNat := by
            rw [toNat_satAdd]
            omega
          have hlen' : (pre ++ [s.markSacked]).length = pre.length + 1 := by simp
          have hmore : CAP - (pre ++ [s.markSacked]).length + (CAP - q'.segs.len) < fuel := by
            omega
          obtain ⟨hends, hmarks⟩ := @ih ⟨satAdd acc.newly s.seqLen, acc.calls ++ [s], q'⟩
            (pre ++ [s.markSacked]) t hboard hrec'
            (by rw [← hboard.span_eq, h.span_eq]; exact hr) (by rw [hnewly]; omega) hmore
          rw [hlen'] at hends hmarks
          rw [hround]
          have hfresh : s.fresh l r = true := by
            refine Seg.fresh_iff.mpr ⟨hfree, hl, ?_⟩
            rw [seqLe_offset (a := a) (by omega) (by omega)]
            rw [hstraddle_iff] at hstraddle
            omega
          rw [show q'.segs.len = acc.queue.segs.len from hlength] at hmarks
          exact ⟨.round hround hends, hmarks.mark hfresh rfl hnewly⟩
        · have hround : sackRound l r pre.length acc = some (pre.length + 1, acc) := by
            rw [sackRound, hget]
            dsimp only
            rw [if_neg (not_not.mpr hbelow), if_neg hsacked, if_neg hstraddle, if_neg hl]
          have hrec' : acc.queue.records = (pre ++ [s]) ++ t := by
            rw [hrec, List.append_assoc, List.singleton_append]
          have hlen' : (pre ++ [s]).length = pre.length + 1 := by simp
          obtain ⟨hends, hmarks⟩ := ih h hrec' hr (by omega) (by omega)
          rw [hlen'] at hends hmarks
          rw [hround]
          refine ⟨.round hround hends, hmarks.skip fun x hx => ?_⟩
          rw [List.mem_singleton.mp hx, Bool.eq_false_iff]
          exact fun hfresh => hl (Seg.fresh_iff.mp hfresh).2.1

/-! ## The edges of the block -/

/-- The left edge: the records are cut there if there is room, and the walk begins behind what ends
at or below it. -/
lemma splitLeftEdge_spec {i : ℕ} {s : Seg} (h : Board M g q a b f) (hs : q.get i = some s)
    (hx : s.covers l = true) :
    ∃ pre t, (q.splitLeftEdge i l).2.records = pre ++ t ∧ (q.splitLeftEdge i l).1 = pre.length ∧
      pre ++ t = cutAll (decide (q.segs.len < CAP)) l q.records ∧
      (q.splitLeftEdge i l).2.segs.len ≤ q.segs.len + 1 ∧
      ∀ x ∈ pre, (x.stop - a).toNat ≤ (l - a).toNat := by
  have hhalf := h.half
  have hlaid := h.laid
  have hi := lt_of_get hs
  have haround := records_around hs
  have hlen : (q.records.take i).length = i := by
    rw [List.length_take, RingQueue.length_toList]
    omega
  have hends := hlaid.ends (mem_of_get hs)
  have hstop_le := hlaid.stop_le (mem_of_get hs)
  have hcov := (Seg.covers_iff hends.1).mp hx
  generalize q.records.take i = pre at haround hlen
  generalize q.records.drop (i + 1) = t at haround
  subst hlen
  rw [haround] at hlaid
  obtain ⟨hpre, -, hstart, hstop, hrest⟩ := Laid.append.mp hlaid
  rw [Nat.zero_add] at hstart hstop hrest
  have hspan := congrArg span haround
  rw [span_append, span_cons] at hspan
  have hbelow : ∀ x ∈ pre, (x.stop - a).toNat ≤ (l - a).toNat := by
    intro x hx
    have := hpre.stop_le hx
    omega
  -- No other record has the edge inside.
  have hcutpre : ∀ room, cutAll room l pre = pre := by
    intro room
    refine cutAll_eq_self fun x hx _ _ hin => ?_
    have hle := hbelow x hx
    have hin' := (Seg.inside_iff (a := a) (by omega) (by omega) (hpre.ends hx).1).mp hin
    omega
  have hcuttail : ∀ room, cutAll room l t = t := fun room =>
    (untouched_above (l := l) (r := l) hrest (by omega) (by omega) room).1
  have hinside : s.Inside l ↔ seqLt s.start l := by
    refine ⟨fun hin => hin.1, fun hlt => ⟨hlt, ?_⟩⟩
    rw [seqLt_offset (a := a) (by omega) (by omega)]
    exact hcov.2
  have hget := get_of_records haround
  have hkept : ¬ (decide (q.segs.len < CAP) = true ∧ s.flags.sacked = false ∧ s.Inside l) →
      q.splitLeftEdge pre.length l = (pre.length, q) →
      ∃ pre' t', (q.splitLeftEdge pre.length l).2.records = pre' ++ t' ∧
        (q.splitLeftEdge pre.length l).1 = pre'.length ∧
        pre' ++ t' = cutAll (decide (q.segs.len < CAP)) l q.records ∧
        (q.splitLeftEdge pre.length l).2.segs.len ≤ q.segs.len + 1 ∧
        ∀ x ∈ pre', (x.stop - a).toNat ≤ (l - a).toNat := by
    intro hno heq
    rw [heq]
    refine ⟨pre, s :: t, haround, rfl, ?_, Nat.le_succ _, hbelow⟩
    rw [haround, cutAll_append, hcutpre, cutAll_cons_of_not t hno, hcuttail]
  by_cases hcut : seqLt s.start l ∧ ¬ s.flags.sacked = true
  · have hfree : s.flags.sacked = false := by simpa using hcut.2
    by_cases hroom : q.segs.len < CAP
    · obtain ⟨hsplit, hrecords, hlength⟩ := split_of_inside haround (hinside.mpr hcut.1) hroom
      have heq : q.splitLeftEdge pre.length l = (pre.length + 1, (q.split pre.length l).2) := by
        unfold RtxQueue.splitLeftEdge
        simp only [hget]
        rw [if_pos hcut, if_pos hsplit]
      rw [heq]
      refine ⟨pre ++ [(splitSeg s l).1], (splitSeg s l).2 :: t, ?_, by simp, ?_, hlength.le, ?_⟩
      · rw [hrecords, List.append_assoc, List.singleton_append]
      · rw [decide_eq_true hroom, haround, cutAll_append, hcutpre,
          cutAll_cons_of_cut t hfree (hinside.mpr hcut.1), hcuttail, List.append_assoc,
          List.singleton_append]
      · intro x hx
        rcases List.mem_append.mp hx with hx | hx
        · exact hbelow x hx
        · rw [List.mem_singleton.mp hx, (splitSeg_shape s l).1.2.1]
    · refine hkept (fun hc => hroom (of_decide_eq_true hc.1)) ?_
      unfold RtxQueue.splitLeftEdge
      simp only [hget]
      rw [if_pos hcut, split_of_not hget fun hc => hroom hc.2]
      rfl
  · refine hkept (fun hc => hcut ⟨hc.2.2.1, by simp [hc.2.1]⟩) ?_
    unfold RtxQueue.splitLeftEdge
    simp only [hget]
    rw [if_neg hcut]

/-- Where the marking loop of `sack` begins: the clipped edges, the first index and the queue cut at
the left edge.  Nothing if `sack` returns before the loop. -/
def sackStart (q : RtxQueue CAP) (left right : U32) : Option (U32 × U32 × ℕ × RtxQueue CAP) :=
  match q.get 0, q.last with
  | some first, some final =>
    let l := if seqLt left first.start then first.start else left
    let r := if seqLt final.stop right then final.stop else right
    if seqLt left right ∧ seqLt l r then
      (q.find l).map fun i => (l, r, (q.splitLeftEdge i l).1, (q.splitLeftEdge i l).2)
    else
      none
  | _, _ => none

lemma sack_eq (q : RtxQueue CAP) (left right : U32) :
    q.sack left right =
      match q.sackStart left right with
      | none => ⟨0, [], q⟩
      | some (l, r, i, q') => sackLoop l r (2 * CAP + 1) i ⟨0, [], q'⟩ := by
  unfold RtxQueue.sack sackStart
  cases q.get 0 with
  | none => rfl
  | some first =>
    cases q.last with
    | none => rfl
    | some final =>
      dsimp only
      generalize (if seqLt left first.start then first.start else left) = l
      generalize (if seqLt final.stop right then final.stop else right) = r
      split
      · cases q.find l <;> rfl
      · rfl

/-- `x` is in the block `[left, right)`. -/
def InBlock (left right x : U32) : Prop := (x - left).toNat < (right - left).toNat

/-- How the clipped edges `l` and `r` of a block lie against `[a, b)`: they bound what the block has
in common with it. -/
def Clips (a b left right l r : U32) : Prop :=
  (l - a).toNat ≤ (r - a).toNat ∧ (r - a).toNat ≤ (b - a).toNat ∧
    ∀ x, (x - a).toNat < (b - a).toNat →
      (InBlock left right x ↔ (l - a).toNat ≤ (x - a).toNat ∧ (x - a).toNat < (r - a).toNat)

/-- The block has nothing in common with `[a, b)`. -/
def Misses (a b left right : U32) : Prop :=
  ∀ x, (x - a).toNat < (b - a).toNat → ¬ InBlock left right x

/-- A block that begins in `[a, b)`. -/
lemma clips_from {left right : U32} (hspan : (b - a).toNat < 2 ^ 31)
    (hwidth : (right - left).toNat < 2 ^ 31) (hin : (left - a).toNat < (b - a).toNat) :
    Clips a b left right left (if seqLt b right then b else right) := by
  have hlr := toNat_sub_cases a left right
  have hrb := toNat_sub_cases a right b
  unfold Clips InBlock
  split
  case isTrue h =>
    rw [seqLt_iff] at h
    refine ⟨hin.le, le_refl _, fun x hxn => ?_⟩
    have hlx := toNat_sub_cases a left x
    omega
  case isFalse h =>
    rw [seqLt_iff] at h
    refine ⟨by omega, by omega, fun x hxn => ?_⟩
    have hlx := toNat_sub_cases a left x
    omega

/-- A block that begins at or above `b`. -/
lemma misses_from {left right : U32} (hwidth : (right - left).toNat < 2 ^ 31)
    (hleft : ¬ seqLt left a) (hin : ¬ (left - a).toNat < (b - a).toNat) : Misses a b left right := by
  intro x hx
  have hlx := toNat_sub_cases a left x
  rw [seqLt_iff] at hleft
  unfold InBlock
  omega

/-- A block that begins below `a`. -/
lemma clips_below {left right : U32} (hspan : (b - a).toNat < 2 ^ 31) (hleft : seqLt left a)
    (hnear : (right - left).toNat ≤ (a - left).toNat → (b - right).toNat < 2 ^ 31)
    (hpos : seqLt a (if seqLt b right then b else right)) :
    Clips a b left right a (if seqLt b right then b else right) := by
  have hzero : (a - a).toNat = 0 := by rw [BitVec.sub_self]; rfl
  have hla := toNat_sub_cases a left a
  have hlr := toNat_sub_cases a left right
  have hrb := toNat_sub_cases a right b
  have hra := toNat_sub_cases a right a
  rw [seqLt_iff] at hleft
  unfold Clips InBlock
  split at hpos
  case isTrue h =>
    rw [if_pos h]
    rw [seqLt_iff] at h
    refine ⟨by omega, le_refl _, fun x hxn => ?_⟩
    have hlx := toNat_sub_cases a left x
    omega
  case isFalse h =>
    rw [if_neg h]
    rw [seqLt_iff] at h hpos
    refine ⟨by omega, by omega, fun x hxn => ?_⟩
    have hlx := toNat_sub_cases a left x
    omega

/-- A block that begins and ends below `a`. -/
lemma misses_below {left right : U32} (hspan : (b - a).toNat < 2 ^ 31)
    (hwidth : (right - left).toNat < 2 ^ 31) (hleft : seqLt left a)
    (h : ¬ seqLt a (if seqLt b right then b else right)) :
    Misses a b left right := by
  intro x hx
  have hlx := toNat_sub_cases a left x
  have hlr := toNat_sub_cases a left right
  have hrb := toNat_sub_cases a right b
  have hra := toNat_sub_cases a right a
  have hba := toNat_sub_cases a b a
  have hzero : (a - a).toNat = 0 := by rw [BitVec.sub_self]; rfl
  rw [seqLt_iff] at hleft
  unfold InBlock
  split at h
  case isTrue h' =>
    rw [seqLt_iff] at h h'
    omega
  case isFalse h' =>
    rw [seqLt_iff] at h h'
    omega

/-- The queue is empty, or it has a first and a last record at its ends. -/
lemma Board.ends (h : Board M g q a b f) :
    q.get 0 = none ∧ q.records = [] ∨
      ∃ first final, q.get 0 = some first ∧ q.last = some final ∧ first.start = a ∧
        final.stop = b ∧ first ∈ q.records ∧ 0 < (b - a).toNat := by
  cases hfirst : q.get 0 with
  | none =>
    left
    rw [get_eq, List.getElem?_eq_none_iff] at hfirst
    exact ⟨rfl, List.eq_nil_of_length_eq_zero (by omega)⟩
  | some first =>
    right
    have hmem := mem_of_get hfirst
    have hstart : first.start = a := by
      have hchain := h.chain
      rw [records_cons hfirst] at hchain
      exact hchain.1
    cases hlast : q.last with
    | none =>
      rw [records_of_last_eq_none hlast] at hmem
      cases hmem
    | some final =>
      refine ⟨first, final, rfl, rfl, hstart, (h.last_stop hlast).2, hmem, ?_⟩
      have hpos := (h.sound first hmem).pos
      have hle := h.record_le hmem
      omega

/-- A number between the ends of the queue is found, and no other one is. -/
lemma Board.find_eq_none {x : U32} (h : Board M g q a b f) :
    q.find x = none ↔ ¬ (x - a).toNat < (b - a).toNat := by
  rw [h.span_eq, ← not_iff_not, not_not, ← ne_eq, Option.ne_none_iff_exists']
  constructor
  · rintro ⟨i, hi⟩
    obtain ⟨s, hs, hx⟩ := h.find_iff.mp hi
    have hmem := mem_of_get hs
    have hstop := h.laid.stop_le hmem
    have hcov := (Seg.covers_iff (h.laid.ends hmem).1).mp hx
    omega
  · intro hx
    obtain ⟨s, hs, hcov⟩ := h.laid.exists_covers (Nat.zero_le _) (by rwa [Nat.zero_add])
    obtain ⟨i, hi⟩ := List.getElem?_of_mem hs
    exact ⟨i, h.find_iff.mpr ⟨s, by rw [get_eq]; exact hi, hcov⟩⟩

/-- What is to be known of the clipped edges. -/
lemma sackStart_of_edges {left right l r : U32} (h : Board M g q a b f)
    (heq : q.sackStart left right =
      if seqLt left right ∧ seqLt l r then
        (q.find l).map fun i => (l, r, (q.splitLeftEdge i l).1, (q.splitLeftEdge i l).2)
      else none)
    (hl : l = left ∨ l = a) (hr : r = right ∨ r = b)
    (hclips : (l - a).toNat < (b - a).toNat → seqLt l r → Clips a b left right l r)
    (hmisses : ¬ (seqLt left right ∧ seqLt l r ∧ (l - a).toNat < (b - a).toNat) →
      Misses a b left right) :
    (q.sackStart left right = none → Misses a b left right) ∧
    ∀ l r i q', q.sackStart left right = some (l, r, i, q') →
      Clips a b left right l r ∧ (l - a).toNat < (r - a).toNat ∧ (l = left ∨ l = a) ∧
        (r = right ∨ r = b) ∧
        ∃ k s, q.get k = some s ∧ s.covers l = true ∧ q.splitLeftEdge k l = (i, q') := by
  have hspan := h.half
  rw [← h.span_eq] at hspan
  rw [heq]
  by_cases hc : seqLt left right ∧ seqLt l r
  · rw [if_pos hc]
    cases hfind : q.find l with
    | none =>
      refine ⟨fun _ => hmisses fun hall => ?_, nofun⟩
      exact h.find_eq_none.mp hfind hall.2.2
    | some k =>
      obtain ⟨s, hs, hx⟩ := h.find_iff.mp hfind
      have hin : (l - a).toNat < (b - a).toNat := by
        by_contra hout
        rw [h.find_eq_none.mpr hout] at hfind
        cases hfind
      have hclip := hclips hin hc.2
      refine ⟨nofun, ?_⟩
      rintro l' r' i q' hsome
      cases hsome
      have hlt := hc.2
      have hle := hclip.2.1
      rw [seqLt_offset (a := a) (by omega) (by omega)] at hlt
      exact ⟨hclip, hlt, hl, hr, k, s, hs, hx, rfl⟩
  · rw [if_neg hc]
    exact ⟨fun _ => hmisses fun hall => hc ⟨hall.1, hall.2.1⟩, nofun⟩

/-- Where `sack` begins to walk, and with which edges. -/
lemma sackStart_spec {left right : U32} (h : Board M g q a b f)
    (hwidth : (right - left).toNat < 2 ^ 31)
    (hnear : seqLt left a → (right - left).toNat ≤ (a - left).toNat → (b - right).toNat < 2 ^ 31) :
    (q.sackStart left right = none → Misses a b left right) ∧
    ∀ l r i q', q.sackStart left right = some (l, r, i, q') →
      Clips a b left right l r ∧ (l - a).toNat < (r - a).toNat ∧ (l = left ∨ l = a) ∧
        (r = right ∨ r = b) ∧
        ∃ k s, q.get k = some s ∧ s.covers l = true ∧ q.splitLeftEdge k l = (i, q') := by
  have hspan := h.half
  rw [← h.span_eq] at hspan
  -- An empty block has nothing in common with anything.
  have hempty : ¬ seqLt left right → Misses a b left right := by
    intro hle x _
    have hback := toNat_sub_cases left right left
    have hzero : (left - left).toNat = 0 := by rw [BitVec.sub_self]; rfl
    rw [seqLt_iff] at hle
    unfold InBlock
    omega
  have hright : (if seqLt b right then b else right) = right ∨
      (if seqLt b right then b else right) = b := by
    split
    · exact .inr rfl
    · exact .inl rfl
  rcases h.ends with ⟨hnone, hnil⟩ | ⟨first, final, hfirst, hlast, hstart, hstop, hmem, hpos⟩
  · have hstartNone : q.sackStart left right = none := by
      unfold sackStart
      rw [hnone]
    have hno : (b - a).toNat = 0 := by
      rw [h.span_eq, hnil]
      rfl
    rw [hstartNone]
    exact ⟨fun _ x hx => by omega, nofun⟩
  by_cases hleft : seqLt left a
  · refine sackStart_of_edges (l := a) (r := if seqLt b right then b else right) h ?_ (.inr rfl) hright
      (fun _ hlt => clips_below hspan hleft (hnear hleft) hlt) fun hno => ?_
    · unfold sackStart
      simp only [hfirst, hlast, hstart, hstop, if_pos hleft]
    · by_cases hlr : seqLt left right
      · refine misses_below hspan hwidth hleft fun hlt => hno ⟨hlr, hlt, ?_⟩
        rw [BitVec.sub_self]
        exact hpos
      · exact hempty hlr
  · refine sackStart_of_edges (l := left) (r := if seqLt b right then b else right) h ?_ (.inl rfl)
      hright (fun hin _ => clips_from hspan hwidth hin) fun hno => ?_
    · unfold sackStart
      simp only [hfirst, hlast, hstart, hstop, if_neg hleft]
    · by_cases hlr : seqLt left right
      · by_cases hin : (left - a).toNat < (b - a).toNat
        · -- The clipped block is empty.
          have hclip := clips_from hspan hwidth hin
          intro x hx hblock
          have hx' := (hclip.2.2 x hx).mp hblock
          have hle := hclip.2.1
          refine hno ⟨hlr, ?_, hin⟩
          rw [seqLt_offset (a := a) (by omega) (by omega)]
          omega
        · exact misses_from hwidth hleft hin
      · exact hempty hlr

/-! ## The whole call -/

/-- `sack` cuts the records at the edges of the block, where there is room, and marks what lies
between; the loop it does that in is left after finitely many rounds. -/
lemma sack_marks {left right : U32} (h : Board M g q a b f) (hwidth : (right - left).toNat < 2 ^ 31)
    (hnear : seqLt left a → (right - left).toNat ≤ (a - left).toNat → (b - right).toNat < 2 ^ 31) :
    (∀ l r i q', q.sackStart left right = some (l, r, i, q') → SackEnds l r i ⟨0, [], q'⟩) ∧
    ∃ l r room₀ room₁, Clips a b left right l r ∧ (l = left ∨ l = a) ∧
      (r = right ∨ r = b ∨ r = a) ∧ (q.segs.len + 2 ≤ CAP → room₀ = true ∧ room₁ = true) ∧
      Marks l r [] (cutBoth room₀ room₁ l r q.records) ⟨0, [], q⟩ (q.sack left right) := by
  have hhalf := h.half
  have hspan := h.span_eq
  obtain ⟨hnone, hsome⟩ := sackStart_spec h hwidth hnear
  cases hstart : q.sackStart left right with
  | none =>
    refine ⟨nofun, a, a, true, true, ⟨le_refl _, ?_, fun x hx => ?_⟩, .inr rfl, .inr (.inr rfl),
      fun _ => ⟨rfl, rfl⟩, ?_⟩
    · rw [BitVec.sub_self]
      exact Nat.zero_le _
    · exact iff_of_false (hnone hstart x hx) (by omega)
    · -- Nothing has the start of the queue inside, and nothing lies below it.
      have hzero : (a - a).toNat = 0 := by rw [BitVec.sub_self]; rfl
      obtain ⟨hcut, hfresh⟩ := untouched_above (l := a) (r := a) h.laid (by omega) hzero.le true
      rw [sack_eq, hstart, cutBoth, hcut, hcut]
      exact .of_untouched rfl hfresh
  | some start =>
    obtain ⟨l, r, i, q'⟩ := start
    obtain ⟨hclips, hlr, hl, hr, k, s, hs, hx, hedge⟩ := hsome l r i q' hstart
    obtain ⟨pre, t, hrecords, hi, hcut, hlen, hpre⟩ := splitLeftEdge_spec h hs hx
    have hboard := h.splitLeftEdge k l
    rw [hedge] at hrecords hi hlen hboard
    dsimp only at hrecords hi hlen hboard
    subst hi
    have hspan' : span q'.records = span q.records := by rw [← hboard.span_eq, hspan]
    have hrspan : (r - a).toNat ≤ span q'.records := by
      rw [hspan', ← hspan]
      exact hclips.2.1
    have htail := congrArg span hrecords
    rw [span_append] at htail
    have hfuel : CAP - pre.length + (CAP - q'.segs.len) < 2 * CAP + 1 := by omega
    obtain ⟨hends, hmarks⟩ := @sackLoop_spec CAP M g _ a b l r f (2 * CAP + 1) ⟨0, [], q'⟩ pre t
      hboard hrecords hrspan (by change 0 + span t < 2 ^ 32; omega) hfuel
    have hlaid := hboard.laid
    rw [hrecords] at hlaid
    obtain ⟨hlaidpre, -⟩ := Laid.append.mp hlaid
    -- What ends at or below the left edge is neither cut at the right one nor marked.
    have hcutpre : ∀ room, cutAll room r pre = pre := by
      intro room
      refine cutAll_eq_self fun x hx _ _ hin => ?_
      have hle := hpre x hx
      have hin' := (Seg.inside_iff (a := a) (by omega) (by omega) (hlaidpre.ends hx).1).mp hin
      omega
    have hfreshpre : ∀ x ∈ pre, x.fresh l r = false := by
      intro x hx
      have hle := hpre x hx
      have hends := hlaidpre.ends hx
      rw [Bool.eq_false_iff]
      intro hfresh
      have hstart := (Seg.fresh_iff.mp hfresh).2.1
      rw [seqLe_offset (a := a) (by omega) (by omega)] at hstart
      omega
    refine ⟨?_, l, r, decide (q.segs.len < CAP), decide (q'.segs.len < CAP), hclips, hl,
      hr.imp_right .inl, ?_, ?_⟩
    · rintro l' r' i' q'' heq
      cases heq
      exact hends
    · intro hroom
      exact ⟨decide_eq_true (by omega), decide_eq_true (by omega)⟩
    · rw [sack_eq, hstart, cutBoth, ← hcut, cutAll_append, hcutpre]
      exact Marks.skip hfreshpre ⟨hmarks.records, hmarks.calls, hmarks.newly⟩

/-- A record all of whose numbers are in the block lies between the clipped edges. -/
lemma Clips.between {left right : U32} {s : Seg} (h : Clips a b left right l r)
    (hends : (s.stop - a).toNat = (s.start - a).toNat + s.seqLen.toNat) (hpos : 0 < s.seqLen.toNat)
    (hstop : (s.stop - a).toNat ≤ (b - a).toNat)
    (hin : ∀ x, s.covers x = true → InBlock left right x) :
    (l - a).toNat ≤ (s.start - a).toNat ∧ (s.stop - a).toNat ≤ (r - a).toNat := by
  have hlast : (s.stop - 1 - a).toNat = (s.stop - a).toNat - 1 := by
    have hswap : s.stop - 1 - a = (s.stop - a) - 1 := by bv_omega
    rw [hswap]
    generalize s.stop - a = y at *
    bv_omega
  have hfirst := hin s.start ((Seg.covers_iff hends).mpr (by omega))
  have hfinal := hin (s.stop - 1) ((Seg.covers_iff hends).mpr (by omega))
  rw [h.2.2 s.start (by omega)] at hfirst
  rw [h.2.2 (s.stop - 1) (by omega)] at hfinal
  omega

/-! ## Exactness -/

/-- The block does not lie so far below the queue that its right edge is half the sequence space or more
behind the queue's end. -/
def NearBlock (q : RtxQueue CAP) (left right : U32) : Prop :=
  ∀ first final, q.get 0 = some first → q.last = some final → seqLt left first.start →
    (right - left).toNat ≤ (first.start - left).toNat → (final.stop - right).toNat < 2 ^ 31

/-- `sack` terminates, marks nothing outside the block, every record inside it, and with two free records
all of the block; it counts the bytes and calls back for the records it marks, and changes nothing
else. -/
structure SackExact (q : RtxQueue CAP) (left right : U32) : Prop where
  ends : ∀ l r i q', q.sackStart left right = some (l, r, i, q') → SackEnds l r i ⟨0, [], q'⟩
  outside : ∀ x, sackedAt (q.sack left right).queue.records x = true →
    sackedAt q.records x = true ∨ InBlock left right x
  inside : ∀ s ∈ q.records, s.flags.sacked = false → (∀ x, s.covers x = true → InBlock left right x) →
    s.markSacked ∈ (q.sack left right).queue.records
  all : q.len + 2 ≤ CAP → ∀ x, sackedAt (q.sack left right).queue.records x = true ↔
    sackedAt q.records x = true ∨ (flagsAt q.records x).isSome = true ∧ InBlock left right x
  newly : (q.sack left right).newly.toNat + q.sacked.toNat = (q.sack left right).queue.sacked.toNat
  calls : (q.sack left right).calls.map Seg.markSacked = (q.sack left right).queue.records.filter
    (fun s => s.flags.sacked && !sackedAt q.records s.start)
  bytes : ∀ x, ByteStep q.records left right x (flagsAt q.records x)
    (flagsAt (q.sack left right).queue.records x)

/-- A block that does not lie too far below the queue. -/
lemma NearBlock.exact {una nxt left right : U32} (hvalid : q.debugValid una nxt = .ok ())
    (hspan : span q.records < 2 ^ 31) (hwidth : (right - left).toNat < 2 ^ 31)
    (hnear : q.NearBlock left right) : q.SackExact left right := by
  obtain ⟨a, b, h, hnear'⟩ : ∃ a b, Board (2 ^ 31) q.saturated q a b none ∧
      (seqLt left a → (right - left).toNat ≤ (a - left).toNat → (b - right).toNat < 2 ^ 31) := by
    obtain ⟨a, b, h⟩ := board_of_debugValid hvalid hspan
    rcases h.ends with ⟨-, hnil⟩ | ⟨first, final, hfirst, hlast, rfl, rfl, -⟩
    · -- An empty queue lies anywhere, so also at the right edge.
      have hcounts := h.counts
      rw [hnil] at hcounts
      refine ⟨right, right, Board.of_nil hnil hcounts h.exact, fun _ _ => ?_⟩
      rw [BitVec.sub_self]
      decide
    · exact ⟨_, _, h, hnear first final hfirst hlast⟩
  obtain ⟨hends, l, r, room₀, room₁, hclips, hl, hr, hrooms, hmarks⟩ := sack_marks h hwidth hnear'
  have hlaid := h.laid
  have hlen := h.span_eq
  have hlr := hclips.1
  have hrb := hclips.2.1
  have hrecords := hmarks.records
  have hcalls := hmarks.calls
  have hnewly := hmarks.newly
  rw [List.nil_append] at hrecords hcalls
  change (q.sack left right).newly.toNat = 0 + _ at hnewly
  have hcounts := h.counts
  have hcounts' := (h.sack left right).counts
  refine ⟨hends, fun x hx => ?_, fun s hs hfree hin => ?_, fun hroom x => ?_, ?_, ?_, fun x => ?_⟩
  · rw [hrecords] at hx
    refine (sackedAt_marked hlaid hspan (by omega) (by omega) hx).imp_right fun hbetween => ?_
    exact (hclips.2.2 x (by omega)).mpr hbetween
  · rw [hrecords]
    have hstop := hlaid.stop_le hs
    obtain ⟨hls, hsr⟩ := hclips.between (hlaid.ends hs).1 (hlaid.ends hs).2 (by omega) hin
    exact mem_marked hlaid hspan (by omega) (by omega) hs hfree hls hsr
  · obtain ⟨rfl, rfl⟩ := hrooms hroom
    rw [hrecords, sackedAt_marked_iff hlaid hspan (by omega) (by omega)]
    refine or_congr_right (and_congr_right fun hcovered => ?_)
    obtain ⟨fl, hfl⟩ := Option.isSome_iff_exists.mp hcovered
    obtain ⟨s, hs, hx, -⟩ := flagsAt_eq_some hfl
    have hstop := hlaid.stop_le hs
    have hcov := (Seg.covers_iff (hlaid.ends hs).1).mp hx
    exact (hclips.2.2 x (by omega)).symm
  · have hold := congrArg Prod.fst hcounts
    have hnew := congrArg Prod.fst hcounts'
    rw [hrecords, sacked_markAll, cutBoth, sacked_cutAll, sacked_cutAll] at hnew
    rw [cutBoth] at hnewly
    change (q.sack left right).queue.sacked.toNat = _ at hnew
    change q.sacked.toNat = _ at hold
    omega
  · rw [hrecords, hcalls, filter_markAll hlaid hspan]
  · rw [hrecords]
    refine byteStep_marked hlaid hspan hlr (by omega) ?_ ?_ fun y hy hy' => ?_
    · refine hl.imp_right fun ha s hs hin => ?_
      have hstop := hlaid.stop_le hs
      have hin' := (Seg.inside_iff (a := a) (by omega) (by omega) (hlaid.ends hs).1).mp hin
      rw [ha, BitVec.sub_self] at hin'
      exact absurd hin'.1 (Nat.not_lt_zero _)
    · refine hr.imp_right fun hr s hs hin => ?_
      have hstop := hlaid.stop_le hs
      have hin' := (Seg.inside_iff (a := a) (by omega) (by omega) (hlaid.ends hs).1).mp hin
      rcases hr with rfl | rfl
      · omega
      · rw [BitVec.sub_self] at hin'
        exact absurd hin'.1 (Nat.not_lt_zero _)
    · exact (hclips.2.2 y (by omega)).mpr ⟨hy, hy'⟩

/-- The record of a number is SACKed or not with the number. -/
lemma Board.sackedAt_start (h : Board M g q a b f) {s : Seg} (hs : s ∈ q.records) :
    sackedAt q.records s.start = s.flags.sacked := by
  obtain ⟨hends, hpos⟩ := h.laid.ends hs
  have hx : s.covers s.start = true := (Seg.covers_iff hends).mpr (by omega)
  rw [sackedAt, h.laid.flagsAt_eq hs hx]
  rfl

/-- A call that changes nothing is exact if the block has nothing in it that was not SACKed before. -/
lemma Board.exact_of_same {left right : U32} (h : Board M g q a b f)
    (hends : ∀ l r i q', q.sackStart left right = some (l, r, i, q') → SackEnds l r i ⟨0, [], q'⟩)
    (hsame : q.sack left right = ⟨0, [], q⟩)
    (hold : ∀ x, InBlock left right x → (flagsAt q.records x).isSome = true →
      sackedAt q.records x = true) : q.SackExact left right where
  ends := hends
  outside x hx := by
    rw [hsame] at hx
    exact .inl hx
  inside s hs hfree hin := by
    obtain ⟨hends, hpos⟩ := h.laid.ends hs
    have hcovers : s.covers s.start = true := (Seg.covers_iff hends).mpr (by omega)
    have hsome : (flagsAt q.records s.start).isSome = true := by
      rw [h.laid.flagsAt_eq hs hcovers]
      rfl
    have hset := hold s.start (hin _ hcovers) hsome
    rw [h.sackedAt_start hs, hfree] at hset
    cases hset
  all _ x := by
    rw [hsame]
    exact ⟨.inl, fun hx => hx.elim id fun hx => hold x hx.2 hx.1⟩
  newly := by
    rw [hsame]
    exact Nat.zero_add _
  calls := by
    rw [hsame]
    refine (List.filter_eq_nil_iff.mpr fun s hs => ?_).symm
    rw [h.sackedAt_start hs, Bool.and_not_self]
    exact Bool.false_ne_true
  bytes x := by
    rw [hsame]
    exact .same _

/-- If every record is SACKed, no block changes anything. -/
lemma sack_of_all_sacked (hmap : q.MapOk) (hall : ∀ s ∈ q.records, s.flags.sacked = true)
    (left right : U32) :
    (∀ l r i q', q.sackStart left right = some (l, r, i, q') → SackEnds l r i ⟨0, [], q'⟩) ∧
      q.sack left right = ⟨0, [], q⟩ := by
  have hnone (i : ℕ) : q.nextUnsacked i = none := by
    cases hj : q.nextUnsacked i with
    | none => rfl
    | some j =>
      obtain ⟨-, -, s, hs, hfree⟩ := (nextUnsacked_spec hmap i).1 j hj
      rw [hall s (mem_of_get hs)] at hfree
      cases hfree
  have hround (l r : U32) (i : ℕ) : sackRound l r i ⟨0, [], q⟩ = none := by
    unfold sackRound
    dsimp only
    cases hs : q.get i with
    | none => rfl
    | some s =>
      dsimp only
      split
      · rfl
      · rw [if_pos (hall s (mem_of_get hs)), hnone]
        rfl
  have hedge (i : ℕ) (l : U32) : q.splitLeftEdge i l = (i, q) := by
    unfold splitLeftEdge
    cases hs : q.get i with
    | none => rfl
    | some s => exact if_neg fun h => h.2 (hall s (mem_of_get hs))
  have hstart : ∀ l r i q', q.sackStart left right = some (l, r, i, q') → q' = q := by
    intro l r i q' h
    unfold sackStart at h
    split at h
    case h_1 =>
      dsimp only at h
      generalize (if seqLt left _ then _ else left) = l₀ at h
      generalize (if seqLt _ right then _ else right) = r₀ at h
      split at h
      · obtain ⟨j, -, hj⟩ := Option.map_eq_some_iff.mp h
        rw [hedge] at hj
        cases hj
        rfl
      · cases h
    case h_2 => cases h
  refine ⟨fun l r i q' h => ?_, ?_⟩
  · rw [hstart l r i q' h]
    exact .left (hround l r i)
  · rw [sack_eq]
    cases h : q.sackStart left right with
    | none => rfl
    | some x =>
      obtain ⟨l, r, i, q'⟩ := x
      dsimp only
      rw [hstart l r i q' h, sackLoop_succ, hround]

/-- A block too far below the queue, unless it is empty, is taken for one that covers the queue. -/
lemma sack_of_far {left right : U32} {first final : Seg} (hfirst : q.get 0 = some first)
    (hlast : q.last = some final) (hspan : (final.stop - first.start).toNat < 2 ^ 31)
    (hsome : 0 < (final.stop - first.start).toNat) (hwidth : (right - left).toNat < 2 ^ 31) (hne : left ≠ right) (hleft : seqLt left first.start)
    (hfar : 2 ^ 31 ≤ (final.stop - right).toNat) :
    q.sack left right = q.sack first.start final.stop := by
  have hlr : seqLt left right := by
    rw [seqLt_iff]
    bv_omega
  have hend : seqLt final.stop right := by
    rw [seqLt_iff]
    exact hfar
  have hpos : seqLt first.start final.stop := by
    rw [seqLt_iff]
    bv_omega
  unfold RtxQueue.sack
  rw [hfirst, hlast]
  dsimp only
  rw [if_pos hleft, if_pos hend, if_neg (seqLt_irrefl _), if_neg (seqLt_irrefl _), if_pos ⟨hlr, hpos⟩,
    if_pos ⟨hpos, hpos⟩]

/-- `sack` is exact exactly for the blocks that do not lie too far below the queue, the empty ones, and
the queues that are SACKed as a whole already. -/
theorem sack_exact {una nxt left right : U32} (hvalid : q.debugValid una nxt = .ok ())
    (hspan : span q.records < 2 ^ 31) (hwidth : (right - left).toNat < 2 ^ 31) :
    q.SackExact left right ↔
      q.NearBlock left right ∨ left = right ∨ ∀ s ∈ q.records, s.flags.sacked = true := by
  obtain ⟨a, b, h⟩ := board_of_debugValid hvalid hspan
  constructor
  · intro hexact
    by_contra hbad
    simp only [not_or, not_forall, Bool.not_eq_true, NearBlock, not_lt] at hbad
    obtain ⟨⟨first, final, hfirst, hlast, hleft, hbelow, hfar⟩, hne, s, hs, hfree⟩ := hbad
    -- The block is taken for one that covers the queue, and marks a record it has nothing in common with.
    rcases h.ends with ⟨hnil, -⟩ | ⟨first', final', hfirst', hlast', rfl, rfl, -, hsome⟩
    · rw [hnil] at hfirst
      cases hfirst
    cases hfirst.symm.trans hfirst'
    cases hlast.symm.trans hlast'
    have hlen := h.span_eq
    have hall := sack_of_far hfirst hlast (by omega) hsome hwidth hne hleft hfar
    have hnear : q.NearBlock first.start final.stop := by
      intro first' _ hfirst' _ hlt
      cases hfirst.symm.trans hfirst'
      exact absurd hlt (seqLt_irrefl _)
    have hcover := hnear.exact hvalid hspan (by omega)
    obtain ⟨hends, hpos⟩ := h.laid.ends hs
    have hstop := h.laid.stop_le hs
    have hmarked := hcover.inside s hs hfree fun x hx => by
      have := (Seg.covers_iff hends).mp hx
      unfold InBlock
      omega
    have hset := (h.sack first.start final.stop).sackedAt_start hmarked
    rw [← hall] at hset
    rcases hexact.outside s.start hset with hold | hin
    · rw [h.sackedAt_start hs, hfree] at hold
      cases hold
    · rw [seqLt_iff] at hleft
      unfold InBlock at hin
      bv_omega
  · rintro (hnear | rfl | hall)
    · exact hnear.exact hvalid hspan hwidth
    · have hstart : q.sackStart left left = none := by
        unfold sackStart
        split
        · exact if_neg fun h => seqLt_irrefl _ h.1
        · rfl
      refine h.exact_of_same (fun l r i q' hsome => ?_) ?_ fun x hx => ?_
      · rw [hstart] at hsome
        cases hsome
      · rw [sack_eq, hstart]
      · unfold InBlock at hx
        rw [BitVec.sub_self] at hx
        exact absurd hx (Nat.not_lt_zero _)
    · obtain ⟨hends, hsame⟩ := sack_of_all_sacked h.map hall left right
      refine h.exact_of_same hends hsame fun x _ hx => ?_
      obtain ⟨fl, hfl⟩ := Option.isSome_iff_exists.mp hx
      obtain ⟨s, hs, -, rfl⟩ := flagsAt_eq_some hfl
      rw [sackedAt, hfl]
      exact hall s hs

/-- One segment, resent in part. -/
def loneQueue : RtxQueue 64 :=
  small [.push ⟨100, 200, 5, 0, {}, 0⟩, .markLost 0, .onPartialRetransmit 0 9 20]

theorem loneQueue_sack :
    loneQueue.debugValid 100 200 = .ok () ∧
      (∀ x, sackedAt (loneQueue.sack 120 170).queue.records x = true ↔
        sackedAt loneQueue.records x = true ∨
          (flagsAt loneQueue.records x).isSome = true ∧ InBlock 120 170 x) := by
  have hvalid : loneQueue.debugValid 100 200 = .ok () := by decide +kernel
  have hfirst : loneQueue.get 0 = some ⟨100, 200, 9, 1,
      { lost := true, retrans := true, everRetrans := true, isPartial := true }, 20⟩ := by
    decide +kernel
  have hlen : loneQueue.len + 2 ≤ 64 := by decide +kernel
  have hwidth : ((170 : U32) - 120).toNat < 2 ^ 31 := by decide
  have hnear : loneQueue.NearBlock 120 170 := by
    intro first final hs _ hlt
    cases hfirst.symm.trans hs
    exact absurd hlt (by decide)
  exact ⟨hvalid, ((sack_exact hvalid (by decide +kernel) hwidth).mpr (.inl hnear)).all hlen⟩

/-- A block of one number that lies far below the queue: its right edge looks as if it were above
the queue's end, and the whole queue is marked. -/
theorem sack_far_below :
    loneQueue.debugValid 100 200 = .ok () ∧ span loneQueue.records < 2 ^ 31 ∧
      InBlock 2147483753 2147483754 2147483753 ∧ ¬ InBlock 2147483753 2147483754 150 ∧
      sackedAt loneQueue.records 150 = false ∧
      sackedAt (loneQueue.sack 2147483753 2147483754).queue.records 150 = true := by
  unfold InBlock
  decide +kernel

end RtxQueue

end TcpSansIo
