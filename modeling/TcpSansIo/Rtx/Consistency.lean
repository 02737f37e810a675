import TcpSansIo.Core.Computation
import TcpSansIo.Rtx.Scoreboard

/-!
# Whole runs of the retransmission queue

The operations of `RtxQueue` as an alphabet, and the discipline its one user keeps: a record is
pushed where the last one ends and never behind a FIN, only records that are not SACKed are
retransmitted, and the queue never covers half the sequence space.  Everything else may be called
with any arguments.

`Run.board`: the queue of every such run is a `Board`.  From that alone, `debug_valid` finds nothing
wrong (`Board.debugValid`) and `pipe` is the number of bytes the records say are in flight
(`Board.pipe`).
-/

namespace TcpSansIo

open FixedWidth

/-- Bytes of a record that are in flight: the record itself unless it is SACKed or lost, and what a
retransmission put back. -/
def Seg.inFlight (s : Seg) : ℕ :=
  if s.flags.sacked then 0
  else (if s.flags.lost then 0 else s.seqLen.toNat) +
    (if s.flags.retrans then (retransLen s).toNat else 0)

/-- Bytes of the records of `l` that are in flight. -/
def inFlight (l : List Seg) : ℕ := (l.map Seg.inFlight).sum

@[simp] lemma inFlight_cons (s : Seg) (l : List Seg) : inFlight (s :: l) = s.inFlight + inFlight l := by
  simp [inFlight]

/-- What is covered, less what is SACKed, less what is lost, plus what was resent. -/
lemma inFlight_eq {l : List Seg} (h : ∀ s ∈ l, s.Sound) :
    (shares l).1 + (shares l).2.1 ≤ span l ∧
      inFlight l = span l - (shares l).1 - (shares l).2.1 + (shares l).2.2 := by
  induction l with
  | nil => exact ⟨le_refl _, rfl⟩
  | cons s l ih =>
    have hs := (h s (List.mem_cons_self ..)).sacked
    obtain ⟨hle, heq⟩ := ih fun x hx => h x (List.mem_cons_of_mem _ hx)
    simp only [shares_cons, span_cons, inFlight_cons, Prod.fst_add, Prod.snd_add, Seg.share,
      Seg.inFlight]
    by_cases hsacked : s.flags.sacked = true
    · obtain ⟨hlost, hretrans⟩ := hs hsacked
      simp only [hsacked, hlost, hretrans, if_true, Bool.false_eq_true, if_false]
      omega
    · rw [if_neg hsacked, if_neg hsacked]
      split <;> split <;> omega

namespace RtxQueue

variable {CAP M : ℕ} {g : Bool} [RtxCap CAP] {q : RtxQueue CAP} {a b : U32} {on : Bool}

/-! ## What the queue's own check sees -/

/-- Only the last record ends where the queue ends. -/
lemma Board.last_of_stop {l₁ l₂ : List Seg} {s : Seg} {f : Option Bool} (h : Board M g q a b f)
    (hl : q.records = l₁ ++ s :: l₂) (hstop : s.stop = b) : l₂ = [] := by
  cases l₂ with
  | nil => rfl
  | cons x l₂ =>
    exfalso
    obtain ⟨c, h₁, h₂, h₃⟩ := Chain.append.mp (hl ▸ h.chain)
    have hfront : Chain a (l₁ ++ [s]) s.stop := Chain.append.mpr ⟨c, h₁, h₂, rfl⟩
    have hhalf := h.half
    rw [hl] at hhalf
    refine hfront.ne_end h₃ ?_ (h.sound x (by rw [hl]; simp)).pos hstop
    simp only [span_append, span_cons, span_nil] at hhalf ⊢
    omega

lemma Board.checkSeg {l₁ l₂ : List Seg} {s : Seg} {expect : Option U32}
    (h : Board M g q a b (some on)) (hl : q.records = l₁ ++ s :: l₂)
    (hexpect : ∀ e ∈ expect, s.start = e) : q.checkSeg l₁.length expect s = .ok () := by
  have hmem : s ∈ q.records := by rw [hl]; simp
  have hok := h.sound s hmem
  have hget : q.get l₁.length = some s := by
    rw [get_eq, hl, List.getElem?_append_right (le_refl _), Nat.sub_self]
    rfl
  have hlen : q.len = l₁.length + l₂.length + 1 := by
    rw [RtxQueue.len, ← RingQueue.length_toList]
    change q.records.length = _
    rw [hl, List.length_append, List.length_cons, Nat.add_assoc]
  have hnonempty : seqLt s.start s.stop := by
    have hpos := hok.pos
    have hlt := h.seqLen_lt hmem
    rw [Seg.seqLen] at hpos hlt
    rw [seqLt_iff]
    bv_omega
  have hnext : expect.any (fun e => s.start != e) = false := by
    cases expect with
    | none => rfl
    | some e => simpa using hexpect e rfl
  have hsacked : (s.flags.sacked && (s.flags.lost || s.flags.retrans)) = false := by
    cases hs : s.flags.sacked with
    | false => rfl
    | true =>
      obtain ⟨hlost, hretrans⟩ := hok.sacked hs
      rw [hlost, hretrans]
      rfl
  have hbit : (q.sackedBit (q.phys l₁.length) != s.flags.sacked) = false := by
    rw [bne_eq_false_iff_eq]
    exact h.map _ s hget
  have hretrans : (s.flags.retrans && !s.flags.everRetrans) = false := by
    cases hr : s.flags.retrans with
    | false => rfl
    | true =>
      rw [hok.retrans hr]
      rfl
  have hfin : (s.flags.fin && l₁.length + 1 != q.len) = false := by
    cases hf : s.flags.fin with
    | false => rfl
    | true =>
      have hstop : s.stop = b := by
        have hends := h.fin on rfl s hmem
        rw [hf] at hends
        simpa using (Bool.and_eq_true_iff.mp hends.symm).2
      rw [h.last_of_stop hl hstop, List.length_nil, Nat.add_zero] at hlen
      rw [hlen, Bool.true_and, bne_self_eq_false]
  unfold RtxQueue.checkSeg
  rw [if_neg (not_not.mpr hnonempty), hnext, hsacked, hbit, hretrans, hfin]
  cases hp : s.flags.isPartial with
  | true =>
    obtain ⟨hresent, hsent, hinside⟩ := hok.resent hp
    have hzero : s.sent ≠ 0#16 := by
      intro h0
      rw [h0] at hsent
      exact absurd hsent (by decide)
    simp [hresent, hzero, hinside]
  | false => simp [hok.whole hp]

/-- Counting a record and then the rest. -/
lemma counted_add (on : Bool) (c n : U32) (k : ℕ) :
    (if on then c + n else c) + BitVec.ofNat 32 k =
      c + BitVec.ofNat 32 ((if on then n.toNat else 0) + k) := by
  cases on with
  | false => simp
  | true => simp [BitVec.ofNat_add, BitVec.add_assoc]

/-- The loop of `debug_valid` passes every record and recounts the records' shares. -/
lemma Board.checkFrom {l₁ l : List Seg} {expect : Option U32} {c : U32 × U32 × U32} {p : U32}
    (h : Board M g q a b (some on)) (hl : q.records = l₁ ++ l) (hchain : Chain p l b)
    (hexpect : ∀ e ∈ expect, p = e) :
    q.checkFrom l₁.length expect c l =
      .ok (c.1 + BitVec.ofNat 32 (shares l).1, c.2.1 + BitVec.ofNat 32 (shares l).2.1,
        c.2.2 + BitVec.ofNat 32 (shares l).2.2) := by
  induction l generalizing l₁ expect c p with
  | nil =>
    obtain ⟨x, y, z⟩ := c
    simp [RtxQueue.checkFrom]
  | cons s l ih =>
    obtain ⟨x, y, z⟩ := c
    obtain ⟨hstart, hrest⟩ := hchain
    have hs := h.checkSeg hl fun e he => hstart.trans (hexpect e he)
    have hl' : q.records = (l₁ ++ [s]) ++ l := by rw [hl, List.append_assoc, List.singleton_append]
    have hnext := ih (c := (if s.flags.sacked then x + s.seqLen else x,
      if s.flags.lost then y + s.seqLen else y,
      if s.flags.retrans then z + retransLen s else z)) hl' hrest
      (fun e (he : some s.stop = some e) => Option.some.inj he)
    rw [List.length_append, List.length_singleton] at hnext
    rw [RtxQueue.checkFrom, hs]
    change q.checkFrom (l₁.length + 1) (some s.stop) _ l = _
    rw [hnext, counted_add, counted_add, counted_add, shares_cons]
    rfl

lemma Board.last_stop {s : Seg} {f : Option Bool} (h : Board M g q a b f) (hs : q.last = some s) :
    s ∈ q.records ∧ s.stop = b := by
  unfold RtxQueue.last at hs
  split at hs
  · cases hs
  case isFalse hlen =>
    have hmem := mem_of_get hs
    have hdrop : q.records.drop (q.len - 1 + 1) = [] := by
      apply List.drop_eq_nil_of_le
      rw [RingQueue.length_toList]
      change q.len ≤ _
      omega
    have hchain := h.chain
    rw [records_around hs, hdrop] at hchain
    obtain ⟨c, -, -, hstop⟩ := Chain.append.mp hchain
    exact ⟨hmem, hstop⟩

/-- The recount of `debug_valid` arrives at the counters. -/
lemma Board.recount (h : Board M g q a b (some on)) :
    q.checkFrom 0 none (0, 0, 0) q.records = .ok (q.sacked, q.lost, q.retrans) := by
  have hall : q.records = [] ++ q.records := rfl
  have hcounted := h.checkFrom (c := (0, 0, 0)) hall h.chain (fun _ (he : _ ∈ none) => nomatch he)
  have hword : ∀ w : U32, 0 + BitVec.ofNat 32 w.toNat = w := by
    intro w
    simp
  rw [← h.counts] at hcounted
  refine hcounted.trans (congrArg Except.ok ?_)
  exact Prod.ext (hword _) (Prod.ext (hword _) (hword _))

/-- `debug_valid` finds nothing wrong, for a `SND.UNA` not above the queue and a `SND.NXT` at its
end. -/
lemma Board.debugValid {una nxt : U32} (h : Board M g q a b (some on))
    (huna : ∀ s, q.get 0 = some s → ¬ seqLt s.start una)
    (hnxt : ∀ s, q.last = some s → s.stop = nxt) : q.debugValid una nxt = .ok () := by
  unfold RtxQueue.debugValid
  change (q.checkFrom 0 none (0, 0, 0) q.records >>= _) = _
  rw [h.recount]
  change (if (q.sacked, q.lost, q.retrans) ≠ (q.sacked, q.lost, q.retrans) then _ else _) = _
  rw [if_neg (not_not.mpr rfl)]
  cases hfirst : q.get 0 with
  | none => rfl
  | some first =>
    cases hlast : q.last with
    | none => rfl
    | some final => exact if_neg (not_or.mpr ⟨huna first hfirst, not_not.mpr (hnxt final hlast)⟩)

/-- What the check of one record makes sure of. -/
lemma checkSeg_ok {i : ℕ} {expect : Option U32} {s : Seg} (h : q.checkSeg i expect s = .ok ()) :
    s.Sound ∧ (∀ e ∈ expect, s.start = e) ∧ q.sackedBit (q.phys i) = s.flags.sacked := by
  unfold RtxQueue.checkSeg at h
  split at h
  · cases h
  case isFalse hempty =>
  split at h
  · cases h
  case isFalse hnext =>
  split at h
  · cases h
  case isFalse hsacked =>
  split at h
  · cases h
  case isFalse hbit =>
  split at h
  · cases h
  case isFalse hretrans =>
  have hpos : 0 < s.seqLen.toNat := by
    rw [not_not, seqLt_iff] at hempty
    rw [Seg.seqLen]
    bv_omega
  refine ⟨⟨hpos, ?_, ?_, ?_, ?_⟩, ?_, ?_⟩
  · intro hs
    simpa [hs] using hsacked
  · intro hr
    simpa [hr] using hretrans
  · intro hp
    rw [if_pos hp] at h
    split at h
    · cases h
    case isFalse hresent =>
    split at h
    · cases h
    case isFalse hinside =>
    rw [not_or] at hinside
    exact ⟨by simpa using hresent,
      Nat.pos_of_ne_zero fun h0 => hinside.1 (BitVec.eq_of_toNat_eq h0), by omega⟩
  · intro hw
    rw [if_neg (by simp [hw])] at h
    split at h
    · cases h
    case isFalse hsent => exact not_not.mp hsent
  · intro e he
    cases he
    simpa using hnext
  · simpa using hbit

/-- What the loop of `debug_valid` makes sure of, for records that begin at `p`. -/
lemma checkFrom_ok {i : ℕ} {expect : Option U32} {c c' : U32 × U32 × U32} {l : List Seg} {p : U32}
    (h : q.checkFrom i expect c l = .ok c')
    (hp : ∀ s ∈ l.head?, (∀ e ∈ expect, s.start = e) → s.start = p) :
    (∃ b, Chain p l b) ∧ (∀ s ∈ l, s.Sound) ∧
      (∀ k s, l[k]? = some s → q.sackedBit (q.phys (i + k)) = s.flags.sacked) ∧
      c' = (c.1 + BitVec.ofNat 32 (shares l).1, c.2.1 + BitVec.ofNat 32 (shares l).2.1,
        c.2.2 + BitVec.ofNat 32 (shares l).2.2) := by
  induction l generalizing i expect c p with
  | nil =>
    obtain ⟨x, y, z⟩ := c
    rw [RtxQueue.checkFrom] at h
    cases h
    exact ⟨⟨p, rfl⟩, by simp, by simp, by simp⟩
  | cons s l ih =>
    obtain ⟨x, y, z⟩ := c
    rw [RtxQueue.checkFrom] at h
    obtain ⟨u, hs, hrest⟩ := Proc.bind_eq_ok.1 h
    obtain ⟨hsound, hstart, hbit⟩ := checkSeg_ok hs
    obtain ⟨⟨b, hchain⟩, hsounds, hbits, hcount⟩ := ih hrest
      (p := s.stop) (fun r _ hr => hr s.stop rfl)
    refine ⟨⟨b, hp s rfl hstart, hchain⟩, ?_, ?_, ?_⟩
    · intro r hr
      rcases List.mem_cons.mp hr with rfl | hr
      · exact hsound
      · exact hsounds r hr
    · intro k r hr
      cases k with
      | zero =>
        cases hr
        exact hbit
      | succ k =>
        rw [← Nat.add_assoc, Nat.add_right_comm]
        exact hbits k r hr
    · rw [hcount, counted_add, counted_add, counted_add, shares_cons]
      rfl

/-- A queue that passes `debug_valid` and covers less than half the sequence space is a board. -/
lemma board_of_debugValid {una nxt : U32} (h : q.debugValid una nxt = .ok ())
    (hspan : span q.records < 2 ^ 31) : ∃ a b, Board (2 ^ 31) q.saturated q a b none := by
  obtain ⟨c, hcheck, hrest⟩ := Proc.bind_eq_ok.1 h
  obtain ⟨⟨b, hchain⟩, hsound, hbits, hcount⟩ := checkFrom_ok hcheck
    (p := (q.records.head?.map Seg.start).getD 0) (by
      intro s hs _
      rw [Option.mem_def.mp hs]
      rfl)
  have hcounters : c = (q.sacked, q.lost, q.retrans) := by
    by_contra hne
    rw [if_pos hne] at hrest
    cases hrest
  have hfits := fits_shares hsound hspan
  have hword : ∀ {w : U32} {k : ℕ}, 0 + BitVec.ofNat 32 k = w → k < 2 ^ 32 → w.toNat = k := by
    rintro w k rfl hk
    simpa using hk
  rw [hcounters] at hcount
  obtain ⟨h₁, h₂₃⟩ := Prod.ext_iff.mp hcount.symm
  obtain ⟨h₂, h₃⟩ := Prod.ext_iff.mp h₂₃
  refine ⟨_, b, hchain, hsound, fun s hs => ?_, hspan, nofun, ?_, rfl, ?_⟩
  · exact (seqLen_le_span hs).trans hspan.le
  · exact Prod.ext (hword h₁ hfits.1) (Prod.ext (hword h₂ hfits.2.1) (hword h₃ hfits.2.2))
  · intro i s hs
    have hbit := hbits i s (by rw [← get_eq]; exact hs)
    rw [Nat.zero_add] at hbit
    exact hbit

/-- `pipe` of the whole span is what the records have in flight. -/
lemma Board.pipe {f : Option Bool} (h : Board M g q a b f) :
    (q.pipe (BitVec.ofNat 32 (span q.records))).toNat = inFlight q.records := by
  have hhalf := h.half
  have hcounts := h.counts
  simp only [RtxQueue.counts] at hcounts
  obtain ⟨h₁, h₂₃⟩ := Prod.ext_iff.mp hcounts
  obtain ⟨h₂, h₃⟩ := Prod.ext_iff.mp h₂₃
  dsimp only at h₁ h₂ h₃
  obtain ⟨hle, hflight⟩ := inFlight_eq h.sound
  have hresent := (shares_le h.sound).2.2
  rw [RtxQueue.pipe, toNat_satAdd, toNat_satSub, toNat_satSub, BitVec.toNat_ofNat,
    Nat.mod_eq_of_lt (hhalf.trans (by decide)), h₁, h₂, h₃, hflight]
  omega

/-! ## Runs -/

/-- A call of one of the queue's operations. -/
inductive Op where
  | push (s : Seg)
  | split (i : ℕ) (cut : U32)
  | ackTo (una : U32)
  | sack (left right : U32)
  | markLost (i : ℕ)
  | markAllLost
  | unmarkLost
  | clearSacked
  | nextLost
  | onRetransmit (i : ℕ) (now : U64)
  | onPartialRetransmit (i : ℕ) (now : U64) (sent : U16)
  deriving Repr, DecidableEq

namespace Op

/-- The queue after the call. -/
def apply (q : RtxQueue CAP) : Op → RtxQueue CAP
  | push s => (q.push s).2
  | split i cut => (q.split i cut).2
  | ackTo una => (q.ackTo una).queue
  | sack left right => (q.sack left right).queue
  | markLost i => q.markLost i
  | markAllLost => q.markAllLost
  | unmarkLost => q.unmarkLost
  | clearSacked => q.clearSacked
  | nextLost => q.nextLost.2
  | onRetransmit i now => q.onRetransmit i now
  | onPartialRetransmit i now sent => q.onPartialRetransmit i now sent

/-- The discipline of the queue's user. -/
def Allowed (q : RtxQueue CAP) : Op → Prop
  | push s =>
    -- A record of a fresh transmission carries no mark but its FIN.
    s.flags = { fin := s.flags.fin } ∧ s.sent = 0 ∧ 0 < s.seqLen.toNat ∧
      (∀ x, q.last = some x → s.start = x.stop ∧ x.flags.fin = false) ∧
      span q.records + s.seqLen.toNat < 2 ^ 31
  | onRetransmit i _ => ∀ s, q.get i = some s → s.flags.sacked = false
  | onPartialRetransmit i _ sent =>
    ∀ s, q.get i = some s →
      s.flags.sacked = false ∧ 0 < sent.toNat ∧ sent.toNat < s.payloadLen.toNat
  | _ => True

end Op

/-- The queues that calls within the discipline lead to, from an empty queue. -/
inductive Run : RtxQueue CAP → Prop
  | new : Run RtxQueue.new
  | step {q : RtxQueue CAP} {op : Op} : Run q → op.Allowed q → Run (op.apply q)

/-- What a run keeps: the queue is consistent, wherever it lies. -/
def Consistent (q : RtxQueue CAP) : Prop := ∃ a b on, Board (2 ^ 31) false q a b (some on)

lemma records_of_last_eq_none (h : q.last = none) : q.records = [] := by
  apply List.eq_nil_of_length_eq_zero
  rw [RingQueue.length_toList]
  unfold RtxQueue.last at h
  split at h
  · assumption
  case isFalse hlen =>
    rw [get_eq, List.getElem?_eq_none_iff, RingQueue.length_toList] at h
    change q.len ≤ q.len - 1 at h
    omega

lemma Consistent.push {s : Seg} (h : Consistent q) (hs : (Op.push s).Allowed q) :
    Consistent (q.push s).2 := by
  obtain ⟨hflags, hsent, hpos, hnext, hhalf⟩ := hs
  obtain ⟨a, b, on, hboard⟩ := h
  by_cases hroom : q.segs.len < CAP
  · -- An empty queue begins wherever its first record does.
    obtain ⟨a, hboard⟩ : ∃ a, Board (2 ^ 31) false q a s.start (some false) := by
      cases hlast : q.last with
      | none =>
        have hnil := records_of_last_eq_none hlast
        have hcounts := hboard.counts
        rw [hnil] at hcounts
        exact ⟨s.start, Board.of_nil hnil hcounts hboard.exact⟩
      | some x =>
        obtain ⟨hstart, hnofin⟩ := hnext x hlast
        obtain ⟨hmem, hstop⟩ := hboard.last_stop hlast
        have hfin := hboard.fin on rfl x hmem
        rw [hnofin, hstop, beq_self_eq_true, Bool.and_true] at hfin
        subst hfin
        rw [hstart, hstop]
        exact ⟨a, hboard⟩
    have hsound : s.Sound := by
      refine ⟨hpos, ?_, ?_, ?_, fun _ => hsent⟩
      all_goals rw [hflags]; exact nofun
    have hfresh : s.share = 0 := by
      rw [Seg.share, hflags]
      rfl
    exact ⟨a, s.stop, s.flags.fin, (hboard.push (by simp) hroom rfl hsound (by omega) hhalf hfresh).2⟩
  · rw [RtxQueue.push, dif_neg hroom]
    exact ⟨a, b, on, hboard⟩

/-- One call within the discipline. -/
lemma Consistent.step {op : Op} (h : Consistent q) (hop : op.Allowed q) :
    Consistent (op.apply q) := by
  cases op with
  | push s => exact h.push hop
  | ackTo una =>
    obtain ⟨a, b, on, h⟩ := h
    obtain ⟨a', h'⟩ := h.ackTo_any una
    exact ⟨a', b, on, h'⟩
  | onRetransmit i now =>
    obtain ⟨a, b, on, h⟩ := h
    cases hs : q.get i with
    | none =>
      simp only [Op.apply, RtxQueue.onRetransmit, RtxQueue.retransmitted, hs]
      exact ⟨a, b, on, h⟩
    | some s => exact ⟨a, b, on, h.retransmitted hs (hop s hs) (.inl rfl) now⟩
  | onPartialRetransmit i now sent =>
    obtain ⟨a, b, on, h⟩ := h
    cases hs : q.get i with
    | none =>
      simp only [Op.apply, RtxQueue.onPartialRetransmit, RtxQueue.retransmitted, hs]
      exact ⟨a, b, on, h⟩
    | some s =>
      obtain ⟨hsacked, -, hinside⟩ := hop s hs
      exact ⟨a, b, on, h.retransmitted hs hsacked (.inr hinside) now⟩
  | split i cut =>
    obtain ⟨a, b, on, h⟩ := h
    exact ⟨a, b, on, h.split⟩
  | sack left right =>
    obtain ⟨a, b, on, h⟩ := h
    exact ⟨a, b, on, h.sack left right⟩
  | markLost i =>
    obtain ⟨a, b, on, h⟩ := h
    exact ⟨a, b, on, h.markLost i⟩
  | markAllLost =>
    obtain ⟨a, b, on, h⟩ := h
    exact ⟨a, b, on, h.markAllLost⟩
  | unmarkLost =>
    obtain ⟨a, b, on, h⟩ := h
    exact ⟨a, b, on, h.unmarkLost⟩
  | clearSacked =>
    obtain ⟨a, b, on, h⟩ := h
    exact ⟨a, b, on, h.clearSacked⟩
  | nextLost =>
    obtain ⟨a, b, on, h⟩ := h
    exact ⟨a, b, on, h.nextLost⟩

lemma Run.consistent (h : Run q) : Consistent q := by
  induction h with
  | new => exact ⟨0, 0, false, Board.of_nil rfl rfl rfl⟩
  | step _ hop ih => exact ih.step hop

/-- In every run within the discipline `debug_valid` holds, no counter ever leaves its range, and
`pipe` of the span is what the records have in flight. -/
theorem scoreboard_consistent (h : Run q) :
    (∀ una nxt, (∀ s, q.get 0 = some s → ¬ seqLt s.start una) →
      (∀ s, q.last = some s → s.stop = nxt) → q.debugValid una nxt = .ok ()) ∧
    q.saturated = false ∧
    (q.pipe (BitVec.ofNat 32 (span q.records))).toNat = inFlight q.records := by
  obtain ⟨a, b, on, hboard⟩ := h.consistent
  exact ⟨fun _ _ huna hnxt => hboard.debugValid huna hnxt, hboard.exact, hboard.pipe⟩

/-- A queue of the smallest capacity after `ops` on an empty one. -/
def small (ops : List Op) : RtxQueue 64 := ops.foldl (fun q op => op.apply q) new

/-- The records of such a queue that a block newly marks. -/
def smallSacked (q : RtxQueue 64) (left right : U32) : List Seg := (q.sack left right).calls

/-- Two segments, the second with the FIN; the first half of the first was lost and resent in part,
its second half is SACKed. -/
def markedQueue : RtxQueue 64 :=
  small [.push ⟨100, 200, 5, 0, {}, 0⟩, .push ⟨200, 211, 6, 0, { fin := true }, 0⟩, .sack 150 200,
    .markLost 0, .onPartialRetransmit 0 9 20]

lemma run_markedQueue : Run markedQueue := by
  have hfirst : Run ((Op.push ⟨100, 200, 5, 0, {}, 0⟩).apply (new : RtxQueue 64)) :=
    .step .new ⟨rfl, rfl, by decide, nofun, by decide⟩
  have hsecond : Run ((Op.push ⟨200, 211, 6, 0, { fin := true }, 0⟩).apply
      ((Op.push ⟨100, 200, 5, 0, {}, 0⟩).apply (new : RtxQueue 64))) := by
    refine .step hfirst ⟨rfl, rfl, by decide, fun x hx => ?_, by decide +kernel⟩
    have hlast : x = ⟨100, 200, 5, 0, {}, 0⟩ := by
      rw [← Option.some_inj, ← hx]
      decide +kernel
    rw [hlast]
    exact ⟨rfl, rfl⟩
  have hmarked : Run ((Op.markLost 0).apply ((Op.sack 150 200).apply
      ((Op.push ⟨200, 211, 6, 0, { fin := true }, 0⟩).apply
        ((Op.push ⟨100, 200, 5, 0, {}, 0⟩).apply (new : RtxQueue 64))))) :=
    .step (.step hsecond trivial) trivial
  refine .step hmarked (?_ : (Op.onPartialRetransmit 0 9 20).Allowed _)
  intro x hx
  have hlost : x = ⟨100, 150, 5, 0, { lost := true }, 0⟩ := by
    rw [← Option.some_inj, ← hx]
    decide +kernel
  rw [hlost]
  exact ⟨rfl, by decide, by decide⟩

theorem markedQueue_consistent :
    markedQueue.debugValid 100 211 = .ok () ∧ markedQueue.saturated = false ∧
      (markedQueue.pipe (BitVec.ofNat 32 (span markedQueue.records))).toNat =
        inFlight markedQueue.records := by
  obtain ⟨hvalid, hexact, hpipe⟩ := scoreboard_consistent run_markedQueue
  refine ⟨hvalid 100 211 (fun s hs => ?_) (fun s hs => ?_), hexact, hpipe⟩
  · have hget : markedQueue.get 0 = some ⟨100, 150, 9, 2,
        { lost := true, retrans := true, everRetrans := true, isPartial := true }, 20⟩ := by
      decide +kernel
    cases hget.symm.trans hs
    decide
  · have hlast : markedQueue.last = some ⟨200, 211, 6, 1, { fin := true }, 0⟩ := by
      decide +kernel
    cases hlast.symm.trans hs
    rfl

end RtxQueue

end TcpSansIo
