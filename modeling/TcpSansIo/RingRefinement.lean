import TcpSansIo.Ring
import TcpSansIo.Core.ParkedQueue

/-!
# The ring is a queue with a parked tail

`Abstracts a r` ties a ring to a bounded queue with a parked tail: the queue is the readable bytes,
and a byte parked at offset `k` is in the cell `k` past the write cursor.  Every operation of the ring
is a step of the queue (`perform_step`), so every sequence of operations is a run of it
(`ring_refines_parkedQueue`).
-/

namespace TcpSansIo

open CircularBuffer

namespace Ring

variable {N : ℕ} [RingCap N]

/-- The method behind an operation. -/
def perform (r : Ring N) : ParkedQueue.Op U8 → ParkedQueue.Reply U8 × Ring N
  | .write src => (.count (r.write src).1, (r.write src).2)
  | .read cap => (.entries (r.read cap).1, (r.read cap).2)
  | .peek cap => (.entries (r.peek cap), r)
  | .peekAt offset cap => (.entries (r.peekAt offset cap), r)
  | .writeAt offset src => (.count (r.writeAt offset src).1, (r.writeAt offset src).2)
  | .commit k => (.count (r.commit k).1, (r.commit k).2)
  | .freeRegions max first second =>
    (.regions (r.freeRegions max).1 (r.freeRegions max).2, r.fillRegions max first second)
  | .consume k => (.unit, r.consume k)
  | .clear => (.unit, r.clear)

/-- The operations in order, each with its reply, and the ring they leave. -/
def performAll (r : Ring N) : List (ParkedQueue.Op U8) →
    List (ParkedQueue.Op U8 × ParkedQueue.Reply U8) × Ring N
  | [] => ([], r)
  | op :: ops =>
    let rest := (r.perform op).2.performAll ops
    ((op, (r.perform op).1) :: rest.1, rest.2)

/-- The readable bytes are the queue, and what is parked is in the free cells. -/
structure Abstracts (a : ParkedQueue U8 N) (r : Ring N) : Prop where
  queue : a.queue = r.contents
  parked : ∀ k x, a.parked k = some x → r.cell (r.len + k) = x

namespace Abstracts

variable {a : ParkedQueue U8 N} {r : Ring N}

lemma new : Abstracts .empty (Ring.new : Ring N) := ⟨rfl, nofun⟩

lemma length_queue (h : Abstracts a r) : a.queue.length = r.len := by
  rw [h.queue, length_contents]

lemma room (h : Abstracts a r) : a.room = r.free := by
  rw [ParkedQueue.room, h.length_queue, free]

/-- The free cells show what is parked. -/
lemma shows (h : Abstracts a r) {m : ℕ} :
    a.Shows ((List.range m).map fun i => r.cell (r.len + i)) := by
  intro k x hk hlt
  have hm : k < m := by simpa using hlt
  simp [hm, h.parked k x hk]

/-- Bytes appended to the queue, with the cells past them as they were. -/
lemma append {r' : Ring N} {l : List U8} (h : Abstracts a r) (hl : l.length ≤ a.room)
    (hcontents : r'.contents = r.contents ++ l)
    (hcell : ∀ k, r.len + l.length ≤ k → k < N → r'.cell k = r.cell k) :
    Abstracts (a.append l hl) r' := by
  have hlen : r'.len = r.len + l.length := by
    rw [← length_contents, hcontents, List.length_append, length_contents]
  refine ⟨(congrArg (· ++ l) h.queue).trans hcontents.symm, fun k x hk => ?_⟩
  have hin := a.inside _ x hk
  rw [h.length_queue] at hin
  rw [← h.parked _ x hk, hlen, Nat.add_assoc]
  exact hcell _ (by omega) hin

lemma drop (h : Abstracts a r) (k : ℕ) : Abstracts (a.drop k) (r.consume k) := by
  refine ⟨(congrArg (List.drop k) h.queue).trans (r.contents_consume k).symm, fun j x hj => ?_⟩
  rw [cell_consume, ← h.parked j x hj]
  congr 1
  simp only [consume]
  omega

lemma park (h : Abstracts a r) (offset : ℕ) {l : List U8} (hl : l.length ≤ a.room - offset) :
    Abstracts (a.park offset l hl) (r.writeAt offset l).2 := by
  refine ⟨h.queue.trans (r.contents_writeAt offset l).symm, fun k x hk => ?_⟩
  have hin := (a.park offset l hl).inside k x hk
  have hlen : a.queue.length = r.len := h.length_queue
  simp only [ParkedQueue.park] at hk hin
  rw [len_writeAt, cell_writeAt r offset l (by omega)]
  split at hk
  case isFalse hlt => rw [if_neg (by omega), h.parked k x hk]
  case isTrue hle =>
    rw [if_pos (by omega), show r.len + k - (r.len + offset) = k - offset by omega]
    rcases Option.or_eq_some_iff.mp hk with hx | ⟨hnone, hx⟩
    · rw [hx, Option.getD_some]
    · rw [hnone, Option.getD_none, h.parked k x hx]

end Abstracts

omit [RingCap N] in
/-- Only what fits is written. -/
lemma writeAt_take (r : Ring N) (offset : ℕ) (src : List U8) :
    r.writeAt offset src =
      ((src.take (r.free - offset)).length, (r.writeAt offset (src.take (r.free - offset))).2) := by
  refine Prod.ext ?_ ?_
  · unfold writeAt
    split
    case isTrue h => rw [Nat.sub_eq_zero_of_le h, List.take_zero, List.length_nil]
    case isFalse h =>
      rw [List.length_take]
      exact Nat.min_comm _ _
  · rw [writeAt_snd, writeAt_snd, List.take_take, Nat.min_self]

omit [RingCap N] in
lemma consume_min (r : Ring N) (k : ℕ) : r.consume (min k r.len) = r.consume k := by
  simp only [consume, Nat.min_assoc, Nat.min_self]

/-- Every operation of the ring is a step of the queue it stands for. -/
lemma perform_step {a : ParkedQueue U8 N} {r : Ring N} (h : Abstracts a r)
    (op : ParkedQueue.Op U8) :
    ∃ a', ParkedQueue.Step a (op, (r.perform op).1) a' ∧ Abstracts a' (r.perform op).2 := by
  have hfree := h.room
  cases op with
  | write src =>
    have hcount : (r.write src).1 = (src.take a.room).length := by
      rw [fst_write, List.length_take, hfree, Nat.min_comm]
    have hstep := ParkedQueue.Step.write a src
    rw [← hcount] at hstep
    refine ⟨_, hstep, h.append _ ?_ fun k hk hN => ?_⟩
    · rw [perform, contents_write, hcount, List.length_take, ← List.take_take, List.take_length]
    · rw [List.length_take, hfree] at hk
      unfold free at hk
      rw [perform, cell_write r src hN, if_pos (by omega), List.getElem?_eq_none (by omega),
        Option.getD_none]
  | read cap =>
    have hstep := ParkedQueue.Step.read a cap
    rw [h.queue, ← peek_eq] at hstep
    have hread : (r.read cap).2 = r.consume cap := by
      rw [read, length_peek, consume_min]
    exact ⟨_, hstep, hread ▸ h.drop cap⟩
  | peek cap =>
    have hstep := ParkedQueue.Step.peek a cap
    rw [h.queue, ← peek_eq] at hstep
    exact ⟨a, hstep, h⟩
  | peekAt offset cap =>
    have hstep := ParkedQueue.Step.peekAt a offset cap
    rw [h.queue, ← peekAt_contents] at hstep
    exact ⟨a, hstep, h⟩
  | writeAt offset src =>
    have hwrite := r.writeAt_take offset src
    rw [← hfree] at hwrite
    rw [perform, hwrite]
    exact ⟨_, .writeAt a offset src, h.park offset _⟩
  | commit k =>
    have hlen : ((List.range (min k r.free)).map fun i => r.cell (r.len + i)).length =
        min k r.free := by rw [List.length_map, List.length_range]
    have hcount : (r.commit k).1 =
        ((List.range (min k r.free)).map fun i => r.cell (r.len + i)).length := hlen.symm
    rw [perform, hcount]
    exact ⟨_, .commit a k (hlen.trans (by rw [hfree])) h.shows,
      h.append _ (r.contents_commit k) fun _ _ _ => rfl⟩
  | freeRegions max first second =>
    obtain ⟨-, hsum⟩ := r.length_freeRegions max
    have hshows : a.Shows ((r.freeRegions max).1 ++ (r.freeRegions max).2) := by
      rw [freeRegions_eq]
      exact h.shows
    have h₁ : (first.take (r.freeRegions max).1.length).length ≤ a.room - 0 := by
      rw [List.length_take, hfree]
      omega
    have h₂ : (second.take (r.freeRegions max).2.length).length ≤
        a.room - (r.freeRegions max).1.length := by
      rw [List.length_take, hfree]
      omega
    refine ⟨_, .freeRegions a max first second (hsum.trans (by rw [hfree])) hshows h₁ h₂, ?_⟩
    rw [perform, fillRegions_eq]
    exact (h.park 0 h₁).park _ h₂
  | consume k => exact ⟨_, .consume a k, h.drop k⟩
  | clear => exact ⟨_, .clear a, rfl, nofun⟩

/-- Every sequence of operations on a ring, from any position of its cursors, is a run of the queue
with a parked tail that the ring stands for. -/
theorem ring_refines_parkedQueue (ops : List (ParkedQueue.Op U8)) {a : ParkedQueue U8 N} {r : Ring N}
    (h : Abstracts a r) :
    ∃ a', Proc.Run ParkedQueue.Step a (r.performAll ops).1 a' ∧ Abstracts a' (r.performAll ops).2 := by
  induction ops generalizing a r with
  | nil => exact ⟨a, .nil a, h⟩
  | cons op ops ih =>
    obtain ⟨a₁, hstep, h₁⟩ := perform_step h op
    obtain ⟨a', hrun, h'⟩ := ih h₁
    exact ⟨a', .cons hstep hrun, h'⟩

/-- A ring whose cursors are about to wrap at the width of `usize`. -/
def lateRing : Ring 4 where
  buf := fun _ => 0
  head := BitVec.ofNat 64 (2 ^ 64 - 1)
  tail := BitVec.ofNat 64 (2 ^ 64 - 1)
  len := 0
  len_le := by decide
  tail_eq := rfl

instance : RingCap 4 where
  dvd := by decide

theorem lateRing_refines :
    ∃ a', Proc.Run ParkedQueue.Step .empty (lateRing.performAll [.write [1, 2], .writeAt 1 [4, 5],
      .freeRegions 9 [3] [6], .commit 2, .read 3, .clear]).1 a' ∧
      Abstracts a' (lateRing.performAll [.write [1, 2], .writeAt 1 [4, 5], .freeRegions 9 [3] [6],
        .commit 2, .read 3, .clear]).2 :=
  ring_refines_parkedQueue _ ⟨rfl, nofun⟩

end Ring

end TcpSansIo
