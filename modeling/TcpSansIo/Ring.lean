import TcpSansIo.Basic
import TcpSansIo.Core.CircularBuffer

/-!
# The byte ring (`ring.rs`)

Both application-facing queues are rings of `N` bytes with a read and a write cursor that only ever
grow (and wrap at the width of `usize`); `N` is a power of two, so the source masks a cursor with
`N - 1` where this file takes it modulo `N`.

The ring's invariants (`len ≤ N`, the write cursor is `len` past the read cursor) are fields of
`Ring`.  `cell r k` is the byte `k` past the read cursor: the readable bytes are the cells below
`len`, and the cells from `len` up to `N` are the free space in which `writeAt` parks bytes that
are not readable yet.  Every operation has one lemma about cells.
-/

namespace TcpSansIo

open CircularBuffer

/-- A power of two that fits a `usize` divides the range of the cursors. -/
class RingCap (n : ℕ) : Prop extends NeZero n where
  dvd : n ∣ 2 ^ 64

instance (P : Params) : RingCap P.BUF where
  dvd := P.buf_dvd

/-- SPSC byte ring with capacity `N`. -/
structure Ring (N : ℕ) where
  buf : Fin N → U8
  head : U64
  tail : U64
  len : ℕ
  len_le : len ≤ N
  tail_eq : tail = head + BitVec.ofNat 64 len

namespace Ring

variable {N : ℕ}

/-- An empty, zeroed ring. -/
def new : Ring N where
  buf := fun _ => 0
  head := 0
  tail := 0
  len := 0
  len_le := Nat.zero_le N
  tail_eq := rfl

def free (r : Ring N) : ℕ := N - r.len

def isEmpty (r : Ring N) : Bool := r.len == 0

/-- Make `n` bytes past the write cursor readable (clipped to the free space). -/
def commit (r : Ring N) (n : ℕ) : ℕ × Ring N :=
  let n := min n r.free
  (n, { r with
    tail := r.tail + BitVec.ofNat 64 n
    len := r.len + n
    len_le := by
      have h₁ := r.len_le
      have h₂ : n ≤ N - r.len := min_le_right _ _
      omega
    tail_eq := by rw [r.tail_eq, BitVec.ofNat_add, BitVec.add_assoc] })

/-- Drop `n` bytes from the head.  Saturates at `len`. -/
def consume (r : Ring N) (n : ℕ) : Ring N :=
  let n := min n r.len
  { r with
    head := r.head + BitVec.ofNat 64 n
    len := r.len - n
    len_le := le_trans (Nat.sub_le _ _) r.len_le
    tail_eq := by
      have hn : n ≤ r.len := min_le_right _ _
      conv_lhs => rw [r.tail_eq, show r.len = n + (r.len - n) by omega, BitVec.ofNat_add]
      rw [BitVec.add_assoc] }

/-- Discard all stored bytes; the buffer contents are not zeroed. -/
def clear (r : Ring N) : Ring N :=
  { r with head := 0, tail := 0, len := 0, len_le := Nat.zero_le N, tail_eq := rfl }

section Access

variable [RingCap N]

/-- Append as many bytes of `src` as will fit; the number copied. -/
def write (r : Ring N) (src : List U8) : ℕ × Ring N :=
  let n := min src.length r.free
  if n = 0 then
    (0, r)
  else
    ({ r with buf := copyWrapped r.buf r.tail.toNat (src.take n) } : Ring N).commit n

/-- The first `min cap len` readable bytes. -/
def peek (r : Ring N) (cap : ℕ) : List U8 :=
  readWrapped r.buf r.head.toNat (min cap r.len)

/-- Copy up to `cap` bytes out, advancing the read cursor. -/
def read (r : Ring N) (cap : ℕ) : List U8 × Ring N :=
  let out := r.peek cap
  (out, r.consume out.length)

/-- Like `peek`, but starting `offset` bytes from the read cursor. -/
def peekAt (r : Ring N) (offset cap : ℕ) : List U8 :=
  if r.len ≤ offset then
    []
  else
    readWrapped r.buf (r.head + BitVec.ofNat 64 offset).toNat (min cap (r.len - offset))

/-- Write `src` into the free region at `offset` bytes past the write cursor without making it
readable.  Bytes that would fall past the free region are clipped; the number written. -/
def writeAt (r : Ring N) (offset : ℕ) (src : List U8) : ℕ × Ring N :=
  if r.free ≤ offset then
    (0, r)
  else
    let n := min src.length (r.free - offset)
    (n, { r with buf := copyWrapped r.buf (r.tail + BitVec.ofNat 64 offset).toNat (src.take n) })

/-- The free space past the write cursor, up to `max` bytes, as at most two slices: the second is
empty unless the space wraps the end of the storage. -/
def freeRegions (r : Ring N) (max : ℕ) : List U8 × List U8 :=
  let n := min max r.free
  let start := r.tail.toNat % N
  let first := min n (N - start)
  (readSlice r.buf start first, readSlice r.buf 0 (n - first))

/-- The ring after its borrower has put `fst` at the beginning of the first slice that
`freeRegions max` lent and `snd` at the beginning of the second. -/
def fillRegions (r : Ring N) (max : ℕ) (fst snd : List U8) : Ring N :=
  let n := min max r.free
  let start := r.tail.toNat % N
  let first := min n (N - start)
  { r with buf := copySlice (copySlice r.buf start (fst.take first)) 0 (snd.take (n - first)) }

/-! ## Cells -/

/-- The byte `k` past the read cursor. -/
def cell (r : Ring N) (k : ℕ) : U8 := cellAt r.buf (r.head.toNat + k)

/-- The readable bytes, oldest first. -/
def contents (r : Ring N) : List U8 := (List.range r.len).map r.cell

@[simp] lemma length_contents (r : Ring N) : r.contents.length = r.len := by
  simp [contents]

lemma getElem_contents (r : Ring N) {i : ℕ} (h : i < r.contents.length) :
    r.contents[i] = r.cell i := by
  simp [contents]

lemma mod_wrap (x : ℕ) : x % 2 ^ 64 % N = x % N := Nat.mod_mod_of_dvd x RingCap.dvd

lemma cursor_mod (c : U64) (k : ℕ) : (c + BitVec.ofNat 64 k).toNat % N = (c.toNat + k) % N := by
  rw [BitVec.toNat_add, BitVec.toNat_ofNat, Nat.add_mod_mod, mod_wrap]

lemma cellAt_cursor (buf : Fin N → U8) (c : U64) (k i : ℕ) :
    cellAt buf ((c + BitVec.ofNat 64 k).toNat + i) = cellAt buf (c.toNat + k + i) := by
  refine cellAt_congr buf ?_
  rw [Nat.add_mod, cursor_mod, ← Nat.add_mod]

lemma cellAt_tail (r : Ring N) (i : ℕ) :
    cellAt r.buf (r.tail.toNat + i) = r.cell (r.len + i) := by
  rw [r.tail_eq, cellAt_cursor, cell, Nat.add_assoc]

@[simp] lemma cell_commit (r : Ring N) (n k : ℕ) : (r.commit n).2.cell k = r.cell k := rfl

lemma cell_consume (r : Ring N) (n k : ℕ) :
    (r.consume n).cell k = r.cell (min n r.len + k) := by
  change cellAt r.buf ((r.head + BitVec.ofNat 64 (min n r.len)).toNat + k) = _
  rw [cellAt_cursor, cell, Nat.add_assoc]

omit [RingCap N] in
/-- Only the slot of a write position matters. -/
lemma copyWrapped_congr (buf : Fin N → U8) {c d : ℕ} (h : c % N = d % N) (s : List U8) :
    copyWrapped buf c s = copyWrapped buf d s := by
  simp only [copyWrapped, h]

/-- What `writeAt` leaves in each cell of the ring. -/
lemma cell_writeAt (r : Ring N) (offset : ℕ) (src : List U8) {k : ℕ} (hk : k < N) :
    (r.writeAt offset src).2.cell k =
      if r.len + offset ≤ k then (src[k - (r.len + offset)]?).getD (r.cell k) else r.cell k := by
  unfold writeAt
  by_cases hfull : r.free ≤ offset
  · rw [if_pos hfull, if_neg (by unfold free at hfull; omega)]
  · rw [if_neg hfull]
    have hfree : offset < N - r.len := by unfold free at hfull; omega
    change cellAt (copyWrapped r.buf (r.tail + BitVec.ofNat 64 offset).toNat _)
      (r.head.toNat + k) = _
    have hstart : (r.tail + BitVec.ofNat 64 offset).toNat % N =
        (r.head.toNat + (r.len + offset)) % N := by
      rw [r.tail_eq, BitVec.add_assoc, ← BitVec.ofNat_add, cursor_mod]
    rw [copyWrapped_congr r.buf hstart]
    by_cases hin : r.len + offset ≤ k
    · rw [if_pos hin]
      have hpos : r.head.toNat + k = r.head.toNat + (r.len + offset) + (k - (r.len + offset)) := by
        omega
      rw [hpos, cellAt_copyWrapped _ _ (by simp [free]; omega) (by omega), ← hpos]
      congr 1
      by_cases hlen : k - (r.len + offset) < src.length
      · rw [List.getElem?_take_of_lt (by unfold free; omega)]
      · rw [List.getElem?_eq_none (by simp; omega), List.getElem?_eq_none (by omega)]
    · rw [if_neg hin]
      -- Below the write: reached from the write position by going once around.
      have hpos : (r.head.toNat + k) % N =
          (r.head.toNat + (r.len + offset) + (N + k - (r.len + offset))) % N := by
        rw [show r.head.toNat + (r.len + offset) + (N + k - (r.len + offset)) =
          r.head.toNat + k + N by omega, Nat.add_mod_right]
      rw [cellAt_congr _ hpos, cellAt_copyWrapped _ _ (by simp [free]; omega) (by omega),
        List.getElem?_eq_none (by simp [free]; omega), Option.getD_none, cell]
      exact cellAt_congr _ hpos.symm

omit [RingCap N] in
@[simp] lemma len_writeAt (r : Ring N) (offset : ℕ) (src : List U8) :
    (r.writeAt offset src).2.len = r.len := by
  unfold writeAt
  split <;> rfl

lemma peekAt_eq (r : Ring N) {offset cap : ℕ} (h : offset + cap ≤ r.len) :
    r.peekAt offset cap = (List.range cap).map fun i => r.cell (offset + i) := by
  have hlen := r.len_le
  unfold peekAt
  by_cases hoff : r.len ≤ offset
  · have : cap = 0 := by omega
    rw [if_pos hoff, this, List.range_zero, List.map_nil]
  · rw [if_neg hoff, Nat.min_eq_left (by omega), readWrapped_eq _ _ (by omega)]
    refine List.map_congr_left fun i _ => ?_
    rw [cellAt_cursor, cell, Nat.add_assoc]

lemma length_peekAt_le (r : Ring N) (offset cap : ℕ) : (r.peekAt offset cap).length ≤ cap := by
  unfold peekAt
  split
  · exact Nat.zero_le _
  · rw [length_readWrapped]
    exact min_le_left _ _

lemma peek_eq (r : Ring N) (cap : ℕ) : r.peek cap = r.contents.take cap := by
  have hlen := r.len_le
  rw [peek, readWrapped_eq _ _ (by omega), contents, ← List.map_take, List.take_range]
  rfl

@[simp] lemma length_peek (r : Ring N) (cap : ℕ) : (r.peek cap).length = min cap r.len := by
  rw [peek, length_readWrapped]

/-- Any peek, as a part of the readable bytes. -/
lemma peekAt_contents (r : Ring N) (offset cap : ℕ) :
    r.peekAt offset cap = (r.contents.drop offset).take cap := by
  have hlen := r.len_le
  unfold peekAt
  split
  case isTrue h => rw [List.drop_of_length_le (by rwa [length_contents]), List.take_nil]
  case isFalse h =>
    rw [readWrapped_eq _ _ (by omega)]
    refine List.ext_getElem (by simp) fun i h₁ h₂ => ?_
    rw [List.getElem_take, List.getElem_drop, getElem_contents, List.getElem_map,
      List.getElem_range, cellAt_cursor, cell, Nat.add_assoc]

lemma contents_consume (r : Ring N) (n : ℕ) : (r.consume n).contents = r.contents.drop n := by
  refine List.ext_getElem (by simp [consume]; omega) fun i h₁ h₂ => ?_
  have hi : i < r.len - min n r.len := by simpa [consume] using h₁
  rw [getElem_contents, cell_consume, List.getElem_drop, getElem_contents]
  congr 1
  omega

/-! ## What is readable after a write -/

lemma contents_writeAt (r : Ring N) (offset : ℕ) (src : List U8) :
    (r.writeAt offset src).2.contents = r.contents := by
  refine List.ext_getElem (by simp) fun i h₁ h₂ => ?_
  have hi : i < r.len := by simpa using h₂
  have hlen := r.len_le
  rw [getElem_contents, getElem_contents, cell_writeAt r offset src (by omega), if_neg (by omega)]

lemma contents_commit (r : Ring N) (n : ℕ) :
    (r.commit n).2.contents =
      r.contents ++ (List.range (min n r.free)).map fun i => r.cell (r.len + i) := by
  change (List.range (r.len + min n r.free)).map r.cell = _
  rw [List.range_add, List.map_append, List.map_map]
  rfl

omit [RingCap N] in
lemma fst_write (r : Ring N) (src : List U8) : (r.write src).1 = min src.length r.free := by
  unfold write
  dsimp only
  split
  case isTrue h => exact h.symm
  case isFalse => exact Nat.min_eq_left (min_le_right _ _)

omit [RingCap N] in
lemma len_write (r : Ring N) (src : List U8) :
    (r.write src).2.len = r.len + min src.length r.free := by
  unfold write
  dsimp only
  split
  case isTrue h => rw [h, Nat.add_zero]
  case isFalse =>
    change r.len + min (min src.length r.free) r.free = _
    rw [Nat.min_assoc, Nat.min_self]

/-- What `write` leaves in each cell of the ring. -/
lemma cell_write (r : Ring N) (src : List U8) {k : ℕ} (hk : k < N) :
    (r.write src).2.cell k =
      if r.len ≤ k then (src[k - r.len]?).getD (r.cell k) else r.cell k := by
  by_cases hzero : min src.length r.free = 0
  · have hwrite : (r.write src).2 = r := by
      unfold write
      dsimp only
      rw [if_pos hzero]
    rw [hwrite]
    split
    case isFalse => rfl
    case isTrue hk' =>
      have hsrc : src.length = 0 := by unfold free at hzero; omega
      rw [List.getElem?_eq_none (by omega), Option.getD_none]
  · have hat := cell_writeAt r 0 src hk
    rw [Nat.add_zero] at hat
    rw [← hat]
    unfold write writeAt
    dsimp only
    rw [if_neg hzero, if_neg (by omega), Nat.sub_zero, BitVec.add_zero]
    rfl

lemma contents_write (r : Ring N) (src : List U8) :
    (r.write src).2.contents = r.contents ++ src.take (r.write src).1 := by
  have hlen := r.len_le
  refine List.ext_getElem (by simp [len_write, fst_write]) fun i h₁ h₂ => ?_
  have hi : i < r.len + min src.length r.free := by simpa [len_write] using h₁
  have hN : i < N := by unfold free at hi; omega
  rw [getElem_contents, cell_write r src hN, List.getElem_append]
  by_cases hin : i < r.len
  · rw [if_neg (by omega), dif_pos (by simpa using hin), getElem_contents]
  · rw [if_pos (by omega), dif_neg (by simpa using hin)]
    simp only [length_contents, List.getElem_take]
    rw [List.getElem?_eq_getElem (by omega), Option.getD_some]

/-! ## Borrowed space -/

/-- What the two lent slices hold. -/
lemma freeRegions_eq (r : Ring N) (max : ℕ) :
    (r.freeRegions max).1 ++ (r.freeRegions max).2 =
      (List.range (min max r.free)).map fun i => r.cell (r.len + i) := by
  have hfree : min max r.free ≤ N := (min_le_right _ _).trans (Nat.sub_le _ _)
  refine (readWrapped_eq r.buf r.tail.toNat hfree).trans ?_
  exact List.map_congr_left fun i _ => r.cellAt_tail i

lemma length_freeRegions (r : Ring N) (max : ℕ) :
    (r.freeRegions max).1.length = min (min max r.free) (N - r.tail.toNat % N) ∧
      (r.freeRegions max).1.length + (r.freeRegions max).2.length = min max r.free := by
  simp only [freeRegions, readSlice, List.length_map, List.length_range]
  exact ⟨trivial, Nat.add_sub_cancel' (min_le_left _ _)⟩

omit [RingCap N] in
lemma copySlice_nil (buf : Fin N → U8) (start : ℕ) : copySlice buf start [] = buf := by
  funext i
  simp [copySlice]

omit [RingCap N] in
/-- A copy that stays before the end of the array. -/
lemma copyWrapped_short (buf : Fin N → U8) {c : ℕ} {s : List U8} (h : s.length ≤ N - c % N) :
    copyWrapped buf c s = copySlice buf (c % N) s := by
  simp only [copyWrapped, Nat.min_eq_left h, List.take_length, List.drop_length, copySlice_nil]

omit [RingCap N] in
lemma writeAt_snd (r : Ring N) (offset : ℕ) (src : List U8) :
    (r.writeAt offset src).2 = { r with
      buf := copyWrapped r.buf (r.tail + BitVec.ofNat 64 offset).toNat
        (src.take (r.free - offset)) } := by
  unfold writeAt
  split
  case isTrue h =>
    rw [Nat.sub_eq_zero_of_le h, List.take_zero, copyWrapped_short _ (Nat.zero_le _), copySlice_nil]
  case isFalse h =>
    dsimp only
    rw [Nat.min_comm, ← List.take_take, List.take_length]

/-- Filling the lent slices is writing past the write cursor, at the offsets where the slices
begin. -/
lemma fillRegions_eq (r : Ring N) (max : ℕ) (fst snd : List U8) :
    r.fillRegions max fst snd =
      ((r.writeAt 0 (fst.take (r.freeRegions max).1.length)).2.writeAt (r.freeRegions max).1.length
        (snd.take (r.freeRegions max).2.length)).2 := by
  obtain ⟨ha, hsum⟩ := r.length_freeRegions max
  have hmod : r.tail.toNat % N < N := Nat.mod_lt _ (Nat.pos_of_ne_zero (NeZero.ne N))
  have hfill : r.fillRegions max fst snd = { r with
      buf := copySlice (copySlice r.buf (r.tail.toNat % N) (fst.take (r.freeRegions max).1.length)) 0
        (snd.take (r.freeRegions max).2.length) } := by
    rw [ha, show (r.freeRegions max).2.length =
      min max r.free - min (min max r.free) (N - r.tail.toNat % N) by omega]
    rfl
  generalize (r.freeRegions max).1.length = a at *
  generalize (r.freeRegions max).2.length = b at *
  have hfree : a + b ≤ r.free := hsum ▸ min_le_right _ _
  have htake : ∀ (l : List U8) {k m : ℕ}, k ≤ m → (l.take k).take m = l.take k := by
    intro l k m h
    rw [List.take_take, Nat.min_eq_right h]
  rw [hfill, writeAt_snd, writeAt_snd]
  unfold free at *
  rw [BitVec.add_zero, htake fst (by omega), htake snd (show b ≤ N - r.len - a by omega),
    copyWrapped_short r.buf (by rw [List.length_take]; omega)]
  by_cases hb : b = 0
  · rw [hb, List.take_zero, copyWrapped_short _ (Nat.zero_le _), copySlice_nil, copySlice_nil]
  · -- the first slice ends with the array, so the second write begins at its first cell
    have hstart : (r.tail + BitVec.ofNat 64 a).toNat % N = 0 := by
      rw [cursor_mod, Nat.add_mod, show a = N - r.tail.toNat % N by omega]
      by_cases h0 : r.tail.toNat % N = 0
      · rw [h0, Nat.sub_zero, Nat.mod_self, Nat.zero_mod]
      · rw [Nat.mod_eq_of_lt (show N - r.tail.toNat % N < N by omega),
          Nat.add_sub_cancel' hmod.le, Nat.mod_self]
    have hroom : b ≤ N := (Nat.le_of_add_left_le hfree).trans (Nat.sub_le _ _)
    rw [copyWrapped_short _ (by rw [List.length_take, hstart]; omega), hstart]

end Access

end Ring

end TcpSansIo
