import Mathlib

/-!
# Arrays read and written around their end

A fixed array of `n` cells is a function on `Fin n`.  A circular access at position `c` starts in
cell `c % n` and is carried out as at most two straight copies: up to the end of the array, and
from its beginning.  The definitions below are those two copies; the lemmas say what they mean cell
by cell, so that a client never reasons about where the array wraps:

* `readWrapped_eq`: reading `k ≤ n` cells at `c` gives the cells `c, c + 1, …, c + k - 1`;
* `cellAt_copyWrapped`: writing `s` at `c` changes exactly the cells `c, …, c + s.length - 1`.
-/

namespace CircularBuffer

variable {α : Type} {n : ℕ}

/-! ## Straight copies -/

/-- Overwrite the cells from `start` on with `s`; cells past `s` (and past the array) are kept. -/
def copySlice (buf : Fin n → α) (start : ℕ) (s : List α) : Fin n → α :=
  fun i => if start ≤ i.val then (s[i.val - start]?).getD (buf i) else buf i

section Wrapped

variable [NeZero n]

/-- The cell at circular position `c`. -/
def cellAt (buf : Fin n → α) (c : ℕ) : α := buf (Fin.ofNat n c)

/-- The `k` cells from `start` on. -/
def readSlice (buf : Fin n → α) (start k : ℕ) : List α :=
  (List.range k).map fun i => cellAt buf (start + i)

/-! ## Circular copies -/

/-- Write `s` from circular position `c` on: up to the end of the array, then from cell 0. -/
def copyWrapped (buf : Fin n → α) (c : ℕ) (s : List α) : Fin n → α :=
  let first := min s.length (n - c % n)
  copySlice (copySlice buf (c % n) (s.take first)) 0 (s.drop first)

/-- Read `k` cells from circular position `c` on: up to the end of the array, then from cell 0. -/
def readWrapped (buf : Fin n → α) (c k : ℕ) : List α :=
  let first := min k (n - c % n)
  readSlice buf (c % n) first ++ readSlice buf 0 (k - first)

/-! ## Cell by cell -/

lemma cellAt_mod (buf : Fin n → α) (c : ℕ) : cellAt buf (c % n) = cellAt buf c := by
  simp [cellAt, Fin.ofNat]

lemma cellAt_congr (buf : Fin n → α) {c d : ℕ} (h : c % n = d % n) :
    cellAt buf c = cellAt buf d := by
  rw [← cellAt_mod buf c, h, cellAt_mod]

lemma cellAt_copySlice (buf : Fin n → α) (start : ℕ) (s : List α) (c : ℕ) :
    cellAt (copySlice buf start s) c =
      if start ≤ c % n then (s[c % n - start]?).getD (cellAt buf c) else cellAt buf c := rfl

/-- The `i`-th circular position past `c`, as an index of the array. -/
lemma add_mod_cases (c : ℕ) {i : ℕ} (hi : i < n) :
    (i < n - c % n ∧ (c + i) % n = c % n + i) ∨
      (n - c % n ≤ i ∧ (c + i) % n = i - (n - c % n)) := by
  have hn : 0 < n := Nat.pos_of_ne_zero (NeZero.ne n)
  have hc : c % n < n := Nat.mod_lt c hn
  rw [Nat.add_mod, Nat.mod_eq_of_lt hi]
  by_cases h : i < n - c % n
  · exact .inl ⟨h, Nat.mod_eq_of_lt (by omega)⟩
  · refine .inr ⟨by omega, ?_⟩
    rw [Nat.mod_eq_sub_mod (by omega), Nat.mod_eq_of_lt (by omega)]
    omega

/-- A circular write changes the cells it covers, and no other. -/
lemma cellAt_copyWrapped (buf : Fin n → α) (c : ℕ) {s : List α} (hs : s.length ≤ n)
    {i : ℕ} (hi : i < n) :
    cellAt (copyWrapped buf c s) (c + i) = (s[i]?).getD (cellAt buf (c + i)) := by
  have hc : c % n < n := Nat.mod_lt c (Nat.pos_of_ne_zero (NeZero.ne n))
  simp only [copyWrapped, cellAt_copySlice, Nat.zero_le, if_true, Nat.sub_zero]
  rcases add_mod_cases c hi with ⟨hlt, hmod⟩ | ⟨hge, hmod⟩
  -- The cell lies before the end of the array: the second copy does not reach it.
  · have hdrop : (s.drop (min s.length (n - c % n)))[c % n + i]? = none := by
      rw [List.getElem?_drop, List.getElem?_eq_none]
      omega
    rw [hmod, hdrop, Option.getD_none, if_pos (by omega), Nat.add_sub_cancel_left]
    by_cases hlen : i < min s.length (n - c % n)
    · rw [List.getElem?_take_of_lt hlen]
    · rw [List.getElem?_eq_none (by simp; omega), List.getElem?_eq_none (by omega)]
  -- The cell lies past the end: only the second copy can reach it.
  · rw [hmod, List.getElem?_drop]
    have hskip : (if c % n ≤ i - (n - c % n) then
        ((s.take (min s.length (n - c % n)))[i - (n - c % n) - c % n]?).getD (cellAt buf (c + i))
        else cellAt buf (c + i)) = cellAt buf (c + i) := if_neg (by omega)
    rw [hskip]
    by_cases hlen : s.length ≤ n - c % n
    · rw [List.getElem?_eq_none (by omega), List.getElem?_eq_none (by omega)]
    · rw [show min s.length (n - c % n) + (i - (n - c % n)) = i by omega]

/-- A circular read is the cells in order. -/
lemma readWrapped_eq (buf : Fin n → α) (c : ℕ) {k : ℕ} (hk : k ≤ n) :
    readWrapped buf c k = (List.range k).map fun i => cellAt buf (c + i) := by
  have hc : c % n < n := Nat.mod_lt c (Nat.pos_of_ne_zero (NeZero.ne n))
  refine List.ext_getElem (by simp [readWrapped, readSlice]) fun i hi _ => ?_
  have hik : i < k := by simp [readWrapped, readSlice] at hi; omega
  simp only [readWrapped, readSlice, List.getElem_append, List.length_map, List.length_range,
    List.getElem_map, List.getElem_range]
  rcases add_mod_cases c (lt_of_lt_of_le hik hk) with ⟨hlt, hmod⟩ | ⟨hge, hmod⟩
  · rw [dif_pos (by omega)]
    exact cellAt_congr buf (by rw [hmod, Nat.mod_eq_of_lt (by omega)])
  · rw [dif_neg (by omega)]
    refine cellAt_congr buf ?_
    rw [hmod, Nat.mod_eq_of_lt (by omega)]
    omega

@[simp] lemma length_readWrapped (buf : Fin n → α) (c k : ℕ) :
    (readWrapped buf c k).length = k := by
  simp [readWrapped, readSlice]

end Wrapped

end CircularBuffer
