import Mathlib

/-!
# Fixed-width unsigned arithmetic

`BitVec w` already has the wrapping operations (`+`, `-`, `*`).  What a program in a checked
language uses besides them is collected here, over an arbitrary width:

* **saturating** operations (`satAdd`, `satSub`, `satMul`), each with the `toNat` equation that
  turns it into a `min` or a truncated subtraction that `omega` understands;
* **plain** operations (`addIn`, `subIn`, `mulIn`), which are only correct when they stay in
  range.  They take the proof that they do, so a definition that uses one cannot be written
  down where the range is not known;
* rounding-up division and checked narrowing.
-/

namespace FixedWidth

variable {w : ℕ}

/-! ## Saturating operations -/

/-- Addition that stops at the largest value of the width. -/
def satAdd (a b : BitVec w) : BitVec w :=
  BitVec.ofNat w (min (a.toNat + b.toNat) (2 ^ w - 1))

/-- Subtraction that stops at zero. -/
def satSub (a b : BitVec w) : BitVec w :=
  BitVec.ofNat w (a.toNat - b.toNat)

/-- Multiplication that stops at the largest value of the width. -/
def satMul (a b : BitVec w) : BitVec w :=
  BitVec.ofNat w (min (a.toNat * b.toNat) (2 ^ w - 1))

@[simp] lemma toNat_satAdd (a b : BitVec w) :
    (satAdd a b).toNat = min (a.toNat + b.toNat) (2 ^ w - 1) := by
  have hw : 0 < 2 ^ w := Nat.two_pow_pos w
  rw [satAdd, BitVec.toNat_ofNat, Nat.mod_eq_of_lt (by omega)]

@[simp] lemma toNat_satSub (a b : BitVec w) :
    (satSub a b).toNat = a.toNat - b.toNat := by
  have ha := a.isLt
  rw [satSub, BitVec.toNat_ofNat, Nat.mod_eq_of_lt (by omega)]

@[simp] lemma toNat_satMul (a b : BitVec w) :
    (satMul a b).toNat = min (a.toNat * b.toNat) (2 ^ w - 1) := by
  have hw : 0 < 2 ^ w := Nat.two_pow_pos w
  rw [satMul, BitVec.toNat_ofNat, Nat.mod_eq_of_lt (by omega)]

/-! ## Plain operations

The proof argument is the whole point: the value is the ordinary wrapping one. -/

/-- Plain addition, with the proof that it does not leave the width. -/
def addIn (a b : BitVec w) (_h : a.toNat + b.toNat < 2 ^ w) : BitVec w := a + b

/-- Plain subtraction, with the proof that it does not go below zero. -/
def subIn (a b : BitVec w) (_h : b.toNat ≤ a.toNat) : BitVec w := a - b

/-- Plain multiplication, with the proof that it does not leave the width. -/
def mulIn (a b : BitVec w) (_h : a.toNat * b.toNat < 2 ^ w) : BitVec w := a * b

@[simp] lemma toNat_addIn (a b : BitVec w) (h : a.toNat + b.toNat < 2 ^ w) :
    (addIn a b h).toNat = a.toNat + b.toNat := by
  rw [addIn, BitVec.toNat_add, Nat.mod_eq_of_lt h]

@[simp] lemma toNat_subIn (a b : BitVec w) (h : b.toNat ≤ a.toNat) :
    (subIn a b h).toNat = a.toNat - b.toNat := by
  rw [subIn, BitVec.toNat_sub_of_le h]

@[simp] lemma toNat_mulIn (a b : BitVec w) (h : a.toNat * b.toNat < 2 ^ w) :
    (mulIn a b h).toNat = a.toNat * b.toNat := by
  rw [mulIn, BitVec.toNat_mul, Nat.mod_eq_of_lt h]

/-- The natural-number counterpart of `subIn`, for sizes and indices. -/
def natSubIn (a b : ℕ) (_h : b ≤ a) : ℕ := a - b

@[simp] lemma natSubIn_eq (a b : ℕ) (h : b ≤ a) : natSubIn a b h = a - b := rfl

/-! ## Order, division and narrowing -/

/-- The smaller of two values. -/
def minB (a b : BitVec w) : BitVec w := if a.toNat ≤ b.toNat then a else b

/-- The larger of two values. -/
def maxB (a b : BitVec w) : BitVec w := if a.toNat ≤ b.toNat then b else a

@[simp] lemma toNat_minB (a b : BitVec w) : (minB a b).toNat = min a.toNat b.toNat := by
  unfold minB; split <;> omega

@[simp] lemma toNat_maxB (a b : BitVec w) : (maxB a b).toNat = max a.toNat b.toNat := by
  unfold maxB; split <;> omega

/-- Division rounding up. -/
def divCeil (a b : BitVec w) : BitVec w :=
  BitVec.ofNat w ((a.toNat + b.toNat - 1) / b.toNat)

/-- Narrowing that fails when the value does not fit. -/
def tryNarrow (v : ℕ) (a : BitVec w) : Option (BitVec v) :=
  if a.toNat < 2 ^ v then some (BitVec.ofNat v a.toNat) else none

lemma tryNarrow_toNat {v : ℕ} {a : BitVec w} {b : BitVec v} (h : tryNarrow v a = some b) :
    b.toNat = a.toNat := by
  unfold tryNarrow at h
  split at h
  case isTrue hlt =>
    cases h
    rw [BitVec.toNat_ofNat, Nat.mod_eq_of_lt hlt]
  case isFalse => cases h

/-- One if the flag is set. -/
def ofFlag (w : ℕ) (b : Bool) : BitVec w := if b then 1 else 0

lemma toNat_ofFlag (hw : 0 < w) (b : Bool) : (ofFlag w b).toNat = b.toNat := by
  have h1 : 1 < 2 ^ w := Nat.one_lt_two_pow (by omega)
  cases b with
  | false => simp [ofFlag]
  | true => simp [ofFlag, Nat.mod_eq_of_lt h1]

end FixedWidth
