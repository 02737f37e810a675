import TcpSansIo.Core.BigEndian

/-!
# Ones' complement sums of 16-bit words

A sum with end-around carry determines a number modulo `2 ^ 16 - 1`, and tells zero from the other
multiples: adding numbers and folding carries never makes a nonzero sum zero.  `Same` is the
equivalence that says two accumulators stand for the same sum, and `carried` the 16-bit word of a
sum: the only word that stands for it.  Exchanging the bytes of a sum is multiplication by `256` up
to `Same`, which is why a sum may be taken in either byte order.

A change of one bit of the data moves its sum by a power of two below `2 ^ 16`, which is no multiple
of `2 ^ 16 - 1` (`not_dvd_of_flip`).
-/

namespace OnesComplement

open BigEndian

/-- Two accumulators of the same ones' complement sum. -/
def Same (m n : ℕ) : Prop := m % 65535 = n % 65535 ∧ (m = 0 ↔ n = 0)

namespace Same

lemma refl (n : ℕ) : Same n n := ⟨rfl, Iff.rfl⟩

lemma symm {m n : ℕ} (h : Same m n) : Same n m := ⟨h.1.symm, h.2.symm⟩

lemma trans {l m n : ℕ} (h₁ : Same l m) (h₂ : Same m n) : Same l n :=
  ⟨h₁.1.trans h₂.1, h₁.2.trans h₂.2⟩

lemma add {m n m' n' : ℕ} (h : Same m n) (h' : Same m' n') : Same (m + m') (n + n') := by
  obtain ⟨hmod, hzero⟩ := h
  obtain ⟨hmod', hzero'⟩ := h'
  constructor <;> omega

lemma mul_left {m n : ℕ} (h : Same m n) : Same (256 * m) (256 * n) := by
  obtain ⟨hmod, hzero⟩ := h
  constructor <;> omega

lemma carry (n : ℕ) : Same (n % 2 ^ 16 + n / 2 ^ 16) n := by
  constructor <;> omega

/-- Two exchanges of bytes are none. -/
lemma swap_swap (n : ℕ) : Same (256 * (256 * n)) n := by
  constructor <;> omega

/-- Exchanging the bytes of a word multiplies it by `256`. -/
lemma swap (hi lo : ℕ) : Same (lo * 256 + hi) (256 * (hi * 256 + lo)) := by
  constructor <;> omega

/-- Adding the complement of a sum to it gives a positive multiple of `65535`. -/
lemma add_complement {v n : ℕ} (h : Same v n) (hv : v < 2 ^ 16) :
    0 < n + (65535 - v) ∧ (n + (65535 - v)) % 65535 = 0 := by
  obtain ⟨hmod, hzero⟩ := h
  constructor <;> omega

/-- A sum has one 16-bit word. -/
lemma eq_of_lt {v w : ℕ} (h : Same v w) (hv : v < 2 ^ 16) (hw : w < 2 ^ 16) : v = w := by
  obtain ⟨hmod, hzero⟩ := h
  omega

end Same

/-- Add what is carried out of the low word to it, until nothing is carried. -/
def carried (n : ℕ) : ℕ := if n < 2 ^ 16 then n else carried (n % 2 ^ 16 + n / 2 ^ 16)
termination_by n
decreasing_by omega

lemma carried_spec (n : ℕ) : carried n < 2 ^ 16 ∧ Same (carried n) n := by
  induction n using carried.induct with
  | case1 n h =>
    rw [carried, if_pos h]
    exact ⟨h, .refl n⟩
  | case2 n h ih =>
    rw [carried, if_neg h]
    exact ⟨ih.1, ih.2.trans (.carry n)⟩

/-- The word of a sum. -/
lemma Same.eq_carried {v n : ℕ} (h : Same v n) (hv : v < 2 ^ 16) : v = carried n :=
  (h.trans (carried_spec n).2.symm).eq_of_lt hv (carried_spec n).1

lemma Same.carried_eq {m n : ℕ} (h : Same m n) : carried m = carried n :=
  ((carried_spec m).2.trans h).eq_carried (carried_spec m).1

/-- Sum of the big-endian 16-bit words of `data`, the last byte padded with a zero. -/
def sum : List (BitVec 8) → ℕ
  | a :: b :: rest => a.toNat * 256 + b.toNat + sum rest
  | [a] => a.toNat * 256
  | [] => 0

/-- Sums add up over parts of even length. -/
lemma sum_append {xs : List (BitVec 8)} (ys : List (BitVec 8)) (h : xs.length % 2 = 0) :
    sum (xs ++ ys) = sum xs + sum ys := by
  induction xs using sum.induct with
  | case1 a b rest ih =>
    rw [List.length_cons, List.length_cons] at h
    simp only [List.cons_append, sum, ih (by omega)]
    omega
  | case2 a => simp at h
  | case3 => simp [sum]

/-- The two bytes of a word sum to the word. -/
lemma sum_bytes2 (v : BitVec 16) : sum (bytes2 v) = v.toNat := by
  have hv := v.isLt
  simp only [bytes2, sum, BitVec.toNat_ofNat]
  omega

/-- A word of its own among bytes enters the sum with its value. -/
lemma sum_insert {xs : List (BitVec 8)} (v : BitVec 16) (ys : List (BitVec 8))
    (h : xs.length % 2 = 0) : sum (xs ++ bytes2 v ++ ys) = sum (xs ++ bytes2 0 ++ ys) + v.toNat := by
  have hlen : ∀ w : BitVec 16, (xs ++ bytes2 w).length % 2 = 0 := by
    intro w
    rw [List.length_append, length_bytes2]
    omega
  rw [sum_append _ (hlen v), sum_append _ (hlen 0), sum_append _ h, sum_append _ h, sum_bytes2,
    sum_bytes2]
  have hzero : (0 : BitVec 16).toNat = 0 := rfl
  omega

/-! ## One changed bit -/

/-- A byte changed at an even place weighs `256` in the sum, at an odd place `1`. -/
lemma sum_modify (f : BitVec 8 → BitVec 8) {data : List (BitVec 8)} {i : ℕ} (hi : i < data.length) :
    ∃ x, (sum (data.modify i f) + 256 * x.toNat = sum data + 256 * (f x).toNat) ∨
      (sum (data.modify i f) + x.toNat = sum data + (f x).toNat) := by
  induction data using sum.induct generalizing i with
  | case1 a b rest ih =>
    obtain _ | _ | i := i
    · exact ⟨a, .inl (by simp only [List.modify_zero_cons, sum]; omega)⟩
    · exact ⟨b, .inr (by simp only [List.modify_succ_cons, List.modify_zero_cons, sum]; omega)⟩
    · obtain ⟨x, hx⟩ := ih (i := i) (by simpa using hi)
      refine ⟨x, ?_⟩
      simp only [List.modify_succ_cons, sum]
      omega
  | case2 a =>
    obtain rfl : i = 0 := by simpa using hi
    exact ⟨a, .inl (by simp only [List.modify_zero_cons, sum]; omega)⟩
  | case3 => simp at hi

/-- Turn over bit `b` of byte `i`. -/
def flipBit (data : List (BitVec 8)) (i b : ℕ) : List (BitVec 8) :=
  data.modify i fun x => x ^^^ (1#8 <<< b)

@[simp] lemma length_flipBit (data : List (BitVec 8)) (i b : ℕ) :
    (flipBit data i b).length = data.length := List.length_modify ..

lemma toNat_xor_bit : ∀ (x : BitVec 8) (b : ℕ), b < 8 →
    (x ^^^ (1#8 <<< b)).toNat = x.toNat + 2 ^ b ∨ (x ^^^ (1#8 <<< b)).toNat + 2 ^ b = x.toNat := by
  decide +kernel

/-- One bit turned over moves the sum up or down by a power of two below `2 ^ 16`. -/
lemma sum_flipBit {data : List (BitVec 8)} {i b : ℕ} (hi : i < data.length) (hb : b < 8) :
    ∃ k < 16, sum (flipBit data i b) = sum data + 2 ^ k ∨ sum (flipBit data i b) + 2 ^ k = sum data := by
  obtain ⟨x, hx⟩ := sum_modify (fun x => x ^^^ (1#8 <<< b)) hi
  have hbit := toNat_xor_bit x b hb
  rcases hx with hx | hx
  · refine ⟨b + 8, by omega, ?_⟩
    rw [pow_add]
    unfold flipBit
    omega
  · refine ⟨b, by omega, ?_⟩
    unfold flipBit
    omega

/-- A sum that is a multiple of `65535` is not one any more after one bit is turned over. -/
lemma not_dvd_of_flip {data : List (BitVec 8)} {i b seed : ℕ} (hi : i < data.length) (hb : b < 8)
    (h : (sum data + seed) % 65535 = 0) : (sum (flipBit data i b) + seed) % 65535 ≠ 0 := by
  obtain ⟨k, hk, hsum⟩ := sum_flipBit hi hb
  have hpow : 0 < 2 ^ k ∧ 2 ^ k < 65535 :=
    ⟨Nat.two_pow_pos k, lt_of_le_of_lt (Nat.pow_le_pow_right (by decide) (by omega : k ≤ 15))
      (by decide)⟩
  omega

end OnesComplement
