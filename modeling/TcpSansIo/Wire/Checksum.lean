import TcpSansIo.Wire.Emission
import TcpSansIo.Core.OnesComplement

/-!
# Checksums verify

`onesSum` adds 32-bit words in the byte order of the target and folds once at the end; up to
end-around carries that is the sum of the big-endian 16-bit words, whichever the byte order.  So it
gives the checksum of RFC 1071 (`checksum_rfc1071`); over data that carries its own checksum it is
zero (`checksum_verifies`), and it is not once a bit of that data is turned over
(`checksum_flipBit`).
-/

namespace TcpSansIo

open BigEndian OnesComplement

lemma same_foldLoop (fuel acc : ℕ) : Same (foldLoop fuel acc) acc := by
  induction fuel generalizing acc with
  | zero => exact Same.refl acc
  | succ fuel ih =>
    unfold foldLoop
    split
    · exact (ih _).trans (Same.carry acc)
    · exact Same.refl acc

/-- A round leaves at most the old high part plus a word. -/
lemma foldLoop_succ_lt {fuel acc : ℕ} (hi : ℕ) (hacc : acc / 2 ^ 16 ≤ hi)
    (hrest : ∀ m, m ≤ hi + 65535 → foldLoop fuel m < 2 ^ 16) : foldLoop (fuel + 1) acc < 2 ^ 16 := by
  unfold foldLoop
  split
  · apply hrest
    omega
  · omega

/-- Eight rounds are enough for any sum that fits 64 bits. -/
lemma foldLoop_lt {acc : ℕ} (h : acc < 2 ^ 64) : foldLoop 8 acc < 2 ^ 16 := by
  refine foldLoop_succ_lt (2 ^ 48) (by omega) fun m hm => ?_
  refine foldLoop_succ_lt (2 ^ 32) (by omega) fun m hm => ?_
  refine foldLoop_succ_lt (2 ^ 16) (by omega) fun m hm => ?_
  refine foldLoop_succ_lt 1 (by omega) fun m hm => ?_
  -- what is left is at most one above a word, and then the next round leaves 1
  unfold foldLoop
  split
  · have hm' : m = 65536 := by omega
    subst hm'
    decide
  · omega

lemma wordSum_le (le : Bool) (data : List U8) :
    4 * wordSum le data ≤ (2 ^ 32 - 1) * (data.length + 3) := by
  have hword : ∀ a b c d : U8, neWord le a b c d < 2 ^ 32 := by
    intro a b c d
    unfold neWord
    split <;> exact BitVec.isLt _
  induction data using wordSum.induct with
  | case1 a b c d rest ih =>
    have h := hword a b c d
    simp only [wordSum, List.length_cons]
    omega
  | case2 a b c =>
    have h := hword a b c 0
    simp only [wordSum, List.length_cons, List.length_nil]
    omega
  | case3 a b =>
    have h := hword a b 0 0
    simp only [wordSum, List.length_cons, List.length_nil]
    omega
  | case4 a =>
    have h := hword a 0 0 0
    simp only [wordSum, List.length_cons, List.length_nil]
    omega
  | case5 => simp [wordSum]

/-- The sum of the words never leaves the 64-bit accumulator. -/
lemma wordSum_lt (le : Bool) {data : List U8} (h : data.length < 2 ^ 33) :
    wordSum le data < 2 ^ 64 := by
  have hle := wordSum_le le data
  omega

/-- A word in the target's byte order stands for the two big-endian half words it is read from,
exchanged on a little-endian target. -/
lemma same_neWord (le : Bool) (a b c d : U8) :
    Same (neWord le a b c d)
      ((if le then 256 else 1) * (a.toNat * 256 + b.toNat + (c.toNat * 256 + d.toNat))) := by
  unfold neWord
  cases le with
  | false =>
    simp only [Bool.false_eq_true, if_false, toNat_word4]
    constructor <;> omega
  | true =>
    simp only [if_true, toNat_word4]
    constructor <;> omega

lemma same_wordSum (le : Bool) (data : List U8) :
    Same (wordSum le data) ((if le then 256 else 1) * OnesComplement.sum data) := by
  induction data using wordSum.induct with
  | case1 a b c d rest ih =>
    have h := (same_neWord le a b c d).add ih
    rw [← Nat.mul_add] at h
    simpa only [wordSum, OnesComplement.sum, Nat.add_assoc] using h
  | case2 a b c => simpa [wordSum, OnesComplement.sum] using same_neWord le a b c 0
  | case3 a b => simpa [wordSum, OnesComplement.sum] using same_neWord le a b 0 0
  | case4 a => simpa [wordSum, OnesComplement.sum] using same_neWord le a 0 0 0
  | case5 => exact Same.refl 0

lemma same_fold {acc : ℕ} (h : acc < 2 ^ 64) : Same (fold acc).toNat acc := by
  rw [fold, BitVec.toNat_ofNat, Nat.mod_eq_of_lt (foldLoop_lt h)]
  exact same_foldLoop 8 acc

lemma same_swapBytes (v : U16) : Same (swapBytes v).toNat (256 * v.toNat) := by
  have hv := v.isLt
  have h := Same.swap (v.toNat / 256) (v.toNat % 256)
  have hval : (swapBytes v).toNat = v.toNat % 256 * 256 + v.toNat / 256 := by
    have hhi : v.toNat / 256 % 2 ^ 8 = v.toNat / 256 := by omega
    simp only [swapBytes, word2, BitVec.toNat_ofNat, hhi]
    omega
  rw [hval]
  rwa [show v.toNat / 256 * 256 + v.toNat % 256 = v.toNat by omega] at h

/-- The sum does not depend on the byte order it is taken in. -/
lemma same_onesSum (le : Bool) {data : List U8} (h : data.length < 2 ^ 33) :
    Same (onesSum le data).toNat (OnesComplement.sum data) := by
  have hsame := (same_fold (wordSum_lt le h)).trans (same_wordSum le data)
  unfold onesSum
  cases le with
  | false => simpa using hsame
  | true => exact (same_swapBytes _).trans (hsame.mul_left.trans (Same.swap_swap _))

/-- The Internet checksum of RFC 1071: the complement of the sum of the big-endian 16-bit words of
`data` and of `seed`, folded with end-around carries. -/
def rfc1071 (data : List U8) (seed : U32) : U16 :=
  ~~~ BitVec.ofNat 16 (carried (OnesComplement.sum data + seed.toNat))

lemma checksum_eq (le : Bool) {data : List U8} (seed : U32) (h : data.length < 2 ^ 33) :
    checksum le data seed = rfc1071 data seed := by
  have hacc : (onesSum le data).toNat + seed.toNat < 2 ^ 64 := by
    have h₁ := (onesSum le data).isLt
    have h₂ := seed.isLt
    omega
  have hsame := (same_fold hacc).trans ((same_onesSum le h).add (Same.refl _))
  rw [checksum, rfc1071, ← hsame.eq_carried (BitVec.isLt _), BitVec.ofNat_toNat,
    BitVec.setWidth_eq]

/-- The word-wise sum in the byte order of the target gives the checksum of RFC 1071, and its 64-bit
accumulator does not overflow. -/
theorem checksum_rfc1071 (le : Bool) {data : List U8} (seed : U32) (h : data.length < 2 ^ 33) :
    wordSum le data < 2 ^ 64 ∧ checksum le data seed = rfc1071 data seed :=
  ⟨wordSum_lt le h, checksum_eq le seed h⟩

/-- Seven bytes (a last word of three) and a seed that carries, on a little-endian target. -/
theorem seven_bytes_rfc1071 :
    wordSum true [0xFF, 0xFF, 1, 2, 3, 4, 0xFF] < 2 ^ 64 ∧
      checksum true [0xFF, 0xFF, 1, 2, 3, 4, 0xFF] 0xFFFFFFFF =
        rfc1071 [0xFF, 0xFF, 1, 2, 3, 4, 0xFF] 0xFFFFFFFF :=
  checksum_rfc1071 true 0xFFFFFFFF (by decide)

/-- When a checksum verifies. -/
lemma checksum_eq_zero_iff (le : Bool) {data : List U8} {seed : U32} (h : data.length < 2 ^ 33) :
    checksum le data seed = 0 ↔
      0 < OnesComplement.sum data + seed.toNat ∧
        (OnesComplement.sum data + seed.toNat) % 65535 = 0 := by
  obtain ⟨hlt, hmod, hzero⟩ := carried_spec (OnesComplement.sum data + seed.toNat)
  have hval : (rfc1071 data seed).toNat =
      65535 - carried (OnesComplement.sum data + seed.toNat) := by
    rw [rfc1071, BitVec.toNat_not, BitVec.toNat_ofNat, Nat.mod_eq_of_lt hlt]
  rw [checksum_eq le seed h, ← BitVec.toNat_inj, hval, show (0 : U16).toNat = 0 from rfl]
  omega

/-- A checksum over data that carries its own checksum comes out zero. -/
lemma checksum_verifies (le : Bool) {data data' : List U8} {seed : U32} {c : U16}
    (hc : c = checksum le data seed)
    (hdata : OnesComplement.sum data' = OnesComplement.sum data + c.toNat)
    (h : data.length < 2 ^ 33) (h' : data'.length < 2 ^ 33) : checksum le data' seed = 0 := by
  obtain ⟨hlt, hsame⟩ := carried_spec (OnesComplement.sum data + seed.toNat)
  obtain ⟨hpos, hdvd⟩ := hsame.add_complement hlt
  have hval : c.toNat = 65535 - carried (OnesComplement.sum data + seed.toNat) := by
    rw [hc, checksum_eq le seed h, rfc1071, BitVec.toNat_not, BitVec.toNat_ofNat,
      Nat.mod_eq_of_lt hlt]
  rw [checksum_eq_zero_iff le h', hdata, hval]
  omega

/-- One bit turned over, and a checksum that verified does not verify. -/
lemma checksum_flipBit (le le' : Bool) {data : List U8} {seed : U32} {i b : ℕ}
    (hi : i < data.length) (hb : b < 8) (h : data.length < 2 ^ 33)
    (hok : checksum le data seed = 0) : checksum le' (flipBit data i b) seed ≠ 0 := by
  have hflip : (flipBit data i b).length < 2 ^ 33 := by rwa [length_flipBit]
  rw [checksum_eq_zero_iff le h] at hok
  rw [Ne, checksum_eq_zero_iff le' hflip]
  exact fun hbad => not_dvd_of_flip hi hb hok.2 hbad.2

end TcpSansIo
