import Mathlib

/-!
# Big-endian encoding of 16- and 32-bit words

Words as lists of bytes, most significant byte first, and back.
-/

namespace BigEndian

/-- The two bytes of a 16-bit word. -/
def bytes2 (v : BitVec 16) : List (BitVec 8) :=
  [BitVec.ofNat 8 (v.toNat / 256), BitVec.ofNat 8 v.toNat]

/-- The 16-bit word of two bytes. -/
def word2 (a b : BitVec 8) : BitVec 16 := BitVec.ofNat 16 (a.toNat * 256 + b.toNat)

/-- The four bytes of a 32-bit word. -/
def bytes4 (v : BitVec 32) : List (BitVec 8) :=
  [BitVec.ofNat 8 (v.toNat / 256 ^ 3), BitVec.ofNat 8 (v.toNat / 256 ^ 2),
    BitVec.ofNat 8 (v.toNat / 256), BitVec.ofNat 8 v.toNat]

/-- The 32-bit word of four bytes. -/
def word4 (a b c d : BitVec 8) : BitVec 32 :=
  BitVec.ofNat 32 (((a.toNat * 256 + b.toNat) * 256 + c.toNat) * 256 + d.toNat)

@[simp] lemma length_bytes2 (v : BitVec 16) : (bytes2 v).length = 2 := rfl

@[simp] lemma length_bytes4 (v : BitVec 32) : (bytes4 v).length = 4 := rfl

/-- Decoding the two bytes of a word gives the word back. -/
lemma word2_bytes2 (v : BitVec 16) :
    word2 (BitVec.ofNat 8 (v.toNat / 256)) (BitVec.ofNat 8 v.toNat) = v := by
  have hv := v.isLt
  apply BitVec.eq_of_toNat_eq
  simp only [word2, BitVec.toNat_ofNat]
  omega

/-- Decoding the four bytes of a word gives the word back. -/
lemma word4_bytes4 (v : BitVec 32) :
    word4 (BitVec.ofNat 8 (v.toNat / 256 ^ 3)) (BitVec.ofNat 8 (v.toNat / 256 ^ 2))
      (BitVec.ofNat 8 (v.toNat / 256)) (BitVec.ofNat 8 v.toNat) = v := by
  have hv := v.isLt
  apply BitVec.eq_of_toNat_eq
  simp only [word4, BitVec.toNat_ofNat]
  omega

lemma toNat_word4 (a b c d : BitVec 8) :
    (word4 a b c d).toNat = ((a.toNat * 256 + b.toNat) * 256 + c.toNat) * 256 + d.toNat := by
  have ha := a.isLt
  have hb := b.isLt
  have hc := c.isLt
  have hd := d.isLt
  rw [word4, BitVec.toNat_ofNat]
  omega

/-- Encoding the word of two bytes gives the bytes back. -/
lemma bytes2_word2 (a b : BitVec 8) : bytes2 (word2 a b) = [a, b] := by
  have ha := a.isLt
  have hb := b.isLt
  simp only [bytes2, word2, BitVec.toNat_ofNat, List.cons.injEq, ← BitVec.toNat_inj, and_true]
  constructor <;> omega

/-- Encoding the word of four bytes gives the bytes back. -/
lemma bytes4_word4 (a b c d : BitVec 8) : bytes4 (word4 a b c d) = [a, b, c, d] := by
  have ha := a.isLt
  have hb := b.isLt
  have hc := c.isLt
  have hd := d.isLt
  simp only [bytes4, toNat_word4, BitVec.toNat_ofNat, List.cons.injEq, ← BitVec.toNat_inj, and_true]
  refine ⟨?_, ?_, ?_, ?_⟩ <;> omega

end BigEndian
