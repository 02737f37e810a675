import TcpSansIo.RtxQueue

/-!
# The SACKed bitmap

Bits of the bitmap by slot number: setting one bit, and moving a circular run of bits up one slot a
word at a time, which is what splitting a record does to the slots after it.
-/

namespace TcpSansIo

namespace RtxQueue

/-! ## One bit -/

lemma bitAt_setBit (m : Fin 16 → U64) {p p' : ℕ} (on : Bool) (hp : p < 1024) (hp' : p' < 1024) :
    bitAt (setBit m p on) p' = if p' = p then on else bitAt m p' := by
  unfold bitAt setBit
  by_cases hw : Fin.ofNat 16 (p' / 64) = Fin.ofNat 16 (p / 64)
  · have hdiv : p' / 64 = p / 64 := by
      have h := congrArg Fin.val hw
      simp only [Fin.ofNat] at h
      omega
    rw [hw, Function.update_self]
    have hmask : (1#64 <<< (p % 64)).getLsbD (p' % 64) = decide (p' = p) := by
      rw [BitVec.getLsbD_shiftLeft, BitVec.getLsbD_one]
      by_cases h : p' = p
      · subst h
        simp
        omega
      · simp [h]
        omega
    cases on with
    | true =>
      simp only [if_true, BitVec.getLsbD_or, hmask]
      by_cases h : p' = p <;> simp [h]
    | false =>
      simp only [Bool.false_eq_true, if_false, BitVec.getLsbD_and, BitVec.getLsbD_not, hmask]
      by_cases h : p' = p <;> simp [h]
      omega
  · rw [Function.update_of_ne hw]
    have hne : p' ≠ p := by
      rintro rfl
      exact hw rfl
    rw [if_neg hne]

/-! ## Moving a run of bits -/

lemma getLsbD_lowMask (n b : ℕ) : (lowMask n).getLsbD b = decide (b < n ∧ b < 64) := by
  unfold lowMask
  split
  · rw [BitVec.getLsbD_allOnes]
    by_cases h : b < 64 <;> simp [h]
    omega
  case isFalse hn =>
    have hpow : (2 : ℕ) ^ n < 2 ^ 64 := Nat.pow_lt_pow_right (by decide) (by omega)
    have hnat : ((1#64 <<< n) - 1).toNat = 2 ^ n - 1 := by
      have h₁ : (1#64 <<< n).toNat = 2 ^ n := by
        rw [BitVec.toNat_shiftLeft, BitVec.toNat_ofNat, Nat.one_mod, Nat.shiftLeft_eq, one_mul,
          Nat.mod_eq_of_lt hpow]
      have h₂ := Nat.two_pow_pos n
      rw [BitVec.toNat_sub_of_le]
      · rw [h₁]
        rfl
      · rw [BitVec.le_def, h₁]
        exact h₂
    rw [← BitVec.testBit_toNat, hnat, Nat.testBit_two_pow_sub_one]
    congr 1
    simp
    omega

/-- Where in the bitmap the bit of a slot is, by its word and its place in the word. -/
lemma bitAt_update_word (m : Fin 16 → U64) {W p : ℕ} (v : U64) (hW : W < 16) (hp : p < 1024) :
    bitAt (Function.update m (Fin.ofNat 16 W) v) p =
      if p / 64 = W then v.getLsbD (p % 64) else bitAt m p := by
  unfold bitAt
  split
  case isTrue h => rw [h, Function.update_self]
  case isFalse h =>
    rw [Function.update_of_ne]
    intro hw
    have h' := congrArg Fin.val hw
    simp only [Fin.ofNat] at h'
    omega

/-- The carry out of a word's top bit sets bit 0 of the word it goes to. -/
lemma getLsbD_carry (w src : U64) {n b : ℕ} (hn : 0 < n) (hn' : n ≤ 64) (hb : b < 64) :
    ((w &&& ~~~1#64) ||| ((src &&& lowMask n) >>> (n - 1))).getLsbD b =
      if b = 0 then src.getLsbD (n - 1) else w.getLsbD b := by
  simp only [BitVec.getLsbD_or, BitVec.getLsbD_and, BitVec.getLsbD_not, BitVec.getLsbD_one,
    BitVec.getLsbD_ushiftRight, getLsbD_lowMask]
  by_cases h : b = 0
  · have h₁ : n - 1 < n ∧ n - 1 < 64 := by omega
    simp [h, h₁]
  · have h₁ : ¬ (n - 1 + b < n ∧ n - 1 + b < 64) := by omega
    simp [h₁, h, hb]

/-- The bits that stay in a word move up by one; the bits around them keep their places. -/
lemma getLsbD_stay (word src : U64) {lo stay b : ℕ} (hb : b < 64) :
    ((word &&& ~~~(lowMask stay <<< (lo + 1))) |||
        (((src &&& lowMask stay) <<< (lo + 1)) &&& (lowMask stay <<< (lo + 1)))).getLsbD b =
      if lo < b ∧ b ≤ lo + stay then src.getLsbD (b - (lo + 1)) else word.getLsbD b := by
  simp only [BitVec.getLsbD_or, BitVec.getLsbD_and, BitVec.getLsbD_not,
    BitVec.getLsbD_shiftLeft, getLsbD_lowMask]
  by_cases h : lo < b ∧ b ≤ lo + stay
  · have h₁ : b - (lo + 1) < stay ∧ b - (lo + 1) < 64 := by omega
    have h₂ : ¬ b < lo + 1 := by omega
    simp [h, h₁, h₂, hb]
  · by_cases h₂ : b < lo + 1
    · simp [h, h₂, hb]
    · have h₁ : ¬ (b - (lo + 1) < stay ∧ b - (lo + 1) < 64) := by omega
      simp [h, h₁, h₂, hb]

/-- The bits that stay in word `W`, slot by slot. -/
lemma bitAt_stay (m m₁ : Fin 16 → U64) {src : U64} {W lo stay p : ℕ} (hW : W < 16) (hp : p < 1024)
    (hfit : lo + stay < 64) (hsrc : ∀ b < stay, src.getLsbD b = bitAt m (64 * W + lo + b)) :
    bitAt (Function.update m₁ (Fin.ofNat 16 W)
        ((m₁ (Fin.ofNat 16 W) &&& ~~~(lowMask stay <<< (lo + 1))) |||
          (((src &&& lowMask stay) <<< (lo + 1)) &&& (lowMask stay <<< (lo + 1))))) p =
      if 64 * W + lo < p ∧ p ≤ 64 * W + lo + stay then bitAt m (p - 1) else bitAt m₁ p := by
  rw [bitAt_update_word m₁ _ hW hp, getLsbD_stay _ _ (by omega)]
  by_cases hw : p / 64 = W
  · rw [if_pos hw]
    by_cases h : lo < p % 64 ∧ p % 64 ≤ lo + stay
    · rw [if_pos h, if_pos (by omega), hsrc _ (by omega)]
      congr 1
      omega
    · rw [if_neg h, if_neg (by omega), bitAt, hw]
  · rw [if_neg hw, if_neg (by omega)]

/-- The carry out of the top slot `hi` of its word lands on the slot after it, around the ring. -/
lemma bitAt_carry (m : Fin 16 → U64) {src : U64} {c hi n p : ℕ} (hc : 64 * c ≤ 1024)
    (htop : hi % 64 = 63) (hn : 0 < n ∧ n ≤ 64)
    (hsrc : src.getLsbD (n - 1) = bitAt m hi) (hp : p < 64 * c) :
    bitAt (Function.update m (Fin.ofNat 16 ((hi / 64 + 1) % c))
        ((m (Fin.ofNat 16 ((hi / 64 + 1) % c)) &&& ~~~1#64) ||| ((src &&& lowMask n) >>> (n - 1)))) p =
      if p = (hi + 1) % (64 * c) then bitAt m hi else bitAt m p := by
  have hnext : (hi / 64 + 1) % c < c := Nat.mod_lt _ (by omega)
  have hdest : (hi + 1) % (64 * c) = 64 * ((hi / 64 + 1) % c) := by
    rw [← Nat.mul_mod_mul_left]
    congr 1
    omega
  rw [bitAt_update_word m _ (by omega) (by omega), getLsbD_carry _ _ hn.1 hn.2 (by omega), hdest]
  by_cases hw : p / 64 = (hi / 64 + 1) % c
  · rw [if_pos hw]
    by_cases h0 : p % 64 = 0
    · rw [if_pos h0, if_pos (by omega), hsrc]
    · rw [if_neg h0, if_neg (by omega), bitAt, hw]
  · rw [if_neg hw, if_neg (by omega)]

variable {CAP : ℕ} [RtxCap CAP]

/-- One round, slot by slot: the `n` highest source slots that share a word with the top one move
up one slot each. -/
lemma bitAt_shiftRound (m : Fin 16 → U64) {start left hi n p : ℕ}
    (hhi : hi = (start + left - 1) % CAP) (hn : n = min left (hi % 64 + 1)) (hleft : 0 < left)
    (hp : p < CAP) :
    bitAt (shiftRound CAP m start left).1 p =
      if hi + 1 - n < p ∧ p ≤ hi then bitAt m (p - 1)
      else if p = (hi + 1) % CAP then bitAt m hi
      else bitAt m p := by
  obtain ⟨c, hc⟩ := RtxCap.words (n := CAP)
  have hle := RtxCap.le (n := CAP)
  have hpos : 0 < CAP := Nat.pos_of_ne_zero (NeZero.ne CAP)
  have hhi' : hi < CAP := hhi ▸ Nat.mod_lt _ hpos
  have hdiv : CAP / 64 = c := by omega
  have hn₁ : 0 < n ∧ n ≤ hi % 64 + 1 := by omega
  -- The bits taken out of the top word are those of the `n` slots up to `hi`.
  have hsrc : ∀ b < n, ((m (Fin.ofNat 16 (hi / 64)) >>> (hi % 64 + 1 - n)) &&& lowMask n).getLsbD b =
      bitAt m (64 * (hi / 64) + (hi % 64 + 1 - n) + b) := by
    intro b hb
    have h₁ : (64 * (hi / 64) + (hi % 64 + 1 - n) + b) / 64 = hi / 64 := by omega
    have h₂ : (64 * (hi / 64) + (hi % 64 + 1 - n) + b) % 64 = hi % 64 + 1 - n + b := by omega
    have h₃ : b < n ∧ b < 64 := by omega
    simp [bitAt, getLsbD_lowMask, h₁, h₂, h₃]
  unfold shiftRound
  simp only [← hhi, ← hn, hdiv]
  by_cases htop : hi % 64 = 63
  · have hlast : (m (Fin.ofNat 16 (hi / 64)) >>> (hi % 64 + 1 - n)).getLsbD (n - 1) =
        bitAt m hi := by
      rw [BitVec.getLsbD_ushiftRight, bitAt]
      congr 1
      omega
    have hcarry := bitAt_carry m (p := p) (hc ▸ hle) htop ⟨hn₁.1, by omega⟩ hlast (hc ▸ hp)
    rw [if_pos htop, if_pos htop]
    rw [← hc] at hcarry
    by_cases hstay : 0 < n - 1
    · rw [if_pos hstay, bitAt_stay m _ (by omega) (by omega) (by omega)
        (fun b hb => hsrc b (by omega)), hcarry]
      congr 1
      simp only [eq_iff_iff]
      omega
    · have hnone : ¬ (hi + 1 - n < p ∧ p ≤ hi) := by omega
      rw [if_neg hstay, hcarry, if_neg hnone]
  · have hdest : (hi + 1) % CAP = hi + 1 := Nat.mod_eq_of_lt (by omega)
    rw [if_neg htop, if_neg htop, if_pos hn₁.1,
      bitAt_stay m m (by omega) (by omega) (by omega) hsrc, hdest]
    by_cases h : p = hi + 1
    · rw [if_pos (by omega), if_neg (by omega), if_pos h, h]
      rfl
    · rw [if_neg h]
      congr 1
      simp only [eq_iff_iff]
      omega

/-- One round in ring coordinates: slot `start + j` for `j < CAP`. -/
lemma bitAt_shiftRound_ring (m : Fin 16 → U64) {start left j : ℕ} (hstart : start < CAP)
    (hleft : 0 < left) (hleft' : left < CAP) (hj : j < CAP) :
    bitAt (shiftRound CAP m start left).1 ((start + j) % CAP) =
      if (shiftRound CAP m start left).2 < j ∧ j ≤ left then bitAt m ((start + (j - 1)) % CAP)
      else bitAt m ((start + j) % CAP) := by
  have hpos : 0 < CAP := Nat.pos_of_ne_zero (NeZero.ne CAP)
  obtain ⟨hi, hhi⟩ : ∃ hi, hi = (start + left - 1) % CAP := ⟨_, rfl⟩
  obtain ⟨n, hn⟩ : ∃ n, n = min left (hi % 64 + 1) := ⟨_, rfl⟩
  have hrest : (shiftRound CAP m start left).2 = left - n := by
    rw [hn, hhi]
    rfl
  have wrap : ∀ x, x < 2 * CAP → x % CAP = if x < CAP then x else x - CAP := by
    intro x hx
    split
    · exact Nat.mod_eq_of_lt ‹_›
    · rw [Nat.mod_eq_sub_mod (by omega), Nat.mod_eq_of_lt (by omega)]
  rw [bitAt_shiftRound m hhi hn hleft (Nat.mod_lt _ hpos), hrest]
  rw [wrap _ (by omega)] at hhi
  rw [wrap (start + j) (by omega), wrap (hi + 1) (by split at hhi <;> omega),
    wrap (start + (j - 1)) (by omega)]
  by_cases hmoved : left - n < j ∧ j ≤ left
  · rw [if_pos hmoved]
    split at hhi <;> split_ifs <;> first | omega | (congr 1; omega)
  · rw [if_neg hmoved]
    split at hhi <;> split_ifs <;> first | omega | rfl

omit [RtxCap CAP] in
lemma shiftRound_snd (m : Fin 16 → U64) {start left : ℕ} (hleft : 0 < left) :
    (shiftRound CAP m start left).2 < left := by
  unfold shiftRound
  dsimp only
  omega

/-- Moving the bits of `left` slots up one slot, in ring coordinates. -/
lemma bitAt_shiftSackedBitsUp {start : ℕ} (hstart : start < CAP) {fuel left : ℕ}
    (hfuel : left ≤ fuel) (hleft : left < CAP) (m : Fin 16 → U64) {j : ℕ} (hj : j < CAP) :
    bitAt (shiftSackedBitsUp CAP start fuel left m) ((start + j) % CAP) =
      if 0 < j ∧ j ≤ left then bitAt m ((start + (j - 1)) % CAP)
      else bitAt m ((start + j) % CAP) := by
  -- Rounds go from the top down, so what a round has moved lies above every source still to move.
  induction fuel generalizing left m j with
  | zero =>
    have hnone : ¬ (0 < j ∧ j ≤ left) := by omega
    rw [if_neg hnone]
    rfl
  | succ fuel ih =>
    rw [shiftSackedBitsUp]
    by_cases hzero : left = 0
    · have hnone : ¬ (0 < j ∧ j ≤ left) := by omega
      rw [if_pos hzero, if_neg hnone]
    · have hpos : 0 < left := Nat.pos_of_ne_zero hzero
      have hless : (shiftRound CAP m start left).2 < left := shiftRound_snd m hpos
      rw [if_neg hzero, ih (by omega) (by omega) _ hj]
      by_cases hlow : 0 < j ∧ j ≤ (shiftRound CAP m start left).2
      · have hkept : ¬ ((shiftRound CAP m start left).2 < j - 1 ∧ j - 1 ≤ left) := by omega
        rw [if_pos hlow, if_pos ⟨hlow.1, by omega⟩,
          bitAt_shiftRound_ring m hstart hpos hleft (by omega), if_neg hkept]
      · rw [if_neg hlow, bitAt_shiftRound_ring m hstart hpos hleft hj]
        congr 1
        simp only [eq_iff_iff]
        omega

/-- A round stays inside the words in use. -/
lemma bitAt_shiftRound_above (m : Fin 16 → U64) {start left p : ℕ} (hcap : CAP ≤ p) (hp : p < 1024) :
    bitAt (shiftRound CAP m start left).1 p = bitAt m p := by
  obtain ⟨c, hc⟩ := RtxCap.words (n := CAP)
  have hpos : 0 < CAP := Nat.pos_of_ne_zero (NeZero.ne CAP)
  have hhi : (start + left - 1) % CAP < CAP := Nat.mod_lt _ hpos
  have hnext : ((start + left - 1) % CAP / 64 + 1) % (CAP / 64) < CAP / 64 :=
    Nat.mod_lt _ (by omega)
  have hcarry : ∀ v, bitAt (Function.update m
      (Fin.ofNat 16 (((start + left - 1) % CAP / 64 + 1) % (CAP / 64))) v) p = bitAt m p := by
    intro v
    rw [bitAt_update_word m v (by omega) hp, if_neg (by omega)]
  unfold shiftRound
  dsimp only
  split_ifs
  all_goals try rw [bitAt_update_word _ _ (by omega) hp, if_neg (by omega)]
  all_goals first | rfl | exact hcarry _

lemma bitAt_shiftSackedBitsUp_above (m : Fin 16 → U64) {start fuel left p : ℕ} (hcap : CAP ≤ p)
    (hp : p < 1024) : bitAt (shiftSackedBitsUp CAP start fuel left m) p = bitAt m p := by
  induction fuel generalizing left m with
  | zero => rfl
  | succ fuel ih =>
    rw [shiftSackedBitsUp]
    split
    · rfl
    · rw [ih, bitAt_shiftRound_above m hcap hp]

/-- The word-wise move is the move bit by bit: each of the `count` source bits stands one slot
further on, around the ring, and no other bit of the map has changed.  `count` rounds are enough. -/
theorem shiftSackedBitsUp_bitwise {start count fuel : ℕ} (hstart : start < CAP) (hcount : count < CAP)
    (hfuel : count ≤ fuel) (m : Fin 16 → U64) :
    (∀ k < count, bitAt (shiftSackedBitsUp CAP start fuel count m) ((start + k + 1) % CAP) =
      bitAt m ((start + k) % CAP)) ∧
    ∀ p < 1024, (∀ k < count, p ≠ (start + k + 1) % CAP) →
      bitAt (shiftSackedBitsUp CAP start fuel count m) p = bitAt m p := by
  refine ⟨fun k hk => ?_, fun p hp hout => ?_⟩
  · have hmove := bitAt_shiftSackedBitsUp hstart hfuel hcount m (j := k + 1) (by omega)
    rwa [if_pos (by omega)] at hmove
  · by_cases hcap : CAP ≤ p
    · exact bitAt_shiftSackedBitsUp_above m hcap hp
    -- A slot of the ring is some `j` slots past `start`.
    obtain ⟨j, hj, hslot⟩ : ∃ j < CAP, p = (start + j) % CAP := by
      by_cases hle : start ≤ p
      · exact ⟨p - start, by omega, by rw [Nat.add_sub_cancel' hle, Nat.mod_eq_of_lt (by omega)]⟩
      · refine ⟨CAP + p - start, by omega, ?_⟩
        rw [show start + (CAP + p - start) = p + CAP by omega, Nat.add_mod_right,
          Nat.mod_eq_of_lt (by omega)]
    have hkept : ¬ (0 < j ∧ j ≤ count) := by
      rintro ⟨hpos, hle⟩
      refine hout (j - 1) (by omega) ?_
      rw [hslot, show start + (j - 1) + 1 = start + j by omega]
    rw [hslot, bitAt_shiftSackedBitsUp hstart hfuel hcount m hj, if_neg hkept]

/-- In a ring of one word the carry out of the top slot lands in the word being moved. -/
theorem oneWord_shift_bitwise :
    (∀ k < 3, bitAt (shiftSackedBitsUp 64 62 3 3 fun _ => 0xC000000000000001) ((62 + k + 1) % 64) =
      bitAt (fun _ => 0xC000000000000001) ((62 + k) % 64)) ∧
    ∀ p < 1024, (∀ k < 3, p ≠ (62 + k + 1) % 64) →
      bitAt (shiftSackedBitsUp 64 62 3 3 fun _ => 0xC000000000000001) p =
        bitAt (fun _ => 0xC000000000000001) p :=
  shiftSackedBitsUp_bitwise (by decide) (by decide) le_rfl _

end RtxQueue

end TcpSansIo
