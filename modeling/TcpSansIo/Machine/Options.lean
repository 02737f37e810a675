import TcpSansIo.Machine.Step

/-!
# The options of a segment

What `segment_options` puts on a segment: timestamps if they are in use, and SACK blocks as long as the
segment stays within the MSS.  The blocks are the pending D-SACK, if there is one, and ranges that are
parked.
-/

namespace TcpSansIo

open FixedWidth

variable {P : Params}

namespace Tcb

lemma segmentOptions_eq (len : U32) (t : Tcb P) :
    (segmentOptions len t).2 = { t with dsack := (segmentOptions len t).2.dsack } := by
  unfold segmentOptions
  lift_lets
  extract_lets
  split
  · split <;> rfl
  · rfl

lemma segmentOptions_ts (len : U32) (t : Tcb P) :
    (segmentOptions len t).1.ts.isSome = t.tsEnabled := by
  have h : (segmentOptions len t).1.ts = if t.tsEnabled then some (t.tsVal, t.tsRecent) else none := by
    unfold segmentOptions
    lift_lets
    extract_lets
    split
    · split <;> rfl
    · rfl
  rw [h]
  cases t.tsEnabled <;> rfl

lemma segmentOptions_handshake (len : U32) (t : Tcb P) :
    (segmentOptions len t).1.mss = none ∧ (segmentOptions len t).1.wscale = none ∧
      (segmentOptions len t).1.sackPermitted = false := by
  unfold segmentOptions
  lift_lets
  extract_lets
  split
  · split <;> exact ⟨rfl, rfl, rfl⟩
  · exact ⟨rfl, rfl, rfl⟩

lemma segmentOptions_ok (len : U32) (t : Tcb P) :
    t.OptionsFor len (segmentOptions len t).1 (segmentOptions len t).2.dsack :=
  ⟨⟨_, rfl, segmentOptions_ts len t⟩, rfl⟩

/-- What the timestamp option (or the padding of a lone SACK option) and the SACK header take. -/
def sackOverhead (t : Tcb P) : ℕ := if t.tsEnabled then 12 else 4

/-- Either no SACK blocks, or the pending D-SACK and parked ranges, with room left under the MSS. -/
lemma segmentOptions_sack (len : U32) (t : Tcb P) :
    ((segmentOptions len t).1.sack = SackBlocks.EMPTY ∧ (segmentOptions len t).2.dsack = t.dsack) ∨
      (t.sackEnabled = true ∧ (segmentOptions len t).2.dsack = none ∧
        ∃ rs : List Range, (∀ r ∈ rs, r ∈ t.ooo.ranges) ∧
          (segmentOptions len t).1.sack.blocks =
            t.dsack.toList ++ rs.map (fun r => (r.start, r.stop)) ∧
          8 * (segmentOptions len t).1.sack.len + t.sackOverhead ≤ 40 ∧
          8 * (segmentOptions len t).1.sack.len + t.sackOverhead + len.toNat ≤ t.mssCap.toNat) := by
  generalize hr : segmentOptions len t = r
  unfold segmentOptions at hr
  lift_lets at hr
  extract_lets base opts budget fixed n sb at hr
  split at hr
  case isFalse =>
    rw [← hr]
    exact .inl ⟨rfl, rfl⟩
  case isTrue hsack =>
    split at hr
    case isFalse =>
      rw [← hr]
      exact .inl ⟨rfl, rfl⟩
    case isTrue hn =>
      rw [← hr]
      rw [Bool.and_eq_true] at hsack
      have hsb : sb.blocks = t.dsack.toList := by
        simp only [sb]
        cases t.dsack <;> rfl
      have hsb1 : sb.len ≤ 1 := by
        rw [SackBlocks.len, hsb]
        cases t.dsack <;> simp
      obtain ⟨rs, hlen, hmem, hblocks⟩ := t.ooo.fillSackBlocks_blocks sb (n - sb.len)
      have hn4 : n ≤ 4 := min_le_right _ _
      have htotal : (sb.blocks ++ rs.map fun r => (r.start, r.stop)).length ≤ n := by
        rw [List.length_append, List.length_map]
        change sb.len + rs.length ≤ n
        omega
      rw [List.take_of_length_le (le_trans htotal hn4)] at hblocks
      have hlen' : (t.ooo.fillSackBlocks sb (n - sb.len)).len ≤ n := by
        rw [SackBlocks.len, hblocks]
        exact htotal
      -- The budget in numbers.
      have hfixed : fixed.toNat = t.sackOverhead := by
        change (if t.tsEnabled = true then (12 : U32) else 4).toNat = if t.tsEnabled = true then 12 else 4
        split <;> rfl
      have hbudget : 8 * n + t.sackOverhead ≤ budget.toNat := by
        have h₁ : n ≤ (satSub budget fixed).toNat / 8 := min_le_left _ _
        rw [toNat_satSub, hfixed] at h₁
        omega
      have hcap : budget.toNat ≤ t.mssCap.toNat - len.toNat ∧ budget.toNat ≤ 40 := by
        change (minB (satSub (t.mssCap.setWidth 32) len) 40).toNat ≤ _ ∧ _ ≤ 40
        have hwidth : (t.mssCap.setWidth 32).toNat = t.mssCap.toNat := by
          have := t.mssCap.isLt
          rw [BitVec.toNat_setWidth, Nat.mod_eq_of_lt (by omega)]
        rw [toNat_minB, toNat_satSub, hwidth]
        exact ⟨min_le_left _ _, min_le_right _ _⟩
      refine .inr ⟨hsack.1, rfl, rs, hmem, ?_, ?_, ?_⟩
      · rw [← hsb]
        exact hblocks
      · change 8 * (t.ooo.fillSackBlocks sb (n - sb.len)).len + _ ≤ _
        omega
      · change 8 * (t.ooo.fillSackBlocks sb (n - sb.len)).len + _ + _ ≤ _
        omega

/-- The encoded options of a data segment or pure ACK take the timestamp option, or fit with the data
under the MSS; never more than an option block can hold. -/
lemma segmentOptions_encodedLen (len : U32) (t : Tcb P) :
    (segmentOptions len t).1.encodedLen ≤ 40 ∧
      ((segmentOptions len t).1.encodedLen ≤ (if t.tsEnabled then 12 else 0) ∨
        (segmentOptions len t).1.encodedLen + len.toNat ≤ t.mssCap.toNat) := by
  obtain ⟨hmss, hws, hperm⟩ := segmentOptions_handshake len t
  have hts := segmentOptions_ts len t
  have hraw : (segmentOptions len t).1.rawLen = (if t.tsEnabled then 10 else 0) +
      (if (segmentOptions len t).1.sack.isEmpty then 0
        else 2 + 8 * (segmentOptions len t).1.sack.len) := by
    rw [TcpOptions.rawLen, hmss, hws, hperm, hts]
    simp
  rcases segmentOptions_sack len t with ⟨hnone, -⟩ | ⟨-, -, -, -, -, h40, hcap⟩
  · rw [TcpOptions.encodedLen, hraw, hnone]
    cases t.tsEnabled <;> exact ⟨by decide, .inl (by decide)⟩
  · rw [TcpOptions.encodedLen, hraw]
    unfold sackOverhead at h40 hcap
    cases hte : t.tsEnabled <;> cases he : (segmentOptions len t).1.sack.isEmpty <;>
      simp only [hte, Bool.false_eq_true, if_false, if_true] at h40 hcap ⊢ <;> omega

end Tcb

end TcpSansIo
