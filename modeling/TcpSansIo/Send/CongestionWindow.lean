import TcpSansIo.Congestion

/-!
# How far the congestion window moves

**Growth.**  A congestion-avoidance increment of one MSS uses up a window of acknowledged bytes, and
the window only grows, so bytes acknowledged in many ACKs never buy more increments than the same
bytes in one (`Grown`, `onAck_split_le`).

**Reduction.**  Within a PRR episode the window is the pipe plus what PRR lets out.  The pipe is bounded
by what was outstanding at the start and sent since, and PRR lets out no more than was delivered, so
the window stays near the flight the episode began with (`Paced`, `prrUpdate_bounded`).
-/

namespace TcpSansIo

open FixedWidth

namespace Reno

/-! ## Growth outside a reduction -/

/-- One round of congestion avoidance: `k` increments, each for a window of bytes. -/
lemma congestionAvoidance_spec (r : Reno) (acked : U32) {mss : U32} (hm : 0 < mss.toNat) :
    (r.congestionAvoidance acked mss).inReduction = r.inReduction ∧
    (r.congestionAvoidance acked mss).ssthresh = r.ssthresh ∧
    ∃ k, (r.congestionAvoidance acked mss).cwnd.toNat =
        min (r.cwnd.toNat + k * mss.toNat) (2 ^ 32 - 1) ∧
      (r.congestionAvoidance acked mss).caAcc.toNat + k * max r.cwnd.toNat mss.toNat =
        min (r.caAcc.toNat + acked.toNat) (2 ^ 32 - 1) ∧
      (r.congestionAvoidance acked mss).caAcc.toNat < max r.cwnd.toNat mss.toNat := by
  have hlt := (satAdd r.caAcc acked).isLt
  have hcwnd := r.cwnd.isLt
  have hw : 0 < max r.cwnd.toNat mss.toNat := lt_max_of_lt_right hm
  unfold congestionAvoidance
  dsimp only
  rw [toNat_maxB]
  split
  case isTrue =>
    refine ⟨rfl, rfl, (satAdd r.caAcc acked).toNat / max r.cwnd.toNat mss.toNat, ?_⟩
    have hused := Nat.div_mul_le_self (satAdd r.caAcc acked).toNat (max r.cwnd.toNat mss.toNat)
    have hmod := Nat.mod_lt (satAdd r.caAcc acked).toNat hw
    have hdiv := Nat.div_add_mod' (satAdd r.caAcc acked).toNat (max r.cwnd.toNat mss.toNat)
    have hstep : (satAdd r.caAcc acked).toNat / max r.cwnd.toNat mss.toNat * mss.toNat ≤
        (satAdd r.caAcc acked).toNat / max r.cwnd.toNat mss.toNat * max r.cwnd.toNat mss.toNat :=
      Nat.mul_le_mul_left _ (le_max_right _ _)
    rw [toNat_satAdd r.cwnd, toNat_satMul, toNat_subIn, toNat_mulIn, BitVec.toNat_udiv, toNat_maxB,
      ← toNat_satAdd]
    generalize (satAdd r.caAcc acked).toNat / max r.cwnd.toNat mss.toNat * mss.toNat = y at *
    generalize (satAdd r.caAcc acked).toNat / max r.cwnd.toNat mss.toNat * max r.cwnd.toNat mss.toNat
      = z at *
    omega
  case isFalse hshort =>
    refine ⟨rfl, rfl, 0, ?_⟩
    rw [← toNat_satAdd]
    dsimp only
    omega

/-- What slow start can still add. -/
def gap (r : Reno) : ℕ := r.ssthresh.toNat - r.cwnd.toNat

/-- An acknowledgment within slow start adds what it acknowledges. -/
lemma onAck_slow {r : Reno} {acked : U32} (hout : r.inReduction = false) (h : acked.toNat ≤ r.gap)
    (mss : U32) :
    (r.onAck acked mss true).inReduction = false ∧
    (r.onAck acked mss true).ssthresh = r.ssthresh ∧
    (r.onAck acked mss true).caAcc = r.caAcc ∧
    (r.onAck acked mss true).cwnd.toNat = r.cwnd.toNat + acked.toNat := by
  unfold onAck
  by_cases hzero : acked = 0
  · rw [if_pos (by simp [hzero]), hzero]
    exact ⟨hout, rfl, rfl, rfl⟩
  have hpos : acked.toNat ≠ 0 := fun heq => hzero (BitVec.eq_of_toNat_eq heq)
  have hslow : r.cwnd.toNat < r.ssthresh.toNat := by
    unfold gap at h
    omega
  have hinc : (minB acked (subIn r.ssthresh r.cwnd hslow.le)).toNat = acked.toNat := by
    rw [toNat_minB, toNat_subIn]
    exact min_eq_left h
  rw [if_neg (by simpa [hout] using hzero)]
  unfold slowStart
  rw [dif_pos hslow]
  dsimp only
  rw [if_pos]
  · refine ⟨hout, rfl, rfl, ?_⟩
    have hbits := r.ssthresh.isLt
    rw [toNat_satAdd, hinc]
    unfold gap at h
    omega
  · refine ⟨hslow, BitVec.eq_of_toNat_eq ?_⟩
    rw [toNat_subIn, hinc, Nat.sub_self]
    rfl

/-- An acknowledgment that slow start does not use up goes on into congestion avoidance. -/
lemma onAck_past {r : Reno} {acked : U32} (hout : r.inReduction = false) (h : r.gap < acked.toNat)
    (mss : U32) :
    ∃ (x : Reno) (rest : U32), r.onAck acked mss true = x.congestionAvoidance rest mss ∧
      x.inReduction = false ∧ x.ssthresh = r.ssthresh ∧ x.caAcc = r.caAcc ∧
      x.cwnd.toNat = r.cwnd.toNat + r.gap ∧ rest.toNat = acked.toNat - r.gap := by
  have hzero : acked ≠ 0 := by
    rintro rfl
    exact absurd h (Nat.not_lt_zero _)
  unfold onAck
  rw [if_neg (by simpa [hout] using hzero)]
  unfold slowStart
  by_cases hslow : r.cwnd.toNat < r.ssthresh.toNat
  · have hinc : (minB acked (subIn r.ssthresh r.cwnd hslow.le)).toNat = r.gap := by
      rw [toNat_minB, toNat_subIn]
      exact min_eq_right h.le
    rw [dif_pos hslow]
    dsimp only
    generalize hrest : subIn acked (minB acked (subIn r.ssthresh r.cwnd hslow.le)) _ = rest
    have hleft : rest.toNat = acked.toNat - r.gap := by rw [← hrest, toNat_subIn, hinc]
    rw [if_neg]
    · refine ⟨_, rest, rfl, hout, rfl, rfl, ?_, hleft⟩
      have hbits := r.ssthresh.isLt
      rw [toNat_satAdd, hinc]
      unfold gap at *
      omega
    · rintro ⟨-, rfl⟩
      change 0 = acked.toNat - r.gap at hleft
      omega
  · have hgap : r.gap = 0 := by
      unfold gap
      omega
    rw [dif_neg hslow]
    dsimp only
    rw [if_neg fun hc => hslow hc.1]
    exact ⟨r, acked, rfl, hout, rfl, rfl, by omega, by omega⟩

/-- Where `n` acknowledged bytes can have taken the window of `r₀`: through slow start up to
`ssthresh`, and from there by `k` increments that each used up a window of bytes. -/
structure Grown (r₀ : Reno) (mss : U32) (n : ℕ) (r : Reno) : Prop where
  outside : r.inReduction = false
  ssthresh : r.ssthresh = r₀.ssthresh
  floor : r₀.cwnd.toNat + min n r₀.gap ≤ r.cwnd.toNat
  steps : ∃ k, r.cwnd.toNat ≤ r₀.cwnd.toNat + min n r₀.gap + k * mss.toNat ∧
    r.caAcc.toNat + k * max (r₀.cwnd.toNat + r₀.gap) mss.toNat ≤ r₀.caAcc.toNat + (n - r₀.gap) ∧
    (n ≤ r₀.gap → k = 0)

namespace Grown

variable {r₀ r : Reno} {mss : U32} {n : ℕ}

lemma refl (h : r₀.inReduction = false) : Grown r₀ mss 0 r₀ where
  outside := h
  ssthresh := rfl
  floor := by omega
  steps := ⟨0, by omega, by omega, fun _ => rfl⟩

/-- Congestion avoidance, once slow start is over. -/
lemma avoid {acked : U32} (h : Grown r₀ mss n r) (hm : 0 < mss.toNat) (hn : r₀.gap ≤ n)
    (ha : 0 < acked.toNat) : Grown r₀ mss (n + acked.toNat) (r.congestionAvoidance acked mss) := by
  obtain ⟨hstate, hssthresh, j, hcwnd, hacc, -⟩ := congestionAvoidance_spec r acked hm
  obtain ⟨k, hceil, hused, -⟩ := h.steps
  have hfloor := h.floor
  have hlt := r.cwnd.isLt
  refine ⟨hstate.trans h.outside, hssthresh.trans h.ssthresh, ?_, k + j, ?_, ?_, ?_⟩
  · rw [hcwnd]
    omega
  · rw [hcwnd, Nat.add_mul]
    omega
  · -- The window has not shrunk since slow start ended, so no increment was cheaper than there.
    have hwindow : j * max (r₀.cwnd.toNat + r₀.gap) mss.toNat ≤ j * max r.cwnd.toNat mss.toNat :=
      Nat.mul_le_mul_left _ (max_le_max (by omega) (le_refl _))
    rw [Nat.add_mul]
    omega
  · omega

/-- One acknowledgment more. -/
lemma onAck (h : Grown r₀ mss n r) (hm : 0 < mss.toNat) (acked : U32) :
    Grown r₀ mss (n + acked.toNat) (r.onAck acked mss true) := by
  have hfloor := h.floor
  obtain ⟨k, hceil, hused, hnone⟩ := h.steps
  have hgap : r.gap = r₀.ssthresh.toNat - r.cwnd.toNat := by rw [gap, h.ssthresh]
  rcases Nat.lt_or_ge n r₀.gap with hslow | hpast
  · -- Slow start: nothing was added so far but what was acknowledged.
    obtain rfl := hnone hslow.le
    have hcwnd : r.cwnd.toNat = r₀.cwnd.toNat + n := by omega
    have hleft : r.gap = r₀.gap - n := by
      unfold gap at *
      omega
    have hacc : r.caAcc.toNat ≤ r₀.caAcc.toNat := by omega
    rcases Nat.lt_or_ge r.gap acked.toNat with hmore | hwithin
    · obtain ⟨x, rest, heq, hout, hss, hx, hxcwnd, hrest⟩ := onAck_past h.outside hmore mss
      have hfull : Grown r₀ mss r₀.gap x :=
        ⟨hout, hss.trans h.ssthresh, by omega, 0, by omega, by rw [hx]; omega, fun _ => rfl⟩
      have havoid : Grown r₀ mss (r₀.gap + rest.toNat) (x.congestionAvoidance rest mss) :=
        hfull.avoid hm (le_refl _) (by omega)
      rw [heq]
      rwa [show r₀.gap + rest.toNat = n + acked.toNat by omega] at havoid
    · obtain ⟨hout, hss, hx, hxcwnd⟩ := onAck_slow h.outside hwithin mss
      exact ⟨hout, hss.trans h.ssthresh, by omega, 0, by omega, by rw [hx]; omega, fun _ => rfl⟩
  · have hleft : r.gap = 0 := by
      unfold gap at *
      omega
    rcases Nat.eq_zero_or_pos acked.toNat with hzero | hpos
    · obtain ⟨hout, hss, hx, hxcwnd⟩ := onAck_slow h.outside (by omega : acked.toNat ≤ r.gap) mss
      rw [hzero, Nat.add_zero]
      exact ⟨hout, hss.trans h.ssthresh, by omega, k, by omega, by rw [hx]; exact hused, hnone⟩
    · obtain ⟨x, rest, heq, hout, hss, hx, hxcwnd, hrest⟩ :=
        onAck_past h.outside (by omega : r.gap < acked.toNat) mss
      have hsame : Grown r₀ mss n x :=
        ⟨hout, hss.trans h.ssthresh, by omega, k, by omega, by rw [hx]; exact hused, hnone⟩
      have havoid : Grown r₀ mss (n + rest.toNat) (x.congestionAvoidance rest mss) :=
        hsame.avoid hm hpast (by omega)
      rw [heq]
      rwa [show n + rest.toNat = n + acked.toNat by omega] at havoid

/-- Any acknowledgments, one after the other. -/
lemma foldl (h : Grown r₀ mss n r) (hm : 0 < mss.toNat) (l : List U32) :
    Grown r₀ mss (n + (l.map BitVec.toNat).sum) (l.foldl (fun r a => r.onAck a mss true) r) := by
  induction l generalizing r n with
  | nil => exact h
  | cons a l ih =>
    rw [List.map_cons, List.sum_cons, ← Nat.add_assoc]
    exact ih (h.onAck hm a)

/-- The window grew by no more than what was acknowledged and what had been saved up. -/
lemma le_add (h : Grown r₀ mss n r) : r.cwnd.toNat ≤ r₀.cwnd.toNat + (r₀.caAcc.toNat + n) := by
  obtain ⟨k, hceil, hused, hnone⟩ := h.steps
  have hstep : k * mss.toNat ≤ k * max (r₀.cwnd.toNat + r₀.gap) mss.toNat :=
    Nat.mul_le_mul_left _ (le_max_right _ _)
  omega

/-- The same bytes in one acknowledgment buy at least as many increments, as long as their count does
not run into the end of its 32 bits. -/
lemma le_onAck (h : Grown r₀ mss n r) (hm : 0 < mss.toNat) (hstart : r₀.inReduction = false)
    (hfits : r₀.caAcc.toNat + n < 2 ^ 32) :
    r.cwnd.toNat ≤ (r₀.onAck (BitVec.ofNat 32 n) mss true).cwnd.toNat := by
  obtain ⟨k, hceil, hused, hnone⟩ := h.steps
  have hn : (BitVec.ofNat 32 n).toNat = n := by
    rw [BitVec.toNat_ofNat, Nat.mod_eq_of_lt (by omega)]
  have hbits := r.cwnd.isLt
  rcases Nat.lt_or_ge r₀.gap n with hmore | hwithin
  · obtain ⟨x, rest, heq, -, -, hx, hxcwnd, hrest⟩ := onAck_past hstart (hn.symm ▸ hmore) mss
    obtain ⟨-, -, j, hcwnd, hacc, hleft⟩ := congestionAvoidance_spec x rest hm
    rw [hx] at hacc
    rw [hxcwnd] at hcwnd hacc hleft
    -- What `k` increments used up fits into what pays for `j`, with less than one to spare.
    have hk : k ≤ j := by
      have hlt : k * max (r₀.cwnd.toNat + r₀.gap) mss.toNat <
          (j + 1) * max (r₀.cwnd.toNat + r₀.gap) mss.toNat := by
        rw [Nat.add_mul, Nat.one_mul]
        omega
      exact Nat.lt_succ_iff.mp (Nat.lt_of_mul_lt_mul_right hlt)
    have hsteps := Nat.mul_le_mul_right mss.toNat hk
    rw [heq, hcwnd]
    omega
  · obtain ⟨-, -, -, hcwnd⟩ := onAck_slow hstart (hn.symm ▸ hwithin) mss
    obtain rfl := hnone hwithin
    rw [hcwnd, hn]
    omega

end Grown

/-- Bytes acknowledged in many ACKs never widen the window more than the same bytes in one, and either
way it grows by at most what was acknowledged and what had been counted before. -/
theorem onAck_split_le (r : Reno) (mss : U32) (l : List U32) (hout : r.inReduction = false)
    (hm : 1 ≤ mss.toNat) (hfits : r.caAcc.toNat + (l.map BitVec.toNat).sum < 2 ^ 32) :
    (l.foldl (fun r a => r.onAck a mss true) r).cwnd.toNat ≤
      (r.onAck (BitVec.ofNat 32 (l.map BitVec.toNat).sum) mss true).cwnd.toNat ∧
    (l.foldl (fun r a => r.onAck a mss true) r).cwnd.toNat ≤
      r.cwnd.toNat + (r.caAcc.toNat + (l.map BitVec.toNat).sum) ∧
    (r.onAck (BitVec.ofNat 32 (l.map BitVec.toNat).sum) mss true).cwnd.toNat ≤
      r.cwnd.toNat + (r.caAcc.toNat + (l.map BitVec.toNat).sum) := by
  have hgrown := (Grown.refl hout).foldl hm l
  have hone := (Grown.refl hout).onAck hm (BitVec.ofNat 32 (l.map BitVec.toNat).sum)
  have hn : (BitVec.ofNat 32 (l.map BitVec.toNat).sum).toNat = (l.map BitVec.toNat).sum := by
    rw [BitVec.toNat_ofNat, Nat.mod_eq_of_lt (by omega)]
  rw [Nat.zero_add] at hgrown
  rw [Nat.zero_add, hn] at hone
  exact ⟨hgrown.le_onAck hm hout hfits, hgrown.le_add, hone.le_add⟩

/-- Three ACKs across the end of slow start. -/
theorem onAck_split_three :
    ([900, 1500, 4000].foldl (fun (r : Reno) a => r.onAck a 1000 true)
        { Reno.new 3000 with ssthresh := 5000 }).cwnd.toNat ≤
      (({ Reno.new 3000 with ssthresh := 5000 } : Reno).onAck 6400 1000 true).cwnd.toNat :=
  (onAck_split_le { Reno.new 3000 with ssthresh := 5000 } 1000 [900, 1500, 4000] (by decide)
    (by decide) (by decide)).1

/-- A count of acknowledged bytes that stops at the end of its 32 bits loses those of one large ACK,
and fewer of them in two. -/
theorem onAck_split_gains :
    let r := ({ Reno.new 1000 with ssthresh := 500 } : Reno).onAck (BitVec.ofNat 32 (2 ^ 32 - 2))
      (BitVec.allOnes 32) true
    r.inReduction = false ∧ 1 ≤ r.cwnd.toNat ∧
      (r.onAck (2 + 8388608) 1 true).cwnd.toNat <
        ([2, 8388608].foldl (fun (r : Reno) a => r.onAck a 1 true) r).cwnd.toNat := by
  decide +kernel

/-! ## Proportional rate reduction -/

/-- PRR's share of what was delivered is at most that, if the target is at most the flight. -/
lemma divCeil_share_le {delivered : U64} {ssthresh flight : U32} (hpos : 0 < flight.toNat)
    (hle : ssthresh.toNat ≤ flight.toNat) :
    (divCeil (satMul delivered (ssthresh.setWidth 64)) (flight.setWidth 64)).toNat ≤
      delivered.toNat := by
  have hmul : delivered.toNat * ssthresh.toNat ≤ delivered.toNat * flight.toNat :=
    Nat.mul_le_mul_left _ hle
  rw [divCeil, BitVec.toNat_ofNat, toNat_satMul, BitVec.toNat_setWidth_of_le (by decide),
    BitVec.toNat_setWidth_of_le (by decide)]
  refine (Nat.mod_le _ _).trans (Nat.lt_succ_iff.mp ?_)
  rw [Nat.div_lt_iff_lt_mul hpos, Nat.succ_mul]
  generalize delivered.toNat * ssthresh.toNat = x at *
  generalize delivered.toNat * flight.toNat = y at *
  omega

/-- What the window becomes: the pipe and what PRR lets out, but at least a segment. -/
lemma toNat_cwnd_prrUpdate (r : Reno) (delivered pipe mss : U32) (safeAck : Bool)
    (h : r.inReduction = true) {n : ℕ}
    (hn : ({ r with prrDelivered := satAdd r.prrDelivered (delivered.setWidth 64) } : Reno).prrSndcnt
      delivered pipe mss safeAck = (n : ℤ)) :
    (r.prrUpdate delivered pipe mss safeAck).cwnd.toNat =
      max (min (pipe.toNat + n) (2 ^ 32 - 1)) mss.toNat := by
  unfold prrUpdate
  rw [if_neg (by simp [h])]
  dsimp only
  rw [hn, toNat_maxB]
  have hpipe := pipe.isLt
  unfold clampI64
  split
  case isTrue hin =>
    rw [BitVec.toNat_ofNat, Nat.mod_eq_of_lt (by omega)]
    omega
  case isFalse hout =>
    rw [BitVec.toNat_allOnes]
    omega

/-- What PRR lets out on an ACK.  Above the target: nothing, or part of what was delivered beyond what
was sent.  Below: no more than up to the target.  If nothing was sent yet, a segment instead of
nothing. -/
lemma prrSndcnt_cases (r : Reno) (delivered pipe mss : U32) (safeAck : Bool)
    (hpos : 0 < r.recoverFs.toNat) (hle : r.ssthresh.toNat ≤ r.recoverFs.toNat) :
    ∃ n : ℕ, r.prrSndcnt delivered pipe mss safeAck = (n : ℤ) ∧
      ((r.ssthresh.toNat < pipe.toNat ∧ n + r.prrOut.toNat ≤ r.prrDelivered.toNat) ∨
        (pipe.toNat ≤ r.ssthresh.toNat ∧ pipe.toNat + n ≤ r.ssthresh.toNat) ∨
        (r.prrOut = 0 ∧ n = mss.toNat) ∨ n = 0) := by
  have hfs : maxB r.recoverFs 1 = r.recoverFs := by
    refine BitVec.eq_of_toNat_eq ?_
    rw [toNat_maxB]
    exact max_eq_left hpos
  have hshare : (divCeil (satMul r.prrDelivered (r.ssthresh.setWidth 64))
      (r.recoverFs.setWidth 64)).toNat ≤ r.prrDelivered.toNat := divCeil_share_le hpos hle
  have hout := r.prrOut.isLt
  unfold prrSndcnt
  dsimp only
  rw [hfs]
  by_cases habove : r.ssthresh.toNat < pipe.toNat
  · rw [dif_pos habove]
    generalize (divCeil (satMul r.prrDelivered (r.ssthresh.setWidth 64))
      (r.recoverFs.setWidth 64)).toNat = ceil at hshare ⊢
    unfold clampI64
    split
    case isTrue hforced => exact ⟨mss.toNat, rfl, .inr (.inr (.inl ⟨hforced.1, rfl⟩))⟩
    case isFalse =>
      rcases Nat.lt_or_ge r.prrOut.toNat ceil with hmore | hnone
      · exact ⟨min ceil (2 ^ 63 - 1) - r.prrOut.toNat, by omega, by omega⟩
      · exact ⟨0, by omega, .inr (.inr (.inr rfl))⟩
  · rw [dif_neg habove]
    generalize (if safeAck = true then _ else _ : ℤ) = limit
    rw [toNat_subIn]
    split
    case isTrue hforced => exact ⟨mss.toNat, rfl, .inr (.inr (.inl ⟨hforced.1, rfl⟩))⟩
    case isFalse =>
      refine ⟨(max (min limit ((r.ssthresh.toNat - pipe.toNat : ℕ) : ℤ)) 0).toNat, by omega, ?_⟩
      exact .inr (.inl ⟨by omega, by omega⟩)

/-- A call made during an episode. -/
inductive PrrCall where
  | update (delivered pipe : U32) (safeAck : Bool)
  | send (bytes : U32)
  deriving Repr, DecidableEq

/-- An episode so far: the window's state, the pipe of the last update and the bytes sent since, and all
bytes sent and delivered. -/
structure Episode where
  reno : Reno
  pipe : ℕ
  since : ℕ
  sent : ℕ
  delivered : ℕ
  updated : Bool
  deriving Repr, DecidableEq

namespace Episode

/-- An episode that begins with `flight` bytes outstanding. -/
def start (r : Reno) (flight : U32) : Episode where
  reno := r
  pipe := flight.toNat
  since := 0
  sent := 0
  delivered := 0
  updated := false

def step (mss : U32) (e : Episode) : PrrCall → Episode
  | .update delivered pipe safeAck =>
    { e with
      reno := e.reno.prrUpdate delivered pipe mss safeAck
      pipe := pipe.toNat
      since := 0
      delivered := e.delivered + delivered.toNat
      updated := true }
  | .send bytes =>
    { e with
      reno := e.reno.onSend bytes
      since := e.since + bytes.toNat
      sent := e.sent + bytes.toNat }

/-- The pipe is at most what was outstanding at the start, with what was sent and without what was
delivered since; and a segment goes out only while the pipe, with what was sent since the last update,
is below the window. -/
def Allowed (flight mss : U32) (e : Episode) : PrrCall → Prop
  | .update delivered pipe _ => pipe.toNat ≤ flight.toNat + e.sent - (e.delivered + delivered.toNat)
  | .send bytes =>
    e.updated = true ∧ bytes.toNat ≤ mss.toNat ∧ e.pipe + e.since < e.reno.cwnd.toNat

/-- The pipe does not rise but by what is sent. -/
def NoRise (e : Episode) : PrrCall → Prop
  | .update _ pipe _ => pipe.toNat ≤ e.pipe + e.since
  | .send _ => True

instance (flight mss : U32) (e : Episode) (c : PrrCall) : Decidable (e.Allowed flight mss c) :=
  match c with
  | .update _ _ _ => inferInstanceAs (Decidable (_ ≤ _))
  | .send _ => inferInstanceAs (Decidable (_ ∧ _ ∧ _))

instance (e : Episode) (c : PrrCall) : Decidable (e.NoRise c) :=
  match c with
  | .update _ _ _ => inferInstanceAs (Decidable (_ ≤ _))
  | .send _ => inferInstanceAs (Decidable True)

/-- Every call of the episode meets `ok` when it is made. -/
def Obeys (ok : Episode → PrrCall → Prop) (mss : U32) : Episode → List PrrCall → Prop
  | _, [] => True
  | e, c :: l => ok e c ∧ Obeys ok mss (e.step mss c) l

instance decidableObeys (ok : Episode → PrrCall → Prop) [∀ e c, Decidable (ok e c)] (mss : U32) :
    (e : Episode) → (l : List PrrCall) → Decidable (Obeys ok mss e l)
  | _, [] => inferInstanceAs (Decidable True)
  | e, c :: l =>
    have := decidableObeys ok mss (e.step mss c) l
    inferInstanceAs (Decidable (_ ∧ _))

/-- The episode after the calls. -/
def after (mss : U32) (e : Episode) (l : List PrrCall) : Episode := l.foldl (step mss) e

/-- What holds throughout an episode that began with enough in flight. -/
structure Paced (flight mss : U32) (e : Episode) : Prop where
  reducing : e.reno.inReduction = true
  target : e.reno.ssthresh.toNat = max (flight.toNat / 2) (2 * mss.toNat)
  fs : e.reno.recoverFs = flight
  out : e.reno.prrOut.toNat = min e.sent (2 ^ 64 - 1)
  acked : e.reno.prrDelivered.toNat = min e.delivered (2 ^ 64 - 1)
  total : e.pipe + e.since < flight.toNat + 2 * mss.toNat
  /-- While the window lets anything out, it leaves room for one segment more. -/
  room : e.updated = true → e.pipe + e.since < e.reno.cwnd.toNat →
    e.reno.cwnd.toNat ≤ flight.toNat + mss.toNat
  bound : e.updated = true → e.reno.cwnd.toNat < flight.toNat + 2 * mss.toNat

namespace Paced

variable {flight mss : U32} {e : Episode}

lemma of_start {r : Reno} {state : CaState} {sndNxt : U32} (hm : 1 ≤ mss.toNat)
    (hflight : 2 * mss.toNat ≤ flight.toNat) (hstate : state = .recovery ∨ state = .cwr) :
    Paced flight mss (start (r.beginReduction state flight sndNxt mss) flight) where
  reducing := by rcases hstate with rfl | rfl <;> rfl
  target := by
    have hbits := flight.isLt
    have htwice : mss.toNat * (2 : U32).toNat = 2 * mss.toNat := Nat.mul_comm _ _
    change (maxB (flight / 2) (satMul mss 2)).toNat = _
    rw [toNat_maxB, toNat_satMul, BitVec.toNat_udiv, htwice]
    change max (flight.toNat / 2) _ = _
    omega
  fs := by
    refine BitVec.eq_of_toNat_eq ?_
    change (maxB flight 1).toNat = _
    rw [toNat_maxB]
    exact max_eq_left (by change 1 ≤ _; omega)
  out := rfl
  acked := rfl
  total := by
    change flight.toNat + 0 < _
    omega
  room := nofun
  bound := nofun

lemma update {delivered pipe : U32} {safeAck : Bool} (h : Paced flight mss e)
    (hm : 1 ≤ mss.toNat) (hflight : 2 * mss.toNat ≤ flight.toNat)
    (hallowed : e.Allowed flight mss (.update delivered pipe safeAck))
    (hrise : e.NoRise (.update delivered pipe safeAck)) :
    Paced flight mss (e.step mss (.update delivered pipe safeAck)) := by
  have hallowed : pipe.toNat ≤ flight.toNat + e.sent - (e.delivered + delivered.toNat) := hallowed
  have hrise : pipe.toNat ≤ e.pipe + e.since := hrise
  have hbits := pipe.isLt
  have hout := h.out
  have htotal := h.total
  have htarget := h.target
  have hdelivered : (satAdd e.reno.prrDelivered (delivered.setWidth 64)).toNat =
      min (e.delivered + delivered.toNat) (2 ^ 64 - 1) := by
    rw [toNat_satAdd, BitVec.toNat_setWidth_of_le (by decide), h.acked]
    omega
  obtain ⟨n, hn, hcases⟩ := prrSndcnt_cases
    { e.reno with prrDelivered := satAdd e.reno.prrDelivered (delivered.setWidth 64) } delivered pipe
    mss safeAck (by rw [h.fs]; omega) (by rw [h.fs]; dsimp only; omega)
  have hcwnd := toNat_cwnd_prrUpdate e.reno delivered pipe mss safeAck h.reducing hn
  dsimp only at hcases
  rw [hdelivered] at hcases
  -- Either the window is near the flight, or it is the pipe and lets nothing out.
  have hnear : (e.reno.prrUpdate delivered pipe mss safeAck).cwnd.toNat ≤ flight.toNat + mss.toNat ∨
      (e.reno.prrUpdate delivered pipe mss safeAck).cwnd.toNat = pipe.toNat := by
    rw [hcwnd]
    rcases hcases with ⟨habove, hshare⟩ | ⟨hbelow, hshare⟩ | ⟨hnone, rfl⟩ | rfl
    · omega
    · omega
    · rw [hnone] at hout
      change 0 = _ at hout
      omega
    · omega
  have hsame : (e.reno.prrUpdate delivered pipe mss safeAck).inReduction = e.reno.inReduction ∧
      (e.reno.prrUpdate delivered pipe mss safeAck).ssthresh = e.reno.ssthresh ∧
      (e.reno.prrUpdate delivered pipe mss safeAck).recoverFs = e.reno.recoverFs ∧
      (e.reno.prrUpdate delivered pipe mss safeAck).prrOut = e.reno.prrOut ∧
      (e.reno.prrUpdate delivered pipe mss safeAck).prrDelivered =
        satAdd e.reno.prrDelivered (delivered.setWidth 64) := by
    unfold prrUpdate
    rw [if_neg (by simp [h.reducing])]
    exact ⟨rfl, rfl, rfl, rfl, rfl⟩
  obtain ⟨hreducing, hssthresh, hfs, hprrOut, hprrDelivered⟩ := hsame
  exact {
    reducing := hreducing.trans h.reducing
    target := by
      change (e.reno.prrUpdate delivered pipe mss safeAck).ssthresh.toNat = _
      rw [hssthresh, htarget]
    fs := hfs.trans h.fs
    out := by
      change (e.reno.prrUpdate delivered pipe mss safeAck).prrOut.toNat = _
      rw [hprrOut]
      exact hout
    acked := by
      change (e.reno.prrUpdate delivered pipe mss safeAck).prrDelivered.toNat = _
      rw [hprrDelivered]
      exact hdelivered
    total := by
      change pipe.toNat + 0 < _
      omega
    room := by
      intro _
      change pipe.toNat + 0 < (e.reno.prrUpdate delivered pipe mss safeAck).cwnd.toNat →
        (e.reno.prrUpdate delivered pipe mss safeAck).cwnd.toNat ≤ _
      omega
    bound := by
      intro _
      change (e.reno.prrUpdate delivered pipe mss safeAck).cwnd.toNat < _
      omega }

lemma send {bytes : U32} (h : Paced flight mss e) (hallowed : e.Allowed flight mss (.send bytes)) :
    Paced flight mss (e.step mss (.send bytes)) := by
  obtain ⟨hupdated, hshort, hlets⟩ := hallowed
  have hroom := h.room hupdated hlets
  have hreno : e.reno.onSend bytes =
      { e.reno with prrOut := satAdd e.reno.prrOut (bytes.setWidth 64) } := by
    unfold onSend
    rw [if_pos h.reducing]
  have hsent : (satAdd e.reno.prrOut (bytes.setWidth 64)).toNat =
      min (e.sent + bytes.toNat) (2 ^ 64 - 1) := by
    rw [toNat_satAdd, BitVec.toNat_setWidth_of_le (by decide), h.out]
    omega
  have htotal : e.pipe + (e.since + bytes.toNat) < flight.toNat + 2 * mss.toNat := by omega
  unfold step
  dsimp only
  rw [hreno]
  exact ⟨h.reducing, h.target, h.fs, hsent, h.acked, htotal, fun _ _ => hroom, h.bound⟩

/-- Any calls that keep to the rules. -/
lemma after (h : Paced flight mss e) (hm : 1 ≤ mss.toNat) (hflight : 2 * mss.toNat ≤ flight.toNat)
    {l : List PrrCall}
    (hl : Obeys (fun e c => e.Allowed flight mss c ∧ e.NoRise c) mss e l) :
    Paced flight mss (e.after mss l) := by
  induction l generalizing e with
  | nil => exact h
  | cons c l ih =>
    obtain ⟨⟨hallowed, hrise⟩, hrest⟩ := hl
    cases c with
    | update delivered pipe safeAck => exact ih (h.update hm hflight hallowed hrise) hrest
    | send bytes => exact ih (h.send hallowed) hrest

end Paced

end Episode

open Episode

/-- Throughout an episode that began with at least two segments in flight, and in which the pipe does
not rise but by what is sent, the window stays within two segments of the flight. -/
theorem prrUpdate_bounded (r : Reno) (flight sndUna sndNxt mss : U32) (hm : 1 ≤ mss.toNat)
    (hflight : 2 * mss.toNat ≤ flight.toNat) (e : Episode)
    (he : e = start (r.enterRecovery flight sndUna sndNxt mss) flight ∨
      e = start (r.enterCwr flight sndNxt mss) flight)
    (calls : List PrrCall)
    (hcalls : Obeys (fun e c => e.Allowed flight mss c ∧ e.NoRise c) mss e calls)
    (hupdated : (e.after mss calls).updated = true) :
    (e.after mss calls).reno.cwnd.toNat <
      max flight.toNat (e.after mss calls).reno.ssthresh.toNat + 2 * mss.toNat := by
  have hpaced : Paced flight mss e := by
    rcases he with rfl | rfl
    · exact Paced.of_start hm hflight (.inl rfl)
    · exact Paced.of_start hm hflight (.inr rfl)
  have hbound := (hpaced.after hm hflight hcalls).bound hupdated
  omega

/-- Ten segments in flight, one of them delivered before and one after a segment goes out. -/
theorem prrUpdate_ten :
    let e := (start ((Reno.new 10000).enterRecovery 10000 0 10000 1000) 10000).after 1000
      [.update 1000 8000 false, .send 1000, .update 1000 8000 true]
    e.reno.cwnd.toNat < max 10000 e.reno.ssthresh.toNat + 2 * 1000 :=
  prrUpdate_bounded (Reno.new 10000) 10000 0 10000 1000 (by decide) (by decide) _ (.inl rfl)
    [.update 1000 8000 false, .send 1000, .update 1000 8000 true] (by decide +kernel)
    (by decide +kernel)

/-- How the window can exceed the larger of flight and `ssthresh` by more than a segment, in an
episode whose pipes are within what was outstanding: with less than two segments in flight at the
start, where `ssthresh` is above the flight and PRR lets out more than was delivered; with a pipe that
rises after much of it had counted as lost; and with the one segment PRR forces out, where a short
segment goes out before a full one. -/
theorem prrUpdate_bursts :
    (let calls : List PrrCall := [.update 1 0 true, .send 1000, .send 1000, .update 1 1999 true,
        .send 1000, .update 1 2998 false]
      let e := start ((Reno.new 10000).enterRecovery 1 0 1 1000) 1
      Obeys (fun e c => e.Allowed 1 1000 c ∧ e.NoRise c) 1000 e calls ∧
        max 1 (e.after 1000 calls).reno.ssthresh.toNat + 2 * 1000 <
          (e.after 1000 calls).reno.cwnd.toNat) ∧
    (let calls : List PrrCall := [.update 1 0 true, .send 1000, .send 1000, .update 1 0 true,
        .send 1000, .send 1000, .update 1 13997 false]
      let e := start ((Reno.new 10000).enterRecovery 10000 0 10000 1000) 10000
      Obeys (fun e c => e.Allowed 10000 1000 c) 1000 e calls ∧
        max 10000 (e.after 1000 calls).reno.ssthresh.toNat + 2 * 1000 <
          (e.after 1000 calls).reno.cwnd.toNat) ∧
    (let calls : List PrrCall := [.update 1 2000 false, .send 999, .send 1000, .update 1 3998 false]
      let e := start ((Reno.new 10000).enterRecovery 2001 0 2001 1000) 2001
      Obeys (fun e c => e.Allowed 2001 1000 c ∧ e.NoRise c) 1000 e calls ∧
        max 2001 (e.after 1000 calls).reno.ssthresh.toNat + 1000 <
          (e.after 1000 calls).reno.cwnd.toNat) := by
  decide +kernel

end Reno

end TcpSansIo
