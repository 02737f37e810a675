import TcpSansIo.Listen.Settle
import TcpSansIo.Tcb.Host

/-!
# SYN cookies

A listener whose half-open slot is busy answers a SYN with a cookie SYN-ACK and keeps nothing of it.
When the ACK comes back, everything is recovered from it: the peer's MSS and the time bucket from the
sequence number, and the SYN's other options from the echoed timestamp.

* `CookieSynack t syn e`: the busy listener `t` answers `syn` with `e`.
* `Promotes u ack opts`: `ack` is a valid cookie ACK at `u`, which opens the connection.
* `KeyKept`: between the two, the key the cookie was made with stays the current one or, after one
  rotation, the previous one.

The previous key is valid while the clock is before a deadline counted from the rotation, which saturates
at the end of the clock: a rotation at the last tick, or while the clock is set back, retires it too early
(`rotation_retires_key_early`).  And a timestamp of 0 counts as none echoed, so the options of a SYN-ACK
whose TSval happens to be 0 are lost (`zero_timestamp_loses_options`).
-/

namespace TcpSansIo

open Proc FixedWidth

variable {P : Params}

/-! ## What a cookie carries -/

/-- A fold that keeps the last index whose entry is at most `p`. -/
lemma foldl_last (p : ℕ) (l : List U16) (start best : ℕ) :
    ((l.zipIdx start).foldl (fun best m => if m.1.toNat ≤ p then m.2 else best) best = best ∧
        ∀ x ∈ l, p < x.toNat) ∨
      ∃ i, ∃ h : i < l.length,
        (l.zipIdx start).foldl (fun best m => if m.1.toNat ≤ p then m.2 else best) best = start + i ∧
          l[i].toNat ≤ p ∧ ∀ j, ∀ hj : j < l.length, i < j → p < l[j].toNat := by
  induction l generalizing start best with
  | nil => exact .inl ⟨rfl, by simp⟩
  | cons x l ih =>
    rw [List.zipIdx_cons, List.foldl_cons]
    rcases ih (start + 1) (if x.toNat ≤ p then start else best) with
      ⟨hr, hall⟩ | ⟨i, hi, hr, hle, hlater⟩
    · rw [hr]
      split
      case isTrue hx =>
        refine .inr ⟨0, by simp, rfl, hx, fun j hj hlt => ?_⟩
        obtain ⟨j, rfl⟩ := Nat.exists_eq_succ_of_ne_zero hlt.ne'
        exact hall _ (List.getElem_mem _)
      case isFalse hx =>
        refine .inl ⟨rfl, ?_⟩
        simpa using ⟨not_le.mp hx, hall⟩
    · refine .inr ⟨i + 1, by simpa using hi, ?_, hle, fun j hj hlt => ?_⟩
      · dsimp only at hr ⊢
        rw [hr]
        omega
      · obtain ⟨j, rfl⟩ := Nat.exists_eq_succ_of_ne_zero (by omega : j ≠ 0)
        exact hlater j (by simpa using hj) (by omega)

/-- `mss` is the largest table entry not above the offer, 536 without an offer or below every entry. -/
def Quantised (offer : Option U16) (mss : U16) : Prop :=
  match offer with
  | none => mss = 536
  | some m =>
    if ∃ x ∈ COOKIE_MSS_TABLE, x.toNat ≤ m.toNat then
      mss ∈ COOKIE_MSS_TABLE ∧ mss.toNat ≤ m.toNat ∧
        ∀ x ∈ COOKIE_MSS_TABLE, x.toNat ≤ m.toNat → x.toNat ≤ mss.toNat
    else mss = 536

/-- The index a cookie carries for an offered MSS. -/
def offerIndex (offer : Option U16) : U8 :=
  cookieMssIndex (maxB (offer.getD DEFAULT_PEER_MSS) MIN_PEER_MSS)

lemma table_sorted : COOKIE_MSS_TABLE.Pairwise fun a b => a.toNat ≤ b.toNat := by decide

lemma cookieMssIndex_cases (m : U16) :
    (cookieMssIndex m = 0 ∧ ∀ x ∈ COOKIE_MSS_TABLE, m.toNat < x.toNat) ∨
      ∃ i, ∃ h : i < COOKIE_MSS_TABLE.length, cookieMssIndex m = BitVec.ofNat 8 i ∧
        COOKIE_MSS_TABLE[i].toNat ≤ m.toNat ∧
        ∀ x ∈ COOKIE_MSS_TABLE, x.toNat ≤ m.toNat → x.toNat ≤ COOKIE_MSS_TABLE[i].toNat := by
  rcases foldl_last m.toNat COOKIE_MSS_TABLE 0 0 with ⟨hr, hall⟩ | ⟨i, hi, hr, hle, hlater⟩
  · exact .inl ⟨by rw [cookieMssIndex, hr]; rfl, hall⟩
  · refine .inr ⟨i, hi, by rw [cookieMssIndex, hr, Nat.zero_add], hle, fun x hx hxm => ?_⟩
    obtain ⟨j, hj, rfl⟩ := List.getElem_of_mem hx
    rcases lt_trichotomy j i with hlt | rfl | hlt
    · exact List.pairwise_iff_getElem.mp table_sorted j i hj hi hlt
    · exact le_refl _
    · exact absurd hxm (not_le.mpr (hlater j hj hlt))

lemma cookieMssIndex_lt (m : U16) : (cookieMssIndex m).toNat < 8 := by
  rcases cookieMssIndex_cases m with ⟨h, -⟩ | ⟨i, hi, h, -⟩
  · rw [h]
    decide
  · have hlen : COOKIE_MSS_TABLE.length = 8 := rfl
    rw [h, BitVec.toNat_ofNat]
    omega

lemma cookieMssFromIndex_ofNat {i : ℕ} (hi : i < COOKIE_MSS_TABLE.length) :
    cookieMssFromIndex (BitVec.ofNat 8 i) = COOKIE_MSS_TABLE[i] := by
  revert hi
  revert i
  decide

lemma table_ge {x : U16} (hx : x ∈ COOKIE_MSS_TABLE) : 536 ≤ x.toNat := by
  have hall : (COOKIE_MSS_TABLE.all fun x => decide (536 ≤ x.toNat)) = true := by decide
  exact of_decide_eq_true (List.all_eq_true.mp hall x hx)

/-- The table brings back the offer, rounded down. -/
lemma quantised_offerIndex (offer : Option U16) :
    Quantised offer (maxB (cookieMssFromIndex (offerIndex offer)) MIN_PEER_MSS) := by
  have hmin : MIN_PEER_MSS.toNat = 64 := rfl
  have hlow : (536 : U16) ∈ COOKIE_MSS_TABLE := by decide
  rcases cookieMssIndex_cases (maxB (offer.getD DEFAULT_PEER_MSS) MIN_PEER_MSS) with
    ⟨hidx, hall⟩ | ⟨i, hi, hidx, hle, hmax⟩
  · -- Below every entry.
    rw [offerIndex, hidx, show maxB (cookieMssFromIndex 0) MIN_PEER_MSS = 536 from by decide]
    cases offer with
    | none => rfl
    | some m =>
      refine (if_neg ?_).mpr rfl
      rintro ⟨x, hx, hxm⟩
      have hlt := hall x hx
      rw [Option.getD_some, toNat_maxB] at hlt
      omega
  · have hentry := table_ge (List.getElem_mem hi)
    have hkeep : maxB (cookieMssFromIndex (BitVec.ofNat 8 i)) MIN_PEER_MSS = COOKIE_MSS_TABLE[i] := by
      rw [cookieMssFromIndex_ofNat hi]
      apply BitVec.eq_of_toNat_eq
      rw [toNat_maxB]
      omega
    rw [offerIndex, hidx, hkeep]
    rw [toNat_maxB, hmin] at hle hmax
    cases offer with
    | none =>
      have hdefault : DEFAULT_PEER_MSS.toNat = 536 := rfl
      rw [Option.getD_none] at hle
      apply BitVec.eq_of_toNat_eq
      rw [show (536 : U16).toNat = 536 from rfl]
      omega
    | some m =>
      rw [Option.getD_some] at hle hmax
      refine (if_pos ⟨_, List.getElem_mem hi, by omega⟩).mpr ⟨List.getElem_mem hi, by omega, ?_⟩
      intro x hx hxm
      exact hmax x hx (by omega)

/-- The option bits of a cookie SYN-ACK's TSval: the shift (15 without window scaling), SACK and
ECN. -/
def optBits (shift : ℕ) (sack ecn : Bool) : U32 :=
  BitVec.ofNat 32 shift ||| (if sack then TS_OPT_SACK else 0) ||| (if ecn then TS_OPT_ECN else 0)

lemma optBits_spec : ∀ (shift : Fin 16) (sack ecn : Bool),
    (optBits shift sack ecn).toNat < 64 ∧
      optBits shift sack ecn &&& TS_OPT_WS_MASK = BitVec.ofNat 32 shift ∧
      (optBits shift sack ecn &&& TS_OPT_SACK != 0) = sack ∧
      (optBits shift sack ecn &&& TS_OPT_ECN != 0) = ecn ∧
      (optBits shift sack ecn = 0 → shift = 0 ∧ sack = false ∧ ecn = false) := by
  decide

/-- The shift a SYN-ACK's TSval carries. -/
def shiftOf (wscale : Option U8) : Fin 16 :=
  match wscale with
  | some ws => Fin.ofNat 16 (minB ws 14).toNat
  | none => 15

lemma toNat_and_mask (x : U32) : (x &&& TS_OPT_MASK).toNat = x.toNat % 64 :=
  Nat.and_two_pow_sub_one_eq_mod x.toNat 6

lemma low_bits (x : U32) {bits : U32} (h : bits.toNat < 64) :
    ((x &&& ~~~TS_OPT_MASK) ||| bits) &&& TS_OPT_MASK = bits := by
  apply BitVec.eq_of_getLsbD_eq
  intro i hi
  have hbit : 6 ≤ i → bits.getLsbD i = false := fun hi =>
    Nat.testBit_lt_two_pow (lt_of_lt_of_le h (Nat.pow_le_pow_right (n := 2) (by decide) hi))
  have hmask : TS_OPT_MASK.getLsbD i = decide (i < 6) := by
    interval_cases i <;> rfl
  rw [BitVec.getLsbD_and, BitVec.getLsbD_or, BitVec.getLsbD_and, BitVec.getLsbD_not, hmask]
  by_cases hlow : i < 6
  · simp [hlow]
  · simp [hlow, hbit (not_lt.mp hlow)]

lemma high_bits (x : U32) : (x &&& ~~~TS_OPT_MASK).toNat = 64 * (x.toNat / 64) := by
  have hlow := toNat_and_mask (x &&& ~~~TS_OPT_MASK)
  have hzero : x &&& ~~~TS_OPT_MASK &&& TS_OPT_MASK = 0 := by
    have h := low_bits x (show (0 : U32).toNat < 64 by decide)
    rwa [show (0 : U32) = 0#32 from rfl, BitVec.or_zero] at h
  have hhigh : (x &&& ~~~TS_OPT_MASK) >>> 6 = x >>> 6 := by
    apply BitVec.eq_of_getLsbD_eq
    intro i hi
    have hmask : TS_OPT_MASK.getLsbD (6 + i) = false :=
      Nat.testBit_lt_two_pow (lt_of_lt_of_le (b := 2 ^ 6) (by decide)
        (Nat.pow_le_pow_right (n := 2) (by decide) (by omega)))
    rw [BitVec.getLsbD_ushiftRight, BitVec.getLsbD_ushiftRight, BitVec.getLsbD_and,
      BitVec.getLsbD_not, hmask]
    by_cases h : 6 + i < 32
    · simp [h]
    · simp [BitVec.getLsbD_of_ge x (6 + i) (not_lt.mp h)]
  have hdiv := congrArg BitVec.toNat hhigh
  rw [BitVec.toNat_ushiftRight, BitVec.toNat_ushiftRight, Nat.shiftRight_eq_div_pow,
    Nat.shiftRight_eq_div_pow] at hdiv
  rw [hzero] at hlow
  have h0 : (0 : U32).toNat = 0 := rfl
  omega

lemma toNat_shiftOf (wscale : Option U8) :
    ((shiftOf wscale : Fin 16) : ℕ) = (wscale.map fun ws => (minB ws 14).toNat).getD 15 := by
  cases wscale with
  | none => rfl
  | some ws =>
    have hle : (minB ws 14).toNat ≤ 14 := by
      rw [toNat_minB]
      exact Nat.min_le_right _ _
    exact Nat.mod_eq_of_lt (by omega)

/-- A TSval is the clock with its low bits replaced, one step back if that is ahead of the clock. -/
lemma cookieTsval_eq (seg : Segment) (nowTs : U32) :
    ∃ x, Tcb.cookieTsval seg nowTs = (if seqGt x nowTs then x - 64 else x) ∧
      x = (nowTs &&& ~~~TS_OPT_MASK) ||| optBits (shiftOf seg.options.wscale)
        seg.options.sackPermitted (seg.flags.ece && seg.flags.cwr) := by
  refine ⟨_, rfl, ?_⟩
  congr 3
  apply BitVec.eq_of_toNat_eq
  rw [toNat_shiftOf]
  cases seg.options.wscale with
  | none => rfl
  | some ws =>
    have hle := (minB ws 14).isLt
    simp only [BitVec.toNat_setWidth, BitVec.toNat_ofNat, Option.map_some, Option.getD_some]

/-- The low bits of the TSval are the SYN's options. -/
lemma cookieTsval_mask (seg : Segment) (nowTs : U32) :
    Tcb.cookieTsval seg nowTs &&& TS_OPT_MASK =
      optBits (shiftOf seg.options.wscale) seg.options.sackPermitted
        (seg.flags.ece && seg.flags.cwr) := by
  obtain ⟨x, hts, hx⟩ := cookieTsval_eq seg nowTs
  have hlow := low_bits nowTs (optBits_spec (shiftOf seg.options.wscale)
    seg.options.sackPermitted (seg.flags.ece && seg.flags.cwr)).1
  rw [← hx] at hlow
  rw [hts, ← hlow]
  split
  · apply BitVec.eq_of_toNat_eq
    rw [toNat_and_mask, toNat_and_mask]
    bv_omega
  · rfl

/-- The TSval of a cookie SYN-ACK is 0 only for a SYN that offers a shift of 0 and nothing else, while
the clock's timestamp is below 64. -/
lemma cookieTsval_zero {seg : Segment} {nowTs : U32} (hzero : Tcb.cookieTsval seg nowTs = 0) :
    seg.options.wscale = some 0 ∧ seg.options.sackPermitted = false ∧
      (seg.flags.ece && seg.flags.cwr) = false ∧ nowTs.toNat < 64 := by
  have hmask := cookieTsval_mask seg nowTs
  rw [hzero] at hmask
  obtain ⟨hshift, hsack, hecn⟩ := (optBits_spec _ _ _).2.2.2.2 (hmask.symm.trans (by rfl))
  obtain ⟨x, hts, hx⟩ := cookieTsval_eq seg nowTs
  have hws : seg.options.wscale = some 0 := by
    have hval := toNat_shiftOf seg.options.wscale
    rw [hshift] at hval
    cases hopt : seg.options.wscale with
    | none =>
      rw [hopt] at hval
      cases hval
    | some ws =>
      rw [hopt, Option.map_some, Option.getD_some, toNat_minB] at hval
      have h14 : (14 : U8).toNat = 14 := rfl
      have h0 : ((0 : Fin 16) : ℕ) = 0 := rfl
      exact congrArg some (BitVec.eq_of_toNat_eq (by rw [show (0 : U8).toNat = 0 from rfl]; omega))
  refine ⟨hws, hsack, hecn, ?_⟩
  -- With no option bits the TSval is the clock rounded down, never ahead of it.
  have hbits : optBits (shiftOf seg.options.wscale) seg.options.sackPermitted
      (seg.flags.ece && seg.flags.cwr) = 0 := hmask.symm.trans (by rfl)
  rw [hbits, show (0 : U32) = 0#32 from rfl, BitVec.or_zero] at hx
  have hround := high_bits nowTs
  rw [← hx] at hround
  have hbehind : ¬ seqGt x nowTs := by
    rw [seqGt_iff]
    bv_omega
  rw [hzero, if_neg hbehind] at hts
  rw [← hts] at hround
  have h0 : (0 : U32).toNat = 0 := rfl
  omega

/-- For such a SYN it is 0. -/
lemma cookieTsval_eq_zero {seg : Segment} {nowTs : U32} (hws : seg.options.wscale = some 0)
    (hsack : seg.options.sackPermitted = false) (hecn : (seg.flags.ece && seg.flags.cwr) = false)
    (hnow : nowTs.toNat < 64) : Tcb.cookieTsval seg nowTs = 0 := by
  obtain ⟨x, hts, hx⟩ := cookieTsval_eq seg nowTs
  have hbits : optBits (shiftOf seg.options.wscale) seg.options.sackPermitted
      (seg.flags.ece && seg.flags.cwr) = 0#32 := by
    rw [hws, hsack, hecn]
    decide
  rw [hbits, BitVec.or_zero] at hx
  have hround := high_bits nowTs
  rw [← hx] at hround
  have hzero : x = 0 := by bv_omega
  have hbehind : ¬ seqGt x nowTs := by
    rw [seqGt_iff]
    bv_omega
  rw [hts, if_neg hbehind, hzero]

/-- The options come back from an echoed TSval, unless it is 0. -/
lemma decode_cookieTsval {seg : Segment} {nowTs : U32} (x : U32)
    (hne : Tcb.cookieTsval seg nowTs ≠ 0) :
    ∃ opts, decodeTsOpts (some (x, Tcb.cookieTsval seg nowTs)) = some opts ∧
      opts.wscale = seg.options.wscale.map (fun ws => minB ws 14) ∧
      opts.sack = seg.options.sackPermitted ∧ opts.ecn = (seg.flags.ece && seg.flags.cwr) := by
  obtain ⟨-, hws, hsack, hecn, -⟩ := optBits_spec (shiftOf seg.options.wscale)
    seg.options.sackPermitted (seg.flags.ece && seg.flags.cwr)
  unfold decodeTsOpts
  simp only [if_neg hne, cookieTsval_mask, hws, hsack, hecn]
  refine ⟨_, rfl, ?_, rfl, rfl⟩
  dsimp only
  rw [toNat_shiftOf]
  cases seg.options.wscale with
  | none => rfl
  | some ws =>
    have hle : (minB ws 14).toNat ≤ 14 := by
      rw [toNat_minB]
      exact Nat.min_le_right _ _
    rw [Option.map_some, Option.getD_some, if_neg]
    · refine congrArg some (BitVec.eq_of_toNat_eq ?_)
      rw [BitVec.toNat_setWidth, BitVec.toNat_ofNat]
      dsimp only
      omega
    · intro h15
      have := congrArg BitVec.toNat h15
      rw [BitVec.toNat_ofNat, show TS_OPT_WS_MASK.toNat = 15 from rfl] at this
      omega

/-- The call neither starts the block over nor sets the clock back. -/
def Call.Continues (t : Tcb P) : Call → Prop
  | .reinit _ => False
  | .setNow now => t.nowMs.toNat ≤ now.toNat
  | _ => True

namespace Tcb

/-- The top bits of a cookie are the MSS index it was made with. -/
lemma mssIdx_computeCookie (t : Tcb P) (key : Key) (bucket : U64) (remote : Endpoint) {idx : U8}
    (hidx : idx.toNat < 8) (peerSeq : U32) :
    ((t.computeCookie key bucket remote idx peerSeq >>> 29) &&& 7).setWidth 8 = idx := by
  unfold computeCookie
  generalize (P.hash key _).setWidth 32 = mac
  apply BitVec.eq_of_getLsbD_eq
  intro i hi
  have hbit : 3 ≤ i → idx.getLsbD i = false := fun h =>
    Nat.testBit_lt_two_pow (lt_of_lt_of_le hidx (Nat.pow_le_pow_right (n := 2) (by decide) h))
  interval_cases i <;> simp_all

/-! ## The SYN-ACK -/

/-- The header of a cookie SYN-ACK to `seg`. -/
def cookieHeader (t : Tcb P) (seg : Segment) : Header where
  srcIp := t.localEp.ip
  dstIp := seg.srcIp
  srcPort := t.localEp.port
  dstPort := seg.srcPort
  seq := t.computeCookie t.cookieSecret (t.nowMs / COOKIE_TIME_BUCKET_MS) ⟨seg.srcIp, seg.srcPort⟩
    (offerIndex seg.options.mss) seg.seq
  ack := seg.seq + 1
  flags := { syn := true, ack := true, ece := seg.options.ts.isSome && (seg.flags.ece && seg.flags.cwr) }
  window := BitVec.ofNat 16 (min t.recvRing.free 65535)
  options :=
    match seg.options.ts with
    | some (peerTsval, _) =>
      { mss := some t.localMss
        wscale := seg.options.wscale.map fun _ => P.WS
        ts := some (cookieTsval seg (t.nowMs.setWidth 32 + t.tsOffsetFor ⟨seg.srcIp, seg.srcPort⟩),
          peerTsval)
        sackPermitted := seg.options.sackPermitted
        sack := SackBlocks.EMPTY }
    | none => { TcpOptions.NONE with mss := some t.localMss }
  ipId := t.ipId
  ecn := Ecn.NOT_ECT

lemma emitCookieSynack_eq {t : Tcb P} (seg : Segment) (hroom : t.txRing.isFull = false) :
    emitCookieSynack seg t = (do
      let queued ← stage (t.cookieHeader seg) 0 fun _ => some []
      modify fun t : Tcb P => if queued then { t with cookieSecretUsed := true } else t) t := by
  unfold emitCookieSynack
  rw [if_neg (by rw [hroom]; exact Bool.false_ne_true)]
  rfl

/-- A SYN from another peer at a busy listener. -/
lemma injectSegment_busy {t : Tcb P} {syn : Segment}
    (hbusy : t.state = .synRcvd ∧ t.isListener = true ∧ t.cookieSecretSet = true)
    (hhere : syn.dstIp = t.localEp.ip ∧ syn.dstPort = t.localEp.port) (hother : t.fromRemote syn = false)
    (hkept : t.mayReplaceHalfOpen syn = false)
    (hopens : syn.flags.syn = true ∧ syn.flags.ack = false ∧ syn.flags.rst = false ∧
      syn.flags.fin = false) :
    injectSegment syn t = emitCookieSynack syn t := by
  obtain ⟨hstate, hlistener, hkeyed⟩ := hbusy
  obtain ⟨hsyn, hack, hrst, hfin⟩ := hopens
  unfold injectSegment
  rw [run_get_bind, if_neg (by simp [hhere]), if_pos (by simp [hstate, hother]),
    if_neg (by simp [hkept])]
  unfold onBusyListener
  rw [run_get_bind, if_neg (by simp [hstate, hlistener, hkeyed]),
    if_pos (by simp [hsyn, hack, hrst, hfin])]

/-- A listener whose slot is taken by another peer answers `syn` with the cookie SYN-ACK `e`. -/
structure CookieSynack (t : Tcb P) (syn : Segment) (e : Emission P) : Prop where
  busy : t.state = .synRcvd
  listener : t.isListener = true
  keyed : t.cookieSecretSet = true
  here : syn.dstIp = t.localEp.ip ∧ syn.dstPort = t.localEp.port
  other : t.fromRemote syn = false
  kept : t.mayReplaceHalfOpen syn = false
  opens : syn.flags.syn = true ∧ syn.flags.ack = false ∧ syn.flags.rst = false ∧ syn.flags.fin = false
  staged : (final (injectSegment syn t)).sent = t.sent ++ [e]

namespace CookieSynack

variable {t : Tcb P} {syn : Segment} {e : Emission P}

lemma inject (h : t.CookieSynack syn e) : injectSegment syn t = emitCookieSynack syn t :=
  injectSegment_busy ⟨h.busy, h.listener, h.keyed⟩ h.here h.other h.kept h.opens

/-- The SYN-ACK is the one the code builds, and sending it marks the key as used. -/
lemma issued (h : t.CookieSynack syn e) :
    e.header = t.cookieHeader syn ∧ (final (injectSegment syn t)).cookieSecretUsed = true := by
  have hstaged := h.staged
  have hnothing {t' : Tcb P} (hsame : t'.sent = t.sent) : t'.sent ≠ t.sent ++ [e] := by
    rw [hsame]
    exact fun heq => List.cons_ne_nil e [] (List.self_eq_append_right.mp heq)
  rw [h.inject] at hstaged ⊢
  cases hfull : t.txRing.isFull with
  | true =>
    unfold emitCookieSynack at hstaged
    rw [if_pos hfull] at hstaged
    exact absurd hstaged (hnothing rfl)
  | false =>
    rw [emitCookieSynack_eq syn hfull] at hstaged ⊢
    rcases stage_cases (t.cookieHeader syn) 0 (fun _ => some []) t with
      ⟨err, hrun, -⟩ | ⟨-, hrun⟩ | ⟨-, pkt, ring, -, -, -, -, hrun⟩
    · rw [run_bind_error hrun] at hstaged
      exact absurd hstaged (hnothing rfl)
    · rw [run_bind_ok hrun] at hstaged
      exact absurd hstaged (hnothing rfl)
    · rw [run_bind_ok hrun] at hstaged ⊢
      refine ⟨?_, rfl⟩
      have hlast := List.append_cancel_left hstaged
      rw [List.cons.injEq] at hlast
      exact (congrArg Emission.header hlast.1).symm

/-- If a datagram was staged, it was the cookie SYN-ACK. -/
lemma exists_of_length (hbusy : t.state = .synRcvd ∧ t.isListener = true ∧ t.cookieSecretSet = true)
    (hhere : syn.dstIp = t.localEp.ip ∧ syn.dstPort = t.localEp.port) (hother : t.fromRemote syn = false)
    (hkept : t.mayReplaceHalfOpen syn = false)
    (hopens : syn.flags.syn = true ∧ syn.flags.ack = false ∧ syn.flags.rst = false ∧
      syn.flags.fin = false)
    (hlen : (final (injectSegment syn t)).sent.length = t.sent.length + 1) :
    ∃ e, t.CookieSynack syn e := by
  suffices h : ∃ e, (final (injectSegment syn t)).sent = t.sent ++ [e] by
    obtain ⟨e, he⟩ := h
    exact ⟨e, hbusy.1, hbusy.2.1, hbusy.2.2, hhere, hother, hkept, hopens, he⟩
  have hinject := injectSegment_busy hbusy hhere hother hkept hopens
  rw [hinject] at hlen ⊢
  cases hfull : t.txRing.isFull with
  | true =>
    unfold emitCookieSynack at hlen
    rw [if_pos hfull] at hlen
    exact absurd hlen (Nat.ne_of_lt (Nat.lt_succ_self t.sent.length))
  | false =>
    rw [emitCookieSynack_eq syn hfull] at hlen ⊢
    rcases stage_cases (t.cookieHeader syn) 0 (fun _ => some []) t with
      ⟨err, hrun, -⟩ | ⟨-, hrun⟩ | ⟨-, pkt, ring, -, -, -, -, hrun⟩
    · rw [run_bind_error hrun] at hlen
      exact absurd hlen (Nat.ne_of_lt (Nat.lt_succ_self t.sent.length))
    · rw [run_bind_ok hrun] at hlen
      exact absurd hlen (Nat.ne_of_lt (Nat.lt_succ_self t.sent.length))
    · rw [run_bind_ok hrun]
      exact ⟨_, rfl⟩

end CookieSynack

/-! ## The key in between -/

/-- Every call goes on with the listener. -/
def AllContinue : List Call → Tcb P → Prop
  | [], _ => True
  | c :: cs, t => c.Continues t ∧ AllContinue cs (final (c.run t))

/-- How often the cookie key changes. -/
def keyChanges : List Call → Tcb P → ℕ
  | [], _ => 0
  | c :: cs, t =>
    (if (final (c.run t)).cookieSecret ≠ t.cookieSecret then 1 else 0) + keyChanges cs (final (c.run t))

/-- The key of `t₀` is still the current cookie key or, if `rotated`, the previous one after one
rotation; the clock has not gone back. -/
structure KeyKept (t₀ : Tcb P) (rotated : Bool) (t : Tcb P) : Prop where
  here : t.localEp = t₀.localEp
  set : t.cookieSecretSet = true
  clock : t₀.nowMs.toNat ≤ t.nowMs.toNat
  current : rotated = false → t.cookieSecret = t₀.cookieSecret ∧ t.cookieSecretUsed = true
  previous : rotated = true → t.prevCookieSecretSet = true ∧ t.prevCookieSecret = t₀.cookieSecret ∧
    min (t₀.nowMs.toNat + 128000) (2 ^ 64 - 1) ≤ t.prevCookieUntilMs.toNat

namespace KeyKept

variable {t₀ t t' : Tcb P} {rotated : Bool}

lemma of_hosted (h : KeyKept t₀ rotated t) (hhost : Hosted t t') : KeyKept t₀ rotated t' := by
  have hsame := hhost.same
  have hnow : t'.nowMs = t.nowMs := hsame.of fun x => x.2.2.2
  have hcur : t'.cookieSecret = t.cookieSecret := hsame.of fun x => x.2.2.1.cookieSecret
  have hpset : t'.prevCookieSecretSet = t.prevCookieSecretSet :=
    hsame.of fun x => x.2.2.1.prevCookieSecretSet
  have hprev : t'.prevCookieSecret = t.prevCookieSecret := hsame.of fun x => x.2.2.1.prevCookieSecret
  have huntil : t'.prevCookieUntilMs = t.prevCookieUntilMs :=
    hsame.of fun x => x.2.2.1.prevCookieUntilMs
  refine ⟨(hsame.of fun x => x.1).trans h.here, (hsame.of fun x => x.2.2.1.cookieSecretSet).trans h.set,
    hnow ▸ h.clock, fun hr => ?_, fun hr => ?_⟩
  · exact ⟨hcur.trans (h.current hr).1, hhost.used (h.current hr).2⟩
  · rw [hpset, hprev, huntil]
    exact h.previous hr

/-- Installing the key there is changes nothing. -/
lemma reinstall (h : KeyKept t₀ rotated t) : KeyKept t₀ rotated (t.installCookieKey t.cookieSecret) := by
  unfold installCookieKey
  simp only [bne_self_eq_false, Bool.and_false, Bool.false_and, Bool.false_eq_true, if_false]
  exact ⟨h.here, rfl, h.clock, h.current, h.previous⟩

/-- Installing another key makes the first one the previous one. -/
lemma rotate (h : KeyKept t₀ false t) {key : Key} (hkey : t.cookieSecret ≠ key) :
    KeyKept t₀ true (t.installCookieKey key) := by
  obtain ⟨hcur, hused⟩ := h.current rfl
  have hclock := h.clock
  unfold installCookieKey
  simp only [h.set, hused, bne_iff_ne.mpr hkey, Bool.and_true, if_true]
  refine ⟨h.here, rfl, h.clock, nofun, fun _ => ⟨rfl, hcur, ?_⟩⟩
  rw [toNat_satAdd, show ((2 : U64) * COOKIE_TIME_BUCKET_MS).toNat = 128000 from by decide]
  omega

lemma install (h : KeyKept t₀ rotated t) {key : Key} (honce : rotated = true → key = t.cookieSecret) :
    KeyKept t₀ (rotated || key != t.cookieSecret) (t.installCookieKey key) := by
  by_cases hkey : key = t.cookieSecret
  · rw [hkey, bne_self_eq_false, Bool.or_false]
    exact h.reinstall
  · cases rotated with
    | true => exact absurd (honce rfl) hkey
    | false =>
      rw [Bool.false_or, bne_iff_ne.mpr hkey]
      exact h.rotate (Ne.symm hkey)

/-- One call that goes on with the listener. -/
lemma call (h : KeyKept t₀ rotated t) {c : Call} (hc : c.Continues t)
    (honce : rotated = true → (final (c.run t)).cookieSecret = t.cookieSecret) :
    KeyKept t₀ (rotated || (final (c.run t)).cookieSecret != t.cookieSecret) (final (c.run t)) := by
  have hkeep {t' : Tcb P} (h' : KeyKept t₀ rotated t') (hkey : t'.cookieSecret = t.cookieSecret) :
      KeyKept t₀ (rotated || t'.cookieSecret != t.cookieSecret) t' := by
    rw [hkey, bne_self_eq_false, Bool.or_false]
    exact h'
  by_cases hsets : c.sets = false
  · have hhost := Call.hosted hsets t
    exact hkeep (h.of_hosted hhost) (hhost.same.of fun x => x.2.2.1.cookieSecret)
  cases c with
  | setNow now =>
    exact hkeep ⟨h.here, h.set, h.clock.trans hc, h.current, h.previous⟩ rfl
  | setTxCsumOffload | setKeepalive | setUserTimeout | setFinWait2Timeout =>
    exact hkeep ⟨h.here, h.set, h.clock, h.current, h.previous⟩ rfl
  | setEgressPaused paused =>
    have hpaused : ∃ d, final (Call.run (.setEgressPaused paused) t) =
        { t with tlpDeadline := d, egressPaused := paused } := by
      change ∃ d, setEgressPaused paused t = _
      unfold setEgressPaused
      obtain ⟨d, hd⟩ := maybeArmTlp_eq t
      split
      · rw [hd]
        exact ⟨d, rfl⟩
      · exact ⟨t.tlpDeadline, rfl⟩
    obtain ⟨d, hd⟩ := hpaused
    rw [hd]
    exact hkeep ⟨h.here, h.set, h.clock, h.current, h.previous⟩ rfl
  | setCookieSecret secret =>
    have h' := h.install honce
    exact ⟨h'.here, h'.set, h'.clock, h'.current, h'.previous⟩
  | setSecret secret =>
    have hset : KeyKept t₀ rotated ({ t with secret := secret, secretSet := true } : Tcb P) :=
      ⟨h.here, h.set, h.clock, h.current, h.previous⟩
    change KeyKept t₀ (rotated || (setSecret secret t).cookieSecret != t.cookieSecret) (setSecret secret t)
    change rotated = true → (setSecret secret t).cookieSecret = t.cookieSecret at honce
    unfold setSecret at honce ⊢
    dsimp only at honce ⊢
    split
    · exact hkeep hset rfl
    case isFalse hexp =>
      rw [if_neg hexp] at honce
      exact hset.install honce
  | reinit => exact absurd hc id
  | _ => exact absurd rfl hsets

/-- A run of such calls with at most one change of key. -/
lemma runs (calls : List Call) :
    ∀ {t : Tcb P} {rotated : Bool}, KeyKept t₀ rotated t → AllContinue calls t →
      rotated.toNat + keyChanges calls t ≤ 1 →
      KeyKept t₀ (rotated || decide (keyChanges calls t ≠ 0)) (runAll calls t) := by
  induction calls with
  | nil =>
    intro t rotated h _ _
    simpa [keyChanges, runAll] using h
  | cons c cs ih =>
    intro t rotated h hcont honce
    rw [keyChanges] at honce ⊢
    have h' := h.call hcont.1 fun hr => by
      by_contra hkey
      rw [hr, if_pos hkey] at honce
      simp at honce
    have hrest := ih h' hcont.2
    by_cases hkey : (final (c.run t)).cookieSecret = t.cookieSecret
    · rw [if_neg (not_not.mpr hkey), Nat.zero_add] at honce ⊢
      rw [hkey, bne_self_eq_false, Bool.or_false] at hrest
      exact hrest honce
    · rw [if_pos hkey] at honce ⊢
      rw [bne_iff_ne.mpr hkey, Bool.or_true, Bool.true_or] at hrest
      have hdec : decide (1 + keyChanges cs (final (c.run t)) ≠ 0) = true := by
        rw [decide_eq_true_eq]
        omega
      rw [hdec, Bool.or_true]
      exact hrest (by simp; omega)

/-- The time bucket of the cookie is the current one or the one before it. -/
lemma bucket (h : KeyKept t₀ rotated t) (hbucket : t.nowMs.toNat / 64000 ≤ t₀.nowMs.toNat / 64000 + 1) :
    t₀.nowMs / COOKIE_TIME_BUCKET_MS = t.nowMs / COOKIE_TIME_BUCKET_MS ∨
      t₀.nowMs / COOKIE_TIME_BUCKET_MS = t.nowMs / COOKIE_TIME_BUCKET_MS - 1 := by
  have hclock := Nat.div_le_div_right (c := 64000) h.clock
  have hdiv (n : U64) : (n / COOKIE_TIME_BUCKET_MS).toNat = n.toNat / 64000 := BitVec.toNat_udiv
  have h₁ := hdiv t.nowMs
  have h₀ := hdiv t₀.nowMs
  bv_omega

/-- A cookie `t₀` made is still valid. -/
lemma validates (h : KeyKept t₀ rotated t) (hlast : rotated = true → t.nowMs.toNat ≠ 2 ^ 64 - 1)
    (hbucket : t.nowMs.toNat / 64000 ≤ t₀.nowMs.toNat / 64000 + 1) {syn ack : Segment}
    (hsrc : ack.srcIp = syn.srcIp ∧ ack.srcPort = syn.srcPort) (hseq : ack.seq = syn.seq + 1)
    (hack : ack.ack = (t₀.cookieHeader syn).seq + 1) :
    ∃ opts, t.validateCookie ack = some opts ∧
      opts.mss = cookieMssFromIndex (offerIndex syn.options.mss) := by
  set remote : Endpoint := ⟨syn.srcIp, syn.srcPort⟩ with hremote
  set idx := offerIndex syn.options.mss with hidx
  set cookie := (t₀.cookieHeader syn).seq with hcookie
  have hmake : cookie = t.computeCookie t₀.cookieSecret (t₀.nowMs / COOKIE_TIME_BUCKET_MS) remote idx
      syn.seq := by
    unfold computeCookie
    rw [h.here]
    rfl
  have hmss : ((cookie >>> 29) &&& 7).setWidth 8 = idx := by
    rw [hmake]
    exact mssIdx_computeCookie t _ _ _ (cookieMssIndex_lt _) _
  have hissued : ([t.nowMs / COOKIE_TIME_BUCKET_MS, t.nowMs / COOKIE_TIME_BUCKET_MS - 1].any fun b =>
      t.computeCookie t₀.cookieSecret b remote idx syn.seq == cookie) = true := by
    rw [hmake, List.any_cons, List.any_cons, List.any_nil, Bool.or_false, Bool.or_eq_true]
    rcases h.bucket hbucket with hb | hb
    · exact .inl (by rw [hb]; exact beq_self_eq_true _)
    · exact .inr (by rw [hb]; exact beq_self_eq_true _)
  have hdecode : ∃ opts, decodeTsOpts ack.options.ts = some opts := by
    unfold decodeTsOpts
    dsimp only
    split
    · exact ⟨_, rfl⟩
    · split <;> exact ⟨_, rfl⟩
  obtain ⟨opts, hopts⟩ := hdecode
  have hack' : ack.ack - 1 = cookie := by rw [hack]; bv_omega
  have hseq' : ack.seq - 1 = syn.seq := by rw [hseq]; bv_omega
  unfold validateCookie
  rw [if_neg (by simp [h.set])]
  simp only [hack', hseq', hsrc.1, hsrc.2, hmss, hopts, ← hremote]
  cases rotated with
  | false =>
    rw [(h.current rfl).1, if_pos hissued]
    exact ⟨_, rfl, rfl⟩
  | true =>
    obtain ⟨hset, hprev, huntil⟩ := h.previous rfl
    have hvalid : decide (t.nowMs.toNat < t.prevCookieUntilMs.toNat) = true := by
      have := hlast rfl
      have := t.nowMs.isLt
      rw [decide_eq_true_eq]
      omega
    rw [hprev, hissued, hset, hvalid]
    by_cases hcur : ([t.nowMs / COOKIE_TIME_BUCKET_MS, t.nowMs / COOKIE_TIME_BUCKET_MS - 1].any fun b =>
        t.computeCookie t.cookieSecret b remote idx syn.seq == cookie) = true
    · rw [if_pos hcur]
      exact ⟨_, rfl, rfl⟩
    · rw [if_neg hcur]
      exact ⟨_, rfl, rfl⟩

end KeyKept

/-! ## The ACK -/

/-- `ack` is a valid cookie ACK for a listener whose slot is free, or taken by another peer. -/
structure Promotes (t : Tcb P) (ack : Segment) (opts : CookieOpts) : Prop where
  here : ack.dstIp = t.localEp.ip ∧ ack.dstPort = t.localEp.port
  flags : ack.flags.ack = true ∧ ack.flags.syn = false ∧ ack.flags.rst = false
  slot : t.state = .listen ∨ (t.state = .synRcvd ∧ t.isListener = true ∧ t.fromRemote ack = false)
  valid : t.validateCookie ack = some opts

namespace Promotes

variable {t : Tcb P} {ack : Segment} {opts : CookieOpts}

lemma keyed (h : t.Promotes ack opts) : t.cookieSecretSet = true := by
  have hvalid := h.valid
  unfold validateCookie at hvalid
  split at hvalid
  · cases hvalid
  case isFalse hset => exact not_not.mp hset

lemma tryPromote (h : t.Promotes ack opts) :
    final (tryPromoteViaCookie ack t) = final (onSynchronized ack (t.cookieOpened ack opts)) := by
  unfold tryPromoteViaCookie
  rw [run_get_bind, h.valid]
  dsimp only
  rw [final_bind_pure]
  rfl

/-- The options are those the echoed timestamp decodes to. -/
lemma decoded (h : t.Promotes ack opts) :
    ∃ d, decodeTsOpts ack.options.ts = some d ∧ opts.wscale = d.wscale ∧ opts.sack = d.sack ∧
      opts.ecn = d.ecn := by
  have hvalid := h.valid
  unfold validateCookie at hvalid
  rw [if_neg (not_not.mpr h.keyed)] at hvalid
  dsimp only at hvalid
  split at hvalid
  case h_1 d _ hd =>
    cases hvalid
    exact ⟨d, hd, rfl, rfl, rfl⟩
  case h_2 => cases hvalid

/-- The ACK opens the connection its cookie encodes and is processed on it. -/
lemma opens (h : t.Promotes ack opts) :
    ∃ w : Tcb P, final (injectSegment ack t) = final (onSynchronized ack (w.cookieOpened ack opts)) := by
  obtain ⟨hack, hsyn, hrst⟩ := h.flags
  unfold injectSegment
  rw [run_get_bind, if_neg (by simp [h.here])]
  rcases h.slot with hlisten | ⟨hbusy, hlistener, hother⟩
  · have h' : t.countIn.Promotes ack opts := ⟨h.here, h.flags, h.slot, h.valid⟩
    refine ⟨t.countIn, ?_⟩
    rw [if_neg (by simp [hlisten])]
    unfold dispatch
    rw [run_modify_bind]
    unfold route
    rw [run_get_bind, show t.countIn.state = .listen from hlisten]
    dsimp only
    unfold onListen
    rw [run_get_bind, if_neg (by simp [hrst]), if_pos hack, if_pos (by simp [hsyn]), if_pos h'.keyed,
      final_bind_pure]
    exact h'.tryPromote
  · refine ⟨t.resetToListenOrClosed, ?_⟩
    rw [if_pos (by simp [hbusy, hother]), if_neg (by simp [mayReplaceHalfOpen, hsyn])]
    unfold onBusyListener
    rw [run_get_bind, if_neg (by simp [hbusy, hlistener, h.keyed]), if_neg (by simp [hsyn]),
      if_pos (by simp [hack, hsyn, hrst]), h.valid]
    rfl

end Promotes

/-- The options a cookie ACK with a timestamp brings. -/
lemma cookieOpened_negotiated (t : Tcb P) (ack : Segment) (opts : CookieOpts)
    (hts : ack.options.ts.isSome = true) :
    (t.cookieOpened ack opts).toNegotiated =
      { tsEnabled := true
        wsOk := opts.wscale.isSome
        sndWscale := opts.wscale.getD 0
        rcvWscale := if opts.wscale.isSome then P.WS else 0
        sackEnabled := opts.sack
        ecnEnabled := opts.ecn } := by
  have hopened : (t.cookieOpened ack opts).toNegotiated =
      { tsEnabled := ack.options.ts.isSome || false
        wsOk := opts.wscale.isSome || false
        sndWscale := opts.wscale.getD 0
        rcvWscale := if opts.wscale.isSome then P.WS else 0
        sackEnabled := if ack.options.ts.isSome then opts.sack else false
        ecnEnabled := if ack.options.ts.isSome then opts.ecn else false } := rfl
  rw [hopened, hts]
  simp

namespace Promotes

variable {t : Tcb P} {ack : Segment} {opts : CookieOpts}

/-- What the connection is then. -/
lemma settled (h : t.Promotes ack opts) :
    let t' := final (injectSegment ack t)
    t'.state.isSynchronized = true ∧ t'.sndUna = ack.ack ∧ seqGe t'.rcvNxt ack.seq ∧
      t'.iss = ack.ack - 1 ∧ t'.irs = ack.seq - 1 ∧ t'.remoteEp = ⟨ack.srcIp, ack.srcPort⟩ ∧
      t'.peerMss = maxB opts.mss MIN_PEER_MSS ∧
      ∃ w : Tcb P, t'.toNegotiated = (w.cookieOpened ack opts).toNegotiated := by
  obtain ⟨w, hw⟩ := h.opens
  have hsettle := onSynchronized_settles (w.cookieOpened ack opts) h.flags.2.2 rfl rfl
    (BitVec.sub_add_cancel ack.seq 1) rfl
  rw [← hw] at hsettle
  obtain ⟨hsync, hid, huna, hrcv⟩ := hsettle
  simp only [identity, Prod.mk.injEq] at hid
  obtain ⟨hiss, hirs, hremote, hmss, hneg⟩ := hid
  exact ⟨hsync, huna, hrcv, hiss, hirs, hremote, hmss, w, hneg⟩

end Promotes

end Tcb

open Tcb

/-- The tiny parameters with the hash of the source. -/
def tinySip : Params := { tiny with hash := siphash24 }

/-- A listener that has answered the SYN of one peer, at time `now`. -/
def busyListener (now : U64) : Tcb tinySip :=
  runAll [.setCookieSecret (Vector.replicate 16 0), .listen,
    .injectPacket (datagram { peerAck with seq := 5, ack := 0, flags := { syn := true } } []),
    .extractPacketWith, .setNow now] (Tcb.new ⟨⟨(10, 0, 0, 1), 1000⟩, ⟨(10, 0, 0, 2), 80⟩, 100, 1000⟩)

lemma reachable_busyListener (now : U64) : Reachable (busyListener now) := by
  have h : Reachable (runAll [.setCookieSecret (Vector.replicate 16 0), .listen,
      .injectPacket (datagram { peerAck with seq := 5, ack := 0, flags := { syn := true } } []),
      .extractPacketWith] (Tcb.new ⟨⟨(10, 0, 0, 1), 1000⟩, ⟨(10, 0, 0, 2), 80⟩, 100, 1000⟩) : Tcb tinySip) :=
    (Reachable.new _).runAll (by decide +kernel)
  exact h.step (c := .setNow now) ⟨trivial, rfl⟩

/-- The SYN of another peer. -/
def otherSyn (options : TcpOptions) : List U8 :=
  datagram { peerAck with srcPort := 81, seq := 7, ack := 0, flags := { syn := true }, options } []

/-- The listener after answering it. -/
def cookieSent (now : U64) (options : TcpOptions) : Tcb tinySip :=
  final (Call.run (.injectPacket (otherSyn options)) (busyListener now))

/-- The ACK of the cookie SYN-ACK. -/
def otherAck (now : U64) (options echoed : TcpOptions) : List U8 :=
  let cookie := ((cookieSent now options).sent.getLast?.map fun e => e.header.seq).getD 0
  datagram { peerAck with srcPort := 81, seq := 8, ack := cookie + 1, options := echoed } []

/-! ## Acceptance -/

/-- A busy listener answered `syn` with the cookie SYN-ACK `e`.  After any calls that go on with the
listener, never set the clock back and change the cookie key at most once, the ACK of `e` in the same or
the next time bucket opens the connection, unless the key changed and this is the last tick of the
clock. -/
theorem cookie_ack_opens_connection {t u : Tcb P} {c₀ c : Call} {syn ack : Segment} {e : Emission P}
    (hc₀ : c₀.Delivers P syn) (hsyn : t.CookieSynack syn e) {calls : List Call}
    (hcont : AllContinue calls (final (c₀.run t))) (hu : u = runAll calls (final (c₀.run t)))
    (honce : keyChanges calls (final (c₀.run t)) ≤ 1)
    (hlast : keyChanges calls (final (c₀.run t)) = 0 ∨ u.nowMs.toNat ≠ 2 ^ 64 - 1)
    (hbucket : u.nowMs.toNat / 64000 ≤ t.nowMs.toNat / 64000 + 1)
    (hslot : u.state = .listen ∨ (u.state = .synRcvd ∧ u.isListener = true ∧ u.fromRemote ack = false))
    (hc : c.Delivers P ack) (hsrc : ack.srcIp = syn.srcIp ∧ ack.srcPort = syn.srcPort)
    (hdst : ack.dstIp = syn.dstIp ∧ ack.dstPort = syn.dstPort)
    (hflags : ack.flags.ack = true ∧ ack.flags.syn = false ∧ ack.flags.rst = false)
    (hseq : ack.seq = syn.seq + 1) (hack : ack.ack = e.header.seq + 1) :
    let v := final (c.run u)
    v.state.isSynchronized = true ∧ v.remoteEp = ⟨syn.srcIp, syn.srcPort⟩ ∧ v.iss = e.header.seq ∧
      v.irs = syn.seq ∧ v.sndUna = e.header.seq + 1 ∧ seqGe v.rcvNxt (syn.seq + 1) ∧
      Quantised syn.options.mss v.peerMss := by
  obtain ⟨hheader, hused⟩ := hsyn.issued
  have hhost := (hosted_inject syn).injectSegment t
  rw [hc₀.final_run] at hcont honce hlast hu
  have hstart : KeyKept t false (final (injectSegment syn t)) := by
    have hnow : (final (injectSegment syn t)).nowMs = t.nowMs := hhost.same.of fun x => x.2.2.2
    refine ⟨hhost.same.of fun x => x.1, ?_, hnow ▸ le_refl _, fun _ => ⟨?_, hused⟩, nofun⟩
    · exact (hhost.same.of fun x => x.2.2.1.cookieSecretSet).trans hsyn.keyed
    · exact hhost.same.of fun x => x.2.2.1.cookieSecret
  have hkept := hstart.runs calls hcont (by simpa using honce)
  rw [← hu] at hkept
  obtain ⟨opts, hvalid, hmss⟩ := hkept.validates
    (fun hrot => hlast.resolve_left (by simpa using hrot)) hbucket hsrc hseq (by rw [hack, hheader])
  have hpromotes : u.Promotes ack opts := by
    refine ⟨?_, hflags, hslot, hvalid⟩
    rw [hkept.here, hdst.1, hdst.2]
    exact hsyn.here
  obtain ⟨hsync, huna, hrcv, hiss, hirs, hremote, hpeer, -⟩ := hpromotes.settled
  dsimp only
  rw [hc.final_run]
  refine ⟨hsync, ?_, ?_, ?_, huna.trans hack, hseq ▸ hrcv, ?_⟩
  · rw [hremote, hsrc.1, hsrc.2]
  · rw [hiss, hack]
    bv_omega
  · rw [hirs, hseq]
    bv_omega
  · rw [hpeer, hmss]
    exact quantised_offerIndex _

/-- The calls between the SYN and the ACK: the key changes, and time passes. -/
def rekey (now : U64) : List Call := [.setCookieSecret (Vector.replicate 16 1), .setNow now]

lemma plain_parses :
    (parse tinySip.littleEndian (otherSyn TcpOptions.NONE)).toOption.isSome = true ∧
      (parse tinySip.littleEndian (otherAck 1000 TcpOptions.NONE TcpOptions.NONE)).toOption.isSome = true ∧
      (parse tinySip.littleEndian (otherAck 200000 TcpOptions.NONE TcpOptions.NONE)).toOption.isSome =
        true ∧
      (parse tinySip.littleEndian
        (otherAck (BitVec.allOnes 64) TcpOptions.NONE TcpOptions.NONE)).toOption.isSome = true := by
  decide +kernel

/-- A cookie made at 1000 ms is accepted at 65000 ms, under the previous key. -/
theorem tiny_cookie_accepted_after_rotation :
    (final (Call.run (.injectPacket (otherAck 1000 TcpOptions.NONE TcpOptions.NONE))
      (runAll (rekey 65000) (cookieSent 1000 TcpOptions.NONE)))).state.isSynchronized = true := by
  have hsyn : ∃ e, (busyListener 1000).CookieSynack
      ((parse tinySip.littleEndian (otherSyn TcpOptions.NONE)).toOption.get plain_parses.1) e :=
    CookieSynack.exists_of_length (by decide +kernel) (by decide +kernel) (by decide +kernel) (by decide +kernel)
      (by decide +kernel) (by decide +kernel)
  obtain ⟨e, he⟩ := hsyn
  have hcont : AllContinue (rekey 65000) (cookieSent 1000 TcpOptions.NONE) :=
    ⟨trivial, by unfold Call.Continues; decide +kernel, trivial⟩
  exact (cookie_ack_opens_connection (.inl ⟨otherSyn TcpOptions.NONE, rfl, parse_get plain_parses.1⟩) he
    hcont rfl (by decide +kernel) (.inr (by decide +kernel)) (by decide +kernel) (.inr (by decide +kernel))
    (.inl ⟨_, rfl, parse_get plain_parses.2.1⟩) (by decide +kernel) (by decide +kernel)
    (by decide +kernel) (by decide +kernel) (by rw [he.issued.1]; decide +kernel)).1

/-- The listener answers the SYN of another peer at `now`; the calls change the key once and end at the
same time; and the ACK of the SYN-ACK is refused: the slot stays with the first peer. -/
structure Refused (now : U64) (calls : List Call) (syn ack : Segment) : Prop where
  reachable : Reachable (busyListener now)
  parsedSyn : parse tinySip.littleEndian (otherSyn TcpOptions.NONE) = .ok syn
  parsedAck : parse tinySip.littleEndian (otherAck now TcpOptions.NONE TcpOptions.NONE) = .ok ack
  issued : ∃ e, (busyListener now).CookieSynack syn e ∧ ack.ack = e.header.seq + 1
  once : keyChanges calls (cookieSent now TcpOptions.NONE) = 1
  clock : (runAll calls (cookieSent now TcpOptions.NONE)).nowMs = now
  slot : (runAll calls (cookieSent now TcpOptions.NONE)).state = .synRcvd ∧
    (runAll calls (cookieSent now TcpOptions.NONE)).isListener = true ∧
    (runAll calls (cookieSent now TcpOptions.NONE)).fromRemote ack = false
  src : ack.srcIp = syn.srcIp ∧ ack.srcPort = syn.srcPort
  flags : ack.flags.ack = true ∧ ack.flags.syn = false ∧ ack.flags.rst = false
  seq : ack.seq = syn.seq + 1
  refused : (final (Call.run (.injectPacket (otherAck now TcpOptions.NONE TcpOptions.NONE))
    (runAll calls (cookieSent now TcpOptions.NONE)))).state = .synRcvd

/-- A change of key retires the old key too early: at once at the last tick of the clock, and 128 s
after the rotation although the cookie is of the current bucket if the clock was set back for it. -/
theorem rotation_retires_key_early :
    (∃ syn ack, Refused (BitVec.allOnes 64) (rekey (BitVec.allOnes 64)) syn ack) ∧
      ∃ syn ack, Refused 200000 (.setNow 0 :: rekey 200000) syn ack := by
  have hsyn (now : U64) (hnow : now = BitVec.allOnes 64 ∨ now = 200000) :
      ∃ e, (busyListener now).CookieSynack
        ((parse tinySip.littleEndian (otherSyn TcpOptions.NONE)).toOption.get plain_parses.1) e := by
    rcases hnow with rfl | rfl <;>
      exact CookieSynack.exists_of_length (by decide +kernel) (by decide +kernel) (by decide +kernel)
        (by decide +kernel) (by decide +kernel) (by decide +kernel)
  obtain ⟨e, he⟩ := hsyn _ (.inl rfl)
  obtain ⟨e', he'⟩ := hsyn _ (.inr rfl)
  refine ⟨⟨_, _, reachable_busyListener _, parse_get plain_parses.1,
      parse_get plain_parses.2.2.2, ⟨e, he, ?_⟩, ?_, ?_, ?_, ?_, ?_, ?_, ?_⟩,
    ⟨_, _, reachable_busyListener _, parse_get plain_parses.1,
      parse_get plain_parses.2.2.1, ⟨e', he', ?_⟩, ?_, ?_, ?_, ?_, ?_, ?_, ?_⟩⟩
  · rw [he.issued.1]
    decide +kernel
  on_goal 8 => rw [he'.issued.1]
  all_goals decide +kernel

/-! ## Options -/

/-- The TSval of the SYN-ACK to `syn` is 0: nothing but a shift of 0 was offered, and the timestamp
clock is below 64. -/
def ZeroTsval (t : Tcb P) (syn : Segment) : Prop :=
  syn.options.wscale = some 0 ∧ syn.options.sackPermitted = false ∧
    (syn.flags.ece && syn.flags.cwr) = false ∧
    (t.nowMs.setWidth 32 + t.tsOffsetFor ⟨syn.srcIp, syn.srcPort⟩).toNat < 64

/-- The connection `v` uses what the SYN-ACK with header `h` to `syn` announced. -/
structure OptionsAgree (syn : Segment) (h : Header) (v : Tcb P) : Prop where
  wsOk : v.wsOk = h.options.wscale.isSome
  shifts : ∀ ws ∈ syn.options.wscale, v.sndWscale = minB ws 14 ∧ some v.rcvWscale = h.options.wscale
  sack : v.sackEnabled = h.options.sackPermitted
  ecn : v.ecnEnabled = h.flags.ece

/-- What a promoted connection uses is what the SYN-ACK said, if the ACK echoes its TSval, exactly if that
is not 0. -/
theorem cookie_options_agree {t u : Tcb P} {c : Call} {syn ack : Segment} {e : Emission P}
    {opts : CookieOpts} (hsyn : t.CookieSynack syn e) (hc : c.Delivers P ack)
    (hpromotes : u.Promotes ack opts) {tsval tsecr x : U32}
    (hts : e.header.options.ts = some (tsval, tsecr)) (hecho : ack.options.ts = some (x, tsval)) :
    OptionsAgree syn e.header (final (c.run u)) ↔ ¬ ZeroTsval t syn := by
  obtain ⟨hheader, -⟩ := hsyn.issued
  rw [hheader] at hts ⊢
  obtain ⟨-, -, -, -, -, -, -, w, hneg⟩ := hpromotes.settled
  rw [hc.final_run]
  generalize final (injectSegment ack u) = v at hneg
  obtain ⟨d, hd, hws, hsack, hecn⟩ := hpromotes.decoded
  cases hopt : syn.options.ts with
  | none =>
    simp only [cookieHeader, hopt, TcpOptions.NONE] at hts
    cases hts
  | some peer =>
    have hshift : (t.cookieHeader syn).options.wscale = syn.options.wscale.map fun _ => P.WS := by
      simp only [cookieHeader, hopt]
    have hperm : (t.cookieHeader syn).options.sackPermitted = syn.options.sackPermitted := by
      simp only [cookieHeader, hopt]
    have hece : (t.cookieHeader syn).flags.ece = (syn.flags.ece && syn.flags.cwr) := by
      simp only [cookieHeader, hopt, Option.isSome_some, Bool.true_and]
    simp only [cookieHeader, hopt, Option.some.injEq, Prod.mk.injEq] at hts
    have hopened := cookieOpened_negotiated w ack opts (by rw [hecho]; rfl)
    rw [← hneg] at hopened
    rw [hecho, ← hts.1] at hd
    constructor
    · -- An echoed 0 brings no options back, and a shift was announced.
      intro hagree hzero
      have htsval := cookieTsval_eq_zero hzero.1 hzero.2.1 hzero.2.2.1 hzero.2.2.2
      rw [htsval] at hd
      cases hd
      have hon := hagree.wsOk
      rw [hshift, hzero.1, congrArg Negotiated.wsOk hopened, hws] at hon
      cases hon
    · intro hzero
      obtain ⟨d', hd', hws', hsack', hecn'⟩ := decode_cookieTsval x fun h0 => hzero (cookieTsval_zero h0)
      cases hd.symm.trans hd'
      refine ⟨?_, fun ws hmem => ⟨?_, ?_⟩, ?_, ?_⟩
      · rw [congrArg Negotiated.wsOk hopened, hws, hws', hshift, Option.isSome_map, Option.isSome_map]
      · rw [congrArg Negotiated.sndWscale hopened, hws, hws', Option.mem_def.mp hmem]
        rfl
      · rw [congrArg Negotiated.rcvWscale hopened, hws, hws', hshift, Option.mem_def.mp hmem]
        rfl
      · exact (congrArg Negotiated.sackEnabled hopened).trans (hsack.trans (hsack'.trans hperm.symm))
      · exact (congrArg Negotiated.ecnEnabled hopened).trans (hecn.trans (hecn'.trans hece.symm))

/-- A SYN that offers timestamps, the shift `ws` and `sack`. -/
def stampedSyn (ws : Option U8) (sack : Bool) : TcpOptions :=
  { TcpOptions.NONE with ts := some (1, 0), wscale := ws, sackPermitted := sack }

/-- The options of an ACK that echoes the timestamp of the SYN-ACK. -/
def echoing (now : U64) (options : TcpOptions) : TcpOptions :=
  let ts := (cookieSent now options).sent.getLast?.bind fun e => e.header.options.ts
  { TcpOptions.NONE with ts := ts.map fun stamps => (2, stamps.1) }

/-- The parsed SYN and the parsed ACK that echoes the timestamp. -/
lemma stamped_parses :
    (parse tinySip.littleEndian (otherSyn (stampedSyn (some 3) true))).toOption.isSome = true ∧
      (parse tinySip.littleEndian (otherAck 1000 (stampedSyn (some 3) true)
        (echoing 1000 (stampedSyn (some 3) true)))).toOption.isSome = true ∧
      (parse tinySip.littleEndian (otherSyn (stampedSyn (some 0) false))).toOption.isSome = true ∧
      (parse tinySip.littleEndian (otherAck 1820706570 (stampedSyn (some 0) false)
        (echoing 1820706570 (stampedSyn (some 0) false)))).toOption.isSome = true := by
  decide +kernel

lemma reachable_cookieSent (now : U64) (options : TcpOptions)
    (h : Returned (Call.run (.injectPacket (otherSyn options)) (busyListener now))) :
    Reachable (cookieSent now options) :=
  (reachable_busyListener now).step (c := .injectPacket (otherSyn options)) ⟨h, rfl⟩

/-- A shift of 3 and SACK survive the cookie. -/
theorem tiny_cookie_keeps_options :
    let v := final (Call.run (.injectPacket (otherAck 1000 (stampedSyn (some 3) true)
      (echoing 1000 (stampedSyn (some 3) true)))) (cookieSent 1000 (stampedSyn (some 3) true)))
    v.wsOk = true ∧ v.sndWscale = 3 ∧ v.sackEnabled = true ∧ v.ecnEnabled = false := by
  have hsyn : ∃ e, (busyListener 1000).CookieSynack
      ((parse tinySip.littleEndian (otherSyn (stampedSyn (some 3) true))).toOption.get
        stamped_parses.1) e :=
    CookieSynack.exists_of_length (by decide +kernel) (by decide +kernel) (by decide +kernel)
      (by decide +kernel) (by decide +kernel) (by decide +kernel)
  obtain ⟨e, he⟩ := hsyn
  have hagree := @cookie_options_agree tinySip _ (cookieSent 1000 (stampedSyn (some 3) true)) _ _ _ e
    ⟨536, some 3, true, false, false⟩ he (.inl ⟨_, rfl, parse_get stamped_parses.2.1⟩)
    ⟨by decide +kernel, by decide +kernel, .inr (by decide +kernel), by decide +kernel⟩
    0x937a3cd3 1 2 (by rw [he.issued.1]; decide +kernel) (by decide +kernel)
  obtain ⟨hws, hshift, hsack, hecn⟩ := hagree.mpr (by unfold ZeroTsval; decide +kernel)
  rw [he.issued.1] at hws hsack hecn
  exact ⟨hws.trans (by decide +kernel), (hshift 3 (by decide +kernel)).1, hsack.trans (by decide +kernel),
    hecn.trans (by decide +kernel)⟩

/-- With a timestamp clock of 0 the SYN-ACK that announces a shift of 0 has TSval 0.  Its echo is taken
for no timestamp, and the connection has no window scaling. -/
theorem zero_timestamp_loses_options :
    let options := stampedSyn (some 0) false
    let syn := (parse tinySip.littleEndian (otherSyn options)).toOption.get stamped_parses.2.2.1
    let ackBytes := otherAck 1820706570 options (echoing 1820706570 options)
    let ack := (parse tinySip.littleEndian ackBytes).toOption.get stamped_parses.2.2.2
    Reachable (busyListener 1820706570) ∧ Reachable (cookieSent 1820706570 options) ∧
      (∃ e, (busyListener 1820706570).CookieSynack syn e ∧ e.header.options.ts = some (0, 1) ∧
        e.header.options.wscale = some 0) ∧
      (cookieSent 1820706570 options).Promotes ack ⟨536, none, false, false, false⟩ ∧
      ack.options.ts = some (2, 0) ∧
      (final (Call.run (.injectPacket ackBytes) (cookieSent 1820706570 options))).state = .established ∧
      (final (Call.run (.injectPacket ackBytes) (cookieSent 1820706570 options))).wsOk = false := by
  have hsyn : ∃ e, (busyListener 1820706570).CookieSynack
      ((parse tinySip.littleEndian (otherSyn (stampedSyn (some 0) false))).toOption.get
        stamped_parses.2.2.1) e :=
    CookieSynack.exists_of_length (by decide +kernel) (by decide +kernel) (by decide +kernel)
      (by decide +kernel) (by decide +kernel) (by decide +kernel)
  obtain ⟨e, he⟩ := hsyn
  exact ⟨reachable_busyListener _, reachable_cookieSent _ _ (by decide +kernel),
    ⟨e, he, by rw [he.issued.1]; decide +kernel, by rw [he.issued.1]; decide +kernel⟩,
    ⟨by decide +kernel, by decide +kernel, .inr (by decide +kernel), by decide +kernel⟩,
    by decide +kernel, by decide +kernel, by decide +kernel⟩

end TcpSansIo
