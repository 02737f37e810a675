import TcpSansIo.Receive.Timestamps
import TcpSansIo.Rtx.Origin
import TcpSansIo.Send.Flight
import TcpSansIo.Tcb.Traversal

/-!
# The echoed timestamp

A peer may echo any timestamp it likes.  TSecr is looked at only to tell which transmission of a
retransmitted segment an ACK answers (Karn's problem):

* where an ACK covers no such segment, TSecr makes no difference to anything
  (`injectSegment_echoing`): every other function of the input path reads TSval at most;
* where it covers one, the peer can make a round trip look longer, but not shorter than the time since
  the last transmission among what it covers (`rttSample_ge`).
-/

namespace TcpSansIo

open Proc FixedWidth RtxQueue

variable {P : Params}

/-- The segment with another echoed timestamp, if it carries the option at all. -/
def Segment.echoing (seg : Segment) (tsecr : U32) : Segment :=
  { seg with options.ts := seg.options.ts.map fun ts => (ts.1, tsecr) }

/-! ## Samples -/

/-- A segment sent only once is delivered whatever was echoed. -/
lemma Rack.onDelivered_first (r : Rack) {s : Seg} (now : U64) (e e' : Option U32)
    (hs : s.flags.everRetrans = false) : r.onDelivered s now e = r.onDelivered s now e' := by
  unfold Rack.onDelivered Rack.ambiguous
  simp only [hs, Bool.false_and]

namespace Tcb

/-- Without a retransmitted segment among those acknowledged, the echo is not used. -/
lemma foldl_onAckedSeg_first (now : U64) (e e' : Option U32) {calls : List (Seg × Bool)}
    (hcalls : ∀ c ∈ calls, c.2 = true → c.1.flags.everRetrans = false) (a : Rack × AckTimes)
    (ha : a.2.retransAcked = false) :
    calls.foldl (onAckedSeg now e) a = calls.foldl (onAckedSeg now e') a ∧
      (calls.foldl (onAckedSeg now e) a).2.retransAcked = false := by
  induction calls generalizing a with
  | nil => exact ⟨rfl, ha⟩
  | cons c calls ih =>
    have hc := hcalls c List.mem_cons_self
    have hone : onAckedSeg now e a c = onAckedSeg now e' a c ∧
        (onAckedSeg now e a c).2.retransAcked = false := by
      unfold onAckedSeg
      cases hfirst : c.2 with
      | false => exact ⟨rfl, ha⟩
      | true =>
        have hs := hc hfirst
        simp only [if_true, hs, Bool.or_false, a.1.onDelivered_first now e e' hs]
        exact ⟨trivial, ha⟩
    rw [List.foldl_cons, List.foldl_cons, hone.1]
    exact ih (fun c' hc' => hcalls c' (List.mem_cons_of_mem c hc')) _ (hone.1 ▸ hone.2)

/-- The times an ACK is measured by are among those that satisfy `p`. -/
structure TimesFrom (p : U64 → Prop) (a : AckTimes) : Prop where
  oldest : ∀ x ∈ a.oldestTs, p x
  newest : p a.newestTs ∨ a.newestTs = 0 ∧ a.retransAcked = false

lemma TimesFrom.foldl {p : U64 → Prop} (now : U64) (e : Option U32) {calls : List (Seg × Bool)}
    (hcalls : ∀ c ∈ calls, c.2 = true → p c.1.xmitTs) (a : Rack × AckTimes) (ha : TimesFrom p a.2) :
    TimesFrom p (calls.foldl (onAckedSeg now e) a).2 := by
  induction calls generalizing a with
  | nil => exact ha
  | cons c calls ih =>
    refine ih (fun c' hc' => hcalls c' (List.mem_cons_of_mem c hc')) _ ?_
    have hc := hcalls c List.mem_cons_self
    unfold onAckedSeg
    split
    case isFalse => exact ha
    case isTrue hfirst =>
      have hp := hc hfirst
      refine ⟨fun x hx => ?_, .inl ?_⟩
      · dsimp only at hx
        split at hx
        · exact ha.oldest x hx
        · rw [Option.mem_some_iff] at hx
          subst hx
          split
          case h_1 k hk =>
            unfold minB
            split
            · exact ha.oldest k hk
            · exact hp
          case h_2 => exact hp
      · dsimp only
        unfold maxB
        split
        · exact hp
        case isFalse hlt =>
          rcases ha.newest with h | ⟨h, -⟩
          · exact h
          · rw [h] at hlt
            exact absurd (Nat.zero_le _) hlt

/-- No sample is shorter than the time since one of the transmissions it was taken from. -/
lemma rttSample_ge {p : U64 → Prop} {now : U64} {e : Option U32} {a : AckTimes} {r : U32}
    (ha : TimesFrom p a) (hnow : ∀ x, p x → now.toNat < x.toNat + 2 ^ 31)
    (hr : r ∈ rttSample now e a) : ∃ x, p x ∧ now.toNat ≤ r.toNat + x.toNat := by
  unfold rttSample at hr
  split at hr
  case isTrue hretrans =>
    obtain hp | ⟨-, hnone⟩ := ha.newest
    · refine ⟨a.newestTs, hp, ?_⟩
      have hlt := hnow _ hp
      obtain ⟨ts, hts, rfl⟩ := Option.map_eq_some_iff.mp hr
      obtain ⟨-, hts⟩ := Option.filter_eq_some_iff.mp hts
      rw [Bool.not_eq_true', decide_eq_false_iff_not, seqGt_iff] at hts
      -- The echo is at or before the newest transmission, which is at most half the clock ago.
      have hnow32 : (now.setWidth 32 : U32).toNat = now.toNat % 2 ^ 32 := BitVec.toNat_setWidth ..
      have hnew32 : (a.newestTs.setWidth 32 : U32).toNat = a.newestTs.toNat % 2 ^ 32 :=
        BitVec.toNat_setWidth ..
      generalize (now.setWidth 32 : U32) = n at *
      generalize (a.newestTs.setWidth 32 : U32) = m at *
      generalize now.toNat = n' at *
      generalize a.newestTs.toNat = m' at *
      bv_omega
    · rw [hretrans] at hnone
      cases hnone
  case isFalse =>
    split at hr
    case h_1 x hx =>
      refine ⟨x, ha.oldest x hx, ?_⟩
      have hnarrow := tryNarrow_toNat hr
      rw [toNat_satSub] at hnarrow
      omega
    case h_2 => cases hr

/-! ## What an ACK covers -/

/-- The records an acknowledgment newly covers: not SACKed, and begun before it. -/
def covered (t : Tcb P) (ack : U32) : List Seg :=
  if t.ackAcceptable ack then
    t.rtx.records.filter fun s => !s.flags.sacked && decide (seqLt s.start ack)
  else []

/-- The newest of the transmission times of some records. -/
def newestOf (l : List Seg) : ℕ := l.foldr (fun s n => max s.xmitTs.toNat n) 0

lemma le_newestOf {l : List Seg} {s : Seg} (hs : s ∈ l) : s.xmitTs.toNat ≤ newestOf l := by
  induction l with
  | nil => cases hs
  | cons x l ih =>
    rcases List.mem_cons.mp hs with rfl | hs
    · exact le_max_left _ _
    · exact (ih hs).trans (le_max_right _ _)

/-- The SACK option of a segment leaves parts of the records there were. -/
lemma sackAbsorbed_inherits {t : Tcb P} {a b : U32} {f : Option Bool} (h : t.rtx.Valid a b f)
    (seg : Segment) : (t.sackAbsorbed seg).2.rtx.Valid a b f ∧ Inherits a t.rtx (t.sackAbsorbed seg).2.rtx := by
  have hrule := absorbSack_rule (R := Keeps fun u : Tcb P => u.rtx.Valid a b f ∧ Inherits a t.rtx u.rtx)
    (fun _ _ h => h) (fun u l r mss h => ?_) (fun d b h => ⟨h.1.sack _ _, h.2.trans (.sack h.1 _ _)⟩)
    seg t.mssPayload { t with rack := t.rack.onAckStart }
  · exact hrule ⟨h, .refl a t.rtx⟩
  · unfold believeDsack
    dsimp only
    split
    · exact ⟨h.1.unmarkLost, h.2.trans (.unmarkLost _)⟩
    · exact h

/-- What a cumulative ACK reports for the first time is part of what the ACK covers. -/
lemma covered_of_call {t : Tcb P} {seg : Segment} (hf : Flight t) (hok : t.ackAcceptable seg.ack = true)
    (hlo : ¬ seqLt seg.ack t.sndUna) (hne : seg.ack ≠ t.sndUna) {c : Seg × Bool}
    (hc : c ∈ ((t.sackAbsorbed seg).2.rtx.ackTo seg.ack).calls) (hfirst : c.2 = true) :
    ∃ s ∈ t.covered seg.ack, c.1.xmitTs = s.xmitTs ∧ c.1.flags.everRetrans = s.flags.everRetrans := by
  have hhi : ¬ seqGt seg.ack t.sndNxt := not_after_of_ackAcceptable hok
  have hin := hf.ack_le_data hlo hhi hne
  obtain ⟨hvalid, horigin⟩ := sackAbsorbed_inherits hf.queue seg
  obtain ⟨hmem, hsack, hlt⟩ := mem_calls_ackTo hvalid hin hc
  obtain ⟨s, hs, hpart⟩ := horigin c.1 hmem
  refine ⟨s, ?_, hpart.time, hpart.retrans⟩
  have hunsacked : s.flags.sacked = false := by
    by_contra hcon
    rw [hfirst, hpart.sacked (by simpa using hcon)] at hsack
    cases hsack
  rw [covered, if_pos hok, List.mem_filter]
  refine ⟨hs, ?_⟩
  rw [hunsacked, Bool.not_false, Bool.true_and, decide_eq_true_eq]
  exact hpart.seqLt hf.queue hvalid hs hmem hin hlt

/-! ## Non-interference -/

/-- An ACK that covers no retransmitted segment does the same whatever was echoed. -/
lemma ackAbsorbed_echo {t : Tcb P} {seg : Segment} (hf : Flight t) (hok : t.ackAcceptable seg.ack = true)
    (hlo : ¬ seqLt seg.ack t.sndUna) (hcov : ∀ s ∈ t.covered seg.ack, s.flags.everRetrans = false)
    (e e' : Option U32) : t.ackAbsorbed seg e = t.ackAbsorbed seg e' := by
  unfold ackAbsorbed
  split
  case isFalse => rfl
  case isTrue hacked =>
    have hne : seg.ack ≠ t.sndUna := fun h => hacked (by rw [h]; exact BitVec.sub_self _)
    have hcalls : ∀ c ∈ ((t.sackAbsorbed seg).2.rtx.ackTo seg.ack).calls, c.2 = true →
        c.1.flags.everRetrans = false := by
      intro c hc hfirst
      obtain ⟨s, hs, -, hretrans⟩ := covered_of_call hf hok hlo hne hc hfirst
      rw [hretrans, hcov s hs]
    obtain ⟨hfold, hno⟩ := foldl_onAckedSeg_first (t.sackAbsorbed seg).2.nowMs e e' hcalls
      ((t.sackAbsorbed seg).2.rack, ⟨none, 0, false⟩) rfl
    unfold cumulativeAck
    dsimp only
    rw [hfold] at hno ⊢
    unfold rttSample
    rw [hno]
    rfl

lemma reactToAck_echoing {t : Tcb P} {seg : Segment} (hf : Flight t) (hok : t.ackAcceptable seg.ack = true)
    (hlo : ¬ seqLt seg.ack t.sndUna) (hcov : ∀ s ∈ t.covered seg.ack, s.flags.everRetrans = false)
    (e : U32) : reactToAck (seg.echoing e) t = reactToAck seg t := by
  have hsame : t.ackAbsorbed (seg.echoing e) (t.tsecrOf (seg.echoing e)) =
      t.ackAbsorbed seg (t.tsecrOf (seg.echoing e)) := rfl
  rw [reactToAck_eq, reactToAck_eq, hsame, ackAbsorbed_echo hf hok hlo hcov _ (t.tsecrOf seg)]
  rfl

section Echo

variable (t : Tcb P) (seg : Segment) (e : U32)

lemma mayAnswerAtOnce_echoing : t.mayAnswerAtOnce (seg.echoing e) = t.mayAnswerAtOnce seg := by
  unfold mayAnswerAtOnce
  rw [show (seg.echoing e).options.ts.isSome = seg.options.ts.isSome from Option.isSome_map]
  rfl

lemma pawsReject_echoing : t.pawsReject (seg.echoing e) = t.pawsReject seg := by
  unfold pawsReject Segment.echoing
  cases seg.options.ts <;> rfl

lemma updateTsRecent_echoing : t.updateTsRecent (seg.echoing e) = t.updateTsRecent seg := by
  unfold updateTsRecent Segment.echoing
  cases t.tsEnabled <;> cases seg.options.ts <;> rfl

lemma ackLive_echoing : t.ackLive (seg.echoing e) = t.ackLive seg := by
  unfold ackLive
  rw [pawsReject_echoing]
  rfl

end Echo

lemma processAck_echoing {t : Tcb P} {seg : Segment} {e : U32}
    (h : ¬ seqLt seg.ack t.sndUna →
      reactToAck (seg.echoing e) { t with rtxCount := 0 } = reactToAck seg { t with rtxCount := 0 }) :
    processAck (seg.echoing e) t = processAck seg t := by
  unfold processAck
  rw [run_modify_bind, run_modify_bind, run_get_bind, run_get_bind]
  change (if seqLt seg.ack t.sndUna then (pure () : TcbM P Unit) else applyAck (seg.echoing e)) _ =
    (if seqLt seg.ack t.sndUna then (pure () : TcbM P Unit) else applyAck seg) _
  split
  case isTrue => rfl
  case isFalse hcur =>
    unfold applyAck
    rw [run_bind, run_bind, h hcur]

/-- A segment does the same with another echo if its ACK does, wherever it is reacted to. -/
lemma onSynchronized_echoing {t : Tcb P} {seg : Segment} {e : U32}
    (h : ∀ u, ReactsAt t seg u → reactToAck (seg.echoing e) u = reactToAck seg u) :
    onSynchronized (seg.echoing e) t = onSynchronized seg t := by
  have haccept (probe : Bool) (hok : t.ackAcceptable seg.ack = true) :
      acceptSegment (seg.echoing e) probe t = acceptSegment seg probe t := by
    have hnote : t.noteSegment (seg.echoing e) = t.noteSegment seg := by
      unfold noteSegment
      rw [updateTsRecent_echoing]
      rfl
    have huna : (t.noteSegment seg).sndUna = t.sndUna := (noteSegment_noted t seg).of fun t => t.sndUna
    have hack : processAck (seg.echoing e) (t.noteSegment seg) = processAck seg (t.noteSegment seg) :=
      processAck_echoing fun hcur => h _ ⟨hok, huna ▸ hcur, .inl rfl⟩
    unfold acceptSegment
    rw [run_modify_bind, run_modify_bind]
    change (processAck (seg.echoing e) >>= _) (t.noteSegment (seg.echoing e)) =
      (processAck seg >>= _) (t.noteSegment seg)
    rw [hnote, run_bind, run_bind, hack]
    rfl
  have hanswer (live : Bool) (t : Tcb P) :
      answerUnacceptable (seg.echoing e) live t = answerUnacceptable seg live t := by
    unfold answerUnacceptable
    rw [run_get_bind, run_get_bind, mayAnswerAtOnce_echoing]
    rfl
  have hunacceptable : onUnacceptable (seg.echoing e) t = onUnacceptable seg t := by
    have huna : (t.updateTsRecent seg).onPeerAlive.sndUna = t.sndUna :=
      (noteOld_noted t seg).of fun t => t.sndUna
    unfold onUnacceptable
    rw [run_get_bind, run_get_bind, ackLive_echoing]
    refine run_ite_congr (fun _ => rfl) fun _ => run_ite_congr (fun _ => rfl) fun hgood => ?_
    refine run_ite_congr (fun _ => ?_) fun _ => hanswer false t
    have hok : t.ackAcceptable seg.ack = true := by
      simp only [Bool.or_eq_true, Bool.not_eq_true', not_or, Bool.not_eq_false] at hgood
      exact hgood.2
    have hack : processAck (seg.echoing e) (t.updateTsRecent seg).onPeerAlive =
        processAck seg (t.updateTsRecent seg).onPeerAlive :=
      processAck_echoing fun hcur => h _ ⟨hok, huna ▸ hcur, .inr rfl⟩
    rw [run_modify_bind, run_modify_bind, updateTsRecent_echoing, run_bind, run_bind, hack]
    cases processAck seg (t.updateTsRecent seg).onPeerAlive with
    | error _ _ => rfl
    | ok _ u => exact run_ite_congr (fun _ => rfl) fun _ => hanswer true u
  unfold onSynchronized
  rw [run_get_bind, run_get_bind, mayAnswerAtOnce_echoing, pawsReject_echoing]
  refine run_ite_congr (fun _ => rfl) fun _ => run_ite_congr (fun _ => hunacceptable) fun _ => ?_
  refine run_ite_congr (fun _ => rfl) fun _ => run_ite_congr (fun _ => rfl) fun _ => ?_
  refine run_ite_congr (fun _ => rfl) fun _ => run_ite_congr (fun _ => rfl) fun _ => ?_
  refine run_ite_congr (fun _ => rfl) fun hgood => haccept _ ?_
  rw [Bool.not_eq_true', Bool.not_eq_false] at hgood
  exact hgood

/-- An ACK is reacted to in the block as it was, as far as the ACK is concerned. -/
lemma ReactsAt.same {t u : Tcb P} {seg : Segment} (h : ReactsAt t.countIn seg u) (hf : Flight t) :
    Flight u ∧ u.ackAcceptable seg.ack = true ∧ ¬ seqLt seg.ack u.sndUna ∧
      u.covered seg.ack = t.covered seg.ack := by
  have hcore : u.core = t.core := h.agree.of core
  have hok : u.ackAcceptable seg.ack = t.countIn.ackAcceptable seg.ack :=
    h.agree.of fun t => t.ackAcceptable seg.ack
  have huna : u.sndUna = t.sndUna := h.agree.of fun t => t.sndUna
  refine ⟨?_, hok.trans h.acceptable, huna ▸ h.current, h.agree.of fun t => t.covered seg.ack⟩
  rw [← Flight.stable.core u, hcore, Flight.stable.core t]
  exact hf

/-- The echo of a segment to a synchronized connection makes no difference unless its ACK covers a
retransmitted segment. -/
lemma injectSegment_echoing {t : Tcb P} {seg : Segment} (hf : Flight t)
    (hsync : t.state.isSynchronized = true) (hcov : ∀ s ∈ t.covered seg.ack, s.flags.everRetrans = false)
    (e : U32) : injectSegment (seg.echoing e) t = injectSegment seg t := by
  have hcount : onSynchronized (seg.echoing e) t.countIn = onSynchronized seg t.countIn := by
    refine onSynchronized_echoing fun u hu => ?_
    obtain ⟨hfu, hok, hlo, hcovered⟩ := hu.same hf
    exact reactToAck_echoing hfu hok hlo (hcovered ▸ hcov) e
  -- The echo is not part of the 4-tuple.
  by_cases htuple : t.OnTuple seg
  · have htuple' : t.OnTuple (seg.echoing e) := htuple
    rw [injectSegment_onTuple hsync htuple, injectSegment_onTuple hsync htuple']
    exact hcount
  · have htuple' : ¬ t.OnTuple (seg.echoing e) := htuple
    rw [injectSegment_stray hsync htuple, injectSegment_stray hsync htuple']

/-! ## Samples taken -/

/-- The round-trip estimator: SRTT, RTTVAR, whether there was a sample, the RTO and the minimum RTT. -/
def estimator (t : Tcb P) : U32 × U32 × Bool × U32 × WinMin :=
  (t.srttMs, t.rttvarMs, t.rttFirstSample, t.rtoMs, t.rack.minRtt)

/-- What a sample makes of the estimator depends on nothing else but the clock. -/
lemma sampleRtt_estimator {t t' : Tcb P} (h : t'.estimator = t.estimator) (hnow : t'.nowMs = t.nowMs)
    (sample : Option U32) : (t'.sampleRtt sample).estimator = (t.sampleRtt sample).estimator := by
  simp only [estimator, Prod.mk.injEq] at h
  obtain ⟨h₁, h₂, h₃, h₄, h₅⟩ := h
  unfold sampleRtt
  split
  · split
    · unfold updateRtt
      dsimp only
      rw [h₃]
      split
      · simp only [estimator, Rack.sampleRtt, h₅, hnow]
      · simp only [estimator, Rack.sampleRtt, h₁, h₂, h₅, hnow]
    · simp only [estimator, h₁, h₂, h₃, h₄, h₅]
  · simp only [estimator, h₁, h₂, h₃, h₄, h₅]

lemma noteProgress_estimator (t : Tcb P) (acked : U32) : (t.noteProgress acked).estimator = t.estimator := by
  unfold noteProgress
  dsimp only
  split
  · rfl
  split
  · rfl
  split <;> rfl

/-- The times an ACK is measured by. -/
def ackTimes (t : Tcb P) (ack : U32) (tsecrMs : Option U32) : AckTimes :=
  ((t.rtx.ackTo ack).calls.foldl (onAckedSeg t.nowMs tsecrMs) (t.rack, ⟨none, 0, false⟩)).2

lemma cumulativeAck_estimator (ack acked mss : U32) (tsecrMs : Option U32) (delivered : U32)
    (t : Tcb P) : (cumulativeAck ack acked mss tsecrMs delivered t).2.estimator =
      (t.sampleRtt (rttSample t.nowMs tsecrMs (t.ackTimes ack tsecrMs))).estimator := by
  have hmin (l : List (Seg × Bool)) (a : Rack × AckTimes) :
      (l.foldl (onAckedSeg t.nowMs tsecrMs) a).1.minRtt = a.1.minRtt := by
    induction l generalizing a with
    | nil => rfl
    | cons c l ih =>
      rw [List.foldl_cons, ih]
      unfold onAckedSeg
      split
      · exact Rack.minRtt_onDelivered _ _ _ _
      · rfl
  unfold cumulativeAck
  dsimp only
  rw [noteProgress_estimator]
  apply sampleRtt_estimator
  · simp only [estimator, hmin]
  · rfl

/-- What reacting to an ACK makes of the estimator. -/
lemma reactToAck_estimator {t : Tcb P} {seg : Segment} (hf : Flight t)
    (hok : t.ackAcceptable seg.ack = true) (hlo : ¬ seqLt seg.ack t.sndUna)
    (hnow : ∀ s ∈ t.covered seg.ack, t.nowMs.toNat < s.xmitTs.toNat + 2 ^ 31) :
    ∃ sample : Option U32, (final (reactToAck seg t)).estimator = (t.sampleRtt sample).estimator ∧
      ∀ r ∈ sample, t.nowMs.toNat ≤ r.toNat + newestOf (t.covered seg.ack) := by
  have hsack := sackAbsorbed_loss t seg
  have hest : (t.sackAbsorbed seg).2.estimator = t.estimator := hsack.of estimator
  have hclock : (t.sackAbsorbed seg).2.nowMs = t.nowMs := hsack.of fun t => t.nowMs
  have hrest : (final (reactToAck seg t)).estimator =
      (t.ackAbsorbed seg (t.tsecrOf seg)).2.estimator := (reactToAck_recovery seg t).of estimator
  rw [hrest]
  unfold ackAbsorbed
  split
  case isFalse => exact ⟨none, hest, nofun⟩
  case isTrue hacked =>
    have hne : seg.ack ≠ t.sndUna := fun h => hacked (by rw [h]; exact BitVec.sub_self _)
    rw [cumulativeAck_estimator]
    refine ⟨_, sampleRtt_estimator hest hclock _, fun r hr => ?_⟩
    have htimes : TimesFrom (fun x => ∃ s ∈ t.covered seg.ack, s.xmitTs = x)
        ((t.sackAbsorbed seg).2.ackTimes seg.ack (t.tsecrOf seg)) := by
      refine TimesFrom.foldl _ _ (fun c hc hfirst => ?_) _ ⟨nofun, .inr ⟨rfl, rfl⟩⟩
      obtain ⟨s, hs, htime, -⟩ := covered_of_call hf hok hlo hne hc hfirst
      exact ⟨s, hs, htime.symm⟩
    rw [hclock] at hr
    obtain ⟨x, ⟨s, hs, rfl⟩, hle⟩ := rttSample_ge htimes (fun x ⟨s, hs, hx⟩ => hx ▸ hnow s hs) hr
    exact hle.trans (Nat.add_le_add_left (le_newestOf hs) _)

lemma estimator_of_noted {t t' : Tcb P} (h : Agree exceptNoted t t') : Agree estimator t t' :=
  h.of estimator

/-- Nothing but the reaction to an ACK touches the estimator. -/
lemma estimator_quiet (seg : Segment) : QuietAtoms (Agree (estimator (P := P))) seg where
  toSendAtoms := .ofTransmit fun h => h.of estimator
  retries _ := rfl
  finAcked t := by
    have hwait : Agree estimator t { t.enterTimeWait with state := .timeWait } := by
      unfold enterTimeWait
      generalize Deadline.atMs _ = d
      exact rfl
    unfold ourFinAcked
    split
    · split
      · exact rfl
      · exact hwait
      · exact rfl
      · exact rfl
    · exact rfl
  notes t := estimator_of_noted (noteSegment_noted t seg)
  notesOld t := estimator_of_noted (noteOld_noted t seg)
  takes t := (receiveSegment_frame t seg).of estimator
  duplicate _ := rfl
  lingers t := by
    unfold restartTimeWait
    generalize Deadline.atMs _ = d
    exact rfl
  resets _ t := by
    unfold onResetReceived
    split <;> exact rfl

lemma injectSegment_estimator {t : Tcb P} {seg : Segment} (hf : Flight t)
    (hsync : t.state.isSynchronized = true)
    (hnow : ∀ s ∈ t.covered seg.ack, t.nowMs.toNat < s.xmitTs.toNat + 2 ^ 31) :
    ∃ sample : Option U32, (final (injectSegment seg t)).estimator = (t.sampleRtt sample).estimator ∧
      ∀ r ∈ sample, t.nowMs.toNat ≤ r.toNat + newestOf (t.covered seg.ack) := by
  by_cases htuple : t.OnTuple seg
  · rw [injectSegment_onTuple hsync htuple]
    rcases (estimator_quiet seg).onSynchronized t.countIn with hquiet | ⟨u, hu, hafter⟩
    · exact ⟨none, hquiet, nofun⟩
    · obtain ⟨hfu, hok, hlo, hcovered⟩ := hu.same hf
      have hclock : u.nowMs = t.nowMs := hu.agree.of fun t => t.nowMs
      have hest : u.estimator = t.estimator := hu.agree.of estimator
      rw [← hcovered, ← hclock] at hnow
      obtain ⟨sample, hsample, hge⟩ := reactToAck_estimator hfu hok hlo hnow
      rw [← hcovered, ← hclock]
      exact ⟨sample, hafter.trans (hsample.trans (sampleRtt_estimator hest hclock sample)), hge⟩
  · rw [injectSegment_stray hsync htuple]
    exact ⟨none, rfl, nofun⟩

end Tcb

open Tcb

/-- For any segment to a synchronized connection: if its ACK newly covers no segment that was ever
retransmitted, another TSecr gives the same result, the same block and so the same datagrams staged.
In any case a round-trip sample it yields is no shorter than the time since the newest transmission among
what the ACK newly covers. -/
theorem echoed_timestamp_confined {t : Tcb P} (ht : Reachable t) (hsync : t.state.isSynchronized = true)
    (seg : Segment) :
    ((∀ s ∈ t.covered seg.ack, s.flags.everRetrans = false) →
      ∀ tsecr, injectSegment (seg.echoing tsecr) t = injectSegment seg t) ∧
    ((∀ s ∈ t.covered seg.ack, t.nowMs.toNat < s.xmitTs.toNat + 2 ^ 31) →
      ∃ sample : Option U32,
        (final (injectSegment seg t)).estimator = (t.sampleRtt sample).estimator ∧
        ∀ r ∈ sample, t.nowMs.toNat ≤ r.toNat + newestOf (t.covered seg.ack)) :=
  ⟨fun hcov tsecr => injectSegment_echoing ht.flight hsync hcov tsecr,
    fun hnow => injectSegment_estimator ht.flight hsync hnow⟩

/-- The client with timestamps, with three bytes in flight. -/
def tinyFlying : Tcb tiny := runAll [.send [1, 2, 3], .tick, .extractPacketWith] tinyStamped

/-- The same client 40 ms after it retransmitted them. -/
def tinyResent : Tcb tiny := runAll [.setNow 5000, .tick, .extractPacketWith, .setNow 5040] tinyFlying

/-- The peer's ACK of the three bytes, echoing 5000. -/
def stampedAck : List U8 :=
  datagram { peerAck with ack := 104, options := { TcpOptions.NONE with ts := some (1001, 5000) } } []

lemma stampedAck_parses : (parse tiny.littleEndian stampedAck).toOption.isSome = true := by
  decide +kernel

theorem tiny_echo_confined :
    ∃ seg, parse tiny.littleEndian stampedAck = .ok seg ∧
      (tinyFlying.covered seg.ack).length = 1 ∧
      injectSegment (seg.echoing 77) tinyFlying = injectSegment seg tinyFlying ∧
      (tinyResent.covered seg.ack).any (fun s => s.flags.everRetrans) = true ∧
      (final (injectSegment seg tinyResent)).srttMs ≠ tinyResent.srttMs ∧
      ∃ sample : Option U32,
        (final (injectSegment seg tinyResent)).estimator = (tinyResent.sampleRtt sample).estimator ∧
        ∀ r ∈ sample, tinyResent.nowMs.toNat ≤ r.toNat + newestOf (tinyResent.covered seg.ack) := by
  have hflying : Reachable tinyFlying := reachable_tinyStamped.runAll (by decide +kernel)
  have hresent : Reachable tinyResent := hflying.runAll (by decide +kernel)
  refine ⟨_, parse_get stampedAck_parses, by decide +kernel, ?_, by decide +kernel, by decide +kernel, ?_⟩
  · exact (echoed_timestamp_confined hflying (by decide +kernel) _).1 (by decide +kernel) 77
  · exact (echoed_timestamp_confined hresent (by decide +kernel) _).2 (by decide +kernel)

end TcpSansIo
