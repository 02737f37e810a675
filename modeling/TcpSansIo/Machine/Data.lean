import TcpSansIo.Machine.Output

/-!
# Sending data takes steps

First transmissions and retransmissions, and the send loop over them.
-/

namespace TcpSansIo

open Proc FixedWidth

variable {P : Params}

namespace Tcb

variable {s : Option Segment}

/-! ## Timers -/

lemma toNat_atMs_le {now : U64} {d : Deadline} (hd : d.isArmed = true)
    (h : now.toNat ≤ (d.raw - 1).toNat) : (Deadline.atMs now).raw.toNat ≤ d.raw.toNat := by
  have hpos : d.raw.toNat ≠ 0 := by
    intro hzero
    have : d.raw = 0 := by
      apply BitVec.eq_of_toNat_eq
      rw [hzero]
      rfl
    simp [Deadline.isArmed, this] at hd
  have hsub : (d.raw - 1).toNat = d.raw.toNat - 1 := by
    have := d.raw.isLt
    rw [BitVec.toNat_sub]
    change (2 ^ 64 - 1 + d.raw.toNat) % 2 ^ 64 = _
    omega
  change (satAdd now 1).toNat ≤ _
  rw [toNat_satAdd]
  change min (now.toNat + 1) _ ≤ _
  omega

/-- A tail loss probe is armed only while something is outstanding on an open connection, and never
after the RTO. -/
lemma maybeArmTlp_spec (t : Tcb P) :
    ∃ d, t.maybeArmTlp = { t with tlpDeadline := d } ∧
      (d.isArmed = true → t.state.isSynchronized = true ∧ t.sndUna ≠ t.sndNxt ∧
        (t.rtoDeadline.isArmed = true → d.raw.toNat ≤ t.rtoDeadline.raw.toNat)) := by
  unfold maybeArmTlp
  split
  case isTrue => exact ⟨_, rfl, fun h => absurd h (by simp)⟩
  case isFalse helig =>
    simp only [tlpEligible, Bool.and_eq_true, not_not] at helig
    have hsync : t.state.isSynchronized = true := by
      have hsends := helig.2
      revert hsends
      cases t.state <;> simp [State.sends, State.isSynchronized]
    have hne : t.sndUna ≠ t.sndNxt := by simpa using helig.1.2
    refine ⟨_, rfl, fun _ => ⟨hsync, hne, fun hrto => toNat_atMs_le hrto ?_⟩⟩
    have hget : t.rtoDeadline.get = some (t.rtoDeadline.raw - 1) := by
      rw [Deadline.get, if_neg]
      simpa [Deadline.isArmed] using hrto
    rw [hget]
    dsimp only
    rw [toNat_minB]
    exact min_le_right _ _

lemma ensureRto_spec (t : Tcb P) :
    ∃ r, t.ensureRto = { t with rtoDeadline := r } ∧ t.Ensured r := by
  unfold ensureRto
  split
  case isTrue h => exact ⟨_, rfl, h, fun _ => rfl⟩
  case isFalse h => exact ⟨_, rfl, Deadline.isArmed_atMs _, fun h' => absurd h' h⟩

/-- The bookkeeping of a first transmission, on the core of the block. -/
lemma noteNew_core (seq len seqLen : U32) (fin : Bool) (t : Tcb P) :
    ∃ rto tlp, t.Ensured rto ∧ NotAfter tlp rto ∧
      (noteNew seq len seqLen fin t).core =
        ({ t with
          finSent := t.finSent || fin
          finSeq := if fin then seq + len else t.finSeq
          sndNxt := seq + seqLen
          rtoDeadline := rto
          tlpDeadline := tlp } : Tcb P).core := by
  unfold noteNew
  have hsent : ∀ u : Tcb P, ∃ u' : Tcb P, countSent len u = u' ∧ u'.core = u.core ∧
      u'.rtoDeadline = u.rtoDeadline := by
    intro u
    unfold countSent
    split <;> exact ⟨_, rfl, rfl, rfl⟩
  obtain ⟨u, hu, hcore, hrto⟩ := hsent (advanceNxt seq len seqLen fin t)
  obtain ⟨r, hr, hens⟩ := ensureRto_spec u
  obtain ⟨d, hd, htlp⟩ := maybeArmTlp_spec ({ u with rtoDeadline := r } : Tcb P)
  rw [hu, hr, hd]
  refine ⟨r, d, ⟨hens.1, fun h => ?_⟩, fun h => (htlp h).2.2 hens.1, ?_⟩
  · rw [hens.2 (by rw [hrto]; exact h), hrto]
    rfl
  · have h := congrArg (fun c : Tcb P => ({ c with rtoDeadline := r, tlpDeadline := d } : Tcb P)) hcore
    exact h

/-! ## Segments with data or a FIN -/

/-- No segment can be built of `len` bytes at `off`: it is too long, or the ring does not hold them. -/
def Unsendable (t : Tcb P) (off len : ℕ) : Prop :=
  ¬ (40 + (segmentOptions (BitVec.ofNat 32 len) t).1.encodedLen + len ≤ MAX_PACKET ∧
    (t.sendRing.peekAt off len).length = len)

lemma unsendable_of_long {t : Tcb P} {off len : ℕ} (h : MSS.toNat < len) : t.Unsendable off len := by
  rintro ⟨hfit, -⟩
  have hmss : MSS.toNat = 1460 := rfl
  have hmax : MAX_PACKET = 1500 := rfl
  omega

lemma emitDataSegment_cases (fl : Flags) (seq : U32) (payload : RingSlice) (ect : Bool) (t : Tcb P) :
    (∃ e t', emitDataSegment fl seq payload ect t = .error (.tcp e) t' ∧ (machine s).Leads t t' ∧
        t.Unsendable payload.off payload.len) ∨
      (∃ t', emitDataSegment fl seq payload ect t = .ok false t' ∧ (machine s).Leads t t') ∨
      ∃ t' opts d h pkt ring, emitDataSegment fl seq payload ect t = .ok true t' ∧
        t.OptionsFor (BitVec.ofNat 32 payload.len) opts d ∧
        (t.sendRing.peekAt payload.off payload.len).length = payload.len ∧
        t.PeerHeader fl seq t.rcvNxt opts h ∧
        t.Staged h (t.sendRing.peekAt payload.off payload.len) pkt ring ∧
        t'.core = (t.emitted h (t.sendRing.peekAt payload.off payload.len) pkt ring d).core := by
  have hack : (segmentOptions (BitVec.ofNat 32 payload.len) t).2.rcvNxt = t.rcvNxt :=
    (segmentOptions_footprint _ t).of fun t => t.rcvNxt
  have hopts := leads_options (s := s) (BitVec.ofNat 32 payload.len) t
  rcases emitSegment_options fl seq (segmentOptions (BitVec.ofNat 32 payload.len) t).2.rcvNxt
      (BitVec.ofNat 32 payload.len) payload ect t with
    ⟨e, t', hrun, hcore, hbad⟩ | ⟨t', hrun, hcore⟩ | ⟨t', h, pkt, ring, hrun, hlen, hh, hpkt, hcore⟩
  · exact .inl ⟨e, t', run_bind_error hrun _, leads_trans hopts (leads_soft hcore), hbad⟩
  · exact .inr (.inl ⟨t', run_bind_ok hrun _, leads_trans hopts (leads_soft hcore)⟩)
  · rw [hack] at hh
    exact .inr (.inr ⟨_, _, _, h, pkt, ring, run_bind_ok hrun _, segmentOptions_ok _ t, hlen, hh, hpkt,
      hcore⟩)

/-- What a call that reports a segment as sent leaves: one more datagram, and a running RTO. -/
structure Sent (t t' : Tcb P) : Prop where
  staged : t'.txRing.len = t.txRing.len + 1
  rto : t'.rtoDeadline.isArmed = true

lemma staged_len {t : Tcb P} {h : Header} {p pkt : List U8} {ring : TxRing P.TXQ}
    (hpkt : t.Staged h p pkt ring) : ring.len = t.txRing.len + 1 := by
  have h := congrArg List.length hpkt.ring
  rwa [List.length_append, RingQueue.length_toList, RingQueue.length_toList] at h

lemma push_fst {q : RtxQueue P.RTX} (h : q.segs.len < P.RTX) (rec : Seg) : (q.push rec).1 = true := by
  unfold RtxQueue.push
  rw [dif_pos h]

/-- Noting the probe after the segment was staged, as the step does it. -/
lemma noteProbe_core {t c : Tcb P} {n : ℕ} (hcore : t.core = c) (hsent : c.sent.length = n + 1)
    (seq : U32) (probe : Option (U32 × U16)) : (t.noteProbe seq probe).core =
      { c with
        toSizes := probing c.toSizes seq probe
        probed := c.probed ++ (probe.map fun p => (n, p.2)).toList } := by
  subst hcore
  cases probe with
  | none =>
    change t.core = { t.core with probed := t.probed ++ [] }
    rw [List.append_nil]
    rfl
  | some p =>
    have hlast : t.sent.length - 1 = n := by
      rw [show t.sent.length = n + 1 from hsent, Nat.add_sub_cancel]
    unfold noteProbe
    dsimp only
    rw [hlast]
    rfl

/-- A first transmission is one step, when it succeeds and the probe, if it is one, was noted. -/
lemma emitNew_cases {t : Tcb P} {len : U32} {fin : Bool} {probe : Option (U32 × U16)}
    (hnew : t.NewOk len fin probe) :
    (∃ e t', emitNew len fin t = .error e t' ∧ (machine s).Leads t t' ∧
        t.Unsendable (t.sndNxt - t.dataUna).toNat len.toNat) ∨
      (∃ t', emitNew len fin t = .ok false t' ∧ (machine s).Leads t t') ∨
      ∃ t', emitNew len fin t = .ok true t' ∧ (machine s).Leads t (t'.noteProbe t.sndNxt probe) ∧
        Sent t t' := by
  unfold emitNew
  rw [run_get_bind]
  dsimp only
  split
  case isTrue hlong => exact .inl ⟨_, t, rfl, leads_soft rfl, unsendable_of_long hlong⟩
  case isFalse hshort =>
    rcases emitDataSegment_cases (s := s) { ack := true, psh := decide (0 < len.toNat), fin := fin }
        t.sndNxt ⟨(t.sndNxt - t.dataUna).toNat, len.toNat⟩ (decide (0 < len.toNat)) t with
      ⟨e, t', hrun, hleads, hbad⟩ | ⟨t', hrun, hleads⟩ |
        ⟨t', opts, d, h, pkt, ring, hrun, hopts, hlen, hh, hpkt, hcore⟩
    · exact .inl ⟨_, t', run_bind_error hrun _, hleads, hbad⟩
    · exact .inr (.inl ⟨t', run_bind_ok hrun _, hleads⟩)
    · rw [BitVec.ofNat_toNat, BitVec.setWidth_eq] at hopts
      have hrtx := congrArg (fun c : Tcb P => c.rtx) hcore
      change t'.rtx = t.rtx at hrtx
      have hrto := congrArg (fun c : Tcb P => c.rtoDeadline) hcore
      change t'.rtoDeadline = t.rtoDeadline at hrto
      have hpush : (t'.rtx.push (t.newSeg t'.nowMs len fin)).1 = true := by
        rw [hrtx]
        exact push_fst hnew.room _
      obtain ⟨rto, tlp, hens, htlp, hnote⟩ := noteNew_core t.sndNxt len (len + ofFlag 32 fin) fin
        ({ t' with rtx := (t'.rtx.push (t.newSeg t'.nowMs len fin)).2 } : Tcb P)
      have hens' : t.Ensured rto := ⟨hens.1, fun h => by
        have := hens.2 (by change t'.rtoDeadline.isArmed = true; rw [hrto]; exact h)
        rw [this]
        exact hrto⟩
      have hdone := congrArg (fun c : Tcb P =>
        ({ c with
          rtx := (t.rtx.push (t.newSeg t'.nowMs len fin)).2
          finSent := c.finSent || fin
          finSeq := if fin then t.sndNxt + len else c.finSeq
          sndNxt := t.sndNxt + (len + ofFlag 32 fin)
          rtoDeadline := rto
          tlpDeadline := tlp } : Tcb P)) hcore
      have hstep : Step t none _ := .first t'.nowMs hnew (not_lt.mp hshort) hopts hh hlen hpkt hens'
        htlp
      rw [hrtx] at hnote
      have hfinal := hnote.trans hdone
      refine .inr (.inr ⟨noteNew t.sndNxt len (len + ofFlag 32 fin) fin
        ({ t' with rtx := (t'.rtx.push (t.newSeg t'.nowMs len fin)).2 } : Tcb P), ?_, ?_, ?_⟩)
      · rw [run_bind_ok hrun, if_pos rfl, run_bind_ok (run_modifyGet _ _)]
        exact (congrFun (if_pos hpush) _).trans rfl
      · rw [hrtx]
        exact leads_quiet hstep (noteProbe_core hfinal (by exact List.length_append) t.sndNxt probe)
      · rw [hrtx]
        have h₁ := congrArg (fun c : Tcb P => c.txRing) hfinal
        have h₂ := congrArg (fun c : Tcb P => c.rtoDeadline) hfinal
        exact ⟨(congrArg RingQueue.len h₁).trans (staged_len hpkt),
          (congrArg Deadline.isArmed h₂).trans hens'.1⟩

lemma noteRetransmit_core (i : ℕ) (r : Seg) (plen sentLen : U32) (t : Tcb P) :
    ∃ rto, t.Ensured rto ∧ (noteRetransmit i r plen sentLen t).core =
      ({ t with
        rtx := t.rtx.retransmitted i t.nowMs
          (if plen.toNat < r.payloadLen.toNat then plen.setWidth 16 else 0)
        rtoDeadline := rto } : Tcb P).core := by
  have hrtx : (if plen.toNat < r.payloadLen.toNat then
        t.rtx.onPartialRetransmit i t.nowMs (plen.setWidth 16)
      else t.rtx.onRetransmit i t.nowMs) =
      t.rtx.retransmitted i t.nowMs
        (if plen.toNat < r.payloadLen.toNat then plen.setWidth 16 else 0) := by
    split <;> rfl
  unfold noteRetransmit
  dsimp only
  rw [hrtx]
  obtain ⟨rto, hrto, hens⟩ := ensureRto_spec (P := P) _
  rw [hrto]
  exact ⟨rto, hens, rfl⟩

/-- A retransmission is one step, when it succeeds. -/
lemma resend_cases {t : Tcb P} {i : ℕ} {r : Seg} (hre : t.ResendOk i r) :
    (∃ e t', resend i r t = .error e t' ∧ (machine s).Leads t t' ∧
        t.Unsendable (r.start - t.dataUna).toNat (minB r.payloadLen t.mssPayload).toNat) ∨
      (∃ t', resend i r t = .ok false t' ∧ (machine s).Leads t t') ∨
      ∃ t', resend i r t = .ok true t' ∧ (machine s).Leads t t' ∧ Sent t t' := by
  unfold resend
  rw [run_get_bind]
  dsimp only
  split
  case isTrue hlong => exact .inl ⟨_, t, rfl, leads_soft rfl, unsendable_of_long hlong⟩
  case isFalse hshort =>
    set plen := minB r.payloadLen t.mssPayload with hplen
    rcases emitDataSegment_cases (s := s)
        { ack := true, psh := decide (0 < plen.toNat), fin := r.flags.fin && plen == r.payloadLen }
        r.start ⟨(r.start - t.dataUna).toNat, plen.toNat⟩ false t with
      ⟨e, t', hrun, hleads, hbad⟩ | ⟨t', hrun, hleads⟩ |
        ⟨t', opts, d, h, pkt, ring, hrun, hopts, hlen, hh, hpkt, hcore⟩
    · exact .inl ⟨_, t', run_bind_error hrun _, hleads, hbad⟩
    · exact .inr (.inl ⟨t', run_bind_ok hrun _, hleads⟩)
    · rw [BitVec.ofNat_toNat, BitVec.setWidth_eq] at hopts
      have hrtx := congrArg (fun c : Tcb P => c.rtx) hcore
      change t'.rtx = t.rtx at hrtx
      have hrto := congrArg (fun c : Tcb P => c.rtoDeadline) hcore
      change t'.rtoDeadline = t.rtoDeadline at hrto
      obtain ⟨rto, hens, hnote⟩ := noteRetransmit_core i r plen
        (plen + ofFlag 32 (r.flags.fin && plen == r.payloadLen)) t'
      rw [hrtx] at hnote
      have hens' : t.Ensured rto := ⟨hens.1, fun h => by rw [← hrto] at h ⊢; exact hens.2 h⟩
      have hstep : Step t none _ := .again t'.nowMs hre hplen (not_lt.mp hshort) hopts hh hlen hpkt
        hens'
      have hfinal := hnote.trans (congrArg (fun c : Tcb P =>
        ({ c with
          rtx := t.rtx.retransmitted i t'.nowMs
            (if plen.toNat < r.payloadLen.toNat then plen.setWidth 16 else 0)
          rtoDeadline := rto } : Tcb P)) hcore)
      refine .inr (.inr ⟨_, run_bind_ok hrun _, leads_quiet hstep hfinal, ?_⟩)
      have h₁ := congrArg (fun c : Tcb P => c.txRing) hfinal
      have h₂ := congrArg (fun c : Tcb P => c.rtoDeadline) hfinal
      exact ⟨(congrArg RingQueue.len h₁).trans (staged_len hpkt),
        (congrArg Deadline.isArmed h₂).trans hens'.1⟩

/-- What may come of trying to send one segment. -/
structure Tries (s : Option Segment) (x : TcbM P Bool) (t : Tcb P) : Prop where
  refines : Refines (machine s) x t
  sent : ∀ t', x t = .ok true t' → Sent t t'

namespace Tries

lemma ofPure (t : Tcb P) : Tries s (pure false) t := ⟨Refines.ofPure _ _, fun t' h => by cases h⟩

/-- A statement that takes steps and leaves the egress ring alone may come first. -/
lemma modify_bind {g : Tcb P → Tcb P} {y : PUnit → TcbM P Bool} {t : Tcb P}
    (hs : (machine s).Leads t (g t)) (hring : (g t).txRing = t.txRing) (h : Tries s (y ⟨⟩) (g t)) :
    Tries s ((modify g : TcbM P PUnit) >>= y) t where
  refines := Refines.modify_bind hs h.refines
  sent t' ht' := by
    have := h.sent t' ht'
    exact ⟨by rw [this.staged, hring], this.rto⟩

lemma get_bind {y : Tcb P → TcbM P Bool} {t : Tcb P} (h : Tries s (y t) t) :
    Tries s ((get : TcbM P (Tcb P)) >>= y) t := ⟨Refines.get_bind h.refines, h.sent⟩

lemma of_cases {x : TcbM P Bool} {t : Tcb P} {R : Prop}
    (hsite : ∀ e t', x t = .error e t' → FaultSite t e)
    (h : (∃ e t', x t = .error e t' ∧ (machine s).Leads t t' ∧ R) ∨
      (∃ t', x t = .ok false t' ∧ (machine s).Leads t t') ∨
      ∃ t', x t = .ok true t' ∧ (machine s).Leads t t' ∧ Sent t t') : Tries s x t := by
  rcases h with ⟨e, t', hrun, hleads, -⟩ | ⟨t', hrun, hleads⟩ | ⟨t', hrun, hleads, hsent⟩
  · refine ⟨⟨by rw [hrun]; exact hleads, fun e' t₁ he => ⟨t, leads_soft rfl, hsite e' t₁ he⟩⟩, ?_⟩
    intro t₁ ht₁
    rw [hrun] at ht₁
    cases ht₁
  · refine ⟨Refines.of_ok hrun hleads, fun t₁ ht₁ => ?_⟩
    rw [hrun] at ht₁
    cases ht₁
  · refine ⟨Refines.of_ok hrun hleads, fun t₁ ht₁ => ?_⟩
    rw [hrun] at ht₁
    cases ht₁
    exact hsent

end Tries

lemma emitNew_tries {t : Tcb P} {len : U32} {fin : Bool} (hnew : t.NewOk len fin none) :
    Tries s (emitNew len fin) t := .of_cases (fun _ _ h => .first hnew h) (emitNew_cases hnew)

lemma resend_tries {t : Tcb P} {i : ℕ} {r : Seg} (hre : t.ResendOk i r) : Tries s (resend i r) t :=
  .of_cases (fun _ _ h => .again hre h) (resend_cases hre)

lemma failProbeOver_leads (r : Seg) (t : Tcb P) : (machine s).Leads t (failProbeOver r t) := by
  unfold failProbeOver
  split
  · exact leads_quiet (.resized .failed) rfl
  · exact leads_soft rfl

lemma splitForMss_leads (i : ℕ) (r : Seg) (t : Tcb P) :
    (machine s).Leads t (splitForMss i r t) := by
  unfold splitForMss
  split
  · exact leads_quiet (.remark fun _ _ _ h => h.split) rfl
  · exact leads_soft rfl

/-- The record to send again is still one that may be, after it was split. -/
lemma splitForMss_resendOk {t : Tcb P} {i : ℕ} {r : Seg} (hre : t.ResendOk i r) :
    (splitForMss i r t).ResendOk i (((splitForMss i r t).rtx.get i).getD r) := by
  unfold splitForMss
  split
  case isFalse =>
    rw [hre.record]
    exact hre
  case isTrue =>
    have hget := RtxQueue.get_split hre.record (r.start + t.mssPayload)
    rcases hget with hget | hget
    · refine ⟨?_, ?_⟩
      · change (t.rtx.split i _).2.get i = _
        rw [hget]
        rfl
      · change (((t.rtx.split i _).2.get i).getD r).awaitsRetrans = true ∨
          (((t.rtx.split i _).2.get i).getD r).flags.sacked = false
        rw [hget]
        exact hre.free
    · refine ⟨?_, ?_⟩
      · change (t.rtx.split i _).2.get i = _
        rw [hget]
        rfl
      · change (((t.rtx.split i _).2.get i).getD r).awaitsRetrans = true ∨
          (((t.rtx.split i _).2.get i).getD r).flags.sacked = false
        rw [hget, Option.getD_some, RtxQueue.awaitsRetrans_splitSeg, (splitSeg_shape r _).1.2.2.2]
        exact hre.free

lemma retransmit_tries {t : Tcb P} {i : ℕ} {r : Seg} (hre : t.ResendOk i r) :
    Tries s (retransmit i) t := by
  refine Tries.get_bind ?_
  rw [hre.record]
  have hfail : (failProbeOver r t).ResendOk i r := by
    unfold failProbeOver
    split <;> exact ⟨hre.record, hre.free⟩
  refine Tries.modify_bind (failProbeOver_leads r t) ?_ ?_
  · unfold failProbeOver
    split <;> rfl
  refine Tries.modify_bind (splitForMss_leads i r _) ?_ ?_
  · unfold splitForMss
    split <;> rfl
  exact Tries.get_bind (resend_tries (splitForMss_resendOk hfail))

/-! ## The send loop -/

lemma not_full {q : RtxQueue P.RTX} (h : ¬ q.isFull = true) : q.segs.len < P.RTX := by
  have := q.segs.len_le
  simp only [RtxQueue.isFull, RtxQueue.len, beq_iff_eq] at h
  omega

/-- A bare FIN. -/
lemma newOk_fin {t : Tcb P} (hunsent : t.unsentBytes = 0) (howed : t.finOwed = true)
    (hroom : ¬ t.rtx.isFull = true) : t.NewOk 0 true none where
  room := not_full hroom
  queued := Nat.zero_le _
  last := by rw [howed, hunsent]; rfl
  nonempty := .inr rfl
  window := Nat.zero_le _
  size := Nat.zero_le _

/-- Part of what is unsent, with the FIN if it is all of it. -/
lemma newOk_data {t : Tcb P} {len : U32} {probe : Option (U32 × U16)} (hroom : ¬ t.rtx.isFull = true)
    (hpos : 0 < len.toNat) (hqueued : len.toNat ≤ t.unsentBytes.toNat)
    (hwindow : len.toNat ≤ t.usableWindow.toNat) (hsize : t.SizeOk len probe) :
    t.NewOk len (t.finOwed && len == t.unsentBytes) probe where
  room := not_full hroom
  queued := hqueued
  last := rfl
  nonempty := .inl hpos
  window := hwindow
  size := hsize

lemma mssPayload_pos (t : Tcb P) : 0 < t.mssPayload.toNat := by
  rw [mssPayload, toNat_maxB]
  exact lt_of_lt_of_le Nat.one_pos (le_max_right _ _)

lemma pmtuProbeLen_ok {t : Tcb P} {len : U32} {cap : U16} (h : t.pmtuProbeLen = some (len, cap)) :
    t.ProbeOk len cap := by
  unfold pmtuProbeLen at h
  split at h
  · cases h
  case isFalse hcalm =>
    simp only [not_or, Bool.not_eq_true, not_not, not_lt] at hcalm
    obtain ⟨hclamped, hidle, hdue, hrtx, hopen⟩ := hcalm
    dsimp only at h
    generalize hnext : (if t.pmtuMss.toNat < BLACKHOLE_MSS1.toNat ∧
      BLACKHOLE_MSS1.toNat < t.pmtuRestoreMss.toNat then BLACKHOLE_MSS1 else t.pmtuRestoreMss) =
      next at h
    generalize hts : (if t.tsEnabled = true then (12 : U32) else 0) = ts at h
    split at h
    case isFalse => cases h
    case isTrue hmore =>
      cases h
      exact ⟨hclamped, hidle, hdue, ⟨hrtx, hopen⟩, hnext.symm, by rw [hts], hmore⟩

/-- How much new data `send_new` sends at a time. -/
lemma newLen_ok {t : Tcb P} {len : U32} {probe : Option (U32 × U16)}
    (h : t.newLen t.unsentBytes = some (len, probe)) :
    0 < len.toNat ∧ len.toNat ≤ t.unsentBytes.toNat ∧ len.toNat ≤ t.usableWindow.toNat ∧
      t.SizeOk len probe := by
  have hpos := mssPayload_pos t
  unfold newLen at h
  dsimp only at h
  have havail : (minB t.usableWindow t.unsentBytes).toNat ≤ t.unsentBytes.toNat ∧
      (minB t.usableWindow t.unsentBytes).toNat ≤ t.usableWindow.toNat := by
    rw [toNat_minB]
    omega
  generalize minB t.usableWindow t.unsentBytes = avail at h havail
  split at h
  case h_1 p hp =>
    cases h
    obtain ⟨hprobe, hfit⟩ := Option.filter_eq_some_iff.mp hp
    rw [decide_eq_true_iff] at hfit
    have hok := pmtuProbeLen_ok hprobe
    exact ⟨lt_trans hpos hok.more, by omega, by omega, rfl, hok⟩
  case h_2 =>
    split at h
    case isTrue hmss =>
      cases h
      exact ⟨hpos, by omega, by omega, le_refl _⟩
    case isFalse hmss =>
      split at h
      case isTrue hsome =>
        cases h
        exact ⟨hsome.1, by omega, by omega, (Nat.lt_of_not_le hmss).le⟩
      case isFalse => cases h

lemma idleRestart_core (mss : U32) (t : Tcb P) : (idleRestart mss t).core = t.core := by
  unfold idleRestart
  split <;> rfl

lemma idleRestart_txRing (mss : U32) (t : Tcb P) : (idleRestart mss t).txRing = t.txRing :=
  core_of (idleRestart_core mss t) fun c => c.txRing

/-- Restarting after an idle period leaves a first transmission allowed. -/
lemma NewOk.idleRestart {t : Tcb P} {len mss : U32} {fin : Bool} {probe : Option (U32 × U16)}
    (h : t.NewOk len fin probe) : (idleRestart mss t).NewOk len fin probe := by
  unfold Tcb.idleRestart
  split
  · refine ⟨h.room, h.queued, h.last, h.nonempty, h.window, ?_⟩
    cases probe with
    | none => exact h.size
    | some p =>
      obtain ⟨hlen, hok⟩ := h.size
      have hstate : (t.cc.onIdleRestart (initialWindow mss)).state = t.cc.state := by
        unfold Reno.onIdleRestart
        split <;> rfl
      exact ⟨hlen, hok.clamped, hok.idle, hok.due, ⟨hok.calm.1, hstate.trans hok.calm.2⟩, hok.next,
        hok.size, hok.more⟩
  · exact h

/-- A first transmission and the note of the probe, if it is one. -/
lemma emitNew_noted {t : Tcb P} {len : U32} {fin : Bool} {probe : Option (U32 × U16)} {seq : U32}
    (hnew : t.NewOk len fin probe) (hseq : seq = t.sndNxt) :
    Tries s (do
      let sent ← emitNew len fin
      modify fun t' => if sent then t'.noteProbe seq probe else t'
      return sent) t := by
  subst hseq
  have hnoted {t' : Tcb P} (h : Sent t t') : Sent t (t'.noteProbe t.sndNxt probe) := by
    unfold noteProbe
    split <;> exact ⟨h.staged, h.rto⟩
  rcases emitNew_cases (s := s) hnew with ⟨e, t', hrun, hleads, -⟩ | ⟨t', hrun, hleads⟩ |
    ⟨t', hrun, hleads, hsent⟩
  · have hall := run_bind_error hrun fun sent => do
      modify fun t' : Tcb P => if sent then t'.noteProbe t.sndNxt probe else t'
      return sent
    refine ⟨⟨by rw [hall]; exact hleads, fun e' t₁ he => ?_⟩, fun t₁ ht₁ => ?_⟩
    · rw [hall] at he
      cases he
      exact ⟨t, leads_soft rfl, .first hnew hrun⟩
    · rw [hall] at ht₁
      cases ht₁
  · refine ⟨Refines.of_ok (run_bind_ok hrun _) hleads, fun t₁ ht₁ => ?_⟩
    rw [run_bind_ok hrun] at ht₁
    cases ht₁
  · refine ⟨Refines.of_ok (run_bind_ok hrun _) hleads, fun t₁ ht₁ => ?_⟩
    rw [run_bind_ok hrun] at ht₁
    cases ht₁
    exact hnoted hsent

lemma sendNew_tries (t : Tcb P) : Tries s sendNew t := by
  refine Tries.get_bind ?_
  dsimp only
  split
  case isTrue hunsent =>
    split
    case isTrue hfin =>
      rw [Bool.and_eq_true, Bool.not_eq_true'] at hfin
      exact emitNew_tries (newOk_fin hunsent hfin.1 (by simp [hfin.2]))
    case isFalse => exact Tries.ofPure t
  case isFalse =>
    split
    case isTrue => exact Tries.ofPure t
    case isFalse hroom =>
      split
      case isTrue => exact Tries.modify_bind (leads_soft rfl) rfl (Tries.ofPure _)
      case isFalse =>
        split
        case h_1 => exact Tries.ofPure t
        case h_2 len probe hlen =>
          obtain ⟨hpos, hqueued, hwindow, hsize⟩ := newLen_ok hlen
          refine Tries.modify_bind (leads_soft (idleRestart_core _ t)) (idleRestart_txRing _ t) ?_
          exact emitNew_noted (newOk_data hroom hpos hqueued hwindow hsize).idleRestart
            (core_of (idleRestart_core t.mssPayload t) fun c => c.sndNxt).symm

lemma Tries.modifyGet_bind {α : Type} {g : Tcb P → α × Tcb P} {y : α → TcbM P Bool} {t : Tcb P}
    (hs : (machine s).Leads t (g t).2) (hring : (g t).2.txRing = t.txRing)
    (h : Tries s (y (g t).1) (g t).2) : Tries s ((modifyGet g : TcbM P α) >>= y) t where
  refines := Refines.modifyGet_bind hs h.refines
  sent t' ht' := by
    have := h.sent t' ht'
    exact ⟨by rw [this.staged, hring], this.rto⟩

lemma sendOne_tries (t : Tcb P) : Tries s sendOne t := by
  refine Tries.modifyGet_bind (leads_quiet (.remark fun _ _ _ h => h.nextLost) rfl) rfl ?_
  dsimp only
  split
  case h_1 i hi =>
    refine Tries.get_bind ?_
    split
    case isTrue => exact Tries.modify_bind (leads_soft rfl) rfl (Tries.ofPure _)
    case isFalse =>
      obtain ⟨r, hr, hawaits⟩ := RtxQueue.awaits_nextLost hi
      exact retransmit_tries ⟨hr, .inl hawaits⟩
  case h_2 => exact sendNew_tries _

lemma sendBudget_spec :
    2 ^ 32 ≤ P.TXQ + 2 ∨ ∃ cap, sendBudget P = some cap ∧ cap.toNat = P.TXQ + 2 := by
  by_cases hq : 2 ^ 32 ≤ P.TXQ + 2
  · exact .inl hq
  · refine .inr ?_
    have hmod : (BitVec.ofNat 32 P.TXQ).toNat = P.TXQ := by
      rw [BitVec.toNat_ofNat]
      exact Nat.mod_eq_of_lt (by omega)
    refine ⟨BitVec.ofNat 32 P.TXQ + 2, ?_, ?_⟩
    · unfold sendBudget
      dsimp only
      rw [if_pos (by omega)]
    · rw [BitVec.toNat_add, hmod]
      change (P.TXQ + 2) % 2 ^ 32 = _
      omega

/-- A round that sends takes a slot of the egress ring, so the loop ends before its budget does. -/
lemma sendLoop_refines (fuel : ℕ) (guard : U32) (t : Tcb P)
    (hguard : P.TXQ + 2 < 2 ^ 32 → guard.toNat ≤ t.txRing.len)
    (hfuel : P.TXQ < fuel + t.txRing.len) : Refines (machine s) (sendLoop fuel guard) t := by
  induction fuel generalizing guard t with
  | zero =>
    have := t.txRing.len_le
    omega
  | succ fuel ih =>
    refine Refines.get_bind ?_
    split
    case isTrue => exact Refines.ofPure _ _
    case isFalse hroom =>
      have hlen : t.txRing.len < P.TXQ := by
        have := t.txRing.len_le
        simp only [egressFull, TxRing.isFull, Bool.or_eq_true, beq_iff_eq, not_or] at hroom
        omega
      rcases sendBudget_spec (P := P) with hq | ⟨cap, hcap, hcapNat⟩
      · split
        case h_1 => exact Refines.ofThrow (.budget hq)
        case h_2 cap _ =>
          split
          case isTrue =>
            split
            · exact Refines.ofThrow (.budget hq)
            · exact Refines.ofPure _ _
          case isFalse =>
            refine (sendOne_tries t).refines.bind fun sent t' ht' => ?_
            cases sent with
            | false => exact Refines.ofPure _ _
            | true =>
              have hsent := ((sendOne_tries (s := s) t).sent t' ht').staged
              exact ih (guard + 1) t' (fun h => by omega) (by omega)
      · rw [hcap]
        have hg := hguard (by have := cap.isLt; omega)
        have hnext : (guard + 1).toNat = guard.toNat + 1 := by
          have := cap.isLt
          rw [BitVec.toNat_add]
          change (guard.toNat + 1) % 2 ^ 32 = _
          omega
        dsimp only
        rw [if_neg (by omega)]
        refine (sendOne_tries t).refines.bind fun sent t' ht' => ?_
        cases sent with
        | false => exact Refines.ofPure _ _
        | true =>
          have hsent := ((sendOne_tries (s := s) t).sent t' ht').staged
          exact ih (guard + 1) t' (fun _ => by omega) (by omega)

lemma updatePersist_core (t : Tcb P) : (updatePersist t).core = t.core := by
  unfold updatePersist
  dsimp only
  split
  · rfl
  · split <;> rfl

lemma maybeSendData_refines (t : Tcb P) : Refines (machine s) maybeSendData t := by
  refine Refines.get_bind ?_
  split
  case isTrue => exact Refines.ofPure _ _
  case isFalse =>
    refine (sendLoop_refines (P.TXQ + 1) 0 t (fun _ => Nat.zero_le _) (by omega)).bind
      fun _ t' _ => ?_
    exact Refines.ofModify (leads_soft (updatePersist_core t'))

end Tcb

end TcpSansIo
