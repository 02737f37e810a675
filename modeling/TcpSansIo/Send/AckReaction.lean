import TcpSansIo.Send.BetweenAcks
import TcpSansIo.Send.Flight

/-!
# One reaction to an ACK

What an ACK that is reacted to does to the send side, as `Reacted` sums it up.

* SACK blocks set flags of the scoreboard, and the cumulative ACK drops flags in front of it.  The
  bytes they report as delivered are exactly what the two together cover anew: `Reacted.delivered`.
* A reduction of the congestion window that must last does last, and no other one begins before it ends:
  `Reacted.reduced`.  One that an echoed mark begins must last for a window: `Reacted.reduces`.
-/

namespace TcpSansIo

open Proc FixedWidth

variable {P : Params}

namespace Tcb

/-! ## SACK blocks -/

/-- SACK blocks: `n` flags were set. -/
structure Sacks (t t' : Tcb P) (n : ℕ) : Prop where
  seq : t'.toSendSeq = t.toSendSeq
  sack : t'.sackEnabled = t.sackEnabled
  reno : t'.renoSacked = t.renoSacked
  history : t'.history = t.history
  phase : t.cc.undoValid = false → t'.phase = t.phase
  grows : Grows t.line t'.line
  count : t'.line.count true = t.line.count true + n
  valid : ∀ a b f, t.rtx.Valid a b f → t'.rtx.Valid a b f

namespace Sacks

variable {t t' t'' : Tcb P} {n n' : ℕ}

lemma of_agree (h : Agree Carries.ledger t t') : Sacks t t' 0 := by
  have hrtx : t'.rtx = t.rtx := h.of fun x => x.2.2.2.2.1
  have hline : t'.line = t.line := by rw [line, line, hrtx]
  refine ⟨h.of Prod.fst, h.of fun x => x.2.1, h.of fun x => x.2.2.1, h.of fun x => x.2.2.2.1,
    fun _ => h.of fun x => x.2.2.2.2.2, ?_, by rw [hline, Nat.add_zero], fun _ _ _ hv => hrtx ▸ hv⟩
  rw [hline]
  exact .refl _

lemma trans (h : Sacks t t' n) (h' : Sacks t' t'' n') : Sacks t t'' (n + n') := by
  refine ⟨h'.seq.trans h.seq, h'.sack.trans h.sack, h'.reno.trans h.reno, h'.history.trans h.history,
    fun hu => ?_, h.grows.trans h'.grows, by rw [h'.count, h.count, Nat.add_assoc],
    fun a b f hv => h'.valid a b f (h.valid a b f hv)⟩
  have hsame := h.phase hu
  have hu' : t'.cc.undoValid = t.cc.undoValid := congrArg (fun x => x.2.2) hsame
  exact (h'.phase (hu'.trans hu)).trans hsame

end Sacks

/-- A D-SACK undoes nothing once the reduction may not be undone. -/
lemma believeDsack_sacks (t : Tcb P) (l r mss : U32) : Sacks t (t.believeDsack l r mss) 0 := by
  have hline : (t.believeDsack l r mss).line = t.line := by
    unfold line believeDsack
    dsimp only
    split
    · exact RtxQueue.arrived_unmarkLost t.rtx
    · rfl
  refine ⟨rfl, rfl, rfl, rfl, fun hu => ?_, by rw [hline]; exact .refl _, by rw [hline, Nat.add_zero],
    (believeDsack_marks t l r mss).valid⟩
  have hsame : t.cc.onDsack l r mss = (false, t.cc) := by
    unfold Reno.onDsack
    rw [hu]
    simp
  unfold phase believeDsack
  dsimp only
  rw [hsame]

/-- One block. -/
lemma sackBlock_sacks {d : U32 × Tcb P} {x y : U32} {f : Option Bool} (hv : d.2.rtx.Valid x y f)
    (b : U32 × U32) : Sacks d.2 (sackBlock d b).2 (d.2.rtx.sack b.1 b.2).newly.toNat := by
  obtain ⟨hgrows, hnewly⟩ := hv.board.sack_arrived b.1 b.2
  exact ⟨rfl, rfl, rfl, rfl, fun _ => rfl, hgrows, hnewly, fun _ _ _ h => h.sack b.1 b.2⟩

/-- All blocks; the bytes they report are the flags they set. -/
lemma foldl_sackBlock {x y : U32} {f : Option Bool} (blocks : List (U32 × U32)) {d : U32 × Tcb P}
    (hv : d.2.rtx.Valid x y f) (hd : d.1.toNat ≤ d.2.line.count true) :
    ∃ n, Sacks d.2 (blocks.foldl sackBlock d).2 n ∧ (blocks.foldl sackBlock d).1.toNat = d.1.toNat + n := by
  induction blocks generalizing d with
  | nil => exact ⟨0, .of_agree rfl, rfl⟩
  | cons b blocks ih =>
    have hone := sackBlock_sacks hv b
    have hv' := hone.valid x y f hv
    have hlt : (sackBlock d b).2.line.count true < 2 ^ 31 := hv'.board.count_lt
    have hadd : (sackBlock d b).1.toNat = d.1.toNat + (d.2.rtx.sack b.1 b.2).newly.toNat := by
      have hcount := hone.count
      change (satAdd d.1 _).toNat = _
      rw [toNat_satAdd]
      omega
    obtain ⟨n, hrest, hsum⟩ := ih (d := sackBlock d b) hv' (by rw [hadd, hone.count]; omega)
    refine ⟨_, hone.trans hrest, ?_⟩
    rw [List.foldl_cons, hsum, hadd, Nat.add_assoc]

/-- The SACK option of an ACK. -/
lemma absorbSack_sacks {t : Tcb P} {x y : U32} {f : Option Bool} (hv : t.rtx.Valid x y f) (seg : Segment)
    (mss : U32) : Sacks t (absorbSack seg mss t).2 (absorbSack seg mss t).1.delivered.toNat := by
  have hnone : Sacks t t (0 : U32).toNat := .of_agree rfl
  have hvalid (l r : U32) : Sacks t (dsackValid l r mss t).2 0 := by
    unfold dsackValid
    dsimp only
    split
    · exact .of_agree rfl
    · split <;> exact .of_agree rfl
  unfold absorbSack
  split
  · exact hnone
  split
  · exact hnone
  case h_2 b0 rest _ =>
    lift_lets
    intro dup v t' d
    have hv' : Sacks t v.2 0 := by
      unfold v
      split
      · exact hvalid _ _
      · exact .of_agree rfl
    have ht' : Sacks t t' 0 := by
      unfold t'
      split
      · exact hv'.trans (believeDsack_sacks v.2 _ _ _)
      · exact hv'
    obtain ⟨n, hrest, hsum⟩ := foldl_sackBlock (if dup then rest else b0 :: rest) (d := (0, t'))
      (ht'.valid x y f hv) (Nat.zero_le _)
    have hn : d.1.toNat = n := hsum.trans (Nat.zero_add n)
    have hall := ht'.trans hrest
    rw [Nat.zero_add, ← hn] at hall
    exact hall

/-! ## The cumulative ACK -/

/-- What the SACK option and the cumulative ACK of a segment do, up to the bytes delivered. -/
structure Absorbs (t t' : Tcb P) (ack delivered : U32) : Prop where
  una : t'.sndUna = ack
  nxt : t'.sndNxt = t.sndNxt
  sack : t'.sackEnabled = t.sackEnabled
  history : t'.history = t.history
  phase : t.cc.undoValid = false → t'.phase = t.phase
  line : ∃ l, Grows t.line l ∧ t'.line = l.drop (t'.dataUna - t.dataUna).toNat
  length : t'.line.length + t'.synUnacked.toNat + (ack - t.sndUna).toNat =
    t.line.length + t.synUnacked.toNat
  advance : (t'.dataUna - t.dataUna).toNat ≤ t.line.length
  queue : t'.rtx.Valid t'.dataUna t'.sndNxt none
  delivered : t.renoSacked = 0 → t'.renoSacked = 0 ∧
    delivered.toNat + t.line.count true = (t'.dataUna - t.dataUna).toNat + t'.line.count true

lemma noteProgress_view (t : Tcb P) (acked : U32) : Agree Steady.view t (t.noteProgress acked) := by
  unfold noteProgress
  dsimp only
  split
  · exact rfl
  split
  · exact rfl
  split <;> exact rfl

/-- Beyond our SYN, an ACK covers one sequence number less if the SYN is still out. -/
lemma Flight.ack_sub_dataUna {t : Tcb P} {ack : U32} (hne : ack - t.sndUna ≠ 0) :
    (ack - t.dataUna).toNat + t.synUnacked.toNat = (ack - t.sndUna).toNat := by
  unfold dataUna synOutstanding
  generalize t.sndUna = una at *
  cases t.synUnacked with
  | false =>
    change (ack - (una + 0#32)).toNat + 0 = _
    rw [BitVec.add_zero, Nat.add_zero]
  | true =>
    change (ack - (una + 1#32)).toNat + 1 = _
    bv_omega

/-- The block a cumulative ACK leaves, for what is of interest here. -/
lemma cumulativeAck_ledger (ack acked mss : U32) (tsecr : Option U32) (d : U32) (t : Tcb P) :
    Carries.ledger (cumulativeAck ack acked mss tsecr d t).2 =
      ({ t.toSendSeq with sndUna := ack, synUnacked := false }, t.sackEnabled,
        t.renoSacked - minB (satSub acked mss) t.renoSacked, t.history, (t.rtx.ackTo ack).queue,
        t.phase) := by
  unfold cumulativeAck
  dsimp only
  exact ((noteProgress_view _ _).of Prod.snd).trans ((sampleRtt_view _ _).of Prod.snd)

lemma cumulativeAck_absorbs {t t₁ : Tcb P} {seg : Segment} {n : ℕ} {d mss : U32} (hf : Flight t)
    (hlo : ¬ seqLt seg.ack t.sndUna) (hhi : ¬ seqGt seg.ack t.sndNxt) (hne : seg.ack - t.sndUna ≠ 0)
    (h : Sacks t t₁ n) (hd : d.toNat = n) (tsecr : Option U32) :
    Absorbs t (cumulativeAck seg.ack (seg.ack - t.sndUna) mss tsecr d t₁).2 seg.ack
      (cumulativeAck seg.ack (seg.ack - t.sndUna) mss tsecr d t₁).1 := by
  have hdata : t₁.dataUna = t.dataUna := by
    unfold dataUna synOutstanding
    rw [h.seq]
  have hne' : seg.ack ≠ t.sndUna := fun he => hne (by rw [he]; exact BitVec.sub_self _)
  have hin := hf.ack_le_data hlo hhi hne'
  have hv := h.valid _ _ _ hf.queue
  have hdrop := hv.board.ackTo_arrived hin
  have hsub := Flight.ack_sub_dataUna hne
  have hspan : (t.sndNxt - t.dataUna).toNat = t.line.length := by
    rw [line, length_arrived]
    exact hf.queue.board.span_eq
  have hlen : t₁.line.length = t.line.length := h.grows.length_eq
  have hledger := cumulativeAck_ledger seg.ack (seg.ack - t.sndUna) mss tsecr d t₁
  set c := cumulativeAck seg.ack (seg.ack - t.sndUna) mss tsecr d t₁ with hc
  simp only [Carries.ledger, Prod.mk.injEq] at hledger
  obtain ⟨hseq, hsack, hreno, hhist, hrtx, hphase⟩ := hledger
  have huna : c.2.sndUna = seg.ack := congrArg SendSeq.sndUna hseq
  have hsyn : c.2.synUnacked = false := congrArg SendSeq.synUnacked hseq
  have hnxt : c.2.sndNxt = t.sndNxt := by
    have hsame : c.2.sndNxt = t₁.sndNxt := by rw [hseq]
    exact hsame.trans (congrArg SendSeq.sndNxt h.seq)
  have hline : c.2.line = t₁.line.drop (seg.ack - t.dataUna).toNat := by
    rw [line, hrtx]
    exact hdrop
  have hack : c.2.dataUna = seg.ack := by
    rw [dataUna, synOutstanding, hsyn, huna]
    exact BitVec.add_zero _
  have hadv : c.2.dataUna - t.dataUna = seg.ack - t.dataUna := by rw [hack]
  refine ⟨huna, ?_, hsack.trans h.sack, hhist.trans h.history, fun hu => hphase.trans (h.phase hu),
    ⟨t₁.line, h.grows, ?_⟩, ?_, ?_, ?_, fun hzero => ?_⟩
  · exact hnxt
  · rw [hadv, hline]
  · rw [hline, hsyn, List.length_drop, hlen]
    change _ - _ + 0 + _ = _
    omega
  · rw [hadv]
    omega
  · rw [hack, hnxt, hrtx]
    exact hv.ackTo hin
  · have hzero₁ : t₁.renoSacked = 0 := h.reno.trans hzero
    have hsyn₁ : t₁.synUnacked = t.synUnacked := congrArg SendSeq.synUnacked h.seq
    have hnone : minB (satSub (seg.ack - t.sndUna) mss) t₁.renoSacked = 0 := by
      apply BitVec.eq_of_toNat_eq
      rw [toNat_minB, hzero₁]
      exact Nat.min_zero _
    refine ⟨?_, ?_⟩
    · rw [hreno, hnone, hzero₁]
      exact BitVec.sub_self _
    · have hbefore : t₁.rtx.sacked.toNat = t₁.line.count true := hv.board.sacked_eq
      have hafter : (t₁.rtx.ackTo seg.ack).queue.sacked.toNat = c.2.line.count true := by
        rw [line, hrtx]
        exact (hv.ackTo hin).board.sacked_eq
      have hsplit : t₁.line.count true =
          (t₁.line.take (seg.ack - t.dataUna).toNat).count true + c.2.line.count true := by
        rw [hline, ← List.count_append, List.take_append_drop]
      have htake : (t₁.line.take (seg.ack - t.dataUna).toNat).count true ≤ (seg.ack - t.dataUna).toNat :=
        List.count_le_length.trans (by rw [List.length_take]; exact min_le_left _ _)
      have hcount := h.count
      have hlt : t₁.line.count true < 2 ^ 31 := hv.board.count_lt
      have hhalf := hf.out_lt
      have hflag := Bool.toNat_le t.synUnacked
      change (satSub (satAdd d (satSub (satSub (seg.ack - t.sndUna)
        (satSub t₁.rtx.sacked (t₁.rtx.ackTo seg.ack).queue.sacked))
        (minB (satSub (seg.ack - t.sndUna) mss) t₁.renoSacked))) (ofFlag 32 t₁.synUnacked)).toNat + _ = _
      rw [hnone, hadv, toNat_satSub, toNat_satAdd, toNat_satSub, toNat_satSub, toNat_satSub, hbefore,
        hafter, toNat_ofFlag (by decide), hsyn₁, show (0 : U32).toNat = 0 from rfl]
      rw [out] at hhalf
      omega

/-- An ACK that is neither old nor ahead, up to the cumulative acknowledgment. -/
lemma ackAbsorbed_absorbs {t : Tcb P} {seg : Segment} (hf : Flight t) (hlo : ¬ seqLt seg.ack t.sndUna)
    (hhi : ¬ seqGt seg.ack t.sndNxt) (tsecr : Option U32) :
    Absorbs t (t.ackAbsorbed seg tsecr).2 seg.ack (t.ackAbsorbed seg tsecr).1 := by
  have hstart : Sacks t { t with rack := t.rack.onAckStart } 0 := .of_agree rfl
  have hsacks := hstart.trans (absorbSack_sacks (t := { t with rack := t.rack.onAckStart }) hf.queue seg
    t.mssPayload)
  rw [Nat.zero_add] at hsacks
  change Sacks t (t.sackAbsorbed seg).2 (t.sackAbsorbed seg).1.delivered.toNat at hsacks
  unfold ackAbsorbed
  split
  case isTrue hne => exact cumulativeAck_absorbs hf hlo hhi hne hsacks rfl tsecr
  case isFalse heq =>
    rw [not_not] at heq
    dsimp only
    generalize (t.sackAbsorbed seg).2 = t₁ at *
    have hack : seg.ack = t.sndUna := by bv_omega
    have huna : t₁.sndUna = t.sndUna := congrArg SendSeq.sndUna hsacks.seq
    have hnxt : t₁.sndNxt = t.sndNxt := congrArg SendSeq.sndNxt hsacks.seq
    have hsame : t₁.dataUna = t.dataUna := by
      unfold dataUna synOutstanding
      rw [hsacks.seq]
    have hdata : t₁.dataUna - t.dataUna = 0 := by
      rw [hsame]
      exact BitVec.sub_self _
    refine ⟨huna.trans hack.symm, hnxt, hsacks.sack, hsacks.history, hsacks.phase,
      ⟨t₁.line, hsacks.grows, ?_⟩, ?_, ?_, ?_, fun hzero => ⟨hsacks.reno.trans hzero, ?_⟩⟩
    · rw [hdata]
      rfl
    · rw [heq, hsacks.grows.length_eq, hsacks.seq]
      rfl
    · rw [hdata]
      exact Nat.zero_le _
    · rw [hsame, hnxt]
      exact hsacks.valid _ _ _ hf.queue
    · rw [hdata, hsacks.count]
      change _ = 0 + _
      omega

/-- A reduction that must last past what the ACK covers. -/
lemma Absorbs.pend {t t' : Tcb P} {ack d : U32} {n : ℕ} (h : Absorbs t t' ack d) (hp : Pend n t)
    (hlt : (ack - t.sndUna).toNat < n) : Pend (n - (ack - t.sndUna).toNat) t' := by
  have hphase := h.phase hp.kept
  simp only [Tcb.phase, Prod.mk.injEq] at hphase
  obtain ⟨hstate, hpoint, hundo⟩ := hphase
  have hlen := h.length
  obtain ⟨m, k, h₁, h₂, h₃⟩ := hp.reach
  have hack : ack = t.sndUna + BitVec.ofNat 32 (ack - t.sndUna).toNat := by
    rw [BitVec.ofNat_toNat, BitVec.setWidth_eq, BitVec.add_comm, BitVec.sub_add_cancel]
  refine ⟨hstate ▸ hp.reduced, hundo.trans hp.kept, m, k, ?_, ?_, by omega⟩
  · have hsum : n + m = (ack - t.sndUna).toNat + (n - (ack - t.sndUna).toNat + m) := by omega
    rw [hpoint, h₁, h.una, hsum, BitVec.ofNat_add, ← BitVec.add_assoc, ← hack]
  · rw [h.nxt, hpoint, h₂]

/-! ## After the cumulative ACK -/

/-- What follows the cumulative ACK leaves the sequence space and its flags alone. -/
structure Recovers (t t' : Tcb P) : Prop where
  seq : t'.toSendSeq = t.toSendSeq
  sack : t'.sackEnabled = t.sackEnabled
  history : t'.history = t.history
  line : t'.line = t.line
  valid : ∀ a b f, t.rtx.Valid a b f → t'.rtx.Valid a b f
  reno : t.sackEnabled = true → t.renoSacked = 0 → t'.renoSacked = 0
  pending : t.line.length < 2 ^ 30 → ∀ d, 0 < d → Pend d t → Pend d t'

namespace Recovers

variable {t t' t'' : Tcb P}

instance : Std.Refl (Recovers (P := P)) := ⟨fun _ =>
  ⟨rfl, rfl, rfl, rfl, fun _ _ _ h => h, fun _ h => h, fun _ _ _ h => h⟩⟩

instance : IsTrans (Tcb P) Recovers := ⟨fun _ _ _ h h' =>
  ⟨h'.seq.trans h.seq, h'.sack.trans h.sack, h'.history.trans h.history, h'.line.trans h.line,
    fun a b f hv => h'.valid a b f (h.valid a b f hv), fun hs hz => h'.reno (h.sack.trans hs) (h.reno hs hz),
    fun hlt d hd hp => h'.pending (h.line ▸ hlt) d hd (h.pending hlt d hd hp)⟩⟩

/-- The congestion window's state stays as it is. -/
lemma of_phase (hseq : t'.toSendSeq = t.toSendSeq) (hsack : t'.sackEnabled = t.sackEnabled)
    (hhist : t'.history = t.history) (hline : t'.line = t.line)
    (hvalid : ∀ a b f, t.rtx.Valid a b f → t'.rtx.Valid a b f) (hreno : t.sackEnabled = true → t.renoSacked = 0 → t'.renoSacked = 0)
    (hphase : t'.phase = t.phase) : Recovers t t' := by
  refine ⟨hseq, hsack, hhist, hline, hvalid, hreno, fun _ d _ hp => ?_⟩
  exact hp.extended hphase (congrArg SendSeq.sndUna hseq) (congrArg SendSeq.synUnacked hseq)
    ((congrArg SendSeq.sndNxt hseq).trans (BitVec.add_zero _).symm) (by rw [hline, Nat.add_zero])

lemma of_agree (h : Agree Carries.ledger t t') : Recovers t t' := by
  have hrtx : t'.rtx = t.rtx := h.of fun x => x.2.2.2.2.1
  have hreno : t'.renoSacked = t.renoSacked := h.of fun x => x.2.2.1
  exact of_phase (h.of Prod.fst) (h.of fun x => x.2.1) (h.of fun x => x.2.2.2.1)
    (by rw [Tcb.line, Tcb.line, hrtx]) (fun _ _ _ hv => hrtx ▸ hv) (fun _ hz => hreno.trans hz) (h.of fun x => x.2.2.2.2.2)

lemma dataUna (h : Recovers t t') : t'.dataUna = t.dataUna := by
  unfold Tcb.dataUna synOutstanding
  rw [h.seq]

end Recovers

lemma pmtuProbeOnAck_ledger (t : Tcb P) : Agree Carries.ledger t t.pmtuProbeOnAck := by
  unfold pmtuProbeOnAck
  lift_lets
  extract_lets
  split <;> exact rfl

lemma updateSendWindow_ledger (t : Tcb P) (seg : Segment) (una : U32) :
    Agree Carries.ledger t (t.updateSendWindow seg una) := by
  unfold updateSendWindow
  lift_lets
  extract_lets
  split <;> exact rfl

/-- An echoed mark starts no reduction while one is going on. -/
lemma ecnEcho_recovers (t : Tcb P) (seg : Segment) (flight mss : U32) :
    Recovers t (t.ecnEcho seg flight mss) := by
  unfold ecnEcho
  split
  case isTrue hecho =>
    refine ⟨rfl, rfl, rfl, rfl, fun _ _ _ hv => hv, fun _ hz => hz, fun _ d _ hp => absurd ?_ hp.reduced⟩
    simp only [echoesMark, Bool.and_eq_true, beq_iff_eq] at hecho
    exact hecho.1.2
  case isFalse => exact refl_of Recovers t

lemma rackDetect_recovers (t : Tcb P) : Recovers t t.rackDetect.2 :=
  .of_phase rfl rfl rfl (RtxQueue.arrived_detectLoss _ _ _ _) (fun _ _ _ hv => hv.detectLoss _ _ _)
    (fun _ hz => hz) rfl

lemma newrenoDetect_recovers (seg : Segment) (acked wnd : U32) (t : Tcb P) :
    Recovers t (newrenoDetect seg acked wnd t).2 := by
  have hmark (t : Tcb P) : Recovers t { t with rtx := t.rtx.markLost 0 } :=
    .of_phase rfl rfl rfl (RtxQueue.arrived_markLost t.rtx 0) (fun _ _ _ hv => hv.markLost 0)
      (fun _ hz => hz) rfl
  have hdup (t : Tcb P) (n : U8) : Recovers t { t with dupAcks := n } := .of_agree rfl
  unfold newrenoDetect
  lift_lets
  intro dup t'
  split
  · split
    · split
      · exact trans_of Recovers (hdup t _) (hmark t')
      · exact hdup t _
    · exact refl_of Recovers t
  · split
    · exact hmark t
    · exact refl_of Recovers t

/-- A duplicate ACK is credited without overflow: what is outstanding bounds the credit. -/
lemma renoCredit_run {t : Tcb P} (hout : (t.sndNxt - t.dataUna).toNat < 2 ^ 31) (hoff : t.sackEnabled = false)
    (mss delivered : U32) : ∃ d t', renoCredit mss delivered t = .ok d t' ∧ Recovers t t' := by
  unfold renoCredit
  rw [run_get_bind]
  split
  case isTrue hle =>
    rw [toNat_satAdd] at hle
    rw [if_pos (by omega), run_modify_bind, run_pure]
    refine ⟨_, _, rfl, .of_phase rfl rfl rfl rfl (fun _ _ _ hv => hv) (fun hon => ?_) rfl⟩
    rw [hoff] at hon
    cases hon
  case isFalse => exact ⟨_, _, rfl, refl_of Recovers t⟩

/-- Loss detection leaves the bytes delivered alone if SACK is in use. -/
lemma detectLosses_run {t : Tcb P} (hout : (t.sndNxt - t.dataUna).toNat < 2 ^ 31) (seg : Segment)
    (present : Bool) (acked wnd mss delivered : U32) :
    ∃ d t', detectLosses seg present acked wnd mss delivered t = .ok d t' ∧ Recovers t t' ∧
      (t.sackEnabled = true → d.2 = delivered) := by
  have hrack : Recovers t (if t.sackEnabled then t.rackDetect else (false, t)).2 := by
    split
    · exact rackDetect_recovers t
    · exact refl_of Recovers t
  unfold detectLosses
  rw [run_get_bind, run_bind, run_modifyGet]
  dsimp only
  generalize (if t.sackEnabled then t.rackDetect else (false, t)) = r at *
  split
  · exact ⟨_, _, rfl, hrack, fun _ => rfl⟩
  have hnew := trans_of Recovers hrack (newrenoDetect_recovers seg acked wnd r.2)
  rw [run_bind, run_modifyGet]
  dsimp only
  generalize newrenoDetect seg acked wnd r.2 = r' at *
  split
  case isTrue hdup =>
    simp only [Bool.and_eq_true, Bool.not_eq_true'] at hdup
    have hout' : (r'.2.sndNxt - r'.2.dataUna).toNat < 2 ^ 31 := by
      rw [hnew.dataUna, hnew.seq]
      exact hout
    obtain ⟨d, t', hrun, hcredit⟩ := renoCredit_run hout' (hnew.sack.trans hdup.2) mss delivered
    rw [run_bind_ok hrun, run_pure]
    refine ⟨_, _, rfl, trans_of Recovers hnew hcredit, fun hon => ?_⟩
    rw [hdup.2] at hon
    cases hon
  case isFalse => exact ⟨_, _, rfl, hnew, fun _ => rfl⟩

lemma reactToLoss_recovers (t : Tcb P) (flight : U32) : Recovers t (t.reactToLoss flight) := by
  have hbound : Recovers t { t with renoSacked := minB t.renoSacked (t.sndNxt - t.dataUna) } := by
    refine .of_phase rfl rfl rfl rfl (fun _ _ _ hv => hv) (fun _ hz => ?_) rfl
    apply BitVec.eq_of_toNat_eq
    dsimp only
    rw [toNat_minB, hz]
    exact Nat.zero_min _
  have henter (t : Tcb P) (hloss : t.cc.inLossRecovery = false) :
      Recovers t (t.enterFastRecovery flight) :=
    ⟨rfl, rfl, rfl, rfl, fun _ _ _ hv => hv, fun _ hz => hz,
      fun _ _ _ hp => hp.enterFastRecovery hloss flight⟩
  unfold reactToLoss
  dsimp only
  split
  case isTrue hlost => exact trans_of Recovers hbound (henter _ (by simpa using hlost.2))
  case isFalse => exact hbound

lemma tlpOnAck_recovers (t : Tcb P) (ack : U32) (dsack : Option (U32 × U32)) (sack : Bool)
    (delivered : U32) : Recovers t (t.tlpOnAck ack dsack sack delivered) := by
  unfold tlpOnAck
  split
  · exact refl_of Recovers t
  split
  · exact refl_of Recovers t
  split
  · exact .of_agree rfl
  split
  · exact .of_agree rfl
  split
  · split <;> exact .of_agree rfl
  · exact refl_of Recovers t

lemma onAck_phase (r : Reno) (acked mss : U32) (limited : Bool) :
    (r.onAck acked mss limited).state = r.state ∧
      (r.onAck acked mss limited).recoveryPoint = r.recoveryPoint ∧
      (r.onAck acked mss limited).undoValid = r.undoValid := by
  have hslow : (r.slowStart acked).2.state = r.state ∧
      (r.slowStart acked).2.recoveryPoint = r.recoveryPoint ∧
      (r.slowStart acked).2.undoValid = r.undoValid := by
    unfold Reno.slowStart
    split <;> exact ⟨rfl, rfl, rfl⟩
  have havoid (r : Reno) (acked : U32) : (r.congestionAvoidance acked mss).state = r.state ∧
      (r.congestionAvoidance acked mss).recoveryPoint = r.recoveryPoint ∧
      (r.congestionAvoidance acked mss).undoValid = r.undoValid := by
    unfold Reno.congestionAvoidance
    dsimp only
    split <;> exact ⟨rfl, rfl, rfl⟩
  unfold Reno.onAck
  split
  · exact ⟨rfl, rfl, rfl⟩
  dsimp only
  split
  · exact hslow
  · obtain ⟨h₁, h₂, h₃⟩ := havoid (r.slowStart acked).2 (r.slowStart acked).1
    exact ⟨h₁.trans hslow.1, h₂.trans hslow.2.1, h₃.trans hslow.2.2⟩

/-- A reduction that must last is not left. -/
lemma exitRecovery_recovers (t : Tcb P) : Recovers t t.exitRecovery := by
  refine ⟨rfl, rfl, rfl, rfl, fun _ _ _ hv => hv, fun _ hz => hz, fun hlt d hd hp => ?_⟩
  have hstay : t.cc.maybeExit t.sndUna = (false, t.cc) := by
    unfold Reno.maybeExit
    exact if_pos (.inr (hp.not_over hd hlt))
  refine hp.extended ?_ rfl rfl (BitVec.add_zero _).symm rfl
  unfold phase exitRecovery
  dsimp only
  rw [hstay]

lemma congestionOnAck_recovers (t : Tcb P) (acked delivered mss : U32) (lost : Bool) :
    Recovers t (t.congestionOnAck acked delivered mss lost) := by
  have htake (t : Tcb P) : Recovers t t.takeCwndLimited.2 := by
    unfold takeCwndLimited
    dsimp only
    split <;> exact .of_agree rfl
  have hgrow (t : Tcb P) (limited : Bool) : Recovers t { t with
      cc := if t.cc.inReduction then t.cc.prrUpdate delivered t.pipe mss (acked != 0 && !lost)
        else t.cc.onAck delivered mss limited } := by
    refine .of_phase rfl rfl rfl rfl (fun _ _ _ hv => hv) (fun _ hz => hz) ?_
    unfold phase
    dsimp only
    split
    · obtain ⟨h₁, h₂, h₃⟩ := prrUpdate_phase t.cc delivered t.pipe mss (acked != 0 && !lost)
      rw [h₁, h₂, h₃]
    · obtain ⟨h₁, h₂, h₃⟩ := onAck_phase t.cc delivered mss limited
      rw [h₁, h₂, h₃]
  exact trans_of Recovers (exitRecovery_recovers t) (trans_of Recovers (htake _) (hgrow _ _))

lemma rearmAfterAck_recovers (t : Tcb P) (acked : U32) : Recovers t (t.rearmAfterAck acked) := by
  unfold rearmAfterAck
  obtain ⟨d, hd⟩ := maybeArmTlp_eq (P := P) _
  rw [hd]
  split
  · exact .of_agree rfl
  · split <;> exact .of_agree rfl

/-! ## All of it -/

end Tcb

/-- What congestion control should be left with: the state it was found in, out of recovery if the ACK
reached its end, told the bytes delivered. -/
def AckRecord.told (r : AckRecord) : Reno :=
  let c := (r.found.maybeExit r.after.una).2
  if c.inReduction then
    c.prrUpdate r.delivered r.pipe r.mss (r.after.una != r.before.una && !r.newlyLost)
  else c.onAck r.delivered r.mss r.limited

namespace Tcb

/-- What one reaction to an ACK does, with the record it leaves. -/
structure Reacted (t t' : Tcb P) (r : AckRecord) : Prop where
  history : t'.history = t.history ++ [.acked r]
  before : r.before = t.ackMark
  after : r.after = t'.ackMark
  left : r.left = t'.cc
  told : r.left = r.told
  nxt : t'.sndNxt = t.sndNxt
  sack : t'.sackEnabled = t.sackEnabled
  line : ∃ l, Grows t.line l ∧ t'.line = l.drop (t'.dataUna - t.dataUna).toNat
  length : t'.line.length + t'.synUnacked.toNat + (t'.sndUna - t.sndUna).toNat =
    t.line.length + t.synUnacked.toNat
  advance : (t'.dataUna - t.dataUna).toNat ≤ t.line.length
  queue : t'.rtx.Valid t'.dataUna t'.sndNxt none
  delivered : t.sackEnabled = true → t.renoSacked = 0 → t'.renoSacked = 0 ∧
    r.delivered.toNat + t.line.count true = (t'.dataUna - t.dataUna).toNat + t'.line.count true
  reduced : ∀ d, 0 < d → Pend d t → r.cwr = false ∧
    ((t'.sndUna - t.sndUna).toNat < d → Pend (d - (t'.sndUna - t.sndUna).toNat) t')
  reduces : r.cwr = true → 0 < (t'.sndNxt - t'.sndUna).toNat ∧ Pend (t'.sndNxt - t'.sndUna).toNat t'

/-- What is outstanding, with our SYN, is what the line covers. -/
lemma Flight.line_length {t : Tcb P} (hf : Flight t) : (t.sndNxt - t.dataUna).toNat = t.line.length := by
  rw [line, length_arrived]
  exact hf.queue.board.span_eq

/-- A reduction that an echoed mark begins ends at `SND.NXT`. -/
lemma pend_ecnEcho {t : Tcb P} {seg : Segment} (hecho : t.echoesMark seg = true) (flight mss : U32)
    (hlen : t.line.length + t.synUnacked.toNat = (t.sndNxt - t.sndUna).toNat) :
    0 < (t.sndNxt - t.sndUna).toNat ∧ Pend (t.sndNxt - t.sndUna).toNat (t.ecnEcho seg flight mss) := by
  have hne : t.sndUna ≠ t.sndNxt := by
    simp only [echoesMark, Bool.and_eq_true, bne_iff_ne] at hecho
    exact hecho.2
  refine ⟨Nat.pos_of_ne_zero fun hz => hne (by bv_omega), ?_⟩
  unfold ecnEcho
  rw [if_pos hecho]
  refine ⟨nofun, rfl, 0, 0, ?_, (BitVec.add_zero _).symm, hlen.symm⟩
  change t.sndNxt = t.sndUna + BitVec.ofNat 32 (t.sndNxt - t.sndUna).toNat
  rw [BitVec.ofNat_toNat, BitVec.setWidth_eq, BitVec.add_comm, BitVec.sub_add_cancel]

/-- The reaction to ECN-Echo changes the state of congestion control only if a mark was echoed. -/
lemma echoesMark_of_ne {t : Tcb P} {seg : Segment} {flight mss : U32}
    (h : t.cc ≠ (t.ecnEcho seg flight mss).cc) : t.echoesMark seg = true := by
  by_contra hno
  unfold ecnEcho at h
  rw [if_neg hno] at h
  exact h rfl

/-- What the update of congestion control at the end of an ACK leaves. -/
lemma congestionOnAck_cc (t : Tcb P) (acked delivered mss : U32) (lost : Bool) :
    (t.congestionOnAck acked delivered mss lost).cc =
      if (t.cc.maybeExit t.sndUna).2.inReduction then
        (t.cc.maybeExit t.sndUna).2.prrUpdate delivered t.pipe mss (acked != 0 && !lost)
      else (t.cc.maybeExit t.sndUna).2.onAck delivered mss t.exitRecovery.takeCwndLimited.1 := by
  have htake (u : Tcb P) : u.takeCwndLimited.2.cc = u.cc ∧ u.takeCwndLimited.2.pipe = u.pipe := by
    unfold takeCwndLimited
    dsimp only
    split <;> exact ⟨rfl, rfl⟩
  obtain ⟨hcc, hpipe⟩ := htake t.exitRecovery
  unfold congestionOnAck
  dsimp only
  rw [hcc, hpipe]
  rfl

lemma rearmAfterAck_cc (t : Tcb P) (acked : U32) : (t.rearmAfterAck acked).cc = t.cc := by
  unfold rearmAfterAck
  obtain ⟨d, hd⟩ := maybeArmTlp_eq (P := P) _
  rw [hd]
  split
  · rfl
  · split <;> rfl

/-- What follows the cumulative ACK, which left `c`. -/
lemma recoverAfter_run {t c : Tcb P} (seg : Segment) (delivered : U32)
    (hout : (c.sndNxt - c.dataUna).toNat < 2 ^ 31) :
    ∃ (m u v w : Tcb P) (d : Bool × U32), Agree Carries.ledger c u ∧ u.cc = m.cc ∧
      Recovers (u.ecnEcho seg (t.sndNxt - t.dataUna) t.mssPayload) w ∧
      (c.sackEnabled = true → d.2 = delivered) ∧ v.sndUna = w.sndUna ∧
      w.cc = (v.congestionOnAck (seg.ack - t.sndUna) d.2 t.mssPayload d.1).cc ∧
      final (recoverAfter t seg delivered c) = recordAck t m
        (u.ecnEcho seg (t.sndNxt - t.dataUna) t.mssPayload) v d t.mssPayload w := by
  set u := c.pmtuProbeOnAck.updateSendWindow seg t.sndUna with hu
  have hledger : Agree Carries.ledger c u :=
    trans_of (Agree Carries.ledger) (pmtuProbeOnAck_ledger c) (updateSendWindow_ledger _ _ _)
  have hecho := ecnEcho_recovers u seg (t.sndNxt - t.dataUna) t.mssPayload
  have hall := trans_of Recovers (Recovers.of_agree hledger) hecho
  rw [← hall.dataUna, ← congrArg SendSeq.sndNxt hall.seq] at hout
  obtain ⟨d, v, hrun, hdet, hsame⟩ := detectLosses_run hout seg (t.sackAbsorbed seg).1.present
    (seg.ack - t.sndUna) c.pmtuProbeOnAck.sndWnd t.mssPayload delivered
  have hwin : u.cc = c.pmtuProbeOnAck.cc := by
    rw [hu]
    unfold updateSendWindow
    dsimp only
    generalize (if seqGt seg.seq _ then _ else seg.seq) = seq
    split <;> rfl
  -- Before and after the update of congestion control.
  set found := v.repair seg (t.sackAbsorbed seg).1 (t.sndNxt - t.dataUna) d with hfound
  have hrepair : Recovers v found :=
    trans_of Recovers (reactToLoss_recovers _ _) (tlpOnAck_recovers _ _ _ _ _)
  have hlast : Recovers found ((found.congestionOnAck (seg.ack - t.sndUna) d.2 t.mssPayload
      d.1).rearmAfterAck (seg.ack - t.sndUna)) :=
    trans_of Recovers (congestionOnAck_recovers _ _ _ _ _) (rearmAfterAck_recovers _ _)
  refine ⟨c.pmtuProbeOnAck, u, found, _, d, hledger, hwin,
    trans_of Recovers hdet (trans_of Recovers hrepair hlast), fun hon => hsame (hall.sack.trans hon),
    (congrArg SendSeq.sndUna hlast.seq).symm, rearmAfterAck_cc _ _, ?_⟩
  unfold recoverAfter
  rw [run_modify_bind, run_get_bind, run_modify_bind, run_get_bind, run_bind_ok hrun]
  rfl

/-- An ACK that is neither old nor ahead. -/
theorem reactToAck_reacted {t : Tcb P} {seg : Segment} (hf : Flight t) (hlo : ¬ seqLt seg.ack t.sndUna)
    (hhi : ¬ seqGt seg.ack t.sndNxt) : ∃ r, Reacted t (final (reactToAck seg t)) r := by
  have habs := ackAbsorbed_absorbs hf hlo hhi (t.tsecrOf seg)
  have hlt := hf.out_lt
  have hlen := hf.line_length
  rw [reactToAck_eq]
  generalize (t.ackAbsorbed seg (t.tsecrOf seg)).2 = c at *
  generalize (t.ackAbsorbed seg (t.tsecrOf seg)).1 = delivered at *
  have hadv := habs.advance
  have hout : (c.sndNxt - c.dataUna).toNat < 2 ^ 31 := by
    rw [habs.nxt, toNat_sub_offset (a := t.dataUna) (by omega)]
    rw [out] at hlt
    omega
  obtain ⟨m, u, v, w, d, hledger, hmark, hrec, hsame, hfound, hcc, hfin⟩ :=
    recoverAfter_run (t := t) seg delivered hout
  have hcu : Recovers c u := .of_agree hledger
  have hcw := trans_of Recovers (trans_of Recovers hcu (ecnEcho_recovers u seg _ _)) hrec
  have huna : w.sndUna = seg.ack := (congrArg SendSeq.sndUna hcw.seq).trans habs.una
  have hnxt : w.sndNxt = t.sndNxt := (congrArg SendSeq.sndNxt hcw.seq).trans habs.nxt
  have hsyn : w.synUnacked = c.synUnacked := congrArg SendSeq.synUnacked hcw.seq
  have hshort : c.line.length < 2 ^ 30 := by
    have := habs.length
    have := Bool.toNat_le t.synUnacked
    rw [out] at hlt
    omega
  rw [hfin]
  refine ⟨ackRecord t m (u.ecnEcho seg (t.sndNxt - t.dataUna) t.mssPayload) v d t.mssPayload w, ?_, rfl,
    rfl, rfl, ?_, hnxt, hcw.sack.trans habs.sack, ?_, ?_, ?_, ?_, fun hon hzero => ?_,
    fun n hn hp => ⟨?_, fun hless => ?_⟩, fun hcwr => ?_⟩
  · change w.history ++ _ = _
    rw [hcw.history, habs.history]
  · have hadvanced : (seg.ack - t.sndUna != 0) = (w.sndUna != t.sndUna) := by
      rw [huna, Bool.eq_iff_iff, bne_iff_ne, bne_iff_ne, not_iff_not, sub_eq_zero]
    change w.cc = _
    rw [hcc, congestionOnAck_cc, hfound, hadvanced]
    rfl
  · obtain ⟨l, hgrows, hline⟩ := habs.line
    refine ⟨l, hgrows, ?_⟩
    change w.line = l.drop (w.dataUna - t.dataUna).toNat
    rw [hcw.line, hcw.dataUna, hline]
  · change w.line.length + w.synUnacked.toNat + (w.sndUna - t.sndUna).toNat = _
    rw [hcw.line, hsyn, huna, habs.length]
  · change (w.dataUna - t.dataUna).toNat ≤ _
    rw [hcw.dataUna]
    exact hadv
  · change w.rtx.Valid w.dataUna w.sndNxt none
    rw [hcw.dataUna, hnxt, ← habs.nxt]
    exact hcw.valid _ _ _ habs.queue
  · obtain ⟨hreno, hcount⟩ := habs.delivered hzero
    have hon' : c.sackEnabled = true := habs.sack.trans hon
    change w.renoSacked = 0 ∧ d.2.toNat + _ = (w.dataUna - t.dataUna).toNat + w.line.count true
    rw [hcw.dataUna, hcw.line, hsame hon']
    exact ⟨hcw.reno hon' hreno, hcount⟩
  · -- The window is already reduced.
    have hphase : u.phase = t.phase := (hledger.of fun x => x.2.2.2.2.2).trans (habs.phase hp.kept)
    have hstate : u.cc.state = t.cc.state := congrArg Prod.fst hphase
    have hreduced := hp.reduced
    rw [← hstate] at hreduced
    have hquiet : u.echoesMark seg = false := by simp [echoesMark, hreduced]
    have hkept : (u.ecnEcho seg (t.sndNxt - t.dataUna) t.mssPayload).cc = m.cc := by
      unfold ecnEcho
      rw [hquiet]
      exact hmark
    change (m.cc != (u.ecnEcho seg (t.sndNxt - t.dataUna) t.mssPayload).cc) = false
    rw [hkept, bne_self_eq_false]
  · change (w.sndUna - t.sndUna).toNat < n at hless
    have hlast : Pend (n - (w.sndUna - t.sndUna).toNat) w := by
      rw [huna] at hless ⊢
      exact hcw.pending hshort _ (by omega) (habs.pend hp hless)
    exact hlast.extended rfl rfl rfl (BitVec.add_zero _).symm rfl
  · have hecho : u.echoesMark seg = true := echoesMark_of_ne (by
      rw [hmark]
      exact bne_iff_ne.mp hcwr)
    have hcover : u.line.length + u.synUnacked.toNat = (u.sndNxt - u.sndUna).toNat := by
      have hall := hf.flight_eq
      have hlength := habs.length
      rw [out, hlen] at hall
      rw [hcu.line, hcu.seq, habs.nxt, habs.una, toNat_sub_offset (hf.ack_le hlo hhi)]
      omega
    obtain ⟨hpos, hp⟩ := pend_ecnEcho hecho (t.sndNxt - t.dataUna) t.mssPayload hcover
    have hecn := ecnEcho_recovers u seg (t.sndNxt - t.dataUna) t.mssPayload
    have hsame : u.sndNxt - u.sndUna = w.sndNxt - w.sndUna := by
      rw [hrec.seq, hecn.seq]
    rw [hsame] at hpos hp
    have hlast := hrec.pending (by rw [hecn.line, hcu.line]; exact hshort) _ hpos hp
    exact ⟨hpos, hlast.extended rfl rfl rfl (BitVec.add_zero _).symm rfl⟩

end Tcb

end TcpSansIo
