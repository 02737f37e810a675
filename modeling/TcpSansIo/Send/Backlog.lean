import TcpSansIo.Send.Flight

/-!
# What is in flight and what is buffered

Until our FIN is sent, the data in flight is the front of the send ring.  The FIN is sent with the last
of the data, is the last sequence number sent, and is acknowledged in the states that only wait for the
peer.  `Backlog` says so.  `unsent_bytes` counts the ring in 32 bits, so this holds in every reachable
block of a ring shorter than the sequence space (`Reachable.backlog`).
-/

namespace TcpSansIo

open Proc FixedWidth

variable {P : Params}

namespace Tcb

/-- Our FIN was sent and is not acknowledged. -/
def finOut (t : Tcb P) : Bool := t.finSent && t.sndUna != t.sndNxt

/-- What is in flight against what is buffered. -/
structure Backlog (t : Tcb P) : Prop where
  flight : Flight t
  queue : t.rtx.Valid t.dataUna t.sndNxt (some t.finSent)
  data : t.out ≤ t.sendRing.len + t.finOut.toNat
  fin : t.finSent = true →
    t.finSeq + 1 = t.sndNxt ∧ finStates t.state = true ∧ t.out = t.sendRing.len + t.finOut.toNat
  done : t.state = .finWait2 ∨ t.state = .timeWait → t.finSent = true ∧ t.sndUna = t.sndNxt

/-- Around the FIN at `fin`, the last sequence number sent: an ACK of something outstanding covers it
exactly if it covers everything. -/
lemma covers_fin_iff {una nxt ack fin : U32} (hfin : fin + 1 = nxt) (hlt : (nxt - una).toNat ≤ 2 ^ 21)
    (hle : (ack - una).toNat ≤ (nxt - una).toNat) (hne : ack ≠ una) :
    seqLe una fin ∧ (seqGt ack fin ↔ ack = nxt) := by
  have hpos : 0 < (ack - una).toNat := by bv_omega
  rw [seqLe_iff, seqGt_iff]
  refine ⟨by bv_omega, ?_, ?_⟩
  · rintro ⟨h₁, h₂⟩
    bv_omega
  · intro h
    bv_omega

/-- Something is outstanding after a first transmission. -/
lemma Flight.una_ne_new {t : Tcb P} {len : U32} {fin : Bool} (h : Flight t)
    (hshort : len.toNat ≤ MSS.toNat) (hsome : 0 < len.toNat ∨ fin = true) :
    t.sndUna ≠ t.sndNxt + (len + ofFlag 32 fin) := by
  have hlt := h.flight_lt
  have hadd := toNat_newLen fin hshort
  have hmss : MSS.toNat = 1460 := rfl
  have hbit := Bool.toNat_le fin
  have hpos : 0 < (len + ofFlag 32 fin).toNat := by
    rcases hsome with hpos | hfin
    · omega
    · rw [hadd, hfin, Bool.toNat_true]
      omega
  generalize len + ofFlag 32 fin = n at hadd hpos ⊢
  bv_omega

/-- A first transmission adds its sequence numbers to what is outstanding. -/
lemma Flight.out_first {t u : Tcb P} {len : U32} {fin : Bool} (h : Flight t)
    (hshort : len.toNat ≤ MSS.toNat) (huna : u.dataUna = t.dataUna)
    (hnxt : u.sndNxt = t.sndNxt + (len + ofFlag 32 fin)) :
    u.out = t.out + (len.toNat + fin.toNat) := by
  have hadd := Flight.toNat_newLen fin hshort
  have hlt := h.out_lt
  have hmss : MSS.toNat = 1460 := rfl
  have hbit := Bool.toNat_le fin
  have hsplit : u.sndNxt - u.dataUna = (t.sndNxt - t.dataUna) + (len + ofFlag 32 fin) := by
    rw [hnxt, huna]
    generalize len + ofFlag 32 fin = n
    bv_omega
  simp only [out] at hlt ⊢
  rw [hsplit, BitVec.toNat_add, hadd, Nat.mod_eq_of_lt (by omega)]

namespace Backlog

variable {t : Tcb P}

lemma finOut_of_fin (h : t.finSent = false) : t.finOut = false := by simp [finOut, h]

/-- Before the FIN, what is in flight is in the ring. -/
lemma out_le (h : Backlog t) (hfin : t.finSent = false) : t.out ≤ t.sendRing.len := by
  simpa [finOut_of_fin hfin] using h.data

/-- After the FIN was acknowledged nothing is outstanding. -/
lemma out_of_acked (h : Backlog t) (hfin : t.finSent = true) (hacked : t.finOut = false) : t.out = 0 := by
  have heq : t.sndUna = t.sndNxt := by simpa [finOut, hfin] using hacked
  have hzero := h.flight.una_eq_nxt_iff.mp heq
  omega

/-- After the FIN nothing is unsent. -/
lemma unsent_of_fin (h : Backlog t) (hfin : t.finSent = true) : t.unsentBytes.toNat = 0 := by
  obtain ⟨-, -, hout⟩ := h.fin hfin
  have hmod : t.sendRing.len % 2 ^ 32 ≤ t.sendRing.len := Nat.mod_le _ _
  have hbit : (ofFlag 32 true).toNat = 1 := rfl
  have hidle := h.out_of_acked hfin
  simp only [unsentBytes, toNat_satSub, hfin, BitVec.toNat_ofNat, hbit]
  change t.sendRing.len % 2 ^ 32 - (t.out - 1) = 0
  cases hacked : t.finOut with
  | true =>
    simp only [hacked, Bool.toNat_true] at hout
    omega
  | false =>
    simp only [hacked, Bool.toNat_false] at hout
    have := hidle hacked
    omega

/-- Bytes of the ring that were not sent, before the FIN. -/
lemma toNat_unsent (hbuf : P.BUF < 2 ^ 32) (hfin : t.finSent = false) :
    t.unsentBytes.toNat = t.sendRing.len - t.out := by
  have hlen : t.sendRing.len < 2 ^ 32 := t.sendRing.len_le.trans_lt hbuf
  simp only [unsentBytes, toNat_satSub, hfin, BitVec.toNat_ofNat, Nat.mod_eq_of_lt hlen]
  rfl

/-- Nothing is sent for the first time after the FIN. -/
lemma finSent_of_new (h : Backlog t) {len : U32} {fin : Bool} {probe : Option (U32 × U16)}
    (hnew : t.NewOk len fin probe) :
    t.finSent = false := by
  by_contra hfin
  simp only [Bool.not_eq_false] at hfin
  have hunsent := h.unsent_of_fin hfin
  have hlast := hnew.last
  simp only [finOwed, hfin, Bool.not_true, Bool.and_false, Bool.false_and] at hlast
  have hqueued := hnew.queued
  rcases hnew.nonempty with hpos | htrue
  · omega
  · exact absurd (hlast.symm.trans htrue) (by decide)

/-- While the application may write, no FIN was sent. -/
lemma finSent_of_canSend (h : Backlog t) (hstate : t.state.canSend = true) : t.finSent = false := by
  by_contra hfin
  have hclosing := (h.fin (by simpa using hfin)).2.1
  revert hclosing hstate
  cases t.state <;> simp [finStates, State.canSend]

/-- Nothing is buffered or in flight, and no FIN was sent. -/
lemma of_idle (hflight : Flight t) (hseq : t.dataUna = t.sndNxt) (hfin : t.finSent = false)
    (hq : t.rtx.Valid t.sndNxt t.sndNxt (some false))
    (hstate : t.state ≠ .finWait2 ∧ t.state ≠ .timeWait) : Backlog t where
  flight := hflight
  queue := by rwa [hfin, hseq]
  data := by simp [out, hseq]
  fin htrue := by simp [hfin] at htrue
  done hdone := absurd hdone (not_or.mpr hstate)

/-- The new data of a first transmission is in the ring, after what is in flight. -/
lemma new_le (hbuf : P.BUF < 2 ^ 32) (h : Backlog t) {len : U32} {fin : Bool}
    {probe : Option (U32 × U16)} (hnew : t.NewOk len fin probe) :
    t.out + len.toNat ≤ t.sendRing.len := by
  have hfin := h.finSent_of_new hnew
  have hold := h.out_le hfin
  have hqueued := hnew.queued
  rw [toNat_unsent hbuf hfin] at hqueued
  omega

/-- A record ends with what was sent exactly if it covers the last sequence number in flight. -/
lemma record_last (h : Backlog t) {s : Seg} (hs : s ∈ t.rtx.records) :
    s.stop = t.sndNxt ↔ (s.start - t.dataUna).toNat + s.seqLen.toNat = t.out := by
  have hin := h.queue.record_le hs
  have hlt := h.flight.out_lt
  have hsum : s.stop - t.dataUna = (s.start - t.dataUna) + s.seqLen := by
    rw [Seg.seqLen]
    bv_omega
  have hnat : (s.stop - t.dataUna).toNat = (s.start - t.dataUna).toNat + s.seqLen.toNat := by
    rw [hsum, BitVec.toNat_add, Nat.mod_eq_of_lt]
    exact hin.trans_lt (t.sndNxt - t.dataUna).isLt
  rw [← hnat, out]
  constructor
  · intro heq
    rw [heq]
  · intro heq
    bv_omega

/-- The data of a record is in the ring: only the last record has a FIN after it. -/
lemma record_le (h : Backlog t) {s : Seg} (hs : s ∈ t.rtx.records) :
    (s.start - t.dataUna).toNat + s.payloadLen.toNat ≤ t.sendRing.len := by
  have hin := h.queue.record_le hs
  have hdata := h.data
  have hpos := (h.queue.ok s hs).pos
  have hpay := s.toNat_payloadLen
  have hfin := h.queue.fin t.finSent rfl s hs
  have hlast := h.record_last hs
  change _ ≤ t.out at hin
  cases hout : t.finOut with
  | false =>
    rw [hout, Bool.toNat_false] at hdata
    omega
  | true =>
    have hsent : t.finSent = true := by
      simp only [finOut, Bool.and_eq_true] at hout
      exact hout.1
    rw [hsent, Bool.true_and] at hfin
    rw [hout, Bool.toNat_true] at hdata
    by_cases hend : s.stop = t.sndNxt
    · rw [hend, beq_self_eq_true] at hfin
      rw [hfin, Bool.toNat_true] at hpay
      omega
    · have hne := mt hlast.mpr hend
      omega

/-- Something is in flight if there is a record. -/
lemma out_pos (h : Backlog t) {s : Seg} (hs : s ∈ t.rtx.records) : 0 < t.out := by
  have hin := h.queue.record_le hs
  have hpos := (h.queue.ok s hs).pos
  rw [← out] at hin
  omega

lemma una_ne_of_out (h : Backlog t) (hout : 0 < t.out) : t.sndUna ≠ t.sndNxt := by
  intro heq
  have hidle := h.flight.una_eq_nxt_iff.mp heq
  omega

/-- The record of the FIN holds the last of what is buffered. -/
lemma record_fin (h : Backlog t) {s : Seg} (hs : s ∈ t.rtx.records) (hfin : s.flags.fin = true) :
    t.finSent = true ∧ (s.start - t.dataUna).toNat + s.payloadLen.toNat = t.sendRing.len := by
  have hflag := h.queue.fin t.finSent rfl s hs
  rw [hfin, Bool.true_eq, Bool.and_eq_true, beq_iff_eq] at hflag
  obtain ⟨hsent, hend⟩ := hflag
  have hlast := (h.record_last hs).mp hend
  have hexact := (h.fin hsent).2.2
  have hout : t.finOut = true := by simp [finOut, hsent, h.una_ne_of_out (h.out_pos hs)]
  have hpos := (h.queue.ok s hs).pos
  have hpay := s.toNat_payloadLen
  rw [hout, Bool.toNat_true] at hexact
  rw [hfin, Bool.toNat_true] at hpay
  exact ⟨hsent, by omega⟩

/-! ## Steps -/

/-- A first transmission. -/
lemma first {len : U32} {fin : Bool} {u : Tcb P} (hbuf : P.BUF < 2 ^ 32) (h : Backlog t)
    {probe : Option (U32 × U16)} (hnew : t.NewOk len fin probe) (hshort : len.toNat ≤ MSS.toNat)
    (hflight : Flight u)
    (hq : u.rtx.Valid t.dataUna (t.sndNxt + (len + ofFlag 32 fin)) (some fin))
    (huna : u.dataUna = t.dataUna) (hne : u.sndUna ≠ u.sndNxt)
    (hnxt : u.sndNxt = t.sndNxt + (len + ofFlag 32 fin)) (hfin : u.finSent = (t.finSent || fin))
    (hseq : fin = true → u.finSeq = t.sndNxt + len) (hring : u.sendRing = t.sendRing)
    (hstate : u.state = t.state) : Backlog u := by
  have hunsent := h.finSent_of_new hnew
  have hold := h.out_le hunsent
  have hqueued := hnew.queued
  rw [toNat_unsent hbuf hunsent] at hqueued
  have hsent : u.finSent = fin := by rw [hfin, hunsent, Bool.false_or]
  have hout := h.flight.out_first hshort huna hnxt
  have hfinOut : u.finOut = fin := by simp [finOut, hsent, hne]
  refine ⟨hflight, ?_, ?_, fun htrue => ⟨?_, ?_, ?_⟩, fun hdone => ?_⟩
  · rw [hsent, hnxt, huna]
    exact hq
  · rw [hout, hfinOut, hring]
    omega
  · have hf : fin = true := hsent.symm.trans htrue
    rw [hseq hf, hnxt, hf]
    exact BitVec.add_assoc ..
  · have howed := hnew.last
    rw [← hsent, htrue, Bool.true_eq, Bool.and_eq_true] at howed
    have hclosing := howed.1
    rw [hstate]
    revert hclosing
    simp only [finOwed]
    cases t.state <;> simp [finStates]
  · -- The FIN goes out with the last of what is buffered.
    have hf : fin = true := hsent.symm.trans htrue
    have hlast := hnew.last
    rw [hf, Bool.true_eq, Bool.and_eq_true, beq_iff_eq] at hlast
    have hlen : len.toNat = t.sendRing.len - t.out := by rw [hlast.2, toNat_unsent hbuf hunsent]
    rw [hout, hfinOut, hring, hf, Bool.toNat_true]
    omega
  · rw [hstate] at hdone
    exact absurd (h.done hdone).1 (by simp [hunsent])

/-- The bytes an ACK takes off the ring are those it takes out of flight, without the SYN and the FIN. -/
lemma acked_len {ack : U32} (h : Backlog t) (hlo : ¬ seqLt ack t.sndUna) (hhi : ¬ seqGt ack t.sndNxt)
    (hne : ack ≠ t.sndUna) :
    (satSub (satSub (ack - t.sndUna)
        (ofFlag 32 (t.finSent && decide (seqLe t.sndUna t.finSeq) && decide (seqGt ack t.finSeq))))
      (ofFlag 32 t.synUnacked)).toNat + (t.finSent && ack == t.sndNxt).toNat + (t.sndNxt - ack).toNat =
        t.out := by
  have hle := h.flight.ack_le hlo hhi
  have hlt := h.flight.flight_lt
  have hall := h.flight.flight_eq
  have hrest : (t.sndNxt - ack).toNat = (t.sndNxt - t.sndUna).toNat - (ack - t.sndUna).toNat :=
    toNat_sub_offset hle
  have hpos : 0 < (ack - t.sndUna).toNat := by
    rw [Nat.pos_iff_ne_zero]
    intro hzero
    exact hne (by bv_omega)
  have hcover : (t.finSent && decide (seqLe t.sndUna t.finSeq) && decide (seqGt ack t.finSeq)) =
      (t.finSent && ack == t.sndNxt) := by
    cases hfin : t.finSent with
    | false => rfl
    | true =>
      obtain ⟨h₁, h₂⟩ := covers_fin_iff (h.fin hfin).1 hlt hle hne
      rw [Bool.eq_iff_iff]
      simp [h₁, h₂]
  rw [hcover, toNat_satSub, toNat_satSub, toNat_ofFlag (by decide), toNat_ofFlag (by decide)]
  have hsyn := Bool.toNat_le t.synUnacked
  cases hb : (t.finSent && ack == t.sndNxt) with
  | false =>
    simp only [Bool.toNat_false]
    omega
  | true =>
    rw [Bool.and_eq_true, beq_iff_eq] at hb
    -- The FIN alone makes something outstanding besides the SYN.
    have hfin := (h.fin hb.1).2.2
    have hout : t.finOut = true := by simp [finOut, hb.1, ← hb.2, Ne.symm hne]
    rw [hout, Bool.toNat_true] at hfin
    rw [Bool.toNat_true, hrest, ← hb.2]
    rw [← hb.2] at hall
    omega

/-- An ACK of something outstanding. -/
lemma acked {ack : U32} {n : ℕ} {u : Tcb P} (h : Backlog t) (hlo : ¬ seqLt ack t.sndUna)
    (hhi : ¬ seqGt ack t.sndNxt) (hne : ack ≠ t.sndUna)
    (hn : n + (t.finSent && ack == t.sndNxt).toNat + (t.sndNxt - ack).toNat = t.out)
    (hflight : Flight u) (hq : u.rtx.Valid ack t.sndNxt (some t.finSent)) (huna : u.sndUna = ack)
    (hdata : u.dataUna = ack) (hnxt : u.sndNxt = t.sndNxt) (hfin : u.finSent = t.finSent)
    (hseq : u.finSeq = t.finSeq) (hring : u.sendRing = t.sendRing.consume n)
    (hstate : u.state = t.state) : Backlog u := by
  have hout : u.out = (t.sndNxt - ack).toNat := by rw [out, hnxt, hdata]
  have hlen : u.sendRing.len = t.sendRing.len - min n t.sendRing.len := by rw [hring]; rfl
  have hdone : ¬ (t.state = .finWait2 ∨ t.state = .timeWait) := by
    intro hdone
    have heq := (h.done hdone).2
    have hle := h.flight.ack_le hlo hhi
    rw [heq, BitVec.sub_self] at hle
    exact hne (by rw [heq]; bv_omega)
  have hfinOut : u.finOut = (t.finSent && !(ack == t.sndNxt)) := by
    rw [finOut, hfin, huna, hnxt]
    rfl
  cases hf : t.finSent with
  | false =>
    have hold := h.out_le hf
    rw [hf, Bool.false_and, Bool.toNat_false] at hn
    refine ⟨hflight, ?_, ?_, fun htrue => ?_, fun hd => absurd (hstate ▸ hd) hdone⟩
    · rw [hfin, hnxt, hdata]
      exact hq
    · rw [hout, hlen]
      omega
    · simp [hfin, hf] at htrue
  | true =>
    obtain ⟨hlast, hclosing, hexact⟩ := h.fin hf
    have hne' : t.sndUna ≠ t.sndNxt := by
      intro heq
      have hle := h.flight.ack_le hlo hhi
      rw [heq, BitVec.sub_self] at hle
      exact hne (by rw [heq]; bv_omega)
    have hwas : t.finOut = true := by simp [finOut, hf, hne']
    have hkey : u.out = u.sendRing.len + u.finOut.toNat := by
      rw [hwas, Bool.toNat_true] at hexact
      rw [hf, Bool.true_and] at hn hfinOut
      rw [hout, hlen, hfinOut]
      cases hall : (ack == t.sndNxt) with
      | false =>
        have hpos : 0 < (t.sndNxt - ack).toNat := by
          rw [beq_eq_false_iff_ne] at hall
          bv_omega
        rw [hall, Bool.toNat_false] at hn
        rw [Bool.not_false, Bool.toNat_true]
        omega
      | true =>
        rw [beq_iff_eq] at hall
        rw [hall, BitVec.sub_self, beq_self_eq_true, Bool.toNat_true] at hn
        rw [hall, BitVec.sub_self, Bool.not_true, Bool.toNat_false]
        change n + 1 + 0 = t.out at hn
        change 0 = t.sendRing.len - min n t.sendRing.len + 0
        omega
    refine ⟨hflight, ?_, hkey.le, fun _ => ⟨?_, ?_, hkey⟩, fun hd => absurd (hstate ▸ hd) hdone⟩
    · rw [hfin, hnxt, hdata]
      exact hq
    · rw [hseq, hnxt, hlast]
    · rw [hstate, hclosing]

/-- What changes neither the send sequence space nor what is buffered. -/
lemma of_same {u : Tcb P} (h : Backlog t) (hflight : Flight u)
    (hq : u.rtx.Valid t.dataUna t.sndNxt (some t.finSent)) (hseq : u.toSendSeq = t.toSendSeq)
    (hring : t.finSent = false ∧ t.sendRing.len ≤ u.sendRing.len ∨ u.sendRing.len = t.sendRing.len)
    (hstate : t.finSent = true → finStates t.state = true → finStates u.state = true)
    (hdone : u.state = .finWait2 ∨ u.state = .timeWait → t.finSent = true ∧ t.sndUna = t.sndNxt) :
    Backlog u := by
  have hfin : u.finSent = t.finSent := congrArg SendSeq.finSent hseq
  have huna : u.sndUna = t.sndUna := congrArg SendSeq.sndUna hseq
  have hnxt : u.sndNxt = t.sndNxt := congrArg SendSeq.sndNxt hseq
  have hlast : u.finSeq = t.finSeq := congrArg SendSeq.finSeq hseq
  have hdata : u.dataUna = t.dataUna := by
    simp only [dataUna, synOutstanding]
    rw [hseq]
  have hout : u.out = t.out := by rw [out, out, hnxt, hdata]
  have hfinOut : u.finOut = t.finOut := by rw [finOut, finOut, hfin, huna, hnxt]
  refine ⟨hflight, ?_, ?_, fun htrue => ⟨?_, ?_, ?_⟩, fun hd => ?_⟩
  · rw [hdata, hnxt, hfin]
    exact hq
  · have hold := h.data
    rw [hout, hfinOut]
    omega
  · rw [hlast, hnxt]
    exact (h.fin (hfin ▸ htrue)).1
  · exact hstate (hfin ▸ htrue) (h.fin (hfin ▸ htrue)).2.1
  · have hexact := (h.fin (hfin ▸ htrue)).2.2
    rw [hfin] at htrue
    rw [hout, hfinOut, hring.resolve_left fun hc => absurd hc.1 (by simp [htrue])]
    exact hexact
  · rw [hfin, huna, hnxt]
    exact hdone hd

/-- The handshake is over: our SYN was all that was out. -/
lemma answered {u : Tcb P} (h : Backlog t) (hstate : t.state = .synSent ∨ t.state = .synRcvd)
    (hflight : Flight u) (hrtx : u.rtx = t.rtx) (hnxt : u.sndNxt = t.sndNxt) (hfin : u.finSent = false)
    (hopen : u.state ≠ .finWait2 ∧ u.state ≠ .timeWait) : Backlog u := by
  obtain ⟨heq, -, -⟩ := h.flight.dataUna_handshake hstate
  have hspan : (u.sndNxt - u.dataUna).toNat = (t.sndNxt - t.dataUna).toNat := by
    rw [hflight.queue.span_eq, h.queue.span_eq, hrtx]
  rw [heq, BitVec.sub_self] at hspan
  have hfalse : t.finSent = false := by
    by_contra hsent
    have hclosing := (h.fin (by simpa using hsent)).2.1
    rcases hstate with hs | hs <;> rw [hs] at hclosing <;> cases hclosing
  refine of_idle hflight (by bv_omega) hfin ?_ hopen
  have hq := h.queue
  rwa [heq, hfalse, ← hnxt, ← hrtx] at hq

lemma finStates_finNext (hrecv : t.state.canRecv = true) (hclosing : finStates t.state = true) :
    finStates t.finNext = true := by
  simp only [finNext]
  cases hs : t.state with
  | finWait1 => dsimp only; split <;> rfl
  | finWait2 => rfl
  | _ => simp [hs, finStates, State.canRecv] at hclosing hrecv

lemma segment {seg : Segment} (h : Backlog t) (hflight : Flight (t.receiveSegment seg).2)
    (hrecv : t.state.canRecv = true) : Backlog (t.receiveSegment seg).2 := by
  have hframe := receiveSegment_frame t seg
  have hring : (t.receiveSegment seg).2.sendRing = t.sendRing := hframe.of fun t => t.sendRing
  have hrtx : (t.receiveSegment seg).2.rtx = t.rtx := hframe.of fun t => t.rtx
  refine h.of_same hflight (hrtx ▸ h.queue) (hframe.of fun t => t.toSendSeq)
    (.inr (congrArg Ring.len hring)) (fun _ hclosing => ?_) (fun hdone => ?_)
  · rcases receiveSegment_state t seg with hst | ⟨-, hst⟩
    · rw [hst]
      exact hclosing
    · rw [hst]
      exact finStates_finNext hrecv hclosing
  · rcases receiveSegment_state t seg with hst | ⟨-, hst⟩
    · exact h.done (hst ▸ hdone)
    · rw [hst] at hdone
      simp only [finNext] at hdone
      cases hs : t.state with
      | finWait1 =>
        by_cases hacked : t.finSent = true ∧ t.sndUna = t.sndNxt
        · exact hacked
        · simp [hs, hacked] at hdone
      | finWait2 => exact h.done (.inl hs)
      | timeWait => exact h.done (.inr hs)
      | _ => simp [hs] at hdone

lemma step (hbuf : P.BUF < 2 ^ 32) (t : Tcb P) (l : Option Segment) (t' : Tcb P) (hstep : Step t l t')
    (h : Backlog t) : Backlog t' := by
  have hflight := Flight.step t l t' hstep h.flight
  have hnofin {s : State} (hs : t.state = s) (hopen : finStates s = false) : t.finSent = false := by
    by_contra hfin
    have hclosing := (h.fin (by simpa using hfin)).2.1
    rw [hs, hopen] at hclosing
    cases hclosing
  have hidle {u : Tcb P} (hq : u.rtx = t.rtx.clear) (hseq : u.dataUna = u.sndNxt)
      (hfin : u.finSent = false) (hstate : u.state ≠ .finWait2 ∧ u.state ≠ .timeWait) (hu : Flight u) :
      Backlog u := of_idle hu hseq hfin (hq ▸ .clear h.queue.exact _ _) hstate
  cases hstep with
  | @first len fin probe opts d hd pkt ring rto tlp now hnew hshort hopts hh hlen hpkt hrto htlp =>
    obtain ⟨hok, hshare⟩ := Flight.newSeg_ok t now hshort hnew.nonempty
    have hunsent := h.finSent_of_new hnew
    have hpush := (h.queue.push (by simp [hunsent]) hnew.room rfl hok hshare).2
    refine first hbuf h hnew hshort hflight hpush rfl ?_ rfl rfl (fun hf => ?_) rfl rfl
    · exact h.flight.una_ne_new hshort hnew.nonempty
    · exact if_pos hf
  | @again i s len opts d hd pkt ring rto now hre hpart hshort =>
    refine h.of_same hflight ?_ rfl (.inr rfl) (fun _ hc => hc) h.done
    refine h.queue.retransmitted hre.record (h.flight.unsacked hre) ?_ now
    split
    case isTrue hlt =>
      have hmss : MSS.toNat = 1460 := rfl
      rw [BitVec.toNat_setWidth, Nat.mod_eq_of_lt (by omega)]
      exact .inr hlt
    case isFalse => exact .inl rfl
  | remark hq => exact h.of_same hflight (hq _ _ _ h.queue) rfl (.inr rfl) (fun _ hc => hc) h.done
  | @acked seg q rto tlp hstate hlo hhi hne hseq hq hidle hout =>
    exact h.acked hlo hhi hne (h.acked_len hlo hhi hne) hflight
      (hq _ _ h.queue (h.flight.ack_le_data hlo hhi hne)) rfl (BitVec.add_zero _) rfl rfl rfl rfl rfl
  | finWait2 hstate hfin hidle =>
    exact h.of_same hflight h.queue rfl (.inr rfl) (fun _ _ => rfl) fun _ => ⟨hfin, hidle⟩
  | timeWait hstate hfin hidle =>
    exact h.of_same hflight h.queue rfl (.inr rfl) (fun _ _ => rfl) fun _ => ⟨hfin, hidle⟩
  | segment hstate => exact h.segment hflight hstate
  | @accept bytes ring hstate hring =>
    refine h.of_same hflight h.queue rfl ?_ (fun _ hc => hc) h.done
    have hlen : ring.len = t.sendRing.len + bytes.length := by
      rw [← Ring.length_contents, hring, List.length_append, Ring.length_contents]
    by_cases hnil : bytes = []
    · right
      rw [hlen, hnil]
      rfl
    · left
      exact ⟨h.finSent_of_canSend (hstate hnil), by rw [hlen]; exact Nat.le_add_right ..⟩
  | @close s hstate =>
    have hopen : t.finSent = false := by
      rcases hstate with ⟨hs | hs, -⟩ | ⟨hs, -⟩ <;> exact hnofin hs rfl
    refine h.of_same hflight h.queue rfl (.inr rfl) (fun hfin => ?_) fun hdone => ?_
    · rw [hopen] at hfin
      cases hfin
    · rcases hstate with ⟨-, rfl⟩ | ⟨-, rfl⟩ <;> rcases hdone with hd | hd <;> cases hd
  | abort => exact hidle rfl (BitVec.add_zero _) rfl ⟨nofun, nofun⟩ hflight
  | closeClean => exact hidle rfl (BitVec.add_zero _) rfl ⟨nofun, nofun⟩ hflight
  | timeWaitOver hdue => exact h.of_same hflight h.queue rfl (.inr rfl) (fun _ _ => rfl) nofun
  | @reset s localEp remoteEp iss mtu hstate hmtu =>
    refine hidle rfl (BitVec.add_zero _) rfl ?_ hflight
    rcases hstate with rfl | rfl <;> exact ⟨nofun, nofun⟩
  | connected => exact hidle rfl rfl rfl ⟨nofun, nofun⟩ hflight
  | halfOpened => exact hidle rfl rfl rfl ⟨nofun, nofun⟩ hflight
  | activeOpened hstate =>
    exact h.answered (.inl hstate) hflight rfl rfl (hnofin hstate rfl) ⟨nofun, nofun⟩
  | simultaneous hstate =>
    have hnone := hnofin hstate rfl
    exact h.of_same hflight h.queue rfl (.inr rfl) (fun hfin => absurd hfin (by simp [hnone])) nofun
  | passiveOpened hstate =>
    exact h.answered (.inr hstate) hflight rfl rfl (hnofin hstate rfl) ⟨nofun, nofun⟩
  | cookieOpened => exact hidle rfl (BitVec.add_zero _) rfl ⟨nofun, nofun⟩ hflight
  | _ => exact h.of_same hflight h.queue rfl (.inr rfl) (fun _ hc => hc) h.done

lemma stable (hbuf : P.BUF < 2 ^ 32) : Stable (Backlog (P := P)) where
  core t := by
    constructor
    · intro h
      exact ⟨(Flight.stable.core t).mp h.flight, h.queue, h.data, h.fin, h.done⟩
    · intro h
      exact ⟨(Flight.stable.core t).mpr h.flight, h.queue, h.data, h.fin, h.done⟩
  step := step hbuf

end Backlog

end Tcb

open Tcb

lemma Reachable.backlog (hbuf : P.BUF < 2 ^ 32) {t : Tcb P} (ht : Reachable t) : Backlog t :=
  ht.stable (Backlog.stable hbuf) fun cfg =>
    Backlog.of_idle (t := Tcb.new cfg) (Reachable.new cfg).flight (BitVec.add_zero _) rfl
      (.clear (q := (zeroed : Tcb P).rtx) rfl _ _) ⟨nofun, nofun⟩

end TcpSansIo
