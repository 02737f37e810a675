import TcpSansIo.Faultless
import TcpSansIo.Send.Stream

/-!
# What was sent is on record

Every segment that takes sequence numbers ends at or before `SND.NXT` (`Within`), and the records of the
retransmission queue cover all that is outstanding: so every data byte and FIN that was staged is either
acknowledged or on record (`no_internal_failure`).

The budget of the send loop is `TXQ as u32 + 2`, a plain addition: with a ring of 2³² - 2 slots it overflows
(`crowded_budget_overflows`).
-/

namespace TcpSansIo

open Proc FixedWidth

variable {P : Params}

/-- The records of a chain cover it. -/
lemma Chain.covers {a b : U32} {l : List Seg} (h : Chain a l b) {d : ℕ} (hd : d < span l)
    (hlt : span l < 2 ^ 32) : ∃ s ∈ l, (a + BitVec.ofNat 32 d - s.start).toNat < s.seqLen.toNat := by
  induction l generalizing a d with
  | nil => exact absurd hd (Nat.not_lt_zero _)
  | cons s l ih =>
    obtain ⟨hstart, hrest⟩ := h
    rw [span_cons] at hd hlt
    rcases Nat.lt_or_ge d s.seqLen.toNat with hin | hpast
    · refine ⟨s, List.mem_cons_self, ?_⟩
      rw [hstart, BitVec.add_comm, BitVec.add_sub_cancel, BitVec.toNat_ofNat, Nat.mod_eq_of_lt (by omega)]
      exact hin
    · obtain ⟨r, hr, hcover⟩ := ih (d := d - s.seqLen.toNat) hrest (by omega) (by omega)
      refine ⟨r, List.mem_cons_of_mem _ hr, ?_⟩
      have hplace : a + BitVec.ofNat 32 d = s.stop + BitVec.ofNat 32 (d - s.seqLen.toNat) := by
        have hlen : s.start + BitVec.ofNat 32 s.seqLen.toNat = s.stop := by
          rw [BitVec.ofNat_toNat, BitVec.setWidth_eq, Seg.seqLen, BitVec.add_comm, BitVec.sub_add_cancel]
        rw [← hlen, BitVec.add_assoc, ← BitVec.ofNat_add, Nat.add_sub_cancel' hpast, hstart]
      rw [hplace]
      exact hcover

namespace Tcb

/-- What was staged ends at or before `SND.NXT`. -/
def Within (t : Tcb P) : Prop :=
  ∀ e ∈ t.sent, e.payload ≠ [] ∨ e.header.flags.fin = true → e.offset + e.numbers ≤ t.firstSpan

namespace Within

variable {t u : Tcb P}

lemma of_same (h : Within t) (hsent : u.sent = t.sent) : Within u := by
  intro e he hdata
  rw [firstSpan, firsts, hsent]
  exact h e (hsent ▸ he) hdata

/-- A connection that has staged nothing, or only its SYN. -/
lemma of_new (h : ∀ e ∈ u.sent, e.payload = [] ∧ e.header.flags.fin = false) : Within u := by
  intro e he hdata
  obtain ⟨hnil, hfin⟩ := h e he
  rcases hdata with hne | htrue
  · exact absurd hnil hne
  · cases hfin.symm.trans htrue

/-- A segment is staged. -/
lemma of_emit (h : Within t) {e : Emission P} (hsent : u.sent = t.sent ++ [e])
    (hnew : e.payload ≠ [] ∨ e.header.flags.fin = true → e.offset + e.numbers ≤ u.firstSpan) : Within u := by
  intro x hx hdata
  rw [hsent, List.mem_append, List.mem_singleton] at hx
  rcases hx with hold | rfl
  · refine (h x hold hdata).trans ?_
    rw [firstSpan, firstSpan, firsts, firsts, hsent, List.filter_append, List.map_append, List.sum_append]
    exact Nat.le_add_right _ _
  · exact hnew hdata

lemma of_control (h : Within t) {hd : Header} {pkt : List U8} (hsent : u.sent = t.sent ++ [t.emission hd [] pkt])
    (hfin : hd.flags.fin = false) : Within u := by
  refine h.of_emit hsent fun hdata => ?_
  rcases hdata with hne | htrue
  · exact absurd rfl hne
  · cases hfin.symm.trans htrue

/-- A first transmission begins at `SND.NXT` and moves it. -/
lemma first {len : U32} {fin : Bool} {probe : Option (U32 × U16)} {hd : Header} {pkt : List U8} (h : Within t)
    (hl : Ledger t) (hnew : t.NewOk len fin probe) (hseq : hd.seq = t.sndNxt) (hfin : hd.flags.fin = fin)
    (hlen : (t.bytesAt t.sndNxt len).length = len.toNat)
    (hsent : u.sent = t.sent ++ [t.emission hd (t.bytesAt t.sndNxt len) pkt]) : Within u := by
  refine h.of_emit hsent fun hdata => ?_
  have hunsent := hl.backlog.finSent_of_new hnew
  have hspan := hl.span (hl.begun_of_new hnew)
  have hdone : t.finDone = false := by simp only [finDone, hunsent, Bool.false_and]
  have hoff : (t.emission hd (t.bytesAt t.sndNxt len) pkt).offset = t.ackedBytes + t.out := by
    change t.ackedBytes + (hd.seq - t.dataUna).toNat = _
    rw [hseq]
    rfl
  have hisFirst : (t.emission hd (t.bytesAt t.sndNxt len) pkt).isFirst = true := by
    simp only [Emission.isFirst, emission, hseq, hfin, beq_self_eq_true, Bool.true_and, Bool.or_eq_true,
      Bool.not_eq_true', List.isEmpty_eq_false_iff]
    refine hnew.nonempty.imp_left fun hpos => ?_
    rw [← List.length_pos_iff, hlen]
    exact hpos
  rw [hdone, Bool.toNat_false, Nat.add_zero, firstSpan] at hspan
  rw [firstSpan, firsts_append hsent hisFirst, List.map_append, List.sum_append, List.map_singleton,
    List.sum_singleton, hspan, hoff]

/-- What is sent again is inside a record. -/
lemma again {i : ℕ} {s : Seg} {len : U32} {hd : Header} {pkt : List U8} (h : Within t) (hl : Ledger t)
    (hre : t.ResendOk i s) (hpart : len = minB s.payloadLen t.mssPayload) (hseq : hd.seq = s.start)
    (hfin : hd.flags.fin = (s.flags.fin && len == s.payloadLen))
    (hlen : (t.bytesAt s.start len).length = len.toNat)
    (hsent : u.sent = t.sent ++ [t.emission hd (t.bytesAt s.start len) pkt]) : Within u := by
  refine h.of_emit hsent fun _ => ?_
  have hmem := RtxQueue.mem_of_get hre.record
  have hin := hl.backlog.queue.record_le hmem
  have hbegun : t.begun = true := by
    by_contra hover
    have hidle := (hl.spent (by simpa using hover)).2
    have hout := hl.backlog.out_pos hmem
    omega
  have hoff : (t.emission hd (t.bytesAt s.start len) pkt).offset = t.ackedBytes + (s.start - t.dataUna).toNat := by
    change t.ackedBytes + (hd.seq - t.dataUna).toNat = _
    rw [hseq]
  have hnum : (t.emission hd (t.bytesAt s.start len) pkt).numbers ≤ s.seqLen.toNat := by
    have hpay := s.toNat_payloadLen
    have hle : len.toNat ≤ s.payloadLen.toNat := by
      rw [hpart, toNat_minB]
      exact min_le_left _ _
    have hpos := (hl.backlog.queue.ok s hmem).pos
    change (t.bytesAt s.start len).length + hd.flags.fin.toNat ≤ _
    rw [hlen, hfin]
    cases hf : s.flags.fin with
    | false =>
      rw [Bool.false_and, Bool.toNat_false]
      omega
    | true =>
      rw [hf, Bool.toNat_true] at hpay
      have hbit := Bool.toNat_le (true && len == s.payloadLen)
      omega
  have hmono : t.firstSpan ≤ u.firstSpan := by
    rw [firstSpan, firstSpan, firsts, firsts, hsent, List.filter_append, List.map_append, List.sum_append]
    exact Nat.le_add_right _ _
  have hspan := hl.span hbegun
  rw [← out] at hin
  omega

lemma step (t : Tcb P) (l : Option Segment) (t' : Tcb P) (hstep : Step t l t') (hl : Ledger t)
    (h : Within t) : Within t' := by
  have hsyn {u u' : Tcb P} {hd : Header} {pkt : List U8} {fl : Flags} {seq ack : U32} {opts : TcpOptions}
      {d : Option (U32 × U32)} (hctl : u.Control fl seq ack opts d) (hh : u.PeerHeader fl seq ack opts hd)
      (hsent : u'.sent = [u.emission hd [] pkt]) : Within u' := by
    refine of_new fun e he => ?_
    rw [hsent, List.mem_singleton] at he
    rw [he]
    exact ⟨rfl, hh.fin.trans hctl.fin⟩
  have hnew {u : Tcb P} (hsent : u.sent = []) : Within u := by
    refine of_new fun e he => ?_
    rw [hsent] at he
    cases he
  cases hstep with
  | control hctl hh hpkt => exact h.of_control rfl (hh.fin.trans hctl.fin)
  | stateless hh hpkt =>
    refine h.of_control rfl ?_
    rcases hh with hrst | ⟨-, -, hfin, -⟩
    · rw [hrst]
    · exact hfin
  | first now hok hshort hopts hh hlen => exact h.first hl hok hh.seq hh.fin hlen rfl
  | again now hre hpart hshort hopts hh hlen => exact h.again hl hre hpart hh.seq hh.fin hlen rfl
  | @segment seg => exact h.of_same ((receiveSegment_frame t seg).of fun t => t.sent)
  | reset => exact hnew rfl
  | connected hstate _ hctl hh => exact hsyn hctl hh rfl
  | halfOpened hstate _ _ _ _ _ hctl hh => exact hsyn hctl hh rfl
  | cookieOpened => exact hnew rfl
  | _ => exact h.of_same rfl

lemma stable (hbuf : P.BUF < 2 ^ 32) : Stable fun t : Tcb P => Ledger t ∧ Within t where
  core t := and_congr ((Ledger.stable hbuf).core t) Iff.rfl
  step t l t' hstep h := ⟨Ledger.step hbuf t l t' hstep h.1, step t l t' hstep h.1 h.2⟩

end Within

/-- Where the oldest unacknowledged data sequence number is in the stream, our FIN counted. -/
def sndPos (t : Tcb P) : ℕ := t.ackedBytes + t.finDone.toNat

end Tcb

open Tcb

lemma Reachable.within (hbuf : P.BUF < 2 ^ 32) {t : Tcb P} (ht : Reachable t) : Within t :=
  (ht.stable (Within.stable hbuf) fun cfg => ⟨(Reachable.new cfg).ledger hbuf, .of_new (new_sent cfg)⟩).2

/-- No call panics or fails with an internal error, the send loop keeps within its budget, and every sequence
number of a staged data segment or FIN that is not acknowledged is on record. -/
theorem no_internal_failure (hbuf : P.BUF < 2 ^ 32) (hq : P.TXQ + 2 < 2 ^ 32) {t : Tcb P} (ht : Reachable t) :
    (∀ c : Call, (∀ cap, c = .extractPacket cap → MAX_PACKET ≤ cap) → ∀ e t', c.run t = .error e t' →
        ∃ x, e = .tcp x ∧ x ≠ .overflow ∧ x ≠ .bufferTooSmall) ∧
      (sendLoop (P.TXQ + 1) 0 : TcbM P Unit) = sendUntilBlocked (P.TXQ + 1) ∧
      (t.begun = true → ∀ e ∈ t.sent, e.payload ≠ [] ∨ e.header.flags.fin = true → ∀ i < e.numbers,
        t.sndPos ≤ e.offset + i →
          ∃ s ∈ t.rtx.records, (e.header.seq + BitVec.ofNat 32 i - s.start).toNat < s.seqLen.toNat) := by
  refine ⟨fun c hcap e t' hrun => ht.fault hbuf hq hcap hrun, sendLoop_eq hq _ 0 (Nat.zero_add _).le, ?_⟩
  intro hbegun e he hdata i hi hopen
  have hl := ht.ledger hbuf
  have hin := (ht.outgoing hbuf).data e he hdata
  have hend := ht.within hbuf e he hdata
  rw [hl.span hbegun, ← sndPos] at hend
  have hq := hl.backlog.queue
  obtain ⟨s, hs, hcover⟩ := hq.chain.covers (d := e.offset + i - t.sndPos)
    (by rw [← hq.span_eq, ← out]; omega) (hq.span_lt.trans (by decide))
  refine ⟨s, hs, ?_⟩
  have hplace : e.header.seq + BitVec.ofNat 32 i = t.dataUna + BitVec.ofNat 32 (e.offset + i - t.sndPos) := by
    rw [hin.place, hl.place hbegun, ← sndPos, BitVec.add_assoc, BitVec.add_assoc (t.iss + 1), ← BitVec.ofNat_add,
      ← BitVec.ofNat_add, Nat.add_sub_cancel' hopen]
  rw [hplace]
  exact hcover

/-- The three bytes that the tiny client lost are still on record. -/
theorem tinyTimedOut_on_record :
    ∃ e ∈ tinyTimedOut.sent, e.payload = [1, 2, 3] ∧ ∃ s ∈ tinyTimedOut.rtx.records,
      (e.header.seq + BitVec.ofNat 32 2 - s.start).toNat < s.seqLen.toNat := by
  have hany : (tinyTimedOut.sent.any fun e => e.payload == [1, 2, 3] && decide (2 < e.numbers) &&
      decide (tinyTimedOut.sndPos ≤ e.offset + 2)) = true := by decide +kernel
  obtain ⟨e, he, hdata⟩ := List.any_eq_true.mp hany
  simp only [Bool.and_eq_true, beq_iff_eq, decide_eq_true_iff] at hdata
  obtain ⟨⟨hpay, htwo⟩, hopen⟩ := hdata
  have hreach : Reachable tinyTimedOut := reachable_tinyOpen.runAll (by decide +kernel)
  refine ⟨e, he, hpay, (no_internal_failure (by decide) (by decide) hreach).2.2 (by decide +kernel) e he
    (.inl ?_) 2 htwo hopen⟩
  rw [hpay]
  exact List.cons_ne_nil _ _

/-- The tiny configuration with an egress ring of 2³² - 2 slots. -/
def crowded : Params :=
  { tiny with
    TXQ := 2 ^ 32 - 2
    txq_pos := by decide
    txq_lt := by decide }

/-- A client of that configuration has opened its connection. -/
def crowdedClient : Tcb crowded :=
  runAll tinyHandshake (Tcb.new ⟨⟨(10, 0, 0, 1), 1000⟩, ⟨(10, 0, 0, 2), 80⟩, 100, 1000⟩)

/-- The next time the send loop computes its budget, it overflows. -/
theorem crowded_budget_overflows :
    crowded.BUF ≤ 2 ^ 30 ∧ Reachable crowdedClient ∧ ¬ Returned (Call.run .tick crowdedClient) :=
  ⟨by decide, (Reachable.new _).runAll (by decide +kernel), by decide +kernel⟩

end TcpSansIo
