import TcpSansIo.Send.Backlog
import TcpSansIo.Send.PeerWindow
import TcpSansIo.Machine.Log

/-!
# The stream that is sent

The books of the sending side.  What the application handed over (`accepted`) is what the peer
acknowledged, followed by what is in the send ring; sequence numbers count on from our SYN through the
bytes to our FIN; and the segments that were sent for the first time carry the stream from its start,
piece by piece (`Ledger`).  So every data segment, sent for the first time or again, carries the bytes of
the stream at its place, and our FIN stands at the end of the stream, however often the sequence numbers
have wrapped (`Reachable.outgoing`).
-/

namespace TcpSansIo

open Proc FixedWidth

variable {P : Params}

namespace Emission

/-- The segment takes sequence numbers for the first time. -/
def isFirst (e : Emission P) : Bool :=
  e.header.seq == e.sndNxt && (!e.payload.isEmpty || e.header.flags.fin)

/-- Sequence numbers that a data segment takes. -/
def numbers (e : Emission P) : ℕ := e.payload.length + e.header.flags.fin.toNat

/-- The oldest data sequence number that was not acknowledged when the segment was staged. -/
def dataUna (e : Emission P) : U32 := e.sndUna + ofFlag 32 e.synUnacked

/-- Where in the stream the segment begins: after the bytes that were acknowledged when it was staged, as
far as its sequence number is from the oldest unacknowledged one. -/
def offset (e : Emission P) : ℕ :=
  e.accepted.length - e.sendRing.len + (e.header.seq - e.dataUna).toNat

/-- The segment carries a stream that began after `iss` at its offset, and a FIN only at its end. -/
structure InStream (e : Emission P) (iss : U32) (stream : List U8) : Prop where
  place : e.header.seq = iss + 1 + BitVec.ofNat 32 e.offset
  text : e.payload <+: stream.drop e.offset
  fin : e.header.flags.fin = true → e.offset + e.payload.length = stream.length

end Emission

namespace Tcb

/-- Bytes of the stream that the peer acknowledged. -/
def ackedBytes (t : Tcb P) : ℕ := t.accepted.length - t.sendRing.len

/-- Our FIN was acknowledged. -/
def finDone (t : Tcb P) : Bool := t.finSent && t.sndUna == t.sndNxt

/-- A connection was begun and is not over. -/
def begun (t : Tcb P) : Bool := t.state != .closed && t.state != .listen

/-- The first transmissions of this connection, in the order they were staged. -/
def firsts (t : Tcb P) : List (Emission P) := t.sent.filter Emission.isFirst

/-- Sequence numbers that were ever staged. -/
def firstSpan (t : Tcb P) : ℕ := (t.firsts.map Emission.numbers).sum

/-- The bytes that were ever staged, in the order of their first transmission. -/
def firstText (t : Tcb P) : List U8 := t.firsts.flatMap Emission.payload

structure Ledger (t : Tcb P) : Prop where
  backlog : Backlog t
  kept : t.sendRing.contents = t.accepted.drop t.ackedBytes
  place : t.begun = true → t.dataUna = t.iss + 1 + BitVec.ofNat 32 (t.ackedBytes + t.finDone.toNat)
  span : t.begun = true → t.firstSpan = t.ackedBytes + t.finDone.toNat + t.out
  text : t.firstText <+: t.accepted
  length : t.begun = true → t.firstText.length = min (t.ackedBytes + t.out) t.accepted.length
  spent : t.begun = false → t.sendRing.len = 0 ∧ t.out = 0

lemma begun_of_synchronized {t : Tcb P} (h : t.state.isSynchronized = true) : t.begun = true := by
  rw [begun]
  cases hs : t.state <;> simp [hs, State.isSynchronized] at h ⊢

lemma begun_of_state {t : Tcb P} {s : State} (h : t.state = s) (hs : s ≠ .closed ∧ s ≠ .listen) :
    t.begun = true := by
  simp [begun, h, hs]

lemma begun_of_canRecv {t : Tcb P} (h : t.state.canRecv = true) : t.begun = true :=
  begun_of_synchronized (isSynchronized_of_canRecv h)

lemma begun_of_canSend {t : Tcb P} (h : t.state.canSend = true) : t.begun = true := by
  rw [begun]
  cases hs : t.state <;> simp [hs, State.canSend] at h ⊢

lemma out_of_idle {t : Tcb P} (h : t.dataUna = t.sndNxt) : t.out = 0 := by
  rw [out, h, BitVec.sub_self]
  rfl

/-- What acknowledges something acknowledges what is outstanding. -/
lemma Flight.una_ne_of_acked {t : Tcb P} (h : Flight t) {ack : U32} (hne : ack ≠ t.sndUna)
    (hlo : ¬ seqLt ack t.sndUna) (hhi : ¬ seqGt ack t.sndNxt) : t.sndUna ≠ t.sndNxt := by
  intro heq
  have hin := h.ack_le hlo hhi
  rw [heq, BitVec.sub_self] at hin
  exact hne (by rw [heq]; bv_omega)

/-- No FIN is out before the application closed. -/
lemma Backlog.finSent_of_open {t : Tcb P} (h : Backlog t) {s : State} (hs : t.state = s)
    (hopen : finStates s = false) : t.finSent = false := by
  by_contra hfin
  have hclosing := (h.fin (by simpa using hfin)).2.1
  rw [hs, hopen] at hclosing
  cases hclosing

/-! ## Segments -/

/-- A segment without text and without a FIN is no first transmission. -/
lemma isFirst_control (t : Tcb P) {h : Header} (hfin : h.flags.fin = false) (pkt : List U8) :
    (t.emission h [] pkt).isFirst = false := by
  simp only [Emission.isFirst, emission, hfin, List.isEmpty_nil, Bool.not_true, Bool.or_false,
    Bool.and_false]

lemma firsts_append {t u : Tcb P} {e : Emission P} (h : u.sent = t.sent ++ [e]) (he : e.isFirst = true) :
    u.firsts = t.firsts ++ [e] := by
  simp only [firsts, h, List.filter_append, List.filter_cons, he, if_true, List.filter_nil]

lemma firsts_same {t u : Tcb P} {e : Emission P} (h : u.sent = t.sent ++ [e]) (he : e.isFirst = false) :
    u.firsts = t.firsts := by
  rw [firsts, h, List.filter_append, List.filter_cons_of_neg (by simp [he]), List.filter_nil, List.append_nil,
    firsts]

namespace Ledger

variable {t u : Tcb P}

lemma len_le (h : Ledger t) : t.sendRing.len ≤ t.accepted.length := by
  have hlen := congrArg List.length h.kept
  rw [Ring.length_contents, List.length_drop, ackedBytes] at hlen
  omega

/-- Nothing is acknowledged, buffered or in flight. -/
lemma of_idle (hb : Backlog u) (hacc : u.accepted = []) (hring : u.sendRing.len = 0)
    (hfin : u.finSent = false) (hidle : u.dataUna = u.sndNxt)
    (hplace : u.begun = true → u.dataUna = u.iss + 1) (hfirsts : u.firsts = []) : Ledger u := by
  have hacked : u.ackedBytes = 0 := by simp only [ackedBytes, hacc, List.length_nil, Nat.zero_sub]
  have hdone : u.finDone = false := by simp only [finDone, hfin, Bool.false_and]
  have hout := out_of_idle hidle
  have htext : u.firstText = [] := by simp only [firstText, hfirsts, List.flatMap_nil]
  refine ⟨hb, ?_, fun hbegun => ?_, fun _ => ?_, ?_, fun _ => ?_, fun _ => ⟨hring, hout⟩⟩
  · rw [hacc, List.drop_nil, ← List.length_eq_zero_iff, Ring.length_contents, hring]
  · rw [hplace hbegun, hacked, hdone]
    exact (BitVec.add_zero _).symm
  · rw [firstSpan, hfirsts, hacked, hdone, hout]
    rfl
  · rw [htext]
    exact List.nil_prefix
  · rw [htext, hacked, hout, hacc]
    rfl

/-- The books do not change. -/
lemma of_same (h : Ledger t) (hb : Backlog u) (hring : u.sendRing = t.sendRing)
    (hacc : u.accepted = t.accepted) (hiss : u.iss = t.iss) (hdata : u.dataUna = t.dataUna)
    (hnxt : u.sndNxt = t.sndNxt) (hdone : u.finDone = t.finDone) (hfirsts : u.firsts = t.firsts)
    (hbegun : u.begun = t.begun) : Ledger u := by
  have hacked : u.ackedBytes = t.ackedBytes := by rw [ackedBytes, ackedBytes, hring, hacc]
  have hout : u.out = t.out := by rw [out, out, hnxt, hdata]
  have htext : u.firstText = t.firstText := by rw [firstText, firstText, hfirsts]
  refine ⟨hb, ?_, fun hu => ?_, fun hu => ?_, ?_, fun hu => ?_, fun hu => ?_⟩
  · rw [hring, hacc, hacked]
    exact h.kept
  · rw [hdata, hiss, hacked, hdone]
    exact h.place (hbegun ▸ hu)
  · rw [firstSpan, hfirsts, hacked, hdone, hout]
    exact h.span (hbegun ▸ hu)
  · rw [htext, hacc]
    exact h.text
  · rw [htext, hacked, hout, hacc]
    exact h.length (hbegun ▸ hu)
  · rw [hring, hout]
    exact h.spent (hbegun ▸ hu)

/-- Neither do they if the send sequence space stays. -/
lemma of_seq (h : Ledger t) (hb : Backlog u) (hring : u.sendRing = t.sendRing)
    (hacc : u.accepted = t.accepted) (hseq : u.toSendSeq = t.toSendSeq) (hfirsts : u.firsts = t.firsts)
    (hbegun : u.begun = t.begun) : Ledger u := by
  have huna : u.sndUna = t.sndUna := congrArg SendSeq.sndUna hseq
  have hnxt : u.sndNxt = t.sndNxt := congrArg SendSeq.sndNxt hseq
  have hsyn : u.synUnacked = t.synUnacked := congrArg SendSeq.synUnacked hseq
  have hfin : u.finSent = t.finSent := congrArg SendSeq.finSent hseq
  refine h.of_same hb hring hacc (congrArg SendSeq.iss hseq) ?_ hnxt ?_ hfirsts hbegun
  · rw [dataUna, dataUna, synOutstanding, synOutstanding, huna, hsyn]
  · rw [finDone, finDone, hfin, huna, hnxt]

/-- The connection is over. -/
lemma of_over (h : Ledger t) (hb : Backlog u) (hring : u.sendRing.len = 0) (hout : u.out = 0)
    (hacc : u.accepted = t.accepted) (hsent : u.sent = t.sent) (hbegun : u.begun = false) : Ledger u := by
  have hover {p : Prop} (hu : u.begun = true) : p := by
    rw [hbegun] at hu
    cases hu
  refine ⟨hb, ?_, hover, hover, ?_, hover, fun _ => ⟨hring, hout⟩⟩
  · rw [ackedBytes, hring, Nat.sub_zero, List.drop_length, ← List.length_eq_zero_iff,
      Ring.length_contents, hring]
  · rw [firstText, firsts, hsent, hacc]
    exact h.text

/-- The application hands over more. -/
lemma accept {bytes : List U8} {ring : Ring P.BUF} (h : Ledger t) (hb : Backlog u)
    (hring : u.sendRing = ring) (hcontents : ring.contents = t.sendRing.contents ++ bytes)
    (hacc : u.accepted = t.accepted ++ bytes) (hseq : u.toSendSeq = t.toSendSeq)
    (hsent : u.sent = t.sent) (hbegun : u.begun = t.begun)
    (hopen : bytes ≠ [] → t.begun = true ∧ t.finSent = false) : Ledger u := by
  have hle := h.len_le
  have hlen : u.sendRing.len = t.sendRing.len + bytes.length := by
    rw [hring, ← Ring.length_contents, hcontents, List.length_append, Ring.length_contents]
  have hacked : u.ackedBytes = t.ackedBytes := by
    rw [ackedBytes, ackedBytes, hlen, hacc, List.length_append]
    omega
  have huna : u.sndUna = t.sndUna := congrArg SendSeq.sndUna hseq
  have hnxt : u.sndNxt = t.sndNxt := congrArg SendSeq.sndNxt hseq
  have hdone : u.finDone = t.finDone := by
    rw [finDone, finDone, huna, hnxt, show u.finSent = t.finSent from congrArg SendSeq.finSent hseq]
  have hdata : u.dataUna = t.dataUna := by
    rw [dataUna, dataUna, synOutstanding, synOutstanding, huna,
      show u.synUnacked = t.synUnacked from congrArg SendSeq.synUnacked hseq]
  have hout : u.out = t.out := by rw [out, out, hnxt, hdata]
  have hfirsts : u.firsts = t.firsts := by rw [firsts, firsts, hsent]
  have htext : u.firstText = t.firstText := by rw [firstText, firstText, hfirsts]
  refine ⟨hb, ?_, fun hu => ?_, fun hu => ?_, ?_, fun hu => ?_, fun hu => ?_⟩
  · rw [hring, hcontents, h.kept, hacc, hacked, List.drop_append_of_le_length]
    exact Nat.sub_le _ _
  · rw [hdata, hacked, hdone, show u.iss = t.iss from congrArg SendSeq.iss hseq]
    exact h.place (hbegun ▸ hu)
  · rw [firstSpan, hfirsts, hacked, hdone, hout]
    exact h.span (hbegun ▸ hu)
  · rw [htext, hacc]
    exact h.text.trans (List.prefix_append _ _)
  · rw [htext, h.length (hbegun ▸ hu), hacked, hout, hacc, List.length_append]
    -- Only a stream that is not complete grows, and all that is in flight is of the stream.
    by_cases hnil : bytes = []
    · rw [hnil]
      rfl
    · have hdataOut := h.backlog.out_le (hopen hnil).2
      have hsum : t.ackedBytes + t.sendRing.len = t.accepted.length := Nat.sub_add_cancel hle
      omega
  · have hnil : bytes = [] := by
      by_contra hne
      rw [hbegun, (hopen hne).1] at hu
      cases hu
    rw [hlen, hnil, hout]
    exact h.spent (hbegun ▸ hu)

/-- Nothing is sent for the first time before or after a connection. -/
lemma begun_of_new {len : U32} {fin : Bool} {probe : Option (U32 × U16)} (h : Ledger t)
    (hnew : t.NewOk len fin probe) : t.begun = true := by
  by_contra hover
  have hover : t.begun = false := by simpa using hover
  have hempty := (h.spent hover).1
  have hunsent : t.unsentBytes.toNat = 0 := by
    simp only [unsentBytes, toNat_satSub, hempty, BitVec.toNat_ofNat, Nat.zero_mod, Nat.zero_sub]
  have hqueued := hnew.queued
  have hlast := hnew.last
  rcases hnew.nonempty with hpos | hfin
  · omega
  · rw [hfin, Bool.true_eq, Bool.and_eq_true] at hlast
    have howed := hlast.1
    rw [begun] at hover
    simp only [finOwed] at howed
    cases hs : t.state <;> simp [hs] at hover howed

/-- What is sent for the first time follows what is in flight. -/
lemma bytesAt_eq (h : Ledger t) {seq len : U32} :
    t.bytesAt seq len = (t.accepted.drop (t.ackedBytes + (seq - t.dataUna).toNat)).take len.toNat := by
  rw [bytesAt, Ring.peekAt_contents, h.kept, List.drop_drop]

/-- A first transmission. -/
lemma first {len : U32} {fin : Bool} {e : Emission P} (hbuf : P.BUF < 2 ^ 32) (h : Ledger t)
    (hb : Backlog u) {probe : Option (U32 × U16)} (hnew : t.NewOk len fin probe)
    (hshort : len.toNat ≤ MSS.toNat)
    (hring : u.sendRing = t.sendRing) (hacc : u.accepted = t.accepted) (hiss : u.iss = t.iss)
    (hdata : u.dataUna = t.dataUna) (hne : u.sndUna ≠ u.sndNxt)
    (hnxt : u.sndNxt = t.sndNxt + (len + ofFlag 32 fin)) (hfirsts : u.firsts = t.firsts ++ [e])
    (hpay : e.payload = t.bytesAt t.sndNxt len) (hlen : e.payload.length = len.toNat)
    (hfin : e.header.flags.fin = fin) (hbegun : u.begun = t.begun) : Ledger u := by
  have hlive := h.begun_of_new hnew
  have hunsent := h.backlog.finSent_of_new hnew
  have hbefore : t.finDone = false := by simp only [finDone, hunsent, Bool.false_and]
  have hafter : u.finDone = false := by simp [finDone, hne]
  have hacked : u.ackedBytes = t.ackedBytes := by rw [ackedBytes, ackedBytes, hring, hacc]
  have hout := h.backlog.flight.out_first hshort hdata hnxt
  have hbuffered := h.backlog.new_le hbuf hnew
  have hsum : t.ackedBytes + t.sendRing.len = t.accepted.length := Nat.sub_add_cancel h.len_le
  have htext : u.firstText = t.firstText ++ e.payload := by
    simp only [firstText, hfirsts, List.flatMap_append, List.flatMap_cons, List.flatMap_nil, List.append_nil]
  have hlong : t.firstText.length = t.ackedBytes + t.out := by
    rw [h.length hlive]
    omega
  refine ⟨hb, ?_, fun _ => ?_, fun _ => ?_, ?_, fun _ => ?_,
    fun hu => absurd (hbegun.symm.trans hu) (by simp [hlive])⟩
  · rw [hring, hacc, hacked]
    exact h.kept
  · have hplace := h.place hlive
    rw [hbefore] at hplace
    rw [hdata, hiss, hacked, hafter]
    exact hplace
  · have hbooks := h.span hlive
    rw [hbefore, firstSpan] at hbooks
    rw [firstSpan, hfirsts, List.map_append, List.sum_append, hbooks, List.map_singleton, List.sum_singleton,
      Emission.numbers, hlen, hfin, hacked, hafter, hout]
    omega
  · -- The new piece is what follows the pieces before it.
    have hold : t.firstText = t.accepted.take (t.ackedBytes + t.out) := by
      rw [← hlong]
      exact List.prefix_iff_eq_take.mp h.text
    rw [htext, hacc, hpay, h.bytesAt_eq, ← out, hold, ← List.take_add]
    exact List.take_prefix _ _
  · rw [htext, List.length_append, hlong, hlen, hacked, hout, hacc]
    cases fin with
    | false =>
      rw [Bool.toNat_false]
      omega
    | true =>
      have hlast := hnew.last
      rw [Bool.true_eq, Bool.and_eq_true, beq_iff_eq] at hlast
      have hall : len.toNat = t.sendRing.len - t.out := by
        rw [hlast.2, Backlog.toNat_unsent hbuf hunsent]
      rw [Bool.toNat_true]
      omega

/-- An acknowledgment of something outstanding takes off the ring what it covers of the stream. -/
lemma acked {ack : U32} {n : ℕ} (h : Ledger t) (hb : Backlog u)
    (hn : n + (t.finSent && ack == t.sndNxt).toNat + (t.sndNxt - ack).toNat = t.out)
    (hne : ack ≠ t.sndUna) (hlo : ¬ seqLt ack t.sndUna) (hhi : ¬ seqGt ack t.sndNxt)
    (hring : u.sendRing = t.sendRing.consume n) (hacc : u.accepted = t.accepted) (hiss : u.iss = t.iss)
    (huna : u.sndUna = ack) (hdata : u.dataUna = ack) (hnxt : u.sndNxt = t.sndNxt)
    (hfin : u.finSent = t.finSent) (hsent : u.sent = t.sent) (hbegun : u.begun = t.begun) :
    Ledger u := by
  have hle := h.len_le
  have hdataOut := h.backlog.data
  have houtstanding := h.backlog.flight.una_ne_of_acked hne hlo hhi
  have hbefore : t.finDone = false := by simp [finDone, houtstanding]
  have hafter : u.finDone = (t.finSent && ack == t.sndNxt) := by rw [finDone, hfin, huna, hnxt]
  -- The FIN is acknowledged last, so what is taken off was buffered.
  have hbuffered : n ≤ t.sendRing.len := by
    have hwas : t.finOut = t.finSent := by simp [finOut, houtstanding]
    rw [hwas] at hdataOut
    cases hf : t.finSent with
    | false =>
      rw [hf, Bool.toNat_false] at hdataOut
      omega
    | true =>
      rw [hf, Bool.toNat_true] at hdataOut
      rw [hf, Bool.true_and] at hn
      by_cases hall : ack = t.sndNxt
      · rw [hall, beq_self_eq_true, Bool.toNat_true] at hn
        omega
      · have hpos : 0 < (t.sndNxt - ack).toNat := by bv_omega
        omega
  have hlen : u.sendRing.len = t.sendRing.len - n := by
    rw [hring]
    change t.sendRing.len - min n t.sendRing.len = _
    rw [Nat.min_eq_left hbuffered]
  have hacked : u.ackedBytes = t.ackedBytes + n := by
    rw [ackedBytes, ackedBytes, hlen, hacc]
    omega
  have hout : u.out = (t.sndNxt - ack).toNat := by rw [out, hnxt, hdata]
  have hfirsts : u.firsts = t.firsts := by rw [firsts, firsts, hsent]
  have htext : u.firstText = t.firstText := by rw [firstText, firstText, hfirsts]
  refine ⟨hb, ?_, fun hu => ?_, fun hu => ?_, ?_, fun hu => ?_, fun hu => ?_⟩
  · rw [hring, Ring.contents_consume, h.kept, hacc, hacked, List.drop_drop]
  · have hplace := h.place (hbegun ▸ hu)
    rw [hbefore, Bool.toNat_false, Nat.add_zero] at hplace
    have hstep : ack = t.dataUna + BitVec.ofNat 32 (n + (t.finSent && ack == t.sndNxt).toNat) := by
      have hlt := h.backlog.flight.out_lt
      have hsum : (t.sndNxt - t.dataUna).toNat =
          n + (t.finSent && ack == t.sndNxt).toNat + (t.sndNxt - ack).toNat := hn.symm
      rw [out] at hlt
      generalize n + (t.finSent && ack == t.sndNxt).toNat = m at hsum
      bv_omega
    rw [hdata, hiss, hacked, hafter, Nat.add_assoc, BitVec.ofNat_add, ← BitVec.add_assoc, ← hplace]
    exact hstep
  · have hbooks := h.span (hbegun ▸ hu)
    rw [hbefore, Bool.toNat_false] at hbooks
    rw [firstSpan, hfirsts, ← firstSpan, hbooks, hacked, hafter, hout]
    omega
  · rw [htext, hacc]
    exact h.text
  · rw [htext, h.length (hbegun ▸ hu), hacked, hout, hacc]
    have hsum : t.ackedBytes + t.sendRing.len = t.accepted.length := Nat.sub_add_cancel hle
    cases hf : (t.finSent && ack == t.sndNxt) with
    | false =>
      rw [hf, Bool.toNat_false] at hn
      rw [← hn, Nat.add_zero, Nat.add_assoc]
    | true =>
      rw [hf, Bool.toNat_true] at hn
      rw [Bool.and_eq_true] at hf
      have hexact := (h.backlog.fin hf.1).2.2
      have hwas : t.finOut = true := by simp [finOut, hf.1, houtstanding]
      rw [hwas, Bool.toNat_true] at hexact
      omega
  · have hover := h.spent (hbegun ▸ hu)
    omega

/-- The handshake is over: our SYN was all that was out. -/
lemma answered (h : Ledger t) (hb : Backlog u) (hstate : t.state = .synSent ∨ t.state = .synRcvd)
    (hring : u.sendRing = t.sendRing) (hacc : u.accepted = t.accepted) (hiss : u.iss = t.iss)
    (hnxt : u.sndNxt = t.sndNxt) (hfin : u.finSent = false) (hold : t.finSent = false)
    (hrtx : u.rtx = t.rtx) (hsent : u.sent = t.sent) (hu : u.begun = true) : Ledger u := by
  have hidle := (h.backlog.flight.dataUna_handshake hstate).1
  have hspan : (u.sndNxt - u.dataUna).toNat = (t.sndNxt - t.dataUna).toNat := by
    rw [hb.flight.queue.span_eq, h.backlog.queue.span_eq, hrtx]
  rw [hidle, BitVec.sub_self] at hspan
  refine h.of_same hb hring hacc hiss ?_ hnxt ?_ ?_ (hu.trans ?_)
  · rw [hidle, ← hnxt]
    bv_omega
  · rw [finDone, finDone, hfin, hold, Bool.false_and, Bool.false_and]
  · rw [firsts, hsent, firsts]
  · rcases hstate with hs | hs <;> rw [begun, hs] <;> rfl

lemma step (hbuf : P.BUF < 2 ^ 32) (t : Tcb P) (l : Option Segment) (t' : Tcb P) (hstep : Step t l t')
    (h : Ledger t) : Ledger t' := by
  have hb := Backlog.step hbuf t l t' hstep h.backlog
  have hsyn {u u' : Tcb P} {hd : Header} {pkt : List U8} {fl : Flags} {seq ack : U32} {opts : TcpOptions}
      {d : Option (U32 × U32)} (hctl : u.Control fl seq ack opts d) (hh : u.PeerHeader fl seq ack opts hd)
      (hsent : u'.sent = [u.emission hd [] pkt]) : u'.firsts = [] := by
    rw [firsts, hsent, List.filter_cons_of_neg (by simp [isFirst_control u (hh.fin.trans hctl.fin)]),
      List.filter_nil]
  cases hstep with
  | control hctl hh hpkt =>
    exact h.of_seq hb rfl rfl rfl (firsts_same rfl (isFirst_control t (hh.fin.trans hctl.fin) _)) rfl
  | stateless hh hpkt =>
    refine h.of_seq hb rfl rfl rfl (firsts_same rfl (isFirst_control t ?_ _)) rfl
    rcases hh with hrst | ⟨-, -, hfin, -⟩
    · rw [hrst]
    · exact hfin
  | @first len fin probe opts d hd pkt ring rto tlp now hnew hshort hopts hh hlen hpkt hrto htlp =>
    refine h.first hbuf hb hnew hshort rfl rfl rfl rfl ?_ rfl (firsts_append rfl ?_) rfl hlen hh.fin rfl
    · exact h.backlog.flight.una_ne_new hshort hnew.nonempty
    · simp only [Emission.isFirst, emission, hh.seq, hh.fin, beq_self_eq_true, Bool.true_and, Bool.or_eq_true,
        Bool.not_eq_true', List.isEmpty_eq_false_iff]
      refine hnew.nonempty.imp_left fun hpos => ?_
      rw [← List.length_pos_iff, hlen]
      exact hpos
  | @again i s len opts d hd pkt ring rto now hre hpart hshort hopts hh hlen hpkt hrto =>
    refine h.of_seq hb rfl rfl rfl (firsts_same rfl ?_) rfl
    have hmem := RtxQueue.mem_of_get hre.record
    have hin := h.backlog.queue.record_le hmem
    have hpos := (h.backlog.queue.ok s hmem).pos
    have hne : s.start ≠ t.sndNxt := by
      intro heq
      rw [heq] at hin
      omega
    simp only [Emission.isFirst, emission, hh.seq, beq_eq_false_iff_ne.mpr hne, Bool.false_and]
  | @acked seg q rto tlp hstate hlo hhi hne hseq hq hidle hout =>
    exact h.acked hb (h.backlog.acked_len hlo hhi hne) hne hlo hhi rfl rfl rfl rfl (BitVec.add_zero _) rfl
      rfl rfl rfl
  | finWait2 hstate => exact h.of_seq hb rfl rfl rfl rfl (by rw [begun, begun, hstate]; rfl)
  | timeWait hstate => exact h.of_seq hb rfl rfl rfl rfl (by rw [begun, begun, hstate]; rfl)
  | @segment seg hstate =>
    have hframe := receiveSegment_frame t seg
    refine h.of_seq hb (hframe.of fun t => t.sendRing) (hframe.of fun t => t.accepted)
      (hframe.of fun t => t.toSendSeq) (hframe.of fun t => t.firsts) ?_
    rw [begun_of_canRecv hstate]
    rcases receiveSegment_state t seg with hst | ⟨-, hst⟩
    · rw [begun, hst]
      exact begun_of_canRecv hstate
    · exact begun_of_synchronized (by rw [hst]; exact finNext_isSynchronized (isSynchronized_of_canRecv hstate))
  | @accept bytes ring hstate hring =>
    refine h.accept hb rfl hring rfl rfl rfl rfl fun hne => ⟨begun_of_canSend (hstate hne), ?_⟩
    exact h.backlog.finSent_of_canSend (hstate hne)
  | @close s hstate =>
    refine h.of_seq hb rfl rfl rfl rfl ?_
    rcases hstate with ⟨hs | hs, rfl⟩ | ⟨hs, rfl⟩ <;> rw [begun, begun, hs] <;> rfl
  | abort => exact h.of_over hb rfl (out_of_idle (BitVec.add_zero _)) rfl rfl rfl
  | closeClean => exact h.of_over hb rfl (out_of_idle (BitVec.add_zero _)) rfl rfl rfl
  | timeWaitOver hdue =>
    -- Everything, the FIN included, was acknowledged before.
    obtain ⟨hfin, heq⟩ := h.backlog.done (.inr (h.backlog.flight.timeWait hdue))
    have hacked : t.finOut = false := by simp [finOut, heq]
    have hout := h.backlog.out_of_acked hfin hacked
    have hexact := (h.backlog.fin hfin).2.2
    rw [hout, hacked, Bool.toNat_false] at hexact
    exact h.of_over hb hexact.symm hout rfl rfl rfl
  | @reset s localEp remoteEp iss mtu hstate hmtu =>
    refine of_idle hb rfl rfl rfl (BitVec.add_zero _) (fun hbegun => ?_) rfl
    rcases hstate with rfl | rfl <;> cases hbegun
  | connected hstate _ hctl hh => exact of_idle hb rfl rfl rfl rfl (fun _ => rfl) (hsyn hctl hh rfl)
  | halfOpened hstate _ _ _ _ _ hctl hh =>
    exact of_idle hb rfl rfl rfl rfl (fun _ => rfl) (hsyn hctl hh rfl)
  | activeOpened hstate =>
    have hfin := h.backlog.finSent_of_open hstate rfl
    exact h.answered hb (.inl hstate) rfl rfl rfl rfl hfin hfin rfl rfl rfl
  | simultaneous hstate => exact h.of_seq hb rfl rfl rfl rfl (by rw [begun, begun, hstate]; rfl)
  | passiveOpened hstate =>
    have hfin := h.backlog.finSent_of_open hstate rfl
    exact h.answered hb (.inr hstate) rfl rfl rfl rfl hfin hfin rfl rfl rfl
  | @cookieOpened seg =>
    refine of_idle hb rfl rfl rfl (BitVec.add_zero _) (fun _ => ?_) rfl
    change seg.ack + 0 = seg.ack - 1 + 1
    bv_omega
  | _ => exact h.of_seq hb rfl rfl rfl rfl rfl

lemma stable (hbuf : P.BUF < 2 ^ 32) : Stable (Ledger (P := P)) where
  core t := by
    constructor
    · intro h
      exact ⟨((Backlog.stable hbuf).core t).mp h.backlog, h.kept, h.place, h.span, h.text, h.length, h.spent⟩
    · intro h
      exact ⟨((Backlog.stable hbuf).core t).mpr h.backlog, h.kept, h.place, h.span, h.text, h.length, h.spent⟩
  step := step hbuf

end Ledger

/-! ## What was staged -/

/-- A segment of `len` bytes from `seq`, inside what is buffered. -/
lemma Ledger.inStream {t : Tcb P} (h : Ledger t) (hbegun : t.begun = true) (hdone : t.finDone = false)
    {hd : Header} {seq len : U32} (hseq : hd.seq = seq) {pkt : List U8}
    (hlen : (t.bytesAt seq len).length = len.toNat)
    (hfin : hd.flags.fin = true → (seq - t.dataUna).toNat + len.toNat = t.sendRing.len) :
    (t.emission hd (t.bytesAt seq len) pkt).InStream t.iss t.accepted := by
  have hoff : (t.emission hd (t.bytesAt seq len) pkt).offset = t.ackedBytes + (seq - t.dataUna).toNat := by
    rw [← hseq]
    rfl
  refine ⟨?_, ?_, fun hf => ?_⟩
  · have hplace := h.place hbegun
    rw [hdone, Bool.toNat_false, Nat.add_zero] at hplace
    rw [hoff, BitVec.ofNat_add, ← BitVec.add_assoc, ← hplace, BitVec.ofNat_toNat, BitVec.setWidth_eq]
    change hd.seq = _
    rw [hseq]
    bv_omega
  · rw [hoff]
    change t.bytesAt seq len <+: _
    rw [h.bytesAt_eq]
    exact List.take_prefix _ _
  · have hsum : t.ackedBytes + t.sendRing.len = t.accepted.length := Nat.sub_add_cancel h.len_le
    have hend := hfin hf
    rw [hoff]
    change _ + (t.bytesAt seq len).length = t.accepted.length
    rw [hlen]
    omega

/-- Every data segment carries the stream at its place; our FIN is sent after the application closed. -/
lemma Emits.inStream (hbuf : P.BUF < 2 ^ 32) {t : Tcb P} {e : Emission P} (h : Ledger t) (he : Emits t e)
    (hdata : e.payload ≠ [] ∨ e.header.flags.fin = true) :
    e.iss = t.iss ∧ e.accepted = t.accepted ∧ e.InStream t.iss t.accepted ∧
      (e.header.flags.fin = true → e.state = t.state ∧ t.begun = true ∧ finStates t.state = true) := by
  have hcontrol {u : Tcb P} {hd : Header} {pkt : List U8} {p : Prop}
      (hdata : (u.emission hd [] pkt).payload ≠ [] ∨ (u.emission hd [] pkt).header.flags.fin = true)
      (hfin : hd.flags.fin = false) : p := by
    rcases hdata with hne | htrue
    · exact absurd rfl hne
    · cases hfin.symm.trans htrue
  cases he with
  | control hctl hh hpkt => exact hcontrol hdata (hh.fin.trans hctl.fin)
  | stateless hh hpkt =>
    refine hcontrol hdata ?_
    rcases hh with hrst | ⟨-, -, hfin, -⟩
    · rw [hrst]
    · exact hfin
  | @first len fin probe opts d hd pkt ring hnew hopts hh hlen hpkt =>
    have hunsent := h.backlog.finSent_of_new hnew
    have hlast := hnew.last
    have hbegun := h.begun_of_new hnew
    refine ⟨rfl, rfl, ?_, fun hfin => ⟨rfl, hbegun, ?_⟩⟩
    · refine h.inStream hbegun (by simp [finDone, hunsent]) hh.seq hlen fun hfin => ?_
      rw [show fin = true from hh.fin.symm.trans hfin, Bool.true_eq, Bool.and_eq_true, beq_iff_eq] at hlast
      have hold := h.backlog.out_le hunsent
      rw [hlast.2, Backlog.toNat_unsent hbuf hunsent, ← out]
      omega
    · have hfin : fin = true := hh.fin.symm.trans hfin
      rw [hfin, Bool.true_eq, Bool.and_eq_true] at hlast
      have howed := hlast.1
      revert howed
      simp only [finOwed]
      cases t.state <;> simp [finStates]
  | @again i s len opts d hd pkt ring hre hpart hopts hh hlen hpkt =>
    have hmem := RtxQueue.mem_of_get hre.record
    have hout := h.backlog.out_pos hmem
    have hne := h.backlog.una_ne_of_out hout
    have hbegun : t.begun = true := by
      by_contra hover
      have hidle := (h.spent (by simpa using hover)).2
      omega
    have hlast (hfin : hd.flags.fin = true) : s.flags.fin = true ∧ len = s.payloadLen := by
      have hflag := hh.fin.symm.trans hfin
      rw [Bool.and_eq_true, beq_iff_eq] at hflag
      exact hflag
    refine ⟨rfl, rfl, ?_, fun hfin => ⟨rfl, hbegun, ?_⟩⟩
    · refine h.inStream hbegun (by simp [finDone, hne]) hh.seq hlen fun hfin => ?_
      rw [(hlast hfin).2]
      exact (h.backlog.record_fin hmem (hlast hfin).1).2
    · exact (h.backlog.fin (h.backlog.record_fin hmem (hlast hfin).1).1).2.1
  | syn hstate hsyn hctl hh hpkt => exact hcontrol hdata (hh.fin.trans hctl.fin)
  | synack hstate hsyn hctl hh hpkt => exact hcontrol hdata (hh.fin.trans hctl.fin)

/-- Every data segment that was staged carries the stream at its place, and after our FIN the stream does
not grow. -/
structure Outgoing (t : Tcb P) : Prop where
  ledger : Ledger t
  data : ∀ e ∈ t.sent, e.payload ≠ [] ∨ e.header.flags.fin = true → e.InStream t.iss t.accepted
  fin : ∀ e ∈ t.sent, e.header.flags.fin = true → finStates t.state = true

namespace Outgoing

variable {t u : Tcb P}

lemma of_same (h : Outgoing t) (hl : Ledger u) (hsent : u.sent = t.sent) (hiss : u.iss = t.iss)
    (hacc : u.accepted = t.accepted)
    (hstate : finStates t.state = true → finStates u.state = true) : Outgoing u := by
  refine ⟨hl, ?_, fun e he hfin => hstate (h.fin e (hsent ▸ he) hfin)⟩
  rw [hsent, hiss, hacc]
  exact h.data

lemma of_emit (hbuf : P.BUF < 2 ^ 32) {e : Emission P} (h : Outgoing t) (hl : Ledger u) (he : Emits t e)
    (hsent : u.sent = t.sent ++ [e]) (hiss : u.iss = t.iss) (hacc : u.accepted = t.accepted)
    (hstate : u.state = t.state) : Outgoing u := by
  have hcases : ∀ x ∈ u.sent, x ∈ t.sent ∨ x = e := by
    intro x hx
    rw [hsent, List.mem_append, List.mem_singleton] at hx
    exact hx
  refine ⟨hl, fun x hx hdata => ?_, fun x hx hfin => ?_⟩
  · rw [hiss, hacc]
    rcases hcases x hx with hold | rfl
    · exact h.data x hold hdata
    · exact (he.inStream hbuf h.ledger hdata).2.2.1
  · rw [hstate]
    rcases hcases x hx with hold | rfl
    · exact h.fin x hold hfin
    · exact ((he.inStream hbuf h.ledger (.inr hfin)).2.2.2 hfin).2.2

/-- The application hands over more. -/
lemma accept {bytes : List U8} (h : Outgoing t) (hl : Ledger u) (hsent : u.sent = t.sent)
    (hiss : u.iss = t.iss) (hacc : u.accepted = t.accepted ++ bytes) (hstate : u.state = t.state)
    (hopen : bytes ≠ [] → finStates t.state = false) : Outgoing u := by
  refine ⟨hl, fun e he hdata => ?_, fun e he hfin => ?_⟩
  · have hold := h.data e (hsent ▸ he) hdata
    rw [hiss]
    refine ⟨hold.place, ?_, fun hfin => ?_⟩
    · rw [hacc]
      exact hold.text.trans ((List.prefix_append _ _).drop _)
    · have hnil : bytes = [] := by
        by_contra hne
        cases (hopen hne).symm.trans (h.fin e (hsent ▸ he) hfin)
      rw [hacc, hnil, List.append_nil]
      exact hold.fin hfin
  · rw [hstate]
    exact h.fin e (hsent ▸ he) hfin

/-- A connection that has staged nothing, or only its SYN. -/
lemma of_new (hl : Ledger u) (h : ∀ e ∈ u.sent, e.payload = [] ∧ e.header.flags.fin = false) :
    Outgoing u := by
  refine ⟨hl, fun e he hdata => ?_, fun e he hfin => ?_⟩
  · obtain ⟨hnil, hfin⟩ := h e he
    rcases hdata with hne | htrue
    · exact absurd hnil hne
    · cases hfin.symm.trans htrue
  · cases (h e he).2.symm.trans hfin

lemma step (hbuf : P.BUF < 2 ^ 32) (t : Tcb P) (l : Option Segment) (t' : Tcb P) (hstep : Step t l t')
    (h : Outgoing t) : Outgoing t' := by
  have hl := Ledger.step hbuf t l t' hstep h.ledger
  have hsyn {u u' : Tcb P} {hd : Header} {pkt : List U8} {fl : Flags} {seq ack : U32} {opts : TcpOptions}
      {d : Option (U32 × U32)} (hctl : u.Control fl seq ack opts d) (hh : u.PeerHeader fl seq ack opts hd)
      (hsent : u'.sent = [u.emission hd [] pkt]) (hl : Ledger u') : Outgoing u' := by
    refine of_new hl fun e he => ?_
    rw [hsent, List.mem_singleton] at he
    rw [he]
    exact ⟨rfl, hh.fin.trans hctl.fin⟩
  have hnew {u : Tcb P} (hsent : u.sent = []) (hl : Ledger u) : Outgoing u := by
    refine of_new hl fun e he => ?_
    rw [hsent] at he
    cases he
  cases hstep with
  | control hctl hh hpkt => exact h.of_emit hbuf hl (.control hctl hh hpkt) rfl rfl rfl rfl
  | stateless hh hpkt => exact h.of_emit hbuf hl (.stateless hh hpkt) rfl rfl rfl rfl
  | first now hok hshort hopts hh hlen hpkt =>
    exact h.of_emit hbuf hl (.first hok hopts hh hlen hpkt) rfl rfl rfl rfl
  | again now hre hpart hshort hopts hh hlen hpkt =>
    exact h.of_emit hbuf hl (.again hre hpart hopts hh hlen hpkt) rfl rfl rfl rfl
  | finWait2 => exact h.of_same hl rfl rfl rfl fun _ => rfl
  | timeWait => exact h.of_same hl rfl rfl rfl fun _ => rfl
  | @segment seg hstate =>
    have hframe := receiveSegment_frame t seg
    refine h.of_same hl (hframe.of fun t => t.sent) (hframe.of fun t => t.iss)
      (hframe.of fun t => t.accepted) fun hclosing => ?_
    rcases receiveSegment_state t seg with hst | ⟨-, hst⟩
    · rw [hst]
      exact hclosing
    · rw [hst]
      exact Backlog.finStates_finNext hstate hclosing
  | @accept bytes ring hstate hring =>
    refine h.accept hl rfl rfl rfl rfl fun hne => ?_
    have hsend := hstate hne
    revert hsend
    cases t.state <;> simp [finStates, State.canSend]
  | @close s hstate =>
    refine h.of_same hl rfl rfl rfl fun _ => ?_
    rcases hstate with ⟨-, rfl⟩ | ⟨-, rfl⟩ <;> rfl
  | abort => exact h.of_same hl rfl rfl rfl fun _ => rfl
  | closeClean => exact h.of_same hl rfl rfl rfl fun _ => rfl
  | timeWaitOver => exact h.of_same hl rfl rfl rfl fun _ => rfl
  | reset => exact hnew rfl hl
  | connected hstate _ hctl hh => exact hsyn hctl hh rfl hl
  | halfOpened hstate _ _ _ _ _ hctl hh => exact hsyn hctl hh rfl hl
  | activeOpened hstate =>
    refine h.of_same hl rfl rfl rfl fun hclosing => ?_
    rw [hstate] at hclosing
    cases hclosing
  | simultaneous hstate =>
    refine h.of_same hl rfl rfl rfl fun hclosing => ?_
    rw [hstate] at hclosing
    cases hclosing
  | passiveOpened hstate =>
    refine h.of_same hl rfl rfl rfl fun hclosing => ?_
    rw [hstate] at hclosing
    cases hclosing
  | cookieOpened => exact hnew rfl hl
  | _ => exact h.of_same hl rfl rfl rfl id

lemma stable (hbuf : P.BUF < 2 ^ 32) : Stable (Outgoing (P := P)) where
  core t := by
    constructor
    · intro h
      exact ⟨((Ledger.stable hbuf).core t).mp h.ledger, h.data, h.fin⟩
    · intro h
      exact ⟨((Ledger.stable hbuf).core t).mpr h.ledger, h.data, h.fin⟩
  step := step hbuf

end Outgoing

end Tcb

open Tcb

lemma Reachable.ledger (hbuf : P.BUF < 2 ^ 32) {t : Tcb P} (ht : Reachable t) : Ledger t :=
  ht.stable (Ledger.stable hbuf) fun cfg =>
    Ledger.of_idle ((Reachable.new cfg).backlog hbuf) rfl rfl rfl (BitVec.add_zero _) nofun rfl

lemma Reachable.outgoing (hbuf : P.BUF < 2 ^ 32) {t : Tcb P} (ht : Reachable t) : Outgoing t :=
  ht.stable (Outgoing.stable hbuf) fun cfg => Outgoing.of_new ((Reachable.new cfg).ledger hbuf) (new_sent cfg)

/-- What is in the send ring follows what was acknowledged; the first transmissions carry the stream from its
start, each sequence number once; and every data segment, first or again, carries the stream at its place,
with the FIN at the end. -/
theorem segments_carry_stream (hbuf : P.BUF < 2 ^ 32) {t : Tcb P} (ht : Reachable t) :
    t.sendRing.contents = t.accepted.drop t.ackedBytes ∧ t.firstText <+: t.accepted ∧
      (t.begun = true → t.firstSpan = t.ackedBytes + t.finDone.toNat + t.out) ∧
      ∀ e ∈ t.sent, e.payload ≠ [] ∨ e.header.flags.fin = true → e.InStream t.iss t.accepted := by
  have hledger := ht.ledger hbuf
  exact ⟨hledger.kept, hledger.text, hledger.span, (ht.outgoing hbuf).data⟩

/-- The tiny client has sent three bytes and its FIN, and all of it again. -/
def tinySent : Tcb tiny :=
  runAll [.send [1, 2, 3], .close, .tick, .extractPacketWith, .setNow 5000, .tick] tinyOpen

theorem tinySent_carries_stream :
    (tinySent.sent.map fun e => (e.payload, e.header.flags.fin)) =
        [([], false), ([], false), ([1, 2, 3], true), ([1, 2, 3], true)] ∧
      ∀ e ∈ tinySent.sent, e.payload ≠ [] → e.InStream 100 [1, 2, 3] := by
  refine ⟨by decide +kernel, fun e he hne => ?_⟩
  have hreach : Reachable tinySent := reachable_tinyOpen.runAll (by decide +kernel)
  have hin := (segments_carry_stream (by decide) hreach).2.2.2 e he (.inl hne)
  rwa [show tinySent.iss = 100 by decide +kernel, show tinySent.accepted = [1, 2, 3] by decide +kernel] at hin

end TcpSansIo
