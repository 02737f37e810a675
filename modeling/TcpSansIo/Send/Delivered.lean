import TcpSansIo.Send.AckLedger

/-!
# Delivered bytes are counted once

Congestion control is told with every ACK how many bytes it delivered.  With SACK these are exactly the
sequence numbers the ACK covers anew: those acknowledged or SACKed after it, and neither before it.

Every ACK leaves a record of what congestion control was told and what it made of that (`AckRecord.told`).
`AckRecord.credited` names the bytes, as offsets into the stream, and `tally` adds up a history.  As long as
no timeout forgets what was SACKed, what was credited is what is covered (`Balanced`), so nothing is
credited twice: `delivered_once`.
-/

namespace TcpSansIo

open Proc FixedWidth

variable {P : Params}

/-! ## Flags as sets of offsets -/

/-- The offsets of the flags that are set. -/
def flagged (m : List Bool) : Finset ℕ := (Finset.range m.length).filter fun i => m.getD i false = true

@[simp] lemma mem_flagged {m : List Bool} {i : ℕ} : i ∈ flagged m ↔ m.getD i false = true := by
  simp only [flagged, Finset.mem_filter, Finset.mem_range, and_iff_right_iff_imp]
  intro h
  by_contra hge
  rw [List.getD_eq_default _ _ (Nat.le_of_not_lt hge)] at h
  cases h

lemma getD_append_true {m n : List Bool} {i : ℕ} : (m ++ n).getD i false = true ↔
    m.getD i false = true ∨ m.length ≤ i ∧ n.getD (i - m.length) false = true := by
  rcases Nat.lt_or_ge i m.length with hi | hi
  · rw [List.getD_append _ _ _ _ hi]
    simp [Nat.not_le.mpr hi]
  · rw [List.getD_append_right _ _ _ _ hi, List.getD_eq_default m _ hi]
    simp [hi]

lemma getD_replicate_true {k i : ℕ} : (List.replicate k true).getD i false = true ↔ i < k := by
  rcases Nat.lt_or_ge i k with hi | hi
  · rw [List.getD_replicate _ hi]
    simp [hi]
  · rw [List.getD_eq_default _ _ (by rwa [List.length_replicate])]
    simp [Nat.not_lt.mpr hi]

lemma card_flagged (m : List Bool) : (flagged m).card = m.count true := by
  induction m using List.reverseRecOn with
  | nil => rfl
  | append_singleton m b ih =>
    cases b with
    | false =>
      have hsame : flagged (m ++ [false]) = flagged m := by
        ext i
        rw [mem_flagged, mem_flagged, getD_append_true, or_iff_left]
        rintro ⟨-, h⟩
        cases i - m.length <;> simp at h
      rw [hsame, ih, List.count_append]
      simp
    | true =>
      have hmore : flagged (m ++ [true]) = insert m.length (flagged m) := by
        ext i
        rw [mem_flagged, getD_append_true, Finset.mem_insert, mem_flagged, or_comm]
        refine or_congr_left ⟨fun h => ?_, fun h => ?_⟩
        · rcases Nat.eq_zero_or_pos (i - m.length) with hz | hpos
          · omega
          · rw [List.getD_eq_default _ _ (by rw [List.length_singleton]; exact hpos)] at h
            cases h.2
        · rw [h, Nat.sub_self]
          exact ⟨le_refl _, rfl⟩
      have hnew : m.length ∉ flagged m := by
        rw [mem_flagged, List.getD_eq_default _ _ (le_refl _)]
        nofun
      rw [hmore, Finset.card_insert_of_notMem hnew, ih, List.count_append]
      rfl

/-- Flags of which the first `a` are set. -/
lemma mem_flagged_replicate {a i : ℕ} {m : List Bool} :
    i ∈ flagged (List.replicate a true ++ m) ↔ i < a ∨ a ≤ i ∧ m.getD (i - a) false = true := by
  rw [mem_flagged, getD_append_true, getD_replicate_true, List.length_replicate]

/-- Flags that are not set make no difference. -/
lemma flagged_append_false (m : List Bool) (n : ℕ) : flagged (m ++ List.replicate n false) = flagged m := by
  ext i
  rw [mem_flagged, mem_flagged, getD_append_true, or_iff_left]
  rintro ⟨-, h⟩
  rcases Nat.lt_or_ge (i - m.length) n with hi | hi
  · rw [List.getD_replicate _ hi] at h
    cases h
  · rw [List.getD_eq_default _ _ (by rwa [List.length_replicate])] at h
    cases h

/-! ## Totals -/

/-- How many sequence numbers beyond our SYN an ACK acknowledges. -/
def AckRecord.acknowledged (r : AckRecord) : ℕ := (r.after.dataUna - r.before.dataUna).toNat

/-- The offsets, from the first byte in flight before the ACK, of what the ACK covers anew: acknowledged
or SACKed after it, and not SACKed before it. -/
def AckRecord.anew (r : AckRecord) : Finset ℕ :=
  flagged (List.replicate r.acknowledged true ++ arrived r.after.records) \ flagged (arrived r.before.records)

/-- The same as offsets into the stream, of which `base` sequence numbers were acknowledged before. -/
def AckRecord.credited (r : AckRecord) (base : ℕ) : Finset ℕ := r.anew.map (addLeftEmbedding base)

/-- What a history adds up to: the sequence numbers acknowledged, the bytes reported as delivered, and
the offsets credited. -/
structure Tally where
  acked : ℕ
  total : ℕ
  credited : Finset ℕ

namespace Tally

def note (y : Tally) : LossEvent → Tally
  | .acked r => ⟨y.acked + r.acknowledged, y.total + r.delivered.toNat, y.credited ∪ r.credited y.acked⟩
  | .forgot => y

end Tally

def tally (h : List LossEvent) : Tally := h.foldl Tally.note ⟨0, 0, ∅⟩

@[simp] lemma tally_concat (h : List LossEvent) (e : LossEvent) : tally (h ++ [e]) = (tally h).note e := by
  simp [tally]

/-- What is true of an ACK that follows the history `l`: congestion control was told the bytes it
delivered and nothing else, and these are what it covers anew. -/
structure Counted (l : List LossEvent) (r : AckRecord) : Prop where
  told : r.left = r.told
  delivered : (r.delivered.toNat : ℤ) =
    r.acknowledged + ((r.after.sacked.toNat : ℤ) - r.before.sacked.toNat)
  card : (r.credited (tally l).acked).card = r.delivered.toNat
  once : .forgot ∉ l → Disjoint (tally l).credited (r.credited (tally l).acked)
  total : .forgot ∉ l →
    (tally (l ++ [.acked r])).total = (tally (l ++ [.acked r])).acked + r.after.sacked.toNat

namespace Tcb

/-- What was credited is what is covered. -/
structure Balanced (t : Tcb P) : Prop where
  reno : t.renoSacked = 0
  credited : .forgot ∉ t.history →
    (tally t.history).credited = flagged (List.replicate (tally t.history).acked true ++ t.line)
  total : .forgot ∉ t.history → (tally t.history).total = (tally t.history).acked + t.line.count true

section

variable {t t' : Tcb P} {r : AckRecord}

/-- What was SACKed before an ACK is covered after it. -/
lemma Reacted.covers (h : Reacted t t' r) {j : ℕ} (hj : t.line.getD j false = true) :
    j < (t'.dataUna - t.dataUna).toNat ∨ (t'.dataUna - t.dataUna).toNat ≤ j ∧
      t'.line.getD (j - (t'.dataUna - t.dataUna).toNat) false = true := by
  obtain ⟨l, hgrows, hline⟩ := h.line
  rcases Nat.lt_or_ge j (t'.dataUna - t.dataUna).toNat with hlt | hge
  · exact .inl hlt
  · refine .inr ⟨hge, ?_⟩
    have hset := hgrows.getD hj
    rw [hline, List.getD_eq_getElem?_getD, List.getElem?_drop, Nat.add_sub_cancel' hge,
      ← List.getD_eq_getElem?_getD]
    exact hset

lemma Reacted.acknowledged_eq (h : Reacted t t' r) : r.acknowledged = (t'.dataUna - t.dataUna).toNat := by
  rw [AckRecord.acknowledged, h.before, h.after]
  rfl

lemma Reacted.anew_eq (h : Reacted t t' r) :
    r.anew = flagged (List.replicate r.acknowledged true ++ t'.line) \ flagged t.line := by
  rw [AckRecord.anew, h.before, h.after]
  rfl

lemma Reacted.mem_credited (h : Reacted t t' r) {base i : ℕ} : i ∈ r.credited base ↔
    base ≤ i ∧ i - base ∈ flagged (List.replicate r.acknowledged true ++ t'.line) ∧
      i - base ∉ flagged t.line := by
  rw [AckRecord.credited, h.anew_eq, Finset.mem_map]
  constructor
  · rintro ⟨j, hj, rfl⟩
    rw [addLeftEmbedding_apply, Nat.add_sub_cancel_left]
    exact ⟨Nat.le_add_right _ _, Finset.mem_sdiff.mp hj⟩
  · rintro ⟨hle, hin, hnew⟩
    exact ⟨i - base, Finset.mem_sdiff.mpr ⟨hin, hnew⟩, Nat.add_sub_cancel' hle⟩

/-- As many sequence numbers are covered anew as are reported as delivered. -/
lemma Reacted.card_anew (h : Reacted t t' r) (hon : t.sackEnabled = true) (hzero : t.renoSacked = 0) :
    r.anew.card = r.delivered.toNat := by
  have hsub : flagged t.line ⊆ flagged (List.replicate r.acknowledged true ++ t'.line) := by
    intro j hj
    rw [mem_flagged] at hj
    rw [mem_flagged_replicate, h.acknowledged_eq]
    exact h.covers hj
  have hcount := (h.delivered hon hzero).2
  rw [h.anew_eq, Finset.card_sdiff_of_subset hsub, card_flagged, card_flagged, List.count_append,
    List.count_replicate_self, h.acknowledged_eq]
  omega

/-- What is covered after an ACK is what was covered before it and what it covers anew. -/
lemma Reacted.union_credited (h : Reacted t t' r) (base : ℕ) :
    flagged (List.replicate base true ++ t.line) ∪ r.credited base =
      flagged (List.replicate (base + r.acknowledged) true ++ t'.line) := by
  ext i
  rw [Finset.mem_union, h.mem_credited, mem_flagged_replicate, mem_flagged_replicate, mem_flagged_replicate,
    mem_flagged]
  have hcovers := h.covers (j := i - base)
  rw [← h.acknowledged_eq] at hcovers
  rw [Nat.sub_sub] at hcovers ⊢
  constructor
  · rintro ((hlt | ⟨hle, hset⟩) | ⟨hle, hin, -⟩)
    · exact .inl (by omega)
    · exact (hcovers hset).imp (fun _ => by omega) fun hc => ⟨by omega, hc.2⟩
    · exact hin.imp (fun _ => by omega) fun hc => ⟨by omega, hc.2⟩
  · intro hin
    by_cases hlt : i < base
    · exact .inl (.inl hlt)
    by_cases hset : t.line.getD (i - base) false = true
    · exact .inl (.inr ⟨by omega, hset⟩)
    · exact .inr ⟨by omega, hin.imp (fun _ => by omega) fun hc => ⟨by omega, hc.2⟩, hset⟩

lemma Reacted.disjoint_credited (h : Reacted t t' r) (base : ℕ) :
    Disjoint (flagged (List.replicate base true ++ t.line)) (r.credited base) := by
  rw [Finset.disjoint_left]
  intro i hold hnew
  rw [h.mem_credited] at hnew
  rw [mem_flagged_replicate] at hold
  rcases hold with hlt | ⟨-, hset⟩
  · omega
  · exact hnew.2.2 (mem_flagged.mpr hset)

/-- The counter of the queue is the number of flags that are set. -/
lemma Reacted.sacked_eq (h : Reacted t t' r) (hf : Flight t) :
    r.before.sacked.toNat = t.line.count true ∧ r.after.sacked.toNat = t'.line.count true := by
  rw [h.before, h.after]
  exact ⟨hf.queue.board.sacked_eq, h.queue.board.sacked_eq⟩

/-- An ACK is counted, and leaves the books balanced. -/
lemma Balanced.reacts (hb : Balanced t) (hf : Flight t) (h : Reacted t t' r) (hon : t.sackEnabled = true) :
    Counted t.history r ∧ Balanced t' := by
  obtain ⟨hbefore, hafter⟩ := h.sacked_eq hf
  obtain ⟨hreno, hcount⟩ := h.delivered hon hb.reno
  rw [← h.acknowledged_eq] at hcount
  have hkept (hno : .forgot ∉ t'.history) : .forgot ∉ t.history := by
    rw [h.history, List.mem_append, not_or] at hno
    exact hno.1
  have htotal (hno : .forgot ∉ t.history) : (tally (t.history ++ [.acked r])).total =
      (tally (t.history ++ [.acked r])).acked + t'.line.count true := by
    have hsum := hb.total hno
    rw [tally_concat]
    change (tally t.history).total + r.delivered.toNat =
      (tally t.history).acked + r.acknowledged + t'.line.count true
    omega
  refine ⟨⟨h.told, ?_, ?_, fun hno => ?_, fun hno => ?_⟩, ⟨hreno, fun hno => ?_, fun hno => ?_⟩⟩
  · rw [hbefore, hafter]
    omega
  · rw [AckRecord.credited, Finset.card_map]
    exact h.card_anew hon hb.reno
  · rw [hb.credited hno]
    exact h.disjoint_credited _
  · rw [htotal hno, hafter]
  · rw [h.history, tally_concat]
    change (tally t.history).credited ∪ r.credited (tally t.history).acked = _
    rw [hb.credited (hkept hno)]
    exact h.union_credited _
  · rw [h.history]
    exact htotal (hkept hno)

lemma Balanced.carries (hb : Balanced t) (h : Carries t t') : Balanced t' := by
  obtain ⟨k, hk⟩ := h.history
  obtain ⟨n, -, -, hline⟩ := h.sent
  have hsame (hno : .forgot ∉ t'.history) : t'.history = t.history := by
    rw [hk, List.mem_append, not_or, List.mem_replicate, not_and] at hno
    have hzero : k = 0 := by
      by_contra hne
      exact hno.2 hne rfl
    rw [hk, hzero]
    exact List.append_nil _
  refine ⟨h.reno hb.reno, fun hno => ?_, fun hno => ?_⟩
  · have hhist := hsame hno
    rw [hline hhist, ← List.append_assoc, flagged_append_false, hhist]
    exact hb.credited (hhist ▸ hno)
  · have hhist := hsame hno
    rw [hline hhist, List.count_append, List.count_replicate, hhist]
    exact hb.total (hhist ▸ hno)

lemma Balanced.fresh (h : Fresh t) : Balanced t := by
  have hnil (hno : .forgot ∉ t.history) : t.history = [] := by
    refine List.eq_nil_iff_forall_not_mem.mpr fun e he => ?_
    cases e with
    | acked r => exact h.unacked r he
    | forgot => exact hno he
  refine ⟨h.reno, fun hno => ?_, fun hno => ?_⟩
  · have hnone := h.unsacked (hnil hno)
    rw [hnil hno]
    refine (Finset.eq_empty_of_forall_notMem fun i hi => hnone ?_).symm
    rw [mem_flagged] at hi
    change t.line.getD i false = true at hi
    rcases Nat.lt_or_ge i t.line.length with hlt | hge
    · rw [List.getD_eq_getElem _ _ hlt] at hi
      rw [← hi]
      exact List.getElem_mem hlt
    · rw [List.getD_eq_default _ _ hge] at hi
      cases hi
  · rw [hnil hno, List.count_eq_zero_of_not_mem (h.unsacked (hnil hno))]
    rfl

end

lemma delivered_accounts : Accounts (P := P)
    (fun on h => on = true → ∀ l r, l ++ [.acked r] <+: h → Counted l r)
    (fun t => t.sackEnabled = true → Balanced t) where
  start _ h hno _ l r hl := absurd (hl.subset (by simp)) (hno r)
  forgets on h hc hon l r hl := by
    rcases List.prefix_concat_iff.mp hl with heq | hpre
    · cases (List.append_inj' heq rfl).2
    · exact hc hon l r hpre
  fresh t ht _ := .fresh ht
  carries t t' hc hb hon := (hb (hc.sack.symm.trans hon)).carries hc
  reacts t t' r hf hr hc hb := by
    rw [hr.sack]
    refine ⟨fun hon l r' hl => ?_, fun hon => ((hb hon).reacts hf hr hon).2⟩
    rw [hr.history] at hl
    rcases List.prefix_concat_iff.mp hl with heq | hpre
    · obtain ⟨rfl, htail⟩ := List.append_inj' heq rfl
      cases htail
      exact ((hb hon).reacts hf hr hon).1
    · exact hc hon l r' hpre

end Tcb

open Tcb

/-- On a connection with SACK, every ACK updates congestion control with the bytes it acknowledges and
SACKs anew, nothing is credited twice, and the total is what is acknowledged and SACKed, until a timeout
forgets SACKs. -/
theorem delivered_once {t : Tcb P} (h : Reachable t) (hsack : t.sackEnabled = true) :
    (∀ l r, l ++ [.acked r] <+: t.history → Counted l r) ∧
      (t.state ≠ .closed → .forgot ∉ t.history →
        (tally t.history).total = (tally t.history).acked + t.rtx.sacked.toNat) := by
  have hbooked := delivered_accounts.reachable h
  refine ⟨hbooked.past hsack, fun hopen hno => ?_⟩
  rw [(hbooked.link hopen hsack).total hno, h.flight.queue.board.sacked_eq]
  rfl

/-- A client with SACK that has six bytes in flight, of which the last three are SACKed and then
acknowledged with the rest. -/
def tinySacked : Tcb tiny := runAll
  [.connect, .extractPacketWith,
    .injectPacket (datagram { peerSynAck with options := { TcpOptions.NONE with sackPermitted := true } } []),
    .extractPacketWith, .send [1, 2, 3], .tick, .extractPacketWith, .send [4, 5, 6], .tick,
    .extractPacketWith,
    .injectPacket (datagram { peerAck with
      options := { TcpOptions.NONE with sack := SackBlocks.EMPTY.push 104 107 } } []),
    .injectPacket (datagram { peerAck with ack := 107 } [])]
  tinyClient

theorem tiny_delivered_once :
    tinySacked.history.length = 2 ∧ (∀ l r, l ++ [.acked r] <+: tinySacked.history → Counted l r) ∧
      (tally tinySacked.history).total =
        (tally tinySacked.history).acked + tinySacked.rtx.sacked.toNat := by
  have hreach : Reachable tinySacked := (Reachable.new _).runAll (by decide +kernel)
  obtain ⟨hcounted, htotal⟩ := delivered_once hreach (by decide +kernel)
  exact ⟨by decide +kernel, hcounted, htotal (by decide +kernel) (by decide +kernel)⟩

end TcpSansIo
