import TcpSansIo.Tcb.Footprint
import TcpSansIo.Wire.Emission

/-!
# What output stages

Every emission ends in `stage`, which appends at most one datagram to the egress ring.  `Stages n`
counts the datagrams a function can append; `stage_cases` says which datagram it is.
-/

namespace TcpSansIo

open Proc FixedWidth

variable {P : Params}

/-- At most `n` datagrams were appended to the egress ring, and nothing else happened to it. -/
def Stages (n : ℕ) (t t' : Tcb P) : Prop :=
  ∃ pkts : List (List U8), pkts.length ≤ n ∧ t'.txRing.toList = t.txRing.toList ++ pkts

namespace Stages

lemma of_agree (n : ℕ) {t t' : Tcb P} (h : t'.txRing = t.txRing) : Stages n t t' :=
  ⟨[], Nat.zero_le n, by rw [h, List.append_nil]⟩

lemma trans {m n : ℕ} {t t' t'' : Tcb P} (h : Stages m t t') (h' : Stages n t' t'') :
    Stages (m + n) t t'' := by
  obtain ⟨p, hp, e⟩ := h
  obtain ⟨q, hq, e'⟩ := h'
  refine ⟨p ++ q, ?_, ?_⟩
  · rw [List.length_append]
    omega
  · rw [e', e, List.append_assoc]

/-- A `do` block stages what its first statement and the rest of it stage. -/
lemma bind {α β : Type} {m n : ℕ} {x : TcbM P α} {f : α → TcbM P β} {t : Tcb P}
    (hx : Stages m t (final (x t))) (hf : ∀ a t', x t = .ok a t' → Stages n t' (final (f a t'))) :
    Stages (m + n) t (final ((x >>= f) t)) := by
  refine bind_rule (Q := fun r => Stages (m + n) t (final r)) (fun a t' h => ?_) (fun e t' h => ?_)
  · rw [h] at hx
    exact hx.trans (hf a t' h)
  · rw [h] at hx
    exact hx.trans (of_agree n rfl)

end Stages

namespace Tcb

/-- The block after the segment with header `h` and payload `p` was staged as `pkt`, in `ring`. -/
def staged (t : Tcb P) (ring : TxRing P.TXQ) (h : Header) (p pkt : List U8) : Tcb P :=
  { t with
    txRing := ring
    ipId := t.ipId + 1
    sent := t.sent ++ [t.emission h p pkt]
    stats.segsOut := satAdd t.stats.segsOut 1 }

/-- The segment can be built: its options and payload fit, and the payload can be filled in. -/
def Fits (h : Header) (len : ℕ) (fill : ℕ → Option (List U8)) : Prop :=
  h.options.encodedLen ≤ 40 ∧ 40 + h.options.encodedLen + len ≤ MAX_PACKET ∧
    ∃ p, fill len = some p ∧ p.length = len

/-- A datagram that fits is queued, or there is no room for it. -/
lemma pushWith_of_fits {h : Header} {len : ℕ} {fill : ℕ → Option (List U8)} (hfits : Fits h len fill)
    (le full : Bool) (ring : TxRing P.TXQ) (e : TcpError) :
    ring.pushWith (fun cap => emitWith le cap h len fill full) ≠ .error e := by
  intro herr
  obtain ⟨hopt, hfit, p, hp, hlen⟩ := hfits
  obtain ⟨pkt, hpkt⟩ : ∃ pkt, emitWith le MAX_PACKET h len fill full = .ok pkt :=
    emitWith_ok hopt hfit (by decide) hp
  rcases TxRing.pushWith_error herr with herr | ⟨-, pkt', hpkt', hsize⟩
  · rw [hpkt] at herr
    cases herr
  · obtain ⟨-, p', hp', hsize'⟩ := emitWith_inv hpkt'
    rw [hp] at hp'
    cases hp'
    omega

/-- `stage` fails and changes nothing, finds the ring full, or appends the datagram it was given. -/
lemma stage_cases (h : Header) (len : ℕ) (fill : ℕ → Option (List U8)) (t : Tcb P) :
    (∃ e, stage h len fill t = .error (.tcp e) t ∧ ¬ Fits h len fill) ∨
      (t.txRing.len = P.TXQ ∧ stage h len fill t = .ok false t) ∨
      (t.txRing.len < P.TXQ ∧ ∃ pkt ring,
        emitWith P.littleEndian MAX_PACKET h len fill (!t.txCsumOffload) = .ok pkt ∧
        1 ≤ pkt.length ∧ pkt.length ≤ MAX_PACKET ∧ ring.toList = t.txRing.toList ++ [pkt] ∧
        stage h len fill t = .ok true (t.staged ring h ((fill len).getD []) pkt)) := by
  unfold stage
  split
  case h_1 e herr => exact .inl ⟨e, rfl, fun hfits => pushWith_of_fits hfits _ _ _ _ herr⟩
  case h_2 queued ring hpush =>
    rcases TxRing.pushWith_ok hpush with ⟨rfl, hfull, rfl⟩ | ⟨rfl, hroom, pkt, hpkt, h₁, h₂, hlist⟩
    · exact .inr (.inl ⟨hfull, rfl⟩)
    · refine .inr (.inr ⟨hroom, pkt, ring, hpkt, h₁, h₂, hlist, ?_⟩)
      simp only [if_true, staged, hlist, List.getLast?_append, List.getLast?_singleton, Option.some_or,
        Option.getD_some]

/-- Staging queues at most one datagram. -/
lemma stage_stages (h : Header) (len : ℕ) (fill : ℕ → Option (List U8)) (t : Tcb P) :
    Stages 1 t (final (stage h len fill t)) := by
  rcases stage_cases h len fill t with ⟨e, he, -⟩ | ⟨_, he⟩ | ⟨_, pkt, ring, _, _, _, hring, he⟩
  · rw [he]
    exact Stages.of_agree 1 rfl
  · rw [he]
    exact Stages.of_agree 1 rfl
  · rw [he]
    exact ⟨[pkt], le_refl 1, hring⟩

lemma emitSegment_stages (fl : Flags) (seq ack : U32) (options : TcpOptions) (payload : RingSlice)
    (ect : Bool) (t : Tcb P) :
    Stages 1 t (final (emitSegment fl seq ack options payload ect t)) := by
  unfold emitSegment
  rw [run_get_bind]
  split
  · exact Stages.of_agree 1 rfl
  rw [run_modify_bind]
  refine Stages.bind (n := 0) (stage_stages _ _ _ _) fun queued t' _ => ?_
  rw [final_bind_pure, run_modify, final_ok]
  split <;> exact Stages.of_agree 0 rfl

lemma segmentOptions_txRing (len : U32) (t : Tcb P) : (segmentOptions len t).2.txRing = t.txRing := by
  unfold segmentOptions
  lift_lets
  extract_lets
  split
  · split <;> rfl
  · rfl

/-- A pure ACK queues at most one datagram. -/
lemma sendPureAck_stages (t : Tcb P) : Stages 1 t (final (sendPureAck t)) := by
  unfold sendPureAck
  rw [run_get_bind]
  split
  · exact Stages.of_agree 1 rfl
  refine Stages.bind (m := 0) (n := 1) ?_ fun opts t₁ _ => ?_
  · exact Stages.of_agree 0 (segmentOptions_txRing 0 t)
  rw [run_get_bind]
  refine Stages.bind (n := 0) (emitSegment_stages _ _ _ _ _ _ _) fun queued t₂ _ => ?_
  rw [run_modify, final_ok]
  split <;> exact Stages.of_agree 0 rfl

lemma oowAllowed_txRing (t : Tcb P) : (oowAllowed t).2.txRing = t.txRing := by
  unfold oowAllowed
  lift_lets
  intro limited
  split <;> rfl

/-- A challenge ACK queues at most one datagram. -/
lemma sendOowAck_stages (t : Tcb P) : Stages 1 t (final (sendOowAck t)) := by
  refine Stages.bind (m := 0) (n := 1) ?_ fun allowed t₁ _ => ?_
  · exact Stages.of_agree 0 (oowAllowed_txRing t)
  split
  · exact sendPureAck_stages t₁
  · exact Stages.of_agree 1 rfl

end Tcb

end TcpSansIo
