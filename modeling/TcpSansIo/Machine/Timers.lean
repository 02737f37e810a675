import TcpSansIo.Machine.Input

/-!
# Timers take steps

Every handler of `run_timers` is a sequence of steps that take nothing from a segment.
-/

namespace TcpSansIo

open Proc FixedWidth

variable {P : Params}

namespace Tcb

variable {s : Option Segment}

lemma isArmed_of_due {d : Deadline} {now : U64} (h : d.due now = true) : d.isArmed = true := by
  cases harmed : d.isArmed with
  | true => rfl
  | false =>
    rw [Deadline.eq_OFF harmed] at h
    simp at h

/-! ## Handshake retransmission -/

/-- What is sent again in a handshake state, with its timer. -/
lemma resyn_refines {x : TcbM P Bool} {t : Tcb P} (hstate : t.state = .synSent ∨ t.state = .synRcvd)
    (hfoot : Leaves (Agree exceptAck) x) (hx : Refines (machine s) x t.synTimedOut) :
    Refines (machine s) (do
      modify synTimedOut
      let _ ← x
      modify armRto) t := by
  refine Refines.modify_bind (leads_soft rfl) (hx.bind fun b t' ht' => Refines.ofModify ?_)
  have hkeep := (hfoot t.synTimedOut).of fun c => c.state
  rw [ht'] at hkeep
  have hstate' : t'.state = .synSent ∨ t'.state = .synRcvd := by
    rw [show t'.state = t.state from hkeep]
    exact hstate
  exact leads_quiet (.resyn hstate' (Deadline.isArmed_atMs _)) rfl

/-- The SYN is sent again, or the open is given up. -/
lemma synSentTimer_refines {t : Tcb P} (hstate : t.state = .synSent) :
    Refines (machine s) synSentTimer t := by
  refine Refines.get_bind ?_
  split
  · exact Refines.ofPure _ _
  · refine Refines.modify_bind (leads_soft rfl) (Refines.get_bind ?_)
    split
    · exact Refines.ofModify (leads_quiet .abort rfl)
    · exact resyn_refines (.inl hstate) emitSyn_footprint (emitSyn_refines hstate)

/-- The SYN-ACK is sent again, or the half-open connection is given up. -/
lemma synRcvdTimer_refines {t : Tcb P} (hstate : t.state = .synRcvd) :
    Refines (machine s) synRcvdTimer t := by
  refine Refines.get_bind ?_
  split
  · exact Refines.ofPure _ _
  · refine Refines.modify_bind (leads_soft rfl) (Refines.get_bind ?_)
    split
    · refine Refines.ofModify ?_
      unfold giveUpHalfOpen
      split
      · exact resetToListenOrClosed_leads _
      · exact leads_quiet .abort rfl
    · exact resyn_refines (.inr hstate) emitSynack_footprint (emitSynack_refines hstate)

lemma handshakeTimer_refines (t : Tcb P) : Refines (machine s) handshakeTimer t := by
  refine Refines.get_bind ?_
  split
  case isTrue h => exact synSentTimer_refines h
  case isFalse =>
    split
    case isTrue h => exact synRcvdTimer_refines h
    case isFalse => exact Refines.ofPure _ _

/-! ## Retransmission timeout -/

/-- A black hole clamps the segment size to one of two sizes. -/
lemma blackholeTarget_cases {n : U8} {target : U16} (h : blackholeTarget n = some target) :
    target = BLACKHOLE_MSS1 ∨ target = BLACKHOLE_MSS2 := by
  unfold blackholeTarget at h
  split at h
  · cases h
    exact .inr rfl
  · split at h
    · cases h
      exact .inl rfl
    · cases h

lemma blackholeCheck_core (t : Tcb P) :
    ∃ z, t.blackholeCheck.core = ({ t with toSizes := z } : Tcb P).core ∧
      (z = t.toSizes ∨ Resized t.toSizes z) := by
  unfold blackholeCheck
  split
  case h_1 => exact ⟨t.toSizes, rfl, .inl rfl⟩
  case h_2 target htarget =>
    extract_lets head first backoff
    split
    case isFalse => exact ⟨t.toSizes, rfl, .inl rfl⟩
    case isTrue h => exact ⟨_, rfl, .inr (.clamped (blackholeTarget_cases htarget) h.1)⟩

/-- At a timeout SACK marks the peer may have reneged on are dropped. -/
lemma renegeCheck_marks (t : Tcb P) : Marks t t.renegeCheck := by
  unfold renegeCheck
  split
  · exact ⟨rfl, fun _ _ _ h => h.clearSacked⟩
  · exact Marks.of_core rfl

/-- A timeout marks what is outstanding lost, may clamp the segment size, and backs off; or it closes. -/
lemma onRto_leads (t : Tcb P) : (machine s).Leads t (onRto t) := by
  unfold onRto
  extract_lets t₁ t₂ stats t₃ t₄
  split
  case isTrue h => exact leads_quiet (.rest h) rfl
  case isFalse hout =>
    split
    case isTrue => exact leads_quiet (t := t) .abort rfl
    case isFalse =>
      obtain ⟨z, hz, hsz⟩ := blackholeCheck_core t₃
      -- The timers come first, while something is known to be outstanding.
      set r := t₄.backoffRto.after t₄.backoffRto.rtoMs with hr
      have hrto : (machine s).Leads t (t.timed r Deadline.OFF) :=
        leads_quiet (.rearm (.inr hout) (Deadline.isArmed_atMs _) fun h => absurd h (by simp)) rfl
      have hsize : (machine s).Leads (t.timed r Deadline.OFF)
          (t₃.blackholeCheck.timed r Deadline.OFF) := by
        have hset := congrArg (fun c : Tcb P => c.timed r Deadline.OFF) hz
        exact leads_sizes hsz hset
      have hmark := (renegeCheck_marks t₃.blackholeCheck).remarks.leads (s := s) r Deadline.OFF
      refine leads_trans hrto (leads_trans hsize (leads_trans hmark ?_))
      exact leads_quiet (.remark fun _ _ _ h => h.markAllLost) rfl

/-! ## Tail loss probe -/

/-- What follows a segment that went out. -/
lemma Tries.finish {x : TcbM P Bool} {t : Tcb P} (h : Tries s x t) {g : Tcb P → Tcb P}
    (hg : ∀ t', Sent t t' → (machine s).Leads t' (g t')) :
    Refines (machine s) (do
      let sent ← x
      modify fun t' => if sent then g t' else t') t := by
  refine h.refines.bind fun sent t' ht' => Refines.ofModify ?_
  cases sent with
  | false => exact leads_soft rfl
  | true => exact hg t' (h.sent t' ht')

lemma noteTlp_leads {t t' : Tcb P} (h : Sent t t') (isRetrans : Bool) :
    (machine s).Leads t' (noteTlp isRetrans t') :=
  leads_quiet (.rearm (.inl h.rto) (Deadline.isArmed_atMs _) fun h => absurd h (by simp)) rfl

/-- A tail loss probe is new data if the window lets it out, and else the last record again. -/
lemma sendTlp_refines (t : Tcb P) : Refines (machine s) sendTlp t := by
  refine Refines.get_bind ?_
  dsimp only
  split
  case isTrue h =>
    have hle : (minB t.unsentBytes t.mssPayload).toNat ≤ t.unsentBytes.toNat ∧
        (minB t.unsentBytes t.mssPayload).toNat ≤ t.mssPayload.toNat ∧
        0 < (minB t.unsentBytes t.mssPayload).toNat := by
      have := mssPayload_pos t
      rw [toNat_minB]
      omega
    have hsize : t.SizeOk (minB t.unsentBytes t.mssPayload) none := hle.2.1
    have hnew := newOk_data h.2.2 hle.2.2 hle.1 h.2.1 hsize
    exact (emitNew_tries hnew).finish fun t' ht' => noteTlp_leads ht' false
  case isFalse =>
    split
    case isFalse => exact Refines.ofPure _ _
    case isTrue h =>
      cases hr : t.rtx.get (t.rtx.len - 1) with
      | none =>
        rw [hr] at h
        cases h.2
      | some r =>
        rw [hr] at h
        have hre : t.ResendOk (t.rtx.len - 1) r := ⟨hr, .inr (by simpa using h.2)⟩
        exact (retransmit_tries hre).finish fun t' ht' => noteTlp_leads ht' true

/-- A probe that is no longer called for is dropped, and one that finds the egress ring full is put off. -/
lemma fireTlp_refines (t : Tcb P) : Refines (machine s) fireTlp t := by
  refine Refines.modify_bind (leads_quiet (probe_off t) rfl) (Refines.get_bind ?_)
  split
  · exact Refines.ofPure _ _
  · split
    · refine Refines.ofModify ?_
      obtain ⟨d, hd, hspec⟩ := maybeArmTlp_spec ({ t with tlpDeadline := Deadline.OFF } : Tcb P)
      rw [hd]
      exact leads_quiet (.probe hspec) rfl
    · exact sendTlp_refines _

/-! ## Reordering, persist, keepalive, user timeout -/

/-- The reordering timer marks what is overdue lost and enters recovery. -/
lemma rackTimer_leads (now : U64) (t : Tcb P) : (machine s).Leads t (rackTimer now t) := by
  unfold rackTimer
  extract_lets d u
  split
  case isFalse => exact leads_soft rfl
  case isTrue =>
    have hoff : Marks t { t with rackDeadline := Deadline.OFF } := Marks.of_core rfl
    have hmarks : Marks t d.2 := hoff.trans (rackDetect_marks _)
    split
    case isFalse => exact hmarks.leads
    case isTrue =>
      refine leads_trans hmarks.leads ?_
      have hu : (machine s).Leads d.2 u := by
        by_cases h : d.2.cc.inLossRecovery = true
        · have hu : u = d.2 := if_pos h
          rw [hu]
          exact leads_soft rfl
        · have hu : u = d.2.enterFastRecovery (d.2.sndNxt - d.2.dataUna) := if_neg h
          rw [hu]
          exact leads_quiet (probe_off _) rfl
      refine leads_trans hu ?_
      exact leads_soft rfl

lemma persistAgain_core (t : Tcb P) : t.persistAgain.core = t.core := by
  unfold persistAgain
  dsimp only
  split <;> rfl

/-- The persist timer forces out what fits the window, or probes a closed one. -/
lemma onPersistTimer_refines (t : Tcb P) : Refines (machine s) onPersistTimer t := by
  refine Refines.modify_bind (leads_soft rfl) (Refines.get_bind ?_)
  set u : Tcb P := { t with persistDeadline := Deadline.OFF } with hu
  dsimp only
  split
  · exact Refines.ofPure _ _
  case isFalse hstuck =>
    split
    · exact Refines.ofModify (leads_soft rfl)
    · split
      case isTrue h =>
        have hpos : 0 < u.unsentBytes.toNat := by
          refine Nat.pos_of_ne_zero fun hzero => hstuck (.inl (BitVec.eq_of_toNat_eq hzero))
        have hle : (minB (minB u.usableWindow u.unsentBytes) u.mssPayload).toNat ≤
              u.unsentBytes.toNat ∧
            (minB (minB u.usableWindow u.unsentBytes) u.mssPayload).toNat ≤ u.usableWindow.toNat ∧
            (minB (minB u.usableWindow u.unsentBytes) u.mssPayload).toNat ≤ u.mssPayload.toNat ∧
            0 < (minB (minB u.usableWindow u.unsentBytes) u.mssPayload).toNat := by
          have := mssPayload_pos u
          rw [toNat_minB, toNat_minB]
          omega
        have hsize : u.SizeOk (minB (minB u.usableWindow u.unsentBytes) u.mssPayload) none := hle.2.2.1
        have hnew := newOk_data h.2 hle.2.2.2 hle.1 hle.2.1 hsize
        exact (emitNew_tries hnew).refines.bind fun _ t' _ =>
          Refines.ofModify (leads_soft (persistAgain_core t'))
      case isFalse =>
        refine (emitProbe_refines (.inl rfl)).bind fun _ t' _ => ?_
        refine Refines.modify_bind (leads_soft rfl) (Refines.ofModify ?_)
        split
        · exact leads_quiet .abort rfl
        · exact leads_soft (persistAgain_core _)

/-- An idle connection is probed, and closed once its probes are used up. -/
lemma checkKeepalive_refines (t : Tcb P) : Refines (machine s) checkKeepalive t := by
  refine Refines.get_bind ?_
  split
  · exact Refines.ofPure _ _
  · split
    · exact Refines.ofModify (leads_soft rfl)
    · split
      · exact Refines.ofModify (leads_soft rfl)
      · split
        · refine Refines.ofModify ?_
          split
          case isTrue hstate => exact leads_quiet (.closeClean (by rw [hstate]; rfl)) rfl
          case isFalse => exact leads_quiet .abort rfl
        · refine (emitProbe_refines (.inr rfl)).bind fun _ t' _ => Refines.ofModify (leads_soft ?_)
          split <;> rfl

lemma checkUserTimeout_leads (t : Tcb P) : (machine s).Leads t (checkUserTimeout t) := by
  unfold checkUserTimeout
  split
  · exact leads_soft rfl
  · split
    · exact leads_soft rfl
    · split
      · exact leads_quiet .abort rfl
      · exact leads_soft rfl

/-! ## One tick -/

lemma idleTimers_refines (now : U64) (t : Tcb P) : Refines (machine s) (idleTimers now) t := by
  refine (checkKeepalive_refines t).bind fun _ t₁ _ => ?_
  refine Refines.modify_bind (checkUserTimeout_leads t₁) (Refines.get_bind ?_)
  split
  · exact Refines.ofPure _ _
  · refine (maybeSendData_refines _).bind fun _ t₂ _ => Refines.get_bind ?_
    split
    · exact sendPureAck_refines t₂
    · exact Refines.ofPure _ _

lemma lateTimers_refines (now : U64) (t : Tcb P) : Refines (machine s) (lateTimers now) t := by
  refine Refines.modify_bind (rackTimer_leads now t) (Refines.get_bind ?_)
  split
  · refine (onPersistTimer_refines _).bind fun _ t₁ _ => Refines.get_bind ?_
    split
    · exact Refines.ofPure _ _
    · exact idleTimers_refines now t₁
  · exact idleTimers_refines now _

/-- One tick, timer after timer. -/
lemma runTimers_refines (t : Tcb P) : Refines (machine s) runTimers t := by
  refine Refines.get_bind ?_
  dsimp only
  split
  case isTrue h => exact Refines.ofModify (leads_quiet (.timeWaitOver (isArmed_of_due h)) rfl)
  case isFalse =>
    split
    · exact (emitReset_refines t).bind fun _ t' _ => Refines.ofModify (leads_quiet .abort rfl)
    · refine (handshakeTimer_refines t).bind fun _ t₁ _ => Refines.get_bind ?_
      refine Refines.bind (x := if t₁.tlpDeadline.due t.nowMs then fireTlp else pure ()) ?_
        fun _ t₂ _ => Refines.get_bind ?_
      · split
        · exact fireTlp_refines t₁
        · exact Refines.ofPure _ _
      · split
        · refine Refines.modify_bind (onRto_leads t₂) (Refines.get_bind ?_)
          split
          · exact Refines.ofPure _ _
          · exact lateTimers_refines _ _
        · exact lateTimers_refines _ t₂

end Tcb

end TcpSansIo
