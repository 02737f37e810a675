import TcpSansIo.Receive.AckDuty

/-!
# Outstanding work has a timer

`debug_check_liveness` is the oracle the fuzz targets call at rest: what is in flight has a retransmission
timer, and data that is stuck with nothing in flight has the persist timer.  After a tick it never
complains (`work_has_a_timer`).

The oracle and the persist timer count the send ring in 32 bits.  With a ring shorter than that, what they
count is what the ring holds (`timers_cover_work`); a ring of 2³² bytes can be full and count as empty
(`full_ring_has_no_timer`).
-/

namespace TcpSansIo

open Proc FixedWidth

variable {P : Params}

namespace Tcb

/-- Liveness oracle: outstanding work implies a timer that will act on it. -/
def debugCheckLiveness (t : Tcb P) : Except String Unit :=
  if t.txRing.peekHeadLen.isSome ∨ t.state = .closed then
    .ok ()
  else do
    reject (t.sndUna ≠ t.sndNxt ∧ ¬ t.rtoDeadline.isArmed ∧ ¬ t.tlpDeadline.isArmed ∧ ¬ t.rackDeadline.isArmed)
      "liveness: outstanding data with no retransmit timer"
    reject (t.state.canSend ∧ 0 < t.unsentBytes.toNat ∧ t.sndUna = t.sndNxt ∧ ¬ t.persistDeadline.isArmed)
      "liveness: data queued with nothing in flight and no persist timer"

/-- Data is queued, nothing in flight will clock it out, and the state sends. -/
def stuck (t : Tcb P) : Bool := decide (0 < t.unsentBytes.toNat) && t.sndUna == t.sndNxt && t.state.sends

/-- The persist timer runs whenever data is stuck. -/
def Persisting (t : Tcb P) : Prop := t.stuck = true → t.persistDeadline.isArmed = true

lemma updatePersist_persisting (t : Tcb P) : Persisting t.updatePersist := by
  intro hstuck
  unfold updatePersist at hstuck ⊢
  dsimp only at hstuck ⊢
  split at hstuck
  case isTrue hfree => exact absurd hstuck hfree
  case isFalse hfree =>
    rw [if_neg hfree]
    split
    · exact Deadline.isArmed_atMs _
    case isFalse harmed => exact not_not.mp harmed

/-- After output the persist timer runs whenever data is stuck. -/
lemma maybeSendData_persisting {t t' : Tcb P} (h : maybeSendData t = .ok () t') : Persisting t' := by
  unfold maybeSendData at h
  rw [run_get_bind] at h
  split at h
  case isTrue hsends =>
    cases h
    intro hstuck
    simp only [stuck, Bool.and_eq_true] at hstuck
    exact absurd hstuck.2 hsends
  case isFalse =>
    rw [run_bind] at h
    split at h
    · cases h
      exact updatePersist_persisting _
    · cases h

lemma ackTimer_footprint (now : U64) : Leaves (Agree (exceptAck (P := P))) (ackTimer now) :=
  Leaves.bind Leaves.ofGet fun _ => Leaves.ite sendPureAck_footprint (Leaves.ofPure _)

end Tcb

open Tcb

/-- A tick that succeeds leaves the persist timer running whenever data is stuck. -/
lemma runTimers_persisting (hbuf : P.BUF < 2 ^ 32) {t t' : Tcb P} (ht : Reachable t)
    (hrun : runTimers t = .ok () t') : Persisting t' := by
  intro hstuck
  have hsends : t'.state.sends = true := by
    simp only [stuck, Bool.and_eq_true] at hstuck
    exact hstuck.2
  obtain ⟨u, v, -, hsend, hlast⟩ := (runTimers_ticks hbuf (ht.ledger hbuf) (ht.timed hbuf)
    (ht.duty hbuf).heard).last t' hrun (heard_of_sends hsends)
  have hsame := ackTimer_footprint t.nowMs v
  rw [hlast, final_ok] at hsame
  have hstuck' : t'.stuck = v.stuck := hsame.of stuck
  have hdead : t'.persistDeadline = v.persistDeadline := hsame.of fun t => t.persistDeadline
  rw [hdead]
  exact maybeSendData_persisting hsend (hstuck'.symm.trans hstuck)

/-- What a tick leaves, where its timers succeed. -/
lemma final_tick {t t' : Tcb P} (hrun : runTimers t = .ok () t') : final (Call.run .tick t) = t' := by
  rw [Call.run, final_bind_pure, tick, hrun, final_ok]

/-- A tick that came back succeeded. -/
lemma Reachable.tick_succeeds (hbuf : P.BUF < 2 ^ 32) {t : Tcb P} (ht : Reachable t)
    (hcame : P.TXQ + 2 < 2 ^ 32 ∨ Returned (Call.run .tick t)) : ∃ t', runTimers t = .ok () t' := by
  have hret : Returned (Call.run .tick t) → Returned (runTimers t) := by
    intro hret
    cases hrun : runTimers t with
    | ok a t' => trivial
    | error e t' =>
      rw [Call.run, tick, run_bind_error hrun] at hret
      cases e with
      | tcp x => trivial
      | panic => exact hret
  obtain ⟨⟨⟩, hrun⟩ := refines_succeeds hbuf (runTimers_refines (s := none) t) (ht.backlog hbuf) ht.sizes
    (hcame.imp_right hret)
  exact hrun

lemma get_of_armed {d : Deadline} (h : d.isArmed = true) : d.get = some (d.raw - 1) := by
  refine if_neg ?_
  simpa only [Deadline.isArmed, bne_iff_ne] using h

/-- A tail loss probe is due no later than the retransmission timeout. -/
lemma Tcb.Timed.tlp_le {t : Tcb P} (h : Timed t) {p : U64} (hp : t.tlpDeadline.get = some p) :
    ∃ r, t.rtoDeadline.get = some r ∧ p.toNat ≤ r.toNat := by
  have harmed : t.tlpDeadline.isArmed = true := by
    by_contra hoff
    have hoff : t.tlpDeadline = Deadline.OFF := Deadline.eq_OFF (by simpa using hoff)
    rw [hoff] at hp
    cases hp
  obtain ⟨hrto, hle⟩ := h.tlp harmed
  refine ⟨_, get_of_armed hrto, ?_⟩
  rw [get_of_armed harmed] at hp
  cases hp
  simp only [Deadline.isArmed, bne_iff_ne] at harmed hrto
  bv_omega

/-- Outstanding work has a timer.  In every reachable state the retransmission timeout runs exactly while
something is outstanding, and a tail loss probe is due no later.  After any tick, data that is queued
with nothing in flight has the persist timer, in every state that sends, and the liveness oracle has
nothing to complain about. -/
theorem work_has_a_timer (hbuf : P.BUF < 2 ^ 32) (hq : P.TXQ + 2 < 2 ^ 32) {t : Tcb P} (ht : Reachable t) :
    (t.rtoDeadline.isArmed = true ↔ t.sndUna ≠ t.sndNxt) ∧
      (∀ p, t.tlpDeadline.get = some p → ∃ r, t.rtoDeadline.get = some r ∧ p.toNat ≤ r.toNat) ∧
      ((runAll [.tick] t).stuck = true → (runAll [.tick] t).persistDeadline.isArmed = true) ∧
      (runAll [.tick] t).debugCheckLiveness = .ok () := by
  obtain ⟨u, hrun⟩ := ht.tick_succeeds hbuf (.inl hq)
  have hpersist : Persisting (runAll [.tick] t) := by
    change Persisting (final (Call.run .tick t))
    rw [final_tick hrun]
    exact runTimers_persisting hbuf ht hrun
  have htick : Reachable (runAll [.tick] t) := by
    refine ht.step (c := .tick) ⟨?_, rfl⟩
    rw [Call.run, tick, run_bind_ok hrun]
    trivial
  have hrto := (htick.timed hbuf).rto
  refine ⟨(ht.timed hbuf).rto, fun p => (ht.timed hbuf).tlp_le, hpersist, ?_⟩
  generalize runAll [.tick] t = t' at *
  unfold debugCheckLiveness
  split
  · rfl
  have hout : ¬ (t'.sndUna ≠ t'.sndNxt ∧ ¬ t'.rtoDeadline.isArmed ∧ ¬ t'.tlpDeadline.isArmed ∧
      ¬ t'.rackDeadline.isArmed) := fun h => h.2.1 (hrto.mpr h.1)
  have hqueued : ¬ (t'.state.canSend ∧ 0 < t'.unsentBytes.toNat ∧ t'.sndUna = t'.sndNxt ∧
      ¬ t'.persistDeadline.isArmed) := by
    rintro ⟨hcan, hunsent, hidle, hoff⟩
    refine hoff (hpersist ?_)
    have hsends : t'.state.sends = true := by
      cases hs : t'.state <;> first | rfl | (rw [hs] at hcan; cases hcan)
    simp only [stuck, hunsent, hidle, hsends, decide_true, beq_self_eq_true, Bool.and_self]
  simp only [reject, if_neg hout, if_neg hqueued]
  rfl

/-- The tiny client's peer closes its window; three bytes are queued. -/
def tinyBlocked : List Call :=
  tinyHandshake ++ [.injectPacket (datagram { peerAck with window := 0 } []), .send [1, 2, 3]]

theorem tinyBlocked_has_a_timer :
    (runAll tinyBlocked tinyClient).persistDeadline.isArmed = false ∧
      (runAll [.tick] (runAll tinyBlocked tinyClient)).stuck = true ∧
      (runAll [.tick] (runAll tinyBlocked tinyClient)).persistDeadline.isArmed = true ∧
      (runAll [.tick] (runAll tinyBlocked tinyClient)).debugCheckLiveness = .ok () := by
  have hreach : Reachable (runAll tinyBlocked tinyClient) := (Reachable.new _).runAll (by decide +kernel)
  have hstuck : (runAll [.tick] (runAll tinyBlocked tinyClient)).stuck = true := by decide +kernel
  have htimer := work_has_a_timer (by decide) (by decide) hreach
  exact ⟨by decide +kernel, hstuck, htimer.2.2.1 hstuck, htimer.2.2.2⟩

/-! ## What the ring holds -/

/-- With nothing in flight, all of a ring shorter than the sequence space is unsent. -/
lemma Tcb.Flight.unsent_of_idle (hbuf : P.BUF < 2 ^ 32) {t : Tcb P} (h : Flight t)
    (hidle : t.sndUna = t.sndNxt) : t.unsentBytes.toNat = t.sendRing.len := by
  have hlen : t.sendRing.len < 2 ^ 32 := t.sendRing.len_le.trans_lt hbuf
  have hout : t.out = 0 := by
    have := h.una_eq_nxt_iff.mp hidle
    omega
  unfold unsentBytes
  rw [toNat_satSub, toNat_satSub, BitVec.toNat_ofNat, Nat.mod_eq_of_lt hlen]
  change t.sendRing.len - (t.out - _) = _
  rw [hout, Nat.zero_sub, Nat.sub_zero]

/-- In every reachable state the retransmission timeout runs exactly while something is outstanding, and a
tail loss probe is due no later.  A tick that comes back in a state that sends, with bytes in the send ring
and nothing in flight, has left the persist timer running. -/
theorem timers_cover_work (hbuf : P.BUF < 2 ^ 32) {t : Tcb P} (ht : Reachable t) :
    (t.rtoDeadline.isArmed = true ↔ t.sndUna ≠ t.sndNxt) ∧
      (∀ p, t.tlpDeadline.get = some p → ∃ r, t.rtoDeadline.get = some r ∧ p.toNat ≤ r.toNat) ∧
      ∀ t', CallStep t .tick t' → t'.state.sends = true → t'.sndUna = t'.sndNxt → 0 < t'.sendRing.len →
        t'.persistDeadline.isArmed = true := by
  refine ⟨(ht.timed hbuf).rto, fun p => (ht.timed hbuf).tlp_le, fun t' htick hsends hidle hbytes => ?_⟩
  obtain ⟨u, hrun⟩ := ht.tick_succeeds hbuf (.inr htick.1)
  have hunsent := (ht.step htick).flight.unsent_of_idle hbuf hidle
  have hu : t' = u := htick.2.trans (final_tick hrun)
  refine hu ▸ runTimers_persisting hbuf ht hrun ?_
  rw [← hu, stuck, hsends, hidle, beq_self_eq_true, Bool.and_true, Bool.and_true, decide_eq_true_iff, hunsent]
  exact hbytes

/-- The tiny client with its bytes queued behind the closed window. -/
def tinyStuck : Tcb tiny := runAll tinyBlocked tinyClient

theorem tinyStuck_covered :
    CallStep tinyStuck .tick (runAll [.tick] tinyStuck) ∧
      (runAll [.tick] tinyStuck).persistDeadline.isArmed = true := by
  have hreach : Reachable tinyStuck := (Reachable.new _).runAll (by decide +kernel)
  have htick : CallStep tinyStuck .tick (runAll [.tick] tinyStuck) :=
    callStep_runAll (by decide +kernel)
  exact ⟨htick, (timers_cover_work (by decide) hreach).2.2 _ htick (by decide +kernel) (by decide +kernel)
    (by decide +kernel)⟩

/-- Counted in 32 bits a ring of 2³² bytes is empty: nothing of it is sent, and no timer runs. -/
theorem full_ring_has_no_timer :
    Reachable vastFull ∧ CallStep vastFull .tick (runAll [.tick] vastFull) ∧
      (runAll [.tick] vastFull).state = .established ∧ (runAll [.tick] vastFull).sendRing.len = 2 ^ 32 ∧
      (runAll [.tick] vastFull).sndUna = (runAll [.tick] vastFull).sndNxt ∧
      (runAll [.tick] vastFull).persistDeadline.isArmed = false := by
  exact ⟨reachable_vastFull, callStep_runAll (by decide +kernel), by decide +kernel, by decide +kernel, by decide +kernel,
    by decide +kernel⟩

end TcpSansIo
