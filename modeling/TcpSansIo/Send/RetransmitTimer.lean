import TcpSansIo.Send.Backlog

/-!
# The retransmission timers

The retransmission timeout runs exactly while something is outstanding, and a tail loss probe is never
due after it (`Reachable.timed`).
-/

namespace TcpSansIo

open Proc FixedWidth

variable {P : Params}

namespace Tcb

/-- The retransmission timeout and the tail loss probe, against what is outstanding. -/
structure Timed (t : Tcb P) : Prop where
  backlog : Backlog t
  rto : t.rtoDeadline.isArmed = true ↔ t.sndUna ≠ t.sndNxt
  tlp : t.tlpDeadline.isArmed = true →
    t.rtoDeadline.isArmed = true ∧ t.tlpDeadline.raw.toNat ≤ t.rtoDeadline.raw.toNat
  handshake : t.state = .synSent ∨ t.state = .synRcvd → t.tlpDeadline.isArmed = false

namespace Timed

variable {t : Tcb P}

/-- A record of the queue is outstanding. -/
lemma una_ne_of_record {i : ℕ} {s : Seg} (h : Flight t) (hs : t.rtx.get i = some s) :
    t.sndUna ≠ t.sndNxt := by
  have hmem := RtxQueue.mem_of_get hs
  have hle := h.queue.record_le hmem
  have hpos := (h.queue.ok s hmem).pos
  intro heq
  have hzero := h.una_eq_nxt_iff.mp heq
  simp only [out] at hzero
  omega

/-- What changes neither `SND.UNA` nor `SND.NXT`. -/
lemma of_same {u : Tcb P} (h : Timed t) (hb : Backlog u) (huna : u.sndUna = t.sndUna)
    (hnxt : u.sndNxt = t.sndNxt) (hrto : u.rtoDeadline = t.rtoDeadline)
    (htlp : u.tlpDeadline = t.tlpDeadline)
    (hstate : u.state = .synSent ∨ u.state = .synRcvd → t.state = .synSent ∨ t.state = .synRcvd) :
    Timed u := by
  refine ⟨hb, ?_, ?_, fun hs => ?_⟩
  · rw [hrto, huna, hnxt]
    exact h.rto
  · rw [hrto, htlp]
    exact h.tlp
  · rw [htlp]
    exact h.handshake (hstate hs)

/-- Nothing is outstanding. -/
lemma of_idle {u : Tcb P} (hb : Backlog u) (hidle : u.sndUna = u.sndNxt)
    (hrto : u.rtoDeadline.isArmed = false) (htlp : u.tlpDeadline.isArmed = false) : Timed u := by
  refine ⟨hb, ?_, fun harmed => ?_, fun _ => htlp⟩
  · simp [hrto, hidle]
  · rw [htlp] at harmed
    cases harmed

/-- Something is outstanding, and the timeout runs. -/
lemma of_out {u : Tcb P} (hb : Backlog u) (hout : u.sndUna ≠ u.sndNxt)
    (hrto : u.rtoDeadline.isArmed = true) (htlp : NotAfter u.tlpDeadline u.rtoDeadline)
    (hstate : u.state = .synSent ∨ u.state = .synRcvd → u.tlpDeadline.isArmed = false) : Timed u :=
  ⟨hb, by simp [hrto, hout], fun harmed => ⟨hrto, htlp harmed⟩, hstate⟩

/-- No tail loss probe is pending while nothing is outstanding. -/
lemma tlp_of_idle (h : Timed t) (hidle : t.sndUna = t.sndNxt) : t.tlpDeadline.isArmed = false := by
  by_contra harmed
  exact h.rto.mp (h.tlp (by simpa using harmed)).1 hidle

/-- The handshake is over. -/
lemma answered {u : Tcb P} (h : Timed t) (hstate : t.state = .synSent ∨ t.state = .synRcvd)
    (hb : Backlog u) (hrtx : u.rtx = t.rtx) (hsyn : u.synUnacked = false)
    (hrto : u.rtoDeadline.isArmed = false) (htlp : u.tlpDeadline = t.tlpDeadline) : Timed u := by
  obtain ⟨heq, -, -⟩ := h.backlog.flight.dataUna_handshake hstate
  refine of_idle hb (hb.flight.una_eq_nxt_iff.mpr ?_) hrto (by rw [htlp, h.handshake hstate])
  rw [hsyn, out, hb.queue.span_eq, hrtx, ← h.backlog.queue.span_eq, heq, BitVec.sub_self]
  rfl

/-- A timer that runs only on an open connection does not run in a handshake. -/
lemma of_not_sync {d : Deadline} (hs : t.state = .synSent ∨ t.state = .synRcvd)
    (harmed : d.isArmed = true → t.state.isSynchronized = true) : d.isArmed = false := by
  by_contra hd
  have hsync := harmed (by simpa using hd)
  rcases hs with hs | hs <;> rw [hs] at hsync <;> cases hsync

/-- Our SYN is out and nothing else. -/
lemma synOut {u : Tcb P} {rto : Deadline} (hb : Backlog (u.synOut rto)) (hrto : rto.isArmed = true)
    (huna : u.sndUna = u.iss) (htlp : u.tlpDeadline.isArmed = false) : Timed (u.synOut rto) := by
  refine of_out hb ?_ hrto (fun harmed => ?_) fun _ => htlp
  · change u.sndUna ≠ u.iss + 1
    rw [huna]
    bv_omega
  · rw [show (u.synOut rto).tlpDeadline = u.tlpDeadline from rfl, htlp] at harmed
    cases harmed

lemma step (hbuf : P.BUF < 2 ^ 32) (t : Tcb P) (l : Option Segment) (t' : Tcb P) (hstep : Step t l t')
    (h : Timed t) : Timed t' := by
  have hb := Backlog.step hbuf t l t' hstep h.backlog
  have hflight := h.backlog.flight
  cases hstep with
  | first now hnew hshort hopts hh hlen hpkt hrto htlp =>
    refine of_out hb (hflight.una_ne_new hshort hnew.nonempty) hrto.1 htlp fun hs => ?_
    exact absurd hnew fun hnew => hflight.no_new_in_handshake hs hnew
  | again now hre hpart hshort hopts hh hlen hpkt hrto =>
    have hne := una_ne_of_record hflight hre.record
    have hsame := hrto.2 (h.rto.mpr hne)
    exact h.of_same hb rfl rfl hsame rfl id
  | rearm hout hrto htlp =>
    have hne : t.sndUna ≠ t.sndNxt := hout.elim h.rto.mp id
    refine of_out hb hne hrto (fun harmed => (htlp harmed).2) fun hs => ?_
    exact of_not_sync hs fun harmed => (htlp harmed).1
  | resyn hstate hrto =>
    have hne := hflight.una_ne_nxt_of_syn (hflight.handshake hstate).1
    refine of_out hb hne hrto (fun harmed => ?_) fun _ => h.handshake hstate
    rw [h.handshake hstate] at harmed
    cases harmed
  | probe htlp =>
    refine ⟨hb, h.rto, fun harmed => ?_, fun hs => ?_⟩
    · obtain ⟨-, hne, hle⟩ := htlp harmed
      exact ⟨h.rto.mpr hne, hle (h.rto.mpr hne)⟩
    · exact of_not_sync hs fun harmed => (htlp harmed).1
  | rest hidle => exact of_idle hb hidle rfl (h.tlp_of_idle hidle)
  | @acked seg q rto tlp hstate hlo hhi hne hseq hq hidle hout =>
    by_cases hall : seg.ack = t.sndNxt
    · obtain ⟨h₁, h₂⟩ := hidle hall
      exact of_idle hb hall (by rw [h₁]; rfl) (by rw [h₂]; rfl)
    · obtain ⟨h₁, h₂⟩ := hout hall
      refine of_out hb hall h₁ h₂ fun hs => ?_
      rcases hs with hs | hs <;> rw [show t.state = _ from hs] at hstate <;> cases hstate
  | @segment seg hstate =>
    have hframe := receiveSegment_frame t seg
    refine h.of_same hb (hframe.of fun t => t.sndUna) (hframe.of fun t => t.sndNxt)
      (hframe.of fun t => t.rtoDeadline) (hframe.of fun t => t.tlpDeadline) fun hs => ?_
    have hsync := receiveSegment_isSynchronized seg (isSynchronized_of_canRecv hstate)
    rcases hs with hs | hs <;> rw [hs] at hsync <;> cases hsync
  | finWait2 => exact h.of_same hb rfl rfl rfl rfl nofun
  | timeWait => exact h.of_same hb rfl rfl rfl rfl nofun
  | @close s hstate =>
    refine h.of_same hb rfl rfl rfl rfl fun hs => ?_
    rcases hstate with ⟨-, rfl⟩ | ⟨-, rfl⟩ <;> rcases hs with hs | hs <;> cases hs
  | abort => exact of_idle hb rfl rfl rfl
  | closeClean => exact of_idle hb rfl rfl rfl
  | timeWaitOver hdue =>
    have hdone := (h.backlog.done (.inr (hflight.timeWait hdue))).2
    exact of_idle hb hdone rfl rfl
  | reset => exact of_idle hb rfl rfl rfl
  | connected hstate hsyn hctl hh hpkt hrto => exact synOut hb hrto rfl rfl
  | halfOpened hstate _ _ _ _ hsyn hctl hh hpkt hrto => exact synOut hb hrto rfl rfl
  | activeOpened hstate => exact h.answered (.inl hstate) hb rfl rfl rfl rfl
  | simultaneous hstate => exact h.of_same hb rfl rfl rfl rfl fun _ => .inl hstate
  | passiveOpened hstate => exact h.answered (.inr hstate) hb rfl rfl rfl rfl
  | cookieOpened => exact of_idle hb rfl rfl rfl
  | _ => exact h.of_same hb rfl rfl rfl rfl id

lemma stable (hbuf : P.BUF < 2 ^ 32) : Stable (Timed (P := P)) where
  core t := by
    constructor
    · intro h
      exact ⟨((Backlog.stable hbuf).core t).mp h.backlog, h.rto, h.tlp, h.handshake⟩
    · intro h
      exact ⟨((Backlog.stable hbuf).core t).mpr h.backlog, h.rto, h.tlp, h.handshake⟩
  step := step hbuf

end Timed

end Tcb

open Tcb

lemma Reachable.timed (hbuf : P.BUF < 2 ^ 32) {t : Tcb P} (ht : Reachable t) : Timed t :=
  ht.stable (Timed.stable hbuf) fun cfg => Timed.of_idle ((Reachable.new cfg).backlog hbuf) rfl rfl rfl

end TcpSansIo
