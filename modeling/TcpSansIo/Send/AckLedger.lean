import TcpSansIo.Send.AckReaction

/-!
# The history of ACKs

The block records every ACK it reacts to.  An `Accounts` is a property `Past` of such a history (which may
depend on whether SACK was negotiated), kept by a property `Link` that ties the history to the block as
it is now.  `Link` need not hold once the
connection is closed, and holds trivially before there is one (`Fresh`).  `Accounts.reachable` is the
rule for whole runs: look at one reaction to an ACK, and at `Carries`.
-/

namespace TcpSansIo

open Proc FixedWidth

variable {P : Params}

namespace Tcb

/-- Nothing was acknowledged yet, and nothing SACKed. -/
structure Fresh (t : Tcb P) : Prop where
  unacked : ∀ r, LossEvent.acked r ∉ t.history
  unsacked : t.history = [] → true ∉ t.line
  reno : t.renoSacked = 0

lemma Fresh.carries {t t' : Tcb P} (h : Fresh t) (hc : Carries t t') : Fresh t' := by
  obtain ⟨k, hk⟩ := hc.history
  obtain ⟨n, -, -, hline⟩ := hc.sent
  refine ⟨fun r hr => ?_, fun hnone => ?_, hc.reno h.reno⟩
  · rw [hk, List.mem_append] at hr
    rcases hr with hr | hr
    · exact h.unacked r hr
    · cases List.eq_of_mem_replicate hr
  · have hnil : t.history = [] := (List.append_eq_nil_iff.mp (hk.symm.trans hnone)).1
    rw [hline (hnone.trans hnil.symm), List.mem_append]
    rintro (hmem | hmem)
    · exact h.unsacked hnil hmem
    · cases List.eq_of_mem_replicate hmem

lemma Fresh.of_same {t t' : Tcb P} (h : Fresh t) (hhist : t'.history = t.history)
    (hline : t'.line = t.line) (hreno : t'.renoSacked = t.renoSacked) : Fresh t' :=
  ⟨hhist ▸ h.unacked, by rw [hhist, hline]; exact h.unsacked, hreno.trans h.reno⟩

/-- The states before a connection is established. -/
def unopened : State → Bool
  | .listen | .synSent | .synRcvd => true
  | _ => false

/-- A property of the history of ACKs, and what ties it to the block. -/
structure Accounts (Past : Bool → List LossEvent → Prop) (Link : Tcb P → Prop) : Prop where
  start : ∀ on h, (∀ r, LossEvent.acked r ∉ h) → Past on h
  forgets : ∀ on h, Past on h → Past on (h ++ [.forgot])
  fresh : ∀ t, Fresh t → Link t
  carries : ∀ t t', Carries t t' → Link t → Link t'
  reacts : ∀ (t t' : Tcb P) (r : AckRecord), Flight t → Reacted t t' r → Past t.sackEnabled t.history →
    Link t → Past t'.sackEnabled t'.history ∧ Link t'

/-- The accounts hold of a block. -/
structure Booked (Past : Bool → List LossEvent → Prop) (Link : Tcb P → Prop) (t : Tcb P) : Prop where
  past : Past t.sackEnabled t.history
  link : t.state ≠ .closed → Link t
  fresh : unopened t.state = true → Fresh t

namespace Accounts

variable {Past : Bool → List LossEvent → Prop} {Link : Tcb P → Prop} {t t' : Tcb P}

lemma of_fresh (A : Accounts Past Link) (h : Fresh t) : Booked Past Link t :=
  ⟨A.start _ _ h.unacked, fun _ => A.fresh t h, fun _ => h⟩

lemma forgotten (A : Accounts Past Link) {on : Bool} {h : List LossEvent} (k : ℕ) (hp : Past on h) :
    Past on (h ++ List.replicate k .forgot) := by
  induction k with
  | zero => rwa [List.replicate_zero, List.append_nil]
  | succ k ih =>
    rw [List.replicate_succ', ← List.append_assoc]
    exact A.forgets on _ ih

/-- A closed connection keeps its history. -/
lemma of_closed (hstate : t'.state = .closed) (hhist : t'.history = t.history)
    (hsack : t'.sackEnabled = t.sackEnabled) : Keeps (Booked Past Link) t t' := fun h =>
  ⟨by rw [hhist, hsack]; exact h.past, fun hopen => absurd hstate hopen, fun hun => by rw [hstate] at hun; cases hun⟩

lemma of_carries (A : Accounts Past Link) (hc : Carries t t')
    (hclosed : t.state = .closed → t'.state = .closed)
    (hopened : unopened t'.state = true → unopened t.state = true) :
    Keeps (Booked Past Link) t t' := fun h => by
  obtain ⟨k, hk⟩ := hc.history
  refine ⟨?_, fun hopen => A.carries t t' hc (h.link fun hc => hopen (hclosed hc)), fun hun => ?_⟩
  · rw [hk, hc.sack]
    exact A.forgotten k h.past
  · exact (h.fresh (hopened hun)).carries hc

lemma of_steady (A : Accounts Past Link) (h : Steady t t') : Keeps (Booked Past Link) t t' :=
  A.of_carries h.toCarries (fun hs => h.state.trans hs) fun hs => by rwa [h.state] at hs

lemma leaves (A : Accounts Past Link) {α : Type} {x : TcbM P α} (h : Leaves Steady x) :
    Leaves (Keeps (Booked Past Link)) x := h.mono fun _ _ => A.of_steady

/-! ## A tick, and the other calls -/

lemma send (A : Accounts Past Link) : SendAtoms (Keeps (Booked Past Link)) where
  acks h := A.of_steady (steady_send.acks h)
  news len fin := A.leaves (steady_send.news len fin)
  resends i := A.leaves (steady_send.resends i)
  output := A.leaves steady_send.output

lemma fresh_reset (t : Tcb P) : Fresh t.resetConnectionState where
  unacked _ := nofun
  unsacked _ hmem := by
    have hnil : t.rtx.clear.records = [] := by
      simp [RtxQueue.records, RtxQueue.clear]
    change true ∈ arrived t.rtx.clear.records at hmem
    rw [hnil] at hmem
    cases hmem
  reno := rfl


lemma timer (A : Accounts Past Link) : TimerAtoms (Keeps (Booked (P := P) Past Link)) where
  toSendAtoms := A.send
  runs h := A.of_steady (.of_agree (h.of Steady.view))
  timesOut t := by
    rcases onRto_steady t with hlast | hsteady
    · rw [hlast]
      exact of_closed rfl rfl rfl
    · exact A.of_steady hsteady
  reorders now t := A.of_steady (rackTimer_steady now t)
  aborts _ := of_closed rfl rfl rfl
  closes _ := of_closed rfl rfl rfl
  ends _ := of_closed rfl rfl rfl
  givesUp t _ _ := A.of_fresh ((fresh_reset t).of_same rfl rfl rfl)

lemma moves (A : Accounts Past Link) {c : Call} (hc : c.moves = true) (t : Tcb P) :
    Keeps (Booked Past Link) t (final (c.run t)) := by
  cases htransfer : c.transfers with
  | true => exact A.of_steady (.of_transfer (c.transfer_footprint htransfer t))
  | false =>
    cases c with
    | updatePmtu mtu =>
      rw [Call.run, final_bind_pure]
      exact A.of_steady (updatePmtu_steady mtu t)
    | setMtu mtu =>
      -- Only before there is a connection.
      rw [Call.run, final_bind_pure]
      unfold Tcb.setMtu
      rw [run_get_bind]
      cases hs : t.state with
      | closed => exact of_closed hs rfl rfl
      | listen => exact fun h => A.of_fresh ((h.fresh (by rw [hs]; rfl)).of_same rfl rfl rfl)
      | synSent | synRcvd | established | finWait1 | finWait2 | closing | closeWait | lastAck
      | timeWait => exact id
    | send | sendReserve | sendFill | sendCommit | recv | extractPacket | extractPacketWith => cases htransfer
    | _ => cases hc

lemma api (A : Accounts Past Link) : ApiAtoms (Keeps (Booked (P := P) Past Link)) where
  timers := A.timer
  moves hc t := A.moves hc t
  opens t _ := A.of_fresh ((fresh_reset _).of_same rfl rfl rfl)
  offered t hs h := A.of_fresh ((h.fresh (by rw [hs]; rfl)).of_same rfl rfl rfl)
  listens t _ := A.of_fresh ((fresh_reset _).of_same rfl rfl rfl)
  closes t s hs ht := by
    refine A.of_carries (.of_agree rfl) (fun hc => ?_) (fun hun => ?_)
    · rcases ht with ht | ht | ht <;> rw [ht] at hc <;> cases hc
    · rcases hs with rfl | rfl <;> cases hun
  unopens t _ := A.of_fresh ((fresh_reset _).of_same rfl rfl rfl)
  gives _ := of_closed rfl rfl rfl

/-! ## A segment -/

/-- The connection moves on to another state of its life. -/
lemma of_moved (A : Accounts Past Link) {s : State} (hc : Carries t t') (hs : t.state = s)
    (hopen : s ≠ .closed) (hopened : unopened t'.state = false) : Keeps (Booked Past Link) t t' := by
  refine A.of_carries hc (fun h => absurd (hs.symm.trans h) hopen) fun h => ?_
  rw [hopened] at h
  cases h

lemma finAcked (A : Accounts Past Link) (t : Tcb P) : Keeps (Booked Past Link) t t.ourFinAcked := by
  unfold ourFinAcked
  split
  · split
    case h_1 hs => exact A.of_moved (.of_closing ..) hs nofun rfl
    case h_2 hs =>
      unfold enterTimeWait
      generalize Deadline.atMs (satAdd t.nowMs TIME_WAIT_MS) = d
      exact A.of_moved (.of_closing ..) hs nofun rfl
    case h_3 => exact of_closed rfl rfl rfl
    case h_4 => exact id
  · exact id

lemma of_intake (A : Accounts Past Link) (hframe : Agree exceptIntake t t')
    (hstate : t'.state = t.state ∨ t.state.canRecv = true ∧ t'.state = t.finNext) :
    Keeps (Booked Past Link) t t' := by
  have hc : Carries t t' := .of_agree (hframe.of Carries.ledger)
  rcases hstate with hs | ⟨hrecv, hs⟩
  · exact A.of_steady ⟨hc, hs⟩
  · refine A.of_moved hc rfl (fun hclosed => ?_) ?_
    · rw [hclosed] at hrecv
      cases hrecv
    · rw [hs]
      unfold finNext
      cases hst : t.state with
      | established | finWait2 => rfl
      | finWait1 =>
        dsimp only
        split <;> rfl
      | closed | listen | synSent | synRcvd | closing | closeWait | lastAck | timeWait =>
        rw [hst] at hrecv
        cases hrecv

lemma quiet (A : Accounts Past Link) (seg : Segment) :
    QuietAtoms (Keeps (Booked (P := P) Past Link)) seg where
  toSendAtoms := A.send
  retries _ := A.of_steady (.of_agree rfl)
  finAcked := A.finAcked
  notes t := A.of_steady (.of_noted (noteSegment_noted t seg))
  notesOld t := A.of_steady (.of_noted (noteOld_noted t seg))
  takes t := A.of_intake (receiveSegment_frame t seg) (receiveSegment_state t seg)
  duplicate _ := A.of_steady (.of_agree rfl)
  lingers t := by
    unfold restartTimeWait
    generalize Deadline.atMs _ = d
    exact A.of_steady ⟨.of_closing .., rfl⟩
  resets _ t := by
    unfold onResetReceived
    split <;> exact of_closed rfl rfl rfl

/-- A segment to a synchronized connection. -/
lemma synced (A : Accounts Past Link) {seg : Segment} (hf : Flight t)
    (hstate : t.state.isSynchronized = true) :
    Keeps (Booked Past Link) t (final (onSynchronized seg t)) := fun h => by
  rcases (A.quiet seg).onSynchronized t with hquiet | ⟨u, hu, hafter⟩
  · exact hquiet h
  have hsteady : Steady t u :=
    trans_of Steady (.of_agree rfl : Steady t { t with rtxCount := 0 }) (.of_noted hu.agree)
  have hbooked := A.of_steady hsteady h
  have hopen : u.state ≠ .closed := fun hc => by
    rw [← hsteady.state, hc] at hstate
    cases hstate
  have hfu : Flight u := hf.of_agree (hu.agree.of Flight.view)
  have hok : u.ackAcceptable seg.ack = true :=
    (hu.agree.of fun t => t.ackAcceptable seg.ack).trans hu.acceptable
  obtain ⟨r, hreact⟩ := reactToAck_reacted hfu (hsteady.una ▸ hu.current)
    (not_after_of_ackAcceptable hok)
  obtain ⟨hpast, hlink⟩ := A.reacts u _ r hfu hreact hbooked.past (hbooked.link hopen)
  have hstate' : (final (reactToAck seg u)).state = u.state := (reactToAck_react seg u).of Tcb.state
  refine hafter ⟨hpast, fun _ => hlink, fun hun => ?_⟩
  rw [hstate', hsteady.state] at hun
  have hno (s : State) (hsync : s.isSynchronized = true) : unopened s = false := by
    cases s <;> first | rfl | cases hsync
  rw [hno _ hstate] at hun
  cases hun

/-- Our SYN was acknowledged. -/
lemma fresh_activeOpened (h : Fresh t) (seg : Segment) : Fresh (t.activeOpened seg) := by
  unfold activeOpened
  dsimp only
  refine Fresh.of_same (Fresh.carries (h.of_same ?_ ?_ ?_) (Steady.of_agree (sampleRtt_view _ _)).toCarries) rfl rfl rfl
  all_goals rfl

lemma fresh_passiveOpened (h : Fresh t) (seg : Segment) : Fresh (t.passiveOpened seg) := by
  unfold passiveOpened
  dsimp only
  refine Fresh.of_same (Fresh.carries (h.of_same ?_ ?_ ?_) (Steady.of_agree (sampleRtt_view _ _)).toCarries) rfl rfl rfl
  all_goals rfl

/-- A half-open connection. -/
lemma fresh_accepted (t : Tcb P) (seg : Segment) : Fresh (final (acceptSynStateful seg t)) := by
  have hstart : Fresh (t.halfOpen seg) := (fresh_reset t).of_same rfl rfl rfl
  have hack : AckAtoms (Keeps (Fresh (P := P))) :=
    ⟨fun hsame h => h.carries (steady_send.acks hsame).toCarries⟩
  have hoffer : Leaves (Keeps (Fresh (P := P))) (emitSynack >>= fun _ => modify fun t =>
      ({ t with sndNxt := t.iss + 1, synUnacked := true } : Tcb P).armRto) :=
    Leaves.bind (hack.ack emitSynack_footprint) fun _ => Leaves.ofModify fun _ h => h.of_same rfl rfl rfl
  exact hoffer _ hstart

lemma both (hf : Flight t → Flight t') (hb : Keeps (Booked Past Link) t t') :
    Keeps (fun t => Flight t ∧ Booked Past Link t) t t' := fun h => ⟨hf h.1, hb h.2⟩

lemma inject (A : Accounts Past Link) (seg : Segment) :
    InjectAtoms (Keeps fun t : Tcb P => Flight t ∧ Booked Past Link t) seg where
  acks hsame := both (fun h => h.of_agree (hsame.of Flight.view)) (A.send.acks hsame)
  counts t := both (fun h => h.of_agree rfl) (A.of_steady (.of_agree rfl))
  forgets t := both ((Flight.stable.on none).run (Refines.ofModify (resetToListenOrClosed_leads t)))
    fun _ => A.of_fresh ((fresh_reset t).of_same rfl rfl rfl)
  aborts t := both ((Flight.stable.on none).run (Refines.ofModify (leads_quiet .abort rfl))) (of_closed rfl rfl rfl)
  arms t := both (fun h => h.of_agree rfl) (A.of_steady (.of_agree rfl))
  connects t hs hlo hhi := both
    (fun h => by
      rw [← Flight.stable.core, activeOpened_core, Flight.stable.core]
      exact h.synAnswered hs hlo hhi)
    fun h => A.of_fresh (fresh_activeOpened (h.fresh (by rw [hs]; rfl)) seg)
  crosses t hs := both (fun h => (h.crossed hs).of_agree rfl)
    fun h => A.of_fresh ((h.fresh (by rw [hs]; rfl)).of_same rfl rfl rfl)
  opens t hs hack := both
    (fun h => by
      rw [← Flight.stable.core, passiveOpened_core, Flight.stable.core]
      exact h.synackAnswered hs hack)
    fun h => A.of_fresh (fresh_passiveOpened (h.fresh (by rw [hs]; rfl)) seg)
  accepts t hs hsyn := both
    (Flight.stable.run (acceptSynStateful_refines hs hsyn.1 hsyn.2.1 hsyn.2.2.1 hsyn.2.2.2))
    fun _ => A.of_fresh (fresh_accepted t seg)
  promotes t u opts _ := both
    (fun h => Flight.of_empty h.queue.exact rfl (BitVec.add_zero _) nofun nofun rfl)
    fun _ => A.of_fresh ((fresh_reset t).of_same rfl rfl rfl)
  cookies t := both (fun h => h.of_agree rfl) (A.of_steady (.of_agree rfl))
  synced t hs h := ⟨Flight.stable.run (onSynchronized_refines hs) h.1, A.synced h.1 hs h.2⟩

/-! ## Whole runs -/

/-- What the other calls do. -/
lemma own (A : Accounts Past Link) {c : Call} (hc : c.injects = false) (t : Tcb P) :
    Keeps (Booked Past Link) t (final (c.run t)) := by
  by_cases htunes : c.tunes = true
  · exact A.of_steady (.of_set (c.set_footprint htunes t))
  · cases hs : c.sets with
    | false => exact A.api.run hs hc t
    | true =>
      cases c with
      | reinit cfg => exact fun _ => A.of_fresh ((fresh_reset _).of_same rfl rfl rfl)
      | setNow | setEgressPaused | setTxCsumOffload | setKeepalive | setUserTimeout | setFinWait2Timeout
      | setSecret | setCookieSecret => exact absurd rfl htunes
      | _ => cases hs

/-- The accounts hold in every reachable block. -/
theorem reachable (A : Accounts Past Link) (h : Reachable t) : Booked Past Link t := by
  induction h with
  | new cfg => exact A.of_fresh ((fresh_reset _).of_same rfl rfl rfl)
  | @step t t' c hreach hcall ih =>
    rw [hcall.2]
    cases hc : c.injects with
    | true => exact (InjectAtoms.run A.inject hc t ⟨hreach.flight, ih⟩).2
    | false => exact A.own hc t ih

end Accounts

end Tcb

end TcpSansIo
