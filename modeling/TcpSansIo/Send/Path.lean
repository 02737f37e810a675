import TcpSansIo.Send.Stream
import TcpSansIo.Tcb.Host

/-!
# The send path

What a whole run says about the bytes the application handed over.  Every data segment carries the stream at
its place and our FIN stands at its end (`Send/Stream`); here the two facts are added that speak of single
calls.  Only `close` takes a connection to a state in which a FIN is sent (`Call.shut_of_close`), and a
packet takes off the send ring exactly the bytes of the stream that its ACK covers (`Onward.consumed`).
-/

namespace TcpSansIo

open Proc FixedWidth

variable {P : Params}

namespace State

/-- The application closed the connection, and it is not over. -/
def shut : State → Bool
  | .finWait1 | .finWait2 | .closing | .timeWait | .lastAck => true
  | _ => false

end State

namespace Tcb

/-! ## What a packet leaves alone -/

/-- Which connection it is, and what the application handed over on it. -/
def fed (t : Tcb P) : ℕ × List U8 := (t.epoch, t.accepted)

lemma exceptTransmit_fed (t : Tcb P) : t.exceptTransmit.fed = t.fed := rfl

lemma exceptSegment_fed (t : Tcb P) : t.exceptSegment.fed = t.fed := rfl

lemma exceptIntake_fed (t : Tcb P) : t.exceptIntake.fed = t.fed := rfl

lemma exceptNoted_fed (t : Tcb P) : t.exceptNoted.fed = t.fed := rfl

lemma agree_noted {t t' : Tcb P} (h : Agree exceptNoted t t') : Agree fed t t' := by
  rw [Agree, ← exceptNoted_fed t', h, exceptNoted_fed]

/-- Output hands over nothing. -/
lemma fed_send : SendAtoms (Agree (fed (P := P))) := .ofTransmit fun {t t'} h => by
  rw [Agree, ← exceptTransmit_fed t', h, exceptTransmit_fed]

/-- Neither does a segment of a synchronized connection. -/
lemma fed_segment (seg : Segment) : SegmentAtoms (Agree (fed (P := P))) seg where
  toSendAtoms := fed_send
  retries _ := rfl
  reacts := (reactToAck_react seg).agree_of fed fun _ => rfl
  finAcked t := by
    rw [Agree, ← exceptSegment_fed t.ourFinAcked, ourFinAcked_frame t, exceptSegment_fed]
  notes t := agree_noted (noteSegment_noted t seg)
  notesOld t := agree_noted (noteOld_noted t seg)
  takes t := by
    rw [Agree, ← exceptIntake_fed (t.receiveSegment seg).2, receiveSegment_frame t seg, exceptIntake_fed]
  duplicate _ := rfl
  lingers t := by
    unfold restartTimeWait
    generalize Deadline.atMs _ = d
    rfl
  resets _ t := by
    unfold onResetReceived
    split <;> rfl

/-- The application closed nothing and, on the same connection, handed over nothing. -/
structure Unfed (t t' : Tcb P) : Prop where
  epoch : t.epoch ≤ t'.epoch
  accepted : t'.epoch = t.epoch → t'.accepted = t.accepted
  shut : t'.state.shut = true → t.state.shut = true

instance : Std.Refl (Unfed (P := P)) := ⟨fun _ => ⟨le_refl _, fun _ => rfl, id⟩⟩

instance : IsTrans (Tcb P) Unfed where
  trans t u v h h' := by
    have hle := h.epoch
    have hle' := h'.epoch
    refine ⟨hle.trans hle', fun he => ?_, h.shut ∘ h'.shut⟩
    rw [h'.accepted (by omega), h.accepted (by omega)]

namespace Unfed

variable {t t' : Tcb P}

/-- The same connection goes on, or ends. -/
lemma of_fed (h : Agree fed t t') (hshut : t'.state.shut = true → t.state.shut = true) : Unfed t t' :=
  ⟨(h.of Prod.fst).ge, fun _ => h.of Prod.snd, hshut⟩

lemma of_same (h : Agree fed t t') (hstate : Agree state t t') : Unfed t t' :=
  .of_fed h (by rw [show t'.state = t.state from hstate]; exact id)

/-- Another connection begins. -/
lemma of_new (hepoch : t'.epoch = t.epoch + 1) (hstate : t'.state.shut = false) : Unfed t t' :=
  ⟨by omega, fun he => by omega, fun h => by rw [hstate] at h; cases h⟩

end Unfed

lemma shut_of_segmentEdge {a b : State} :
    State.segmentEdge a b = true → b.shut = true → a.shut = true := by
  cases a <;> cases b <;> decide

lemma shut_of_begun {t : Tcb P} (h : t.begun = true) (hfin : finStates t.state = true) :
    t.state.shut = true := by
  rw [begun] at h
  revert h hfin
  cases t.state <;> decide

lemma shut_of_timerEdge {a b : State} : State.timerEdge a b = true → b.shut = true → a.shut = true := by
  cases a <;> cases b <;> decide

lemma unfed_ack : AckAtoms (Unfed (P := P)) where
  acks h := .of_same (h.of fed) (h.of state)

/-- A packet hands over nothing and closes nothing, whatever the state it finds. -/
lemma unfed_inject (seg : Segment) : InjectAtoms (Unfed (P := P)) seg where
  toAckAtoms := unfed_ack
  counts _ := .of_same rfl rfl
  forgets t := .of_new rfl (by rw [resetToListenOrClosed_state]; split <;> rfl)
  aborts _ := .of_fed rfl nofun
  arms _ := .of_same rfl rfl
  connects t _ _ _ := .of_fed ((sampleRtt_react _ _).of fed) nofun
  crosses _ _ := .of_fed rfl nofun
  opens t _ _ := .of_fed ((sampleRtt_react _ _).of fed) nofun
  accepts t _ _ := unfed_ack.acceptSynStateful (fun _ => .of_new rfl rfl) (fun _ => .of_same rfl rfl) t
  promotes _ _ _ _ := .of_new rfl rfl
  cookies _ := .of_same rfl rfl
  synced t _ := .of_fed ((fed_segment seg).onSynchronized t) (shut_of_segmentEdge (onSynchronized_moves seg t))

/-! ## What is acknowledged stays acknowledged -/

/-- On the same connection the acknowledged part of the stream grows, and its FIN stays acknowledged. -/
structure Onward (t t' : Tcb P) : Prop where
  epoch : t.epoch ≤ t'.epoch
  same : t'.epoch = t.epoch → t'.begun = true →
    t.begun = true ∧ t'.iss = t.iss ∧ t.ackedBytes ≤ t'.ackedBytes ∧ (t.finDone = true → t'.finDone = true)

namespace Onward

variable {t u t' : Tcb P}

lemma refl (t : Tcb P) : Onward t t := ⟨le_refl _, fun _ hbegun => ⟨hbegun, rfl, le_refl _, id⟩⟩

lemma trans (h : Onward t u) (h' : Onward u t') : Onward t t' := by
  have hle := h.epoch
  have hle' := h'.epoch
  refine ⟨hle.trans hle', fun he hbegun => ?_⟩
  obtain ⟨hmid, hiss', hacked', hfin'⟩ := h'.same (by omega) hbegun
  obtain ⟨hstart, hiss, hacked, hfin⟩ := h.same (by omega) hmid
  exact ⟨hstart, hiss'.trans hiss, hacked.trans hacked', hfin' ∘ hfin⟩

/-- Another connection begins. -/
lemma of_new (h : t'.epoch = t.epoch + 1) : Onward t t' := ⟨by omega, fun he => by omega⟩

/-- The connection is over. -/
lemma of_over (he : t'.epoch = t.epoch) (hover : t'.begun = false) : Onward t t' :=
  ⟨he.ge, fun _ hbegun => by rw [hover] at hbegun; cases hbegun⟩

/-- Nothing is acknowledged. -/
lemma of_seq (he : t'.epoch = t.epoch) (hseq : t'.toSendSeq = t.toSendSeq)
    (hacked : t'.ackedBytes = t.ackedBytes) (hbegun : t.begun = true ∨ t'.begun = t.begun) : Onward t t' := by
  have huna : t'.sndUna = t.sndUna := congrArg SendSeq.sndUna hseq
  have hnxt : t'.sndNxt = t.sndNxt := congrArg SendSeq.sndNxt hseq
  have hfin : t'.finSent = t.finSent := congrArg SendSeq.finSent hseq
  refine ⟨he.ge, fun _ hlive => ⟨?_, congrArg SendSeq.iss hseq, hacked.ge, ?_⟩⟩
  · rcases hbegun with hb | hb
    · exact hb
    · exact hb.symm.trans hlive
  · rw [finDone, finDone, huna, hnxt, hfin]
    exact id

/-- Before a FIN is acknowledged, anything else may be. -/
lemma of_acked (he : t'.epoch = t.epoch) (hiss : t'.iss = t.iss) (hacked : t.ackedBytes ≤ t'.ackedBytes)
    (hfin : t.finDone = false) (hbegun : t.begun = true) : Onward t t' :=
  ⟨he.ge, fun _ _ => ⟨hbegun, hiss, hacked, fun h => by rw [hfin] at h; cases h⟩⟩

end Onward

/-- Every step of the machine goes onward: only an ACK takes anything off, and none takes back. -/
lemma onward_step {t t' : Tcb P} {l : Option Segment} (hstep : Step t l t') (h : Ledger t) :
    Onward t t' := by
  have hopen {s : State} (hs : t.state = s) (h₀ : finStates s = false) : t.finDone = false := by
    simp [finDone, h.backlog.finSent_of_open hs h₀]
  cases hstep with
  | first now hnew =>
    refine .of_acked rfl rfl (le_refl _) ?_ (h.begun_of_new hnew)
    simp [finDone, h.backlog.finSent_of_new hnew]
  | @acked seg q rto tlp hstate hlo hhi hne =>
    refine .of_acked rfl rfl (Nat.sub_le_sub_left (Nat.sub_le _ _) _) ?_ (begun_of_synchronized hstate)
    simp [finDone, h.backlog.flight.una_ne_of_acked hne hlo hhi]
  | finWait2 hstate => exact .of_seq rfl rfl rfl (.inl (begun_of_state hstate (by decide)))
  | timeWait hstate => exact .of_seq rfl rfl rfl (.inl (begun_of_state hstate (by decide)))
  | @segment seg hstate =>
    have hframe := receiveSegment_frame t seg
    exact .of_seq (hframe.of fun t => t.epoch) (hframe.of fun t => t.toSendSeq)
      (hframe.of fun t => t.ackedBytes) (.inl (begun_of_canRecv hstate))
  | @accept bytes ring hstate hring =>
    refine .of_seq rfl rfl ?_ (.inr rfl)
    have hle := h.len_le
    have hlen : ring.len = t.sendRing.len + bytes.length := by
      rw [← Ring.length_contents, hring, List.length_append, Ring.length_contents]
    change (t.accepted ++ bytes).length - ring.len = t.accepted.length - t.sendRing.len
    rw [hlen, List.length_append]
    omega
  | @close s hstate =>
    refine .of_seq rfl rfl rfl (.inl ?_)
    rcases hstate with ⟨hs | hs, -⟩ | ⟨hs, -⟩ <;> exact begun_of_state hs (by decide)
  | abort => exact .of_over rfl rfl
  | closeClean => exact .of_over rfl rfl
  | timeWaitOver => exact .of_over rfl rfl
  | reset => exact .of_new rfl
  | connected => exact .of_new rfl
  | halfOpened => exact .of_new rfl
  | activeOpened hstate =>
    exact .of_acked rfl rfl (le_refl _) (hopen hstate rfl) (begun_of_state hstate (by decide))
  | simultaneous hstate => exact .of_seq rfl rfl rfl (.inl (begun_of_state hstate (by decide)))
  | passiveOpened hstate =>
    exact .of_acked rfl rfl (le_refl _) (hopen hstate rfl) (begun_of_state hstate (by decide))
  | cookieOpened => exact .of_new rfl
  | _ => exact .of_seq rfl rfl rfl (.inr rfl)

lemma Onward.stable (hbuf : P.BUF < 2 ^ 32) (t₀ : Tcb P) : Stable fun t => Ledger t ∧ Onward t₀ t where
  core t := and_congr ((Ledger.stable hbuf).core t) ⟨fun h => ⟨h.epoch, h.same⟩, fun h => ⟨h.epoch, h.same⟩⟩
  step t l t' hstep h := ⟨Ledger.step hbuf t l t' hstep h.1, h.2.trans (onward_step hstep h.1)⟩

/-- What goes off the ring is what the peer acknowledged of the stream. -/
lemma Onward.consumed (hbuf : P.BUF < 2 ^ 32) {t t' : Tcb P} (hon : Onward t t') (h : Ledger t)
    (h' : Ledger t') (he : t'.epoch = t.epoch) (hlive : t'.begun = true) (hacc : t'.accepted = t.accepted) :
    ∃ n ≤ t.sendRing.len, t'.sendRing.contents = t.sendRing.contents.drop n ∧
      (t'.dataUna - t.dataUna).toNat = n + (t'.finDone.toNat - t.finDone.toNat) := by
  obtain ⟨hbegun, hiss, hacked, hfin⟩ := hon.same he hlive
  have hsum : t.ackedBytes + t.sendRing.len = t.accepted.length := Nat.sub_add_cancel h.len_le
  have hsum' : t'.ackedBytes + t'.sendRing.len = t'.accepted.length := Nat.sub_add_cancel h'.len_le
  rw [hacc] at hsum'
  refine ⟨t'.ackedBytes - t.ackedBytes, by omega, ?_, ?_⟩
  · rw [h'.kept, h.kept, hacc, List.drop_drop, Nat.add_sub_cancel' hacked]
  · have hplace := h.place hbegun
    have hplace' := h'.place hlive
    have hcap := t.sendRing.len_le
    have hpow : P.BUF ≤ 2 ^ 31 := by
      obtain ⟨k, -, hk⟩ := P.buf_pow2
      rw [hk] at hbuf ⊢
      have hlt : k < 32 := (Nat.pow_lt_pow_iff_right (by decide)).mp hbuf
      exact Nat.pow_le_pow_right (by decide) (Nat.lt_succ_iff.mp hlt)
    have hflag : t.finDone.toNat ≤ t'.finDone.toNat := Bool.toNat_le_toNat hfin
    have hone := t'.finDone.toNat_le
    have hgrown : t'.ackedBytes + t'.finDone.toNat = t.ackedBytes + t.finDone.toNat +
        (t'.ackedBytes - t.ackedBytes + (t'.finDone.toNat - t.finDone.toNat)) := by omega
    have hdiff (x y : U32) : x + y - x = y := by rw [BitVec.add_comm, BitVec.add_sub_cancel]
    rw [hplace', hplace, hiss, hgrown, BitVec.ofNat_add, ← BitVec.add_assoc, hdiff, BitVec.toNat_ofNat,
      Nat.mod_eq_of_lt (by omega)]

lemma shut_of_connect {t : Tcb P} (h : (final (connect t)).state.shut = true) : t.state.shut = true := by
  by_cases hs : t.state = .closed
  · have hedge := connect_state t
    rw [hs] at hedge ⊢
    revert hedge h
    cases (final (connect t)).state <;> decide
  · unfold connect at h
    rwa [run_get_bind, if_pos hs] at h

lemma shut_of_listen {t : Tcb P} (h : (final (listen t)).state.shut = true) : t.state.shut = true := by
  have hedge := listen_state t
  revert hedge h
  cases hs : t.state with
  | closed | listen => cases (final (listen t)).state <;> decide
  | finWait1 | finWait2 | closing | timeWait | lastAck => exact fun _ _ => rfl
  | synSent | established | closeWait | synRcvd =>
    unfold listen
    rw [run_get_bind, hs]
    intro h _
    change t.state.shut = true at h
    rwa [hs] at h

end Tcb

open Tcb

/-- Only `close` takes a connection to a state in which a FIN is sent. -/
lemma Call.shut_of_close {c : Call} (hc : c ≠ .close) (t : Tcb P)
    (h : (final (c.run t)).state.shut = true) : t.state.shut = true := by
  have same {t' : Tcb P} (hs : t'.state = t.state) (h : t'.state.shut = true) : t.state.shut = true := by
    rwa [hs] at h
  cases c with
  | close => exact absurd rfl hc
  | injectPacket => exact (InjectAtoms.run unfed_inject rfl t).shut h
  | injectPacketL4CsumTrusted => exact (InjectAtoms.run unfed_inject rfl t).shut h
  | setMtu | updatePmtu | send | sendReserve | sendFill | sendCommit | recv | extractPacket
  | extractPacketWith => exact same (state_of_data (Call.data_footprint rfl t)) h
  | setNow | setEgressPaused | setTxCsumOffload | setKeepalive | setUserTimeout | setFinWait2Timeout
  | setSecret | setCookieSecret => exact same (state_of_set (Call.set_footprint rfl t)) h
  | reinit => exact absurd h (by rw [show (final ((Call.reinit _).run t)).state = .closed from rfl]; decide)
  | tick =>
    rw [Call.run, final_bind_pure] at h
    exact shut_of_timerEdge (runTimers_moves t) h
  | abort =>
    rw [Call.run, final_bind_pure] at h
    exact shut_of_timerEdge (abort_moves t) h
  | connect =>
    rw [Call.run, final_bind_pure] at h
    exact shut_of_connect h
  | listen =>
    rw [Call.run, final_bind_pure] at h
    exact shut_of_listen h

/-- Every data segment, first or again, carries the stream at its place, and the FIN stands at its end; a
FIN is sent only after the application closed, and only `close` does that; and a packet takes off the send
ring exactly the bytes by which the oldest unacknowledged sequence number of the stream moves, our FIN not
counted. -/
theorem send_path (hbuf : P.BUF < 2 ^ 32) {t : Tcb P} (ht : Reachable t) :
    (∀ e ∈ t.sent, e.payload ≠ [] ∨ e.header.flags.fin = true → e.InStream t.iss t.accepted) ∧
      (∀ e ∈ t.sent, e.header.flags.fin = true → e.state.shut = true) ∧
      (∀ c : Call, c ≠ .close → (final (c.run t)).state.shut = true → t.state.shut = true) ∧
      ∀ (c : Call) (t' : Tcb P), c.injects = true → CallStep t c t' → t'.epoch = t.epoch → t'.begun = true →
        ∃ n ≤ t.sendRing.len, t'.sendRing.contents = t.sendRing.contents.drop n ∧
          (t'.dataUna - t.dataUna).toNat = n + (t'.finDone.toNat - t.finDone.toNat) := by
  have hledger := ht.ledger hbuf
  refine ⟨(ht.outgoing hbuf).data, ?_, fun c hc => Call.shut_of_close hc t, ?_⟩
  · have hstable := (Ledger.stable (P := P) hbuf).sent
      (Q := fun e => e.header.flags.fin = true → e.state.shut = true) fun t e hl he hfin => by
        obtain ⟨hstate, hbegun, hclosed⟩ := (he.inStream hbuf hl (.inr hfin)).2.2.2 hfin
        rw [hstate]
        exact shut_of_begun hbegun hclosed
    exact (ht.stable hstable fun cfg => ⟨(Reachable.new cfg).ledger hbuf, new_sent cfg⟩).2
  · intro c t' hc hcall he hlive
    have hon := (Onward.stable hbuf t).call c t ⟨hledger, .refl t⟩
    have hunfed := InjectAtoms.run (unfed_inject (P := P)) hc t
    rw [← hcall.2] at hon hunfed
    exact hon.2.consumed hbuf hledger hon.1 he hlive (hunfed.accepted he)

/-- The tiny client has three bytes in flight, of which the peer acknowledges two. -/
def tinyThree : Tcb tiny := runAll [.send [1, 2, 3], .tick] tinyOpen

def ackTwo : Call := .injectPacket (datagram { peerAck with ack := 103 } [])

theorem tinyThree_gives_two :
    tinyThree.sendRing.contents = [1, 2, 3] ∧ (runAll [ackTwo] tinyThree).sendRing.contents = [3] ∧
      ∃ n ≤ tinyThree.sendRing.len,
        (runAll [ackTwo] tinyThree).sendRing.contents = tinyThree.sendRing.contents.drop n ∧
        ((runAll [ackTwo] tinyThree).dataUna - tinyThree.dataUna).toNat =
          n + ((runAll [ackTwo] tinyThree).finDone.toNat - tinyThree.finDone.toNat) := by
  have hreach : Reachable tinyThree := reachable_tinyOpen.runAll (by decide +kernel)
  have hcall : CallStep tinyThree ackTwo (runAll [ackTwo] tinyThree) :=
    callStep_runAll (by decide +kernel)
  exact ⟨by decide +kernel, by decide +kernel, (send_path (by decide) hreach).2.2.2 ackTwo _ rfl hcall
    (by decide +kernel) (by decide +kernel)⟩

/-! ## Rings of 2³² bytes -/

namespace Tcb

/-- What is buffered was accepted, and so was whatever was accepted when a segment was staged. -/
structure Noted (t : Tcb P) : Prop where
  held : t.sendRing.len ≤ t.accepted.length
  sent : ∀ e ∈ t.sent, e.accepted <+: t.accepted

namespace Noted

variable {t u : Tcb P}

lemma of_new (hring : u.sendRing.len = 0) (h : ∀ e ∈ u.sent, e.accepted = []) : Noted u :=
  ⟨hring ▸ Nat.zero_le _, fun e he => by rw [h e he]; exact List.nil_prefix⟩

lemma of_empty (hring : u.sendRing.len = 0) (hsent : u.sent = []) : Noted u :=
  of_new hring fun e he => by rw [hsent] at he; cases he

lemma of_emit {e : Emission P} (h : Noted t) (hring : u.sendRing = t.sendRing)
    (hacc : u.accepted = t.accepted) (he : e.accepted = t.accepted) (hsent : u.sent = t.sent ++ [e]) :
    Noted u := by
  refine ⟨by rw [hring, hacc]; exact h.held, fun x hx => ?_⟩
  rw [hsent, List.mem_append, List.mem_singleton] at hx
  rw [hacc]
  rcases hx with hx | rfl
  · exact h.sent x hx
  · rw [he]

lemma step (t : Tcb P) (l : Option Segment) (t' : Tcb P) (hstep : Step t l t') (h : Noted t) : Noted t' := by
  have hsyn {u u' : Tcb P} {hd : Header} {pkt : List U8} (hacc : u.accepted = [])
      (hring : u'.sendRing.len = 0) (hsent : u'.sent = [u.emission hd [] pkt]) : Noted u' := by
    refine of_new hring fun e he => ?_
    rw [hsent, List.mem_singleton] at he
    rw [he]
    exact hacc
  cases hstep with
  | control => exact h.of_emit rfl rfl rfl rfl
  | stateless => exact h.of_emit rfl rfl rfl rfl
  | first => exact h.of_emit rfl rfl rfl rfl
  | again => exact h.of_emit rfl rfl rfl rfl
  | acked => exact ⟨(Nat.sub_le _ _).trans h.held, h.sent⟩
  | @segment seg =>
    have hframe := receiveSegment_frame t seg
    refine ⟨?_, ?_⟩
    · rw [show (t.receiveSegment seg).2.sendRing = t.sendRing from hframe.of fun t => t.sendRing,
        show (t.receiveSegment seg).2.accepted = t.accepted from hframe.of fun t => t.accepted]
      exact h.held
    · rw [show (t.receiveSegment seg).2.sent = t.sent from hframe.of fun t => t.sent,
        show (t.receiveSegment seg).2.accepted = t.accepted from hframe.of fun t => t.accepted]
      exact h.sent
  | @accept bytes ring hstate hring =>
    refine ⟨?_, fun e he => (h.sent e he).trans (List.prefix_append _ _)⟩
    have hlen : ring.len = t.sendRing.len + bytes.length := by
      rw [← Ring.length_contents, hring, List.length_append, Ring.length_contents]
    change ring.len ≤ (t.accepted ++ bytes).length
    rw [hlen, List.length_append]
    exact Nat.add_le_add_right h.held _
  | abort => exact ⟨Nat.zero_le _, h.sent⟩
  | closeClean => exact ⟨Nat.zero_le _, h.sent⟩
  | reset => exact of_empty rfl rfl
  | connected => exact hsyn rfl rfl rfl
  | halfOpened => exact hsyn rfl rfl rfl
  | cookieOpened => exact of_empty rfl rfl
  | _ => exact ⟨h.held, h.sent⟩

lemma stable : Stable (Noted (P := P)) where
  core _ := ⟨fun h => ⟨h.held, h.sent⟩, fun h => ⟨h.held, h.sent⟩⟩
  step := step

/-- A FIN that is sent where the buffered bytes begin is not at the end of the stream. -/
lemma not_inStream (h : Noted t) {e : Emission P} (he : e ∈ t.sent) (hring : 0 < t.sendRing.len)
    (hheld : 0 < e.sendRing.len) (hseq : e.header.seq = e.dataUna) (hnil : e.payload = [])
    (hfin : e.header.flags.fin = true) : ¬ e.InStream t.iss t.accepted := by
  intro hin
  have hend := hin.fin hfin
  have hpre := (h.sent e he).length_le
  have hlen := h.held
  rw [Emission.offset, hseq, BitVec.sub_self, hnil, List.length_nil, BitVec.toNat_zero] at hend
  omega

end Noted

end Tcb

/-- The client that filled its ring of 2³² bytes closes. -/
def vastShut : Tcb vast := runAll [.extractPacketWith, .close] vastFull

/-- Counted in 32 bits the ring is empty, so the FIN goes out before the stream. -/
theorem full_ring_sends_fin_first :
    Reachable vastShut ∧ 2 ^ 32 ≤ vastShut.accepted.length ∧
      (vastShut.sent.map fun e => (e.header.seq, e.payload, e.header.flags.fin)) =
        [(100, [], false), (101, [], false), (101, [], true)] ∧
      ∃ e ∈ vastShut.sent, e.header.flags.fin = true ∧ ¬ e.InStream vastShut.iss vastShut.accepted := by
  have hreach : Reachable vastShut := reachable_vastFull.runAll (by decide +kernel)
  have hnoted : Noted vastShut := hreach.stable Noted.stable fun cfg => ⟨Nat.zero_le _, new_sent cfg⟩
  have hfull : 2 ^ 32 ≤ vastShut.sendRing.len := by decide +kernel
  have hany : (vastShut.sent.any fun e => decide (0 < e.sendRing.len) && e.header.seq == e.dataUna &&
      e.payload.isEmpty && e.header.flags.fin) = true := by decide +kernel
  refine ⟨hreach, hfull.trans hnoted.held, by decide +kernel, ?_⟩
  obtain ⟨e, hmem, he⟩ := List.any_eq_true.mp hany
  simp only [Bool.and_eq_true, beq_iff_eq, List.isEmpty_iff, decide_eq_true_iff] at he
  obtain ⟨⟨⟨hheld, hseq⟩, hnil⟩, hfin⟩ := he
  exact ⟨e, hmem, hfin, hnoted.not_inStream hmem (Nat.lt_of_lt_of_le (by decide) hfull) hheld hseq hnil hfin⟩

end TcpSansIo
