import TcpSansIo.Tcb.Calls
import TcpSansIo.Transitions

/-!
# What belongs to the host

The local endpoint, the knobs, the keys and the clock are the host's: only a call that sets one changes
it (`Call.hosted`).  All else a connection does to them is to mark the cookie key as used.
-/

namespace TcpSansIo

open Proc FixedWidth

variable {P : Params}

namespace Tcb

/-- The local endpoint, the knobs, the keys and the clock. -/
def hostSide (t : Tcb P) : Endpoint × Knobs × Secrets × U64 :=
  (t.localEp, t.toKnobs, { t.toSecrets with cookieSecretUsed := false }, t.nowMs)

/-- What the host set is still there, and the cookie key is not forgotten to have been used. -/
structure Hosted (t t' : Tcb P) : Prop where
  same : Agree hostSide t t'
  used : t.cookieSecretUsed = true → t'.cookieSecretUsed = true

instance : Std.Refl (Hosted (P := P)) := ⟨fun _ => ⟨rfl, id⟩⟩

instance : IsTrans (Tcb P) Hosted :=
  ⟨fun _ _ _ h h' => ⟨trans_of (Agree hostSide) h.same h'.same, h'.used ∘ h.used⟩⟩

/-- The host's fields, with the mark. -/
def hostAll (t : Tcb P) : Endpoint × Knobs × Secrets × U64 :=
  (t.localEp, t.toKnobs, t.toSecrets, t.nowMs)

/-- What leaves the host's fields and the mark alone. -/
lemma Hosted.of_agree {t t' : Tcb P} (h : Agree hostAll t t') : Hosted t t' where
  same := h.of fun x => (x.1, x.2.1, ({ x.2.2.1 with cookieSecretUsed := false } : Secrets), x.2.2.2)
  used := by
    have hsame : t'.cookieSecretUsed = t.cookieSecretUsed := h.of fun x => x.2.2.1.cookieSecretUsed
    rw [hsame]
    exact id

/-- Moving data is none of the host's settings. -/
lemma Hosted.of_data {t t' : Tcb P} (h : Agree exceptData t t') : Hosted t t' :=
  .of_agree (h.of hostAll)

lemma hosted_of {α : Type} {x : TcbM P α} (h : Leaves (Agree hostAll) x) : Leaves Hosted x :=
  h.mono fun _ _ => Hosted.of_agree

/-! ## Segments -/

lemma exceptSegment_host (t : Tcb P) : t.exceptSegment.hostAll = t.hostAll := rfl

lemma exceptIntake_host (t : Tcb P) : t.exceptIntake.hostAll = t.hostAll := rfl

lemma exceptTransmit_host (t : Tcb P) : t.exceptTransmit.hostAll = t.hostAll := rfl

lemma updateTsRecent_host (t : Tcb P) (seg : Segment) :
    (t.updateTsRecent seg).hostAll = t.hostAll := by
  unfold updateTsRecent
  split
  · split <;> rfl
  · rfl

/-- An accepted segment moves the timestamp and the ECN echo, which are not the host's. -/
lemma noteSegment_host (t : Tcb P) (seg : Segment) : (t.noteSegment seg).hostAll = t.hostAll := by
  refine Eq.trans ?_ (updateTsRecent_host t seg)
  unfold noteSegment onPeerAlive updateEcnEcho
  split <;> rfl

lemma restartTimeWait_host (t : Tcb P) : t.restartTimeWait.hostAll = t.hostAll := by
  unfold restartTimeWait
  generalize Deadline.atMs _ = d
  rfl

lemma onResetReceived_host (t : Tcb P) : t.onResetReceived.hostAll = t.hostAll := by
  unfold onResetReceived
  split <;> rfl

/-- Output writes nothing of the host's. -/
lemma hosted_send : SendAtoms (Hosted (P := P)) := .ofTransmit fun {t t'} h => .of_agree <| by
  rw [Agree, ← exceptTransmit_host t', h, exceptTransmit_host]

/-- Whatever a segment does to a synchronized connection. -/
lemma hosted_segment (seg : Segment) : SegmentAtoms (Hosted (P := P)) seg where
  toSendAtoms := hosted_send
  retries _ := .of_agree rfl
  reacts := hosted_of ((reactToAck_react seg).agree_of hostAll fun _ => rfl)
  finAcked t := .of_agree <| by
    rw [Agree, ← exceptSegment_host t.ourFinAcked, ourFinAcked_frame t, exceptSegment_host]
  notes t := .of_agree (noteSegment_host t seg)
  notesOld t := .of_agree (updateTsRecent_host t seg)
  takes t := .of_agree <| by
    rw [Agree, ← exceptIntake_host (t.receiveSegment seg).2, receiveSegment_frame t seg, exceptIntake_host]
  duplicate _ := .of_agree rfl
  lingers t := .of_agree (restartTimeWait_host t)
  resets _ t := .of_agree (onResetReceived_host t)

lemma sampleRtt_host (t : Tcb P) (sample : Option U32) : (t.sampleRtt sample).hostAll = t.hostAll :=
  (sampleRtt_react t sample).of hostAll

lemma passiveOpened_host (t : Tcb P) (seg : Segment) : (t.passiveOpened seg).hostAll = t.hostAll :=
  sampleRtt_host _ _

/-- Opening a connection takes the peer's options; the knobs stay. -/
lemma activeOpened_host (t : Tcb P) (seg : Segment) : (t.activeOpened seg).hostAll = t.hostAll :=
  sampleRtt_host _ _

/-- Only a stateless SYN-ACK marks the cookie key. -/
lemma hosted_inject (seg : Segment) : InjectAtoms (Hosted (P := P)) seg where
  toAckAtoms := hosted_send.toAckAtoms
  counts _ := .of_agree rfl
  forgets _ := .of_agree rfl
  aborts _ := .of_agree rfl
  arms _ := .of_agree rfl
  connects t _ _ _ := .of_agree (activeOpened_host t seg)
  crosses _ _ := .of_agree rfl
  opens t _ _ := .of_agree (passiveOpened_host t seg)
  accepts t _ _ := hosted_send.toAckAtoms.acceptSynStateful (fun _ => .of_agree rfl) (fun _ => .of_agree rfl) t
  promotes _ _ _ _ := .of_agree rfl
  cookies _ := ⟨rfl, fun _ => rfl⟩
  synced t _ := (hosted_segment seg).onSynchronized t

/-! ## The other calls -/

/-- Whatever a tick does. -/
lemma hosted_timer : TimerAtoms (Hosted (P := P)) :=
  .coarse (fun h => .of_agree (h.of hostAll)) (fun _ => .of_agree rfl) (fun _ => .of_agree rfl)
    (fun _ => .of_agree rfl) fun _ _ => .of_agree rfl

/-- Every call but those that set something, from its parts. -/
lemma hosted_call : CallAtoms (Hosted (P := P)) where
  segments := hosted_inject
  timers := hosted_timer
  moves hc t := .of_data (Call.data_footprint hc t)
  opens _ := .of_agree rfl
  offered _ _ := .of_agree rfl
  listens _ := .of_agree rfl
  closes _ _ _ _ := .of_agree rfl
  unopens _ := .of_agree rfl
  gives _ := .of_agree rfl

end Tcb

open Tcb

/-- Only the calls that set something of the host's change it. -/
theorem Call.hosted {c : Call} (hc : c.sets = false) (t : Tcb P) : Hosted t (final (c.run t)) :=
  hosted_call.run hc t

end TcpSansIo
