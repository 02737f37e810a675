import TcpSansIo.Machine.Ack

/-!
# Inbound segments take steps

Every path of `inject_segment` is a sequence of steps that take something from the injected segment or
from no segment.
-/

namespace TcpSansIo

open Proc FixedWidth

variable {P : Params}

namespace Tcb

variable {s : Option Segment}

/-! ## Synchronized states -/

/-- The timestamp, the ECN echo and the keepalive timer are no part of the core. -/
lemma updateTsRecent_core (t : Tcb P) (seg : Segment) : (t.updateTsRecent seg).core = t.core := by
  unfold updateTsRecent
  split
  · split <;> rfl
  · rfl

lemma updateEcnEcho_core (t : Tcb P) (seg : Segment) : (t.updateEcnEcho seg).core = t.core := by
  unfold updateEcnEcho
  split <;> rfl

lemma onPeerAlive_core (t : Tcb P) : t.onPeerAlive.core = t.core := rfl

/-- An acceptable ACK covers nothing that was not sent. -/
lemma not_after_of_ackAcceptable {t : Tcb P} {ack : U32} (h : t.ackAcceptable ack = true) :
    ¬ seqGt ack t.sndNxt := by
  unfold ackAcceptable at h
  simp only [Bool.and_eq_true, Bool.not_eq_true', decide_eq_false_iff_not] at h
  exact h.1

/-- An ACK is old and ignored, or applied. -/
lemma processAck_refines {t : Tcb P} {seg : Segment} (hstate : t.state.isSynchronized = true)
    (hhi : ¬ seqGt seg.ack t.sndNxt)
    (hseq : t.segmentAcceptable seg = true ∨ seg.seq = t.rcvNxt ∨
      seqGe (seg.seq + seg.payloadLen + ofFlag 32 seg.flags.fin) t.lastAckSent) :
    Refines (machine (some seg)) (processAck seg) t := by
  refine Refines.modify_bind (leads_soft rfl) (Refines.get_bind ?_)
  split
  case isTrue => exact Refines.ofPure _ _
  case isFalse hlo => exact applyAck_refines ⟨hstate, hlo, hhi, hseq⟩

/-- What the window check looks at. -/
def recvEdge (t : Tcb P) : Ring P.BUF × U32 := (t.recvRing, t.rcvNxt)

/-- An ACK leaves the receive side alone. -/
lemma processAck_recv (seg : Segment) : Leaves (Agree (recvEdge (P := P))) (processAck seg) := by
  have hreact : Leaves (Agree (recvEdge (P := P))) (reactToAck seg) :=
    (reactToAck_react seg).agree_of (fun t => t.recvEdge) fun _ => rfl
  refine Leaves.bind (Leaves.ofModify fun _ => rfl) fun _ => Leaves.bind Leaves.ofGet fun t => ?_
  refine Leaves.ite (Leaves.ofPure _) (Leaves.bind hreact fun _ => Leaves.ofModify fun u => ?_)
  unfold ourFinAcked Agree recvEdge
  split
  · split <;> rfl
  · rfl

/-- The window check looks at `RCV.NXT` and the free space only. -/
lemma segmentAcceptable_of_recv {t t' : Tcb P} (h : Agree recvEdge t t') (seg : Segment) :
    t'.segmentAcceptable seg = t.segmentAcceptable seg := by
  have h₁ : t'.recvRing = t.recvRing := congrArg Prod.fst h
  have h₂ : t'.rcvNxt = t.rcvNxt := congrArg Prod.snd h
  unfold segmentAcceptable acceptable
  rw [h₁, h₂]

/-- The text of an acceptable segment is taken in one step, in the states that receive. -/
lemma receiveSegment_leads {t : Tcb P} {seg : Segment} (hacc : t.segmentAcceptable seg = true) :
    (machine (some seg)).Leads t (t.receiveSegment seg).2 := by
  by_cases hstate : t.state.canRecv = true
  · exact leads_step (.segment hstate hacc) rfl rfl (.inr rfl)
  · refine leads_soft ?_
    unfold receiveSegment
    rw [if_pos hstate]

lemma answerText_refines (seg : Segment) (ackNow advanced : Bool) (t : Tcb P) :
    Refines (machine s) (answerText seg ackNow advanced) t := by
  unfold answerText
  split
  · exact sendPureAck_refines t
  · split
    · exact Refines.ofModify (scheduleDelayedAck_leads _ t)
    · split
      · exact sendOowAck_refines t
      · exact Refines.ofPure _ _

/-- The ACK leaves the receive window alone, so the text is still acceptable after it. -/
lemma acceptSegment_refines {t : Tcb P} {seg : Segment} (hstate : t.state.isSynchronized = true)
    (hack : t.ackAcceptable seg.ack = true)
    (hacc : t.segmentAcceptable seg = true ∨ t.zeroWindowProbe seg = true) :
    Refines (machine (some seg)) (acceptSegment seg (t.zeroWindowProbe seg)) t := by
  set u : Tcb P := ((t.updateTsRecent seg).updateEcnEcho seg).onPeerAlive with hu
  have hcore : u.core = t.core :=
    (onPeerAlive_core _).trans ((updateEcnEcho_core _ seg).trans (updateTsRecent_core t seg))
  have hrecv : Agree recvEdge t u := core_of hcore fun c => c.recvEdge
  have hseq : t.segmentAcceptable seg = true ∨ seg.seq = t.rcvNxt := by
    refine hacc.imp id fun h => ?_
    simp only [zeroWindowProbe, Bool.and_eq_true, beq_iff_eq] at h
    exact h.1.2
  have hproc : Refines (machine (some seg)) (processAck seg) u := by
    refine processAck_refines ?_ ?_ ?_
    · rw [show u.state = t.state from core_of hcore fun c => c.state]
      exact hstate
    · rw [show u.sndNxt = t.sndNxt from core_of hcore fun c => c.sndNxt]
      exact not_after_of_ackAcceptable hack
    · rw [segmentAcceptable_of_recv hrecv, show u.rcvNxt = t.rcvNxt from congrArg Prod.snd hrecv]
      exact hseq.imp id .inl
  refine Refines.modify_bind (leads_soft hcore) (hproc.bind fun _ t' ht' => Refines.get_bind ?_)
  have hrecv' : Agree recvEdge t t' := by
    have h := processAck_recv seg u
    rw [ht'] at h
    exact trans_of (Agree recvEdge) hrecv h
  split
  case isTrue => exact Refines.ofPure _ _
  case isFalse =>
    split
    case isTrue => exact (sendPureAck_refines t').bind fun _ t'' _ => maybeSendData_refines t''
    case isFalse hzero =>
      have hok : t'.segmentAcceptable seg = true := by
        rw [segmentAcceptable_of_recv hrecv']
        exact hacc.resolve_right hzero
      refine Refines.modifyGet_bind (receiveSegment_leads hok) (Refines.get_bind ?_)
      exact (answerText_refines seg _ _ _).bind fun _ t'' _ => maybeSendData_refines t''

/-- What goes out after an answer, if the segment's ACK was processed. -/
lemma andSend_refines {x : TcbM P Unit} {t : Tcb P} (live : Bool) (hx : Refines (machine s) x t) :
    Refines (machine s) (do
      x
      if live then maybeSendData else return ()) t := by
  refine hx.bind fun _ t' _ => ?_
  split
  · exact maybeSendData_refines t'
  · exact Refines.ofPure _ _

/-- An old FIN in TIME_WAIT, a duplicate, a retransmission, or anything else: each is answered its way. -/
lemma answerUnacceptable_refines (seg : Segment) (live : Bool) (t : Tcb P) :
    Refines (machine (some seg)) (answerUnacceptable seg live) t := by
  refine Refines.get_bind ?_
  dsimp only
  split
  case isTrue h =>
    simp only [Bool.and_eq_true, beq_iff_eq] at h
    exact Refines.modify_bind (leads_quiet (.linger h.1.1.2) rfl) (sendPureAck_refines _)
  case isFalse =>
    split
    case isTrue h =>
      simp only [Bool.and_eq_true, Bool.not_eq_true', List.isEmpty_eq_false_iff,
        decide_eq_true_eq] at h
      have hdup : Step (t.countDup seg.payload.length) (some seg) _ := .duplicate h.1.2 h.2
      refine Refines.modify_bind ?_ (andSend_refines live (sendPureAck_refines _))
      exact leads_step hdup rfl rfl (.inr rfl)
    case isFalse =>
      split
      · exact andSend_refines live (sendPureAck_refines t)
      · exact andSend_refines live (sendOowAck_refines t)

/-- The ACK of an unacceptable segment is still used if the segment is not old. -/
lemma onUnacceptable_refines {t : Tcb P} {seg : Segment} (hstate : t.state.isSynchronized = true) :
    Refines (machine (some seg)) (onUnacceptable seg) t := by
  refine Refines.get_bind ?_
  split
  · exact Refines.ofPure _ _
  · split
    case isTrue => exact sendOowAck_refines t
    case isFalse hok =>
      simp only [Bool.or_eq_true, Bool.not_eq_true', not_or, Bool.not_eq_false] at hok
      split
      case isFalse => exact answerUnacceptable_refines seg false t
      case isTrue hlive =>
        set u : Tcb P := (t.updateTsRecent seg).onPeerAlive with hu
        have hcore : u.core = t.core := (onPeerAlive_core _).trans (updateTsRecent_core t seg)
        simp only [ackLive, Bool.and_eq_true, decide_eq_true_eq] at hlive
        have hproc : Refines (machine (some seg)) (processAck seg) u := by
          refine processAck_refines ?_ ?_ (.inr (.inr ?_))
          · rw [show u.state = t.state from core_of hcore fun c => c.state]
            exact hstate
          · rw [show u.sndNxt = t.sndNxt from core_of hcore fun c => c.sndNxt]
            exact not_after_of_ackAcceptable hok.2
          · rw [show u.lastAckSent = t.lastAckSent from core_of hcore fun c => c.lastAckSent]
            exact hlive.1.1
        refine Refines.modify_bind (leads_soft hcore) (hproc.bind fun _ t' _ => Refines.get_bind ?_)
        split
        · exact Refines.ofPure _ _
        · exact answerUnacceptable_refines seg true t'

/-- A reset ends the connection, cleanly where both FINs were exchanged. -/
lemma onResetReceived_leads (t : Tcb P) : (machine s).Leads t t.onResetReceived := by
  unfold onResetReceived
  split
  case h_5 h₁ h₂ h₃ h₄ =>
    refine leads_quiet (.closeClean ?_) rfl
    cases hs : t.state <;> simp_all [State.canRecv]
  all_goals exact leads_quiet .abort rfl

/-- One segment, check after check. -/
lemma onSynchronized_refines {t : Tcb P} {seg : Segment} (hstate : t.state.isSynchronized = true) :
    Refines (machine (some seg)) (onSynchronized seg) t := by
  refine Refines.get_bind ?_
  split
  · exact Refines.ofPure _ _
  · split
    case isTrue => exact onUnacceptable_refines hstate
    case isFalse hacc =>
      split
      · split
        · exact sendPureAck_refines t
        · exact sendOowAck_refines t
      · split
        · split
          · exact Refines.ofModify (onResetReceived_leads t)
          · exact sendOowAck_refines t
        · split
          · exact sendOowAck_refines t
          · split
            · exact Refines.ofPure _ _
            · split
              case isTrue => exact sendOowAck_refines t
              case isFalse hack =>
                refine acceptSegment_refines hstate (by simpa using hack) ?_
                simp only [Bool.and_eq_true, Bool.not_eq_true', not_and, Bool.not_eq_false] at hacc
                cases h : t.segmentAcceptable seg with
                | true => exact .inl rfl
                | false => exact .inr (hacc h)

/-! ## Handshake -/

/-- `x` stages a SYN or SYN-ACK. -/
def Opens (x : TcbM P Bool) (t : Tcb P) : Prop :=
  ∃ t' fl seq ack opts d h pkt ring, x t = .ok true t' ∧ fl.syn = true ∧ t.Control fl seq ack opts d ∧
    t.PeerHeader fl seq ack opts h ∧ t.Staged h [] pkt ring ∧
    t'.core = (t.emitted h [] pkt ring d).core

/-- The first segment of a connection finds room. -/
lemma opens {t : Tcb P} {fl : Flags} {seq ack : U32} {opts : TcpOptions}
    (hroom : t.txRing.len < P.TXQ) (hsyn : fl.syn = true) (hctl : t.Control fl seq ack opts t.dsack)
    (hopt : opts.encodedLen ≤ 40) : Opens (emitSegment fl seq ack opts NO_PAYLOAD false) t := by
  rcases emitSegment_cases fl seq ack opts NO_PAYLOAD false t with
    ⟨e, t', -, -, hbad⟩ | ⟨t', -, -, hfull | ⟨hno, -⟩⟩ | ⟨t', pkt, ring, hrun, hlen, hpkt, hcore⟩
  · refine absurd ⟨hopt, ?_, ?_⟩ hbad
    · change 40 + opts.encodedLen + 0 ≤ 1500
      omega
    · exact Nat.le_zero.mp (t.sendRing.length_peekAt_le 0 0)
  · omega
  · rw [hsyn] at hno
    cases hno
  · rw [List.length_eq_zero_iff.mp hlen] at hpkt hcore
    exact ⟨t', fl, seq, ack, opts, t.dsack, _, pkt, ring, hrun, hsyn, hctl, header_ok .., hpkt, hcore⟩

lemma Opens.get_bind {g : Tcb P → TcbM P Bool} {t : Tcb P} (h : Opens (g t) t) :
    Opens ((get : TcbM P (Tcb P)) >>= g) t := h

lemma emitSyn_opens {t : Tcb P} (hstate : t.state = .synSent) (hroom : t.txRing.len < P.TXQ) :
    Opens emitSyn t :=
  Opens.get_bind (opens hroom rfl (.syn hstate)
    (le_trans (TcpOptions.encodedLen_le_of_no_sack rfl) (by decide)))

lemma emitSynack_opens {t : Tcb P} (hstate : t.state = .synRcvd) (hroom : t.txRing.len < P.TXQ) :
    Opens emitSynack t := by
  refine Opens.get_bind (opens hroom rfl (.synack hstate ?_)
    (le_trans (TcpOptions.encodedLen_le_of_no_sack rfl) (by decide)))
  cases t.tsEnabled <;> rfl

/-- Sending a SYN-ACK leaves the state. -/
lemma emitSynack_keeps {t t' : Tcb P} {queued : Bool} (h : emitSynack t = .ok queued t') :
    t'.state = t.state := by
  have hstate := (emitSynack_footprint t).of fun c => c.state
  rw [h] at hstate
  exact hstate

/-- Our SYN is out, on the core of the block. -/
lemma synOut_core {t u : Tcb P} (h : t.core = u.core) :
    ({ t with sndNxt := t.iss + 1, synUnacked := true } : Tcb P).armRto.core =
      (u.synOut (t.after t.rtoMs)).core := by
  have hset := congrArg (fun c : Tcb P => c.synOut (t.after t.rtoMs)) h
  exact hset

/-- The block is reset first, so there is room for its SYN-ACK. -/
lemma acceptSynStateful_refines {t : Tcb P} {seg : Segment} (hstate : t.state = .listen)
    (hsyn : seg.flags.syn = true) (hack : seg.flags.ack = false) (hrst : seg.flags.rst = false)
    (hfin : seg.flags.fin = false) : Refines (machine (some seg)) (acceptSynStateful seg) t := by
  obtain ⟨t', fl, seq, ack, opts, d, h, pkt, ring, hrun, hfl, hctl, hh, hpkt, hcore⟩ :=
    emitSynack_opens (t := t.halfOpen seg) rfl P.txq_pos
  refine Refines.of_ok (run_bind_ok hrun _) ?_
  exact leads_step (.halfOpened hstate hsyn hack hrst hfin hfl hctl hh hpkt (Deadline.isArmed_atMs _))
    rfl (synOut_core hcore) (.inr rfl)

lemma activeOpened_core (t : Tcb P) (seg : Segment) :
    (t.activeOpened seg).core = (t.synAnswered seg).core := by
  unfold activeOpened
  dsimp only
  exact core_of (sampleRtt_core _ _) fun c => c.enterEstablished

lemma passiveOpened_core (t : Tcb P) (seg : Segment) :
    (t.passiveOpened seg).core = (t.synackAnswered seg).core := by
  unfold passiveOpened
  dsimp only
  exact core_of (sampleRtt_core _ _) fun c => c.enterEstablished

/-- The SYN-ACK of the peer opens the connection and is acknowledged. -/
lemma completeActiveOpen_refines {t : Tcb P} {seg : Segment} (hstate : t.state = .synSent)
    (hsyn : seg.flags.syn = true) (hack : seg.flags.ack = true) (hrst : seg.flags.rst = false)
    (hlo : seqGt seg.ack t.iss) (hhi : seqLe seg.ack t.sndNxt) :
    Refines (machine (some seg)) (completeActiveOpen seg) t :=
  Refines.modify_bind (leads_step (.activeOpened hstate hsyn hack hrst hlo hhi) rfl
    (activeOpened_core t seg) (.inr rfl)) (sendPureAck_refines _)

/-- A SYN that crosses ours is answered by a SYN-ACK. -/
lemma simultaneousOpen_refines {t : Tcb P} {seg : Segment} (hstate : t.state = .synSent)
    (hsyn : seg.flags.syn = true) (hack : seg.flags.ack = false) (hrst : seg.flags.rst = false) :
    Refines (machine (some seg)) (simultaneousOpen seg) t := by
  refine Refines.modify_bind
    (leads_step (.simultaneous hstate hsyn hack hrst) rfl rfl (.inr rfl)) ?_
  refine (emitSynack_refines rfl).bind fun _ t' ht' => Refines.ofModify ?_
  exact leads_quiet (.resyn (.inr (emitSynack_keeps ht')) (Deadline.isArmed_atMs _)) rfl

lemma onSynSent_refines {t : Tcb P} {seg : Segment} (hstate : t.state = .synSent) :
    Refines (machine (some seg)) (onSynSent seg) t := by
  refine Refines.get_bind ?_
  dsimp only
  split
  · split
    · exact Refines.ofPure _ _
    · exact refuseAck_refines seg t
  case isFalse hbad =>
    split
    · split
      · exact Refines.ofModify (leads_quiet .abort rfl)
      · exact Refines.ofPure _ _
    case isFalse hrst =>
      split
      · exact Refines.ofPure _ _
      case isFalse hsyn =>
        simp only [Bool.not_eq_true', Bool.not_eq_false, Bool.not_eq_true] at hsyn hrst
        split
        case isTrue hok =>
          simp only [Bool.and_eq_true, decide_eq_true_eq] at hok
          exact completeActiveOpen_refines hstate hsyn hok.1.1 hrst hok.1.2 hok.2
        case isFalse hok =>
          refine simultaneousOpen_refines hstate hsyn ?_ hrst
          cases hack : seg.flags.ack with
          | false => rfl
          | true => simp_all

lemma resetToListenOrClosed_leads (t : Tcb P) : (machine s).Leads t t.resetToListenOrClosed := by
  refine leads_quiet (.reset ?_ (.inl rfl)) rfl
  split
  · exact .inr rfl
  · exact .inl rfl

/-- The third ACK opens the connection and is then a segment of it. -/
lemma completePassiveOpen_refines {t : Tcb P} {seg : Segment} (hstate : t.state = .synRcvd)
    (hseg : t.ThirdAck seg) : Refines (machine (some seg)) (completePassiveOpen seg) t := by
  refine Refines.modify_bind
    (leads_step (.passiveOpened hstate hseg) rfl (passiveOpened_core t seg) (.inr rfl)) ?_
  split
  · exact sendPureAck_refines _
  · exact onSynchronized_refines rfl

/-- In SYN_RCVD a segment completes the open only as a `ThirdAck`. -/
lemma onSynRcvd_refines {t : Tcb P} {seg : Segment} (hstate : t.state = .synRcvd)
    (htuple : t.OnTuple seg) : Refines (machine (some seg)) (onSynRcvd seg) t := by
  refine Refines.get_bind ?_
  split
  · split
    · exact Refines.ofPure _ _
    · split
      · exact sendOowAck_refines t
      · split
        · exact Refines.ofModify (resetToListenOrClosed_leads t)
        · exact Refines.ofModify (leads_quiet .abort rfl)
  case isFalse hrst =>
    rw [Bool.not_eq_true] at hrst
    split
    case isTrue hsyn =>
      split
      case isTrue hack =>
        split
        case isTrue h =>
          simp only [Bool.and_eq_true, beq_iff_eq] at h
          refine completePassiveOpen_refines hstate ⟨htuple, hack, hrst, h.2, ?_⟩
          rw [if_pos hsyn]
          exact h.1.2
        case isFalse => exact refuseAck_refines seg t
      case isFalse =>
        split
        · refine Refines.modifyGet_bind (leads_soft (oowAllowed_core t)) ?_
          have hstate' : (oowAllowed t).2.state = t.state :=
            core_of (oowAllowed_core t) fun c => c.state
          split
          · exact Refines.bind_pure (emitSynack_refines (hstate'.trans hstate)) fun _ => ()
          · exact Refines.ofPure _ _
        · exact Refines.ofPure _ _
    case isFalse hsyn =>
      split
      · exact Refines.ofPure _ _
      case isFalse hack =>
        split
        · exact refuseAck_refines seg t
        case isFalse hiss =>
          split
          · exact sendOowAck_refines t
          case isFalse hacc =>
            refine completePassiveOpen_refines hstate
              ⟨htuple, by simpa using hack, hrst, not_not.mp hiss, ?_⟩
            rw [if_neg hsyn]
            simpa using hacc

/-! ## Cookies -/

/-- No cookie carries a shift above 14. -/
lemma decodeTsOpts_wscale {ts : Option (U32 × U32)} {opts : CookieOpts}
    (h : decodeTsOpts ts = some opts) : ∀ w ∈ opts.wscale, w.toNat ≤ 14 := by
  unfold decodeTsOpts at h
  intro w hw
  split at h
  · cases h
    cases hw
  · split at h
    · cases h
      cases hw
    · cases h
      dsimp only at hw
      split at hw
      · cases hw
      case isFalse hne =>
        cases hw
        rw [BitVec.toNat_setWidth]
        refine Nat.le_of_lt_succ (lt_of_le_of_lt (Nat.mod_le _ _) (lt_of_le_of_ne ?_ fun h15 => hne ?_))
        · rw [BitVec.toNat_and]
          exact Nat.and_le_right
        · exact BitVec.eq_of_toNat_eq h15

lemma validateCookie_wscale {t : Tcb P} {seg : Segment} {opts : CookieOpts}
    (h : t.validateCookie seg = some opts) : ∀ w ∈ opts.wscale, w.toNat ≤ 14 := by
  unfold validateCookie at h
  split at h
  · cases h
  · dsimp only at h
    split at h
    case h_1 _ _ _ prev o _ hdec =>
      cases h
      exact fun w hw => decodeTsOpts_wscale hdec w hw
    case h_2 => cases h

/-- A valid cookie opens the connection from LISTEN and is then a segment of it. -/
lemma promoteViaCookie_refines {t : Tcb P} {seg : Segment} {opts : CookieOpts}
    (hstate : t.state = .listen) (hack : seg.flags.ack = true) (hsyn : seg.flags.syn = false)
    (hrst : seg.flags.rst = false) (hws : ∀ w ∈ opts.wscale, w.toNat ≤ 14) :
    Refines (machine (some seg)) (promoteViaCookie seg opts) t :=
  Refines.modify_bind (leads_step (.cookieOpened hstate hack hsyn hrst hws) rfl rfl (.inr rfl))
    (onSynchronized_refines rfl)

/-! ## Dispatch -/

/-- A listener takes a SYN or a cookie. -/
lemma onListen_refines {t : Tcb P} {seg : Segment} (hstate : t.state = .listen) :
    Refines (machine (some seg)) (onListen seg) t := by
  refine Refines.get_bind ?_
  split
  · exact Refines.ofPure _ _
  case isFalse hrst =>
    rw [Bool.not_eq_true] at hrst
    split
    case isTrue hack =>
      split
      case isTrue hsyn =>
        split
        case isTrue =>
          refine Refines.bind_pure (Refines.get_bind ?_) fun _ => ()
          split
          case h_1 opts hopts =>
            exact (promoteViaCookie_refines hstate hack (by simpa using hsyn) hrst
              (validateCookie_wscale hopts)).bind_pure fun _ => true
          case h_2 => exact Refines.ofPure _ _
        case isFalse => exact Refines.ofPure _ _
      case isFalse => exact refuseAck_refines seg t
    case isFalse hack =>
      split
      · exact Refines.ofPure _ _
      case isFalse hsyn =>
        simp only [Bool.or_eq_true, Bool.not_eq_true', not_or, Bool.not_eq_false,
          Bool.not_eq_true] at hsyn hack
        exact acceptSynStateful_refines hstate hsyn.1 hack hrst hsyn.2

lemma onBusyListener_refines {t : Tcb P} {seg : Segment} (hpeer : t.fromRemote seg = false) :
    Refines (interface (some seg)) (onBusyListener seg) t := by
  refine Refines.get_bind ?_
  split
  · exact Refines.ofThrow (.refused (by decide) (by decide))
  case isFalse hbusy =>
    simp only [not_or, not_not] at hbusy
    split
    · exact outward (emitCookieSynack_refines hpeer)
    · split
      case isTrue hack =>
        simp only [Bool.and_eq_true, Bool.not_eq_true'] at hack
        split
        case h_1 opts hopts =>
          refine Refines.modify_bind (resetToListenOrClosed_leads t) ?_
          refine outward (promoteViaCookie_refines ?_ hack.1.1 hack.1.2 hack.2 (validateCookie_wscale hopts))
          change (if t.isListener = true then State.listen else State.closed) = _
          rw [if_pos hbusy.2.1]
        case h_2 => exact Refines.ofThrow (.refused (by decide) (by decide))
      case isFalse => exact Refines.ofThrow (.refused (by decide) (by decide))

/-- The segment is counted, and the handler of the state takes it. -/
lemma dispatch_refines {seg : Segment} {t : Tcb P} (htuple : t.state = .synRcvd → t.OnTuple seg) :
    Refines (interface (some seg)) (dispatch seg) t := by
  refine Refines.modify_bind (leads_soft rfl) (Refines.get_bind ?_)
  split
  case h_1 => exact Refines.ofThrow (.refused (by decide) (by decide))
  case h_2 hstate => exact outward (onListen_refines hstate)
  case h_3 hstate => exact outward (onSynSent_refines hstate)
  case h_4 hstate => exact outward (onSynRcvd_refines hstate (htuple hstate))
  all_goals
    rename_i hstate
    exact outward (onSynchronized_refines (by rw [hstate]; rfl))

/-- What is dispatched without more ado comes from the peer, unless there is none yet. -/
lemma onTuple_of_dispatched {seg : Segment} {t : Tcb P}
    (hhere : ¬ (seg.dstIp ≠ t.localEp.ip ∨ seg.dstPort ≠ t.localEp.port))
    (hpeer : ¬ (t.state ≠ .listen ∧ ¬ t.fromRemote seg = true)) (hstate : t.state = .synRcvd) :
    t.OnTuple seg := by
  simp only [not_or, not_not] at hhere
  have hfrom : t.fromRemote seg = true := by
    by_contra hother
    exact hpeer ⟨by rw [hstate]; exact nofun, hother⟩
  simp only [fromRemote, Bool.and_eq_true, beq_iff_eq] at hfrom
  exact ⟨hhere.1, hhere.2, hfrom⟩

/-- A listener that gave up its half-open connection has none. -/
lemma resetToListenOrClosed_state_ne (t : Tcb P) : t.resetToListenOrClosed.state ≠ .synRcvd := by
  change (if t.isListener = true then State.listen else State.closed) ≠ _
  split <;> exact nofun

/-- A segment for this block goes to the connection, to a listener that gives up its half-open peer, or to a
busy one. -/
lemma injectSegment_refines (seg : Segment) (t : Tcb P) :
    Refines (interface (some seg)) (injectSegment seg) t := by
  refine Refines.get_bind ?_
  split
  · exact Refines.ofThrow (.refused (by decide) (by decide))
  case isFalse hhere =>
    split
    case isTrue hpeer =>
      split
      · exact Refines.modify_bind (resetToListenOrClosed_leads t)
          (dispatch_refines fun hs => absurd hs (resetToListenOrClosed_state_ne t))
      · exact onBusyListener_refines (by simpa using hpeer.2)
    case isFalse hpeer => exact dispatch_refines (onTuple_of_dispatched hhere hpeer)

end Tcb

end TcpSansIo
