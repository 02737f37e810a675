import TcpSansIo.Machine.Options

/-!
# Output takes steps

`machine s` is the step relation seen through `core`, with steps that take something from the segment
`s` (if there is one) or from no segment.  A computation that `Refines` it does nothing else, and fails
only at a `FaultSite`.

This module shows it for everything that stages segments, up to `maybe_send_data`.
-/

namespace TcpSansIo

open Proc FixedWidth

variable {P : Params}

/-- The states in which a computation can give up for a reason inside the block. -/
inductive FaultSite : Tcb P → Fault → Prop
  | first {t t' : Tcb P} {len : U32} {fin : Bool} {probe : Option (U32 × U16)} {e : Fault}
      (hnew : t.NewOk len fin probe) (h : Tcb.emitNew len fin t = .error e t') : FaultSite t e
  | again {t t' : Tcb P} {i : ℕ} {s : Seg} {e : Fault} (hre : t.ResendOk i s)
      (h : Tcb.resend i s t = .error e t') : FaultSite t e
  | budget {t : Tcb P} (h : 2 ^ 32 ≤ P.TXQ + 2) : FaultSite t .panic
  | credit {t : Tcb P} (h : (t.sndNxt - t.dataUna).toNat = 2 ^ 32 - 1) : FaultSite t .panic

/-- The states in which a call can fail: it is refused, or gives up inside. -/
inductive CallSite : Tcb P → Fault → Prop
  | refused {t : Tcb P} {e : TcpError} (h₁ : e ≠ .overflow) (h₂ : e ≠ .bufferTooSmall) :
      CallSite t (.tcp e)
  | stored {t : Tcb P} {e : TcpError} (h : t.error = some e) : CallSite t (.tcp e)
  | unparsed {t : Tcb P} {packet : List U8} {verify : Bool} {e : TcpError}
      (h : parseOpts P.littleEndian packet verify = .error e) : CallSite t (.tcp e)
  | inner {t : Tcb P} {e : Fault} (h : FaultSite t e) : CallSite t e

/-- The steps, up to what `core` forgets, that take something from `s` or from no segment. -/
def machine (s : Option Segment) : Machine (Tcb P) (Tcb P) Fault (Option Segment) where
  step c l c' := ∃ t t' : Tcb P, t.core = c ∧ t'.core = c' ∧ Step t l t'
  abs := Tcb.core
  label l := l = none ∨ l = s
  site := FaultSite

/-- The same steps, under calls that can be refused. -/
def interface (s : Option Segment) : Machine (Tcb P) (Tcb P) Fault (Option Segment) :=
  { machine s with site := CallSite }

lemma outward {α : Type} {s : Option Segment} {x : TcbM P α} {t : Tcb P}
    (hx : Refines (machine s) x t) : Refines (interface s) x t := hx.widen fun _ _ => .inner

namespace Tcb

variable {s : Option Segment}

/-- Blocks with the same core agree on everything that `core` keeps. -/
lemma core_of {α : Type} {t t' : Tcb P} (h : t'.core = t.core) (w : Tcb P → α) :
    w t'.core = w t.core := congrArg w h

lemma leads_soft {t t' : Tcb P} (h : t'.core = t.core) : (machine s).Leads t t' := Via.of_eq h

lemma leads_step {t t' u u' : Tcb P} {l : Option Segment} (h : Step u l u') (h₁ : u.core = t.core)
    (h₂ : t'.core = u'.core) (hl : l = none ∨ l = s) : (machine s).Leads t t' :=
  Via.one (E := (machine (P := P) s).label) hl ⟨u, u', h₁, h₂.symm, h⟩

/-- One step that takes nothing from a segment. -/
lemma leads_quiet {t t' u' : Tcb P} (h : Step t none u') (h₂ : t'.core = u'.core) :
    (machine s).Leads t t' :=
  leads_step h rfl h₂ (.inl rfl)

lemma leads_trans {t t' t'' : Tcb P} (h : (machine s).Leads t t') (h' : (machine s).Leads t' t'') :
    (machine s).Leads t t'' := Via.trans h h'

/-! ## Segments -/

/-- The header `emit_segment` builds. -/
def header (t : Tcb P) (fl : Flags) (seq ack : U32) (options : TcpOptions) (ect : Bool) : Header :=
  { srcIp := t.localEp.ip, dstIp := t.remoteEp.ip, srcPort := t.localEp.port
    dstPort := t.remoteEp.port, seq := seq, ack := ack
    flags := { fl with
      ece := fl.ece || (t.ecnEnabled && !fl.syn && fl.ack && t.ceObserved)
      cwr := fl.cwr || (t.ecnEnabled && !fl.syn && fl.ack && t.sendCwrPending && ect) }
    window := (t.outboundWindow fl.syn).1, options := options, ipId := t.ipId
    ecn := if t.ecnEnabled && !fl.syn && ect then Ecn.ECT_0 else Ecn.NOT_ECT }

lemma header_ok (t : Tcb P) (fl : Flags) (seq ack : U32) (options : TcpOptions) (ect : Bool) :
    t.PeerHeader fl seq ack options (t.header fl seq ack options ect) where
  src := ⟨rfl, rfl⟩
  dst := ⟨rfl, rfl⟩
  seq := rfl
  ack := rfl
  window := rfl
  options := rfl
  flags := by
    refine ⟨_, _, rfl, fun hsyn => ?_⟩
    rw [hsyn]
    simp

/-- What `emit_segment` does: nothing, when it cannot stage the segment now or fails to build it; or
it stages the segment and remembers what it advertised. -/
lemma emitSegment_cases (fl : Flags) (seq ack : U32) (opts : TcpOptions) (payload : RingSlice)
    (ect : Bool) (t : Tcb P) :
    (∃ e t', emitSegment fl seq ack opts payload ect t = .error (.tcp e) t' ∧ t'.core = t.core ∧
      ¬ (opts.encodedLen ≤ 40 ∧ 40 + opts.encodedLen + payload.len ≤ MAX_PACKET ∧
        (t.sendRing.peekAt payload.off payload.len).length = payload.len)) ∨
      (∃ t', emitSegment fl seq ack opts payload ect t = .ok false t' ∧ t'.core = t.core ∧
        (t.txRing.len = P.TXQ ∨ (fl.syn = false ∧ fl.rst = false))) ∨
      ∃ t' pkt ring, emitSegment fl seq ack opts payload ect t = .ok true t' ∧
        (t.sendRing.peekAt payload.off payload.len).length = payload.len ∧
        t.Staged (t.header fl seq ack opts ect) (t.sendRing.peekAt payload.off payload.len) pkt ring ∧
        t'.core = (t.emitted (t.header fl seq ack opts ect)
          (t.sendRing.peekAt payload.off payload.len) pkt ring t.dsack).core := by
  unfold emitSegment
  rw [run_get_bind]
  split
  case isTrue hfull =>
    refine .inr (.inl ⟨t, rfl, rfl, ?_⟩)
    simp only [TxRing.isFull, Bool.or_eq_true, beq_iff_eq, Bool.and_eq_true,
      Bool.not_eq_true'] at hfull
    rcases hfull with hfull | ⟨⟨_, h₁⟩, h₂⟩
    · exact .inl hfull
    · exact .inr ⟨h₁, h₂⟩
  case isFalse hroom =>
    rw [run_modify_bind]
    rcases stage_cases (t.header fl seq ack opts ect) payload.len
        (fun n => if (t.sendRing.peekAt payload.off n).length = n then
          some (t.sendRing.peekAt payload.off n) else none)
        { t with sendCwrPending := t.sendCwrPending &&
            !(t.ecnEnabled && !fl.syn && fl.ack && t.sendCwrPending && ect) } with
      ⟨e, he, hbad⟩ | ⟨hfull, he⟩ | ⟨hlen, pkt, ring, hpkt, h₁, h₂, hring, he⟩
    · refine .inl ⟨e, _, run_bind_error he _, rfl, fun hok => ?_⟩
      obtain ⟨hopt, hsize, hfill⟩ := hok
      exact hbad ⟨hopt, hsize, _, if_pos hfill, hfill⟩
    · refine .inr (.inl ⟨_, run_bind_ok he _, ?_, .inl hfull⟩)
      change core (if (false && fl.ack && !fl.rst) = true then _ else _) = core t
      rw [if_neg (by simp)]
      rfl
    · obtain ⟨-, p, hp, -⟩ := emitWith_inv hpkt
      have hfill : (t.sendRing.peekAt payload.off payload.len).length = payload.len := by
        by_contra hne
        rw [if_neg hne] at hp
        cases hp
      rw [if_pos hfill, Option.getD_some] at he
      refine .inr (.inr ⟨_, pkt, ring, run_bind_ok he _, hfill, ⟨hlen, ?_, ⟨h₁, h₂⟩, hring⟩, ?_⟩)
      · rw [hfill]
        exact ⟨_, _, if_pos hfill, hpkt⟩
      · by_cases hadv : (fl.ack && !fl.rst) = true
        · change core (if (true && fl.ack && !fl.rst) = true then _ else _) = _
          rw [if_pos (by simpa using hadv)]
          unfold emitted
          rw [if_pos (by exact hadv), if_pos (by exact hadv)]
          rfl
        · change core (if (true && fl.ack && !fl.rst) = true then _ else _) = _
          rw [if_neg (by simpa using hadv)]
          unfold emitted
          rw [if_neg (by exact hadv), if_neg (by exact hadv)]
          rfl

/-- Where the D-SACK comes from makes no difference to the block a segment leaves. -/
lemma emitted_dsack (t : Tcb P) (h : Header) (p pkt : List U8) (ring : TxRing P.TXQ)
    (d d' : Option (U32 × U32)) :
    (({ t with dsack := d } : Tcb P).emitted h p pkt ring d').core = (t.emitted h p pkt ring d').core :=
  rfl

/-- A control segment that does not report SACK blocks. -/
lemma control_refines {t : Tcb P} {fl : Flags} {seq ack : U32} {opts : TcpOptions}
    (hctl : t.Control fl seq ack opts t.dsack) (hopt : opts.encodedLen ≤ 40) :
    Refines (machine s) (emitSegment fl seq ack opts NO_PAYLOAD false) t := by
  rcases emitSegment_cases fl seq ack opts NO_PAYLOAD false t with
    ⟨e, t', -, -, hbad⟩ | ⟨t', hrun, hcore, -⟩ | ⟨t', pkt, ring, hrun, hlen, hpkt, hcore⟩
  · refine absurd ⟨hopt, ?_, ?_⟩ hbad
    · change 40 + opts.encodedLen + 0 ≤ 1500
      omega
    · exact Nat.le_zero.mp (t.sendRing.length_peekAt_le 0 0)
  · exact Refines.of_ok hrun (leads_soft hcore)
  · rw [List.length_eq_zero_iff.mp hlen] at hpkt hcore
    exact Refines.of_ok hrun (leads_quiet (.control hctl (header_ok ..) hpkt) hcore)

/-- Building the options may take the pending D-SACK off the list. -/
lemma leads_options (len : U32) (t : Tcb P) : (machine s).Leads t (segmentOptions len t).2 := by
  have heq := segmentOptions_eq len t
  rcases segmentOptions_sack len t with ⟨-, hd⟩ | ⟨-, hd, -⟩
  · rw [hd] at heq
    rw [heq]
    exact leads_soft rfl
  · rw [hd] at heq
    rw [heq]
    exact leads_quiet .forget rfl

/-- A segment staged with the options of `segment_options`, seen from before they were built. -/
lemma emitSegment_options (fl : Flags) (seq ack : U32) (len : U32) (payload : RingSlice) (ect : Bool)
    (t : Tcb P) :
    (∃ e t', emitSegment fl seq ack (segmentOptions len t).1 payload ect (segmentOptions len t).2 =
        .error (.tcp e) t' ∧ t'.core = (segmentOptions len t).2.core ∧
        ¬ (40 + (segmentOptions len t).1.encodedLen + payload.len ≤ MAX_PACKET ∧
          (t.sendRing.peekAt payload.off payload.len).length = payload.len)) ∨
      (∃ t', emitSegment fl seq ack (segmentOptions len t).1 payload ect (segmentOptions len t).2 =
        .ok false t' ∧ t'.core = (segmentOptions len t).2.core) ∨
      ∃ t' h pkt ring,
        emitSegment fl seq ack (segmentOptions len t).1 payload ect (segmentOptions len t).2 =
          .ok true t' ∧ (t.sendRing.peekAt payload.off payload.len).length = payload.len ∧
        t.PeerHeader fl seq ack (segmentOptions len t).1 h ∧
        t.Staged h (t.sendRing.peekAt payload.off payload.len) pkt ring ∧
        t'.core = (t.emitted h (t.sendRing.peekAt payload.off payload.len) pkt ring
          (segmentOptions len t).2.dsack).core := by
  have hopt := (segmentOptions_encodedLen len t).1
  have heq := segmentOptions_eq len t
  generalize (segmentOptions len t).2.dsack = d at heq ⊢
  rw [heq]
  rcases emitSegment_cases fl seq ack (segmentOptions len t).1 payload ect { t with dsack := d } with
    ⟨e, t', hrun, hcore, hbad⟩ | ⟨t', hrun, hcore, -⟩ | ⟨t', pkt, ring, hrun, hlen, hpkt, hcore⟩
  · exact .inl ⟨e, t', hrun, hcore, fun hgood => hbad ⟨hopt, hgood⟩⟩
  · exact .inr (.inl ⟨t', hrun, hcore⟩)
  · refine .inr (.inr ⟨t', _, pkt, ring, hrun, hlen, header_ok t fl seq ack _ ect,
      ⟨hpkt.room, hpkt.bytes, hpkt.size, hpkt.ring⟩, ?_⟩)
    rw [hcore]
    exact emitted_dsack t _ _ pkt ring d d

/-- A pure ACK can always be built. -/
lemma sendPureAck_runs (s : Option Segment) (t : Tcb P) :
    ∃ t', sendPureAck t = .ok () t' ∧ (machine s).Leads t t' := by
  unfold sendPureAck
  rw [run_get_bind]
  split
  · exact ⟨_, rfl, leads_soft rfl⟩
  have hseq : (segmentOptions 0 t).2.sndNxt = t.sndNxt := 
    (segmentOptions_footprint 0 t).of fun t => t.sndNxt
  have hack : (segmentOptions 0 t).2.rcvNxt = t.rcvNxt := 
    (segmentOptions_footprint 0 t).of fun t => t.rcvNxt
  rcases emitSegment_options { ack := true } (segmentOptions 0 t).2.sndNxt
      (segmentOptions 0 t).2.rcvNxt 0 NO_PAYLOAD false t with
    ⟨e, t', -, -, hbad⟩ | ⟨t', hrun, hcore⟩ | ⟨t', h, pkt, ring, hrun, hlen, hh, hpkt, hcore⟩
  · have hopt := (segmentOptions_encodedLen 0 t).1
    refine absurd ⟨?_, ?_⟩ hbad
    · change 40 + (segmentOptions 0 t).1.encodedLen + 0 ≤ 1500
      omega
    · exact Nat.le_zero.mp (t.sendRing.length_peekAt_le 0 0)
  · refine ⟨_, run_bind_ok hrun _, leads_trans (leads_options 0 t) (leads_soft ?_)⟩
    exact hcore
  · rw [List.length_eq_zero_iff.mp hlen] at hpkt hcore
    rw [hseq, hack] at hh
    refine ⟨_, run_bind_ok hrun _, ?_⟩
    exact leads_quiet (.control (.ack (segmentOptions_ok 0 t)) hh hpkt) hcore

lemma sendPureAck_refines (t : Tcb P) : Refines (machine s) sendPureAck t := by
  obtain ⟨t', hrun, hleads⟩ := sendPureAck_runs s t
  exact Refines.of_ok hrun hleads

lemma oowAllowed_core (t : Tcb P) : (oowAllowed t).2.core = t.core := by
  unfold oowAllowed
  lift_lets
  intro limited
  split <;> rfl

lemma sendOowAck_refines (t : Tcb P) : Refines (machine s) sendOowAck t := by
  refine Refines.modifyGet_bind (leads_soft (oowAllowed_core t)) ?_
  split
  · exact sendPureAck_refines _
  · exact Refines.ofPure _ _

lemma emitProbe_refines {seq : U32} {t : Tcb P} (hseq : seq = t.sndUna - 1 ∨ seq = t.sndNxt - 1) :
    Refines (machine s) (emitProbe seq) t := by
  refine Refines.get_bind (control_refines (.probe hseq ?_) ?_)
  · cases t.tsEnabled <;> rfl
  · exact le_trans (TcpOptions.encodedLen_le_of_no_sack rfl) (by decide)

lemma emitSyn_refines {t : Tcb P} (hstate : t.state = .synSent) : Refines (machine s) emitSyn t :=
  Refines.get_bind (control_refines (.syn hstate)
    (le_trans (TcpOptions.encodedLen_le_of_no_sack rfl) (by decide)))

lemma emitSynack_refines {t : Tcb P} (hstate : t.state = .synRcvd) :
    Refines (machine s) emitSynack t := by
  refine Refines.get_bind (control_refines (.synack hstate ?_) ?_)
  · cases t.tsEnabled <;> rfl
  · exact le_trans (TcpOptions.encodedLen_le_of_no_sack rfl) (by decide)

lemma emitReset_refines (t : Tcb P) :
    Refines (machine s) (emitCtl { rst := true, ack := true } t.sndNxt t.rcvNxt) t :=
  control_refines .rst (by decide)

/-- A segment that is not about this connection, or resets it for its sender. -/
lemma stateless_refines {t : Tcb P} {h : Header} (hopt : h.options.encodedLen ≤ 40)
    (hh : h.flags = { rst := true } ∨
      (¬ t.ToPeer h ∧ h.flags.syn = true ∧ h.flags.fin = false ∧ h.window.toNat ≤ P.BUF)) :
    Refines (machine s) (stage h 0 fun _ => some []) t := by
  rcases stage_cases h 0 (fun _ => some []) t with
    ⟨e, -, hbad⟩ | ⟨-, hrun⟩ | ⟨hroom, pkt, ring, hpkt, h₁, h₂, hring, hrun⟩
  · refine absurd ⟨hopt, ?_, [], rfl, rfl⟩ hbad
    change 40 + h.options.encodedLen + 0 ≤ 1500
    omega
  · exact Refines.of_ok hrun (leads_soft rfl)
  · exact Refines.of_ok hrun
      (leads_quiet (.stateless hh ⟨hroom, ⟨_, _, rfl, hpkt⟩, ⟨h₁, h₂⟩, hring⟩) rfl)

lemma refuseAck_refines (seg : Segment) (t : Tcb P) : Refines (machine s) (refuseAck seg) t := by
  refine Refines.modifyGet_bind (leads_soft (oowAllowed_core t)) ?_
  split
  · exact Refines.get_bind
      ((stateless_refines (le_trans (TcpOptions.encodedLen_le_of_no_sack rfl) (by decide))
        (.inl rfl)).bind_pure fun _ => ())
  · exact Refines.ofPure _ _

lemma emitCookieSynack_refines {seg : Segment} {t : Tcb P} (hpeer : t.fromRemote seg = false) :
    Refines (machine s) (emitCookieSynack seg) t := by
  have helse : ¬ (seg.srcIp = t.remoteEp.ip ∧ seg.srcPort = t.remoteEp.port) := by
    simpa [fromRemote] using hpeer
  by_cases hfull : t.txRing.isFull = true
  · have hrun : emitCookieSynack seg t = .ok () t := by
      unfold emitCookieSynack
      rw [if_pos hfull]
    exact Refines.of_ok hrun (leads_soft rfl)
  · have hrun : ∃ h : Header, h.options.sack = SackBlocks.EMPTY ∧ ¬ t.ToPeer h ∧
        (h.flags.syn = true ∧ h.flags.fin = false ∧ h.window.toNat ≤ P.BUF) ∧ emitCookieSynack seg t =
          (stage h 0 (fun _ => some []) >>= fun queued => modify fun t : Tcb P =>
            if queued then { t with cookieSecretUsed := true } else t) t := by
      unfold emitCookieSynack
      rw [if_neg hfull]
      refine ⟨_, ?_, ?_, ?_, rfl⟩
      · cases seg.options.ts <;> rfl
      · exact helse
      · refine ⟨rfl, rfl, (BitVec.toNat_ofNat _ 16).le.trans ?_⟩
        exact (Nat.mod_le _ _).trans ((min_le_left _ _).trans (Nat.sub_le _ _))
    obtain ⟨h, hsack, hto, hfin, hrun⟩ := hrun
    refine Refines.congr hrun (Refines.bind (stateless_refines
      (le_trans (TcpOptions.encodedLen_le_of_no_sack hsack) (by decide)) (.inr ⟨hto, hfin⟩)) ?_)
    intro queued t' _
    refine Refines.ofModify (leads_soft ?_)
    split <;> rfl

lemma scheduleDelayedAck_leads (len : U32) (t : Tcb P) :
    (machine s).Leads t (scheduleDelayedAck len t) := by
  unfold scheduleDelayedAck
  dsimp only
  split
  · refine leads_trans ?_ (sendPureAck_refines (s := s) _).leads
    exact leads_soft rfl
  · split <;> exact leads_soft rfl

lemma maybeSendWindowUpdate_runs (s : Option Segment) (t : Tcb P) :
    ∃ t', maybeSendWindowUpdate t = .ok () t' ∧ (machine s).Leads t t' := by
  unfold maybeSendWindowUpdate
  rw [run_get_bind]
  split
  · exact ⟨t, rfl, leads_soft rfl⟩
  · dsimp only
    split
    · exact sendPureAck_runs s t
    · exact ⟨t, rfl, leads_soft rfl⟩

lemma maybeSendWindowUpdate_refines (t : Tcb P) : Refines (machine s) maybeSendWindowUpdate t := by
  obtain ⟨t', hrun, hleads⟩ := maybeSendWindowUpdate_runs s t
  exact Refines.of_ok hrun hleads

end Tcb

end TcpSansIo
