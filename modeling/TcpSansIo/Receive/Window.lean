import TcpSansIo.Faultless
import TcpSansIo.Receive.Frame
import TcpSansIo.Receive.Stream
import TcpSansIo.Send.Stream
import TcpSansIo.Tcb.Traversal

/-!
# The window we advertise

The receive ring reaches up to `rightEdge` in the peer's stream.  On one connection that edge never moves
left (`widens_step`), and nothing that was offered lies beyond it (`Reachable.edge_le`); so whatever a peer
sends within a window it was ever offered is taken when it comes in order (`advertised_window_honoured`).

The window check counts the room of the ring in 32 bits, the SYN-ACK of a cookie in full: a ring of 2³² bytes
offers 65535 bytes there and then takes none (`vast_refuses_offered_byte`).
-/

namespace TcpSansIo

open Proc FixedWidth

variable {P : Params}

/-- A segment that panics makes its call panic. -/
lemma Call.Delivers.not_returned {c : Call} {seg : Segment} (hc : c.Delivers P seg) {t u : Tcb P}
    (h : Tcb.injectSegment seg t = .error .panic u) : ¬ Returned (c.run t) := by
  rcases hc with ⟨packet, rfl, hparse⟩ | ⟨packet, rfl, hparse⟩
  · rw [Call.run, Tcb.injectPacket, hparse]
    exact fun hr => by rw [run_bind_error (show Tcb.injectParsed (.ok seg) t = _ from h)] at hr; exact hr
  · rw [Call.run, Tcb.injectPacketL4CsumTrusted, hparse]
    exact fun hr => by rw [run_bind_error (show Tcb.injectParsed (.ok seg) t = _ from h)] at hr; exact hr

namespace Tcb

/-! ## The space that is offered -/

/-- Where `RCV.NXT` is in the peer's stream, its FIN counted. -/
def rcvPos (t : Tcb P) : ℕ := t.received + t.finTaken.toNat

/-- How far into the peer's stream the receive ring reaches. -/
def rightEdge (t : Tcb P) : ℕ := t.rcvPos + t.recvRing.free

lemma rightEdge_eq (t : Tcb P) : t.rightEdge = t.delivered.length + t.finTaken.toNat + P.BUF := by
  have hle := t.recvRing.len_le
  rw [rightEdge, rcvPos, received, Ring.free]
  omega

/-- On the same connection `RCV.NXT` and the right edge only move right. -/
structure Widens (t t' : Tcb P) : Prop where
  epoch : t.epoch ≤ t'.epoch
  same : t'.epoch = t.epoch → t'.begun = true →
    t.begun = true ∧ t.rcvPos ≤ t'.rcvPos ∧ t.rightEdge ≤ t'.rightEdge

namespace Widens

variable {t u t' : Tcb P}

lemma refl (t : Tcb P) : Widens t t := ⟨le_refl _, fun _ hbegun => ⟨hbegun, le_refl _, le_refl _⟩⟩

lemma trans (h : Widens t u) (h' : Widens u t') : Widens t t' := by
  have hle := h.epoch
  have hle' := h'.epoch
  refine ⟨hle.trans hle', fun he hbegun => ?_⟩
  obtain ⟨hmid, hpos', hedge'⟩ := h'.same (by omega) hbegun
  obtain ⟨hstart, hpos, hedge⟩ := h.same (by omega) hmid
  exact ⟨hstart, hpos.trans hpos', hedge.trans hedge'⟩

/-- Another connection begins. -/
lemma of_new (h : t'.epoch = t.epoch + 1) : Widens t t' := ⟨by omega, fun he => by omega⟩

/-- The connection is over. -/
lemma of_over (he : t'.epoch = t.epoch) (hover : t'.begun = false) : Widens t t' :=
  ⟨he.ge, fun _ hbegun => by rw [hover] at hbegun; cases hbegun⟩

/-- Bytes are taken in or handed out, or the FIN is taken. -/
lemma of_more (he : t'.epoch = t.epoch) (hrec : t.received ≤ t'.received)
    (hdel : t.delivered.length ≤ t'.delivered.length)
    (hbegun : t'.begun = true → t.begun = true ∧ t.finTaken.toNat ≤ t'.finTaken.toNat) : Widens t t' := by
  refine ⟨he.ge, fun _ hlive => ?_⟩
  obtain ⟨hstart, hfin⟩ := hbegun hlive
  refine ⟨hstart, Nat.add_le_add hrec hfin, ?_⟩
  rw [rightEdge_eq, rightEdge_eq]
  omega

end Widens

lemma widens_step {t t' : Tcb P} {l : Option Segment} (hstep : Step t l t') : Widens t t' := by
  have hfrom {u : Tcb P} {s : State} (hs : t.state = s) (hbegun : s ≠ .closed ∧ s ≠ .listen)
      (he : u.epoch = t.epoch) (hring : u.recvRing = t.recvRing) (hdel : u.delivered = t.delivered)
      (hfin : (s.isSynchronized && !s.canRecv) = true → u.finTaken = true) : Widens t u := by
    refine .of_more he (by rw [received, received, hring, hdel]) (by rw [hdel]) fun _ =>
      ⟨begun_of_state hs hbegun, Bool.toNat_le_toNat fun h => hfin ?_⟩
    rwa [finTaken, hs] at h
  cases hstep with
  | finWait2 hstate => exact hfrom hstate (by decide) rfl rfl rfl fun h => by cases h
  | timeWait hstate => exact hfrom hstate (by decide) rfl rfl rfl fun _ => rfl
  | @close s hstate =>
    rcases hstate with ⟨hs | hs, rfl⟩ | ⟨hs, rfl⟩
    · exact hfrom hs (by decide) rfl rfl rfl fun h => by cases h
    · exact hfrom hs (by decide) rfl rfl rfl fun h => by cases h
    · exact hfrom hs (by decide) rfl rfl rfl fun _ => rfl
  | activeOpened hstate => exact hfrom hstate (by decide) rfl rfl rfl fun h => by cases h
  | simultaneous hstate => exact hfrom hstate (by decide) rfl rfl rfl fun h => by cases h
  | passiveOpened hstate => exact hfrom hstate (by decide) rfl rfl rfl fun h => by cases h
  | @segment seg hstate =>
    obtain ⟨n, f, hadv⟩ := receiveSegment_advances t seg
    refine .of_more ((receiveSegment_frame t seg).of fun t => t.epoch) ?_ (by rw [hadv.delivered]) fun _ =>
      ⟨begun_of_canRecv hstate, ?_⟩
    · rw [received, received, hadv.delivered, hadv.len]
      omega
    · rw [finTaken_of_canRecv hstate]
      exact Nat.zero_le _
  | @deliver n =>
    refine .of_more rfl (le_of_eq ?_) ?_ fun h => ⟨h, le_refl _⟩
    · rw [received, received, ← Ring.length_contents, ← Ring.length_contents, ← List.length_append,
        ← List.length_append, stream_deliver]
      rfl
    · exact (List.prefix_append _ _).length_le
  | abort => exact .of_over rfl rfl
  | closeClean => exact .of_over rfl rfl
  | timeWaitOver => exact .of_over rfl rfl
  | reset => exact .of_new rfl
  | connected => exact .of_new rfl
  | halfOpened => exact .of_new rfl
  | cookieOpened => exact .of_new rfl
  | _ => exact .of_more rfl (le_refl _) (le_refl _) fun h => ⟨h, le_refl _⟩

lemma Widens.stable (t₀ : Tcb P) : Stable (Widens t₀) where
  core _ := ⟨fun h => ⟨h.epoch, h.same⟩, fun h => ⟨h.epoch, h.same⟩⟩
  step _ _ _ hstep h := h.trans (widens_step hstep)

/-! ## Windows on the wire -/

/-- Units of the window scale that fit in `free` bytes are at most `free` bytes. -/
lemma units_le {units free : U32} {shift : ℕ} (h : units.toNat ≤ (free >>> shift).toNat) :
    units.toNat * 2 ^ shift ≤ free.toNat := by
  rw [BitVec.toNat_ushiftRight, Nat.shiftRight_eq_div_pow] at h
  exact (Nat.mul_le_mul_right _ h).trans (Nat.div_mul_le_self _ _)

/-- The units that `outbound_window` offers. -/
lemma outboundWindow_units (t : Tcb P) : ∃ units : U32,
    t.outboundWindow false = (units.setWidth 16, units <<< t.rcvWscale.toNat) ∧ units.toNat ≤ 65535 ∧
      units.toNat ≤ (BitVec.ofNat 32 t.recvRing.free >>> t.rcvWscale.toNat).toNat := by
  refine ⟨_, rfl, ?_, ?_⟩
  · rw [toNat_minB]
    exact min_le_right _ _
  · rw [toNat_minB]
    refine (min_le_left _ _).trans ?_
    split <;> rw [toNat_minB] <;> exact min_le_right _ _

/-- What the window field says, and what is remembered of it, is no more than the room of the ring. -/
lemma outboundWindow_le (t : Tcb P) :
    (t.outboundWindow false).1.toNat <<< t.rcvWscale.toNat ≤ t.recvRing.free ∧
      (t.outboundWindow false).2.toNat ≤ t.recvRing.free := by
  obtain ⟨units, hw, hcap, hfits⟩ := t.outboundWindow_units
  have hroom : units.toNat * 2 ^ t.rcvWscale.toNat ≤ t.recvRing.free := by
    refine (units_le hfits).trans ?_
    rw [BitVec.toNat_ofNat]
    exact Nat.mod_le _ _
  rw [hw]
  refine ⟨?_, ?_⟩
  · rw [Nat.shiftLeft_eq, BitVec.toNat_setWidth]
    exact (Nat.mul_le_mul_right _ (Nat.mod_le _ _)).trans hroom
  · rw [BitVec.toNat_shiftLeft, Nat.shiftLeft_eq]
    exact (Nat.mod_le _ _).trans hroom

/-- The window of a SYN. -/
lemma outboundWindow_syn (t : Tcb P) :
    (t.outboundWindow true).1.toNat ≤ (t.outboundWindow true).2.toNat ∧
      (t.outboundWindow true).2.toNat ≤ max t.recvRing.free t.curWindow.toNat := by
  have hadv : t.advertisedWindow.toNat ≤ max t.recvRing.free t.curWindow.toNat := by
    unfold advertisedWindow
    dsimp only
    split
    · rw [BitVec.toNat_ofNat]
      exact (Nat.mod_le _ _).trans (le_max_left _ _)
    · exact le_max_right _ _
  change (BitVec.setWidth 16 (minB t.advertisedWindow 65535)).toNat ≤ (minB t.advertisedWindow 65535).toNat ∧
    (minB t.advertisedWindow 65535).toNat ≤ _
  refine ⟨?_, ?_⟩
  · rw [BitVec.toNat_setWidth]
    exact Nat.mod_le _ _
  · rw [toNat_minB]
    exact (min_le_left _ _).trans hadv

/-- What is left of the windows offered so far, after another one was. -/
lemma curWindow_noted (t : Tcb P) (w : U32) :
    (t.noteAdvertised t.rcvNxt w).curWindow.toNat ≤ max t.curWindow.toNat w.toNat := by
  rw [curWindow]
  change (if seqGt (if seqGt (t.rcvNxt + w) t.rcvAdvEdge then t.rcvNxt + w else t.rcvAdvEdge) t.rcvNxt then
    (if seqGt (t.rcvNxt + w) t.rcvAdvEdge then t.rcvNxt + w else t.rcvAdvEdge) - t.rcvNxt else 0).toNat ≤ _
  by_cases hmore : seqGt (t.rcvNxt + w) t.rcvAdvEdge
  · rw [if_pos hmore]
    refine le_trans ?_ (le_max_right _ _)
    split
    · rw [BitVec.add_comm, BitVec.add_sub_cancel]
    · exact Nat.zero_le _
  · rw [if_neg hmore]
    exact le_max_left _ _

end Tcb

namespace Emission

/-- The segment acknowledges what was received and offers a window for more, and is no SYN. -/
def offers (e : Emission P) : Bool := e.header.flags.ack && !e.header.flags.syn && !e.header.flags.rst

/-- Where `RCV.NXT` was in the peer's stream when the segment was staged. -/
def rcvPos (e : Emission P) : ℕ :=
  e.delivered.length + e.recvRing.len + (e.state.isSynchronized && !e.state.canRecv).toNat

/-- The window, in bytes. -/
def window (e : Emission P) : ℕ := e.header.window.toNat <<< e.rcvWscale.toNat

/-- The right edge that the segment offers. -/
def edge (e : Emission P) : ℕ := e.rcvPos + e.window

end Emission

namespace Tcb

lemma PeerHeader.flag_ack {t : Tcb P} {fl : Flags} {seq ack : U32} {opts : TcpOptions} {h : Header}
    (hh : t.PeerHeader fl seq ack opts h) : h.flags.ack = fl.ack := by
  obtain ⟨ece, cwr, hfl, -⟩ := hh.flags
  rw [hfl]

lemma PeerHeader.flag_syn {t : Tcb P} {fl : Flags} {seq ack : U32} {opts : TcpOptions} {h : Header}
    (hh : t.PeerHeader fl seq ack opts h) : h.flags.syn = fl.syn := by
  obtain ⟨ece, cwr, hfl, -⟩ := hh.flags
  rw [hfl]

lemma PeerHeader.ack_of_advertises {t : Tcb P} {fl : Flags} {seq ack : U32} {opts : TcpOptions} {h : Header}
    (hh : t.PeerHeader fl seq ack opts h) (hadv : advertises h = true) : fl.ack = true := by
  rw [advertises, hh.flag_ack, Bool.and_eq_true] at hadv
  exact hadv.1

/-- An ACK of the connection is built by `emit_segment` from the block as it is. -/
structure Told (t : Tcb P) (e : Emission P) : Prop where
  recv : e.toRecvSeq = t.toRecvSeq
  ack : e.header.ack = t.rcvNxt
  window : e.window = (t.outboundWindow false).1.toNat <<< t.rcvWscale.toNat

lemma Told.of_header {t : Tcb P} {fl : Flags} {seq ack : U32} {opts : TcpOptions} {h : Header}
    {p pkt : List U8} (hh : t.PeerHeader fl seq ack opts h) (hack : ack = t.rcvNxt) (hsyn : fl.syn = false) :
    Told t (t.emission h p pkt) := by
  refine ⟨rfl, hh.ack.trans hack, ?_⟩
  change h.window.toNat <<< t.rcvWscale.toNat = _
  rw [hh.window, hsyn]

lemma Control.ack_eq {t : Tcb P} {fl : Flags} {seq ack : U32} {opts : TcpOptions} {d : Option (U32 × U32)}
    (hctl : t.Control fl seq ack opts d) (hack : fl.ack = true) : ack = t.rcvNxt := by
  cases hctl with
  | syn => cases hack
  | _ => rfl

/-- A control segment that advertises a window acknowledges `RCV.NXT`. -/
lemma Control.ack_next {t : Tcb P} {fl : Flags} {seq ack : U32} {opts : TcpOptions} {d : Option (U32 × U32)}
    {h : Header} (hctl : t.Control fl seq ack opts d) (hh : t.PeerHeader fl seq ack opts h)
    (hadv : advertises h = true) : h.ack = t.rcvNxt :=
  hh.ack.trans (hctl.ack_eq (hh.ack_of_advertises hadv))

lemma Emits.told {t : Tcb P} {e : Emission P} (he : Emits t e) (hoffers : e.offers = true) : Told t e := by
  rw [Emission.offers, Bool.and_eq_true, Bool.and_eq_true, Bool.not_eq_true', Bool.not_eq_true'] at hoffers
  obtain ⟨⟨hack, hsyn⟩, hrst⟩ := hoffers
  cases he with
  | control hctl hh hpkt =>
    exact .of_header hh (hctl.ack_eq (hh.flag_ack.symm.trans hack)) (hh.flag_syn.symm.trans hsyn)
  | stateless hh hpkt =>
    -- Neither a bare reset nor the SYN-ACK of a cookie.
    rcases hh with hfl | ⟨-, hone, -⟩
    · cases hrst.symm.trans (congrArg Flags.rst hfl)
    · cases hsyn.symm.trans hone
  | first hnew hopts hh hlen hpkt => exact .of_header hh rfl rfl
  | again hre hpart hopts hh hlen hpkt => exact .of_header hh rfl rfl
  | syn hstate hone hctl hh hpkt => cases hsyn.symm.trans (hh.flag_syn.trans hone)
  | synack hstate hone hctl hh hpkt => cases hsyn.symm.trans (hh.flag_syn.trans hone)

/-- A connection begins with its SYN. -/
lemma sent_of_new {t t' : Tcb P} {l : Option Segment} (hstep : Step t l t') (hne : t'.epoch ≠ t.epoch) :
    ∀ e ∈ t'.sent, e.header.flags.syn = true := by
  intro e he
  cases hstep with
  | @segment seg => exact absurd ((receiveSegment_frame t seg).of fun t => t.epoch) hne
  | connected hstate hsyn hctl hh hpkt =>
    rw [List.mem_singleton.mp he]
    exact hh.flag_syn.trans hsyn
  | halfOpened hstate _ _ _ _ hsyn hctl hh hpkt =>
    rw [List.mem_singleton.mp he]
    exact hh.flag_syn.trans hsyn
  | reset => cases he
  | cookieOpened => cases he
  | _ => exact absurd rfl hne

/-- All but a SYN is staged from the block as it is. -/
lemma Emits.side {t : Tcb P} {e : Emission P} (he : Emits t e) (hsyn : e.header.flags.syn = false) :
    e.toRecvSeq = t.toRecvSeq ∧ e.state = t.state := by
  cases he with
  | syn hstate hone hctl hh hpkt => cases hsyn.symm.trans (hh.flag_syn.trans hone)
  | synack hstate hone hctl hh hpkt => cases hsyn.symm.trans (hh.flag_syn.trans hone)
  | _ => exact ⟨rfl, rfl⟩

/-- The room there was when a segment was staged is still there. -/
def Behind (t : Tcb P) : Prop :=
  t.begun = true → ∀ e ∈ t.sent, e.header.flags.syn = false → e.rcvPos + e.recvRing.free ≤ t.rightEdge

lemma Behind.step (t : Tcb P) (l : Option Segment) (t' : Tcb P) (hstep : Step t l t') (h : Behind t) :
    Behind t' := by
  intro hbegun e he hsyn
  by_cases hsame : t'.epoch = t.epoch
  · obtain ⟨hstart, -, hedge⟩ := (widens_step hstep).same hsame hbegun
    have hold (hmem : e ∈ t.sent) : e.rcvPos + e.recvRing.free ≤ t'.rightEdge :=
      (h hstart e hmem hsyn).trans hedge
    have hnew (hemit : Emits t e) : e.rcvPos + e.recvRing.free ≤ t'.rightEdge := by
      obtain ⟨hrecv, hstate⟩ := hemit.side hsyn
      rw [Emission.rcvPos, hstate, show e.recvRing = t.recvRing from congrArg RecvSeq.recvRing hrecv,
        show e.delivered = t.delivered from congrArg RecvSeq.delivered hrecv]
      exact hedge
    rcases hstep.sent with hs | hs | ⟨e', hemit, hs | hs⟩ <;> rw [hs] at he
    · exact hold he
    · cases he
    · rcases List.mem_append.mp he with he | he
      · exact hold he
      · exact hnew (List.mem_singleton.mp he ▸ hemit)
    · exact hnew (List.mem_singleton.mp he ▸ hemit)
  · cases hsyn.symm.trans (sent_of_new hstep hsame e he)

lemma Behind.stable : Stable (Behind (P := P)) where
  core _ := Iff.rfl
  step := Behind.step

/-- A half-open connection has offered no more than its ring. -/
def Opening (t : Tcb P) : Prop := t.state = .synRcvd → t.curWindow.toNat ≤ P.BUF

lemma Opening.window {t : Tcb P} (h : Opening t) (hstate : t.state = .synRcvd) (isSyn : Bool) :
    (t.outboundWindow isSyn).2.toNat ≤ P.BUF := by
  have hroom : t.recvRing.free ≤ P.BUF := Nat.sub_le _ _
  cases isSyn with
  | false => exact t.outboundWindow_le.2.trans hroom
  | true => exact t.outboundWindow_syn.2.trans (max_le hroom (h hstate))

/-- Staging a segment that acknowledges `RCV.NXT`, if anything. -/
lemma Opening.emitted {t u : Tcb P} (h : Opening t) {hd : Header}
    (hack : advertises hd = true → hd.ack = t.rcvNxt) (hstate : u.state = t.state)
    (hnxt : u.rcvNxt = t.rcvNxt) (hedge : u.rcvAdvEdge = if advertises hd then
      (t.noteAdvertised hd.ack (t.outboundWindow hd.flags.syn).2).rcvAdvEdge else t.rcvAdvEdge) :
    Opening u := by
  intro hu
  have ht : t.state = .synRcvd := hstate.symm.trans hu
  rw [curWindow, hedge, hnxt]
  cases hadv : advertises hd with
  | false => exact h ht
  | true =>
    rw [hack hadv]
    exact (curWindow_noted t _).trans (max_le (h ht) (h.window ht _))

/-- The peer's SYN came: nothing was offered yet. -/
lemma Opening.of_fresh {t : Tcb P} (h : t.rcvAdvEdge = t.rcvNxt) : Opening t := by
  intro _
  rw [curWindow, h, if_neg (by rw [seqGt_iff, BitVec.sub_self]; simp)]
  exact Nat.zero_le _

lemma Opening.stable : Stable (Opening (P := P)) where
  core _ := Iff.rfl
  step t l t' hstep h := by
    cases hstep with
    | control hctl hh => exact h.emitted (fun hadv => hctl.ack_next hh hadv) rfl rfl rfl
    | first now hnew hshort hopts hh => exact h.emitted (fun _ => hh.ack) rfl rfl rfl
    | again now hre hpart hshort hopts hh => exact h.emitted (fun _ => hh.ack) rfl rfl rfl
    | @segment seg hstate =>
      intro hs
      have hsync := receiveSegment_isSynchronized seg (isSynchronized_of_canRecv hstate)
      rw [hs] at hsync
      cases hsync
    | @halfOpened seg _ _ _ _ _ _ _ _ _ hstate _ _ _ _ hsyn hctl hh =>
      have hfresh : Opening (t.halfOpen seg) := .of_fresh rfl
      exact hfresh.emitted (fun hadv => hctl.ack_next hh hadv) rfl rfl rfl
    | simultaneous => exact .of_fresh rfl
    | finWait2 => exact nofun
    | timeWait => exact nofun
    | @close s hstate =>
      rintro rfl
      rcases hstate with ⟨-, hs⟩ | ⟨-, hs⟩ <;> cases hs
    | abort => exact nofun
    | closeClean => exact nofun
    | timeWaitOver => exact nofun
    | reset hstate =>
      intro hs
      rcases hstate with rfl | rfl <;> cases hs
    | connected => exact nofun
    | activeOpened => exact nofun
    | passiveOpened => exact nofun
    | cookieOpened => exact nofun
    | _ => exact h

lemma takeFin_advances {t : Tcb P} (hrecv : t.state.canRecv = true) (seg : Segment) (segFin : Option U32) :
    ∃ f, Advances t (t.takeFin seg segFin).2 0 f := by
  cases segFin with
  | none => exact ⟨false, .refl t⟩
  | some f => exact receiveFin_advances hrecv seg.seq f

lemma maybeConsumeOooFin_advances (t : Tcb P) : ∃ f, Advances t t.maybeConsumeOooFin.2 0 f := by
  unfold maybeConsumeOooFin
  split
  case isTrue h =>
    rw [Bool.and_eq_true] at h
    exact ⟨true, consumeFin_advances h.2⟩
  case isFalse => exact ⟨false, .refl t⟩

/-! ## What comes within the window -/

/-- The receive side of a block. -/
def recvSide (t : Tcb P) : RecvSeq P × State := (t.toRecvSeq, t.state)

lemma rcvPos_of {t t' : Tcb P} (h : Agree recvSide t t') : t'.rcvPos = t.rcvPos := by
  have hseq : t'.toRecvSeq = t.toRecvSeq := congrArg Prod.fst h
  rw [rcvPos, rcvPos, received, received, finTaken, finTaken,
    show t'.state = t.state from congrArg Prod.snd h,
    show t'.delivered = t.delivered from congrArg RecvSeq.delivered hseq,
    show t'.recvRing = t.recvRing from congrArg RecvSeq.recvRing hseq]

/-- The block can receive, and what it received is `r`. -/
def Receiving (r : RecvSeq P) (t : Tcb P) : Prop := t.toRecvSeq = r ∧ t.state.canRecv = true

lemma ourFinAcked_receiving {r : RecvSeq P} {t : Tcb P} (h : Receiving r t) : Receiving r t.ourFinAcked := by
  have hrecv := h.2
  unfold ourFinAcked
  split
  · split
    case h_2 hs => rw [hs] at hrecv; cases hrecv
    case h_3 hs => rw [hs] at hrecv; cases hrecv
    case h_1 => exact ⟨h.1, rfl⟩
    case h_4 => exact h
  · exact h

/-- An ACK leaves what was received alone, and who can receive receives on. -/
lemma processAck_receiving (seg : Segment) (r : RecvSeq P) :
    Leaves (Keeps (Receiving r)) (processAck seg) := by
  have hkeeps {t t' : Tcb P} (h : Agree recvSide t t') : Keeps (Receiving r) t t' := fun ht =>
    ⟨(congrArg Prod.fst h).trans ht.1, by rw [show t'.state = t.state from congrArg Prod.snd h]; exact ht.2⟩
  have hreact : Leaves (Keeps (Receiving r)) (reactToAck seg) :=
    ((reactToAck_react seg).agree_of recvSide fun _ => rfl).mono fun _ _ => hkeeps
  refine Leaves.bind (Leaves.ofModify fun _ => hkeeps rfl) fun _ => Leaves.bind Leaves.ofGet fun t => ?_
  exact Leaves.ite (Leaves.ofPure _) (Leaves.bind hreact fun _ => Leaves.ofModify fun _ =>
    ourFinAcked_receiving)

lemma answerText_side (seg : Segment) (ackNow advanced : Bool) :
    Leaves (Agree (recvSide (P := P))) (answerText seg ackNow advanced) := by
  refine Leaves.ite (sendPureAck_footprint.agree_of recvSide fun _ => rfl)
    (Leaves.ite ?_ (Leaves.ite ?_ (Leaves.ofPure _)))
  · exact Leaves.ofModify fun t => (scheduleDelayedAck_footprint _ t).of recvSide
  · exact sendOowAck_footprint.agree_of recvSide fun _ => rfl

/-- What an accepted segment does to the receive side is `receive_segment`, once its ACK was processed. -/
lemma acceptSegment_side {t u : Tcb P} {seg : Segment} (hack : processAck seg (t.noteSegment seg) = .ok () u)
    (hrecv : u.state.canRecv = true) :
    Agree recvSide (u.receiveSegment seg).2 (final (acceptSegment seg false t)) := by
  have hopen : u.state ≠ .closed := by
    intro hs
    rw [hs] at hrecv
    cases hrecv
  have hrun : acceptSegment seg false t = (do
      answerText seg (u.receiveSegment seg).1 ((u.receiveSegment seg).2.rcvNxt != u.rcvNxt)
      maybeSendData) (u.receiveSegment seg).2 := by
    unfold acceptSegment
    rw [run_modify_bind, ← noteSegment, run_bind_ok hack, run_get_bind, if_neg hopen, if_neg (by decide)]
    rfl
  rw [hrun]
  exact Leaves.bind (answerText_side _ _ _)
    (fun _ => maybeSendData_footprint.agree_of recvSide fun _ => rfl) _

/-- Text that follows `RCV.NXT` and fits the ring is taken. -/
lemma receiveText_advances {t : Tcb P} {data : List U8} {segFin : Option U32} {ackNow : Bool}
    (hdata : data ≠ []) (hfits : data.length ≤ t.recvRing.free) :
    ∃ n, data.length ≤ n ∧ Advances t (t.receiveText t.rcvNxt data segFin ackNow).2 n false := by
  have hpos := List.length_pos_iff.mpr hdata
  unfold receiveText
  rw [BitVec.sub_self]
  dsimp only
  rw [BitVec.toNat_zero, if_neg (by omega), if_pos rfl, Nat.sub_zero, List.take_of_length_le hfits]
  obtain ⟨m, hm⟩ := absorbOoo_advances (t.appendText data) segFin
  exact ⟨_, by omega, (appendText_advances t data).trans hm nofun⟩

/-- A segment that begins at or before `RCV.NXT`, `lead` bytes of it known, is taken to its end. -/
lemma takeText_advances {t : Tcb P} {seg : Segment} {segFin : Option U32} {lead : ℕ}
    (hseq : seg.seq + BitVec.ofNat 32 lead = t.rcvNxt) (hlead : lead < seg.payload.length)
    (hfits : seg.payload.length - lead ≤ t.recvRing.free) :
    ∃ n, seg.payload.length - lead ≤ n ∧ Advances t (t.takeText seg segFin).2 n false := by
  have hshort := seg.payload_le
  unfold MAX_PAYLOAD at hshort
  have hne : seg.payload ≠ [] := List.ne_nil_of_length_pos (by omega)
  unfold takeText receivePayload
  rw [if_neg (by simpa using hne)]
  rcases Nat.eq_zero_or_pos lead with rfl | hpos
  · have hat : seg.seq = t.rcvNxt := by rw [← hseq]; exact (BitVec.add_zero _).symm
    rw [if_neg (by rw [hat, seqLt_iff, BitVec.sub_self]; simp), hat]
    exact receiveText_advances hne hfits
  · have hgap : (t.rcvNxt - seg.seq).toNat = lead := by
      rw [← hseq]
      bv_omega
    rw [if_pos (by rw [seqLt_iff]; bv_omega), hgap]
    have hrest : (seg.payload.drop lead).length = seg.payload.length - lead := List.length_drop
    have hrest0 : seg.payload.drop lead ≠ [] := List.ne_nil_of_length_pos (by omega)
    dsimp only
    rw [if_neg (by simpa using hrest0)]
    obtain ⟨n, hle, hadv⟩ := @receiveText_advances P ((t.countDup lead).noteDsack seg.seq t.rcvNxt) _
      segFin true hrest0 (by rw [hrest]; exact hfits)
    exact ⟨n, hrest ▸ hle, { hadv with }⟩

/-- The text of such a segment becomes readable, whatever comes of its FIN. -/
lemma receiveSegment_reaches {t : Tcb P} {seg : Segment} {lead : ℕ} (hrecv : t.state.canRecv = true)
    (hseq : seg.seq + BitVec.ofNat 32 lead = t.rcvNxt) (hlead : lead < seg.payload.length)
    (hfits : seg.payload.length - lead ≤ t.recvRing.free) :
    t.received + (seg.payload.length - lead) ≤ (t.receiveSegment seg).2.received := by
  obtain ⟨n, hle, htext⟩ := @takeText_advances P t seg (t.processedFin seg) lead hseq hlead hfits
  have hopen : (t.takeText seg (t.processedFin seg)).2.state.canRecv = true := by
    rw [htext.recv, hrecv]
    rfl
  obtain ⟨f, hfin⟩ := takeFin_advances hopen seg (t.processedFin seg)
  obtain ⟨g, hheld⟩ := maybeConsumeOooFin_advances
    ((t.takeText seg (t.processedFin seg)).2.takeFin seg (t.processedFin seg)).2
  have hall := (htext.trans hfin nofun).trans hheld fun _ => rfl
  have hrun : (t.receiveSegment seg).2 = (((t.takeText seg (t.processedFin seg)).2.takeFin seg
      (t.processedFin seg)).2.maybeConsumeOooFin).2 := by
    unfold receiveSegment
    rw [if_neg (by simp [hrecv])]
  rw [hrun, received, received, hall.delivered, hall.len]
  omega

/-- The window check lets it in. -/
lemma segmentAcceptable_consecutive {t : Tcb P} {seg : Segment} {lead : ℕ} (hbuf : P.BUF < 2 ^ 32)
    (hsyn : seg.flags.syn = false) (hseq : seg.seq + BitVec.ofNat 32 lead = t.rcvNxt)
    (hlead : lead < seg.payload.length) (hfits : seg.payload.length - lead ≤ t.recvRing.free)
    (hfin : lead = 0 ∨ seg.flags.fin = false) : t.segmentAcceptable seg = true := by
  have hshort := seg.payload_le
  unfold MAX_PAYLOAD at hshort
  have hlen := seg.toNat_payloadLen
  have hcap : t.recvRing.free ≤ P.BUF := Nat.sub_le _ _
  have hwnd : (BitVec.ofNat 32 t.recvRing.free).toNat = t.recvRing.free := by
    rw [BitVec.toNat_ofNat, Nat.mod_eq_of_lt (by omega)]
  have hflag : (ofFlag 32 seg.flags.fin).toNat ≤ 1 := by cases seg.flags.fin <;> decide
  have hseqLen : seg.seqLen = seg.payloadLen + ofFlag 32 seg.flags.fin := by
    rw [Segment.seqLen, hsyn]
    exact congrArg (· + _) (BitVec.add_zero _)
  have hne : seg.seqLen ≠ 0 := by
    rw [hseqLen]
    bv_omega
  have hne' : BitVec.ofNat 32 t.recvRing.free ≠ 0 := by bv_omega
  have hedge : t.rcvNxt + BitVec.ofNat 32 t.recvRing.free - t.rcvNxt = BitVec.ofNat 32 t.recvRing.free := by
    rw [BitVec.add_comm, BitVec.add_sub_cancel]
  rw [segmentAcceptable, acceptable]
  rw [if_neg hne, if_neg hne', Bool.or_eq_true, Bool.or_eq_true, decide_eq_true_iff, decide_eq_true_iff,
    seqInRange,
    seqInRange, hedge, hwnd]
  left
  rcases hfin with rfl | hfin
  · left
    have hat : seg.seq = t.rcvNxt := by rw [← hseq]; exact (BitVec.add_zero _).symm
    rw [hat, BitVec.sub_self, BitVec.toNat_zero]
    omega
  · right
    have hnone : ofFlag 32 seg.flags.fin = 0 := by rw [hfin]; rfl
    rw [hseqLen, hnone, ← hseq]
    bv_omega

/-- An acceptable segment whose text begins at place `n` of the stream, at or before `RCV.NXT`, and goes on
after it. -/
structure Consecutive (t : Tcb P) (seg : Segment) (n : ℕ) : Prop where
  ack : seg.flags.ack = true
  rst : seg.flags.rst = false
  syn : seg.flags.syn = false
  paws : t.pawsReject seg = false
  ackOk : t.ackAcceptable seg.ack = true
  place : seg.seq = t.irs + 1 + BitVec.ofNat 32 n
  le : n ≤ t.rcvPos
  fin : n = t.rcvPos ∨ seg.flags.fin = false
  more : t.rcvPos < n + seg.payload.length

lemma noteSegment_side (t : Tcb P) (seg : Segment) : Agree recvSide t (t.noteSegment seg) := by
  have hside (t : Tcb P) : t.exceptNoted.recvSide = t.recvSide := rfl
  rw [Agree, ← hside (t.noteSegment seg), noteSegment_noted t seg, hside]

/-- Such a segment is taken to its end if the ring has room for it. -/
lemma Consecutive.reaches (hbuf : P.BUF < 2 ^ 32) {t t' : Tcb P} (ht : Reachable t)
    (hrecv : t.state.canRecv = true) {c : Call} {seg : Segment} (hc : c.Delivers P seg)
    (hcall : CallStep t c t') (htuple : t.OnTuple seg) {n : ℕ}
    (h : t.Consecutive seg n) (hfits : n + seg.payload.length ≤ t.rightEdge) :
    n + seg.payload.length ≤ t'.rcvPos ∧ t'.rcvNxt = t.irs + 1 + BitVec.ofNat 32 t'.rcvPos := by
  have hsync := isSynchronized_of_canRecv hrecv
  have hle := h.le
  have hmore := h.more
  have hpos : t.rcvPos = t.received := by rw [rcvPos, finTaken_of_canRecv hrecv]; rfl
  have hseq : seg.seq + BitVec.ofNat 32 (t.rcvPos - n) = t.rcvNxt := by
    rw [ht.receipts.next hsync, ← rcvPos, h.place, BitVec.add_assoc, ← BitVec.ofNat_add,
      Nat.add_sub_cancel' hle]
  have hlead : t.rcvPos - n < seg.payload.length := by omega
  have hroom : seg.payload.length - (t.rcvPos - n) ≤ t.recvRing.free := by
    rw [rightEdge] at hfits
    omega
  have hok : t.segmentAcceptable seg = true :=
    segmentAcceptable_consecutive hbuf h.syn hseq hlead hroom (h.fin.imp (fun heq => by omega) id)
  have hprobe : t.zeroWindowProbe seg = false := by simp [zeroWindowProbe, hok]
  have haccept : injectSegment seg t = acceptSegment seg false t.countIn := by
    rw [injectSegment_of_accepted hsync htuple ⟨h.ack, h.rst, h.syn, .inl hok, h.paws, h.ackOk⟩, hprobe]
  set v := t.countIn.noteSegment seg with hv
  have hside : Agree recvSide t v := noteSegment_side t.countIn seg
  cases hrun : processAck seg v with
  | error e u =>
    -- An ACK raises nothing but the overflow of the send budget, and that is no return.
    have hcore : v.core = t.core :=
      (onPeerAlive_core _).trans ((updateEcnEcho_core _ seg).trans (updateTsRecent_core t.countIn seg))
    have hsoft : (machine (some seg)).Leads t v := leads_soft hcore
    have hproc : Refines (machine (some seg)) (processAck seg) v := by
      refine processAck_refines ?_ ?_ (.inl ?_)
      · rw [show v.state = t.state from congrArg Prod.snd hside]
        exact hsync
      · rw [show v.sndNxt = t.sndNxt from core_of hcore fun c => c.sndNxt]
        exact not_after_of_ackAcceptable h.ackOk
      · have hedge : Agree recvEdge t v := core_of hcore fun c => c.recvEdge
        rw [segmentAcceptable_of_recv hedge]
        exact hok
    obtain ⟨rfl, -⟩ := refines_fault hbuf hproc ((Backlog.stable hbuf).leads hsoft (ht.backlog hbuf))
      (stable_sizes.leads hsoft ht.sizes) hrun
    have hfault : injectSegment seg t = .error .panic u := by
      rw [haccept, acceptSegment, run_modify_bind]
      exact run_bind_error hrun _
    exact absurd hcall.1 (hc.not_returned hfault)
  | ok a u =>
    obtain ⟨hsame, hopen⟩ : Receiving t.toRecvSeq u := by
      have hkeep := processAck_receiving seg t.toRecvSeq v
      rw [hrun] at hkeep
      have hstate : v.state = t.state := congrArg Prod.snd hside
      exact hkeep ⟨congrArg Prod.fst hside, hstate ▸ hrecv⟩
    have hend : Agree recvSide (u.receiveSegment seg).2 t' := by
      rw [hcall.2, hc.final_run, haccept]
      exact acceptSegment_side hrun hopen
    have hnxt : u.rcvNxt = t.rcvNxt := congrArg RecvSeq.rcvNxt hsame
    have hring : u.recvRing = t.recvRing := congrArg RecvSeq.recvRing hsame
    have hdel : u.delivered = t.delivered := congrArg RecvSeq.delivered hsame
    have hrec : u.received = t.received := by rw [received, received, hring, hdel]
    have hreach := receiveSegment_reaches hopen (hnxt ▸ hseq) hlead (hring ▸ hroom)
    obtain ⟨m, f, hadv⟩ := receiveSegment_advances u seg
    have hsync' : t'.state.isSynchronized = true := by
      rw [show t'.state = (u.receiveSegment seg).2.state from congrArg Prod.snd hend]
      exact receiveSegment_isSynchronized seg (isSynchronized_of_canRecv hopen)
    have hirs : t'.irs = t.irs := by
      rw [show t'.irs = (u.receiveSegment seg).2.irs from congrArg (fun x => x.1.irs) hend, hadv.irs]
      exact congrArg RecvSeq.irs hsame
    refine ⟨?_, hirs ▸ (ht.step hcall).receipts.next hsync'⟩
    rw [rcvPos_of hend, rcvPos]
    omega

end Tcb

open Tcb

/-- An ACK offers no more than the room of the receive ring when it was staged, and a SYN-ACK no more than
the ring. -/
structure Offered (e : Emission P) : Prop where
  ack : e.offers = true → e.header.ack = e.rcvNxt ∧ e.window ≤ e.recvRing.free
  syn : e.header.flags.syn = true → e.header.flags.ack = true → e.header.window.toNat ≤ P.BUF

lemma Emits.offered {t : Tcb P} {e : Emission P} (hopen : Opening t) (he : Emits t e) : Offered e := by
  refine ⟨fun hoffers => ?_, fun hsyn hack => ?_⟩
  · have htold := he.told hoffers
    refine ⟨htold.ack.trans (congrArg RecvSeq.rcvNxt htold.recv).symm, ?_⟩
    rw [htold.window, show e.recvRing = t.recvRing from congrArg RecvSeq.recvRing htold.recv]
    exact t.outboundWindow_le.1
  · have hfrom {u : Tcb P} {fl : Flags} {seq ack : U32} {opts : TcpOptions} {h : Header}
        (hu : Opening u) (hstate : u.state = .synRcvd) (hh : u.PeerHeader fl seq ack opts h)
        (hone : fl.syn = true) : h.window.toNat ≤ P.BUF := by
      rw [hh.window, hone]
      exact u.outboundWindow_syn.1.trans (hu.window hstate true)
    cases he with
    | control hctl hh hpkt =>
      cases hctl with
      | synack hstate hts => exact hfrom hopen hstate hh rfl
      | syn => cases (hh.flag_ack.symm.trans hack)
      | _ => cases hh.flag_syn.symm.trans hsyn
    | stateless hh hpkt =>
      rcases hh with hfl | ⟨-, -, -, hwin⟩
      · cases (congrArg Flags.syn hfl).symm.trans hsyn
      · exact hwin
    | first hnew hopts hh hlen hpkt => cases hh.flag_syn.symm.trans hsyn
    | again hre hpart hopts hh hlen hpkt => cases hh.flag_syn.symm.trans hsyn
    | syn hstate hone hctl hh hpkt =>
      cases hctl with
      | synack hs => cases hs
      | syn => cases (hh.flag_ack.symm.trans hack)
      | _ => cases hone
    | synack hstate hone hctl hh hpkt => exact hfrom (.of_fresh rfl) rfl hh hone

lemma Reachable.offered {t : Tcb P} (ht : Reachable t) : ∀ e ∈ t.sent, Offered e :=
  (ht.stable (Opening.stable.sent fun _ _ hopen he => Emits.offered hopen he) fun cfg =>
    ⟨nofun, new_sent cfg⟩).2

/-- What was offered is still there. -/
lemma Reachable.edge_le {t : Tcb P} (ht : Reachable t) (hbegun : t.begun = true) {e : Emission P}
    (he : e ∈ t.sent) (hoffers : e.offers = true) : e.edge ≤ t.rightEdge := by
  have hsyn : e.header.flags.syn = false := by
    rw [Emission.offers, Bool.and_eq_true, Bool.and_eq_true, Bool.not_eq_true'] at hoffers
    exact hoffers.1.2
  have hseen := ht.stable Behind.stable (fun cfg _ => new_sent cfg) hbegun e he hsyn
  exact (Nat.add_le_add_left ((ht.offered e he).ack hoffers).2 _).trans hseen

/-- No ACK offers more than the receive ring has room for, and no SYN-ACK more than the ring; the right edge
of that room does not move left while the connection lasts; so an acceptable segment in order whose text ends
within any window that was offered is taken to its end. -/
theorem advertised_window_honoured (hbuf : P.BUF < 2 ^ 32) {t : Tcb P} (ht : Reachable t) :
    (∀ e ∈ t.sent, e.offers = true → e.header.ack = e.rcvNxt ∧ e.window ≤ e.recvRing.free) ∧
      (∀ e ∈ t.sent, e.header.flags.syn = true → e.header.flags.ack = true →
        e.header.window.toNat ≤ P.BUF) ∧
      (t.state.isSynchronized = true → t.rcvNxt = t.irs + 1 + BitVec.ofNat 32 t.rcvPos) ∧
      (∀ c t', CallStep t c t' → t'.epoch = t.epoch → t'.begun = true → t.rightEdge ≤ t'.rightEdge) ∧
      (t.state.canRecv = true → ∀ (c : Call) (seg : Segment) (t' : Tcb P) (n edge : ℕ),
        (edge ≤ P.BUF ∨ ∃ e ∈ t.sent, e.offers = true ∧ edge ≤ e.edge) →
        c.Delivers P seg → CallStep t c t' → t.OnTuple seg → t.Consecutive seg n →
          n + seg.payload.length ≤ edge →
          n + seg.payload.length ≤ t'.rcvPos ∧ t'.rcvNxt = t.irs + 1 + BitVec.ofNat 32 t'.rcvPos) := by
  refine ⟨fun e he => (ht.offered e he).ack, fun e he => (ht.offered e he).syn, ht.receipts.next,
    fun c t' hcall he hbegun => ?_, ?_⟩
  · have hwide := (Widens.stable t).call c t (.refl t)
    rw [← hcall.2] at hwide
    exact (hwide.same he hbegun).2.2
  · intro hrecv c seg t' n edge hedge hc hcall htuple hseg hwithin
    refine hseg.reaches hbuf ht hrecv hc hcall htuple (hwithin.trans ?_)
    rcases hedge with hle | ⟨e, he, hoffers, hle⟩
    · rw [rightEdge_eq]
      omega
    · exact hle.trans (ht.edge_le (begun_of_canRecv hrecv) he hoffers)

/-- One byte from the tiny client's peer. -/
def peerByte : List U8 := datagram peerAck [65]

lemma peerByte_parses : (parse tiny.littleEndian peerByte).toOption.isSome = true := by decide +kernel

/-- The tiny client takes the byte its peer sends within the window of the handshake's ACK. -/
theorem tiny_takes_offered_byte :
    1 ≤ (runAll [.injectPacket peerByte] tinyOpen).rcvPos ∧
      (runAll [.injectPacket peerByte] tinyOpen).rcvNxt =
        tinyOpen.irs + 1 + BitVec.ofNat 32 (runAll [.injectPacket peerByte] tinyOpen).rcvPos := by
  have hany : (tinyOpen.sent.any fun e => e.offers && decide (1 ≤ e.edge)) = true := by decide +kernel
  obtain ⟨e, hmem, he⟩ := List.any_eq_true.mp hany
  rw [Bool.and_eq_true, decide_eq_true_iff] at he
  have hone : 0 + ((parse tiny.littleEndian peerByte).toOption.get peerByte_parses).payload.length = 1 := by
    decide +kernel
  have hcall : CallStep tinyOpen (.injectPacket peerByte) (runAll [.injectPacket peerByte] tinyOpen) :=
    callStep_runAll (by decide +kernel)
  have htaken := (advertised_window_honoured (by decide) reachable_tinyOpen).2.2.2.2 (by decide +kernel)
    _ _ _ 0 1 (.inr ⟨e, hmem, he⟩) (.inl ⟨peerByte, rfl, parse_get peerByte_parses⟩) hcall
    ⟨by decide +kernel, by decide +kernel, by decide +kernel, by decide +kernel⟩
    ⟨by decide +kernel, by decide +kernel, by decide +kernel, by decide +kernel, by decide +kernel,
      by decide +kernel, by decide +kernel, .inl (by decide +kernel), by decide +kernel⟩ hone.le
  rw [hone] at htaken
  exact htaken

/-! ## Rings of 2³² bytes -/

/-- The header of a segment from a second peer. -/
def secondPeer : Header := { peerAck with srcPort := 81, seq := 8 }

/-- A listener with such rings is busy with one peer, and answers a second one with a cookie. -/
def vastAnswering : Tcb vast :=
  runAll [.setCookieSecret (Vector.replicate 16 0), .listen,
    .injectPacket (datagram { peerAck with seq := 5, ack := 0, flags := { syn := true } } []),
    .extractPacketWith,
    .injectPacket (datagram { secondPeer with seq := 7, ack := 0, flags := { syn := true } } [])]
    (Tcb.new ⟨⟨(10, 0, 0, 1), 1000⟩, ⟨(10, 0, 0, 2), 80⟩, 100, 1000⟩)

/-- What the second peer acknowledges. -/
def cookieAck : U32 := ((vastAnswering.sent.getLast?.map fun e => e.header.seq).getD 0) + 1

/-- The second peer's ACK opens the connection. -/
def vastPromoted : Tcb vast :=
  runAll [.injectPacket (datagram { secondPeer with ack := cookieAck } [])] vastAnswering

/-- The second peer's first byte. -/
def secondByte : List U8 := datagram { secondPeer with ack := cookieAck } [65]

lemma secondByte_parses : (parse vast.littleEndian secondByte).toOption.isSome = true := by decide +kernel

/-- The SYN-ACK of the cookie offers 65535 bytes; the first one is not taken. -/
theorem vast_refuses_offered_byte :
    Reachable vastAnswering ∧
      (vastAnswering.sent.any fun e => e.header.flags.syn && e.header.flags.ack && e.header.dstPort == 81 &&
        e.header.ack == 8 && e.header.window == 65535) = true ∧
      Reachable vastPromoted ∧ vastPromoted.state = .established ∧ vastPromoted.remoteEp.port = 81 ∧
      vastPromoted.irs = 7 ∧
      ∃ seg, parse vast.littleEndian secondByte = .ok seg ∧ vastPromoted.OnTuple seg ∧
        vastPromoted.Consecutive seg 0 ∧ seg.payload.length = 1 ∧
        (runAll [.injectPacket secondByte] vastPromoted).rcvNxt = 8 := by
  have hreach : Reachable vastAnswering := (Reachable.new _).runAll (by decide +kernel)
  refine ⟨hreach, by decide +kernel, hreach.runAll (by decide +kernel), by decide +kernel, by decide +kernel,
    by decide +kernel, _, parse_get secondByte_parses, ?_, ?_, by decide +kernel, by decide +kernel⟩
  · exact ⟨by decide +kernel, by decide +kernel, by decide +kernel, by decide +kernel⟩
  · exact ⟨by decide +kernel, by decide +kernel, by decide +kernel, by decide +kernel, by decide +kernel,
      by decide +kernel, by decide +kernel, .inl (by decide +kernel), by decide +kernel⟩

end TcpSansIo
