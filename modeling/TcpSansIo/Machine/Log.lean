import TcpSansIo.Receive.Intake

/-!
# The record of staged segments

Every segment that is staged is recorded with the block it was staged from.  `Emits t e` says that one
step from `t` stages the segment recorded as `e`, and why.  A step stages at most one segment, and a
new connection begins a new record (`Step.sent`); so what every emission from a block with an
invariant satisfies, every recorded segment satisfies (`Stable.sent`).
-/

namespace TcpSansIo

open Proc FixedWidth

variable {P : Params}

namespace Tcb

/-- A step from `t` stages the segment recorded as an emission. -/
inductive Emits (t : Tcb P) : Emission P → Prop
  | control {fl : Flags} {seq ack : U32} {opts : TcpOptions} {d : Option (U32 × U32)} {h : Header}
      {pkt : List U8} {ring : TxRing P.TXQ} (hctl : t.Control fl seq ack opts d)
      (hh : t.PeerHeader fl seq ack opts h) (hpkt : t.Staged h [] pkt ring) :
      Emits t (t.emission h [] pkt)
  | stateless {h : Header} {pkt : List U8} {ring : TxRing P.TXQ}
      (hh : h.flags = { rst := true } ∨
        (¬ t.ToPeer h ∧ h.flags.syn = true ∧ h.flags.fin = false ∧ h.window.toNat ≤ P.BUF))
      (hpkt : t.Staged h [] pkt ring) : Emits t (t.emission h [] pkt)
  | first {len : U32} {fin : Bool} {probe : Option (U32 × U16)} {opts : TcpOptions}
      {d : Option (U32 × U32)} {h : Header} {pkt : List U8} {ring : TxRing P.TXQ}
      (hnew : t.NewOk len fin probe) (hopts : t.OptionsFor len opts d)
      (hh : t.PeerHeader { ack := true, psh := decide (0 < len.toNat), fin := fin } t.sndNxt t.rcvNxt
        opts h)
      (hlen : (t.bytesAt t.sndNxt len).length = len.toNat)
      (hpkt : t.Staged h (t.bytesAt t.sndNxt len) pkt ring) :
      Emits t (t.emission h (t.bytesAt t.sndNxt len) pkt)
  | again {i : ℕ} {s : Seg} {len : U32} {opts : TcpOptions} {d : Option (U32 × U32)} {h : Header}
      {pkt : List U8} {ring : TxRing P.TXQ} (hre : t.ResendOk i s)
      (hpart : len = minB s.payloadLen t.mssPayload) (hopts : t.OptionsFor len opts d)
      (hh : t.PeerHeader
        { ack := true, psh := decide (0 < len.toNat), fin := s.flags.fin && len == s.payloadLen }
        s.start t.rcvNxt opts h)
      (hlen : (t.bytesAt s.start len).length = len.toNat)
      (hpkt : t.Staged h (t.bytesAt s.start len) pkt ring) :
      Emits t (t.emission h (t.bytesAt s.start len) pkt)
  | syn {fl : Flags} {seq ack : U32} {opts : TcpOptions} {d : Option (U32 × U32)} {h : Header}
      {pkt : List U8} {ring : TxRing P.TXQ} (hstate : t.state = .closed) (hsyn : fl.syn = true)
      (hctl : t.activeOpen.Control fl seq ack opts d)
      (hh : t.activeOpen.PeerHeader fl seq ack opts h) (hpkt : t.activeOpen.Staged h [] pkt ring) :
      Emits t (t.activeOpen.emission h [] pkt)
  | synack {seg : Segment} {fl : Flags} {seq ack : U32} {opts : TcpOptions} {d : Option (U32 × U32)}
      {h : Header} {pkt : List U8} {ring : TxRing P.TXQ} (hstate : t.state = .listen)
      (hsyn : fl.syn = true) (hctl : (t.halfOpen seg).Control fl seq ack opts d)
      (hh : (t.halfOpen seg).PeerHeader fl seq ack opts h)
      (hpkt : (t.halfOpen seg).Staged h [] pkt ring) : Emits t ((t.halfOpen seg).emission h [] pkt)

end Tcb

open Tcb

/-- What a step does to the record of staged segments. -/
lemma Step.sent {t t' : Tcb P} {l : Option Segment} (h : Step t l t') :
    t'.sent = t.sent ∨ t'.sent = [] ∨ ∃ e, Emits t e ∧ (t'.sent = t.sent ++ [e] ∨ t'.sent = [e]) := by
  cases h with
  | control hctl hh hpkt => exact .inr (.inr ⟨_, .control hctl hh hpkt, .inl rfl⟩)
  | stateless hh hpkt => exact .inr (.inr ⟨_, .stateless hh hpkt, .inl rfl⟩)
  | first now hnew hshort hopts hh hlen hpkt =>
    exact .inr (.inr ⟨_, .first hnew hopts hh hlen hpkt, .inl rfl⟩)
  | again now hre hpart hshort hopts hh hlen hpkt =>
    exact .inr (.inr ⟨_, .again hre hpart hopts hh hlen hpkt, .inl rfl⟩)
  | connected hstate hsyn hctl hh hpkt =>
    exact .inr (.inr ⟨_, .syn hstate hsyn hctl hh hpkt, .inr rfl⟩)
  | halfOpened hstate _ _ _ _ hsyn hctl hh hpkt =>
    exact .inr (.inr ⟨_, .synack hstate hsyn hctl hh hpkt, .inr rfl⟩)
  | @segment seg => exact .inl ((receiveSegment_frame t seg).of fun t => t.sent)
  | reset => exact .inr (.inl rfl)
  | cookieOpened => exact .inr (.inl rfl)
  | _ => exact .inl rfl

/-- A fresh block has staged nothing. -/
lemma new_sent {Q : Emission P → Prop} (cfg : TcbConfig) : ∀ e ∈ (Tcb.new cfg : Tcb P).sent, Q e := by
  intro e he
  rw [show (Tcb.new cfg : Tcb P).sent = [] from rfl] at he
  cases he

/-- What holds of every emission from a block with an invariant holds of every recorded segment. -/
lemma Stable.sent {I : Tcb P → Prop} {Q : Emission P → Prop} (hI : Stable I)
    (hQ : ∀ t e, I t → Emits t e → Q e) : Stable fun t : Tcb P => I t ∧ ∀ e ∈ t.sent, Q e where
  core t := and_congr_left' (hI.core t)
  step t l t' hstep h := by
    refine ⟨hI.step t l t' hstep h.1, fun e he => ?_⟩
    rcases hstep.sent with hsame | hnil | ⟨e', hemit, happ | hone⟩
    · rw [hsame] at he
      exact h.2 e he
    · rw [hnil] at he
      cases he
    · rw [happ, List.mem_append, List.mem_singleton] at he
      rcases he with he | rfl
      · exact h.2 e he
      · exact hQ t e h.1 hemit
    · rw [hone, List.mem_singleton] at he
      rw [he]
      exact hQ t e' h.1 hemit

end TcpSansIo
