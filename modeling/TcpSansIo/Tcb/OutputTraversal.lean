import TcpSansIo.Tcb.Footprint

/-!
# Relations the send loop respects

To show that sending data relates the block before and after it by some preorder, it is enough to look at
the data segment itself and at the bookkeeping around it: `OutputAtoms.maybeSendData` walks the send loop
once.
-/

namespace TcpSansIo

open Proc FixedWidth

variable {P : Params}

namespace Tcb

/-- What sending data does: data segments, and the bookkeeping of first transmissions, retransmissions,
path-MTU probes and the persist timer. -/
structure OutputAtoms (R : Tcb P → Tcb P → Prop) : Prop where
  segments : ∀ {fl : Flags}, fl.ack = true → fl.rst = false → ∀ (seq : U32) (payload : RingSlice) (ect : Bool),
    Leaves R (emitDataSegment (P := P) fl seq payload ect)
  records : ∀ (t : Tcb P) (q : RtxQueue P.RTX), R t { t with rtx := q }
  news : ∀ (seq len seqLen : U32) (fin : Bool) (t : Tcb P), R t (noteNew seq len seqLen fin t)
  again : ∀ (i : ℕ) (s : Seg) (plen sentLen : U32) (t : Tcb P), R t (noteRetransmit i s plen sentLen t)
  idles : ∀ (mss : U32) (t : Tcb P), R t (idleRestart mss t)
  limited : ∀ t : Tcb P, R t { t with cwndLimited := true }
  probes : ∀ (t : Tcb P) (seq : U32) (probe : Option (U32 × U16)), R t (t.noteProbe seq probe)
  fails : ∀ (s : Seg) (t : Tcb P), R t (failProbeOver s t)
  persists : ∀ t : Tcb P, R t t.updatePersist

namespace OutputAtoms

variable {R : Tcb P → Tcb P → Prop} [Std.Refl R] [IsTrans (Tcb P) R]

/-- A first transmission: the segment, its record, the books. -/
lemma emitNew (h : OutputAtoms R) (len : U32) (fin : Bool) : Leaves R (Tcb.emitNew (P := P) len fin) := by
  refine Leaves.bind Leaves.ofGet fun t => ?_
  dsimp only
  split
  · exact Leaves.ofThrow _
  refine Leaves.bind (h.segments rfl rfl _ _ _) fun queued => Leaves.ite ?_ (Leaves.ofPure _)
  refine Leaves.bind (Leaves.ofModifyGet fun u => h.records u _) fun pushed => Leaves.ite ?_ (Leaves.ofThrow _)
  exact Leaves.bind (Leaves.ofModify fun u => h.news _ _ _ _ u) fun _ => Leaves.ofPure _

lemma sendNew (h : OutputAtoms R) : Leaves R (Tcb.sendNew (P := P)) := by
  refine Leaves.bind Leaves.ofGet fun t => ?_
  refine Leaves.ite (Leaves.ite (h.emitNew _ _) (Leaves.ofPure _)) ?_
  refine Leaves.ite (Leaves.ofPure _) (Leaves.ite ?_ ?_)
  · exact Leaves.bind (Leaves.ofModify h.limited) fun _ => Leaves.ofPure _
  split
  · exact Leaves.ofPure _
  refine Leaves.bind (Leaves.ofModify (h.idles _)) fun _ => Leaves.bind (h.emitNew _ _) fun _ => ?_
  refine Leaves.bind (Leaves.ofModify fun u => ?_) fun _ => Leaves.ofPure _
  split
  · exact h.probes u _ _
  · exact refl_of R u

lemma retransmit (h : OutputAtoms R) (i : ℕ) : Leaves R (Tcb.retransmit (P := P) i) := by
  have hresend (s : Seg) : Leaves R (Tcb.resend (P := P) i s) := by
    refine Leaves.bind Leaves.ofGet fun t => ?_
    dsimp only
    split
    · exact Leaves.ofThrow _
    refine Leaves.bind (h.segments rfl rfl _ _ _) fun queued => Leaves.ite ?_ (Leaves.ofPure _)
    exact Leaves.bind (Leaves.ofModify fun u => h.again _ _ _ _ u) fun _ => Leaves.ofPure _
  refine Leaves.bind Leaves.ofGet fun t => ?_
  split
  · exact Leaves.ofPure _
  refine Leaves.bind (Leaves.ofModify (h.fails _)) fun _ => Leaves.bind (Leaves.ofModify fun u => ?_) fun _ =>
    Leaves.bind Leaves.ofGet fun _ => hresend _
  unfold splitForMss
  split
  · exact h.records u _
  · exact refl_of R u

lemma sendOne (h : OutputAtoms R) : Leaves R (Tcb.sendOne (P := P)) := by
  refine Leaves.bind (Leaves.ofModifyGet fun u => h.records u _) fun next => ?_
  split
  · refine Leaves.bind Leaves.ofGet fun t => Leaves.ite ?_ (h.retransmit _)
    exact Leaves.bind (Leaves.ofModify h.limited) fun _ => Leaves.ofPure _
  · exact h.sendNew

/-- By induction on the rounds left. -/
lemma sendLoop (h : OutputAtoms R) (fuel : ℕ) (guard : U32) : Leaves R (Tcb.sendLoop (P := P) fuel guard) := by
  induction fuel generalizing guard with
  | zero => exact Leaves.ofThrow _
  | succ fuel ih =>
    refine Leaves.bind Leaves.ofGet fun t => Leaves.ite (Leaves.ofPure _) ?_
    split
    · exact Leaves.ofThrow _
    refine Leaves.ite (Leaves.ite (Leaves.ofThrow _) (Leaves.ofPure _)) ?_
    exact Leaves.bind h.sendOne fun _ => Leaves.ite (ih _) (Leaves.ofPure _)

/-- The send loop and the persist timer after it, as they run in a state that sends. -/
lemma loop (h : OutputAtoms R) : Leaves R (do
    Tcb.sendLoop (P.TXQ + 1) 0
    modify updatePersist : TcbM P Unit) :=
  Leaves.bind (h.sendLoop _ _) fun _ => Leaves.ofModify h.persists

/-- Output of data, from its parts. -/
lemma maybeSendData (h : OutputAtoms R) : Leaves R (Tcb.maybeSendData (P := P)) :=
  Leaves.bind Leaves.ofGet fun _ => Leaves.ite (Leaves.ofPure _) h.loop

end OutputAtoms

end Tcb

end TcpSansIo
