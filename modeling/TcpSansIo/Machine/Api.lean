import TcpSansIo.Machine.Timers

/-!
# Every call takes steps

`Call.run_refines`: a call of the public interface is a sequence of steps, up to what `core` forgets;
a call that injects a datagram takes steps from the segment it carries.  With it, what is true of the
core of a fresh block and kept by every step is true of every reachable block (`Reachable.stable`).
-/

namespace TcpSansIo

open Proc FixedWidth

variable {P : Params}

namespace Tcb

variable {s : Option Segment}

/-! ## Configuration -/

lemma setEgressPaused_leads (paused : Bool) (t : Tcb P) :
    (machine s).Leads t (setEgressPaused paused t) := by
  unfold setEgressPaused
  split
  · obtain ⟨d, hd, hspec⟩ := maybeArmTlp_spec t
    rw [hd]
    exact leads_quiet (.probe hspec) rfl
  · exact leads_soft rfl

lemma setMtu_refines (mtu : U16) (t : Tcb P) : Refines (interface s) (setMtu mtu) t := by
  refine Refines.get_bind ?_
  split
  case h_1 hstate => exact Refines.ofModify (leads_quiet (.mtuSet (.inl hstate)) rfl)
  case h_2 hstate => exact Refines.ofModify (leads_quiet (.mtuSet (.inr hstate)) rfl)
  case h_3 => exact Refines.ofThrow (.refused (by decide) (by decide))

lemma boundRestore_core (mss : U16) (t : Tcb P) :
    (boundRestore mss t).core = ({ t with toSizes := bounded t.toSizes mss } : Tcb P).core := by
  unfold boundRestore bounded
  dsimp only
  split <;> rfl

lemma markOversized_valid {q : RtxQueue P.RTX} {a b : U32} {f : Option Bool} (limit : U32)
    (h : q.Valid a b f) (i : ℕ) : (markOversized limit q i).Valid a b f := by
  unfold markOversized
  split
  · split
    · exact h.markLost i
    · exact h
  · exact h

lemma ignoreError_refines {x : TcbM P Unit} {t : Tcb P} (hx : Refines (machine s) x t) :
    Refines (machine s) (ignoreError x) t := by
  cases h : x t with
  | ok a t' =>
    refine Refines.congr ?_ hx
    unfold ignoreError
    rw [h]
  | error e t' =>
    cases e with
    | panic =>
      refine Refines.congr ?_ hx
      unfold ignoreError
      rw [h]
    | tcp e =>
      have hleads := hx.leads
      rw [h] at hleads
      have hrun : ignoreError x t = .ok () t' := by
        unfold ignoreError
        rw [h]
      exact Refines.of_ok hrun hleads

lemma updatePmtu_refines (mtu : U16) (t : Tcb P) : Refines (machine s) (updatePmtu mtu) t := by
  refine Refines.modify_bind (leads_quiet (.resized (.bounded mtu)) (boundRestore_core _ t)) ?_
  refine Refines.get_bind ?_
  split
  · exact Refines.ofPure _ _
  case isFalse hlt =>
    refine Refines.modify_bind (leads_quiet (.resized (.lowered (not_le.mp hlt))) rfl)
      (Refines.get_bind ?_)
    split
    · refine Refines.modify_bind (leads_quiet (.remark fun a b f h => ?_) rfl)
        (ignoreError_refines (maybeSendData_refines _))
      exact RtxQueue.Valid.foldl (fun q i h => markOversized_valid _ h i) _ h
    · exact Refines.ofPure _ _

lemma installCookieKey_core (t : Tcb P) (key : Key) : (t.installCookieKey key).core = t.core := by
  unfold installCookieKey
  dsimp only
  split <;> rfl

lemma setSecret_core (secret : Key) (t : Tcb P) : (setSecret secret t).core = t.core := by
  unfold setSecret
  dsimp only
  split
  · rfl
  · exact (installCookieKey_core _ _).trans rfl

lemma setCookieSecret_core (secret : Key) (t : Tcb P) : (setCookieSecret secret t).core = t.core :=
  Eq.trans (b := (t.installCookieKey secret).core) rfl (installCookieKey_core t secret)

lemma reinit_leads (cfg : TcbConfig) (t : Tcb P) : (machine s).Leads t (reinit cfg t) :=
  leads_quiet (.reset (.inl rfl) (.inr rfl)) rfl

/-! ## Connection control -/

lemma connect_refines (t : Tcb P) : Refines (interface s) connect t := by
  refine Refines.get_bind ?_
  split
  · exact Refines.ofThrow (.refused (by decide) (by decide))
  case isFalse hstate =>
    obtain ⟨t', fl, seq, ack, opts, d, h, pkt, ring, hrun, hfl, hctl, hh, hpkt, hcore⟩ :=
      emitSyn_opens (t := t.activeOpen) rfl P.txq_pos
    refine Refines.of_ok (run_bind_ok hrun _) ?_
    exact leads_quiet (.connected (not_not.mp hstate) hfl hctl hh hpkt (Deadline.isArmed_atMs _))
      (synOut_core hcore)

lemma listen_refines (t : Tcb P) : Refines (interface s) listen t := by
  refine Refines.get_bind ?_
  split
  case h_4 => exact Refines.ofThrow (.refused (by decide) (by decide))
  all_goals
    split
    · exact Refines.ofThrow (.refused (by decide) (by decide))
    · exact Refines.ofModify (leads_quiet (.reset (.inr rfl) (.inl rfl)) rfl)

lemma close_refines (t : Tcb P) : Refines (machine s) close t := by
  refine Refines.get_bind ?_
  split
  case h_1 hstate =>
    exact Refines.modify_bind (leads_quiet (.close (.inl ⟨.inl hstate, rfl⟩)) rfl)
      (maybeSendData_refines _)
  case h_2 hstate =>
    exact Refines.modify_bind (leads_quiet (.close (.inl ⟨.inr hstate, rfl⟩)) rfl)
      (maybeSendData_refines _)
  case h_3 hstate =>
    exact Refines.modify_bind (leads_quiet (.close (.inr ⟨hstate, rfl⟩)) rfl)
      (maybeSendData_refines _)
  all_goals first
    | exact Refines.ofPure _ _
    | exact Refines.ofModify (leads_quiet (.reset (.inl rfl) (.inl rfl)) rfl)

lemma abort_refines (t : Tcb P) : Refines (machine s) abort t := by
  refine Refines.get_bind ?_
  split
  case h_1 => exact Refines.ofPure _ _
  case h_4 =>
    exact (emitReset_refines t).bind fun _ t' _ => Refines.ofModify (leads_quiet .abort rfl)
  all_goals exact Refines.ofModify (leads_quiet .abort rfl)

/-! ## Data -/

lemma send_refines (data : List U8) (t : Tcb P) : Refines (interface s) (send data) t := by
  refine Refines.get_bind ?_
  split
  · exact Refines.ofThrow (.refused (by decide) (by decide))
  case isFalse hstate =>
    split
    · exact Refines.ofThrow (.refused (by decide) (by decide))
    · split
      · exact Refines.ofThrow (.refused (by decide) (by decide))
      · refine Refines.ofModifyGet (leads_quiet (.accept (fun _ => ?_) ?_) rfl)
        · exact not_not.mp hstate
        · exact t.sendRing.contents_write data

lemma sendReserve_refines (max : ℕ) (t : Tcb P) : Refines (interface s) (sendReserve max) t := by
  refine Refines.get_bind ?_
  split
  · exact Refines.ofThrow (.refused (by decide) (by decide))
  · dsimp only
    split
    · exact Refines.ofThrow (.refused (by decide) (by decide))
    · exact Refines.modify_bind (leads_soft rfl) (Refines.ofPure _ _)

/-- The host writes into space that is not part of the stream yet. -/
lemma sendFill_leads (offset : ℕ) (src : List U8) (t : Tcb P) :
    (machine s).Leads t (sendFill offset src t) := by
  unfold sendFill
  split
  · exact leads_soft rfl
  · have hstep : Step t none { t with
        sendRing := (t.sendRing.writeAt offset src).2, accepted := t.accepted ++ [] } :=
      .accept (fun h => absurd rfl h) (by rw [t.sendRing.contents_writeAt, List.append_nil])
    refine leads_quiet hstep ?_
    rw [List.append_nil]

lemma sendCommit_refines (n : ℕ) (t : Tcb P) : Refines (interface s) (sendCommit n) t := by
  refine Refines.modifyGet_bind (leads_soft rfl) (Refines.get_bind ?_)
  split
  · exact Refines.ofThrow (.refused (by decide) (by decide))
  case isFalse h =>
    simp only [not_or, not_not] at h
    refine Refines.ofModifyGet (leads_quiet (.accept (fun _ => h.2.2) ?_) rfl)
    dsimp only
    rw [Ring.contents_commit, ← Ring.length_contents, List.drop_left]

lemma restartFinWait2_core (t : Tcb P) : t.restartFinWait2.core = t.core := by
  unfold restartFinWait2
  split <;> rfl

lemma recv_refines (cap : ℕ) (t : Tcb P) : Refines (interface s) (recv cap) t := by
  refine Refines.get_bind ?_
  split
  case h_1 e herr => exact Refines.ofThrow (.stored herr)
  case h_2 herr =>
    refine Refines.modify_bind (leads_quiet (.deliver herr) rfl) ?_
    split
    · refine Refines.modify_bind (leads_soft (restartFinWait2_core _)) ?_
      exact (outward (maybeSendWindowUpdate_refines _)).bind_pure _
    · split
      · exact Refines.ofThrow (.refused (by decide) (by decide))
      · exact Refines.ofPure _ _

/-! ## Packets -/

/-- A buffer too small for the packet leaves it staged; any other buffer takes it. -/
lemma extractPacket_cases (cap : ℕ) (t : Tcb P) :
    (∃ pkt ∈ t.txRing.toList, cap < pkt.length ∧
        extractPacket cap t = .error (.tcp .bufferTooSmall) t) ∨
      ∃ pkt ring, extractPacket cap t = .ok pkt { t with txRing := ring } ∧
        ring.toList = t.txRing.toList.tail := by
  unfold extractPacket TxRing.popInto
  cases hget : t.txRing.get? 0 with
  | none =>
    refine .inr ⟨[], t.txRing, rfl, ?_⟩
    rw [RingQueue.get?_eq, List.getElem?_eq_none_iff] at hget
    rw [List.length_eq_zero_iff.mp (Nat.le_zero.mp hget)]
    rfl
  | some pkt =>
    dsimp only
    by_cases hcap : cap < pkt.length
    · rw [if_pos hcap]
      rw [RingQueue.get?_eq] at hget
      exact .inl ⟨pkt, List.mem_of_getElem? hget, hcap, rfl⟩
    · rw [if_neg hcap]
      exact .inr ⟨pkt, _, rfl, RingQueue.toList_popFront _⟩

lemma extractPacket_leads (cap : ℕ) (t : Tcb P) :
    (machine s).Leads t (final (extractPacket cap t)) := by
  rcases extractPacket_cases cap t with ⟨pkt, -, -, hrun⟩ | ⟨pkt, ring, hrun, hring⟩
  · rw [hrun]
    exact leads_soft rfl
  · rw [hrun]
    exact leads_quiet (.extracted hring) rfl

lemma extractPacketWith_leads (t : Tcb P) : (machine s).Leads t (extractPacketWith t).2 := by
  unfold extractPacketWith
  split
  case h_1 pkt ring h =>
    unfold TxRing.popWith at h
    obtain ⟨_, _, hpop⟩ := Option.map_eq_some_iff.mp h
    cases hpop
    exact leads_quiet (.extracted (RingQueue.toList_popFront _)) rfl
  case h_2 => exact leads_soft rfl

end Tcb

/-! ## Calls -/

open Tcb

/-- The segment a call hands to the connection, if it does. -/
def Call.taken (P : Params) : Call → Option Segment
  | .injectPacket packet => (parse P.littleEndian packet).toOption
  | .injectPacketL4CsumTrusted packet => (parseOpts P.littleEndian packet false).toOption
  | _ => none

/-- The datagrams a call injects. -/
def Call.injected : Call → List (List U8)
  | .injectPacket packet => [packet]
  | .injectPacketL4CsumTrusted packet => [packet]
  | _ => []

lemma injectParsed_refines {packet : List U8} {verify : Bool} (t : Tcb P) :
    Refines (interface (parseOpts P.littleEndian packet verify).toOption)
      (injectParsed (parseOpts P.littleEndian packet verify)) t := by
  cases h : parseOpts P.littleEndian packet verify with
  | ok seg => exact injectSegment_refines seg t
  | error e => exact Refines.ofThrow (.unparsed h)

/-- A call is a sequence of steps, up to a fault's site if it fails; that a packet does not fit the
caller's buffer is no fault of the block. -/
theorem Call.run_refines (c : Call) (hc : ∀ cap, c ≠ .extractPacket cap) (t : Tcb P) :
    Refines (interface (c.taken P)) c.run t := by
  cases c with
  | setNow now => exact outward ((Refines.ofModify (leads_soft rfl)).bind_pure _)
  | setEgressPaused paused =>
    exact outward ((Refines.ofModify (setEgressPaused_leads paused t)).bind_pure _)
  | setTxCsumOffload on => exact outward ((Refines.ofModify (leads_soft rfl)).bind_pure _)
  | setKeepalive idle intvl count => exact outward ((Refines.ofModify (leads_soft rfl)).bind_pure _)
  | setUserTimeout ms => exact outward ((Refines.ofModify (leads_soft rfl)).bind_pure _)
  | setFinWait2Timeout ms => exact outward ((Refines.ofModify (leads_soft rfl)).bind_pure _)
  | setMtu mtu => exact (setMtu_refines mtu t).bind_pure _
  | updatePmtu mtu => exact outward ((updatePmtu_refines mtu t).bind_pure _)
  | setSecret secret =>
    exact outward ((Refines.ofModify (leads_soft (setSecret_core secret t))).bind_pure _)
  | setCookieSecret secret =>
    exact outward ((Refines.ofModify (leads_soft (setCookieSecret_core secret t))).bind_pure _)
  | reinit cfg => exact outward ((Refines.ofModify (reinit_leads cfg t)).bind_pure _)
  | connect => exact (connect_refines t).bind_pure _
  | listen => exact (listen_refines t).bind_pure _
  | close => exact outward ((close_refines t).bind_pure _)
  | abort => exact outward ((abort_refines t).bind_pure _)
  | send data => exact (send_refines data t).bind_pure _
  | sendReserve max => exact (sendReserve_refines max t).bind_pure _
  | sendFill offset src =>
    exact outward ((Refines.ofModify (sendFill_leads offset src t)).bind_pure _)
  | sendCommit n => exact (sendCommit_refines n t).bind_pure _
  | recv cap => exact (recv_refines cap t).bind_pure _
  | extractPacket cap => exact absurd rfl (hc cap)
  | extractPacketWith => exact outward ((Refines.ofModifyGet (extractPacketWith_leads t)).bind_pure _)
  | injectPacket packet => exact (injectParsed_refines t).bind_pure _
  | injectPacketL4CsumTrusted packet => exact (injectParsed_refines t).bind_pure _
  | tick => exact outward ((runTimers_refines t).bind_pure _)

/-- A call is a sequence of steps. -/
theorem Call.run_leads (c : Call) (t : Tcb P) : (machine (c.taken P)).Leads t (final (c.run t)) := by
  by_cases hc : ∃ cap, c = .extractPacket cap
  · obtain ⟨cap, rfl⟩ := hc
    rw [Call.run, final_bind_pure]
    exact extractPacket_leads cap t
  · exact (c.run_refines (not_exists.mp hc) t).leads

/-- Every step keeps `I`, which depends on the core of a block only. -/
structure Stable (I : Tcb P → Prop) : Prop where
  core : ∀ t, I t.core ↔ I t
  step : ∀ t l t', Step t l t' → I t → I t'

/-- Every step that takes something from `s` or from no segment keeps `I`, which depends on the core of
a block only. -/
structure StableOn (s : Option Segment) (I : Tcb P → Prop) : Prop where
  core : ∀ t, I t.core ↔ I t
  step : ∀ t l t', l = none ∨ l = s → Step t l t' → I t → I t'

lemma Stable.on {I : Tcb P → Prop} (h : Stable I) (s : Option Segment) : StableOn s I where
  core := h.core
  step t l t' _ hstep ht := h.step t l t' hstep ht

/-- What these steps keep holds wherever they lead. -/
lemma StableOn.leads {s : Option Segment} {I : Tcb P → Prop} (h : StableOn s I) {t t' : Tcb P}
    (hleads : (machine s).Leads t t') (ht : I t) : I t' := by
  refine (h.core _).mp (Via.keeps (I := I) ?_ hleads ((h.core t).mpr ht))
  rintro _ l _ hl ⟨u, u', rfl, rfl, hstep⟩ hu
  exact (h.core u').mpr (h.step u l u' hl hstep ((h.core u).mp hu))

/-- What these steps keep, a computation that takes them keeps, also one that fails. -/
lemma StableOn.run {s : Option Segment} {I : Tcb P → Prop} (h : StableOn s I) {α : Type} {x : TcbM P α}
    {t : Tcb P} (hx : Refines (machine s) x t) (ht : I t) : I (final (x t)) := h.leads hx.leads ht

lemma Stable.leads {I : Tcb P → Prop} (h : Stable I) {s : Option Segment} {t t' : Tcb P}
    (hleads : (machine s).Leads t t') (ht : I t) : I t' := (h.on s).leads hleads ht

lemma Stable.run {I : Tcb P → Prop} (h : Stable I) {s : Option Segment} {α : Type} {x : TcbM P α}
    {t : Tcb P} (hx : Refines (machine s) x t) (ht : I t) : I (final (x t)) := (h.on s).run hx ht

lemma Stable.call {I : Tcb P → Prop} (h : Stable I) (c : Call) (t : Tcb P) (ht : I t) :
    I (final (c.run t)) := h.leads (c.run_leads t) ht

/-- What holds of fresh blocks and is kept by every step holds of every reachable block. -/
theorem Reachable.stable {I : Tcb P → Prop} (h : Stable I) (hnew : ∀ cfg, I (Tcb.new cfg))
    {t : Tcb P} (ht : Reachable t) : I t := by
  refine ht.invariant hnew fun t c t' hI hcall => ?_
  rw [hcall.2]
  exact h.call c t hI

/-- What holds of fresh blocks and is kept by every call that satisfies `ok` holds of every block such
calls reach. -/
lemma ReachableBy.invariant {ok : Tcb P → Call → Prop} {I : Tcb P → Prop}
    (hnew : ∀ cfg, I (Tcb.new cfg)) (hcall : ∀ t c, Reachable t → ok t c → I t → I (final (c.run t)))
    {t : Tcb P} (ht : ReachableBy ok t) : I t := by
  induction ht with
  | new cfg => exact hnew cfg
  | step hreach hok hstep ih =>
    rw [hstep.2]
    exact hcall _ _ hreach.reachable hok ih

/-- Blocks that any sequence of calls makes of `t`. -/
inductive Follows (t : Tcb P) : Tcb P → Prop
  | refl : Follows t t
  | step {t' t'' : Tcb P} {c : Call} : Follows t t' → CallStep t' c t'' → Follows t t''

namespace Follows

variable {t t' t'' : Tcb P}

lemma stable {I : Tcb P → Prop} (h : Stable I) (ht : Follows t t') (hI : I t) : I t' := by
  induction ht with
  | refl => exact hI
  | step _ hcall ih =>
    rw [hcall.2]
    exact h.call _ _ ih

lemma reachable (ht : Follows t t') (h : Reachable t) : Reachable t' := by
  induction ht with
  | refl => exact h
  | step _ hcall ih => exact ih.step hcall

lemma trans (h : Follows t t') (h' : Follows t' t'') : Follows t t'' := by
  induction h' with
  | refl => exact h
  | step _ hcall ih => exact ih.step hcall

lemma runAll {calls : List Call} (h : Follows t t') (hr : allReturned calls t' = true) :
    Follows t (runAll calls t') := by
  induction calls generalizing t' with
  | nil => exact h
  | cons c cs ih =>
    rw [allReturned, Bool.and_eq_true, decide_eq_true_iff] at hr
    exact ih (h.step ⟨hr.1, rfl⟩) hr.2

end Follows

end TcpSansIo
