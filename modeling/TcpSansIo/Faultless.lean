import TcpSansIo.Invariants
import TcpSansIo.Send.Sizes

/-!
# No internal failure

`emit_new` and `resend` give up with an internal error if a segment is too long for a packet, if its
bytes are not in the send ring, or if the retransmission queue has no room for its record.  None of it
happens: the caps keep segments short (`SizesOk`), and what is in flight is the front of the ring
(`Backlog`).  So what fails, fails for a reason the caller gave (`calls_fail_for_cause`), and a datagram
that is refused leaves no trace (`refused_input_has_no_effect`, `rejected_datagram_leaves_no_trace`).
-/

namespace TcpSansIo

open Proc FixedWidth

variable {P : Params}

namespace Tcb

variable {t : Tcb P}

/-! ## Segments fit -/

lemma SizesOk.mssCap_le (h : SizesOk t.toSizes) : t.localMss.toNat ≤ 1460 := by
  have hmtu := h.mtu
  have hlocal := h.localMss
  omega

/-- Options and data of every size that is sent fit a packet. -/
lemma SizesOk.fits (h : SizesOk t.toSizes) {len : U32} {probe : Option (U32 × U16)}
    (hlen : t.SizeOk len probe) :
    40 + (segmentOptions len t).1.encodedLen + len.toNat ≤ MAX_PACKET := by
  have hlocal := h.mssCap_le
  have hcap := toNat_mssCap t
  have hpay := h.mssPayload
  have hmax : MAX_PACKET = 1500 := rfl
  have hopts : (segmentOptions len t).1.encodedLen ≤ t.tsBytes ∨
      (segmentOptions len t).1.encodedLen + len.toNat ≤ t.mssCap.toNat :=
    (segmentOptions_encodedLen len t).2
  cases probe with
  | none =>
    change len.toNat ≤ t.mssPayload.toNat at hlen
    omega
  | some p =>
    have := hlen.2.within hopts
    omega

lemma sendable {off : ℕ} {len : U32}
    (hfits : 40 + (segmentOptions len t).1.encodedLen + len.toNat ≤ MAX_PACKET)
    (hbytes : off + len.toNat ≤ t.sendRing.len) : ¬ t.Unsendable off len.toNat := by
  intro hbad
  refine hbad ⟨?_, ?_⟩
  · rw [BitVec.ofNat_toNat, BitVec.setWidth_eq]
    exact hfits
  · rw [t.sendRing.peekAt_eq hbytes, List.length_map, List.length_range]

lemma emitNew_never (hbuf : P.BUF < 2 ^ 32) (h : Backlog t) (hz : SizesOk t.toSizes) {len : U32} {fin : Bool}
    {probe : Option (U32 × U16)} (hnew : t.NewOk len fin probe) (e : Fault) (t' : Tcb P) : emitNew len fin t ≠ .error e t' := by
  intro herr
  rcases emitNew_cases (s := none) hnew with ⟨_, _, -, -, hbad⟩ | ⟨_, hrun, -⟩ | ⟨_, hrun, -⟩
  · exact sendable (hz.fits hnew.size) (h.new_le hbuf hnew) hbad
  · cases hrun.symm.trans herr
  · cases hrun.symm.trans herr

lemma resend_never (h : Backlog t) (hz : SizesOk t.toSizes) {i : ℕ} {s : Seg} (hre : t.ResendOk i s) (e : Fault)
    (t' : Tcb P) : resend i s t ≠ .error e t' := by
  intro herr
  rcases resend_cases (s := none) hre with ⟨_, _, -, -, hbad⟩ | ⟨_, hrun, -⟩ | ⟨_, hrun, -⟩
  · have hlen : (minB s.payloadLen t.mssPayload).toNat = min s.payloadLen.toNat t.mssPayload.toNat :=
      toNat_minB _ _
    have hbytes := h.record_le (RtxQueue.mem_of_get hre.record)
    have hsize : t.SizeOk (minB s.payloadLen t.mssPayload) none := by
      change (minB s.payloadLen t.mssPayload).toNat ≤ t.mssPayload.toNat
      omega
    exact sendable (hz.fits hsize) (by omega) hbad
  · cases hrun.symm.trans herr
  · cases hrun.symm.trans herr

/-- The one internal fault left is a send budget that leaves its type. -/
lemma budget_overflows {e : Fault} (hsite : FaultSite t e) (hbuf : P.BUF < 2 ^ 32) (h : Backlog t)
    (hz : SizesOk t.toSizes) : e = .panic ∧ 2 ^ 32 ≤ P.TXQ + 2 := by
  rcases hsite with ⟨hnew, herr⟩ | ⟨hre, herr⟩ | hfull | hout
  · exact absurd herr (emitNew_never hbuf h hz hnew _ _)
  · exact absurd herr (resend_never h hz hre _ _)
  · exact ⟨rfl, hfull⟩
  · have hlt := h.flight.out_lt
    unfold out at hlt
    omega

end Tcb

open Tcb

/-! ## Computations that take steps return -/

section

variable {α : Type} {s : Option Segment} {x : TcbM P α} {t : Tcb P}

lemma refines_fault (hbuf : P.BUF < 2 ^ 32) (hx : Refines (machine s) x t) (h : Backlog t)
    (hz : SizesOk t.toSizes) {e : Fault} {t' : Tcb P} (hrun : x t = .error e t') :
    e = .panic ∧ 2 ^ 32 ≤ P.TXQ + 2 := by
  obtain ⟨u, hleads, hsite⟩ := hx.faults e t' hrun
  exact budget_overflows hsite hbuf ((Backlog.stable hbuf).leads hleads h) (stable_sizes.leads hleads hz)

/-- Where panics are no return, or do not happen, a computation that takes steps succeeds. -/
lemma refines_succeeds (hbuf : P.BUF < 2 ^ 32) (hx : Refines (machine s) x t) (h : Backlog t)
    (hz : SizesOk t.toSizes) (hcame : P.TXQ + 2 < 2 ^ 32 ∨ Returned (x t)) : ∃ a t', x t = .ok a t' := by
  cases hrun : x t with
  | ok a t' => exact ⟨a, t', rfl⟩
  | error e t' =>
    obtain ⟨rfl, hfull⟩ := refines_fault hbuf hx h hz hrun
    rw [hrun] at hcame
    exact absurd (hcame.resolve_left (by omega)) id

lemma refines_returns (hbuf : P.BUF < 2 ^ 32) (hq : P.TXQ + 2 < 2 ^ 32) (hx : Refines (machine s) x t)
    (h : Backlog t) (hz : SizesOk t.toSizes) : ∃ a t', x t = .ok a t' :=
  refines_succeeds hbuf hx h hz (.inl hq)

end

/-! ## Datagrams that are refused -/

/-- Why a datagram is refused. -/
def Refusal (e : TcpError) : Prop := e = .malformedPacket ∨ e = .notForUs

lemma readU8_raises (buf : List U8) (off : ℕ) : Raises Refusal (readU8 buf off) := by
  unfold readU8
  split
  · exact .ofOk _
  · exact .ofError (.inl rfl)

lemma read2_raises (buf : List U8) (off : ℕ) : Raises Refusal (read2 buf off) := by
  unfold read2
  split
  · exact .ofOk _
  · exact .ofError (.inl rfl)

lemma readU32_raises (buf : List U8) (off : ℕ) : Raises Refusal (readU32 buf off) := by
  unfold readU32
  split
  · exact .ofOk _
  · exact .ofError (.inl rfl)

lemma read4_raises (buf : List U8) (off : ℕ) : Raises Refusal (read4 buf off) := by
  unfold read4
  split
  · exact .ofOk _
  · exact .ofError (.inl rfl)

namespace TcpOptions

lemma parseBlocks_raises (n : ℕ) (bytes : List U8) (sb : SackBlocks) :
    Raises Refusal (parseBlocks n bytes sb) := by
  fun_induction parseBlocks n bytes sb with
  | case1 => exact .ofOk _
  | case2 _ _ _ _ _ _ _ _ _ _ _ ih => exact ih
  | case3 => exact .ofError (.inl rfl)

lemma parseOne_raises (kind len : U8) (body : List U8) (o : TcpOptions) :
    Raises Refusal (parseOne kind len body o) := by
  intro e he
  have hblocks := parseBlocks_raises ((len.toNat - 2) / 8) body SackBlocks.EMPTY
  unfold parseOne at he
  grind [Raises, Refusal]

lemma parseLoop_raises (fuel : ℕ) (bytes : List U8) (o : TcpOptions) :
    Raises Refusal (parseLoop fuel bytes o) := by
  fun_induction parseLoop fuel bytes o with
  | case1 => exact .ofOk _
  | case2 => exact .ofOk _
  | case3 => exact .ofOk _
  | case4 _ _ _ _ ih => exact ih
  | case5 => exact .ofError (.inl rfl)
  | case6 fuel kind o h₀ h₁ len body e he =>
    intro e' he'
    cases he'
    exact parseOne_raises kind len body o e he
  | case7 _ _ _ _ _ _ _ _ _ ih => exact ih

end TcpOptions

lemma parseOpts_raises (le : Bool) (packet : List U8) (verify : Bool) :
    Raises Refusal (parseOpts le packet verify) := by
  have hbad : Refusal .malformedPacket := .inl rfl
  unfold parseOpts
  refine .guard hbad (.bind (readU8_raises _ _) fun _ => .guard hbad (.dite hbad fun _ => ?_))
  refine .bind (read2_raises _ _) fun _ => .guard hbad (.bind (read2_raises _ _) fun _ => ?_)
  refine .guard hbad (.bind (readU8_raises _ _) fun _ => .guard (.inr rfl) ?_)
  refine .bind (readU8_raises _ _) fun _ => .bind (read4_raises _ _) fun _ => ?_
  refine .bind (read4_raises _ _) fun _ => .guard hbad ?_
  refine .bind (read2_raises _ _) fun _ => .bind (read2_raises _ _) fun _ => ?_
  refine .bind (readU32_raises _ _) fun _ => .bind (readU32_raises _ _) fun _ => ?_
  refine .bind (readU8_raises _ _) fun _ => .dite hbad fun _ => ?_
  refine .bind (readU8_raises _ _) fun _ => .bind (read2_raises _ _) fun _ => ?_
  exact .guard hbad (.bind (TcpOptions.parseLoop_raises _ _ _) fun _ => .ofOk _)

/-! ## Errors of calls -/

/-- The only error a connection is left with is that it was reset. -/
lemma stable_reset : Stable fun t : Tcb P => ∀ e ∈ t.error, e = .connectionReset where
  core _ := Iff.rfl
  step t l t' hstep h := by
    cases hstep with
    | @segment seg =>
      rw [show (t.receiveSegment seg).2.error = t.error from
        (receiveSegment_frame t seg).of fun t => t.error]
      exact h
    | abort =>
      rintro e ⟨rfl⟩
      rfl
    | closeClean => exact h
    | timeWaitOver => exact h
    | reset => exact fun e he => by cases he
    | connected => exact fun e he => by cases he
    | halfOpened => exact fun e he => by cases he
    | cookieOpened => exact fun e he => by cases he
    | _ => exact h

lemma Reachable.error {t : Tcb P} (ht : Reachable t) : ∀ e ∈ t.error, e = .connectionReset :=
  ht.stable stable_reset fun _ e he => by cases he

/-- A call fails because it is refused. -/
lemma Reachable.fault (hbuf : P.BUF < 2 ^ 32) (hq : P.TXQ + 2 < 2 ^ 32) {t t' : Tcb P} {c : Call}
    {e : Fault} (ht : Reachable t) (hcap : ∀ cap, c = .extractPacket cap → MAX_PACKET ≤ cap)
    (hrun : c.run t = .error e t') : ∃ x, e = .tcp x ∧ x ≠ .overflow ∧ x ≠ .bufferTooSmall := by
  by_cases hc : ∃ cap, c = .extractPacket cap
  · obtain ⟨cap, rfl⟩ := hc
    rcases extractPacket_cases cap t with ⟨pkt, hpkt, hsmall, -⟩ | ⟨pkt, ring, hok, -⟩
    · have hsize := ht.staged pkt hpkt
      have hbig := hcap cap rfl
      omega
    · rw [Call.run, run_bind_ok hok] at hrun
      cases hrun
  · obtain ⟨u, hleads, hsite⟩ := (c.run_refines (not_exists.mp hc) t).faults e t' hrun
    have hleads : (machine (c.taken P)).Leads t u := hleads
    cases hsite with
    | refused h₁ h₂ => exact ⟨_, rfl, h₁, h₂⟩
    | stored herr =>
      have herror := stable_reset.leads hleads ht.error _ herr
      exact ⟨_, rfl, by rw [herror]; decide, by rw [herror]; decide⟩
    | unparsed hparse =>
      rcases parseOpts_raises _ _ _ _ hparse with rfl | rfl
      · exact ⟨_, rfl, by decide, by decide⟩
      · exact ⟨_, rfl, by decide, by decide⟩
    | inner hfault =>
      obtain ⟨-, hfull⟩ := budget_overflows hfault hbuf
        ((Backlog.stable hbuf).leads hleads (ht.backlog hbuf)) (stable_sizes.leads hleads ht.sizes)
      omega

/-! ## The budget of the send loop -/

namespace Tcb

/-- The loop of `maybe_send_data` without its budget. -/
def sendUntilBlocked : (fuel : ℕ) → TcbM P Unit
  | 0 => throw .panic
  | fuel + 1 => do
    let t ← get
    if t.egressFull then
      return ()
    else
      let sent ← sendOne
      if sent then sendUntilBlocked fuel else return ()

/-- The budget is larger than the number of rounds there can be. -/
lemma sendLoop_eq (hq : P.TXQ + 2 < 2 ^ 32) (fuel : ℕ) (guard : U32)
    (h : guard.toNat + fuel ≤ P.TXQ + 1) : (sendLoop fuel guard : TcbM P Unit) = sendUntilBlocked fuel := by
  induction fuel generalizing guard with
  | zero => rfl
  | succ fuel ih =>
    have hnext : (guard + 1).toNat = guard.toNat + 1 := by
      rw [BitVec.toNat_add]
      change (guard.toNat + 1) % 2 ^ 32 = _
      omega
    have hcap : sendBudget P = some (BitVec.ofNat 32 P.TXQ + 2) := by
      rw [sendBudget, BitVec.toNat_ofNat, Nat.mod_eq_of_lt (by omega), if_pos hq]
    have hcapNat : (BitVec.ofNat 32 P.TXQ + 2).toNat = P.TXQ + 2 := by
      rw [BitVec.toNat_add, BitVec.toNat_ofNat, Nat.mod_eq_of_lt (a := P.TXQ) (by omega)]
      exact Nat.mod_eq_of_lt hq
    rw [sendLoop, sendUntilBlocked, hcap]
    dsimp only
    rw [if_neg (by omega), ih (guard + 1) (by omega)]

end Tcb

/-- No call panics or reports an internal error, and the send loop never uses up its budget. -/
theorem calls_fail_for_cause (hbuf : P.BUF < 2 ^ 32) (hq : P.TXQ + 2 < 2 ^ 32) {t : Tcb P}
    (ht : Reachable t) (c : Call) (hcap : ∀ cap, c = .extractPacket cap → MAX_PACKET ≤ cap) :
    (∀ e t', c.run t = .error e t' → ∃ x, e = .tcp x ∧ x ≠ .overflow ∧ x ≠ .bufferTooSmall) ∧
      (sendLoop (P.TXQ + 1) 0 : TcbM P Unit) = sendUntilBlocked (P.TXQ + 1) :=
  ⟨fun _ _ hrun => ht.fault hbuf hq hcap hrun, sendLoop_eq hq _ 0 (Nat.zero_add _).le⟩

/-- The tiny client, with everything it has sent lost, at its retransmission timeout. -/
def tinyTimedOut : Tcb tiny :=
  runAll [.send [1, 2, 3], .tick, .extractPacketWith, .close, .setNow 5000] tinyOpen

theorem tinyTimedOut_fails_for_cause :
    (final (Call.run .tick tinyTimedOut)).sent.length = tinyTimedOut.sent.length + 1 ∧
      ∀ e t', Call.run .tick tinyTimedOut = .error e t' →
        ∃ x, e = .tcp x ∧ x ≠ .overflow ∧ x ≠ .bufferTooSmall :=
  ⟨by decide +kernel, (calls_fail_for_cause (by decide) (by decide)
    (reachable_tinyOpen.runAll (by decide +kernel)) .tick (fun _ h => by cases h)).1⟩

/-! ## Input that is refused -/

namespace Tcb

variable {t t' : Tcb P} {seg : Segment} {e : Fault}

/-- No computation that takes steps gives up with `e`. -/
def Unraised (P : Params) (e : Fault) : Prop := e = .panic → P.TXQ + 2 < 2 ^ 32

lemma Unraised.absurd (he : Unraised P e) (hbuf : P.BUF < 2 ^ 32) {α : Type} {s : Option Segment}
    {x : TcbM P α} (hx : Refines (machine s) x t) (h : Backlog t) (hz : SizesOk t.toSizes) :
    x t ≠ .error e t' := by
  intro hrun
  obtain ⟨hpanic, hfull⟩ := refines_fault hbuf hx h hz hrun
  have := he hpanic
  omega

/-- Everything but a closed block has a handler, and handlers return. -/
lemma dispatch_error (hbuf : P.BUF < 2 ^ 32) (he : Unraised P e) (h : Backlog t)
    (hz : SizesOk t.toSizes) (htuple : t.state = .synRcvd → t.OnTuple seg)
    (hrun : dispatch seg t = .error e t') : t.state = .closed ∧ e = .tcp .invalidState ∧ t' = t.countIn := by
  have hreturns {x : TcbM P Unit} (hx : Refines (machine (some seg)) x t.countIn)
      (hrun : x t.countIn = .error e t') : False := by
    have hsoft : (machine (some seg)).Leads t t.countIn := leads_soft rfl
    exact he.absurd hbuf hx ((Backlog.stable hbuf).leads hsoft h) (stable_sizes.leads hsoft hz) hrun
  rw [dispatch, run_modify_bind, route, run_get_bind] at hrun
  cases hstate : t.state with
  | closed =>
    rw [show t.countIn.state = .closed from hstate] at hrun
    cases hrun
    exact ⟨rfl, rfl, rfl⟩
  | listen =>
    rw [show t.countIn.state = .listen from hstate] at hrun
    exact (hreturns (onListen_refines hstate) hrun).elim
  | synSent =>
    rw [show t.countIn.state = .synSent from hstate] at hrun
    exact (hreturns (onSynSent_refines hstate) hrun).elim
  | synRcvd =>
    rw [show t.countIn.state = .synRcvd from hstate] at hrun
    exact (hreturns (onSynRcvd_refines hstate (htuple hstate)) hrun).elim
  | _ =>
    rw [show t.countIn.state = _ from hstate] at hrun
    refine (hreturns (onSynchronized_refines ?_) hrun).elim
    rw [show t.countIn.state = _ from hstate]
    rfl

lemma onBusyListener_error (hbuf : P.BUF < 2 ^ 32) (he : Unraised P e) (h : Backlog t)
    (hz : SizesOk t.toSizes) (hpeer : t.fromRemote seg = false)
    (hrun : onBusyListener seg t = .error e t') : e = .tcp .notForUs ∧ t' = t := by
  unfold onBusyListener at hrun
  rw [run_get_bind] at hrun
  split at hrun
  · cases hrun
    exact ⟨rfl, rfl⟩
  case isFalse hbusy =>
    simp only [not_or, not_not] at hbusy
    split at hrun
    · exact absurd hrun (he.absurd hbuf (emitCookieSynack_refines (s := none) hpeer) h hz)
    · split at hrun
      case isTrue hack =>
        simp only [Bool.and_eq_true, Bool.not_eq_true'] at hack
        cases hopts : t.validateCookie seg with
        | some opts =>
          rw [hopts] at hrun
          dsimp only at hrun
          rw [run_modify_bind] at hrun
          have hsoft : (machine (some seg)).Leads t t.resetToListenOrClosed := resetToListenOrClosed_leads t
          have hlisten : t.resetToListenOrClosed.state = .listen := by
            change (if t.isListener = true then State.listen else State.closed) = _
            rw [if_pos hbusy.2.1]
          exact absurd hrun (he.absurd hbuf
            (promoteViaCookie_refines hlisten hack.1.1 hack.1.2 hack.2 (validateCookie_wscale hopts))
            ((Backlog.stable hbuf).leads hsoft h) (stable_sizes.leads hsoft hz))
        | none =>
          rw [hopts] at hrun
          cases hrun
          exact ⟨rfl, rfl⟩
      case isFalse =>
        cases hrun
        exact ⟨rfl, rfl⟩

lemma injectSegment_error (hbuf : P.BUF < 2 ^ 32) (he : Unraised P e) (h : Backlog t)
    (hz : SizesOk t.toSizes) (hrun : injectSegment seg t = .error e t') :
    e = .tcp .notForUs ∧ t' = t ∨ t.state = .closed ∧ e = .tcp .invalidState ∧ t' = t.countIn := by
  unfold injectSegment at hrun
  rw [run_get_bind] at hrun
  split at hrun
  · cases hrun
    exact .inl ⟨rfl, rfl⟩
  case isFalse hhere =>
    split at hrun
    case isTrue hpeer =>
      split at hrun
      case isTrue hreplace =>
        -- The listener is free again, so it takes the SYN.
        rw [run_modify_bind] at hrun
        have hsoft : (machine (some seg)).Leads t t.resetToListenOrClosed := resetToListenOrClosed_leads t
        obtain ⟨hclosed, -, -⟩ := dispatch_error hbuf he ((Backlog.stable hbuf).leads hsoft h)
          (stable_sizes.leads hsoft hz) (fun hs => absurd hs (resetToListenOrClosed_state_ne t)) hrun
        simp only [mayReplaceHalfOpen, Bool.and_eq_true] at hreplace
        change (if t.isListener = true then State.listen else State.closed) = _ at hclosed
        rw [if_pos hreplace.1.1.1.1.1.2] at hclosed
        cases hclosed
      case isFalse => exact .inl (onBusyListener_error hbuf he h hz (by simpa using hpeer.2) hrun)
    case isFalse hpeer =>
      exact .inr (dispatch_error hbuf he h hz (onTuple_of_dispatched hhere hpeer) hrun)

end Tcb

/-- How a datagram is refused. -/
lemma Reachable.refused (hbuf : P.BUF < 2 ^ 32) {t t' : Tcb P} (ht : Reachable t) {c : Call} {e : Fault}
    (he : Unraised P e) (hc : c.injected ≠ []) (hrun : c.run t = .error e t') :
    (e = .tcp .malformedPacket ∨ e = .tcp .notForUs) ∧ t' = t ∨
      t.state = .closed ∧ e = .tcp .invalidState ∧ t' = t.countIn := by
  have hparsed {r : Except TcpError Segment} (hr : Raises Refusal r)
      (hrun : (injectParsed r >>= fun _ => pure Reply.unit : TcbM P Reply) t = .error e t') :
      (e = .tcp .malformedPacket ∨ e = .tcp .notForUs) ∧ t' = t ∨
        t.state = .closed ∧ e = .tcp .invalidState ∧ t' = t.countIn := by
    cases r with
    | error x =>
      cases hrun
      exact .inl ⟨(hr x rfl).imp (congrArg _) (congrArg _), rfl⟩
    | ok seg =>
      cases hseg : injectSegment seg t with
      | ok a u => cases (run_bind_ok hseg _).symm.trans hrun
      | error x u =>
        cases (run_bind_error hseg _).symm.trans hrun
        exact (injectSegment_error hbuf he (ht.backlog hbuf) ht.sizes hseg).imp_left fun h => ⟨.inr h.1, h.2⟩
  cases c with
  | injectPacket packet => exact hparsed (parseOpts_raises _ _ _) hrun
  | injectPacketL4CsumTrusted packet => exact hparsed (parseOpts_raises _ _ _) hrun
  | _ => exact absurd rfl hc

/-- A datagram is refused because it is malformed or not for this block, or because the block is closed; all
it leaves is, in the last case, one more segment that came in. -/
theorem refused_input_has_no_effect (hbuf : P.BUF < 2 ^ 32) (hq : P.TXQ + 2 < 2 ^ 32) {t t' : Tcb P}
    (ht : Reachable t) {c : Call} {e : Fault} (hc : c.injected ≠ []) (hrun : c.run t = .error e t') :
    (e = .tcp .malformedPacket ∨ e = .tcp .notForUs) ∧ t' = t ∨
      t.state = .closed ∧ e = .tcp .invalidState ∧ t' = t.countIn :=
  ht.refused hbuf (fun _ => hq) hc hrun

/-- A segment of the tiny client's peer to a port that is not the client's. -/
def strayPacket : List U8 := datagram { peerAck with dstPort := 1001 } [65]

/-- The error code a call came back with. -/
def errorCode {α : Type} : EStateM.Result Fault (Tcb P) α → Option TcpError
  | .error (.tcp x) _ => some x
  | _ => none

lemma error_of_errorCode {α : Type} {r : EStateM.Result Fault (Tcb P) α} {x : TcpError}
    (h : errorCode r = some x) : ∃ t', r = .error (.tcp x) t' := by
  unfold errorCode at h
  split at h
  · cases h
    exact ⟨_, rfl⟩
  · cases h

theorem strayPacket_has_no_effect :
    ∃ e t', Call.run (.injectPacket strayPacket) tinyOpen = .error e t' ∧ t' = tinyOpen := by
  obtain ⟨t', hrun⟩ := error_of_errorCode (x := .notForUs)
    (r := Call.run (.injectPacket strayPacket) tinyOpen) (by decide +kernel)
  refine ⟨_, t', hrun, ?_⟩
  have hinjects : (Call.injectPacket strayPacket).injected ≠ [] := List.cons_ne_nil _ _
  rcases refused_input_has_no_effect (by decide) (by decide) reachable_tinyOpen hinjects hrun with ⟨-, hsame⟩ | ⟨hclosed, -⟩
  · exact hsame
  · exact absurd hclosed (by decide +kernel)

end TcpSansIo
