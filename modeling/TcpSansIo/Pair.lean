import TcpSansIo.Receive.Stream
import TcpSansIo.Send.Stream
import TcpSansIo.Wire.RoundTrip

/-!
# Two ends of a connection

Two blocks, of any configurations, joined by a network that loses, repeats, delays and reorders what they
staged.  Their hosts make any calls in any order; all that is asked is that a datagram which is injected at
one end was staged at the other, and that an end that has sent data or its FIN does not begin another
connection (`Pair.Run`).

If one end numbers what it receives as the other numbers what it sends, then what it received in order is
the beginning of what the other's application handed over, and all of it once the FIN was taken
(`Pair.Run.delivers`).
-/

namespace TcpSansIo

open Proc FixedWidth

variable {P Q : Params}

namespace Emission

/-- The segment carries data or a FIN. -/
def speaks (e : Emission P) : Bool := !e.payload.isEmpty || e.header.flags.fin

lemma speaks_iff {e : Emission P} : e.speaks = true ↔ e.payload ≠ [] ∨ e.header.flags.fin = true := by
  simp [speaks]

/-- The datagram is that of the header and the payload. -/
def Packed (e : Emission P) : Prop :=
  ∃ fill full, fill e.payload.length = some e.payload ∧
    emitWith P.littleEndian MAX_PACKET e.header e.payload.length fill full = .ok e.packet

end Emission

namespace Tcb

/-- Data or a FIN was staged on this connection. -/
def spoke (t : Tcb P) : Bool := t.sent.any Emission.speaks

/-- What the block offers its peer. -/
def offer (t : Tcb P) : Offer where
  iss := t.iss
  stream := t.accepted
  ended := t.sent.any fun e => e.header.flags.fin

/-! ## The sender over time -/

/-- On the same connection, what was staged and what was accepted only grows. -/
structure Continues (t₀ t : Tcb P) : Prop where
  epoch : t₀.epoch ≤ t.epoch
  same : t.epoch = t₀.epoch → t.iss = t₀.iss ∧ t₀.sent <+: t.sent ∧ t₀.accepted <+: t.accepted

namespace Continues

variable {t₀ t t' : Tcb P}

lemma refl (t : Tcb P) : Continues t t := ⟨le_refl _, fun _ => ⟨rfl, List.prefix_rfl, List.prefix_rfl⟩⟩

lemma of_new (h : Continues t₀ t) (he : t'.epoch = t.epoch + 1) : Continues t₀ t' := by
  have hle := h.epoch
  refine ⟨by omega, fun hsame => ?_⟩
  omega

lemma of_more (h : Continues t₀ t) (he : t'.epoch = t.epoch) (hiss : t'.iss = t.iss)
    (hsent : t.sent <+: t'.sent) (hacc : t.accepted <+: t'.accepted) : Continues t₀ t' := by
  refine ⟨he ▸ h.epoch, fun hsame => ?_⟩
  obtain ⟨h₁, h₂, h₃⟩ := h.same (he.symm.trans hsame)
  exact ⟨hiss.trans h₁, h₂.trans hsent, h₃.trans hacc⟩

lemma step (t₀ t : Tcb P) (l : Option Segment) (t' : Tcb P) (hstep : Step t l t') (h : Continues t₀ t) :
    Continues t₀ t' := by
  cases hstep with
  | control => exact h.of_more rfl rfl (List.prefix_append _ _) List.prefix_rfl
  | stateless => exact h.of_more rfl rfl (List.prefix_append _ _) List.prefix_rfl
  | first => exact h.of_more rfl rfl (List.prefix_append _ _) List.prefix_rfl
  | again => exact h.of_more rfl rfl (List.prefix_append _ _) List.prefix_rfl
  | @segment seg =>
    have hframe := receiveSegment_frame t seg
    refine h.of_more (hframe.of fun t => t.epoch) (hframe.of fun t => t.iss) ?_ ?_
    · rw [show (t.receiveSegment seg).2.sent = t.sent from hframe.of fun t => t.sent]
    · rw [show (t.receiveSegment seg).2.accepted = t.accepted from hframe.of fun t => t.accepted]
  | accept => exact h.of_more rfl rfl List.prefix_rfl (List.prefix_append _ _)
  | reset => exact h.of_new rfl
  | connected => exact h.of_new rfl
  | halfOpened => exact h.of_new rfl
  | cookieOpened => exact h.of_new rfl
  | _ => exact ⟨h.epoch, h.same⟩

lemma stable (t₀ : Tcb P) : Stable (Continues t₀) where
  core _ := ⟨fun h => ⟨h.epoch, h.same⟩, fun h => ⟨h.epoch, h.same⟩⟩
  step := step t₀

end Continues

/-- A connection that goes on offers more. -/
lemma offer_le {t t' : Tcb P} (ht : Outgoing t) (ht' : Outgoing t') (h : Continues t t')
    (he : t'.epoch = t.epoch) : t.offer.Le t'.offer := by
  obtain ⟨hiss, hsent, hacc⟩ := h.same he
  refine ⟨hiss, hacc, fun hended => ?_⟩
  obtain ⟨e, hmem, hfin⟩ := List.any_eq_true.mp hended
  have hmem' := hsent.subset hmem
  refine ⟨List.any_eq_true.mpr ⟨e, hmem', hfin⟩, ?_⟩
  -- The FIN stands at the end of the stream, then and now.
  have hend := (ht.data e hmem (.inr hfin)).fin hfin
  have hend' := (ht'.data e hmem' (.inr hfin)).fin hfin
  exact (hacc.eq_of_length (hend.symm.trans hend')).symm

lemma spoke_of_continues {t t' : Tcb P} (h : Continues t t') (he : t'.epoch = t.epoch)
    (hspoke : t.spoke = true) : t'.spoke = true := by
  obtain ⟨e, hmem, hdata⟩ := List.any_eq_true.mp hspoke
  exact List.any_eq_true.mpr ⟨e, (h.same he).2.1.subset hmem, hdata⟩

/-- Every staged segment is in its datagram. -/
lemma Emits.packed {t : Tcb P} {e : Emission P} (he : Emits t e) : e.Packed := by
  cases he with
  | control _ _ hpkt => exact hpkt.bytes
  | stateless _ hpkt => exact hpkt.bytes
  | first _ _ _ _ hpkt => exact hpkt.bytes
  | again _ _ _ _ _ hpkt => exact hpkt.bytes
  | syn _ _ _ _ hpkt => exact hpkt.bytes
  | synack _ _ _ _ hpkt => exact hpkt.bytes

end Tcb

open Tcb

lemma Reachable.packed {t : Tcb P} (ht : Reachable t) : ∀ e ∈ t.sent, e.Packed := by
  have htrue : Stable fun _ : Tcb P => True := ⟨fun _ => Iff.rfl, fun _ _ _ _ h => h⟩
  exact (ht.stable (htrue.sent fun _ _ _ he => he.packed) fun cfg => ⟨trivial, new_sent cfg⟩).2

/-! ## One direction -/

/-- A segment that is read from a datagram which the sender staged, on this connection or, before it spoke,
on an earlier one. -/
def Sent (a : Tcb P) (pkt : List U8) : Prop :=
  ∃ e : Emission P, e.packet = pkt ∧ e.Packed ∧ (e ∈ a.sent ∨ e.speaks = false)

/-- What is read from such a datagram is of the offer. -/
lemma Sent.from_offer {a : Tcb P} {pkt : List U8} (h : Sent a pkt) (ha : Outgoing a) {le verify : Bool}
    {seg : Segment} (hparse : parseOpts le pkt verify = .ok seg) : seg.From a.offer := by
  obtain ⟨e, rfl, ⟨fill, full, hfill, hemit⟩, he⟩ := h
  obtain ⟨hseq, -, hflags, -, hpay⟩ := parseOpts_emitted hfill hemit hparse
  intro hdata
  rw [hpay, hflags] at hdata
  have hmem : e ∈ a.sent := he.resolve_right fun hquiet => by
    rw [Emission.speaks_iff.mpr hdata] at hquiet
    cases hquiet
  have hin := ha.data e hmem hdata
  refine ⟨e.offset, hseq.trans hin.place, hpay ▸ hin.text, ?_, fun hfin => ?_⟩
  · rcases hdata with hne | hfin
    · have hlen := hin.text.length_le
      rw [List.length_drop] at hlen
      have hpos := List.length_pos_iff.mpr hne
      change e.offset ≤ a.accepted.length
      omega
    · exact (Nat.le_add_right _ _).trans (hin.fin hfin).le
  · rw [hflags] at hfin
    rw [hpay]
    exact ⟨List.any_eq_true.mpr ⟨e, hmem, hfin⟩, hin.fin hfin⟩

/-- Before the sender spoke, nothing is carried. -/
lemma Sent.quiet {a : Tcb P} {pkt : List U8} (h : Sent a pkt) (hquiet : a.spoke = false) {le verify : Bool}
    {seg : Segment} (hparse : parseOpts le pkt verify = .ok seg) (o : Offer) : seg.From o := by
  obtain ⟨e, rfl, ⟨fill, full, hfill, hemit⟩, he⟩ := h
  obtain ⟨-, -, hflags, -, hpay⟩ := parseOpts_emitted hfill hemit hparse
  intro hdata
  rw [hpay, hflags, ← Emission.speaks_iff] at hdata
  rcases he with hmem | hsilent
  · rw [Tcb.spoke, List.any_eq_false] at hquiet
    exact absurd hdata (hquiet e hmem)
  · rw [hdata] at hsilent
    cases hsilent

/-- From `a` to `b`: what is on the wire was staged by `a`, and what `b` received is of `a`'s offer. -/
structure Flow (a : Tcb P) (wire : List (List U8)) (b : Tcb Q) : Prop where
  wire : ∀ pkt ∈ wire, Sent a pkt
  quiet : a.spoke = false → ∀ iss, Receiver ⟨iss, [], false⟩ b
  heard : a.accepted.length < 2 ^ 31 → Receiver a.offer b

namespace Flow

variable {a a' : Tcb P} {b b' : Tcb Q} {wire : List (List U8)} {c : Call}

lemma new (ca cb : TcbConfig) : Flow (Tcb.new ca : Tcb P) [] (Tcb.new cb : Tcb Q) := by
  have hempty (o : Offer) : Receiver o (Tcb.new cb : Tcb Q) :=
    .of_empty (Reachable.new cb).flight (Reachable.new cb).parked (Reachable.new cb).receipts rfl nofun rfl rfl
      rfl
  exact ⟨nofun, fun _ _ => hempty _, fun _ => hempty _⟩

/-- The sender does something. -/
lemma sender (hbuf : P.BUF < 2 ^ 32) (h : Flow a wire b) (ha : Reachable a) (hcall : CallStep a c a')
    (honce : a.spoke = true → a'.epoch = a.epoch) : Flow a' (wire ++ a'.sent.map Emission.packet) b := by
  have ha' := ha.step hcall
  have hcont : Continues a a' := by
    rw [hcall.2]
    exact (Continues.stable a).call c a (.refl a)
  -- A new connection begins only before anything was said, so anything may be offered on it.
  have hfresh (he : a'.epoch ≠ a.epoch) : a.spoke = false := by
    by_contra hspoke
    exact he (honce (by simpa using hspoke))
  refine ⟨fun pkt hpkt => ?_, fun hquiet => ?_, fun hshort => ?_⟩
  · rcases List.mem_append.mp hpkt with hold | hnew
    · obtain ⟨e, heq, hpacked, he⟩ := h.wire pkt hold
      refine ⟨e, heq, hpacked, ?_⟩
      rcases he with hmem | hsilent
      · by_cases hepoch : a'.epoch = a.epoch
        · exact .inl ((hcont.same hepoch).2.1.subset hmem)
        · have hquiet := hfresh hepoch
          rw [spoke, List.any_eq_false] at hquiet
          exact .inr (by simpa using hquiet e hmem)
      · exact .inr hsilent
    · obtain ⟨e, hmem, heq⟩ := List.mem_map.mp hnew
      exact ⟨e, heq, ha'.packed e hmem, .inl hmem⟩
  · by_cases hepoch : a'.epoch = a.epoch
    · refine h.quiet ?_
      by_contra hspoke
      rw [spoke_of_continues hcont hepoch (by simpa using hspoke)] at hquiet
      cases hquiet
    · exact h.quiet (hfresh hepoch)
  · by_cases hepoch : a'.epoch = a.epoch
    · have hle := offer_le (ha.outgoing hbuf) (ha'.outgoing hbuf) hcont hepoch
      have hr := h.heard (hle.stream.length_le.trans_lt hshort)
      exact ⟨hr.flight, hr.parked, hr.receipts, fun hirs => (hr.matched (hirs.trans hle.iss)).mono hle⟩
    · have hr := h.quiet (hfresh hepoch) a'.iss
      refine ⟨hr.flight, hr.parked, hr.receipts, fun hirs => (hr.matched hirs).mono ?_⟩
      exact ⟨rfl, List.nil_prefix, nofun⟩

/-- What a call hands to the connection is read from a datagram it injects. -/
lemma taken_injected {seg : Segment} (h : seg ∈ c.taken Q) :
    ∃ pkt ∈ c.injected, ∃ verify, parseOpts Q.littleEndian pkt verify = .ok seg := by
  have hparse {r : Except TcpError Segment} (hr : seg ∈ r.toOption) : r = .ok seg := by
    cases r with
    | ok s => exact congrArg _ (Option.some.inj hr)
    | error e => cases hr
  cases c with
  | injectPacket pkt => exact ⟨pkt, List.mem_singleton_self _, true, hparse h⟩
  | injectPacketL4CsumTrusted pkt => exact ⟨pkt, List.mem_singleton_self _, false, hparse h⟩
  | _ => cases h

/-- The receiver does something. -/
lemma receiver (hbuf : P.BUF < 2 ^ 32) (h : Flow a wire b) (ha : Reachable a) (hcall : CallStep b c b')
    (hwire : ∀ pkt ∈ c.injected, pkt ∈ wire) : Flow a wire b' := by
  refine ⟨h.wire, fun hquiet iss => ?_, fun hshort => ?_⟩ <;> rw [hcall.2]
  · have hshort : (Offer.mk iss [] false).stream.length < 2 ^ 31 := Nat.two_pow_pos 31
    refine (Receiver.stableOn hshort fun seg hseg => ?_).leads (c.run_leads b) (h.quiet hquiet iss)
    obtain ⟨pkt, hpkt, verify, hparse⟩ := taken_injected hseg
    exact (h.wire pkt (hwire pkt hpkt)).quiet hquiet hparse _
  · refine (Receiver.stableOn hshort fun seg hseg => ?_).leads (c.run_leads b) (h.heard hshort)
    obtain ⟨pkt, hpkt, verify, hparse⟩ := taken_injected hseg
    exact (h.wire pkt (hwire pkt hpkt)).from_offer (ha.outgoing hbuf) hparse

end Flow

/-! ## Both ends -/

/-- Two blocks, and the datagrams on their way. -/
structure Pair (P Q : Params) where
  left : Tcb P
  right : Tcb Q
  /-- All that the left block ever staged. -/
  toRight : List (List U8)
  toLeft : List (List U8)

namespace Pair

/-- What two blocks and a network can come to. -/
inductive Run : Pair P Q → Prop
  | start (cl cr : TcbConfig) : Run ⟨Tcb.new cl, Tcb.new cr, [], []⟩
  | left {p : Pair P Q} {c : Call} {t : Tcb P} (hrun : Run p) (hcall : CallStep p.left c t)
      (hwire : ∀ pkt ∈ c.injected, pkt ∈ p.toLeft) (honce : p.left.spoke = true → t.epoch = p.left.epoch) :
      Run { p with left := t, toRight := p.toRight ++ t.sent.map Emission.packet }
  | right {p : Pair P Q} {c : Call} {t : Tcb Q} (hrun : Run p) (hcall : CallStep p.right c t)
      (hwire : ∀ pkt ∈ c.injected, pkt ∈ p.toRight)
      (honce : p.right.spoke = true → t.epoch = p.right.epoch) :
      Run { p with right := t, toLeft := p.toLeft ++ t.sent.map Emission.packet }

/-- Both directions. -/
structure Joined (p : Pair P Q) : Prop where
  left : Reachable p.left
  right : Reachable p.right
  there : Flow p.left p.toRight p.right
  back : Flow p.right p.toLeft p.left

lemma Run.joined (hP : P.BUF < 2 ^ 32) (hQ : Q.BUF < 2 ^ 32) {p : Pair P Q} (h : Run p) : Joined p := by
  induction h with
  | start cl cr => exact ⟨.new cl, .new cr, .new cl cr, .new cr cl⟩
  | left _ hcall hwire honce ih =>
    exact ⟨ih.left.step hcall, ih.right, ih.there.sender hP ih.left hcall honce,
      ih.back.receiver hQ ih.right hcall hwire⟩
  | right _ hcall hwire honce ih =>
    exact ⟨ih.left, ih.right.step hcall, ih.there.receiver hP ih.left hcall hwire,
      ih.back.sender hQ ih.right hcall honce⟩

/-! ### Runs by evaluation -/

def callLeft (p : Pair P Q) (c : Call) : Pair P Q :=
  let t := final (c.run p.left)
  { p with left := t, toRight := p.toRight ++ t.sent.map Emission.packet }

def callRight (p : Pair P Q) (c : Call) : Pair P Q :=
  let t := final (c.run p.right)
  { p with right := t, toLeft := p.toLeft ++ t.sent.map Emission.packet }

/-- The call came back, what it injected was on its way, and it began no other connection. -/
def mayLeft (p : Pair P Q) (c : Call) : Bool :=
  decide (Returned (c.run p.left)) && decide (∀ pkt ∈ c.injected, pkt ∈ p.toLeft) &&
    decide (p.left.spoke = true → (final (c.run p.left)).epoch = p.left.epoch)

def mayRight (p : Pair P Q) (c : Call) : Bool :=
  decide (Returned (c.run p.right)) && decide (∀ pkt ∈ c.injected, pkt ∈ p.toRight) &&
    decide (p.right.spoke = true → (final (c.run p.right)).epoch = p.right.epoch)

/-- A call at one end, or the arrival of a datagram there. -/
inductive Move where
  | left (c : Call)
  | right (c : Call)
  | toLeft (i : ℕ)
  | toRight (i : ℕ)

def move (p : Pair P Q) : Move → Pair P Q
  | .left c => p.callLeft c
  | .right c => p.callRight c
  | .toLeft i => p.callLeft (.injectPacket (p.toLeft.getD i []))
  | .toRight i => p.callRight (.injectPacket (p.toRight.getD i []))

def may (p : Pair P Q) : Move → Bool
  | .left c => p.mayLeft c
  | .right c => p.mayRight c
  | .toLeft i => p.mayLeft (.injectPacket (p.toLeft.getD i []))
  | .toRight i => p.mayRight (.injectPacket (p.toRight.getD i []))

def play : List Move → Pair P Q → Pair P Q
  | [], p => p
  | m :: ms, p => play ms (p.move m)

def allMay : List Move → Pair P Q → Bool
  | [], _ => true
  | m :: ms, p => p.may m && allMay ms (p.move m)

lemma Run.callLeft {p : Pair P Q} {c : Call} (h : Run p) (hc : p.mayLeft c = true) : Run (p.callLeft c) := by
  simp only [mayLeft, Bool.and_eq_true, decide_eq_true_iff] at hc
  exact .left h ⟨hc.1.1, rfl⟩ hc.1.2 hc.2

lemma Run.callRight {p : Pair P Q} {c : Call} (h : Run p) (hc : p.mayRight c = true) :
    Run (p.callRight c) := by
  simp only [mayRight, Bool.and_eq_true, decide_eq_true_iff] at hc
  exact .right h ⟨hc.1.1, rfl⟩ hc.1.2 hc.2

lemma Run.move {p : Pair P Q} {m : Move} (h : Run p) (hm : p.may m = true) : Run (p.move m) := by
  cases m with
  | left c => exact h.callLeft hm
  | right c => exact h.callRight hm
  | toLeft i => exact h.callLeft hm
  | toRight i => exact h.callRight hm

lemma Run.play {p : Pair P Q} {ms : List Move} (h : Run p) (hms : allMay ms p = true) :
    Run (play ms p) := by
  induction ms generalizing p with
  | nil => exact h
  | cons m ms ih =>
    rw [allMay, Bool.and_eq_true] at hms
    exact ih (h.move hms.1) hms.2

end Pair

/-- What `b` received, if it numbers it as `a` numbers what it sends, is the beginning of what `a`'s
application handed over, and all of it once the FIN was taken, which `a` then sent. -/
def Delivers (a : Tcb P) (b : Tcb Q) : Prop :=
  b.irs = a.iss → a.accepted.length < 2 ^ 31 → b.stream <+: a.accepted ∧
    (b.finTaken = true → b.stream = a.accepted ∧ ∃ e ∈ a.sent, e.header.flags.fin = true)

lemma Flow.delivers {a : Tcb P} {wire : List (List U8)} {b : Tcb Q} (h : Flow a wire b) : Delivers a b := by
  intro hirs hshort
  have hm := (h.heard hshort).matched hirs
  refine ⟨hm.stream_le, fun hfin => ?_⟩
  obtain ⟨hended, heq⟩ := hm.complete hfin
  exact ⟨heq, List.any_eq_true.mp hended⟩

/-- Whatever the network does, each end receives what the other's application sent. -/
theorem streams_delivered (hP : P.BUF < 2 ^ 32) (hQ : Q.BUF < 2 ^ 32) {p : Pair P Q} (h : p.Run) :
    Delivers p.left p.right ∧ Delivers p.right p.left :=
  ⟨(h.joined hP hQ).there.delivers, (h.joined hP hQ).back.delivers⟩

/-- The tiny client, a listener, and nothing on the way. -/
def tinyPair : Pair tiny tiny :=
  ⟨tinyClient, Tcb.new ⟨⟨(10, 0, 0, 2), 80⟩, ⟨(0, 0, 0, 0), 0⟩, 5, 1000⟩, [], []⟩

/-- The client sends two bytes and its FIN; the second byte, with the FIN, arrives twice before the
first. -/
def tinyMoves : List Pair.Move :=
  [.right (.setSecret (Vector.replicate 16 1)), .right .listen, .left .connect, .toRight 0,
    .left .extractPacketWith, .right .extractPacketWith, .toLeft 0, .left .extractPacketWith, .toRight 3,
    .left (.send [65]), .left .tick, .left .extractPacketWith, .left (.send [66]), .left .close, .left .tick,
    .toRight 24, .right .extractPacketWith, .toRight 24, .right .extractPacketWith, .toRight 10,
    .right (.recv 1)]

lemma tinyMoves_run : (Pair.play tinyMoves tinyPair).Run := by
  refine Pair.Run.play (.start _ _) ?_
  decide +kernel

theorem tinyMoves_delivered :
    (Pair.play tinyMoves tinyPair).right.delivered = [65] ∧
      (Pair.play tinyMoves tinyPair).right.stream = [65, 66] ∧
      (Pair.play tinyMoves tinyPair).right.stream = (Pair.play tinyMoves tinyPair).left.accepted := by
  refine ⟨by decide +kernel, by decide +kernel, ?_⟩
  have hboth := (streams_delivered (by decide) (by decide) tinyMoves_run).1
  exact ((hboth (by decide +kernel) (by decide +kernel)).2 (by decide +kernel)).1

end TcpSansIo
