import TcpSansIo.Core.Transition
import TcpSansIo.Rtx.Valid
import TcpSansIo.Tcb.Staging
import TcpSansIo.Wire.Emission

/-!
# What can happen to a connection

`core` is the part of a block that the stream a connection carries, its windows and its segment sizes
depend on.  Everything else (congestion control, RTT estimation, loss detection, rate limits,
statistics, knobs) only decides when something is done, not what is done.

`Step` lists what can be done: every call of the interface is a sequence of these steps, up to what
`core` forgets.  The guards of a step are what the code checks before it takes it; where the code
computes a deadline or re-marks retransmission records, the step allows any result with the property
that matters.  A step is labelled with the segment it takes something from, if it takes something from
one.
-/

namespace TcpSansIo

open Proc FixedWidth

variable {P : Params}

namespace Tcb

def core (t : Tcb P) : Tcb P :=
  { t with
    toPassive := (zeroed : Tcb P).toPassive
    toAckRange := (zeroed : Tcb P).toAckRange
    toSendLoan := (zeroed : Tcb P).toSendLoan
    rcvWnd := 0
    pendingAck := false
    delayedAckCount := 0
    ackDeadline := Deadline.OFF
    toTsState := (zeroed : Tcb P).toTsState
    toEcnState := (zeroed : Tcb P).toEcnState
    toLossState := (zeroed : Tcb P).toLossState
    toCongState := (zeroed : Tcb P).toCongState
    toRttState := (zeroed : Tcb P).toRttState
    rackDeadline := Deadline.OFF
    toPersistTimer := (zeroed : Tcb P).toPersistTimer
    timeWaitSinceMs := 0
    finWait2Deadline := Deadline.OFF
    toKeepaliveTimer := (zeroed : Tcb P).toKeepaliveTimer
    toUserTimer := (zeroed : Tcb P).toUserTimer
    toKnobs := (zeroed : Tcb P).toKnobs
    ipId := 0
    toSecrets := (zeroed : Tcb P).toSecrets
    nowMs := 0
    lastOowMs := Deadline.OFF
    stats := { bytesReceived := t.stats.bytesReceived } }

/-! ## Segments -/

/-- The segment goes to the connected peer. -/
def ToPeer (t : Tcb P) (h : Header) : Prop := h.dstIp = t.remoteEp.ip ∧ h.dstPort = t.remoteEp.port

/-- `h` is a header `emit_segment` builds: addressed to the peer, with the window the ring allows. -/
structure PeerHeader (t : Tcb P) (fl : Flags) (seq ack : U32) (opts : TcpOptions) (h : Header) :
    Prop where
  src : h.srcIp = t.localEp.ip ∧ h.srcPort = t.localEp.port
  dst : t.ToPeer h
  seq : h.seq = seq
  ack : h.ack = ack
  window : h.window = (t.outboundWindow fl.syn).1
  options : h.options = opts
  flags : ∃ ece cwr, h.flags = { fl with ece := ece, cwr := cwr } ∧
    (fl.syn = true → ece = fl.ece ∧ cwr = fl.cwr)

/-- `pkt` is a datagram with header `h` and payload `p`, and `ring` the egress ring with it. -/
structure Staged (t : Tcb P) (h : Header) (p pkt : List U8) (ring : TxRing P.TXQ) : Prop where
  room : t.txRing.len < P.TXQ
  bytes : ∃ fill full, fill p.length = some p ∧
    emitWith P.littleEndian MAX_PACKET h p.length fill full = .ok pkt
  size : 1 ≤ pkt.length ∧ pkt.length ≤ MAX_PACKET
  ring : ring.toList = t.txRing.toList ++ [pkt]

/-- The segment acknowledges something and advertises a window. -/
def advertises (h : Header) : Bool := h.flags.ack && !h.flags.rst

/-- The block after a segment was staged; `d` is the D-SACK still to be reported. -/
def emitted (t : Tcb P) (h : Header) (p pkt : List U8) (ring : TxRing P.TXQ)
    (d : Option (U32 × U32)) : Tcb P :=
  { t with
    txRing := ring
    sent := t.sent ++ [t.emission h p pkt]
    dsack := d
    lastAckSent := if advertises h then h.ack else t.lastAckSent
    rcvAdvEdge :=
      if advertises h then (t.noteAdvertised h.ack (t.outboundWindow h.flags.syn).2).rcvAdvEdge
      else t.rcvAdvEdge }

/-- The options of a segment with `len` bytes of data, and the D-SACK left over. -/
def OptionsFor (t : Tcb P) (len : U32) (opts : TcpOptions) (d : Option (U32 × U32)) : Prop :=
  (∃ ts, opts = { (segmentOptions len t).1 with ts := ts } ∧ ts.isSome = t.tsEnabled) ∧
    d = (segmentOptions len t).2.dsack

/-- Control segments: pure ACK, probe, SYN, SYN-ACK, reset. -/
inductive Control (t : Tcb P) : Flags → U32 → U32 → TcpOptions → Option (U32 × U32) → Prop
  | ack {opts : TcpOptions} {d : Option (U32 × U32)} (hopts : t.OptionsFor 0 opts d) :
      Control t { ack := true } t.sndNxt t.rcvNxt opts d
  | probe {seq : U32} {ts : Option (U32 × U32)} (hseq : seq = t.sndUna - 1 ∨ seq = t.sndNxt - 1)
      (hts : ts.isSome = t.tsEnabled) :
      Control t { ack := true } seq t.rcvNxt { TcpOptions.NONE with ts := ts } t.dsack
  | syn {ts : U32 × U32} (hstate : t.state = .synSent) :
      Control t { syn := true, ece := true, cwr := true } t.iss 0
        { mss := some t.localMss, wscale := some P.WS, ts := some ts, sackPermitted := true
          sack := SackBlocks.EMPTY } t.dsack
  | synack {ts : Option (U32 × U32)} (hstate : t.state = .synRcvd) (hts : ts.isSome = t.tsEnabled) :
      Control t { syn := true, ack := true, ece := t.ecnEnabled } t.iss t.rcvNxt
        { mss := some t.localMss, wscale := if t.wsOk then some t.rcvWscale else none, ts := ts
          sackPermitted := t.sackEnabled, sack := SackBlocks.EMPTY } t.dsack
  | rst : Control t { rst := true, ack := true } t.sndNxt t.rcvNxt TcpOptions.NONE t.dsack

/-- A path-MTU probe of `len` bytes, sized for `cap`, and why it may go out now. -/
structure ProbeOk (t : Tcb P) (len : U32) (cap : U16) : Prop where
  clamped : t.pmtuRestoreMss ≠ 0
  idle : t.pmtuProbeInflight = false
  due : t.pmtuProbeAt.toNat ≤ t.nowMs.toNat
  calm : t.rtxCount = 0 ∧ t.cc.state = .opened
  next : cap = if t.pmtuMss.toNat < BLACKHOLE_MSS1.toNat ∧
      BLACKHOLE_MSS1.toNat < t.pmtuRestoreMss.toNat then BLACKHOLE_MSS1 else t.pmtuRestoreMss
  size : len = satSub ((minB (minB t.localMss t.peerMss) cap).setWidth 32)
    (if t.tsEnabled then 12 else 0)
  more : t.mssPayload.toNat < len.toNat

/-- A first transmission of `len` bytes fits the segment size, unless it is the path-MTU probe. -/
def SizeOk (t : Tcb P) (len : U32) : Option (U32 × U16) → Prop
  | none => len.toNat ≤ t.mssPayload.toNat
  | some (plen, cap) => plen = len ∧ t.ProbeOk len cap

/-- What a first transmission of `len` bytes (and the FIN if `fin`) is allowed by; `probe` says whether
it is a path-MTU probe. -/
structure NewOk (t : Tcb P) (len : U32) (fin : Bool) (probe : Option (U32 × U16)) : Prop where
  room : t.rtx.segs.len < P.RTX
  queued : len.toNat ≤ t.unsentBytes.toNat
  last : fin = (t.finOwed && len == t.unsentBytes)
  nonempty : 0 < len.toNat ∨ fin = true
  window : len.toNat ≤ t.usableWindow.toNat
  size : t.SizeOk len probe

/-- The sizes once the probe staged at `seq`, if there was one, was noted. -/
def probing (z : Sizes) (seq : U32) : Option (U32 × U16) → Sizes
  | none => z
  | some (plen, cap) =>
    { z with
      pmtuProbeInflight := true, pmtuProbeMss := cap, pmtuProbeStart := seq, pmtuProbeEnd := seq + plen }

/-- What record `i` of the queue holds and why it may be sent again. -/
structure ResendOk (t : Tcb P) (i : ℕ) (s : Seg) : Prop where
  record : t.rtx.get i = some s
  free : s.awaitsRetrans = true ∨ s.flags.sacked = false

/-- The record of a first transmission. -/
def newSeg (t : Tcb P) (now : U64) (len : U32) (fin : Bool) : Seg where
  start := t.sndNxt
  stop := t.sndNxt + (len + ofFlag 32 fin)
  xmitTs := now
  xmitSeq := 0
  flags := { fin := fin }
  sent := 0

/-- The bytes of the send ring at sequence number `seq`. -/
def bytesAt (t : Tcb P) (seq len : U32) : List U8 :=
  t.sendRing.peekAt (seq - t.dataUna).toNat len.toNat

/-! ## Timers and sizes -/

/-- The RTO runs; it was started only if it did not run before. -/
def Ensured (t : Tcb P) (rto : Deadline) : Prop :=
  rto.isArmed = true ∧ (t.rtoDeadline.isArmed = true → rto = t.rtoDeadline)

/-- A tail loss probe is not due after the RTO. -/
def NotAfter (tlp rto : Deadline) : Prop := tlp.isArmed = true → tlp.raw.toNat ≤ rto.raw.toNat

/-- The sizes after a path MTU was reported that allows segments of `mss` bytes: never probe above
it. -/
def bounded (z : Sizes) (mss : U16) : Sizes :=
  if (minB z.pmtuRestoreMss mss).toNat ≤ (minB z.pmtuMss mss).toNat then
    { z with pmtuRestoreMss := 0, pmtuProbeInflight := false }
  else
    { z with pmtuRestoreMss := minB z.pmtuRestoreMss mss }

/-- How the segment sizes of an open connection change. -/
inductive Resized (z : Sizes) : Sizes → Prop
  | delivered {at_ : U64} (hflight : z.pmtuProbeInflight = true) :
      Resized z { z with
        pmtuProbeInflight := false
        pmtuMss := maxB z.pmtuMss z.pmtuProbeMss
        pmtuRestoreMss :=
          if z.pmtuRestoreMss.toNat ≤ (maxB z.pmtuMss z.pmtuProbeMss).toNat then 0
          else z.pmtuRestoreMss
        pmtuProbeAt := at_ }
  | failed {at_ : U64} {backoff : U32} :
      Resized z { z with
        pmtuProbeInflight := false, pmtuProbeAt := at_, pmtuProbeBackoffMs := backoff }
  | probing {cap : U16} {start stop : U32} (hle : cap.toNat ≤ z.pmtuRestoreMss.toNat)
      (hcap : cap = BLACKHOLE_MSS1 ∨ cap = z.pmtuRestoreMss) :
      Resized z { z with
        pmtuProbeInflight := true, pmtuProbeMss := cap, pmtuProbeStart := start
        pmtuProbeEnd := stop }
  | clamped {target : U16} {at_ : U64} {backoff : U32}
      (htarget : target = BLACKHOLE_MSS1 ∨ target = BLACKHOLE_MSS2)
      (hlt : target.toNat < z.pmtuMss.toNat) :
      Resized z { z with
        pmtuRestoreMss := if z.pmtuRestoreMss = 0 then z.pmtuMss else z.pmtuRestoreMss
        pmtuMss := target, pmtuProbeInflight := false, pmtuProbeAt := at_
        pmtuProbeBackoffMs := backoff }
  | bounded (mtu : U16) : Resized z (bounded z (mssOfMtu mtu))
  | lowered {mtu : U16} (hlt : (mssOfMtu mtu).toNat < z.pmtuMss.toNat) :
      Resized z { z with pmtuMss := mssOfMtu mtu }

/-- A probe is at most as large as the size it restores. -/
lemma ProbeOk.le {t : Tcb P} {len : U32} {cap : U16} (h : t.ProbeOk len cap) :
    cap.toNat ≤ t.pmtuRestoreMss.toNat := by
  rw [h.next]
  split
  case isTrue hstep => exact hstep.2.le
  case isFalse => exact le_refl _

/-- Noting the probe, if the segment is one, is a change of sizes. -/
lemma SizeOk.resized {t : Tcb P} {len : U32} {probe : Option (U32 × U16)} (h : t.SizeOk len probe)
    (seq : U32) :
    probing t.toSizes seq probe = t.toSizes ∨ Resized t.toSizes (probing t.toSizes seq probe) := by
  cases probe with
  | none => exact .inl rfl
  | some p =>
    refine .inr (.probing h.2.le ?_)
    have hnext := h.2.next
    split at hnext
    · exact .inl hnext
    · exact .inr hnext

/-! ## Beginnings -/

/-- All per-connection state reset, in state `s`, with initial sequence number `iss`. -/
def cleared (t : Tcb P) (s : State) (localEp remoteEp : Endpoint) (iss : U32) (mtu : U16) : Tcb P :=
  { (zeroed : Tcb P) with
    localEp := localEp
    remoteEp := remoteEp
    epoch := t.epoch + 1
    iss := iss
    sndUna := iss
    sndNxt := iss
    sendRing := t.sendRing.clear
    recvRing := t.recvRing.clear
    ooo := t.ooo.clear
    rtx := t.rtx.clear
    txRing := t.txRing.clear
    mtu := mtu
    localMss := satSub mtu HDR_LEN
    peerMss := DEFAULT_PEER_MSS
    pmtuMss := satSub mtu HDR_LEN
    state := s }

/-- Our SYN went out. -/
def synOut (t : Tcb P) (rto : Deadline) : Tcb P :=
  { t with sndNxt := t.iss + 1, synUnacked := true, rtoDeadline := rto }

/-- The block a SYN that crossed ours leaves. -/
def crossed (t : Tcb P) (seg : Segment) : Tcb P :=
  { t.absorbSynOptions seg with ecnEnabled := false, state := .synRcvd }

/-- The handshake is over: what entering ESTABLISHED does. -/
def enterEstablished (t : Tcb P) : Tcb P :=
  { t with
    rtoDeadline := Deadline.OFF
    rcvAdvEdge := if seqGt t.rcvAdvEdge t.rcvNxt then t.rcvAdvEdge else t.rcvNxt
    state := .established }

/-- The peer's SYN-ACK acknowledged our SYN. -/
def synAnswered (t : Tcb P) (seg : Segment) : Tcb P :=
  ({ t.absorbSynOptions seg with
    ecnEnabled := seg.flags.ece && !seg.flags.cwr
    sndUna := seg.ack
    synUnacked := false } : Tcb P).enterEstablished

/-- The peer acknowledged our SYN-ACK. -/
def synackAnswered (t : Tcb P) (seg : Segment) : Tcb P :=
  ({ t with
    sndUna := seg.ack
    synUnacked := false
    sndWnd := if seg.flags.syn then seg.window.setWidth 32 else t.scalePeerWindow seg.window
    sndWl1 := seg.seq
    sndWl2 := seg.ack
    wlPos := t.streamPos seg.seq } : Tcb P).enterEstablished

/-- Why the ACK of our SYN-ACK was taken: it is the peer's, and repeats its SYN or lies in the window. -/
structure ThirdAck (t : Tcb P) (seg : Segment) : Prop where
  tuple : t.OnTuple seg
  flag : seg.flags.ack = true
  rst : seg.flags.rst = false
  ack : seg.ack = t.iss + 1
  seq : if seg.flags.syn then seg.seq = t.irs
    else t.acceptable seg.seq (seg.payloadLen + ofFlag 32 seg.flags.fin) = true

end Tcb

open Tcb

/-! ## Steps -/

/-- What can happen to a connection. -/
inductive Step : Tcb P → Option Segment → Tcb P → Prop
  -- Output
  | control {t : Tcb P} {fl : Flags} {seq ack : U32} {opts : TcpOptions} {d : Option (U32 × U32)}
      {h : Header} {pkt : List U8} {ring : TxRing P.TXQ} (hctl : t.Control fl seq ack opts d)
      (hh : t.PeerHeader fl seq ack opts h) (hpkt : t.Staged h [] pkt ring) :
      Step t none (t.emitted h [] pkt ring d)
  | stateless {t : Tcb P} {h : Header} {pkt : List U8} {ring : TxRing P.TXQ}
      (hh : h.flags = { rst := true } ∨
        (¬ t.ToPeer h ∧ h.flags.syn = true ∧ h.flags.fin = false ∧ h.window.toNat ≤ P.BUF))
      (hpkt : t.Staged h [] pkt ring) :
      Step t none { t with txRing := ring, sent := t.sent ++ [t.emission h [] pkt] }
  | first {t : Tcb P} {len : U32} {fin : Bool} {probe : Option (U32 × U16)} {opts : TcpOptions}
      {d : Option (U32 × U32)} {h : Header} {pkt : List U8} {ring : TxRing P.TXQ} {rto tlp : Deadline}
      (now : U64) (hnew : t.NewOk len fin probe) (hshort : len.toNat ≤ MSS.toNat) (hopts : t.OptionsFor len opts d)
      (hh : t.PeerHeader { ack := true, psh := decide (0 < len.toNat), fin := fin } t.sndNxt t.rcvNxt
        opts h)
      (hlen : (t.bytesAt t.sndNxt len).length = len.toNat)
      (hpkt : t.Staged h (t.bytesAt t.sndNxt len) pkt ring)
      (hrto : t.Ensured rto) (htlp : NotAfter tlp rto) :
      Step t none
        { t.emitted h (t.bytesAt t.sndNxt len) pkt ring d with
          rtx := (t.rtx.push (t.newSeg now len fin)).2
          sndNxt := t.sndNxt + (len + ofFlag 32 fin)
          finSent := t.finSent || fin
          finSeq := if fin then t.sndNxt + len else t.finSeq
          toSizes := probing t.toSizes t.sndNxt probe
          probed := t.probed ++ (probe.map fun p => (t.sent.length, p.2)).toList
          rtoDeadline := rto
          tlpDeadline := tlp }
  | again {t : Tcb P} {i : ℕ} {s : Seg} {len : U32} {opts : TcpOptions} {d : Option (U32 × U32)}
      {h : Header} {pkt : List U8} {ring : TxRing P.TXQ} {rto : Deadline} (now : U64)
      (hre : t.ResendOk i s) (hpart : len = minB s.payloadLen t.mssPayload)
      (hshort : len.toNat ≤ MSS.toNat) (hopts : t.OptionsFor len opts d)
      (hh : t.PeerHeader
        { ack := true, psh := decide (0 < len.toNat), fin := s.flags.fin && len == s.payloadLen }
        s.start t.rcvNxt opts h)
      (hlen : (t.bytesAt s.start len).length = len.toNat)
      (hpkt : t.Staged h (t.bytesAt s.start len) pkt ring) (hrto : t.Ensured rto) :
      Step t none
        { t.emitted h (t.bytesAt s.start len) pkt ring d with
          rtx := t.rtx.retransmitted i now
            (if len.toNat < s.payloadLen.toNat then len.setWidth 16 else 0)
          rtoDeadline := rto }
  | forget {t : Tcb P} : Step t none { t with dsack := none }
  | extracted {t : Tcb P} {ring : TxRing P.TXQ} (hring : ring.toList = t.txRing.toList.tail) :
      Step t none { t with txRing := ring }
  -- Marks, timers and sizes
  | remark {t : Tcb P} {q : RtxQueue P.RTX} (hq : ∀ a b f, t.rtx.Valid a b f → q.Valid a b f) :
      Step t none { t with rtx := q }
  | rearm {t : Tcb P} {rto tlp : Deadline}
      (hout : t.rtoDeadline.isArmed = true ∨ t.sndUna ≠ t.sndNxt)
      (hrto : rto.isArmed = true)
      (htlp : tlp.isArmed = true → t.state.isSynchronized = true ∧ tlp.raw.toNat ≤ rto.raw.toNat) :
      Step t none { t with rtoDeadline := rto, tlpDeadline := tlp }
  | resyn {t : Tcb P} {rto : Deadline} (hstate : t.state = .synSent ∨ t.state = .synRcvd)
      (hrto : rto.isArmed = true) : Step t none { t with rtoDeadline := rto }
  | probe {t : Tcb P} {tlp : Deadline}
      (htlp : tlp.isArmed = true → t.state.isSynchronized = true ∧ t.sndUna ≠ t.sndNxt ∧
        (t.rtoDeadline.isArmed = true → tlp.raw.toNat ≤ t.rtoDeadline.raw.toNat)) :
      Step t none { t with tlpDeadline := tlp }
  | rest {t : Tcb P} (hidle : t.sndUna = t.sndNxt) :
      Step t none { t with rtoDeadline := Deadline.OFF }
  | linger {t : Tcb P} {tw : Deadline} (hstate : t.state = .timeWait) :
      Step t none { t with timeWaitDeadline := tw }
  | resized {t : Tcb P} {z : Sizes} (hz : Resized t.toSizes z) : Step t none { t with toSizes := z }
  | mtuSet {t : Tcb P} {mtu : U16} (hstate : t.state = .closed ∨ t.state = .listen) :
      Step t none
        { t with mtu := clampB mtu MIN_MTU MAX_MTU, localMss := mssOfMtu mtu, pmtuMss := mssOfMtu mtu }
  -- Acknowledgments
  | acked {t : Tcb P} {seg : Segment} {q : RtxQueue P.RTX} {rto tlp : Deadline}
      (hstate : t.state.isSynchronized = true) (hlo : ¬ seqLt seg.ack t.sndUna)
      (hhi : ¬ seqGt seg.ack t.sndNxt) (hne : seg.ack ≠ t.sndUna)
      (hseq : t.segmentAcceptable seg = true ∨ seg.seq = t.rcvNxt ∨
        seqGe (seg.seq + seg.payloadLen + ofFlag 32 seg.flags.fin) t.lastAckSent)
      (hq : ∀ b f, t.rtx.Valid t.dataUna b f →
        (seg.ack - t.dataUna).toNat ≤ (b - t.dataUna).toNat → q.Valid seg.ack b f)
      (hidle : seg.ack = t.sndNxt → rto = Deadline.OFF ∧ tlp = Deadline.OFF)
      (hout : seg.ack ≠ t.sndNxt → rto.isArmed = true ∧ NotAfter tlp rto) :
      Step t (some seg)
        { t with
          sndUna := seg.ack
          synUnacked := false
          sendRing := t.sendRing.consume
            (satSub (satSub (seg.ack - t.sndUna)
              (ofFlag 32 (t.finSent && decide (seqLe t.sndUna t.finSeq) &&
                decide (seqGt seg.ack t.finSeq))))
              (ofFlag 32 t.synUnacked)).toNat
          rtx := q
          toSendWindow := (t.updateSendWindow seg t.sndUna).toSendWindow
          rtoDeadline := rto
          tlpDeadline := tlp }
  | window {t : Tcb P} {seg : Segment} (hstate : t.state.isSynchronized = true)
      (hack : seg.ack = t.sndUna)
      (hseq : t.segmentAcceptable seg = true ∨ seg.seq = t.rcvNxt ∨
        seqGe (seg.seq + seg.payloadLen + ofFlag 32 seg.flags.fin) t.lastAckSent) :
      Step t (some seg) { t with toSendWindow := (t.updateSendWindow seg t.sndUna).toSendWindow }
  | finWait2 {t : Tcb P} (hstate : t.state = .finWait1) (hfin : t.finSent = true)
      (hidle : t.sndUna = t.sndNxt) : Step t none { t with state := .finWait2 }
  | timeWait {t : Tcb P} {tw : Deadline} (hstate : t.state = .closing) (hfin : t.finSent = true)
      (hidle : t.sndUna = t.sndNxt) :
      Step t none { t with state := .timeWait, timeWaitDeadline := tw }
  -- Segment text and the peer's FIN
  | segment {t : Tcb P} {seg : Segment} (hstate : t.state.canRecv = true)
      (hacc : t.segmentAcceptable seg = true) : Step t (some seg) (t.receiveSegment seg).2
  | duplicate {t : Tcb P} {seg : Segment} (hdata : seg.payload ≠ [])
      (hold : seqLe (seg.seq + seg.payloadLen) t.rcvNxt) :
      Step t (some seg) (t.noteDsack seg.seq (seg.seq + seg.payloadLen))
  -- The application
  | accept {t : Tcb P} {bytes : List U8} {ring : Ring P.BUF}
      (hstate : bytes ≠ [] → t.state.canSend = true)
      (hring : ring.contents = t.sendRing.contents ++ bytes) :
      Step t none { t with sendRing := ring, accepted := t.accepted ++ bytes }
  | deliver {t : Tcb P} {n : ℕ} (herror : t.error = none) :
      Step t none
        { t with
          recvRing := (t.recvRing.read n).2
          delivered := t.delivered ++ (t.recvRing.read n).1 }
  | close {t : Tcb P} {s : State}
      (hstate : (t.state = .established ∨ t.state = .synRcvd) ∧ s = .finWait1 ∨
        t.state = .closeWait ∧ s = .lastAck) :
      Step t none { t with state := s }
  -- Ends
  | abort {t : Tcb P} : Step t none t.abortLocal
  | closeClean {t : Tcb P} (hstate : t.state.canRecv = false) : Step t none t.closeClean
  | timeWaitOver {t : Tcb P} (hdue : t.timeWaitDeadline.isArmed = true) : Step t none t.timeWaitOver
  -- Beginnings
  | reset {t : Tcb P} {s : State} {localEp remoteEp : Endpoint} {iss : U32} {mtu : U16}
      (hstate : s = .closed ∨ s = .listen) (hmtu : mtu = t.mtu ∨ mtu = MAX_MTU) :
      Step t none (t.cleared s localEp remoteEp iss mtu)
  | connected {t : Tcb P} {opts : TcpOptions} {d : Option (U32 × U32)} {fl : Flags} {seq ack : U32}
      {h : Header} {pkt : List U8} {ring : TxRing P.TXQ} {rto : Deadline} (hstate : t.state = .closed)
      (hsyn : fl.syn = true) (hctl : t.activeOpen.Control fl seq ack opts d)
      (hh : t.activeOpen.PeerHeader fl seq ack opts h) (hpkt : t.activeOpen.Staged h [] pkt ring)
      (hrto : rto.isArmed = true) :
      Step t none ((t.activeOpen.emitted h [] pkt ring d).synOut rto)
  | halfOpened {t : Tcb P} {seg : Segment} {opts : TcpOptions} {d : Option (U32 × U32)} {fl : Flags}
      {seq ack : U32} {h : Header} {pkt : List U8} {ring : TxRing P.TXQ} {rto : Deadline}
      (hstate : t.state = .listen) (hseg : seg.flags.syn = true) (hack : seg.flags.ack = false)
      (hrst : seg.flags.rst = false) (hfin : seg.flags.fin = false)
      (hsyn : fl.syn = true) (hctl : (t.halfOpen seg).Control fl seq ack opts d)
      (hh : (t.halfOpen seg).PeerHeader fl seq ack opts h)
      (hpkt : (t.halfOpen seg).Staged h [] pkt ring) (hrto : rto.isArmed = true) :
      Step t (some seg) (((t.halfOpen seg).emitted h [] pkt ring d).synOut rto)
  | activeOpened {t : Tcb P} {seg : Segment} (hstate : t.state = .synSent)
      (hsyn : seg.flags.syn = true) (hack : seg.flags.ack = true) (hrst : seg.flags.rst = false)
      (hlo : seqGt seg.ack t.iss) (hhi : seqLe seg.ack t.sndNxt) :
      Step t (some seg) (t.synAnswered seg)
  | simultaneous {t : Tcb P} {seg : Segment} (hstate : t.state = .synSent)
      (hsyn : seg.flags.syn = true) (hack : seg.flags.ack = false) (hrst : seg.flags.rst = false) :
      Step t (some seg) (t.crossed seg)
  | passiveOpened {t : Tcb P} {seg : Segment} (hstate : t.state = .synRcvd) (hseg : t.ThirdAck seg) :
      Step t (some seg) (t.synackAnswered seg)
  | cookieOpened {t : Tcb P} {seg : Segment} {opts : CookieOpts} (hstate : t.state = .listen)
      (hack : seg.flags.ack = true) (hsyn : seg.flags.syn = false) (hrst : seg.flags.rst = false)
      (hws : ∀ w ∈ opts.wscale, w.toNat ≤ 14) :
      Step t (some seg) (t.cookieOpened seg opts)

end TcpSansIo
