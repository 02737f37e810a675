import TcpSansIo.Congestion
import TcpSansIo.Ooo
import TcpSansIo.Rack
import TcpSansIo.Ring
import TcpSansIo.TxRing
import TcpSansIo.Wire.Codec
import TcpSansIo.Core.Computation

/-!
# The transmission control block (`tcb/mod.rs`)

The fields of `Tcb`, in groups that are written together.  A group is a structure of its own and
`Tcb` extends all of them, so a field is still `t.sndUna`, and "this function changes nothing else
of the send side" is an equation between groups.

The counters of `TcbStats` that `stats()` computes on demand (`srtt_ms` to `state`) are left out:
the stored copies of them are never written.

A field marked *record* is not in the source.  It keeps the history that statements about runs refer
to (what was accepted, delivered and staged on this connection, and when); it is only ever appended to
or overwritten, and no function of the source reads it.
-/

namespace TcpSansIo

/-- 4-tuple endpoint identifying one side of a connection. -/
structure Endpoint where
  ip : Ip
  port : U16
  deriving Repr, DecidableEq

/-- User-supplied parameters at connection creation. -/
structure TcbConfig where
  localEp : Endpoint
  remoteEp : Endpoint
  iss : U32
  initialRtoMs : U32
  deriving Repr, DecidableEq

/-! ## Constants -/

/-- 2·MSL, 60 s. -/
def TIME_WAIT_MS : U64 := 60000
/-- Longest stay in TIME_WAIT, however often the FIN is retransmitted. -/
def TIME_WAIT_MAX_MS : U64 := 2 * TIME_WAIT_MS
/-- Upper bound of the retransmission timeout. -/
def RTO_MAX_MS : U32 := 60000
/-- Lower bound of the retransmission timeout. -/
def RTO_MIN_MS : U32 := 200
/-- Delayed-ACK quantum. -/
def DELAYED_ACK_MS : U64 := 40
/-- Peer MSS assumed when the SYN carries no MSS option. -/
def DEFAULT_PEER_MSS : U16 := 536
/-- Smallest peer MSS honoured. -/
def MIN_PEER_MSS : U16 := 64
/-- Smallest IPv4 MTU accepted by `set_mtu` and `update_pmtu`. -/
def MIN_MTU : U16 := 576
/-- Largest IPv4 MTU accepted. -/
def MAX_MTU : U16 := BitVec.ofNat 16 MAX_PACKET
/-- IPv4 and TCP fixed headers. -/
def HDR_LEN : U16 := 40
/-- Minimum timeout of a tail loss probe. -/
def TLP_MIN_PTO_MS : U64 := 10
/-- Worst-case delayed-ACK time, added to the probe timeout when one segment is in flight. -/
def TLP_WC_DELACK_MS : U64 := 200
/-- SYN-ACK retransmissions in SYN_RCVD before reverting to LISTEN. -/
def MAX_SYN_RCVD_RETRIES : U8 := 5
/-- SYN retransmissions in SYN_SENT before giving up. -/
def MAX_SYN_RETRIES : U8 := 6
/-- Consecutive timeouts, or unanswered zero-window probes, before the connection aborts. -/
def MAX_RETRANSMITS : U8 := 10
/-- Longest time without forward progress while send work is outstanding. -/
def DEFAULT_USER_TIMEOUT_MS : U32 := 300000
/-- Idle time before the first keepalive probe. -/
def DEFAULT_KEEPALIVE_IDLE_MS : U32 := 600000
/-- Time between keepalive probes. -/
def DEFAULT_KEEPALIVE_INTVL_MS : U32 := 60000
/-- Unanswered keepalive probes before the connection aborts. -/
def DEFAULT_KEEPALIVE_COUNT : U8 := 4
/-- Time the peer has for its own FIN once ours is acknowledged. -/
def DEFAULT_FIN_WAIT2_TIMEOUT_MS : U32 := 60000
/-- Minimum spacing of responses to unacceptable segments. -/
def OOW_RATELIMIT_MS : U64 := 500
/-- TS.Recent older than 24 days is no longer trusted. -/
def PAWS_IDLE_MS : U64 := 24 * 24 * 60 * 60 * 1000
/-- Consecutive timeouts of an over-sized segment before the segment size is clamped. -/
def BLACKHOLE_RTO_STEP1 : U8 := 3
/-- The same before it is clamped further. -/
def BLACKHOLE_RTO_STEP2 : U8 := 5
/-- The size it is clamped to first. -/
def BLACKHOLE_MSS1 : U16 := 1024
/-- The size it is clamped to in the end. -/
def BLACKHOLE_MSS2 : U16 := DEFAULT_PEER_MSS
/-- Time from a clamp to the first probe of a larger size. -/
def PMTU_PROBE_MIN_MS : U32 := 10000
/-- Longest time between two such probes. -/
def PMTU_PROBE_MAX_MS : U32 := 600000

/-- The loop of `local_ws_shift`. -/
def localWsShiftFrom (buf : ℕ) : (fuel shift : ℕ) → ℕ
  | 0, shift => shift
  | fuel + 1, shift =>
    if 65535 < buf / 2 ^ shift ∧ shift < 14 then localWsShiftFrom buf fuel (shift + 1) else shift

/-- Window Scale shift count advertised for a receive ring of `buf` bytes. -/
def localWsShift (buf : ℕ) : U8 := BitVec.ofNat 8 (localWsShiftFrom buf 15 0)

/-- Window-scale shift advertised for this ring capacity. -/
def Params.WS (P : Params) : U8 := localWsShift P.BUF

/-! ## Field groups -/

/-- A FIN that arrived beyond `RCV.NXT`, with the first sequence number of its segment. -/
structure HeldFin where
  start : U32
  seq : U32
  deriving Repr, DecidableEq

/-- Who talks to whom. -/
structure Peers where
  localEp : Endpoint
  remoteEp : Endpoint
  /-- Record: how often all per-connection state was reset. -/
  epoch : ℕ

/-- Passive opens. -/
structure Passive where
  isListener : Bool
  synRcvdRetries : U8

/-- Send sequence space (RFC 9293 §3.3.1) and what occupies it besides data. -/
structure SendSeq where
  sndUna : U32
  sndNxt : U32
  iss : U32
  /-- Our SYN occupies sequence number ISS and is not yet acknowledged. -/
  synUnacked : Bool
  finSent : Bool
  finSeq : U32

/-- How far back an acknowledgment may reach. -/
structure AckRange where
  /-- Sequence space acknowledged since ISS (SYN, data and FIN). -/
  sndAcked : U64
  maxSndWnd : U32

/-- The peer's window. -/
structure SendWindow where
  sndWnd : U32
  sndWl1 : U32
  sndWl2 : U32
  /-- Record: the position of `SND.WL1` in the stream received, which starts at position 0. -/
  wlPos : ℤ

/-- Bytes to send. -/
structure SendBuf (P : Params) where
  sendRing : Ring P.BUF
  /-- Record: the bytes accepted from the application. -/
  accepted : List U8

/-- The loan of free space in the send ring. -/
structure SendLoan where
  sendLent : ℕ
  sendLentConn : U32
  /-- Bumped for every new connection. -/
  connGen : U32

/-- Receive sequence space, received bytes, and what is parked beyond `RCV.NXT`. -/
structure RecvSeq (P : Params) where
  rcvNxt : U32
  irs : U32
  recvRing : Ring P.BUF
  ooo : OooList P.OOO_MAX_RANGES
  oooFin : Option HeldFin
  /-- Record: the bytes handed to the application. -/
  delivered : List U8

/-- What was last acknowledged and advertised, and the ACK that is owed. -/
structure AckState where
  rcvWnd : U32
  rcvAdvEdge : U32
  lastAckSent : U32
  dsack : Option (U32 × U32)
  pendingAck : Bool
  delayedAckCount : U8
  ackDeadline : Deadline

/-- Segment sizes. -/
structure Sizes where
  mtu : U16
  localMss : U16
  peerMss : U16
  pmtuMss : U16
  pmtuRestoreMss : U16
  pmtuProbeMss : U16
  pmtuProbeInflight : Bool
  pmtuProbeStart : U32
  pmtuProbeEnd : U32
  pmtuProbeAt : U64
  pmtuProbeBackoffMs : U32

/-- Options both sides agreed on. -/
structure Negotiated where
  tsEnabled : Bool
  wsOk : Bool
  sndWscale : U8
  rcvWscale : U8
  sackEnabled : Bool
  ecnEnabled : Bool

/-- Our timestamp offset and the peer's timestamp (RFC 7323). -/
structure TsState where
  tsOffset : U32
  tsRecent : U32
  tsRecentStamp : U64

/-- ECN echo and response. -/
structure EcnState where
  ceObserved : Bool
  sendCwrPending : Bool

/-- What an ACK is measured by: `SND.UNA`, the first data byte that is not acknowledged, `SND.NXT`, and
the records of the retransmission queue with its count of SACKed bytes. -/
structure AckMark where
  una : U32
  dataUna : U32
  nxt : U32
  records : List Seg
  sacked : U32
  deriving Repr, DecidableEq

/-- What congestion control made of an ACK: its state as it was found and left by the reaction to
ECN-Echo, and by the update at the end, with what that update was told. -/
structure CcTrace where
  beforeEcho : Reno
  afterEcho : Reno
  found : Reno
  delivered : U32
  pipe : U32
  mss : U32
  newlyLost : Bool
  limited : Bool
  left : Reno
  deriving Repr, DecidableEq

/-- An ACK that was reacted to: the send side before and after it, and what congestion control made of
it. -/
structure AckRecord extends CcTrace where
  before : AckMark
  after : AckMark
  deriving Repr, DecidableEq

/-- The ACK's ECN-Echo began a reduction: the reaction to it changed the state of congestion control. -/
def AckRecord.cwr (r : AckRecord) : Bool := r.beforeEcho != r.afterEcho

/-- What happens to the count of delivered bytes: an ACK, or a timeout that forgets all SACK marks. -/
inductive LossEvent where
  | acked (r : AckRecord)
  | forgot
  deriving Repr, DecidableEq

/-- Loss detection. -/
structure LossState where
  rack : Rack
  tlpEndSeq : Option U32
  tlpIsRetrans : Bool
  dupAcks : U8
  renoSacked : U32
  dsackSegs : U64
  /-- Record: the ACKs reacted to on this connection, and the timeouts that forgot SACK marks. -/
  history : List LossEvent

/-- Congestion control and what gates it. -/
structure CongState where
  cc : Reno
  cwndLimited : Bool
  cwndLimitedSeq : U32
  pipeHiwat : U32
  lastDataSendMs : U64

/-- RTT estimation and the retransmission timeout. -/
structure RttState where
  synXmitMs : U64
  synRetransmitted : Bool
  rtoMs : U32
  srttMs : U32
  rttvarMs : U32
  rttFirstSample : Bool
  rtxCount : U8

/-- The retransmission timers: RTO, tail loss probe, RACK reordering. -/
structure RtxTimers where
  rtoDeadline : Deadline
  tlpDeadline : Deadline
  rackDeadline : Deadline

/-- The persist (zero window, sender SWS) timer. -/
structure PersistTimer where
  persistDeadline : Deadline
  persistBackoffMs : U32

/-- The timers of the closing states. -/
structure CloseTimers where
  timeWaitDeadline : Deadline
  timeWaitSinceMs : U64
  finWait2Deadline : Deadline

/-- Keepalive. -/
structure KeepaliveTimer where
  keepaliveProbes : U8
  keepaliveDeadline : Deadline

/-- USER TIMEOUT. -/
structure UserTimer where
  userTimeoutDeadline : Deadline
  /-- Bytes acknowledged since the USER TIMEOUT was last re-armed. -/
  utProgress : U32

/-- What the host configured. -/
structure Knobs where
  cfgIss : U32
  initRtoMs : U32
  finWait2TimeoutMs : U32
  keepaliveIdleMs : U32
  keepaliveIntvlMs : U32
  keepaliveCount : U8
  userTimeoutMs : U32
  egressPaused : Bool
  txCsumOffload : Bool

/-- A segment that was staged, with the sequence spaces, windows, rings, sizes and options of the block
it was staged from, and what a path-MTU probe waits for: the clock, the retransmissions in a row and
congestion control. -/
structure Emission (P : Params) extends Peers, SendSeq, SendWindow, SendBuf P, RecvSeq P, Sizes,
    Negotiated where
  state : State
  nowMs : U64
  rtxCount : U8
  cc : Reno
  header : Header
  payload : List U8
  packet : List U8

/-- Egress staging. -/
structure Egress (P : Params) where
  txRing : TxRing P.TXQ
  ipId : U16
  /-- Record: the segments staged on this connection. -/
  sent : List (Emission P)
  /-- Record: which of them were noted as path-MTU probes, and the segment size each was sized for. -/
  probed : List (ℕ × U16)

/-- Secrets. -/
structure Secrets where
  cookieSecret : Key
  cookieSecretSet : Bool
  cookieSecretExplicit : Bool
  cookieSecretUsed : Bool
  prevCookieSecret : Key
  prevCookieSecretSet : Bool
  prevCookieUntilMs : U64
  secret : Key
  secretSet : Bool

/-- Per-connection counters. -/
structure TcbStats where
  segsOut : U64 := 0
  segsIn : U64 := 0
  bytesSent : U64 := 0
  bytesRetrans : U64 := 0
  bytesReceived : U64 := 0
  dupBytesReceived : U64 := 0
  segsRetrans : U64 := 0
  dsacksReceived : U64 := 0
  fastRecoveries : U32 := 0
  rtoCount : U32 := 0
  tlpCount : U32 := 0
  oooDrops : U32 := 0
  oowSuppressed : U32 := 0
  deriving Repr, DecidableEq

/-- Per-connection state. -/
structure Tcb (P : Params) extends Peers, Passive, SendSeq, AckRange, SendWindow, SendBuf P, SendLoan,
    RecvSeq P, AckState, Sizes, Negotiated, TsState, EcnState, LossState, CongState, RttState,
    RtxTimers, PersistTimer, CloseTimers, KeepaliveTimer, UserTimer, Knobs, Egress P, Secrets where
  state : State
  error : Option TcpError
  rtx : RtxQueue P.RTX
  nowMs : U64
  /-- Time of the last rate-limited response. -/
  lastOowMs : Deadline
  stats : TcbStats

/-- A method on the block: it ends with a value or a fault, and the block it leaves behind. -/
abbrev TcbM (P : Params) := EStateM Fault (Tcb P)

end TcpSansIo
