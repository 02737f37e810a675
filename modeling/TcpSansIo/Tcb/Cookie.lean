import TcpSansIo.Tcb.Basic
import TcpSansIo.Wire.Codec

/-!
# SYN cookies and keyed hashing (`tcb/cookie.rs`)

The keyed derivations (timestamp offsets, passive-open ISNs, SYN cookies), and the stateless
SYN-ACK a busy listener answers with.  `siphash24` is the function the code passes as `Params.hash`.

`stage` is the step every emission ends with: push the datagram, and count it if it was queued.
-/

namespace TcpSansIo

open FixedWidth BigEndian

variable {P : Params}

/-! ## SipHash-2-4 -/

/-- The state of SipHash. -/
structure Sip where
  v0 : U64
  v1 : U64
  v2 : U64
  v3 : U64

namespace Sip

/-- One SipRound. -/
def round (s : Sip) : Sip :=
  let v0 := s.v0 + s.v1
  let v1 := s.v1.rotateLeft 13 ^^^ v0
  let v0 := v0.rotateLeft 32
  let v2 := s.v2 + s.v3
  let v3 := s.v3.rotateLeft 16 ^^^ v2
  let v0 := v0 + v3
  let v3 := v3.rotateLeft 21 ^^^ v0
  let v2 := v2 + v1
  let v1 := v1.rotateLeft 17 ^^^ v2
  let v2 := v2.rotateLeft 32
  ⟨v0, v1, v2, v3⟩

/-- Mix in one 64-bit word. -/
def absorb (s : Sip) (m : U64) : Sip :=
  let s := ({ s with v3 := s.v3 ^^^ m } : Sip).round.round
  { s with v0 := s.v0 ^^^ m }

end Sip

/-- A little-endian number. -/
def leNat : List U8 → ℕ
  | [] => 0
  | b :: rest => b.toNat + 256 * leNat rest

/-- A 64-bit word, least significant byte first. -/
def leWord (bytes : List U8) : U64 := BitVec.ofNat 64 (leNat bytes)

/-- Mix in the whole words of `data`, then its tail with the length in the top byte. -/
def sipAbsorb (total : ℕ) : List U8 → Sip → Sip
  | a :: b :: c :: d :: e :: f :: g :: h :: rest, s =>
    sipAbsorb total rest (s.absorb (leWord [a, b, c, d, e, f, g, h]))
  | tail, s =>
    s.absorb (leWord (tail ++ List.replicate (7 - tail.length) 0 ++ [BitVec.ofNat 8 total]))

/-- SipHash-2-4. -/
def siphash24 (key : Key) (data : List U8) : U64 :=
  let k0 := leWord (key.toList.take 8)
  let k1 := leWord (key.toList.drop 8)
  let s : Sip := ⟨0x736f6d6570736575 ^^^ k0, 0x646f72616e646f6d ^^^ k1, 0x6c7967656e657261 ^^^ k0,
    0x7465646279746573 ^^^ k1⟩
  let s := sipAbsorb data.length data s
  let s := ({ s with v2 := s.v2 ^^^ 0xff } : Sip).round.round.round.round
  s.v0 ^^^ s.v1 ^^^ s.v2 ^^^ s.v3

example : siphash24 (Vector.ofFn fun i => BitVec.ofNat 8 i.val) [] = 0x726fdb47dd0e0e31 := by
  decide +kernel

/-! ## Constants -/

/-- Length of a cookie time bucket. -/
def COOKIE_TIME_BUCKET_MS : U64 := 64000
/-- The MSS values a cookie can carry, by index. -/
def COOKIE_MSS_TABLE : List U16 := [536, 1300, 1440, 1452, 1460, 1480, 9000, 65495]
/-- The TSval bits that carry options. -/
def TS_OPT_MASK : U32 := 63
/-- The window-scale shift in them; all ones if the option was not offered. -/
def TS_OPT_WS_MASK : U32 := 0x0F
/-- SACK was permitted. -/
def TS_OPT_SACK : U32 := 0x10
/-- The SYN was an ECN setup. -/
def TS_OPT_ECN : U32 := 0x20

/-- Options recovered from a validated cookie. -/
structure CookieOpts where
  mss : U16
  wscale : Option U8
  sack : Bool
  ecn : Bool
  /-- Validated with the key in force before the last rotation. -/
  prevKey : Bool
  deriving Repr, DecidableEq

/-- The eight bytes of a 64-bit word, most significant first. -/
def bytes8 (v : U64) : List U8 := bytes4 ((v >>> 32).setWidth 32) ++ bytes4 (v.setWidth 32)

/-- The eight bytes of a 64-bit word, least significant first. -/
def leBytes8 (v : U64) : List U8 := (bytes8 v).reverse

/-- SYN-cookie key derived from the host secret. -/
def deriveCookieKey (hash : Key → List U8 → U64) (secret : Key) : Key :=
  let label : List U8 := "tcp-sans-io syn-cookie key ".toList.map fun c => BitVec.ofNat 8 c.toNat
  let lo := leBytes8 (hash secret (label ++ [0x30]))
  let hi := leBytes8 (hash secret (label ++ [0x31]))
  Vector.ofFn fun i => ((lo ++ hi)[i.val]?).getD 0

/-- Decode the option bits a cookie SYN-ACK hid in its TSval, from the third ACK's TSecr. -/
def decodeTsOpts (ts : Option (U32 × U32)) : Option CookieOpts :=
  let base : CookieOpts := ⟨DEFAULT_PEER_MSS, none, false, false, false⟩
  match ts with
  | none => some base
  | some (_, tsecr) =>
    if tsecr = 0 then
      some base
    else
      let bits := tsecr &&& TS_OPT_MASK
      let ws := bits &&& TS_OPT_WS_MASK
      some { base with
        wscale := if ws = TS_OPT_WS_MASK then none else some (ws.setWidth 8)
        sack := bits &&& TS_OPT_SACK != 0
        ecn := bits &&& TS_OPT_ECN != 0 }

/-- Largest table entry not exceeding `peerMss`. -/
def cookieMssIndex (peerMss : U16) : U8 :=
  BitVec.ofNat 8 (COOKIE_MSS_TABLE.zipIdx.foldl
    (fun best m => if m.1.toNat ≤ peerMss.toNat then m.2 else best) 0)

/-- The MSS an index stands for. -/
def cookieMssFromIndex (idx : U8) : U16 :=
  (COOKIE_MSS_TABLE[(idx &&& 7).toNat]?).getD DEFAULT_PEER_MSS

namespace Tcb

/-- The record of a segment staged from `t` as `packet`. -/
def emission (t : Tcb P) (h : Header) (payload packet : List U8) : Emission P :=
  { t with header := h, payload := payload, packet := packet }

/-- Stage the datagram with header `h` and the payload of `len` bytes that `fill` writes; it is
counted if it was queued. -/
def stage (h : Header) (len : ℕ) (fill : ℕ → Option (List U8)) : TcbM P Bool := fun t =>
  match t.txRing.pushWith fun cap =>
      emitWith P.littleEndian cap h len fill (!t.txCsumOffload) with
  | .error e => .error (.tcp e) t
  | .ok (queued, ring) =>
    if queued then
      .ok true { t with
        txRing := ring
        ipId := t.ipId + 1
        sent := t.sent ++ [t.emission h ((fill len).getD []) (ring.toList.getLast?.getD [])]
        stats.segsOut := satAdd t.stats.segsOut 1 }
    else
      .ok false t

/-! ## Keyed derivations -/

/-- The keyed secret for per-connection derivations, if any. -/
def hostKey (t : Tcb P) : Option Key :=
  if t.secretSet then some t.secret else if t.cookieSecretSet then some t.cookieSecret else none

/-- Keyed hash of the 4-tuple, separated by `domain`. -/
def tupleHash (P : Params) (key : Key) (localEp remoteEp : Endpoint) (domain : U8) (extra : U32) :
    U64 :=
  P.hash key (localEp.ip.bytes ++ bytes2 localEp.port ++ remoteEp.ip.bytes ++ bytes2 remoteEp.port ++
    [domain] ++ bytes4 extra)

/-- The timestamp offset under `key`. -/
def tsOffsetWith (t : Tcb P) (key : Key) (remote : Endpoint) : U32 :=
  (tupleHash P key t.localEp remote 0x54 0).setWidth 32

/-- Per-connection timestamp offset; 0 without a secret. -/
def tsOffsetFor (t : Tcb P) (remote : Endpoint) : U32 :=
  match t.hostKey with
  | some k => t.tsOffsetWith k remote
  | none => 0

/-- RFC 6528 ISN for a passive open; the host-supplied ISS without a secret. -/
def passiveIss (t : Tcb P) (remote : Endpoint) (peerIsn : U32) : U32 :=
  match t.hostKey with
  | some k => (tupleHash P k t.localEp remote 0x49 peerIsn).setWidth 32 + t.nowMs.setWidth 32 * 250
  | none => t.cfgIss

/-- 32-bit cookie: top 3 bits = MSS index, low 29 bits = MAC. -/
def computeCookie (t : Tcb P) (key : Key) (bucket : U64) (remote : Endpoint) (mssIdx : U8)
    (peerSeq : U32) : U32 :=
  let mac := P.hash key (bytes8 bucket ++ remote.ip.bytes ++ bytes2 remote.port ++
    t.localEp.ip.bytes ++ bytes2 t.localEp.port ++ bytes4 peerSeq ++ [mssIdx])
  ((mssIdx.setWidth 32 &&& 7) <<< 29) ||| (mac.setWidth 32 &&& 0x1FFFFFFF)

/-! ## Cookies -/

/-- The timestamp option of a cookie SYN-ACK: the clock with its low bits carrying the SYN's
options, never ahead of the clock. -/
def cookieTsval (seg : Segment) (nowTs : U32) : U32 :=
  let ws : U32 :=
    match seg.options.wscale with
    | some ws => (minB ws 14).setWidth 32
    | none => TS_OPT_WS_MASK
  let bits := ws ||| (if seg.options.sackPermitted then TS_OPT_SACK else 0) |||
    (if seg.flags.ece && seg.flags.cwr then TS_OPT_ECN else 0)
  let tsval := (nowTs &&& ~~~TS_OPT_MASK) ||| bits
  if seqGt tsval nowTs then tsval - 64 else tsval

/-- Answer a SYN statelessly with a cookie SYN-ACK (the listener's half-open slot is busy). -/
def emitCookieSynack (seg : Segment) : TcbM P Unit := fun t =>
  if t.txRing.isFull then
    .ok () t
  else
    let remote : Endpoint := ⟨seg.srcIp, seg.srcPort⟩
    let peerMss := maxB (seg.options.mss.getD DEFAULT_PEER_MSS) MIN_PEER_MSS
    let mssIdx := cookieMssIndex peerMss
    let bucket := t.nowMs / COOKIE_TIME_BUCKET_MS
    let cookie := t.computeCookie t.cookieSecret bucket remote mssIdx seg.seq
    let nowTs := t.nowMs.setWidth 32 + t.tsOffsetFor remote
    let peerEcn := seg.flags.ece && seg.flags.cwr
    let opts : TcpOptions :=
      match seg.options.ts with
      | some (peerTsval, _) =>
        { mss := some t.localMss
          wscale := seg.options.wscale.map fun _ => P.WS
          ts := some (cookieTsval seg nowTs, peerTsval)
          sackPermitted := seg.options.sackPermitted
          sack := SackBlocks.EMPTY }
      | none => { TcpOptions.NONE with mss := some t.localMss }
    let ecn := seg.options.ts.isSome && peerEcn
    let win : U16 := BitVec.ofNat 16 (min t.recvRing.free 65535)
    (do
      let queued ← stage
        { srcIp := t.localEp.ip, dstIp := remote.ip, srcPort := t.localEp.port
          dstPort := remote.port, seq := cookie, ack := seg.seq + 1
          flags := { syn := true, ack := true, ece := ecn }, window := win, options := opts
          ipId := t.ipId, ecn := Ecn.NOT_ECT } 0 fun _ => some []
      modify fun t : Tcb P => if queued then { t with cookieSecretUsed := true } else t) t

/-- Validate a bare ACK as the third leg of a cookie handshake. -/
def validateCookie (t : Tcb P) (seg : Segment) : Option CookieOpts :=
  if ¬ t.cookieSecretSet then
    none
  else
    let remote : Endpoint := ⟨seg.srcIp, seg.srcPort⟩
    let cookie := seg.ack - 1
    let mssIdx : U8 := ((cookie >>> 29) &&& 7).setWidth 8
    let peerSeq := seg.seq - 1
    let nowBucket := t.nowMs / COOKIE_TIME_BUCKET_MS
    let issuedWith : Key → Bool := fun key =>
      [nowBucket, nowBucket - 1].any fun b =>
        t.computeCookie key b remote mssIdx peerSeq == cookie
    let prevValid := t.prevCookieSecretSet && decide (t.nowMs.toNat < t.prevCookieUntilMs.toNat)
    let prevKey : Option Bool :=
      if issuedWith t.cookieSecret then some false
      else if prevValid && issuedWith t.prevCookieSecret then some true
      else none
    match prevKey, decodeTsOpts seg.options.ts with
    | some prevKey, some opts =>
      some { opts with mss := cookieMssFromIndex mssIdx, prevKey := prevKey }
    | _, _ => none

/-- Make `key` the current cookie key; the old one keeps validating while cookies issued under it
can still be valid. -/
def installCookieKey (t : Tcb P) (key : Key) : Tcb P :=
  let rotated := t.cookieSecret != key
  let t : Tcb P :=
    if t.cookieSecretSet && rotated && t.cookieSecretUsed then
      { t with
        prevCookieSecret := t.cookieSecret
        prevCookieSecretSet := true
        prevCookieUntilMs := satAdd t.nowMs (2 * COOKIE_TIME_BUCKET_MS) }
    else t
  { t with
    cookieSecretUsed := if rotated then false else t.cookieSecretUsed
    cookieSecret := key
    cookieSecretSet := true }

end Tcb

end TcpSansIo
