import TcpSansIo.Wire.Codec

/-!
# When an emission succeeds

`emit_with` fails only if the options take more than 40 bytes, the datagram does not fit the buffer,
or the payload cannot be filled in.  Everything else it checks holds of every option block.
-/

namespace TcpSansIo

open BigEndian

namespace TcpOptions

/-- SACK blocks on the wire. -/
def blockBytes (l : List (U32 × U32)) : List U8 := l.flatMap fun b => bytes4 b.1 ++ bytes4 b.2

lemma length_blockBytes (l : List (U32 × U32)) : (blockBytes l).length = 8 * l.length := by
  induction l with
  | nil => rfl
  | cons b l ih =>
    rw [blockBytes] at ih ⊢
    rw [List.flatMap_cons, List.length_append, ih, List.length_append, List.length_cons]
    simp only [length_bytes4]
    omega

lemma length_rawBytes (o : TcpOptions) : o.rawBytes.length = o.rawLen := by
  obtain ⟨mss, wscale, ts, perm, sack⟩ := o
  simp only [rawBytes, rawLen, List.length_append]
  congr 1
  · cases mss <;> cases wscale <;> cases ts <;> cases perm <;> rfl
  · split
    · rfl
    · rw [List.length_append]
      exact congrArg _ (length_blockBytes sack.blocks)

lemma rawLen_le_encodedLen (o : TcpOptions) : o.rawLen ≤ o.encodedLen := by
  unfold encodedLen
  omega

/-- Without SACK blocks the options always fit. -/
lemma encodedLen_le_of_no_sack {o : TcpOptions} (h : o.sack = SackBlocks.EMPTY) :
    o.encodedLen ≤ 20 := by
  have hraw : o.rawLen ≤ 19 := by
    unfold rawLen
    rw [h, if_pos (by rfl : SackBlocks.EMPTY.isEmpty = true)]
    repeat' split
    all_goals omega
  unfold encodedLen
  omega

/-- Any option block can be written to a slice that is long enough. -/
lemma write_ok (o : TcpOptions) :
    ∃ out, o.write o.encodedLen = .ok out ∧ out.length = o.encodedLen := by
  have hlen := o.sack.len_le
  have hraw := o.length_rawBytes
  have hle := o.rawLen_le_encodedLen
  have hpad : (o.rawBytes ++ List.replicate ((o.rawBytes.length + 3) / 4 * 4 - o.rawBytes.length)
      (1 : U8)).length = o.encodedLen := by
    rw [List.length_append, List.length_replicate, hraw]
    unfold encodedLen at hle ⊢
    omega
  refine ⟨_, ?_, hpad⟩
  unfold write
  rw [if_neg]
  · dsimp only
    rw [hpad, if_neg (lt_irrefl _)]
  · simp only [SackBlocks.len, not_and, not_lt]
    omega

end TcpOptions

/-- What `emit_with` returns when the datagram fits. -/
lemma emitWith_ok {le : Bool} {cap : ℕ} {h : Header} {len : ℕ} {fill : ℕ → Option (List U8)}
    {full : Bool} {p : List U8} (hopt : h.options.encodedLen ≤ 40)
    (hfit : 40 + h.options.encodedLen + len ≤ cap) (hcap : cap < 2 ^ 16) (hfill : fill len = some p) :
    ∃ pkt, emitWith le cap h len fill full = .ok pkt := by
  obtain ⟨out, hout, hlen⟩ := h.options.write_ok
  have hmod : h.options.encodedLen % 4 = 0 := by
    unfold TcpOptions.encodedLen
    omega
  have htotal : IPV4_HDR_LEN + (TCP_HDR_LEN + h.options.encodedLen) + len =
      40 + h.options.encodedLen + len := by
    unfold IPV4_HDR_LEN TCP_HDR_LEN
    omega
  unfold emitWith
  simp only [htotal]
  rw [if_neg (by omega), if_neg (by omega), if_neg (by omega)]
  by_cases hpos : 0 < h.options.encodedLen
  · rw [if_pos hpos, hout]
    dsimp only
    rw [if_neg (by omega), hfill]
    exact ⟨_, rfl⟩
  · rw [if_neg hpos]
    dsimp only
    rw [if_neg (by simp; omega), hfill]
    exact ⟨_, rfl⟩

lemma length_ipHeader (total ipId csum : U16) (ecn : U8) (src dst : Ip) :
    (ipHeader total ipId csum ecn src dst).length = 20 := rfl

lemma length_tcpHeader (h : Header) (hdrLen : ℕ) (csum : U16) (opts : List U8) :
    (tcpHeader h hdrLen csum opts).length = 20 + opts.length := by
  simp only [tcpHeader, bytes2, bytes4, List.length_append, List.length_cons, List.length_nil]

/-- The TCP header up to its checksum field. -/
def tcpFront (h : Header) (hdrLen : ℕ) : List U8 :=
  bytes2 h.srcPort ++ bytes2 h.dstPort ++ bytes4 h.seq ++ bytes4 h.ack ++
    [BitVec.ofNat 8 (hdrLen / 4 * 16), h.flags.toByte] ++ bytes2 h.window

lemma length_tcpFront (h : Header) (hdrLen : ℕ) : (tcpFront h hdrLen).length = 16 := rfl

/-- The checksum field among the bytes of a TCP segment. -/
lemma tcpHeader_split (h : Header) (hdrLen : ℕ) (csum : U16) (opts p : List U8) :
    tcpHeader h hdrLen csum opts ++ p = tcpFront h hdrLen ++ bytes2 csum ++ ([0, 0] ++ opts ++ p) := by
  simp only [tcpHeader, tcpFront, List.append_assoc]

/-- What `emit_with` puts into the TCP checksum field. -/
def checksumField (le : Bool) (h : Header) (full : Bool) (tcp : List U8) : U16 :=
  if full then tcpChecksum le h.srcIp h.dstIp tcp
  else tcpPartialChecksum le h.srcIp h.dstIp (BitVec.ofNat 32 tcp.length)

/-- The datagram `emit_with` writes around encoded options `opts` and a payload `p`. -/
def emitted (le : Bool) (h : Header) (total : U16) (opts p : List U8) (full : Bool) : List U8 :=
  ipHeader total h.ipId (checksum le (ipHeader total h.ipId 0 h.ecn h.srcIp h.dstIp) 0) h.ecn h.srcIp
      h.dstIp ++
    (tcpHeader h (20 + opts.length)
      (checksumField le h full (tcpHeader h (20 + opts.length) 0 opts ++ p)) opts ++ p)

/-- What holds of an emission that succeeded.  Which checksum it was asked for matters to the
checksum field only. -/
lemma emitWith_shape {le : Bool} {cap : ℕ} {h : Header} {len : ℕ} {fill : ℕ → Option (List U8)}
    {full : Bool} {pkt : List U8} (hok : emitWith le cap h len fill full = .ok pkt) :
    ∃ total opts p, fill len = some p ∧ total.toNat = 40 + opts.length + len ∧
      opts.length = h.options.encodedLen ∧ opts.length ≤ 40 ∧
      ∀ full', emitWith le cap h len fill full' = .ok (emitted le h total opts p full') := by
  unfold emitWith at hok
  dsimp only at hok
  split at hok
  · cases hok
  case isFalse hopt =>
    split at hok
    · cases hok
    case isFalse hcap =>
    split at hok
    · cases hok
    case isFalse htotal =>
    split at hok
    · cases hok
    case h_2 opts hopts =>
      split at hok
      · cases hok
      case isFalse hlen =>
        split at hok
        · cases hok
        case h_2 p hp =>
          have hopts' : opts.length = h.options.encodedLen := not_not.mp hlen
          refine ⟨BitVec.ofNat 16 (IPV4_HDR_LEN + (TCP_HDR_LEN + h.options.encodedLen) + len), opts,
            p, hp, ?_, hopts', by omega, fun full' => ?_⟩
          · rw [BitVec.toNat_ofNat]
            unfold IPV4_HDR_LEN TCP_HDR_LEN at htotal ⊢
            omega
          · unfold emitWith
            simp only [if_neg hopt, if_neg hcap, if_neg htotal, hopts, if_neg hlen, hp]
            rw [emitted, hopts']
            rfl

lemma emitWith_inv {le : Bool} {cap : ℕ} {h : Header} {len : ℕ} {fill : ℕ → Option (List U8)}
    {full : Bool} {pkt : List U8} (hok : emitWith le cap h len fill full = .ok pkt) :
    h.options.encodedLen ≤ 40 ∧ ∃ p, fill len = some p ∧
      pkt.length = 40 + h.options.encodedLen + p.length := by
  obtain ⟨total, opts, p, hp, -, hopts, hforty, hpkt⟩ := emitWith_shape hok
  obtain rfl := Except.ok.inj (hok.symm.trans (hpkt full))
  refine ⟨by omega, p, hp, ?_⟩
  rw [emitted, List.length_append, List.length_append, length_ipHeader, length_tcpHeader]
  omega

end TcpSansIo
