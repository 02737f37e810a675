import TcpSansIo.Wire.Checksum
import TcpSansIo.Wire.OptionBlock
import TcpSansIo.Core.Computation

/-!
# Datagrams there and back

* `emit_parse_round_trip`: what `emit` writes, `parse` reads back field by field.
* `parse_emit_normalises`: what `parse` accepts can be emitted again, in no more bytes, and reads
  back the same.  The parser takes IP options, TCP options in any order, duplicates and unknown
  kinds, and bytes behind the datagram; the emitter writes none of that.

Both go through `parse_datagram`, which runs the parser over two headers whose checksums verify.
-/

namespace TcpSansIo

open BigEndian Proc

/-- A codepoint is two bits. -/
lemma Ecn.and_mask {e : U8} (h : e.toNat < 4) : e &&& Ecn.MASK = e := by
  apply BitVec.eq_of_toNat_eq
  rw [BitVec.toNat_and]
  exact (Nat.and_two_pow_sub_one_eq_mod e.toNat 2).trans (Nat.mod_eq_of_lt h)

/-- The segment with the fields of `h` and the payload `p`. -/
def Header.segment (h : Header) (p : List U8) (hp : p.length ≤ MAX_PAYLOAD) : Segment where
  srcIp := h.srcIp
  dstIp := h.dstIp
  srcPort := h.srcPort
  dstPort := h.dstPort
  seq := h.seq
  ack := h.ack
  flags := h.flags
  window := h.window
  options := h.options
  payload := p
  ecn := h.ecn
  payload_le := hp

lemma length_datagram (h : Header) (total ipCsum csum : U16) (opts p : List U8) :
    (ipHeader total h.ipId ipCsum h.ecn h.srcIp h.dstIp ++
      (tcpHeader h (20 + opts.length) csum opts ++ p)).length = 40 + opts.length + p.length := by
  rw [List.length_append, List.length_append, length_ipHeader, length_tcpHeader]
  omega

/-- The parser over a datagram of an IP header without options, a TCP header and a payload, whose
lengths are right and whose checksums verify. -/
lemma parse_datagram {le : Bool} {h : Header} {total ipCsum csum : U16} {opts p : List U8}
    (hp : p.length ≤ MAX_PAYLOAD) (htotal : total.toNat = 40 + opts.length + p.length)
    (hfour : opts.length % 4 = 0) (hforty : opts.length ≤ 40)
    (hopts : TcpOptions.parse opts = .ok h.options) (hecn : h.ecn.toNat < 4)
    (hip : checksum le (ipHeader total h.ipId ipCsum h.ecn h.srcIp h.dstIp) 0 = 0)
    (htcp : tcpChecksum le h.srcIp h.dstIp (tcpHeader h (20 + opts.length) csum opts ++ p) = 0) :
    parse le (ipHeader total h.ipId ipCsum h.ecn h.srcIp h.dstIp ++
      (tcpHeader h (20 + opts.length) csum opts ++ p)) = .ok (h.segment p hp) := by
  have hlen := (length_datagram h total ipCsum csum opts p).trans htotal.symm
  have htake : ((ipHeader total h.ipId ipCsum h.ecn h.srcIp h.dstIp ++
      (tcpHeader h (20 + opts.length) csum opts ++ p)).take total.toNat).drop
        ((0x45 : U8).toNat % 16 * 4) =
      tcpHeader h (20 + opts.length) csum opts ++ p := by
    rw [← hlen, List.take_length]
    exact List.drop_left' (length_ipHeader ..)
  have hbyte : (BitVec.ofNat 8 ((20 + opts.length) / 4 * 16)).toNat / 16 * 4 = 20 + opts.length := by
    rw [BitVec.toNat_ofNat]
    omega
  unfold parse parseOpts
  generalize hpkt : ipHeader total h.ipId ipCsum h.ecn h.srcIp h.dstIp ++
    (tcpHeader h (20 + opts.length) csum opts ++ p) = pkt at *
  refine guard_eq_ok.2 ⟨by unfold IPV4_HDR_LEN; omega, ?_⟩
  refine bind_eq_ok.2 ⟨0x45, by rw [← hpkt]; rfl, ?_⟩
  refine guard_eq_ok.2 ⟨by decide, dite_eq_ok.2 ⟨by decide, ?_⟩⟩
  refine bind_eq_ok.2 ⟨total, ?_, guard_eq_ok.2 ⟨?_, ?_⟩⟩
  · rw [← hpkt]
    exact congrArg _ (word2_bytes2 total)
  · show ¬ (pkt.length < total.toNat ∨ total.toNat < 20 + 20)
    omega
  refine bind_eq_ok.2 ⟨0x4000, by rw [← hpkt]; rfl, guard_eq_ok.2 ⟨by decide, ?_⟩⟩
  refine bind_eq_ok.2 ⟨IPPROTO_TCP, by rw [← hpkt]; rfl, guard_eq_ok.2 ⟨by decide, ?_⟩⟩
  refine bind_eq_ok.2 ⟨h.ecn &&& Ecn.MASK, by rw [← hpkt]; rfl, ?_⟩
  refine bind_eq_ok.2 ⟨h.srcIp, by rw [← hpkt]; rfl, ?_⟩
  refine bind_eq_ok.2 ⟨h.dstIp, by rw [← hpkt]; rfl, ?_⟩
  refine guard_eq_ok.2 ⟨?_, ?_⟩
  · rw [not_not, ← hpkt]
    exact hip
  generalize hseg : tcpHeader h (20 + opts.length) csum opts ++ p = seg at *
  have hhdr := length_tcpHeader h (20 + opts.length) csum opts
  have hseglen : seg.length = 20 + opts.length + p.length := by
    rw [← hseg, List.length_append, length_tcpHeader]
  refine bind_eq_ok.2 ⟨h.srcPort, ?_, ?_⟩
  · rw [htake, ← hseg]
    exact congrArg _ (word2_bytes2 _)
  refine bind_eq_ok.2 ⟨h.dstPort, ?_, ?_⟩
  · rw [htake, ← hseg]
    exact congrArg _ (word2_bytes2 _)
  refine bind_eq_ok.2 ⟨h.seq, ?_, ?_⟩
  · rw [htake, ← hseg]
    exact congrArg _ (word4_bytes4 _)
  refine bind_eq_ok.2 ⟨h.ack, ?_, ?_⟩
  · rw [htake, ← hseg]
    exact congrArg _ (word4_bytes4 _)
  refine bind_eq_ok.2 ⟨BitVec.ofNat 8 ((20 + opts.length) / 4 * 16), ?_, ?_⟩
  · rw [htake, ← hseg]
    rfl
  refine dite_eq_ok.2 ⟨?_, ?_⟩
  · rw [htake, hbyte, hseglen]
    unfold TCP_HDR_LEN
    omega
  refine bind_eq_ok.2 ⟨h.flags.toByte, ?_, ?_⟩
  · rw [htake, ← hseg]
    rfl
  refine bind_eq_ok.2 ⟨h.window, ?_, ?_⟩
  · rw [htake, ← hseg]
    exact congrArg _ (word2_bytes2 _)
  refine guard_eq_ok.2 ⟨?_, ?_⟩
  · rintro ⟨-, hne⟩
    apply hne
    rw [htake]
    exact htcp
  refine bind_eq_ok.2 ⟨h.options, ?_, ?_⟩
  · rw [htake, hbyte, ← hseg, List.take_left' hhdr]
    exact hopts
  have hpayload : ((pkt.take total.toNat).drop ((0x45 : U8).toNat % 16 * 4)).drop
      ((BitVec.ofNat 8 ((20 + opts.length) / 4 * 16)).toNat / 16 * 4) = p := by
    rw [htake, hbyte, ← hseg, List.drop_left' hhdr]
  refine congrArg Except.ok ?_
  simp only [hpayload, Ecn.and_mask hecn, Flags.ofByte_toByte]
  rfl

/-- Whatever its checksums are, a datagram of an IP header without options, a TCP header and a payload is
read, if it is accepted, with the fields it was written with. -/
lemma parseOpts_fields {le verify : Bool} {h : Header} {total ipCsum csum : U16} {opts p : List U8}
    {s : Segment} (htotal : total.toNat = 40 + opts.length + p.length) (hfour : opts.length % 4 = 0)
    (hforty : opts.length ≤ 40)
    (hok : parseOpts le (ipHeader total h.ipId ipCsum h.ecn h.srcIp h.dstIp ++
      (tcpHeader h (20 + opts.length) csum opts ++ p)) verify = .ok s) :
    s.seq = h.seq ∧ s.ack = h.ack ∧ s.flags = h.flags ∧ s.window = h.window ∧ s.payload = p := by
  have hlen := (length_datagram h total ipCsum csum opts p).trans htotal.symm
  have htake : ((ipHeader total h.ipId ipCsum h.ecn h.srcIp h.dstIp ++
      (tcpHeader h (20 + opts.length) csum opts ++ p)).take total.toNat).drop
        ((0x45 : U8).toNat % 16 * 4) =
      tcpHeader h (20 + opts.length) csum opts ++ p := by
    rw [← hlen, List.take_length]
    exact List.drop_left' (length_ipHeader ..)
  have hbyte : (BitVec.ofNat 8 ((20 + opts.length) / 4 * 16)).toNat / 16 * 4 = 20 + opts.length := by
    rw [BitVec.toNat_ofNat]
    omega
  unfold parseOpts at hok
  obtain ⟨-, hok⟩ := guard_eq_ok.1 hok
  obtain ⟨versionIhl, hversion, hok⟩ := bind_eq_ok.1 hok
  obtain rfl : (0x45 : U8) = versionIhl := Except.ok.inj hversion
  obtain ⟨-, hok⟩ := guard_eq_ok.1 hok
  obtain ⟨hihl, hok⟩ := dite_eq_ok.1 hok
  obtain ⟨total', hread, hok⟩ := bind_eq_ok.1 hok
  obtain rfl : total = total' := Except.ok.inj ((congrArg _ (word2_bytes2 total).symm).trans hread)
  obtain ⟨-, hok⟩ := guard_eq_ok.1 hok
  obtain ⟨flagsFrag, -, hok⟩ := bind_eq_ok.1 hok
  obtain ⟨-, hok⟩ := guard_eq_ok.1 hok
  obtain ⟨proto, -, hok⟩ := bind_eq_ok.1 hok
  obtain ⟨-, hok⟩ := guard_eq_ok.1 hok
  obtain ⟨tos, -, hok⟩ := bind_eq_ok.1 hok
  obtain ⟨srcIp, -, hok⟩ := bind_eq_ok.1 hok
  obtain ⟨dstIp, -, hok⟩ := bind_eq_ok.1 hok
  obtain ⟨-, hok⟩ := guard_eq_ok.1 hok
  generalize hseg : tcpHeader h (20 + opts.length) csum opts ++ p = seg at *
  obtain ⟨srcPort, -, hok⟩ := bind_eq_ok.1 hok
  obtain ⟨dstPort, -, hok⟩ := bind_eq_ok.1 hok
  obtain ⟨seq, hseq, hok⟩ := bind_eq_ok.1 hok
  obtain ⟨ack, hack, hok⟩ := bind_eq_ok.1 hok
  obtain ⟨dataOffByte, hdata, hok⟩ := bind_eq_ok.1 hok
  obtain ⟨hoff, hok⟩ := dite_eq_ok.1 hok
  obtain ⟨flags, hflags, hok⟩ := bind_eq_ok.1 hok
  obtain ⟨window, hwindow, hok⟩ := bind_eq_ok.1 hok
  obtain ⟨-, hok⟩ := guard_eq_ok.1 hok
  obtain ⟨options, -, hok⟩ := bind_eq_ok.1 hok
  obtain rfl := Except.ok.inj hok
  rw [htake, ← hseg] at hseq hack hdata hflags hwindow
  refine ⟨?_, ?_, ?_, ?_, ?_⟩
  · exact (Except.ok.inj ((congrArg _ (word4_bytes4 h.seq).symm).trans hseq)).symm
  · exact (Except.ok.inj ((congrArg _ (word4_bytes4 h.ack).symm).trans hack)).symm
  · have hflags' : h.flags.toByte = flags := Except.ok.inj hflags
    change Flags.ofByte flags = h.flags
    rw [← hflags', Flags.ofByte_toByte]
  · exact (Except.ok.inj ((congrArg _ (word2_bytes2 h.window).symm).trans hwindow)).symm
  · have hdata' : BitVec.ofNat 8 ((20 + opts.length) / 4 * 16) = dataOffByte := Except.ok.inj hdata
    change (List.drop _ _).drop (dataOffByte.toNat / 16 * 4) = p
    rw [htake, ← hdata', hbyte, ← hseg]
    exact List.drop_left' (length_tcpHeader ..)

/-- What was emitted is read, if it is accepted, with the fields it was emitted with: also without a
checksum of the segment, or by a host of the other byte order. -/
lemma parseOpts_emitted {le le' verify full : Bool} {cap : ℕ} {h : Header} {p pkt : List U8} {s : Segment}
    {fill : ℕ → Option (List U8)} (hfill : fill p.length = some p)
    (hemit : emitWith le cap h p.length fill full = .ok pkt) (hok : parseOpts le' pkt verify = .ok s) :
    s.seq = h.seq ∧ s.ack = h.ack ∧ s.flags = h.flags ∧ s.window = h.window ∧ s.payload = p := by
  obtain ⟨total, opts, q, hq, htotal, hopts, hforty, hpkt⟩ := emitWith_shape hemit
  obtain rfl := Option.some.inj (hfill.symm.trans hq)
  obtain rfl := Except.ok.inj (hemit.symm.trans (hpkt full))
  refine parseOpts_fields htotal ?_ hforty hok
  rw [hopts, TcpOptions.encodedLen]
  omega

/-- What a parse that succeeds has read: the IP total length, and the area of the TCP options. -/
lemma parseOpts_inv {le : Bool} {packet : List U8} {v : Bool} {s : Segment}
    (h : parseOpts le packet v = .ok s) :
    ∃ total area, read2 packet 2 = .ok total ∧ total.toNat ≤ packet.length ∧
      TcpOptions.parse area = .ok s.options ∧ area.length % 4 = 0 ∧ area.length ≤ 40 ∧
      40 + area.length + s.payload.length ≤ total.toNat ∧ s.ecn.toNat < 4 := by
  unfold parseOpts at h
  obtain ⟨-, h⟩ := guard_eq_ok.1 h
  obtain ⟨versionIhl, -, h⟩ := bind_eq_ok.1 h
  obtain ⟨-, h⟩ := guard_eq_ok.1 h
  obtain ⟨hihl, h⟩ := dite_eq_ok.1 h
  obtain ⟨total, htotal, h⟩ := bind_eq_ok.1 h
  obtain ⟨hfits, h⟩ := guard_eq_ok.1 h
  obtain ⟨flagsFrag, -, h⟩ := bind_eq_ok.1 h
  obtain ⟨-, h⟩ := guard_eq_ok.1 h
  obtain ⟨proto, -, h⟩ := bind_eq_ok.1 h
  obtain ⟨-, h⟩ := guard_eq_ok.1 h
  obtain ⟨tos, -, h⟩ := bind_eq_ok.1 h
  obtain ⟨srcIp, -, h⟩ := bind_eq_ok.1 h
  obtain ⟨dstIp, -, h⟩ := bind_eq_ok.1 h
  obtain ⟨-, h⟩ := guard_eq_ok.1 h
  obtain ⟨srcPort, -, h⟩ := bind_eq_ok.1 h
  obtain ⟨dstPort, -, h⟩ := bind_eq_ok.1 h
  obtain ⟨seq, -, h⟩ := bind_eq_ok.1 h
  obtain ⟨ack, -, h⟩ := bind_eq_ok.1 h
  obtain ⟨dataOffByte, -, h⟩ := bind_eq_ok.1 h
  obtain ⟨hoff, h⟩ := dite_eq_ok.1 h
  obtain ⟨flags, -, h⟩ := bind_eq_ok.1 h
  obtain ⟨window, -, h⟩ := bind_eq_ok.1 h
  obtain ⟨-, h⟩ := guard_eq_ok.1 h
  obtain ⟨options, hoptions, h⟩ := bind_eq_ok.1 h
  obtain rfl := Except.ok.inj h
  unfold IPV4_HDR_LEN at hihl
  unfold TCP_HDR_LEN at hfits hoff
  have hbyte := dataOffByte.isLt
  have hlen : ((packet.take total.toNat).drop (versionIhl.toNat % 16 * 4)).length =
      total.toNat - versionIhl.toNat % 16 * 4 := by
    rw [List.length_drop, List.length_take]
    omega
  rw [hlen] at hoff
  have harea : (((((packet.take total.toNat).drop (versionIhl.toNat % 16 * 4)).take
      (dataOffByte.toNat / 16 * 4)).drop TCP_HDR_LEN)).length = dataOffByte.toNat / 16 * 4 - 20 := by
    rw [List.length_drop, List.length_take, hlen, TCP_HDR_LEN]
    omega
  refine ⟨total, _, htotal, by omega, hoptions, ?_, ?_, ?_, ?_⟩
  · rw [harea]
    omega
  · rw [harea]
    omega
  · rw [harea, List.length_drop, hlen]
    omega
  · rw [Ecn.MASK, BitVec.toNat_and]
    exact Nat.lt_of_le_of_lt Nat.and_le_right (by decide)

/-! ## Emission -/

/-- With its own checksum filled in, the TCP segment verifies. -/
lemma tcpChecksum_filled {le : Bool} {h : Header} {hdrLen : ℕ} {opts p : List U8}
    (hlen : (tcpHeader h hdrLen 0 opts ++ p).length < 2 ^ 33) :
    tcpChecksum le h.srcIp h.dstIp
      (tcpHeader h hdrLen (tcpChecksum le h.srcIp h.dstIp (tcpHeader h hdrLen 0 opts ++ p)) opts ++
        p) = 0 := by
  have hlen' : ∀ c, (tcpHeader h hdrLen c opts ++ p).length =
      (tcpHeader h hdrLen 0 opts ++ p).length := by
    intro c
    rw [List.length_append, List.length_append, length_tcpHeader, length_tcpHeader]
  generalize hc : tcpChecksum le h.srcIp h.dstIp (tcpHeader h hdrLen 0 opts ++ p) = c
  unfold tcpChecksum at hc ⊢
  rw [hlen' c]
  refine checksum_verifies le hc.symm ?_ hlen (by rw [hlen' c]; exact hlen)
  rw [tcpHeader_split, tcpHeader_split]
  exact OnesComplement.sum_insert c _ (by rw [length_tcpFront])

/-- With its own checksum filled in, the IP header verifies. -/
lemma ipChecksum_filled (le : Bool) (total ipId : U16) (ecn : U8) (src dst : Ip) :
    checksum le (ipHeader total ipId (checksum le (ipHeader total ipId 0 ecn src dst) 0) ecn src dst)
      0 = 0 := by
  have hsplit : ∀ c, ipHeader total ipId c ecn src dst =
      ([0x45, ecn &&& Ecn.MASK] ++ bytes2 total ++ bytes2 ipId ++ bytes2 0x4000 ++
        [64, IPPROTO_TCP]) ++ bytes2 c ++ (src.bytes ++ dst.bytes) := by
    intro c
    simp only [ipHeader, List.append_assoc]
  generalize hc : checksum le (ipHeader total ipId 0 ecn src dst) 0 = c
  refine checksum_verifies le hc.symm ?_ (by rw [length_ipHeader]; decide)
    (by rw [length_ipHeader]; decide)
  rw [hsplit c, hsplit 0]
  exact OnesComplement.sum_insert c _ (by simp)

/-- What `emit` writes when the datagram fits: the two headers with their checksums filled in,
around options that read back. -/
lemma emit_eq (le : Bool) {cap : ℕ} {h : Header} {p : List U8} (hw : h.options.ScaleOk)
    (hopt : h.options.encodedLen ≤ 40) (htotal : 40 + h.options.encodedLen + p.length ≤ 65535)
    (hcap : 40 + h.options.encodedLen + p.length ≤ cap) :
    ∃ total ipCsum csum opts, total.toNat = 40 + opts.length + p.length ∧
      opts.length = h.options.encodedLen ∧ opts.length % 4 = 0 ∧
      TcpOptions.parse opts = .ok h.options ∧
      checksum le (ipHeader total h.ipId ipCsum h.ecn h.srcIp h.dstIp) 0 = 0 ∧
      tcpChecksum le h.srcIp h.dstIp (tcpHeader h (20 + opts.length) csum opts ++ p) = 0 ∧
      emit le cap h p = .ok (ipHeader total h.ipId ipCsum h.ecn h.srcIp h.dstIp ++
        (tcpHeader h (20 + opts.length) csum opts ++ p)) := by
  obtain ⟨opts, hout, hlen⟩ := h.options.write_ok
  have hmod : h.options.encodedLen % 4 = 0 := by
    unfold TcpOptions.encodedLen
    omega
  have hsum : IPV4_HDR_LEN + (TCP_HDR_LEN + h.options.encodedLen) + p.length =
      40 + h.options.encodedLen + p.length := by
    unfold IPV4_HDR_LEN TCP_HDR_LEN
    omega
  -- the source skips the writer for an empty block, and the writer writes nothing then
  have hwrite : (if 0 < h.options.encodedLen then h.options.write h.options.encodedLen
      else .ok []) = .ok opts := by
    split
    · exact hout
    · rw [List.eq_nil_of_length_eq_zero (by omega : opts.length = 0)]
  have htcp0 : (tcpHeader h (20 + opts.length) 0 opts ++ p).length < 2 ^ 33 := by
    rw [List.length_append, length_tcpHeader]
    omega
  refine ⟨BitVec.ofNat 16 (40 + opts.length + p.length), _, _, opts, ?_, hlen, hlen ▸ hmod,
    TcpOptions.parse_write hw hout, ipChecksum_filled .., tcpChecksum_filled htcp0, ?_⟩
  · rw [BitVec.toNat_ofNat]
    omega
  · unfold emit emitWith
    simp only [hsum]
    rw [if_neg (by omega), if_neg (by omega), if_neg (by omega), hwrite]
    dsimp only
    rw [if_neg (by omega), hlen]
    rfl

/-! ## Round trips -/

/-- Everything `emit` takes comes back from `parse`. -/
theorem emit_parse_round_trip (le : Bool) (h : Header) (payload : List U8) (cap : ℕ)
    (hw : ∀ w ∈ h.options.wscale, w.toNat ≤ 14) (hopt : h.options.encodedLen ≤ 40)
    (hecn : h.ecn.toNat < 4) (htotal : 40 + h.options.encodedLen + payload.length ≤ 65535)
    (hcap : 40 + h.options.encodedLen + payload.length ≤ cap) :
    ∃ pkt, emit le cap h payload = .ok pkt ∧
      pkt.length = 40 + h.options.encodedLen + payload.length ∧
      ∃ hp : payload.length ≤ MAX_PAYLOAD, parse le pkt = .ok (h.segment payload hp) := by
  obtain ⟨total, ipCsum, csum, opts, hval, hlen, hfour, hparse, hip, htcp, hemit⟩ :=
    emit_eq le hw hopt htotal hcap
  have hp : payload.length ≤ MAX_PAYLOAD := by
    unfold MAX_PAYLOAD
    omega
  refine ⟨_, hemit, ?_, hp, parse_datagram hp hval hfour (by omega) hparse hecn hip htcp⟩
  rw [length_datagram, hlen]

/-- A header that carries every option, in all forty bytes. -/
def crowdedHeader : Header where
  srcIp := (10, 0, 0, 1)
  dstIp := (10, 0, 0, 2)
  srcPort := 80
  dstPort := 8080
  seq := 0xFFFFFFFF
  ack := 2
  flags := Flags.ofByte 0xDB
  window := 65535
  options := {
    mss := some 1460
    wscale := some 14
    ts := some (7, 9)
    sackPermitted := true
    sack := ⟨[(1, 2), (0xFFFFFFF0, 5)], by decide⟩ }
  ipId := 3
  ecn := Ecn.CE

theorem crowdedHeader_round_trip :
    ∃ pkt, emit true 1500 crowdedHeader [1, 2, 3] = .ok pkt ∧ pkt.length = 40 + 40 + 3 ∧
      ∃ hp, parse true pkt = .ok (crowdedHeader.segment [1, 2, 3] hp) :=
  emit_parse_round_trip true crowdedHeader [1, 2, 3] 1500 (fun w hw => by cases hw; decide)
    (by decide) (by decide) (by decide) (by decide)

/-- The fields of a segment, with the identification `ipId` the parser does not keep. -/
def Segment.header (s : Segment) (ipId : U16) : Header where
  srcIp := s.srcIp
  dstIp := s.dstIp
  srcPort := s.srcPort
  dstPort := s.dstPort
  seq := s.seq
  ack := s.ack
  flags := s.flags
  window := s.window
  options := s.options
  ipId := ipId
  ecn := s.ecn

/-- What `parse` accepts can be emitted again in no more bytes, and then parses to the same
segment. -/
theorem parse_emit_normalises (le : Bool) {packet : List U8} {s : Segment}
    (hs : parse le packet = .ok s) (ipId : U16) {cap : ℕ} (hcap : packet.length ≤ cap) :
    ∃ total pkt, read2 packet 2 = .ok total ∧ emit le cap (s.header ipId) s.payload = .ok pkt ∧
      pkt.length ≤ total.toNat ∧ parse le pkt = .ok s := by
  obtain ⟨total, area, htotal, hfits, hparse, hfour, hforty, hlen, hecn⟩ := parseOpts_inv hs
  have hraw := TcpOptions.parse_rawLen hparse
  have henc : s.options.encodedLen ≤ area.length := by
    unfold TcpOptions.encodedLen
    omega
  have hlt := total.isLt
  obtain ⟨total', ipCsum, csum, opts, hval, hopts, hfour', hparse', hip, htcp, hemit⟩ :=
    emit_eq le (h := s.header ipId) (p := s.payload) (TcpOptions.parse_scaleOk hparse)
      (henc.trans hforty) (show 40 + s.options.encodedLen + s.payload.length ≤ 65535 by omega)
      (show 40 + s.options.encodedLen + s.payload.length ≤ cap by omega)
  have hopts' : opts.length = s.options.encodedLen := hopts
  refine ⟨total, _, htotal, hemit, ?_,
    parse_datagram s.payload_le hval hfour' (by omega) hparse' hecn hip htcp⟩
  rw [length_datagram]
  omega

/-- A datagram with IP options, an unknown TCP option, two MSS options, and bytes behind its end. -/
def oddDatagram : List U8 :=
  [70, 2, 0, 59, 0, 7, 0, 0, 9, 6, 154, 177, 10, 0, 0, 1, 10, 0, 0, 2, 1, 1, 1, 0,
    0, 80, 31, 144, 0, 0, 0, 1, 0, 0, 0, 2, 128, 24, 1, 0, 181, 195, 0, 0,
    1, 254, 3, 0, 2, 4, 2, 24, 2, 4, 5, 180, 65, 66, 67, 9, 9]

theorem oddDatagram_normalised :
    ∃ s, parse true oddDatagram = .ok s ∧ ∃ total pkt, read2 oddDatagram 2 = .ok total ∧
      emit true 61 (s.header 0) s.payload = .ok pkt ∧ pkt.length ≤ total.toNat ∧
      parse true pkt = .ok s := by
  cases hs : parse true oddDatagram with
  | ok s => exact ⟨s, rfl, parse_emit_normalises true hs 0 (by decide)⟩
  | error e =>
    have hok : (parse true oddDatagram).isOk = true := by decide +kernel
    rw [hs] at hok
    cases hok

end TcpSansIo
