import TcpSansIo.Wire.RoundTrip

/-!
# What the checksums are good for

* `offload_completes`: a datagram emitted for checksum offload, completed the way a network card
  does it, is the datagram emitted with its checksum.
* `emit_flip_rejected`: a datagram with one bit turned over on its way is not parsed.  The four bits
  of the IP header length are the exception: they decide which bytes the header checksum covers.
-/

namespace TcpSansIo

open BigEndian OnesComplement Proc

/-! ## Checksum offload -/

/-- Sum the TCP segment behind an IP header without options, its checksum field included, and store
the complement in the field. -/
def completeChecksum (pkt : List U8) : List U8 :=
  pkt.take 36 ++ bytes2 (~~~ BitVec.ofNat 16 (carried (OnesComplement.sum (pkt.drop 20)))) ++
    pkt.drop 38

/-- What completion does to a datagram with `c` in its TCP checksum field. -/
lemma completeChecksum_datagram {ip : List U8} (hip : ip.length = 20) (h : Header) (hdrLen : ℕ)
    (c : U16) (opts p : List U8) :
    completeChecksum (ip ++ (tcpHeader h hdrLen c opts ++ p)) =
      ip ++ (tcpHeader h hdrLen (~~~ BitVec.ofNat 16 (carried
        (OnesComplement.sum (tcpHeader h hdrLen 0 opts ++ p) + c.toNat))) opts ++ p) := by
  simp only [tcpHeader_split]
  have hfront := length_tcpFront h hdrLen
  generalize tcpFront h hdrLen = front at *
  generalize [0, 0] ++ opts ++ p = rest
  have htake : (ip ++ (front ++ bytes2 c ++ rest)).take 36 = ip ++ front := by
    rw [List.append_assoc front, ← List.append_assoc ip]
    exact List.take_left' (by rw [List.length_append, hip, hfront])
  have hdrop : (ip ++ (front ++ bytes2 c ++ rest)).drop 38 = rest := by
    rw [← List.append_assoc ip]
    refine List.drop_left' ?_
    rw [List.length_append, List.length_append, hip, hfront, length_bytes2]
  have htcp : (ip ++ (front ++ bytes2 c ++ rest)).drop 20 = front ++ bytes2 c ++ rest :=
    List.drop_left' hip
  rw [completeChecksum, htake, hdrop, htcp, sum_insert c rest (by rw [hfront])]
  simp only [List.append_assoc]

/-- The partial checksum is the folded sum of the pseudo-header. -/
lemma toNat_tcpPartialChecksum (le : Bool) (src dst : Ip) (tcpLen : U32) :
    (tcpPartialChecksum le src dst tcpLen).toNat = carried (pseudoSum src dst tcpLen).toNat := by
  rw [tcpPartialChecksum, checksum_eq le _ (by decide), rfc1071, BitVec.not_not, BitVec.toNat_ofNat,
    OnesComplement.sum, Nat.zero_add, Nat.mod_eq_of_lt (carried_spec _).1]

/-- Completing an offloaded checksum gives the datagram with the full checksum, for all arguments
with which an emission succeeds.  The closure fills a slice of the length it is asked for. -/
theorem offload_completes {le : Bool} {cap : ℕ} {h : Header} {len : ℕ} {fill : ℕ → Option (List U8)}
    {full : Bool} {pkt : List U8} (hfill : ∀ p, fill len = some p → p.length = len)
    (hok : emitWith le cap h len fill full = .ok pkt) :
    ∃ part, emitWith le cap h len fill false = .ok part ∧
      emitWith le cap h len fill true = .ok (completeChecksum part) := by
  obtain ⟨total, opts, p, hp, htotal, -, -, hemit⟩ := emitWith_shape hok
  refine ⟨_, hemit false, (hemit true).trans (congrArg _ ?_)⟩
  have hlt := total.isLt
  have hlen : (tcpHeader h (20 + opts.length) 0 opts ++ p).length < 2 ^ 33 := by
    rw [List.length_append, length_tcpHeader, hfill p hp]
    omega
  simp only [emitted, checksumField, if_true, Bool.false_eq_true, if_false]
  rw [completeChecksum_datagram (length_ipHeader ..), toNat_tcpPartialChecksum, tcpChecksum,
    checksum_eq le _ hlen, rfc1071]
  -- the two sums differ in whether the pseudo-header was folded before
  rw [((Same.refl _).add (carried_spec _).2).carried_eq]

/-- The crowded header fits a small buffer. -/
lemma crowdedHeader_emits :
    ∃ pkt, emitWith true 1500 crowdedHeader 3 (fun _ => some [1, 2, 3]) true = .ok pkt :=
  emitWith_ok (by decide) (by decide) (by decide) rfl

theorem crowdedHeader_offload :
    ∃ part, emitWith true 1500 crowdedHeader 3 (fun _ => some [1, 2, 3]) false = .ok part ∧
      emitWith true 1500 crowdedHeader 3 (fun _ => some [1, 2, 3]) true =
        .ok (completeChecksum part) := by
  obtain ⟨pkt, hok⟩ := crowdedHeader_emits
  exact offload_completes (fun p hp => by cases hp; rfl) hok

/-! ## A bit turned over -/

/-- What a datagram that is parsed has verified. -/
lemma parse_verified {le : Bool} {packet : List U8} {s : Segment} (h : parse le packet = .ok s) :
    ∃ versionIhl total src dst, readU8 packet 0 = .ok versionIhl ∧ versionIhl.toNat / 16 = 4 ∧
      read2 packet 2 = .ok total ∧ read4 packet 12 = .ok src ∧ read4 packet 16 = .ok dst ∧
      checksum le (packet.take (versionIhl.toNat % 16 * 4)) 0 = 0 ∧
      tcpChecksum le src dst ((packet.take total.toNat).drop (versionIhl.toNat % 16 * 4)) = 0 := by
  unfold parse parseOpts at h
  obtain ⟨-, h⟩ := guard_eq_ok.1 h
  obtain ⟨versionIhl, hbyte, h⟩ := bind_eq_ok.1 h
  obtain ⟨hversion, h⟩ := guard_eq_ok.1 h
  obtain ⟨hihl, h⟩ := dite_eq_ok.1 h
  obtain ⟨total, htotal, h⟩ := bind_eq_ok.1 h
  obtain ⟨-, h⟩ := guard_eq_ok.1 h
  obtain ⟨flagsFrag, -, h⟩ := bind_eq_ok.1 h
  obtain ⟨-, h⟩ := guard_eq_ok.1 h
  obtain ⟨proto, -, h⟩ := bind_eq_ok.1 h
  obtain ⟨-, h⟩ := guard_eq_ok.1 h
  obtain ⟨tos, -, h⟩ := bind_eq_ok.1 h
  obtain ⟨src, hsrc, h⟩ := bind_eq_ok.1 h
  obtain ⟨dst, hdst, h⟩ := bind_eq_ok.1 h
  obtain ⟨hip, h⟩ := guard_eq_ok.1 h
  obtain ⟨srcPort, -, h⟩ := bind_eq_ok.1 h
  obtain ⟨dstPort, -, h⟩ := bind_eq_ok.1 h
  obtain ⟨seq, -, h⟩ := bind_eq_ok.1 h
  obtain ⟨ack, -, h⟩ := bind_eq_ok.1 h
  obtain ⟨dataOffByte, -, h⟩ := bind_eq_ok.1 h
  obtain ⟨hoff, h⟩ := dite_eq_ok.1 h
  obtain ⟨flags, -, h⟩ := bind_eq_ok.1 h
  obtain ⟨window, -, h⟩ := bind_eq_ok.1 h
  obtain ⟨htcp, h⟩ := guard_eq_ok.1 h
  exact ⟨versionIhl, total, src, dst, hbyte, not_not.mp hversion, htotal, hsrc, hdst,
    not_not.mp hip, by simpa using htcp⟩

lemma flipBit_append_left {xs : List U8} (ys : List U8) {i : ℕ} (b : ℕ) (hi : i < xs.length) :
    flipBit (xs ++ ys) i b = flipBit xs i b ++ ys := by
  induction xs generalizing i with
  | nil => simp at hi
  | cons x xs ih =>
    cases i with
    | zero => rfl
    | succ i => exact congrArg (x :: ·) (ih (by simpa using hi))

lemma flipBit_append_right (xs ys : List U8) (i b : ℕ) :
    flipBit (xs ++ ys) (xs.length + i) b = xs ++ flipBit ys i b := by
  induction xs with
  | nil => rw [List.nil_append, List.length_nil, Nat.zero_add, List.nil_append]
  | cons x xs ih =>
    rw [List.length_cons, show xs.length + 1 + i = xs.length + i + 1 by omega]
    exact congrArg (x :: ·) ih

/-- A turned bit of the IP header, outside the header length, is found before the TCP segment is
looked at. -/
lemma ipHeader_flip_rejected {le le' : Bool} {total ipId csum : U16} {ecn : U8} {src dst : Ip}
    {tcp : List U8} (hcsum : checksum le (ipHeader total ipId csum ecn src dst) 0 = 0) {i b : ℕ}
    (hi : i < 20) (hb : b < 8) (hihl : ¬ (i = 0 ∧ b < 4)) {s : Segment} :
    parse le' (flipBit (ipHeader total ipId csum ecn src dst) i b ++ tcp) ≠ .ok s := by
  intro hparse
  obtain ⟨versionIhl, -, -, -, hbyte, hversion, -, -, -, hip, -⟩ := parse_verified hparse
  by_cases hzero : i = 0
  · -- a version bit
    subst hzero
    have hfirst : versionIhl = 0x45 ^^^ (1#8 <<< b) := (Except.ok.inj hbyte).symm
    have hbad : ∀ b < 8, ¬ b < 4 → (0x45#8 ^^^ (1#8 <<< b)).toNat / 16 ≠ 4 := by decide
    exact hbad b hb (by tauto) (hfirst ▸ hversion)
  · obtain ⟨i, rfl⟩ := Nat.exists_eq_succ_of_ne_zero hzero
    have hfirst : versionIhl = 0x45 := (Except.ok.inj hbyte).symm
    have htake : (flipBit (ipHeader total ipId csum ecn src dst) (i + 1) b ++ tcp).take
        (versionIhl.toNat % 16 * 4) = flipBit (ipHeader total ipId csum ecn src dst) (i + 1) b := by
      rw [hfirst]
      exact List.take_left' (length_flipBit ..)
    rw [htake] at hip
    exact checksum_flipBit le le' hi hb (by rw [length_ipHeader]; decide) hcsum hip

/-- A turned bit of the TCP segment is found by the TCP checksum. -/
lemma tcp_flip_rejected {le le' : Bool} {total ipId csum : U16} {ecn : U8} {src dst : Ip}
    {tcp : List U8} (hcsum : tcpChecksum le src dst tcp = 0) (htotal : total.toNat = 20 + tcp.length)
    {i b : ℕ} (hi : i < tcp.length) (hb : b < 8) {s : Segment} :
    parse le' (ipHeader total ipId csum ecn src dst ++ flipBit tcp i b) ≠ .ok s := by
  intro hparse
  obtain ⟨versionIhl, total', src', dst', hbyte, -, hread, hsrc, hdst, -, htcp⟩ :=
    parse_verified hparse
  have hfirst : versionIhl = 0x45 := (Except.ok.inj hbyte).symm
  have htotal' : total' = total := (Except.ok.inj hread).symm.trans (word2_bytes2 total)
  have hsrc' : src' = src := (Except.ok.inj hsrc).symm
  have hdst' : dst' = dst := (Except.ok.inj hdst).symm
  have hlen : (ipHeader total ipId csum ecn src dst ++ flipBit tcp i b).length = total.toNat := by
    rw [List.length_append, length_ipHeader, length_flipBit, htotal]
  have hseg : ((ipHeader total ipId csum ecn src dst ++ flipBit tcp i b).take total.toNat).drop
      ((0x45 : U8).toNat % 16 * 4) = flipBit tcp i b := by
    rw [← hlen, List.take_length]
    exact List.drop_left' (length_ipHeader ..)
  rw [hfirst, htotal', hsrc', hdst', hseg] at htcp
  have hlt := total.isLt
  unfold tcpChecksum at hcsum htcp
  rw [length_flipBit] at htcp
  exact checksum_flipBit le le' hi hb (by omega) hcsum htcp

/-- Every datagram `emit` wrote is refused after one of its bits is turned over, unless it is one of
the four bits of the IP header length; also by a parser on a target of the other byte order. -/
theorem emit_flip_rejected (le le' : Bool) {cap : ℕ} {h : Header} {payload pkt : List U8}
    (hok : emit le cap h payload = .ok pkt) {i b : ℕ} (hi : i < pkt.length) (hb : b < 8)
    (hihl : ¬ (i = 0 ∧ b < 4)) : ∃ e, parse le' (flipBit pkt i b) = .error e := by
  cases hparse : parse le' (flipBit pkt i b) with
  | error e => exact ⟨e, rfl⟩
  | ok s =>
    exfalso
    obtain ⟨total, opts, p, hp, htotal, -, -, hemit⟩ := emitWith_shape hok
    obtain rfl : payload = p := Option.some.inj hp
    obtain rfl := Except.ok.inj (hok.symm.trans (hemit true))
    have hlt := total.isLt
    have hlen : (tcpHeader h (20 + opts.length) 0 opts ++ payload).length < 2 ^ 33 := by
      rw [List.length_append, length_tcpHeader]
      omega
    have htcp : tcpChecksum le h.srcIp h.dstIp _ = 0 := tcpChecksum_filled hlen
    have hip := ipChecksum_filled le total h.ipId h.ecn h.srcIp h.dstIp
    simp only [emitted, checksumField, if_true] at hi hparse
    generalize checksum le (ipHeader total h.ipId 0 h.ecn h.srcIp h.dstIp) 0 = ipCsum at *
    generalize tcpChecksum le h.srcIp h.dstIp
      (tcpHeader h (20 + opts.length) 0 opts ++ payload) = csum at *
    by_cases hfront : i < 20
    · rw [flipBit_append_left _ b (by rwa [length_ipHeader])] at hparse
      exact ipHeader_flip_rejected hip hfront hb hihl hparse
    · obtain ⟨j, rfl⟩ := Nat.exists_eq_add_of_le (not_lt.mp hfront)
      have hflip := flipBit_append_right (ipHeader total h.ipId ipCsum h.ecn h.srcIp h.dstIp)
        (tcpHeader h (20 + opts.length) csum opts ++ payload) j b
      rw [length_ipHeader] at hflip
      rw [hflip] at hparse
      refine tcp_flip_rejected htcp ?_ ?_ hb hparse
      · rw [List.length_append, length_tcpHeader]
        omega
      · rw [List.length_append, length_ipHeader] at hi
        omega

/-- A bit of the data offset: the options would end early. -/
theorem crowdedHeader_flip_rejected :
    ∃ pkt, emit true 1500 crowdedHeader [1, 2, 3] = .ok pkt ∧
      ∃ e, parse false (flipBit pkt 32 7) = .error e := by
  obtain ⟨pkt, hok⟩ := crowdedHeader_emits
  obtain ⟨hopt, p, hp, hlen⟩ := emitWith_inv hok
  have hemit : emit true 1500 crowdedHeader [1, 2, 3] = .ok pkt := hok
  exact ⟨pkt, hemit, emit_flip_rejected true false hemit (by omega) (by decide) (by decide)⟩

end TcpSansIo
