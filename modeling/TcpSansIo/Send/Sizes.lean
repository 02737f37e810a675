import TcpSansIo.Machine.Log

/-!
# Segment sizes

Three numbers cap a segment: our MSS, the peer's MSS, and what the path is known to carry.

* `SizesOk`: the ranges the caps stay in, in every reachable block (`Reachable.sizes`).
* `Sized`: a data segment and its options stay under the smallest of the caps, or the segment is a
  path-MTU probe and stays under the size it probes (`staged_data_sized`).
-/

namespace TcpSansIo

open Proc FixedWidth

variable {P : Params}

namespace Tcb

/-! ## The ranges of the caps -/

/-- The ranges the sizes of a block stay in. -/
structure SizesOk (z : Sizes) : Prop where
  mtu : 576 ≤ z.mtu.toNat ∧ z.mtu.toNat ≤ 1500
  localMss : z.localMss.toNat = z.mtu.toNat - 40
  peerMss : 64 ≤ z.peerMss.toNat
  pmtuMss : 536 ≤ z.pmtuMss.toNat ∧ z.pmtuMss.toNat ≤ 1460
  restore : z.pmtuRestoreMss.toNat ≤ 1460
  probe : z.pmtuProbeMss.toNat ≤ 1460

lemma toNat_clampMtu (mtu : U16) :
    576 ≤ (clampB mtu MIN_MTU MAX_MTU).toNat ∧ (clampB mtu MIN_MTU MAX_MTU).toNat ≤ 1500 := by
  rw [clampB, toNat_minB, toNat_maxB]
  have h₁ : MIN_MTU.toNat = 576 := rfl
  have h₂ : MAX_MTU.toNat = 1500 := rfl
  omega

lemma maxMtu_ok : 576 ≤ MAX_MTU.toNat ∧ MAX_MTU.toNat ≤ 1500 := by decide

lemma toNat_mssOfMtu (mtu : U16) :
    (mssOfMtu mtu).toNat = (clampB mtu MIN_MTU MAX_MTU).toNat - 40 := by
  rw [mssOfMtu, toNat_subIn]
  rfl

namespace SizesOk

variable {z z' : Sizes}

/-- The sizes of a new connection. -/
lemma fresh (hmtu : 576 ≤ z.mtu.toNat ∧ z.mtu.toNat ≤ 1500)
    (hlocal : z.localMss = satSub z.mtu HDR_LEN) (hpeer : z.peerMss = DEFAULT_PEER_MSS)
    (hpmtu : z.pmtuMss = satSub z.mtu HDR_LEN) (hrestore : z.pmtuRestoreMss = 0)
    (hprobe : z.pmtuProbeMss = 0) : SizesOk z := by
  have hmss : (satSub z.mtu HDR_LEN).toNat = z.mtu.toNat - 40 := toNat_satSub _ _
  have hzero : (0 : U16).toNat = 0 := rfl
  refine ⟨hmtu, ?_, ?_, ?_, ?_, ?_⟩
  · rw [hlocal, hmss]
  · rw [hpeer]
    decide
  · rw [hpmtu, hmss]
    omega
  · rw [hrestore, hzero]
    omega
  · rw [hprobe, hzero]
    omega

lemma resized (h : SizesOk z) (hz : Resized z z') : SizesOk z' := by
  obtain ⟨hmtu, hlocal, hpeer, hpmtu, hrestore, hprobe⟩ := h
  have h₁ : BLACKHOLE_MSS1.toNat = 1024 := rfl
  have h₂ : BLACKHOLE_MSS2.toNat = 536 := rfl
  cases hz with
  | delivered =>
    have hmax : (maxB z.pmtuMss z.pmtuProbeMss).toNat = max z.pmtuMss.toNat z.pmtuProbeMss.toNat :=
      toNat_maxB _ _
    refine ⟨hmtu, hlocal, hpeer, ?_, ?_, hprobe⟩
    · dsimp only
      omega
    · dsimp only
      split
      · exact Nat.zero_le _
      · exact hrestore
  | failed => exact ⟨hmtu, hlocal, hpeer, hpmtu, hrestore, hprobe⟩
  | probing hle =>
    refine ⟨hmtu, hlocal, hpeer, hpmtu, hrestore, ?_⟩
    dsimp only
    omega
  | clamped htarget hlt =>
    refine ⟨hmtu, hlocal, hpeer, ?_, ?_, hprobe⟩
    · dsimp only
      rcases htarget with rfl | rfl <;> omega
    · dsimp only
      split
      · omega
      · exact hrestore
  | bounded mtu =>
    unfold Tcb.bounded
    split
    · exact ⟨hmtu, hlocal, hpeer, hpmtu, Nat.zero_le _, hprobe⟩
    · refine ⟨hmtu, hlocal, hpeer, hpmtu, ?_, hprobe⟩
      dsimp only
      rw [toNat_minB]
      omega
  | @lowered mtu hlt =>
    have hclamp := toNat_clampMtu mtu
    have hmss := toNat_mssOfMtu mtu
    refine ⟨hmtu, hlocal, hpeer, ?_, hrestore, hprobe⟩
    dsimp only
    omega

/-- The peer's MSS is floored. -/
lemma withPeer (h : SizesOk z) {mss : U16} (hmss : 64 ≤ mss.toNat) :
    SizesOk { z with peerMss := mss } := { h with peerMss := hmss }

lemma absorb {t : Tcb P} (h : SizesOk t.toSizes) (seg : Segment) :
    SizesOk (t.absorbSynOptions seg).toSizes := by
  refine h.withPeer ?_
  split
  · rw [toNat_maxB]
    exact le_max_right _ _
  · exact h.peerMss

lemma reset {t : Tcb P} (h : SizesOk t.toSizes) : SizesOk t.resetConnectionState.toSizes :=
  fresh h.mtu rfl rfl rfl rfl rfl

end SizesOk

end Tcb

open Tcb

lemma stable_sizes : Stable fun t : Tcb P => SizesOk t.toSizes where
  core _ := Iff.rfl
  step t l t' hstep h := by
    cases hstep with
    | first now hnew =>
      change SizesOk (probing t.toSizes t.sndNxt _)
      rcases hnew.size.resized t.sndNxt with hsame | hz
      · rw [hsame]
        exact h
      · exact h.resized hz
    | resized hz => exact h.resized hz
    | @mtuSet mtu =>
      have hclamp := toNat_clampMtu mtu
      have hmss := toNat_mssOfMtu mtu
      refine ⟨hclamp, hmss, h.peerMss, ?_, h.restore, h.probe⟩
      dsimp only
      omega
    | @segment seg =>
      rw [show (t.receiveSegment seg).2.toSizes = t.toSizes from
        (receiveSegment_frame t seg).of fun t => t.toSizes]
      exact h
    | @reset s localEp remoteEp iss mtu hstate hmtu =>
      refine SizesOk.fresh ?_ rfl rfl rfl rfl rfl
      rcases hmtu with rfl | rfl
      · exact h.mtu
      · exact maxMtu_ok
    | connected => exact h.reset
    | @halfOpened seg => exact SizesOk.absorb (t := { t.resetConnectionState with
        remoteEp := ⟨seg.srcIp, seg.srcPort⟩ }) h.reset seg
    | @activeOpened seg => exact h.absorb seg
    | @simultaneous seg => exact h.absorb seg
    | cookieOpened =>
      refine h.reset.withPeer ?_
      rw [toNat_maxB]
      exact le_max_right _ _
    | _ => exact h

lemma new_sizes (cfg : TcbConfig) : SizesOk (Tcb.new cfg : Tcb P).toSizes :=
  SizesOk.fresh maxMtu_ok rfl rfl rfl rfl rfl

lemma Reachable.sizes {t : Tcb P} (ht : Reachable t) : SizesOk t.toSizes :=
  ht.stable stable_sizes new_sizes

/-! ## Data segments -/

namespace Emission

/-- The segment is the path-MTU probe for segments of `cap` bytes that `pmtu_probe_len` asked for: new
data sent from a block that was clamped, with no probe in flight, the next one due, nothing being
retransmitted and no reduction in progress; `cap` is one step toward the size being restored. -/
structure Probes (e : Emission P) (cap : U16) : Prop where
  new : e.header.seq = e.sndNxt
  clamped : e.pmtuRestoreMss ≠ 0
  idle : e.pmtuProbeInflight = false
  due : e.pmtuProbeAt.toNat ≤ e.nowMs.toNat
  calm : e.rtxCount = 0 ∧ e.cc.state = .opened
  next : cap = if e.pmtuMss.toNat < BLACKHOLE_MSS1.toNat ∧
      BLACKHOLE_MSS1.toNat < e.pmtuRestoreMss.toNat then BLACKHOLE_MSS1 else e.pmtuRestoreMss
  le : cap.toNat ≤ e.pmtuRestoreMss.toNat
  size : e.payload.length =
    min (min e.localMss.toNat e.peerMss.toNat) cap.toNat - if e.tsEnabled then 12 else 0

/-- The options and payload of the segment take at most `n` bytes. -/
def Within (e : Emission P) (n : ℕ) : Prop := e.payload.length + e.header.options.encodedLen ≤ n

/-- The segment, staged as number `i`, stays under the caps; or it was noted as a path-MTU probe, and
stays under the size it probes. -/
def Sized (e : Emission P) (i : ℕ) (probed : List (ℕ × U16)) : Prop :=
  e.Within (min (min e.localMss.toNat e.peerMss.toNat) e.pmtuMss.toNat) ∨
    ∃ cap, (i, cap) ∈ probed ∧ e.Probes cap ∧
      e.Within (min (min e.localMss.toNat e.peerMss.toNat) cap.toNat)

end Emission

namespace Tcb

lemma toNat_mssCap (t : Tcb P) :
    t.mssCap.toNat = min (min t.localMss.toNat t.peerMss.toNat) t.pmtuMss.toNat := by
  rw [mssCap, toNat_minB, toNat_minB]

/-- What timestamps take of every segment. -/
def tsBytes (t : Tcb P) : ℕ := if t.tsEnabled then 12 else 0

lemma toNat_tsBytes (t : Tcb P) : (if t.tsEnabled then (12 : U32) else 0).toNat = t.tsBytes := by
  unfold tsBytes
  split <;> rfl

lemma toNat_setWidth_mss (m : U16) : (m.setWidth 32).toNat = m.toNat := by
  have h := m.isLt
  rw [BitVec.toNat_setWidth, Nat.mod_eq_of_lt (by omega)]

lemma SizesOk.mssPayload {t : Tcb P} (h : SizesOk t.toSizes) :
    t.mssPayload.toNat + t.tsBytes = t.mssCap.toNat := by
  have hcap := toNat_mssCap t
  have hts : t.tsBytes ≤ 12 := by
    unfold tsBytes
    split <;> omega
  have hlocal := h.localMss
  have hmtu := h.mtu
  have hpeer := h.peerMss
  have hpmtu := h.pmtuMss
  have hone : (1 : U32).toNat = 1 := rfl
  rw [Tcb.mssPayload, toNat_maxB, toNat_satSub, toNat_setWidth_mss, toNat_tsBytes, hone]
  omega

/-- The options of a segment with `len` bytes take the timestamps, or fit with the data under the
MSS. -/
lemma OptionsFor.encodedLen {t : Tcb P} {len : U32} {opts : TcpOptions} {d : Option (U32 × U32)}
    (h : t.OptionsFor len opts d) :
    opts.encodedLen ≤ t.tsBytes ∨ opts.encodedLen + len.toNat ≤ t.mssCap.toNat := by
  obtain ⟨⟨ts, rfl, hts⟩, -⟩ := h
  have hraw : ({ (segmentOptions len t).1 with ts := ts } : TcpOptions).encodedLen =
      (segmentOptions len t).1.encodedLen := by
    unfold TcpOptions.encodedLen TcpOptions.rawLen
    dsimp only
    rw [hts, segmentOptions_ts]
  rw [hraw]
  exact (segmentOptions_encodedLen len t).2

/-- A probe fills the size it probes. -/
lemma ProbeOk.toNat_len {t : Tcb P} {len : U32} {cap : U16} (h : t.ProbeOk len cap) :
    len.toNat = min (min t.localMss.toNat t.peerMss.toNat) cap.toNat - t.tsBytes := by
  rw [h.size, toNat_satSub, toNat_setWidth_mss, toNat_minB, toNat_minB, toNat_tsBytes]

/-- A probe stays under the size it probes. -/
lemma ProbeOk.within {t : Tcb P} {len : U32} {cap : U16} (h : t.ProbeOk len cap) {n : ℕ}
    (hn : n ≤ t.tsBytes ∨ n + len.toNat ≤ t.mssCap.toNat) :
    len.toNat + n ≤ min (min t.localMss.toNat t.peerMss.toNat) t.pmtuMss.toNat ∨
      len.toNat + n ≤ min (min t.localMss.toNat t.peerMss.toNat) cap.toNat := by
  have hsize := h.toNat_len
  have hmore := h.more
  have hcap := toNat_mssCap t
  omega

/-- New data stays under the caps, unless it is the probe. -/
lemma NewOk.sized {t : Tcb P} {len : U32} {fin : Bool} {probe : Option (U32 × U16)} {opts : TcpOptions}
    {d : Option (U32 × U32)} {h : Header} {pkt : List U8} {fl : Flags} {ack : U32}
    (hok : SizesOk t.toSizes) (hnew : t.NewOk len fin probe) (hopts : t.OptionsFor len opts d)
    (hh : t.PeerHeader fl t.sndNxt ack opts h) (hlen : (t.bytesAt t.sndNxt len).length = len.toNat) :
    (t.emission h (t.bytesAt t.sndNxt len) pkt).Sized t.sent.length
      (t.probed ++ (probe.map fun p => (t.sent.length, p.2)).toList) := by
  have hpay := hok.mssPayload
  have hcap := toNat_mssCap t
  have henc := hopts.encodedLen
  have hsize := hnew.size
  unfold Emission.Sized Emission.Within
  change (t.bytesAt t.sndNxt len).length + h.options.encodedLen ≤ _ ∨ ∃ cap, _ ∧ _ ∧
    (t.bytesAt t.sndNxt len).length + h.options.encodedLen ≤ _
  rw [hlen, hh.options]
  cases probe with
  | none =>
    left
    change len.toNat ≤ t.mssPayload.toNat at hsize
    change len.toNat + _ ≤ min (min t.localMss.toNat t.peerMss.toNat) t.pmtuMss.toNat
    omega
  | some p =>
    obtain ⟨-, hprobe⟩ := hsize
    have hnoted : (t.sent.length, p.2) ∈ t.probed ++ [(t.sent.length, p.2)] := by simp
    refine (hprobe.within henc).imp id fun hw => ⟨p.2, hnoted, ?_, hw⟩
    exact ⟨hh.seq, hprobe.clamped, hprobe.idle, hprobe.due, hprobe.calm, hprobe.next, hprobe.le,
      hlen.trans hprobe.toNat_len⟩

/-- A retransmission stays under the caps. -/
lemma resent_sized {t : Tcb P} {s : Seg} {len : U32} {opts : TcpOptions} {d : Option (U32 × U32)}
    {h : Header} {pkt : List U8} {fl : Flags} {ack : U32} (hok : SizesOk t.toSizes)
    (hpart : len = minB s.payloadLen t.mssPayload) (hopts : t.OptionsFor len opts d)
    (hh : t.PeerHeader fl s.start ack opts h) (hlen : (t.bytesAt s.start len).length = len.toNat)
    (i : ℕ) (probed : List (ℕ × U16)) :
    (t.emission h (t.bytesAt s.start len) pkt).Sized i probed := by
  have hpay := hok.mssPayload
  have hcap := toNat_mssCap t
  have henc := hopts.encodedLen
  have hle : len.toNat ≤ t.mssPayload.toNat := by
    rw [hpart, toNat_minB]
    exact min_le_right _ _
  left
  change (t.bytesAt s.start len).length + h.options.encodedLen ≤
    min (min t.localMss.toNat t.peerMss.toNat) t.pmtuMss.toNat
  rw [hlen, hh.options]
  omega

/-- A data segment that is staged is of the size it may have. -/
lemma Emits.sized {t : Tcb P} {e : Emission P} (hok : SizesOk t.toSizes) (h : Emits t e)
    (hdata : e.payload ≠ []) : ∃ i probed, e.Sized i probed := by
  cases h with
  | control => exact absurd rfl hdata
  | stateless => exact absurd rfl hdata
  | first hnew hopts hh hlen => exact ⟨_, _, hnew.sized hok hopts hh hlen⟩
  | again _ hpart hopts hh hlen => exact ⟨0, [], resent_sized hok hpart hopts hh hlen _ _⟩
  | syn => exact absurd rfl hdata
  | synack => exact absurd rfl hdata

end Tcb

/-! ## Runs -/

/-- Every data segment staged so far is of the size it may have. -/
def SizedLog (sent : List (Emission P)) (probed : List (ℕ × U16)) : Prop :=
  ∀ (i : ℕ) (e : Emission P), sent[i]? = some e → e.payload ≠ [] → e.Sized i probed

namespace SizedLog

lemma nil (probed : List (ℕ × U16)) : SizedLog ([] : List (Emission P)) probed := by
  intro i e he
  rw [List.getElem?_nil] at he
  cases he

lemma concat {sent : List (Emission P)} {e : Emission P} {probed more : List (ℕ × U16)}
    (h : SizedLog sent probed) (he : e.payload ≠ [] → e.Sized sent.length (probed ++ more)) :
    SizedLog (sent ++ [e]) (probed ++ more) := by
  intro i e' hi hdata
  rcases Nat.lt_trichotomy i sent.length with hlt | rfl | hgt
  · rw [List.getElem?_append_left hlt] at hi
    refine (h i e' hi hdata).imp id ?_
    rintro ⟨cap, hmem, hrest⟩
    exact ⟨cap, List.mem_append_left _ hmem, hrest⟩
  · rw [List.getElem?_concat_length] at hi
    cases hi
    exact he hdata
  · rw [List.getElem?_eq_none (by rw [List.length_append, List.length_singleton]; omega)] at hi
    cases hi

/-- The segment is not noted as a probe. -/
lemma concat_plain {sent : List (Emission P)} {e : Emission P} {probed : List (ℕ × U16)}
    (h : SizedLog sent probed) (he : e.payload ≠ [] → e.Sized sent.length probed) :
    SizedLog (sent ++ [e]) probed := by
  have hall : SizedLog (sent ++ [e]) (probed ++ []) := h.concat (by rwa [List.append_nil])
  rwa [List.append_nil] at hall

/-- A segment without data is of no concern. -/
lemma concat_empty {sent : List (Emission P)} {e : Emission P} {probed : List (ℕ × U16)}
    (h : SizedLog sent probed) (he : e.payload = []) : SizedLog (sent ++ [e]) probed :=
  h.concat_plain fun hdata => absurd he hdata

end SizedLog

/-- What a step stages is of the size it may have. -/
lemma Step.sizedLog {t t' : Tcb P} {l : Option Segment} (hstep : Step t l t') (hok : SizesOk t.toSizes)
    (h : SizedLog t.sent t.probed) : SizedLog t'.sent t'.probed := by
  cases hstep with
  | control => exact h.concat_empty rfl
  | stateless => exact h.concat_empty rfl
  | first now hnew hshort hopts hh hlen => exact h.concat fun _ => hnew.sized hok hopts hh hlen
  | again now hre hpart hshort hopts hh hlen =>
    exact h.concat_plain fun _ => resent_sized hok hpart hopts hh hlen _ _
  | connected => exact (SizedLog.nil []).concat_empty rfl
  | halfOpened => exact (SizedLog.nil []).concat_empty rfl
  | @segment seg =>
    have hsame : ((t.receiveSegment seg).2.sent, (t.receiveSegment seg).2.probed) = (t.sent, t.probed) :=
      (receiveSegment_frame t seg).of fun t => (t.sent, t.probed)
    rw [Prod.mk.injEq] at hsame
    rw [hsame.1, hsame.2]
    exact h
  | reset => exact SizedLog.nil _
  | cookieOpened => exact SizedLog.nil _
  | _ => exact h

lemma stable_sizedLog : Stable fun t : Tcb P => SizesOk t.toSizes ∧ SizedLog t.sent t.probed where
  core _ := Iff.rfl
  step t l t' hstep h := ⟨stable_sizes.step t l t' hstep h.1, hstep.sizedLog h.1 h.2⟩

/-- Every staged data segment, new or repeated, stays under the smallest of the caps with its options;
only the segments noted as path-MTU probes may exceed what the path is known to carry, up to the size
they probe. -/
theorem staged_data_sized {t : Tcb P} (ht : Reachable t) {i : ℕ} {e : Emission P}
    (he : t.sent[i]? = some e) (hdata : e.payload ≠ []) : e.Sized i t.probed :=
  (ht.stable stable_sizedLog fun cfg => ⟨new_sizes cfg, SizedLog.nil _⟩).2 i e he hdata

/-- Two bytes from the tiny client. -/
theorem tiny_data_sized :
    ∃ (t : Tcb tiny) (i : ℕ) (e : Emission tiny), Reachable t ∧ t.sent[i]? = some e ∧
      e.payload = [65, 66] ∧ e.Sized i t.probed := by
  have hreach : Reachable (runAll [.send [65, 66], .tick] tinyOpen) :=
    reachable_tinyOpen.runAll (by decide +kernel)
  have hlast : (runAll [.send [65, 66], .tick] tinyOpen).sent[2]?.map (fun e => e.payload) =
      some [65, 66] := by decide +kernel
  obtain ⟨e, he, hp⟩ := Option.map_eq_some_iff.mp hlast
  exact ⟨_, 2, e, hreach, he, hp, staged_data_sized hreach he (by rw [hp]; exact nofun)⟩

end TcpSansIo
