import TcpSansIo.Receive.Frame

/-!
# TS.Recent

An accepted segment at or before `Last.ACK.sent` moves TS.Recent to its TSval.  `paws_reject` and
`update_ts_recent` each compare the TSval with TS.Recent, and only the first stops comparing once
TS.Recent is 24 days old: a segment let through by that rule with an older TSval leaves TS.Recent and
its stamp where they were (`old_timestamp_after_idle_not_taken`).  All others move it
(`ts_recent_follows_accepted_data`).
-/

namespace TcpSansIo

open Proc FixedWidth

variable {P : Params}

namespace Tcb

/-- TS.Recent is too old for the PAWS comparison. -/
def TsExpired (t : Tcb P) : Prop := PAWS_IDLE_MS.toNat < (satSub t.nowMs t.tsRecentStamp).toNat

/-- A segment with data passes PAWS when TS.Recent has expired, or its TSval is not older. -/
lemma seqGe_of_paws {t : Tcb P} {seg : Segment} {tsval tsecr : U32} (hts : t.tsEnabled = true)
    (hopt : seg.options.ts = some (tsval, tsecr)) (hrst : seg.flags.rst = false)
    (hdata : seg.payload ≠ []) (hpaws : t.pawsReject seg = false) (hidle : ¬ t.TsExpired) :
    seqGe tsval t.tsRecent := by
  unfold pawsReject at hpaws
  rw [if_neg (by simp [hts, hrst, hdata]), hopt] at hpaws
  dsimp only at hpaws
  rw [TsExpired] at hidle
  rw [if_neg hidle, decide_eq_false_iff_not] at hpaws
  exact Int.not_lt.mp hpaws

lemma updateTsRecent_taken {t : Tcb P} {seg : Segment} {tsval tsecr : U32} (hts : t.tsEnabled = true)
    (hopt : seg.options.ts = some (tsval, tsecr)) (hseq : seqLe seg.seq t.lastAckSent) :
    ((t.updateTsRecent seg).tsRecent = tsval ∧ (t.updateTsRecent seg).tsRecentStamp = t.nowMs) ↔
      seqGe tsval t.tsRecent := by
  unfold updateTsRecent
  simp only [hts, hopt]
  split
  case isTrue h => exact iff_of_true ⟨rfl, rfl⟩ h.2
  case isFalse h =>
    -- An older TSval is another one.
    refine iff_of_false (fun hsame => h ⟨hseq, ?_⟩) fun hge => h ⟨hseq, hge⟩
    rw [← hsame.1, seqGe, BitVec.sub_self]
    rfl

lemma noteSegment_ts (t : Tcb P) (seg : Segment) :
    (t.noteSegment seg).toTsState = (t.updateTsRecent seg).toTsState := by
  unfold noteSegment onPeerAlive updateEcnEcho
  split <;> rfl

lemma ts_of_frame {t t' : Tcb P} (h : Agree exceptSegment t t') : t'.toTsState = t.toTsState :=
  h.of fun t => t.toTsState

lemma acceptSegment_ts (seg : Segment) (probe : Bool) (t : Tcb P) :
    (final (acceptSegment seg probe t)).toTsState = (t.updateTsRecent seg).toTsState :=
  (ts_of_frame (acceptSegment_frame seg probe t)).trans (noteSegment_ts t seg)

end Tcb

open Tcb

/-- An accepted segment with data, at or before `Last.ACK.sent`, leaves TS.Recent at its TSval and the
stamp at the clock: always, except where TS.Recent had expired and the TSval is older. -/
theorem ts_recent_follows_accepted_data {t : Tcb P} (hsync : t.state.isSynchronized = true)
    (hts : t.tsEnabled = true) {c : Call} {seg : Segment}
    (hc : c.Delivers P seg) (htuple : t.OnTuple seg) (hacc : t.Accepted seg) (hdata : seg.payload ≠ [])
    {tsval tsecr : U32} (hopt : seg.options.ts = some (tsval, tsecr))
    (hseq : seqLe seg.seq t.lastAckSent) :
    ((final (c.run t)).tsRecent = tsval ∧ (final (c.run t)).tsRecentStamp = t.nowMs) ↔
      (t.TsExpired → seqGe tsval t.tsRecent) := by
  have hfinal : (final (c.run t)).toTsState = (t.countIn.updateTsRecent seg).toTsState := by
    rw [hc.final_run, injectSegment_of_accepted hsync htuple hacc]
    exact acceptSegment_ts _ _ _
  have hrecent := congrArg TsState.tsRecent hfinal
  have hstamp := congrArg TsState.tsRecentStamp hfinal
  rw [hrecent, hstamp]
  refine (updateTsRecent_taken (t := t.countIn) hts hopt hseq).trans ⟨fun hge _ => hge, fun hge => ?_⟩
  by_cases hidle : t.TsExpired
  · exact hge hidle
  · exact seqGe_of_paws hts hopt hacc.rst hdata hacc.paws hidle

/-- The tiny client after a handshake with timestamps. -/
def tinyStamped : Tcb tiny :=
  runAll [.connect, .extractPacketWith,
    .injectPacket (datagram
      { peerSynAck with options := { TcpOptions.NONE with ts := some (1000, 0) } } []),
    .extractPacketWith] tinyClient

lemma reachable_tinyStamped : Reachable tinyStamped :=
  (Reachable.new _).runAll (by decide +kernel)

/-- One byte from its peer, stamped with `tsval`. -/
def stampedByte (tsval : U32) : List U8 :=
  datagram { peerAck with options := { TcpOptions.NONE with ts := some (tsval, 0) } } [7]

lemma stampedByte_parses :
    (parse tiny.littleEndian (stampedByte 1005)).toOption.isSome = true ∧
      (parse tiny.littleEndian (stampedByte 999)).toOption.isSome = true := by
  decide +kernel

theorem tiny_timestamp_taken :
    (final (Call.run (.injectPacket (stampedByte 1005)) tinyStamped)).tsRecent = 1005 ∧
      (final (Call.run (.injectPacket (stampedByte 1005)) tinyStamped)).tsRecentStamp =
        tinyStamped.nowMs :=
  (@ts_recent_follows_accepted_data tiny tinyStamped (by decide +kernel)
    (by decide +kernel) _ _ (.inl ⟨stampedByte 1005, rfl, parse_get stampedByte_parses.1⟩)
    ⟨by decide +kernel, by decide +kernel, by decide +kernel, by decide +kernel⟩
    ⟨by decide +kernel, by decide +kernel, by decide +kernel, by decide +kernel, by decide +kernel,
      by decide +kernel⟩
    (by decide +kernel) 1005 0 (by decide +kernel) (by decide +kernel)).mpr fun _ => by decide +kernel

/-- The same client 25 days later. -/
def tinyIdle : Tcb tiny := runAll [.setNow (25 * 86400000)] tinyStamped

/-- After 25 idle days a byte with an older TSval is accepted; TS.Recent and its stamp stay. -/
theorem old_timestamp_after_idle_not_taken :
    Reachable tinyIdle ∧ tinyIdle.state.isSynchronized = true ∧ tinyIdle.tsEnabled = true ∧
      tinyIdle.nowMs = 25 * 86400000 ∧
      ∃ seg, parse tiny.littleEndian (stampedByte 999) = .ok seg ∧ tinyIdle.OnTuple seg ∧
        tinyIdle.Accepted seg ∧ seg.payload ≠ [] ∧ seg.options.ts = some (999, 0) ∧
        seqLe seg.seq tinyIdle.lastAckSent ∧
        (final (Call.run (.injectPacket (stampedByte 999)) tinyIdle)).tsRecent = 1000 ∧
        (final (Call.run (.injectPacket (stampedByte 999)) tinyIdle)).tsRecentStamp = 0 := by
  refine ⟨reachable_tinyStamped.runAll (by decide +kernel), by decide +kernel, by decide +kernel,
    by decide +kernel, _, parse_get stampedByte_parses.2, ?_, ?_, by decide +kernel, by decide +kernel,
    by decide +kernel, by decide +kernel, by decide +kernel⟩
  · exact ⟨by decide +kernel, by decide +kernel, by decide +kernel, by decide +kernel⟩
  · exact ⟨by decide +kernel, by decide +kernel, by decide +kernel, by decide +kernel, by decide +kernel,
      by decide +kernel⟩

end TcpSansIo
