import TcpSansIo.Send.Sizes

/-!
# A reported path MTU

`update_pmtu` lowers the segment size and what black-hole recovery may raise it back to.  `CappedAt M`
says of the sizes that nothing the connection does can raise a segment above `M`; every step keeps it
while the connection lasts.

A report caps the sizes, so from then on every datagram fits it (`reported_mtu_binds`), unless a probe
larger than the report is in flight: the report keeps such a probe, and its acknowledgment raises the
segment size above what was reported (`probe_in_flight_outgrows_report`).
-/

namespace TcpSansIo

open Proc FixedWidth

variable {P : Params}

namespace Tcb

/-- No segment can grow beyond `M` bytes. -/
structure CappedAt (M : ℕ) (z : Sizes) : Prop where
  pmtuMss : z.pmtuMss.toNat ≤ M
  restore : z.pmtuRestoreMss.toNat ≤ M
  probe : z.pmtuProbeInflight = true → z.pmtuProbeMss.toNat ≤ M

lemma CappedAt.resized {M : ℕ} {z z' : Sizes} (h : CappedAt M z) (hz : Resized z z') :
    CappedAt M z' := by
  obtain ⟨hpmtu, hrestore, hprobe⟩ := h
  cases hz with
  | delivered hflight =>
    refine ⟨?_, ?_, nofun⟩
    · dsimp only
      rw [toNat_maxB]
      exact max_le hpmtu (hprobe hflight)
    · dsimp only
      split
      · exact Nat.zero_le _
      · exact hrestore
  | failed => exact ⟨hpmtu, hrestore, nofun⟩
  | probing hle => exact ⟨hpmtu, hrestore, fun _ => le_trans hle hrestore⟩
  | clamped _ hlt =>
    refine ⟨le_trans hlt.le hpmtu, ?_, nofun⟩
    dsimp only
    split
    · exact hpmtu
    · exact hrestore
  | bounded mtu =>
    unfold Tcb.bounded
    split
    · exact ⟨hpmtu, Nat.zero_le _, nofun⟩
    · refine ⟨hpmtu, ?_, hprobe⟩
      dsimp only
      rw [toNat_minB]
      exact le_trans (min_le_left _ _) hrestore
  | lowered hlt => exact ⟨le_trans hlt.le hpmtu, hrestore, hprobe⟩

/-! ## Datagrams -/

lemma Staged.length {t : Tcb P} {h : Header} {p pkt : List U8} {ring : TxRing P.TXQ}
    (hpkt : t.Staged h p pkt ring) :
    pkt.length = 40 + h.options.encodedLen + p.length ∧ h.options.encodedLen ≤ 40 := by
  obtain ⟨fill, full, hfill, hemit⟩ := hpkt.bytes
  obtain ⟨hopt, p', hp', hlen⟩ := emitWith_inv hemit
  rw [hfill] at hp'
  cases hp'
  exact ⟨hlen, hopt⟩

lemma Emits.length {t : Tcb P} {e : Emission P} (h : Emits t e) :
    e.packet.length = 40 + e.header.options.encodedLen + e.payload.length ∧
      e.header.options.encodedLen ≤ 40 := by
  cases h with
  | control _ _ hpkt => exact hpkt.length
  | stateless _ hpkt => exact hpkt.length
  | first _ _ _ _ hpkt => exact hpkt.length
  | again _ _ _ _ _ hpkt => exact hpkt.length
  | syn _ _ _ _ hpkt => exact hpkt.length
  | synack _ _ _ _ hpkt => exact hpkt.length

/-- A segment with data was staged from the block itself. -/
lemma Emits.sizes {t : Tcb P} {e : Emission P} (h : Emits t e) (hdata : e.payload ≠ []) :
    e.toSizes = t.toSizes := by
  cases h with
  | control => rfl
  | stateless => rfl
  | first => rfl
  | again => rfl
  | syn => exact absurd rfl hdata
  | synack => exact absurd rfl hdata

/-- A datagram from capped sizes. -/
lemma Emits.capped {t : Tcb P} {e : Emission P} {M : ℕ} (hok : SizesOk t.toSizes)
    (hcap : CappedAt M t.toSizes) (hM : 536 ≤ M) (h : Emits t e) : e.packet.length ≤ M + 40 := by
  obtain ⟨hlen, hopt⟩ := h.length
  by_cases hdata : e.payload = []
  · rw [hlen, hdata, List.length_nil]
    omega
  · have hz := h.sizes hdata
    have hpmtu : e.pmtuMss.toNat ≤ M := by
      rw [show e.pmtuMss = t.pmtuMss from congrArg Sizes.pmtuMss hz]
      exact hcap.pmtuMss
    have hrestore : e.pmtuRestoreMss.toNat ≤ M := by
      rw [show e.pmtuRestoreMss = t.pmtuRestoreMss from congrArg Sizes.pmtuRestoreMss hz]
      exact hcap.restore
    obtain ⟨_, _, hw | ⟨cap, -, hprobe, hw⟩⟩ := h.sized hok hdata
    · unfold Emission.Within at hw
      omega
    · have hle := hprobe.le
      unfold Emission.Within at hw
      omega

end Tcb

open Tcb

/-! ## From the report to the end of the connection -/

/-- On the connection of `t₀`, nothing staged after its first `n` segments exceeded `M` bytes of TCP
payload and options, and nothing that will be can. -/
structure Bound (t₀ : Tcb P) (n M : ℕ) (u : Tcb P) : Prop where
  sizes : SizesOk u.toSizes
  epoch : t₀.epoch ≤ u.epoch
  open_ : u.epoch = t₀.epoch → u.state ≠ .listen
  capped : u.epoch = t₀.epoch → u.state ≠ .closed → CappedAt M u.toSizes
  sent : u.epoch = t₀.epoch → ∀ e ∈ u.sent.drop n, e.state ≠ .closed → e.packet.length ≤ M + 40

namespace Bound

variable {t₀ t t' : Tcb P} {n M : ℕ}

/-- A new connection. -/
lemma of_new (h : Bound t₀ n M t) (hok : SizesOk t'.toSizes) (he : t'.epoch = t.epoch + 1) :
    Bound t₀ n M t' := by
  have hlater : t'.epoch ≠ t₀.epoch := by
    have hle := h.epoch
    omega
  refine ⟨hok, ?_, fun hsame => absurd hsame hlater, fun hsame => absurd hsame hlater,
    fun hsame => absurd hsame hlater⟩
  rw [he]
  exact Nat.le_succ_of_le h.epoch

/-- The connection moves on, and stages nothing. -/
lemma of_move (h : Bound t₀ n M t) (hz : t'.toSizes = t.toSizes) (he : t'.epoch = t.epoch)
    (hsent : t'.sent = t.sent) (hlisten : t'.state ≠ .listen)
    (hclosed : t'.state ≠ .closed → t.state ≠ .closed) : Bound t₀ n M t' where
  sizes := by
    rw [hz]
    exact h.sizes
  epoch := by
    rw [he]
    exact h.epoch
  open_ _ := hlisten
  capped hsame hstate := by
    rw [hz]
    exact h.capped (he.symm.trans hsame) (hclosed hstate)
  sent hsame := by
    rw [hsent]
    exact h.sent (he.symm.trans hsame)

/-- A segment is staged. -/
lemma of_emits (h : Bound t₀ n M t) (hM : 536 ≤ M) {e : Emission P} (hemit : Emits t e)
    (hst : e.state = t.state) (hok : SizesOk t'.toSizes)
    (hz : t'.toSizes = t.toSizes ∨ Resized t.toSizes t'.toSizes) (he : t'.epoch = t.epoch)
    (hsent : t'.sent = t.sent ++ [e]) (hstate : t'.state = t.state) : Bound t₀ n M t' where
  sizes := hok
  epoch := by
    rw [he]
    exact h.epoch
  open_ hsame := by
    rw [hstate]
    exact h.open_ (he.symm.trans hsame)
  capped hsame hst' := by
    rw [hstate] at hst'
    have hcap := h.capped (he.symm.trans hsame) hst'
    rcases hz with hz | hz
    · rw [hz]
      exact hcap
    · exact hcap.resized hz
  sent hsame e' he' hst' := by
    have hsame' := he.symm.trans hsame
    rw [hsent, List.drop_append, List.mem_append] at he'
    rcases he' with he' | he'
    · exact h.sent hsame' e' he' hst'
    · have heq : e' = e := List.mem_singleton.mp (List.mem_of_mem_drop he')
      rw [heq] at hst' ⊢
      rw [hst] at hst'
      exact hemit.capped h.sizes (h.capped hsame' hst') hM

lemma step (hM : 536 ≤ M) (t : Tcb P) (l : Option Segment) (t' : Tcb P) (hstep : Step t l t')
    (h : Bound t₀ n M t) : Bound t₀ n M t' := by
  have hok : SizesOk t'.toSizes := stable_sizes.step t l t' hstep h.sizes
  cases hstep with
  | control hctl hh hpkt =>
    exact h.of_emits hM (.control hctl hh hpkt) rfl hok (.inl rfl) rfl rfl rfl
  | stateless hh hpkt => exact h.of_emits hM (.stateless hh hpkt) rfl hok (.inl rfl) rfl rfl rfl
  | first now hnew hshort hopts hh hlen hpkt =>
    exact h.of_emits hM (.first hnew hopts hh hlen hpkt) rfl hok (hnew.size.resized _) rfl rfl rfl
  | again now hre hpart hshort hopts hh hlen hpkt =>
    exact h.of_emits hM (.again hre hpart hopts hh hlen hpkt) rfl hok (.inl rfl) rfl rfl rfl
  | resized hz =>
    exact ⟨hok, h.epoch, h.open_, fun hsame hst => (h.capped hsame hst).resized hz, h.sent⟩
  | mtuSet hstate =>
    refine ⟨hok, h.epoch, h.open_, fun hsame hst => ?_, h.sent⟩
    rcases hstate with hclosed | hlisten
    · exact absurd hclosed hst
    · exact absurd hlisten (h.open_ hsame)
  | finWait2 hstate => exact h.of_move rfl rfl rfl nofun fun _ => by rw [hstate]; exact nofun
  | timeWait hstate => exact h.of_move rfl rfl rfl nofun fun _ => by rw [hstate]; exact nofun
  | @segment seg hstate =>
    have hframe := receiveSegment_frame t seg
    have hsync := receiveSegment_isSynchronized seg (isSynchronized_of_canRecv hstate)
    refine h.of_move (hframe.of fun t => t.toSizes) (hframe.of fun t => t.epoch)
      (hframe.of fun t => t.sent) (fun hl => ?_) fun _ hc => ?_
    · rw [hl] at hsync
      cases hsync
    · rw [hc] at hstate
      cases hstate
  | close hstate =>
    rcases hstate with ⟨hst | hst, rfl⟩ | ⟨hst, rfl⟩ <;>
      exact h.of_move rfl rfl rfl nofun fun _ => by rw [hst]; exact nofun
  | abort => exact h.of_move rfl rfl rfl nofun (absurd rfl)
  | closeClean => exact h.of_move rfl rfl rfl nofun (absurd rfl)
  | timeWaitOver => exact h.of_move rfl rfl rfl nofun (absurd rfl)
  | reset => exact h.of_new hok rfl
  | connected => exact h.of_new hok rfl
  | halfOpened => exact h.of_new hok rfl
  | cookieOpened => exact h.of_new hok rfl
  | activeOpened hstate =>
    exact ⟨hok, h.epoch, fun _ => nofun,
      fun hsame _ => { h.capped hsame (by rw [hstate]; exact nofun) with }, h.sent⟩
  | simultaneous hstate =>
    exact ⟨hok, h.epoch, fun _ => nofun,
      fun hsame _ => { h.capped hsame (by rw [hstate]; exact nofun) with }, h.sent⟩
  | passiveOpened hstate => exact h.of_move rfl rfl rfl nofun fun _ => by rw [hstate]; exact nofun
  | _ => exact ⟨h.sizes, h.epoch, h.open_, h.capped, h.sent⟩

lemma stable (t₀ : Tcb P) (n : ℕ) (hM : 536 ≤ M) : Stable (Bound t₀ n M) where
  core _ := ⟨fun h => ⟨h.sizes, h.epoch, h.open_, h.capped, h.sent⟩,
    fun h => ⟨h.sizes, h.epoch, h.open_, h.capped, h.sent⟩⟩
  step := step hM

end Bound

namespace Tcb

/-- No probe is in flight that a report of `mss` bytes per segment would leave there although it is
larger. -/
def NoLargerProbe (z : Sizes) (mss : U16) : Prop :=
  z.pmtuProbeInflight = true → z.pmtuMss.toNat < mss.toNat → z.pmtuProbeMss.toNat ≤ mss.toNat

/-- The sizes right after a report, once the segment size is lowered too. -/
lemma boundRestore_capped {t : Tcb P} {mss : U16} (h : NoLargerProbe t.toSizes mss) {pmtu : U16}
    (hpmtu : pmtu.toNat ≤ mss.toNat) :
    CappedAt mss.toNat { (boundRestore mss t).toSizes with pmtuMss := pmtu } := by
  unfold boundRestore
  dsimp only
  have hmin : (minB t.pmtuRestoreMss mss).toNat = min t.pmtuRestoreMss.toNat mss.toNat := toNat_minB _ _
  have hmin' : (minB t.pmtuMss mss).toNat = min t.pmtuMss.toNat mss.toNat := toNat_minB _ _
  split
  · exact ⟨hpmtu, Nat.zero_le _, nofun⟩
  case isFalse hlt =>
    refine ⟨hpmtu, ?_, fun hflight => h hflight ?_⟩
    · dsimp only
      omega
    · omega

/-- A report caps the sizes, and what it makes the connection send fits it. -/
lemma updatePmtu_bound {t : Tcb P} (hok : SizesOk t.toSizes) (hsync : t.state.isSynchronized = true)
    {m : U16} (hprobe : NoLargerProbe t.toSizes (mssOfMtu m)) :
    Bound t t.sent.length (mssOfMtu m).toNat (final (updatePmtu m t)) := by
  have hM : 536 ≤ (mssOfMtu m).toNat := by
    have hclamp := toNat_clampMtu m
    have hmss := toNat_mssOfMtu m
    omega
  have hstate : t.state ≠ .listen := by
    intro h
    rw [h] at hsync
    cases hsync
  -- The block with the sizes after the report.
  have hstart : ∀ (pmtu : U16) (q : RtxQueue P.RTX),
      SizesOk { (boundRestore (mssOfMtu m) t).toSizes with pmtuMss := pmtu } →
      pmtu.toNat ≤ (mssOfMtu m).toNat → Bound t t.sent.length (mssOfMtu m).toNat
        { boundRestore (mssOfMtu m) t with pmtuMss := pmtu, rtx := q } := by
    intro pmtu q hok' hle
    have hkeep : (boundRestore (mssOfMtu m) t).epoch = t.epoch ∧
        (boundRestore (mssOfMtu m) t).state = t.state ∧
        (boundRestore (mssOfMtu m) t).sent = t.sent := by
      unfold boundRestore
      dsimp only
      split <;> exact ⟨rfl, rfl, rfl⟩
    refine ⟨hok', hkeep.1.ge, fun _ => ?_, fun _ _ => boundRestore_capped hprobe hle, fun _ => ?_⟩
    · change (boundRestore (mssOfMtu m) t).state ≠ .listen
      rw [hkeep.2.1]
      exact hstate
    · intro e he
      rw [show ({ boundRestore (mssOfMtu m) t with pmtuMss := pmtu, rtx := q } : Tcb P).sent = t.sent
        from hkeep.2.2, List.drop_length] at he
      cases he
  have hbounded : SizesOk (boundRestore (mssOfMtu m) t).toSizes := by
    have hz : (boundRestore (mssOfMtu m) t).toSizes = bounded t.toSizes (mssOfMtu m) :=
      core_of (boundRestore_core (mssOfMtu m) t) fun c => c.toSizes
    rw [hz]
    exact hok.resized (.bounded m)
  unfold updatePmtu
  rw [run_modify_bind, run_get_bind]
  split
  case isTrue hle => exact hstart _ (boundRestore (mssOfMtu m) t).rtx hbounded hle
  case isFalse hgt =>
    rw [run_modify_bind, run_get_bind]
    have hlow := hbounded.resized (.lowered (not_le.mp hgt))
    split
    · rw [run_modify_bind]
      refine (Bound.stable t _ hM).run (ignoreError_refines (maybeSendData_refines (s := none) _)) ?_
      exact hstart _ _ hlow le_rfl
    · exact hstart _ (boundRestore (mssOfMtu m) t).rtx hlow le_rfl

end Tcb

/-- From a report of path MTU `m` on, every datagram staged on the connection up to its end has at most
`m` bytes (or the smallest MTU that can be reported), unless a larger probe was in flight. -/
theorem reported_mtu_binds {t : Tcb P} (ht : Reachable t) (hsync : t.state.isSynchronized = true)
    {m : U16} (hprobe : NoLargerProbe t.toSizes (mssOfMtu m)) {u : Tcb P}
    (hu : Follows (final (updatePmtu m t)) u) (hsame : u.epoch = t.epoch) :
    ∀ e ∈ u.sent.drop t.sent.length, e.state ≠ .closed →
      e.packet.length ≤ max m.toNat MIN_MTU.toNat := by
  have hclamp := toNat_clampMtu m
  have hmss := toNat_mssOfMtu m
  have hbound := hu.stable (Bound.stable t _ (by omega)) (updatePmtu_bound ht.sizes hsync hprobe)
  intro e he hst
  have hlen := hbound.sent hsame e he hst
  have hle : (clampB m MIN_MTU MAX_MTU).toNat ≤ max m.toNat MIN_MTU.toNat := by
    rw [clampB, toNat_minB, toNat_maxB]
    exact min_le_left _ _
  omega

/-! ## A probe in flight

Capacities that hold a full-sized segment, and a client whose peer takes 1460 bytes per segment. -/

def wide : Params :=
  { tiny with
    BUF := 4096
    TXQ := 16
    buf_pow2 := ⟨12, by decide, by decide⟩
    txq_pos := by decide
    txq_lt := by decide }

def wideClient : Tcb wide := Tcb.new ⟨⟨(10, 0, 0, 1), 1000⟩, ⟨(10, 0, 0, 2), 80⟩, 100, 1000⟩

/-- The handshake, and a full-sized segment on its way. -/
def wideSending : Tcb wide :=
  runAll [.connect, .injectPacket (datagram { peerSynAck with
    window := 4000, options := { TcpOptions.NONE with mss := some 1460 } } []),
    .sendReserve 1460, .sendCommit 1460, .tick, .extractPacketWith, .extractPacketWith] wideClient

lemma reachable_wideSending : Reachable wideSending := (Reachable.new _).runAll (by decide +kernel)

/-- Five timeouts clamp the segment size; then everything is acknowledged, and the next segment is a
probe of 1024 bytes. -/
def wideProbing : Tcb wide :=
  runAll [.setNow 1000, .tick, .setNow 4000, .tick, .setNow 10000, .tick, .setNow 20000, .tick,
    .setNow 40000, .tick, .injectPacket (datagram { peerAck with ack := 1561, window := 4000 } []),
    .setNow 60000, .sendReserve 1024, .sendCommit 1024, .tick] wideSending

lemma reachable_wideProbing : Reachable wideProbing :=
  reachable_wideSending.runAll (by decide +kernel)

/-- The path is reported to carry 1000 bytes, the probe arrives all the same, and there is more to
send. -/
def wideReported : Tcb wide :=
  runAll [.injectPacket (datagram { peerAck with ack := 2585, window := 4000 } []),
    .sendReserve 1024, .sendCommit 1024, .tick] (final (updatePmtu 1000 wideProbing))

/-- A probe larger than a reported MTU outlives the report: once it is acknowledged, datagrams larger
than the report go out. -/
theorem probe_in_flight_outgrows_report :
    Reachable wideProbing ∧ wideProbing.state.isSynchronized = true ∧
      Follows (final (updatePmtu 1000 wideProbing)) wideReported ∧
      wideReported.epoch = wideProbing.epoch ∧
      ∃ e ∈ wideReported.sent.drop wideProbing.sent.length, e.state = .established ∧
        e.packet.length = 1064 := by
  refine ⟨reachable_wideProbing, by decide +kernel, Follows.refl.runAll (by decide +kernel),
    by decide +kernel, ?_⟩
  have hlast : ((wideReported.sent.drop wideProbing.sent.length).getLast?.map fun e =>
      (e.state, e.packet.length)) = some (.established, 1064) := by decide +kernel
  obtain ⟨e, he, hp⟩ := Option.map_eq_some_iff.mp hlast
  rw [Prod.mk.injEq] at hp
  exact ⟨e, List.mem_of_getLast? he, hp⟩

/-- With no probe in flight, the segment that was too large is repeated in pieces that fit. -/
theorem wide_report_binds :
    ∃ e ∈ (final (updatePmtu 1000 wideSending)).sent.drop wideSending.sent.length,
      e.payload.length = 960 ∧ e.packet.length ≤ 1000 := by
  have hhead : (((final (updatePmtu 1000 wideSending)).sent.drop
      wideSending.sent.length).head?.map fun e => (e.state, e.payload.length)) =
      some (.established, 960) := by decide +kernel
  obtain ⟨e, he, hp⟩ := Option.map_eq_some_iff.mp hhead
  rw [Prod.mk.injEq] at hp
  refine ⟨e, List.mem_of_head? he, hp.2, ?_⟩
  refine reported_mtu_binds reachable_wideSending (by decide +kernel) (m := 1000) ?_ .refl
    (by decide +kernel) e (List.mem_of_head? he) (by rw [hp.1]; exact nofun)
  intro hflight
  rw [show wideSending.pmtuProbeInflight = false by decide +kernel] at hflight
  cases hflight

end TcpSansIo
