import TcpSansIo.Send.Flight

/-!
# The peer's window on the send side

`SND.UNA + SND.WND` is the edge of what the peer allows us to send, and `SND.NXT` the first sequence
number never sent.  A retransmission stays below `SND.NXT`; what is sent for the first time was cut to
the usable window.  So every new data byte lies before the edge as it is when the byte is staged, and
beyond it there is only a FIN, or the SYN, which goes out before the peer has opened any window
(`new_numbers_within_window`).
-/

namespace TcpSansIo

open Proc FixedWidth

variable {P : Params}

namespace Emission

/-- How many sequence numbers the segment takes. -/
def span (e : Emission P) : ℕ :=
  e.payload.length + e.header.flags.syn.toNat + e.header.flags.fin.toNat

/-- Where the segment's `k`-th sequence number lies, counted from `SND.UNA`. -/
def pos (e : Emission P) (k : ℕ) : ℕ := (e.header.seq - e.sndUna).toNat + k

/-- The segment's `k`-th sequence number was never sent before. -/
def New (e : Emission P) (k : ℕ) : Prop := (e.sndNxt - e.sndUna).toNat ≤ e.pos k

/-- The segment's `k`-th sequence number is the SYN. -/
def SynAt (e : Emission P) (k : ℕ) : Prop := e.header.flags.syn = true ∧ k = 0

/-- The segment's `k`-th sequence number is the FIN. -/
def FinAt (e : Emission P) (k : ℕ) : Prop := e.header.flags.fin = true ∧ k = e.payload.length

/-- New data ends before the edge of the window, and nothing new lies beyond it but a FIN or a SYN. -/
structure InWindow (e : Emission P) : Prop where
  data : e.payload ≠ [] → e.header.seq = e.sndNxt → e.pos e.payload.length ≤ e.sndWnd.toNat
  beyond : ∀ k < e.span, e.New k → e.sndWnd.toNat ≤ e.pos k → e.FinAt k ∨ e.SynAt k

/-- A segment without data and FIN. -/
lemma InWindow.of_control {e : Emission P} (hdata : e.payload = []) (hfin : e.header.flags.fin = false) :
    e.InWindow := by
  refine ⟨fun h => absurd hdata h, fun k hk _ _ => .inr ?_⟩
  unfold span at hk
  rw [hdata, hfin] at hk
  cases hsyn : e.header.flags.syn with
  | false =>
    rw [hsyn] at hk
    cases hk
  | true =>
    rw [hsyn] at hk
    exact ⟨hsyn, Nat.lt_one_iff.mp hk⟩

end Emission

namespace Tcb

/-- Only the flags of congestion notification differ from those asked for. -/
lemma PeerHeader.fin {t : Tcb P} {fl : Flags} {seq ack : U32} {opts : TcpOptions} {h : Header}
    (hh : t.PeerHeader fl seq ack opts h) : h.flags.fin = fl.fin := by
  obtain ⟨ece, cwr, hfl, -⟩ := hh.flags
  rw [hfl]

lemma PeerHeader.syn {t : Tcb P} {fl : Flags} {seq ack : U32} {opts : TcpOptions} {h : Header}
    (hh : t.PeerHeader fl seq ack opts h) : h.flags.syn = fl.syn := by
  obtain ⟨ece, cwr, hfl, -⟩ := hh.flags
  rw [hfl]

lemma Control.fin {t : Tcb P} {fl : Flags} {seq ack : U32} {opts : TcpOptions}
    {d : Option (U32 × U32)} (h : t.Control fl seq ack opts d) : fl.fin = false := by
  cases h <;> rfl

namespace Flight

variable {t : Tcb P}

/-- The usable window is what the edge leaves beyond `SND.NXT`: too little is outstanding for the
comparison of sequence numbers to be wrong about a window that shrank. -/
lemma usable_le (h : Flight t) (hpos : 0 < t.usableWindow.toNat) :
    (t.sndNxt - t.sndUna).toNat + t.usableWindow.toNat ≤ t.sndWnd.toNat := by
  have hlt := h.flight_lt
  unfold usableWindow at hpos ⊢
  dsimp only at hpos ⊢
  split at hpos
  case isTrue hgt =>
    rw [if_pos hgt]
    rw [seqGt_iff] at hgt
    have hsub : t.sndUna + t.sndWnd - t.sndNxt = t.sndWnd - (t.sndNxt - t.sndUna) := by bv_omega
    rw [hsub] at hgt hpos ⊢
    generalize t.sndNxt - t.sndUna = flight at *
    clear hsub
    bv_omega
  case isFalse => cases hpos

/-- A record that is sent again lies below `SND.NXT`. -/
lemma resent_le (h : Flight t) {s : Seg} (hs : s ∈ t.rtx.records) :
    (s.start - t.sndUna).toNat + s.seqLen.toNat ≤ (t.sndNxt - t.sndUna).toNat := by
  have hle := h.queue.record_le hs
  have hlt := h.out_lt
  have hflag := Bool.toNat_le t.synUnacked
  unfold out at hlt
  have hsplit : s.start - t.sndUna = (s.start - t.dataUna) + ofFlag 32 t.synUnacked := by
    unfold dataUna synOutstanding
    bv_omega
  have hsum : (s.start - t.sndUna).toNat = (s.start - t.dataUna).toNat + t.synUnacked.toNat := by
    rw [hsplit, BitVec.toNat_add, toNat_ofFlag (by decide), Nat.mod_eq_of_lt (by omega)]
  rw [hsum, h.flight_eq, out]
  omega

end Flight

lemma Emits.inWindow {t : Tcb P} {e : Emission P} (hf : Flight t) (h : Emits t e) : e.InWindow := by
  cases h with
  | control hctl hh hpkt => exact .of_control rfl (hh.fin.trans hctl.fin)
  | stateless hh hpkt =>
    refine .of_control rfl ?_
    rcases hh with hfl | ⟨-, -, hfin, -⟩
    · exact (congrArg Flags.fin hfl).trans rfl
    · exact hfin
  | syn hstate hsyn hctl hh hpkt => exact .of_control rfl (hh.fin.trans hctl.fin)
  | synack hstate hsyn hctl hh hpkt => exact .of_control rfl (hh.fin.trans hctl.fin)
  | @first len fin probe opts d h pkt ring hnew hopts hh hlen hpkt =>
    have hedge : 0 < len.toNat → (t.sndNxt - t.sndUna).toNat + len.toNat ≤ t.sndWnd.toNat := by
      intro hpos
      have hwin := hnew.window
      have huse := hf.usable_le (hpos.trans_le hwin)
      omega
    refine ⟨fun hdata _ => ?_, fun k hk _ hout => .inl ?_⟩
    · change (h.seq - t.sndUna).toNat + (t.bytesAt t.sndNxt len).length ≤ _
      rw [hh.seq, hlen]
      exact hedge (by rw [← hlen]; exact List.length_pos_iff.mpr hdata)
    · -- A byte of data lies before the edge, so what is beyond it is the FIN.
      change k < (t.bytesAt t.sndNxt len).length + h.flags.syn.toNat + h.flags.fin.toNat at hk
      change t.sndWnd.toNat ≤ (h.seq - t.sndUna).toNat + k at hout
      rw [hlen, hh.syn] at hk
      rw [hh.seq] at hout
      change k < len.toNat + 0 + h.flags.fin.toNat at hk
      have hbyte : ¬ k < len.toNat := by
        intro hlt
        have := hedge (by omega)
        omega
      cases hfin : h.flags.fin with
      | false =>
        rw [hfin] at hk
        exact absurd hk hbyte
      | true =>
        rw [hfin] at hk
        change k < len.toNat + 0 + 1 at hk
        refine ⟨hfin, ?_⟩
        change k = (t.bytesAt t.sndNxt len).length
        rw [hlen]
        omega
  | @again i s len opts d h pkt ring hre hpart hopts hh hlen hpkt =>
    have hle := hf.resent_le (RtxQueue.mem_of_get hre.record)
    have hpos := (hf.queue.ok s (RtxQueue.mem_of_get hre.record)).pos
    have hpay := s.toNat_payloadLen
    have hflag := Bool.toNat_le s.flags.fin
    have hshort : len.toNat ≤ s.payloadLen.toNat := by
      rw [hpart, toNat_minB]
      exact min_le_left _ _
    refine ⟨fun _ hseq => ?_, fun k hk hnew _ => ?_⟩
    · -- A record does not start at `SND.NXT`.
      change h.seq = t.sndNxt at hseq
      rw [hh.seq] at hseq
      rw [hseq] at hle
      omega
    · change k < (t.bytesAt s.start len).length + h.flags.syn.toNat + h.flags.fin.toNat at hk
      change (t.sndNxt - t.sndUna).toNat ≤ (h.seq - t.sndUna).toNat + k at hnew
      rw [hlen, hh.syn, hh.fin] at hk
      rw [hh.seq] at hnew
      change k < len.toNat + 0 + (s.flags.fin && len == s.payloadLen).toNat at hk
      have hfin : (s.flags.fin && len == s.payloadLen).toNat ≤ s.flags.fin.toNat := by
        cases s.flags.fin
        · exact le_rfl
        · exact Bool.toNat_le _
      omega

end Tcb

/-- What is sent for the first time lies in the window the peer has open at that moment; only a FIN and
the SYN may lie at or beyond its edge. -/
theorem new_numbers_within_window {t : Tcb P} (ht : Reachable t) : ∀ e ∈ t.sent, e.InWindow := by
  have hstable : Stable fun t : Tcb P => t.Flight ∧ ∀ e ∈ t.sent, e.InWindow :=
    Tcb.Flight.stable.sent fun t e hf hemit => hemit.inWindow hf
  exact (ht.stable hstable fun cfg => ⟨(Reachable.new cfg).flight, new_sent cfg⟩).2

/-- Two bytes from the tiny client, into a window of 64. -/
theorem tiny_data_within_window :
    ∃ t : Tcb tiny, ∃ e ∈ t.sent, Reachable t ∧ e.payload = [65, 66] ∧ e.sndWnd = 64 ∧
      e.pos 2 ≤ 64 := by
  have hreach : Reachable (runAll [.send [65, 66], .tick] tinyOpen) :=
    reachable_tinyOpen.runAll (by decide +kernel)
  have hlast : (runAll [.send [65, 66], .tick] tinyOpen).sent.getLast?.map
      (fun e => (e.payload, e.sndWnd, decide (e.header.seq = e.sndNxt))) =
      some ([65, 66], 64, true) := by decide +kernel
  obtain ⟨e, he, hp⟩ := Option.map_eq_some_iff.mp hlast
  rw [Prod.mk.injEq, Prod.mk.injEq, decide_eq_true_iff] at hp
  have hmem := List.mem_of_getLast? he
  have hin := (new_numbers_within_window hreach e hmem).data (by rw [hp.1]; exact nofun) hp.2.2
  rw [hp.1, hp.2.1] at hin
  exact ⟨_, e, hmem, hreach, hp.1, hp.2.1, hin⟩

/-- The SYN goes out while the window is still closed: it lies at the edge and is not a FIN. -/
theorem syn_sent_at_window_edge :
    ∃ t : Tcb tiny, ∃ e ∈ t.sent, Reachable t ∧ 0 < e.span ∧ e.New 0 ∧ e.sndWnd.toNat ≤ e.pos 0 ∧
      ¬ e.FinAt 0 := by
  have hreach : Reachable (runAll [.connect] tinyClient) := (Reachable.new _).runAll (by decide +kernel)
  have hlast : (runAll [.connect] tinyClient).sent.getLast?.map (fun e => (e.span, e.pos 0,
      (e.sndNxt - e.sndUna).toNat, e.sndWnd, e.header.flags.fin)) = some (1, 0, 0, 0, false) := by
    decide +kernel
  obtain ⟨e, he, hp⟩ := Option.map_eq_some_iff.mp hlast
  simp only [Prod.mk.injEq] at hp
  obtain ⟨hspan, hpos, hnxt, hwnd, hfin⟩ := hp
  refine ⟨_, e, List.mem_of_getLast? he, hreach, hspan ▸ Nat.one_pos, ?_, ?_, ?_⟩
  · rw [Emission.New, hnxt]
    exact Nat.zero_le _
  · rw [hwnd]
    exact Nat.zero_le _
  · rintro ⟨h, -⟩
    rw [hfin] at h
    cases h

end TcpSansIo
