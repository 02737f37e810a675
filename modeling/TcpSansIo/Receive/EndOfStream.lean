import TcpSansIo.Receive.Intake

/-!
# The end of the stream

`Tcb.stream` is what a connection received in order: the bytes `recv` returned, then the bytes that
wait in the receive ring.  It only grows while the connection lasts and was not torn down (`Grown`),
whatever segments, timers and calls come in between.  So when `recv` reports the end of the stream to
a caller with room for a byte, everything received has been returned.

An empty destination is different: `recv` then returns nothing, takes that for an empty ring, and
reports the end of the stream although bytes are waiting (`recv_nothing_at_eof`).
-/

namespace TcpSansIo

open Proc FixedWidth

variable {P : Params}

namespace Tcb

/-- The bytes received in order: those handed to the application, then those waiting. -/
def stream (t : Tcb P) : List U8 := t.delivered ++ t.recvRing.contents

lemma Advances.stream_le {t t' : Tcb P} {n : ℕ} {f : Bool} (h : Advances t t' n f) :
    t.stream <+: t'.stream := by
  unfold Tcb.stream
  rw [h.delivered]
  exact (List.prefix_append_right_inj _).mpr h.stream

/-- Reading moves bytes from the ring to the application. -/
lemma stream_deliver (t : Tcb P) (n : ℕ) :
    t.delivered ++ (t.recvRing.read n).1 ++ (t.recvRing.read n).2.contents = t.stream := by
  have hread : t.recvRing.read n =
      (t.recvRing.contents.take n, t.recvRing.consume (t.recvRing.contents.take n).length) := by
    unfold Ring.read
    rw [Ring.peek_eq]
  rw [hread, Ring.contents_consume, List.length_take, List.append_assoc, stream]
  congr 1
  rcases le_total n t.recvRing.contents.length with h | h
  · rw [Nat.min_eq_left h, List.take_append_drop]
  · rw [Nat.min_eq_right h, List.take_of_length_le h, List.drop_length, List.append_nil]

end Tcb

open Tcb

/-! ## What lasts -/

/-- The stream of `t₀` is part of the stream of `t`, unless another connection began or this one was
torn down. -/
structure Grown (t₀ t : Tcb P) : Prop where
  epoch : t₀.epoch ≤ t.epoch
  stream : t.epoch = t₀.epoch → t.error = none → t₀.stream <+: t.stream

namespace Grown

variable {t₀ t t' : Tcb P}

lemma refl (t : Tcb P) : Grown t t := ⟨le_refl _, fun _ _ => List.prefix_rfl⟩

/-- A new connection. -/
lemma of_new (h : Grown t₀ t) (he : t'.epoch = t.epoch + 1) : Grown t₀ t' where
  epoch := by
    rw [he]
    exact Nat.le_succ_of_le h.epoch
  stream hsame := by
    have hle := h.epoch
    omega

/-- The same connection, with more received. -/
lemma of_le (h : Grown t₀ t) (he : t'.epoch = t.epoch) (herr : t'.error = none → t.error = none)
    (hs : t.stream <+: t'.stream) : Grown t₀ t' where
  epoch := by
    rw [he]
    exact h.epoch
  stream hsame hnone := (h.stream (he.symm.trans hsame) (herr hnone)).trans hs

lemma step (t₀ t : Tcb P) (l : Option Segment) (t' : Tcb P) (hstep : Step t l t') (h : Grown t₀ t) :
    Grown t₀ t' := by
  cases hstep with
  | @segment seg =>
    obtain ⟨n, f, hadv⟩ := receiveSegment_advances t seg
    have hframe := receiveSegment_frame t seg
    refine h.of_le (hframe.of fun t => t.epoch) (fun he => ?_) hadv.stream_le
    rw [← he]
    exact (hframe.of fun t => t.error).symm
  | @deliver n => exact h.of_le rfl id ((stream_deliver t n) ▸ List.prefix_rfl)
  | abort => exact ⟨h.epoch, nofun⟩
  | reset => exact h.of_new rfl
  | connected => exact h.of_new rfl
  | halfOpened => exact h.of_new rfl
  | cookieOpened => exact h.of_new rfl
  | _ => exact ⟨h.epoch, h.stream⟩

lemma stable (t₀ : Tcb P) : Stable (Grown t₀) where
  core _ := ⟨fun h => ⟨h.epoch, h.stream⟩, fun h => ⟨h.epoch, h.stream⟩⟩
  step := step t₀

end Grown

/-- The end of the stream is no error a block remembers. -/
lemma stable_error : Stable fun t : Tcb P => t.error ≠ some .connectionClosed where
  core _ := Iff.rfl
  step t l t' hstep h := by
    cases hstep with
    | @segment seg =>
      rw [show (t.receiveSegment seg).2.error = t.error from
        (receiveSegment_frame t seg).of fun t => t.error]
      exact h
    | abort => exact nofun
    | reset => exact nofun
    | connected => exact nofun
    | halfOpened => exact nofun
    | cookieOpened => exact nofun
    | _ => exact h

/-! ## Reading -/

namespace Tcb

/-- When `recv` reports the end of the stream, it read nothing. -/
lemma recv_closed {t t' : Tcb P} {cap : ℕ} (h : recv cap t = .error (.tcp .connectionClosed) t')
    (herr : t.error ≠ some .connectionClosed) :
    t.error = none ∧ min cap t.recvRing.len = 0 ∧ atEof t.state = true := by
  unfold recv at h
  rw [run_get_bind] at h
  cases hnone : t.error with
  | some e =>
    rw [hnone] at h
    cases h
    exact absurd hnone herr
  | none =>
    rw [hnone] at h
    dsimp only at h
    rw [run_modify_bind] at h
    split at h
    case isTrue =>
      -- Something was read: the window update that follows cannot fail.
      rw [run_modify_bind] at h
      obtain ⟨u, hrun, -⟩ := maybeSendWindowUpdate_runs none (restartFinWait2 { t with
        recvRing := (t.recvRing.read cap).2, delivered := t.delivered ++ (t.recvRing.read cap).1 })
      rw [run_bind_ok hrun] at h
      cases h
    case isFalse hlen =>
      split at h
      case isTrue heof =>
        refine ⟨rfl, ?_, heof⟩
        rw [← Ring.length_peek]
        exact Nat.eq_zero_of_not_pos hlen
      case isFalse => cases h

/-- A read of nothing, in a state where nothing more can come, is taken for the end of the stream. -/
lemma recv_at_eof {t : Tcb P} {cap : ℕ} (herr : t.error = none) (hnil : min cap t.recvRing.len = 0)
    (heof : atEof t.state = true) : ∃ t', recv cap t = .error (.tcp .connectionClosed) t' := by
  have hlen : ¬ 0 < (t.recvRing.read cap).1.length := by
    rw [show (t.recvRing.read cap).1 = t.recvRing.peek cap from rfl, Ring.length_peek, hnil]
    exact lt_irrefl 0
  unfold recv
  rw [run_get_bind, herr]
  dsimp only
  rw [run_modify_bind, if_neg hlen, if_pos heof]
  exact ⟨_, rfl⟩

/-- A read of `cap` bytes is not one of nothing while bytes are waiting at the end of the stream. -/
def ReadOk (t : Tcb P) (cap : ℕ) : Prop :=
  0 < cap ∨ t.recvRing.len = 0 ∨ t.error ≠ none ∨ atEof t.state = false

/-- Such a read reports the end of the stream only when no byte is waiting. -/
lemma ReadOk.drained {t t' : Tcb P} {cap : ℕ} (h : t.ReadOk cap) (herr : t.error ≠ some .connectionClosed)
    (hrun : recv cap t = .error (.tcp .connectionClosed) t') : t.error = none ∧ t.recvRing.len = 0 := by
  obtain ⟨hnone, hmin, heof⟩ := recv_closed hrun herr
  refine ⟨hnone, ?_⟩
  rcases h with hcap | hempty | hsome | hopen
  · omega
  · exact hempty
  · exact absurd hnone hsome
  · rw [hopen] at heof
    cases heof

end Tcb

/-- `recv` reports the end of the stream only when no byte is waiting exactly if it is not a read of
nothing while bytes are waiting at the end of the stream.  So by then everything the connection received
in order has been returned. -/
theorem end_of_stream_after_all_data {t : Tcb P} (ht : Reachable t) :
    (∀ cap, (∀ t', recv cap t = .error (.tcp .connectionClosed) t' → t.recvRing.len = 0) ↔ t.ReadOk cap) ∧
      ∀ u, Follows t u → u.epoch = t.epoch → ∀ cap u', u.ReadOk cap →
        recv cap u = .error (.tcp .connectionClosed) u' → t.stream <+: u.delivered := by
  have hopen {u : Tcb P} (hu : Reachable u) : u.error ≠ some .connectionClosed :=
    hu.stable stable_error fun _ => nofun
  refine ⟨fun cap => ⟨fun hall => ?_, fun hok t' hrun => (hok.drained (hopen ht) hrun).2⟩,
    fun u hu he cap u' hok hrun => ?_⟩
  · -- Otherwise the read draws the end of the stream.
    by_contra hbad
    simp only [ReadOk, not_or, not_lt, Nat.le_zero, Ne, not_not, Bool.not_eq_false] at hbad
    obtain ⟨hcap, hlen, herr, heof⟩ := hbad
    have hmin : min cap t.recvRing.len = 0 := by rw [hcap, Nat.zero_min]
    obtain ⟨t', hrun⟩ := recv_at_eof herr hmin heof
    exact hlen (hall t' hrun)
  · obtain ⟨hnone, hlen⟩ := hok.drained (hopen (hu.reachable ht)) hrun
    have hgrown := (hu.stable (Grown.stable t) (Grown.refl t)).stream he hnone
    have hnil : u.recvRing.contents = [] := by
      rw [← List.length_eq_zero_iff, Ring.length_contents, hlen]
    rwa [Tcb.stream, Tcb.stream, hnil, List.append_nil] at hgrown

/-- The tiny client after a byte and the peer's FIN, before it read the byte. -/
def tinyEnded : Tcb tiny :=
  runAll [.injectPacket (datagram { peerAck with flags := { ack := true, fin := true } } [65])] tinyOpen

lemma reachable_tinyEnded : Reachable tinyEnded := reachable_tinyOpen.runAll (by decide +kernel)

/-- The byte before the FIN is returned before the end of the stream is reported. -/
theorem tiny_reads_before_eof :
    ∃ u : Tcb tiny, Follows tinyEnded u ∧ (∃ u', recv 1 u = .error (.tcp .connectionClosed) u') ∧
      tinyEnded.stream = [65] ∧ tinyEnded.stream <+: u.delivered := by
  have hfollows : Follows tinyEnded (runAll [.recv 8] tinyEnded) :=
    Follows.refl.runAll (by decide +kernel)
  obtain ⟨u', hrun⟩ : ∃ u', recv 1 (runAll [.recv 8] tinyEnded) = .error (.tcp .connectionClosed) u' :=
    recv_at_eof (by decide +kernel) (by decide +kernel) (by decide +kernel)
  exact ⟨_, hfollows, ⟨u', hrun⟩, by decide +kernel,
    (end_of_stream_after_all_data reachable_tinyEnded).2 _ hfollows (by decide +kernel) 1 u'
      (.inl Nat.one_pos) hrun⟩

/-- An empty destination draws the end of the stream although a byte is waiting. -/
theorem recv_nothing_at_eof :
    ∃ t : Tcb tiny, Reachable t ∧ t.recvRing.len = 1 ∧
      ∃ t', recv 0 t = .error (.tcp .connectionClosed) t' :=
  ⟨tinyEnded, reachable_tinyEnded, by decide +kernel,
    recv_at_eof (by decide +kernel) (Nat.zero_min _) (by decide +kernel)⟩

end TcpSansIo
