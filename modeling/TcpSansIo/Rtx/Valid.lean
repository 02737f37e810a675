import TcpSansIo.Rtx.Scoreboard

/-!
# The retransmission queue of a connection

`Valid q a b f` is the scoreboard of a connection: a `Board` whose records are no longer than a full
segment with a FIN.  A full queue of such records covers far less than half the sequence space, so
nothing has to be assumed of how much is outstanding.
-/

namespace TcpSansIo

open FixedWidth

namespace RtxQueue

variable {CAP : ℕ} [RtxCap CAP] {q q' : RtxQueue CAP} {a b : U32} {f : Option Bool}

/-- The records cover `[a, b)`, and the counters and the bitmap agree with the records.  With
`f = some on`, the FIN (if `on`) is the last sequence number of it. -/
structure Valid (q : RtxQueue CAP) (a b : U32) (f : Option Bool) : Prop where
  chain : Chain a q.records b
  ok : ∀ s ∈ q.records, s.Ok
  fin : ∀ on ∈ f, ∀ s ∈ q.records, s.flags.fin = (on && s.stop == b)
  counts : q.counts = shares q.records
  exact : q.saturated = false
  map : q.MapOk

namespace Valid

lemma length_le (q : RtxQueue CAP) : q.records.length ≤ 1024 := by
  rw [RingQueue.length_toList]
  exact q.segs.len_le.trans (RtxCap.le (n := CAP))

/-- Far less than half the sequence space is ever covered. -/
lemma span_lt (h : Valid q a b f) : span q.records < 2 ^ 21 := by
  have := span_le fun s hs => (h.ok s hs).short
  have := length_le q
  omega

lemma board (h : Valid q a b f) : Board 1461 false q a b f where
  chain := h.chain
  sound s hs := (Seg.ok_iff.1 (h.ok s hs)).1
  short s hs := (h.ok s hs).short
  half := h.span_lt.trans (by decide)
  fin := h.fin
  counts := h.counts
  exact := h.exact
  map := h.map

lemma of_board (h : Board 1461 false q a b f) : Valid q a b f where
  chain := h.chain
  ok s hs := Seg.ok_iff.2 ⟨h.sound s hs, h.short s hs⟩
  fin := h.fin
  counts := h.counts
  exact := h.exact
  map := h.map

lemma span_eq (h : Valid q a b f) : (b - a).toNat = span q.records := h.board.span_eq

lemma clear {q : RtxQueue CAP} (h : q.saturated = false) (a : U32) (f : Option Bool) :
    Valid q.clear a a f := of_board (.of_nil rfl rfl h)

/-- A record lies inside what the queue covers. -/
lemma record_le {s : Seg} (h : Valid q a b f) (hs : s ∈ q.records) :
    (s.start - a).toNat + s.seqLen.toNat ≤ (b - a).toNat := h.board.record_le hs

lemma setLostHint {i : ℕ} (h : Valid q a b f) (hi : i ≤ q.segs.len) :
    Valid (q.setLostHint i hi) a b f := of_board (h.board.setLostHint hi)

lemma setFlags {i : ℕ} {s : Seg} {flags : SegFlags} (h : Valid q a b f) (hs : q.get i = some s)
    (hfin : flags.fin = s.flags.fin)
    (hok : ({ s with flags := flags, sent := if flags.isPartial then s.sent else 0 } : Seg).Sound) :
    Valid (q.setFlags i flags) a b f := of_board (h.board.setFlags hs hfin hok)

/-- What every step of a fold keeps, the fold keeps. -/
lemma foldl {g : RtxQueue CAP → ℕ → RtxQueue CAP}
    (hg : ∀ (q : RtxQueue CAP) (i : ℕ), Valid q a b f → Valid (g q i) a b f) (l : List ℕ)
    (h : Valid q a b f) : Valid (l.foldl g q) a b f := by
  induction l generalizing q with
  | nil => exact h
  | cons i l ih => exact ih (hg q i h)

lemma markLost (h : Valid q a b f) (i : ℕ) : Valid (q.markLost i) a b f :=
  of_board (h.board.markLost i)

lemma markAllLost (h : Valid q a b f) : Valid q.markAllLost a b f := of_board h.board.markAllLost

lemma unmarkLost (h : Valid q a b f) : Valid q.unmarkLost a b f := of_board h.board.unmarkLost

lemma clearSacked (h : Valid q a b f) : Valid q.clearSacked a b f := of_board h.board.clearSacked

lemma nextLost (h : Valid q a b f) : Valid q.nextLost.2 a b f := of_board h.board.nextLost

/-- Retransmitting a record that is not SACKed, whole (`sent = 0`) or a proper prefix of it. -/
lemma retransmitted {i : ℕ} {s : Seg} {sent : U16} (h : Valid q a b f) (hs : q.get i = some s)
    (hsacked : s.flags.sacked = false) (hsent : sent = 0 ∨ sent.toNat < s.payloadLen.toNat)
    (now : U64) : Valid (q.retransmitted i now sent) a b f :=
  of_board (h.board.retransmitted hs hsacked hsent now)

/-- Appending the record of a fresh transmission; no FIN is known to be out before it. -/
lemma push {s : Seg} (h : Valid q a b f) (hf : ∀ on ∈ f, on = false)
    (hroom : q.segs.len < CAP) (hstart : s.start = b) (hok : s.Ok) (hfresh : s.share = 0) :
    (q.push s).1 = true ∧ Valid (q.push s).2 a s.stop (f.map fun _ => s.flags.fin) := by
  have hspan := h.span_lt
  have hshort := hok.short
  obtain ⟨hpushed, hboard⟩ := h.board.push hf hroom hstart (Seg.ok_iff.1 hok).1 hshort (by omega)
    hfresh
  exact ⟨hpushed, of_board hboard⟩

lemma split {i : ℕ} {cut : U32} (h : Valid q a b f) : Valid (q.split i cut).2 a b f :=
  of_board h.board.split

lemma markSacked {i : ℕ} {s : Seg} (h : Valid q a b f) (hs : q.get i = some s) :
    Valid (q.setFlags i { s.flags with
      sacked := true, lost := false, retrans := false, isPartial := false }) a b f :=
  of_board (h.board.markSacked hs)

lemma splitLeftEdge (h : Valid q a b f) (i : ℕ) (l : U32) :
    Valid (q.splitLeftEdge i l).2 a b f := of_board (h.board.splitLeftEdge i l)

lemma sack (h : Valid q a b f) (left right : U32) : Valid (q.sack left right).queue a b f :=
  of_board (h.board.sack left right)

/-- Dropping the first record: the chain begins where it ended. -/
lemma dropFirst {s : Seg} (h : Valid q a b f) (hs : q.get 0 = some s) :
    Valid (q.addCounts s false).dropFirst s.stop b f := of_board (h.board.dropFirst hs)

/-- A cumulative acknowledgment inside the queue leaves what lies above it. -/
lemma ackTo {una : U32} (h : Valid q a b f) (hin : (una - a).toNat ≤ (b - a).toNat) :
    Valid (q.ackTo una).queue una b f := of_board (h.board.ackTo hin)

end Valid

end RtxQueue

end TcpSansIo
