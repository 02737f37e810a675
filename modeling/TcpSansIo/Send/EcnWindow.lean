import TcpSansIo.Send.AckLedger

/-!
# One reduction per window for echoed marks

An ACK that echoes a congestion mark halves the window.  `owed` is how far `SND.UNA` still has to move
after the last such ACK to reach what was `SND.NXT` then.  As long as something is owed the window stays
reduced (`Pend`), through losses, timeouts, D-SACKs and tail loss probes, so no mark starts another
reduction: `marks_once_per_window`.
-/

namespace TcpSansIo

open Proc FixedWidth

variable {P : Params}

namespace LossEvent

/-- How far `SND.UNA` moves. -/
def advance : LossEvent → ℕ
  | .acked r => (r.after.una - r.before.una).toNat
  | .forgot => 0

/-- A congestion mark was echoed, and the window reduced for it. -/
def marked : LossEvent → Bool
  | .acked r => r.cwr
  | .forgot => false

/-- What is owed afterwards if `d` was before. -/
def owes (d : ℕ) : LossEvent → ℕ
  | .acked r => if r.cwr then (r.after.nxt - r.after.una).toNat else d - (r.after.una - r.before.una).toNat
  | .forgot => d

/-- Where the last ACK left `SND.UNA`. -/
def leaves (u : Option U32) : LossEvent → Option U32
  | .acked r => some r.after.una
  | .forgot => u

end LossEvent

/-- How far `SND.UNA` still has to move. -/
def owed (h : List LossEvent) : ℕ := h.foldl LossEvent.owes 0

/-- `SND.UNA` after the last ACK. -/
def lastUna (h : List LossEvent) : Option U32 := h.foldl LossEvent.leaves none

@[simp] lemma owed_concat (h : List LossEvent) (e : LossEvent) : owed (h ++ [e]) = e.owes (owed h) := by
  simp [owed]

@[simp] lemma lastUna_concat (h : List LossEvent) (e : LossEvent) :
    lastUna (h ++ [e]) = e.leaves (lastUna h) := by
  simp [lastUna]

/-- Nothing is owed when a mark reduces the window, and `SND.UNA` is where the last ACK left it. -/
def Spaced (h : List LossEvent) : Prop :=
  ∀ l r, l ++ [.acked r] <+: h → (r.cwr = true → owed l = 0) ∧ ∀ u ∈ lastUna l, r.before.una = u

lemma Spaced.concat {h : List LossEvent} {e : LossEvent} (hs : Spaced h)
    (he : ∀ r, e = .acked r → (r.cwr = true → owed h = 0) ∧ ∀ u ∈ lastUna h, r.before.una = u) :
    Spaced (h ++ [e]) := by
  intro l r hl
  rcases List.prefix_concat_iff.mp hl with heq | hpre
  · obtain ⟨rfl, htail⟩ := List.append_inj' heq rfl
    cases htail
    exact he r rfl
  · exact hs l r hpre

/-- Along events that keep to this, what was owed at the start is covered at the end if nothing is owed
there. -/
lemma le_advance {l : List LossEvent} {d : ℕ}
    (hs : ∀ l₁ r l₂, l = l₁ ++ .acked r :: l₂ → r.cwr = true → l₁.foldl LossEvent.owes d = 0)
    (hend : l.foldl LossEvent.owes d = 0) : d ≤ (l.map LossEvent.advance).sum := by
  induction l generalizing d with
  | nil => exact hend.le
  | cons e l ih =>
    rw [List.map_cons, List.sum_cons]
    have hrest : ∀ l₁ r l₂, l = l₁ ++ .acked r :: l₂ → r.cwr = true →
        l₁.foldl LossEvent.owes (e.owes d) = 0 :=
      fun l₁ r l₂ hl hr => hs (e :: l₁) r l₂ (by rw [hl]; rfl) hr
    have hle := ih hrest hend
    cases e with
    | forgot =>
      change d ≤ 0 + _
      rw [Nat.zero_add]
      exact hle
    | acked r =>
      by_cases hr : r.cwr = true
      · have hzero : d = 0 := hs [] r l rfl hr
        omega
      · simp only [LossEvent.owes, if_neg hr] at hle
        simp only [LossEvent.advance]
        omega

/-- How far `SND.UNA` moved along them. -/
lemma lastUna_append {h l : List LossEvent} {u : U32} (hs : Spaced (h ++ l)) (hu : lastUna h = some u) :
    lastUna (h ++ l) = some (u + BitVec.ofNat 32 (l.map LossEvent.advance).sum) := by
  induction l using List.reverseRecOn with
  | nil =>
    rw [List.append_nil, hu]
    exact congrArg some (BitVec.add_zero u).symm
  | append_singleton l e ih =>
    rw [← List.append_assoc] at hs ⊢
    have hlast := ih fun l' r hl => hs l' r (hl.trans (List.prefix_append _ _))
    rw [lastUna_concat, List.map_append, List.sum_append]
    cases e with
    | forgot => exact hlast
    | acked r =>
      have hstart : r.before.una = _ := (hs _ r List.prefix_rfl).2 _ (by rw [hlast]; rfl)
      have hend : r.after.una = r.before.una + BitVec.ofNat 32 (r.after.una - r.before.una).toNat := by
        rw [BitVec.ofNat_toNat, BitVec.setWidth_eq, BitVec.add_comm, BitVec.sub_add_cancel]
      change some r.after.una = _
      rw [hend, hstart, BitVec.ofNat_add, ← BitVec.add_assoc, ← hstart]
      simp [LossEvent.advance]

namespace Tcb

/-- What is owed, the window stays reduced for. -/
def Owes (t : Tcb P) : Prop :=
  (t.line.length < 2 ^ 30 → 0 < owed t.history → Pend (owed t.history) t) ∧
    ∀ u ∈ lastUna t.history, t.sndUna = u

lemma owed_forgets (h : List LossEvent) (k : ℕ) :
    owed (h ++ List.replicate k .forgot) = owed h ∧ lastUna (h ++ List.replicate k .forgot) = lastUna h := by
  induction k with
  | zero => rw [List.replicate_zero, List.append_nil]; exact ⟨rfl, rfl⟩
  | succ k ih =>
    rw [List.replicate_succ', ← List.append_assoc, owed_concat, lastUna_concat]
    exact ih

lemma owed_unacked {h : List LossEvent} (hno : ∀ r, LossEvent.acked r ∉ h) :
    owed h = 0 ∧ lastUna h = none := by
  have hall : h = List.replicate h.length .forgot := by
    refine List.eq_replicate_of_mem fun e he => ?_
    cases e with
    | forgot => rfl
    | acked r => exact absurd he (hno r)
  have hnone := owed_forgets [] h.length
  rw [List.nil_append, ← hall] at hnone
  exact hnone

/-- An ACK that reduces the window comes when nothing is owed, and what it owes the window stays reduced
for. -/
lemma Owes.reacts {t t' : Tcb P} {r : AckRecord} (hf : Flight t) (hr : Reacted t t' r)
    (hs : Spaced t.history) (h : Owes t) : Spaced t'.history ∧ Owes t' := by
  have hshort : t.line.length < 2 ^ 30 := by
    rw [← hf.line_length]
    exact hf.out_lt.trans (by decide)
  have hadv : r.after.una - r.before.una = t'.sndUna - t.sndUna := by rw [hr.before, hr.after]; rfl
  have hafter : r.after.una = t'.sndUna := by rw [hr.after]; rfl
  have hnxt : r.after.nxt = t'.sndNxt := by rw [hr.after]; rfl
  refine ⟨?_, ?_⟩
  · rw [hr.history]
    refine hs.concat fun r' he => ?_
    obtain rfl := LossEvent.acked.inj he
    refine ⟨fun hcwr => Nat.eq_zero_of_not_pos fun hpos => ?_, fun u hu => ?_⟩
    · -- Something is owed: the window is reduced already.
      rw [(hr.reduced _ hpos (h.1 hshort hpos)).1] at hcwr
      cases hcwr
    · rw [hr.before]
      exact h.2 u hu
  · rw [Owes, hr.history, owed_concat, lastUna_concat]
    refine ⟨fun _ hpos => ?_, fun u hu => ?_⟩
    · simp only [LossEvent.owes] at hpos ⊢
      by_cases hcwr : r.cwr = true
      · rw [if_pos hcwr, hnxt, hafter]
        exact (hr.reduces hcwr).2
      · rw [if_neg hcwr, hadv] at hpos ⊢
        exact (hr.reduced _ (by omega) (h.1 hshort (by omega))).2 (by omega)
    · cases hu
      exact hafter.symm

lemma marks_accounts : Accounts (P := P) (fun _ => Spaced) Owes where
  start _ h hno := fun l r hl => absurd (hl.subset (by simp)) (hno r)
  forgets _ h hs := hs.concat fun r hr => LossEvent.noConfusion hr
  fresh t ht := by
    obtain ⟨hzero, hnone⟩ := owed_unacked ht.unacked
    refine ⟨fun _ hpos => ?_, fun u hu => ?_⟩
    · rw [hzero] at hpos
      cases hpos
    · rw [hnone] at hu
      cases hu
  carries t t' hc h := by
    obtain ⟨k, hk⟩ := hc.history
    obtain ⟨n, -, hlen, -⟩ := hc.sent
    obtain ⟨howed, hlast⟩ := owed_forgets t.history k
    rw [Owes, hk, howed, hlast, hc.una]
    exact ⟨fun hlt hpos => hc.pending hlt _ hpos (h.1 (by omega) hpos), h.2⟩
  reacts t t' r hf hr hs h := Owes.reacts hf hr hs h

end Tcb

open Tcb

/-- Between two ACKs that reduce the window for an echoed mark, `SND.UNA` moves to where `SND.NXT` was at
the first of them, or further. -/
theorem marks_once_per_window {t : Tcb P} (h : Reachable t) {l m : List LossEvent} {r r' : AckRecord}
    (hrun : l ++ [.acked r] ++ m ++ [.acked r'] <+: t.history) (hr : r.cwr = true) (hr' : r'.cwr = true) :
    (r.after.nxt - r.after.una).toNat ≤ (m.map LossEvent.advance).sum ∧
      r'.before.una = r.after.una + BitVec.ofNat 32 (m.map LossEvent.advance).sum := by
  have hspaced : Spaced t.history := (marks_accounts.reachable h).past
  have hpre : l ++ [.acked r] ++ m <+: t.history := (List.prefix_append _ _).trans hrun
  have hstart : owed (l ++ [.acked r]) = (r.after.nxt - r.after.una).toNat := by
    rw [owed_concat, LossEvent.owes, if_pos hr]
  have hfold (m' : List LossEvent) : owed (l ++ [.acked r] ++ m') =
      m'.foldl LossEvent.owes (r.after.nxt - r.after.una).toNat := by
    rw [← hstart, owed, List.foldl_append]
    rfl
  constructor
  · refine le_advance (fun l₁ s l₂ hm hs => ?_) ?_
    · rw [← hfold]
      refine (hspaced _ s ?_).1 hs
      refine List.IsPrefix.trans ?_ hpre
      rw [hm]
      exact ⟨l₂, by simp⟩
    · rw [← hfold]
      exact (hspaced _ r' hrun).1 hr'
  · refine (hspaced _ r' hrun).2 _ ?_
    refine lastUna_append (fun l' s hl => hspaced l' s (hl.trans hpre)) ?_
    rw [lastUna_concat]
    rfl

/-- A client whose peer echoes a mark in the middle of one window, and again in the middle of the next. -/
def tinyMarked : Tcb tiny := runAll
  [.connect, .extractPacketWith,
    .injectPacket (datagram { peerSynAck with flags := { syn := true, ack := true, ece := true } } []),
    .extractPacketWith, .send [1, 2, 3], .tick, .extractPacketWith,
    .injectPacket (datagram { peerAck with ack := 102, flags := { ack := true, ece := true } } []),
    .injectPacket (datagram { peerAck with ack := 104 } []),
    .send [4, 5], .tick, .extractPacketWith,
    .injectPacket (datagram { peerAck with ack := 105, flags := { ack := true, ece := true } } [])]
  tinyClient

theorem tiny_marks_once_per_window :
    ∃ r m r', tinyMarked.history = [LossEvent.acked r] ++ m ++ [.acked r'] ∧ r.cwr = true ∧ r'.cwr = true ∧
      (r.after.nxt - r.after.una).toNat ≤ (m.map LossEvent.advance).sum ∧
      r'.before.una = r.after.una + BitVec.ofNat 32 (m.map LossEvent.advance).sum := by
  have hreach : Reachable tinyMarked := (Reachable.new _).runAll (by decide +kernel)
  have hmarks : tinyMarked.history.map LossEvent.marked = [true, false, true] := by decide +kernel
  obtain ⟨a, rest, hhist, ha, hrest⟩ := List.map_eq_cons_iff.mp hmarks
  obtain ⟨b, rest, rfl, -, hrest⟩ := List.map_eq_cons_iff.mp hrest
  obtain ⟨c, rest, rfl, hc, hrest⟩ := List.map_eq_cons_iff.mp hrest
  obtain rfl := List.map_eq_nil_iff.mp hrest
  cases a with
  | forgot => cases ha
  | acked r =>
    cases c with
    | forgot => cases hc
    | acked r' =>
      have hrun : [] ++ [.acked r] ++ [b] ++ [.acked r'] <+: tinyMarked.history := by
        rw [hhist]
        exact List.prefix_rfl
      exact ⟨r, [b], r', hhist, ha, hc, marks_once_per_window hreach hrun ha hc⟩

end TcpSansIo
