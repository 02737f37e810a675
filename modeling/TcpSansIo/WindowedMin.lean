import TcpSansIo.Rack

/-!
# The windowed minimum

`WinMin` keeps three samples.  After every call they and the sample just fed form a chain, each no
later and no larger than the next (`Tracks`), and the first of them is inside the window.  A new
sample above the minimum is first put into the chain (`offer`); dropping choices from the front and
refreshing choices at the back then only has to keep a chain.
-/

namespace TcpSansIo

open FixedWidth

/-- No later and no larger. -/
def Sample.Le (a b : Sample) : Prop := a.t.toNat ≤ b.t.toNat ∧ a.v.toNat ≤ b.v.toNat

lemma Sample.Le.refl (a : Sample) : a.Le a := ⟨le_rfl, le_rfl⟩

lemma Sample.Le.trans {a b c : Sample} (hab : a.Le b) (hbc : b.Le c) : a.Le c :=
  ⟨hab.1.trans hbc.1, hab.2.trans hbc.2⟩

namespace WinMin

/-- The three samples were all fed, and lead up to `s`. -/
structure Chain (past : List Sample) (s : Sample) (m : WinMin) : Prop where
  valid : m.valid = true
  first : m.s0.Le m.s1
  second : m.s1.Le m.s2
  last : m.s2.Le s
  mem : m.s0 ∈ past ∧ m.s1 ∈ past ∧ m.s2 ∈ past

namespace Chain

variable {past : List Sample} {s : Sample} {m : WinMin}

lemma reset (h : s ∈ past) : Chain past s (WinMin.reset s.t s.v) :=
  ⟨rfl, .refl s, .refl s, .refl s, h, h, h⟩

lemma more {past' : List Sample} (h : Chain past s m) (hsub : past ⊆ past') : Chain past' s m :=
  ⟨h.valid, h.first, h.second, h.last, hsub h.mem.1, hsub h.mem.2.1, hsub h.mem.2.2⟩

/-- A sample that is not below the minimum finds its place among the choices. -/
lemma offer {s' : Sample} (h : Chain past s m) (ht : s.t.toNat ≤ s'.t.toNat)
    (hv : m.s0.v.toNat < s'.v.toNat) (hs' : s' ∈ past) : Chain past s' (m.offer s') := by
  obtain ⟨hvalid, h01, h12, h2, hm0, hm1, hm2⟩ := h
  have ht0 : m.s0.t.toNat ≤ s'.t.toNat := (h01.trans (h12.trans h2)).1.trans ht
  have ht1 : m.s1.t.toNat ≤ s'.t.toNat := (h12.trans h2).1.trans ht
  have ht2 : m.s2.t.toNat ≤ s'.t.toNat := h2.1.trans ht
  unfold WinMin.offer
  split
  · exact ⟨hvalid, ⟨ht0, hv.le⟩, .refl s', .refl s', hm0, hs', hs'⟩
  case isFalse h1 =>
    split
    · exact ⟨hvalid, h01, ⟨ht1, (not_le.mp h1).le⟩, .refl s', hm0, hm1, hs'⟩
    case isFalse h2' => exact ⟨hvalid, h01, h12, ⟨ht2, (not_le.mp h2').le⟩, hm0, hm1, hm2⟩

lemma rotate (h : Chain past s m) (hs : s ∈ past) : Chain past s (m.rotate s) :=
  ⟨h.valid, h.second, h.last, .refl s, h.mem.2.1, h.mem.2.2, hs⟩

lemma refreshBoth (h : Chain past s m) (hs : s ∈ past) : Chain past s { m with s1 := s, s2 := s } :=
  ⟨h.valid, h.first.trans (h.second.trans h.last), .refl s, .refl s, h.mem.1, hs, hs⟩

lemma refreshLast (h : Chain past s m) (hs : s ∈ past) : Chain past s { m with s2 := s } :=
  ⟨h.valid, h.first, h.second.trans h.last, .refl s, h.mem.1, h.mem.2.1, hs⟩

end Chain

/-- After a call that fed `s`: a chain up to `s` whose first sample is inside the window. -/
structure Tracks (win : U64) (past : List Sample) (s : Sample) (m : WinMin) : Prop
    extends Chain past s m where
  fresh : s.t.toNat ≤ m.s0.t.toNat + win.toNat

/-- The third choice stays inside the window when a sample is offered. -/
lemma offer_s2_fresh {win : U64} {m : WinMin} {s : Sample}
    (h : s.t.toNat ≤ m.s2.t.toNat + win.toNat) :
    s.t.toNat ≤ (m.offer s).s2.t.toNat + win.toNat := by
  unfold offer
  split
  · exact Nat.le_add_right _ _
  split
  · exact Nat.le_add_right _ _
  · exact h

/-- One call. -/
lemma Tracks.update {win : U64} {past : List Sample} {s s' : Sample} {m : WinMin}
    (h : m.valid = true → Chain past s m ∧ s.t.toNat ≤ s'.t.toNat) (hs' : s' ∈ past) :
    Tracks win past s' (m.update win s'.t s'.v) := by
  unfold WinMin.update
  simp only [show (⟨s'.t, s'.v⟩ : Sample) = s' from rfl]
  split
  · exact ⟨.reset hs', Nat.le_add_right _ _⟩
  case isFalse hkeep =>
    simp only [not_or, not_not, not_le, not_lt, toNat_satSub] at hkeep
    obtain ⟨hvalid, hv, hwin⟩ := hkeep
    obtain ⟨hchain, ht⟩ := h hvalid
    have hoffer : Chain past s' (m.offer s') := hchain.offer ht hv hs'
    have hlast : s'.t.toNat ≤ (m.offer s').s2.t.toNat + win.toNat := offer_s2_fresh (by omega)
    simp only [toNat_satSub]
    split
    -- The minimum has left the window: at most two choices go, and the third is inside it.
    · split
      · exact ⟨(hoffer.rotate hs').rotate hs', hlast⟩
      case isFalse hin => exact ⟨hoffer.rotate hs', by omega⟩
    case isFalse hin =>
      have hfresh : s'.t.toNat ≤ (m.offer s').s0.t.toNat + win.toNat := by omega
      split
      · exact ⟨hoffer.refreshBoth hs', hfresh⟩
      split
      · exact ⟨hoffer.refreshLast hs', hfresh⟩
      · exact ⟨hoffer, hfresh⟩

/-- The filter after feeding it `samples` in order. -/
def feed (win : U64) (samples : List Sample) : WinMin :=
  samples.foldl (fun m s => m.update win s.t s.v) new

lemma feed_concat (win : U64) (past : List Sample) (s : Sample) :
    feed win (past ++ [s]) = (feed win past).update win s.t s.v := by
  rw [feed, List.foldl_append]
  rfl

/-- Every call of a run in time order. -/
lemma tracks_feed (win : U64) (past : List Sample) (s : Sample)
    (hmono : (past ++ [s]).Pairwise fun a b => a.t.toNat ≤ b.t.toNat) :
    Tracks win (past ++ [s]) s (feed win (past ++ [s])) := by
  induction past using List.reverseRecOn generalizing s with
  | nil =>
    rw [List.nil_append, ← List.nil_append [s], feed_concat]
    refine Tracks.update (s := s) (fun hvalid => ?_) (by simp)
    cases hvalid
  | append_singleton past last ih =>
    obtain ⟨hpast, -, hlast⟩ := List.pairwise_append.mp hmono
    rw [feed_concat]
    refine Tracks.update (s := last) (fun _ => ⟨?_, ?_⟩) (by simp)
    · exact (ih last hpast).toChain.more (List.subset_append_left _ _)
    · exact hlast last (by simp) s (by simp)

/-- The filter after any run in time order whose latest call fed `s`: its samples are in order of
time and of value, each was fed, and the minimum it reports is the value of a sample that is at most
`win` old and not larger than `s`. -/
theorem windowed_minimum (win : U64) (past : List Sample) (s : Sample)
    (hmono : (past ++ [s]).Pairwise fun a b => a.t.toNat ≤ b.t.toNat) :
    let m := feed win (past ++ [s])
    (m.s0.t.toNat ≤ m.s1.t.toNat ∧ m.s1.t.toNat ≤ m.s2.t.toNat) ∧
      (m.s0.v.toNat ≤ m.s1.v.toNat ∧ m.s1.v.toNat ≤ m.s2.v.toNat) ∧
      (m.s0 ∈ past ++ [s] ∧ m.s1 ∈ past ++ [s] ∧ m.s2 ∈ past ++ [s]) ∧
      ∃ x ∈ past ++ [s], m.get = some x.v ∧ x.t.toNat ≤ s.t.toNat ∧
        s.t.toNat ≤ x.t.toNat + win.toNat ∧ x.v.toNat ≤ s.v.toNat := by
  have h := tracks_feed win past s hmono
  have hle : (feed win (past ++ [s])).s0.Le s := h.first.trans (h.second.trans h.last)
  refine ⟨⟨h.first.1, h.second.1⟩, ⟨h.first.2, h.second.2⟩, h.mem, _, h.mem.1, ?_, hle.1, h.fresh,
    hle.2⟩
  rw [get, if_pos h.valid]

/-- A window of 10 ms over six samples; the last call drops two choices. -/
theorem six_samples_minimum :
    let past : List Sample := [⟨0, 7⟩, ⟨3, 9⟩, ⟨4, 8⟩, ⟨9, 12⟩, ⟨13, 20⟩]
    let m := feed 10 (past ++ [⟨19, 30⟩])
    (m.s0.t.toNat ≤ m.s1.t.toNat ∧ m.s1.t.toNat ≤ m.s2.t.toNat) ∧
      (m.s0.v.toNat ≤ m.s1.v.toNat ∧ m.s1.v.toNat ≤ m.s2.v.toNat) ∧
      (m.s0 ∈ past ++ [⟨19, 30⟩] ∧ m.s1 ∈ past ++ [⟨19, 30⟩] ∧ m.s2 ∈ past ++ [⟨19, 30⟩]) ∧
      ∃ x ∈ past ++ [⟨19, 30⟩], m.get = some x.v ∧ x.t.toNat ≤ 19 ∧ 19 ≤ x.t.toNat + 10 ∧
        x.v.toNat ≤ 30 :=
  windowed_minimum 10 _ ⟨19, 30⟩ (by decide)

end WinMin

end TcpSansIo
