import Mathlib.Data.Nat.Basic
import Mathlib.Order.Basic
import Mathlib.Tactic.Common

/-!
# Rate limiters

A limiter remembers when it last granted a request and refuses requests less than `W` after that.  A
clock that went back before the last grant is not held against the requester.

`Grants W stop start last n`: over requests at nondecreasing times from `start` to `stop`, from the
memory `last`, `n` were granted.  Whatever the memory was, `n ≤ 1 + (stop - start) / W`
(`Grants.le`).
-/

namespace RateLimit

/-- A request at `now` comes less than `W` after the last grant. -/
def Limited (W : ℕ) (last : Option ℕ) (now : ℕ) : Prop := ∃ l ∈ last, l ≤ now ∧ now < l + W

/-- Requests from `start` to `stop`, `n` of them granted.  A grant at `now` is remembered as `stamp`:
`now` itself, or a little less where the clock ends and no more grants can follow. -/
inductive Grants (W stop : ℕ) : ℕ → Option ℕ → ℕ → Prop
  | done {start : ℕ} {last : Option ℕ} : Grants W stop start last 0
  | refused {start now n : ℕ} {last : Option ℕ} (hnow : start ≤ now) (hrest : Grants W stop now last n) :
      Grants W stop start last n
  | granted {start now stamp n : ℕ} {last : Option ℕ} (hnow : start ≤ now) (hstop : now ≤ stop)
      (hfree : ¬ Limited W last now) (hstamp : stamp ≤ now)
      (hlate : (stop - stamp) / W ≤ (stop - now) / W) (hrest : Grants W stop now (some stamp) n) :
      Grants W stop start last (n + 1)

namespace Grants

variable {W stop start n : ℕ} {last : Option ℕ}

/-- Two grants are `W` apart. -/
lemma le_since (hW : 0 < W) (h : Grants W stop start last n) {l : ℕ} (hlast : last = some l)
    (hl : l ≤ start) : n ≤ (stop - l) / W := by
  induction h generalizing l with
  | done => exact Nat.zero_le _
  | refused hnow _ ih => exact ih hlast (hl.trans hnow)
  | @granted start now stamp n last hnow hstop hfree hstamp hlate _ ih =>
    have hwait : l + W ≤ now := by
      by_contra hlt
      exact hfree ⟨l, hlast, hl.trans hnow, not_le.mp hlt⟩
    calc n + 1 ≤ (stop - stamp) / W + 1 := Nat.succ_le_succ (ih rfl hstamp)
      _ ≤ (stop - now) / W + 1 := Nat.succ_le_succ hlate
      _ = (stop - now + W) / W := (Nat.add_div_right _ hW).symm
      _ ≤ (stop - l) / W := Nat.div_le_div_right (by omega)

/-- One grant may come at once; each further one takes `W`. -/
lemma le (hW : 0 < W) (h : Grants W stop start last n) : n ≤ 1 + (stop - start) / W := by
  have hlater {a b : ℕ} (hab : a ≤ b) : (stop - b) / W ≤ (stop - a) / W :=
    Nat.div_le_div_right (Nat.sub_le_sub_left hab stop)
  induction h with
  | done => exact Nat.zero_le _
  | refused hnow _ ih => exact ih.trans (Nat.add_le_add_left (hlater hnow) 1)
  | granted hnow _ _ hstamp hlate hrest _ =>
    have hrest' := (hrest.le_since hW rfl hstamp).trans (hlate.trans (hlater hnow))
    omega

end Grants

end RateLimit
