import Mathlib

/-!
# Computations that keep their state when they fail

`EStateM ε σ α` runs on a state, and ends with a value or an error; the state it ends in is there
in both cases, as for a method that returns early with `?` after it has changed its receiver.

* `final` is the state a run leaves behind, `Returned` says that it ended with a value.
* `Leaves R x` says that every run of `x` relates its first state to its last one by `R`.  For a
  reflexive and transitive `R` it composes along `do` blocks, branches and loops, and that is the
  form in which "this function only …" facts are stated.
* `bind_rule` opens a `do` block one statement at a time, with the run of the statement as an
  equation; `bind_at` does so for a relation between the first and the last state.
* `Agree v` (nothing that `v` looks at changed) and `Keeps I` (`I` holds at the end if it held at the
  start) are the two relations most facts are about; both are reflexive and transitive.
-/

namespace Proc

variable {ε σ α β : Type}

/-- The state a run leaves behind, whether it returned or failed. -/
def final : EStateM.Result ε σ α → σ
  | .ok _ s => s
  | .error _ s => s

@[simp] lemma final_ok (a : α) (s : σ) : final (.ok a s : EStateM.Result ε σ α) = s := rfl

@[simp] lemma final_error (e : ε) (s : σ) : final (.error e s : EStateM.Result ε σ α) = s := rfl

/-! ## Runs of the primitive statements -/

lemma run_pure (a : α) (s : σ) : (pure a : EStateM ε σ α) s = .ok a s := rfl

lemma run_get (s : σ) : (get : EStateM ε σ σ) s = .ok s s := rfl

lemma run_modify (f : σ → σ) (s : σ) : (modify f : EStateM ε σ PUnit) s = .ok ⟨⟩ (f s) := rfl

lemma run_modifyGet (f : σ → α × σ) (s : σ) :
    (modifyGet f : EStateM ε σ α) s = .ok (f s).1 (f s).2 := rfl

lemma run_throw (e : ε) (s : σ) : (throw e : EStateM ε σ α) s = .error e s := rfl

lemma run_bind (x : EStateM ε σ α) (f : α → EStateM ε σ β) (s : σ) :
    (x >>= f) s = match x s with
      | .ok a s' => f a s'
      | .error e s' => .error e s' := rfl

lemma run_bind_ok {x : EStateM ε σ α} {s s' : σ} {a : α} (h : x s = .ok a s')
    (f : α → EStateM ε σ β) : (x >>= f) s = f a s' := by
  rw [run_bind, h]

lemma run_bind_error {x : EStateM ε σ α} {s s' : σ} {e : ε} (h : x s = .error e s')
    (f : α → EStateM ε σ β) : (x >>= f) s = .error e s' := by
  rw [run_bind, h]

lemma run_get_bind (f : σ → EStateM ε σ β) (s : σ) : ((get : EStateM ε σ σ) >>= f) s = f s s := rfl

lemma run_modify_bind (g : σ → σ) (f : PUnit → EStateM ε σ β) (s : σ) :
    ((modify g : EStateM ε σ PUnit) >>= f) s = f ⟨⟩ (g s) := rfl

/-- Two branches that agree where each is taken. -/
lemma run_ite_congr {c : Prop} [Decidable c] {x x' y y' : EStateM ε σ α} {s : σ}
    (hx : c → x s = x' s) (hy : ¬ c → y s = y' s) :
    (if c then x else y) s = (if c then x' else y') s := by
  split
  case isTrue h => exact hx h
  case isFalse h => exact hy h

/-- To show something of the run of `x >>= f`, show it of `f`'s run where `x` returns, and of
the error where `x` fails. -/
lemma bind_rule {x : EStateM ε σ α} {f : α → EStateM ε σ β} {s : σ}
    {Q : EStateM.Result ε σ β → Prop}
    (hok : ∀ a s', x s = .ok a s' → Q (f a s'))
    (herr : ∀ e s', x s = .error e s' → Q (.error e s')) : Q ((x >>= f) s) := by
  cases h : x s with
  | ok a s' => rw [run_bind_ok h]; exact hok a s' h
  | error e s' => rw [run_bind_error h]; exact herr e s' h

/-- Repackaging the value changes nothing else. -/
lemma final_bind_pure (x : EStateM ε σ α) (g : α → β) (s : σ) :
    final ((x >>= fun a => pure (g a)) s) = final (x s) := by
  rw [run_bind]
  cases x s with
  | ok a s' => rfl
  | error e s' => rfl

/-! ## Relating the first and the last state -/

/-- `v` sees no difference between the two states. -/
def Agree {τ : Type} (v : σ → τ) (s s' : σ) : Prop := v s' = v s

instance {τ : Type} (v : σ → τ) : Std.Refl (Agree v) := ⟨fun _ => rfl⟩

instance {τ : Type} (v : σ → τ) : IsTrans σ (Agree v) := ⟨fun _ _ _ h₁ h₂ => Eq.trans h₂ h₁⟩

/-- What agrees on `v` agrees on everything computed from `v`. -/
lemma Agree.of {τ υ : Type} {v : σ → τ} {s s' : σ} (h : Agree v s s') (w : τ → υ) :
    w (v s') = w (v s) := congrArg w h

/-- `I` holds afterwards if it held before. -/
def Keeps (I : σ → Prop) (s s' : σ) : Prop := I s → I s'

instance (I : σ → Prop) : Std.Refl (Keeps I) := ⟨fun _ h => h⟩

instance (I : σ → Prop) : IsTrans σ (Keeps I) := ⟨fun _ _ _ h₁ h₂ h => h₂ (h₁ h)⟩

/-- A `do` block relates its first state to its last if its first statement does, and the rest does
from every state the first statement can return in. -/
lemma bind_at {R : σ → σ → Prop} [IsTrans σ R] {x : EStateM ε σ α} {f : α → EStateM ε σ β} {s : σ}
    (hx : R s (final (x s))) (hf : ∀ a s', x s = .ok a s' → R s' (final (f a s'))) :
    R s (final ((x >>= f) s)) := by
  refine bind_rule (Q := fun r => R s (final r)) (fun a s' h => ?_) (fun e s' h => ?_)
  · rw [h] at hx
    exact trans_of R hx (hf a s' h)
  · rwa [h] at hx

/-- Every run of `x`, returned or failed, relates its first state to its last by `R`. -/
def Leaves (R : σ → σ → Prop) (x : EStateM ε σ α) : Prop := ∀ s, R s (final (x s))

namespace Leaves

variable {R S : σ → σ → Prop} {x : EStateM ε σ α} {f : α → EStateM ε σ β}

/-- A weaker relation is kept too. -/
lemma mono (h : Leaves R x) (hRS : ∀ s s', R s s' → S s s') : Leaves S x :=
  fun s => hRS _ _ (h s)

lemma ite {c : Prop} [Decidable c] {y : EStateM ε σ α} (hx : Leaves R x) (hy : Leaves R y) :
    Leaves R (if c then x else y) := by
  split
  · exact hx
  · exact hy

lemma ofModify {g : σ → σ} (h : ∀ s, R s (g s)) :
    Leaves R (modify g : EStateM ε σ PUnit) := h

lemma ofModifyGet {g : σ → α × σ} (h : ∀ s, R s (g s).2) :
    Leaves R (modifyGet g : EStateM ε σ α) := h

/-- After `get`, the value in hand is the current state. -/
lemma ofGetBind {g : σ → EStateM ε σ β} (h : ∀ s, R s (final (g s s))) :
    Leaves R ((get : EStateM ε σ σ) >>= g) := h

section Reflexive

variable [Std.Refl R]

lemma ofPure (a : α) : Leaves R (pure a : EStateM ε σ α) := fun s => Std.Refl.refl s

lemma ofThrow (e : ε) : Leaves R (throw e : EStateM ε σ α) := fun s => Std.Refl.refl s

lemma ofGet : Leaves R (get : EStateM ε σ σ) := fun s => Std.Refl.refl s

end Reflexive

/-- A transitive relation is kept by a sequence if each part keeps it. -/
lemma bind [IsTrans σ R] (hx : Leaves R x) (hf : ∀ a, Leaves R (f a)) : Leaves R (x >>= f) :=
  fun s => bind_at (hx s) fun a s' _ => hf a s'

/-- What follows a statement starts where the statement ended. -/
lemma after [Std.Refl R] (x : EStateM ε σ α) (hf : ∀ a, Leaves R (f a)) (s : σ) :
    R (final (x s)) (final ((x >>= f) s)) := by
  rw [run_bind]
  cases x s with
  | ok a s' => exact hf a s'
  | error e s' => exact Std.Refl.refl s'

/-- A computation that leaves `v` alone leaves alone what can be computed from `v`. -/
lemma agree_of {τ υ : Type} {v : σ → τ} {w : σ → υ} (h : Leaves (Agree v) x)
    (g : τ → υ) (hw : ∀ s, w s = g (v s)) : Leaves (Agree w) x := by
  intro s
  rw [Agree, hw, hw]
  exact (h s).of g

end Leaves

/-! ## Computations that only check

A parser throws on the first check that fails, so that it returns exactly if every step does and no
check fires. -/

lemma bind_eq_ok {x : Except ε α} {f : α → Except ε β} {b : β} :
    (x >>= f) = .ok b ↔ ∃ a, x = .ok a ∧ f a = .ok b := by
  constructor
  · intro h
    cases x with
    | error e => cases h
    | ok a => exact ⟨a, rfl, h⟩
  · rintro ⟨a, rfl, h⟩
    exact h

lemma guard_eq_ok {c : Prop} [Decidable c] {e : ε} {f : Unit → Except ε β} {b : β} :
    (if c then throw e >>= f else f ()) = .ok b ↔ ¬ c ∧ f () = .ok b := by
  by_cases hc : c
  · rw [if_pos hc]
    exact ⟨fun h => (nomatch h), fun h => absurd hc h.1⟩
  · rw [if_neg hc]
    exact ⟨fun h => ⟨hc, h⟩, fun h => h.2⟩

lemma dite_eq_ok {c : Prop} [Decidable c] {e : ε} {f : ¬ c → Except ε β} {b : β} :
    (if hc : c then throw e else f hc) = .ok b ↔ ∃ hc : ¬ c, f hc = .ok b := by
  by_cases hc : c
  · rw [dif_pos hc]
    exact ⟨fun h => (nomatch h), fun h => absurd hc h.1⟩
  · rw [dif_neg hc]
    exact ⟨fun h => ⟨hc, h⟩, fun h => h.2⟩

/-- If `x` fails, then with an error that satisfies `E`. -/
def Raises (E : ε → Prop) (x : Except ε α) : Prop := ∀ e, x = .error e → E e

namespace Raises

variable {E : ε → Prop} {x : Except ε α}

lemma ofOk (a : α) : Raises E (.ok a : Except ε α) := fun _ h => by cases h

lemma ofError {e : ε} (he : E e) : Raises E (.error e : Except ε α) := fun _ h => by
  cases h
  exact he

lemma bind {f : α → Except ε β} (hx : Raises E x) (hf : ∀ a, Raises E (f a)) : Raises E (x >>= f) := by
  cases x with
  | error e => exact fun e' h => hx e' (by cases h; rfl)
  | ok a => exact hf a

lemma guard {c : Prop} [Decidable c] {e : ε} {f : Unit → Except ε β} (he : E e) (hf : Raises E (f ())) :
    Raises E (if c then throw e >>= f else f ()) := by
  split
  · exact ofError he
  · exact hf

lemma dite {c : Prop} [Decidable c] {e : ε} {f : ¬ c → Except ε β} (he : E e)
    (hf : ∀ hc, Raises E (f hc)) : Raises E (if hc : c then throw e else f hc) := by
  split
  · exact ofError he
  · exact hf _

end Raises

end Proc
