import TcpSansIo.Core.Computation

/-!
# Labelled steps, and computations that refine them

An abstract machine is a relation `step s e s'` between states, with a label for what happened.

* `Run step s es s'` is a sequence of steps with labels `es`.  What every step keeps, every run keeps
  (`Run.keeps`).
* `Via step E s s'` forgets all of the labels but that they satisfy `E`.
* `Refines M x s` says of the run of a computation `x` from `s`, through the projection `M.abs` to
  the abstract machine: it ends where steps of the machine lead, and where it fails, it failed in a
  state that steps of the machine lead to and that is a site of that failure.  It composes along `do`
  blocks (`Refines.bind`), so it is proved statement by statement.
-/

namespace Proc

variable {σ τ ε κ α β : Type}

/-! ## Runs -/

/-- A sequence of steps, with their labels. -/
inductive Run (step : τ → κ → τ → Prop) : τ → List κ → τ → Prop
  | nil (s : τ) : Run step s [] s
  | cons {s s' s'' : τ} {e : κ} {es : List κ} :
      step s e s' → Run step s' es s'' → Run step s (e :: es) s''

namespace Run

variable {step : τ → κ → τ → Prop} {s s' s'' : τ} {e : κ} {es es' : List κ}

lemma append (h : Run step s es s') (h' : Run step s' es' s'') : Run step s (es ++ es') s'' := by
  induction h with
  | nil _ => exact h'
  | cons hstep _ ih => exact .cons hstep (ih h')

/-- What every step with one of its labels keeps, a run keeps. -/
lemma keeps {E : κ → Prop} {I : τ → Prop} (hI : ∀ s e s', E e → step s e s' → I s → I s')
    (h : Run step s es s') (hes : ∀ e ∈ es, E e) (hs : I s) : I s' := by
  induction h with
  | nil _ => exact hs
  | cons hstep _ ih =>
    obtain ⟨he, hrest⟩ := List.forall_mem_cons.mp hes
    exact ih hrest (hI _ _ _ he hstep hs)

end Run

/-- Steps whose labels all satisfy `E` lead from `s` to `s'`. -/
def Via (step : τ → κ → τ → Prop) (E : κ → Prop) (s s' : τ) : Prop :=
  ∃ es, (∀ e ∈ es, E e) ∧ Run step s es s'

namespace Via

variable {step : τ → κ → τ → Prop} {E F : κ → Prop} {s s' s'' : τ}

lemma refl (s : τ) : Via step E s s := ⟨[], nofun, .nil s⟩

lemma of_eq (h : s' = s) : Via step E s s' := by
  rw [h]
  exact refl s

lemma one {e : κ} (he : E e) (h : step s e s') : Via step E s s' := by
  refine ⟨[e], fun x hx => ?_, .cons h (.nil s')⟩
  rw [List.mem_singleton.mp hx]
  exact he

lemma trans (h : Via step E s s') (h' : Via step E s' s'') : Via step E s s'' := by
  obtain ⟨es, hes, hrun⟩ := h
  obtain ⟨es', hes', hrun'⟩ := h'
  refine ⟨es ++ es', fun e he => ?_, hrun.append hrun'⟩
  rcases List.mem_append.mp he with he | he
  · exact hes e he
  · exact hes' e he

lemma mono (hEF : ∀ e, E e → F e) (h : Via step E s s') : Via step F s s' := by
  obtain ⟨es, hes, hrun⟩ := h
  exact ⟨es, fun e he => hEF e (hes e he), hrun⟩

lemma keeps {I : τ → Prop} (hI : ∀ s e s', E e → step s e s' → I s → I s') (h : Via step E s s')
    (hs : I s) : I s' := by
  obtain ⟨es, hes, hrun⟩ := h
  exact hrun.keeps hI hes hs

end Via

/-! ## Refinement -/

/-- An abstract machine under a computation with state `σ` and faults `ε`. -/
structure Machine (σ τ ε κ : Type) where
  step : τ → κ → τ → Prop
  /-- The part of the concrete state the machine works on. -/
  abs : σ → τ
  /-- The labels a run may have. -/
  label : κ → Prop
  /-- The states in which a fault can arise. -/
  site : σ → ε → Prop

variable {M : Machine σ τ ε κ}

/-- Steps of the machine lead from `s` to `s'`. -/
def Machine.Leads (M : Machine σ τ ε κ) (s s' : σ) : Prop := Via M.step M.label (M.abs s) (M.abs s')

/-- The run of `x` from `s` is a run of the machine, up to the end or up to a fault's site. -/
structure Refines (M : Machine σ τ ε κ) (x : EStateM ε σ α) (s : σ) : Prop where
  leads : M.Leads s (final (x s))
  faults : ∀ e s', x s = .error e s' → ∃ s₁, M.Leads s s₁ ∧ M.site s₁ e

namespace Refines

variable {x : EStateM ε σ α} {f : α → EStateM ε σ β} {s : σ}

/-- A run that returns, along steps of the machine. -/
lemma of_ok {a : α} {s' : σ} (h : x s = .ok a s') (hs : M.Leads s s') : Refines M x s where
  leads := by rw [h]; exact hs
  faults e s₁ he := by rw [h] at he; cases he

/-- A run that fails, along steps of the machine to a site of the fault. -/
lemma of_error {e : ε} {s' : σ} (h : x s = .error e s') (hs : M.Leads s s') (hsite : M.site s' e) :
    Refines M x s where
  leads := by rw [h]; exact hs
  faults e' s₁ he := by
    rw [h] at he
    cases he
    exact ⟨s', hs, hsite⟩

/-- Only the run from `s` matters. -/
lemma congr {y : EStateM ε σ α} (h : x s = y s) (hy : Refines M y s) : Refines M x s where
  leads := by rw [h]; exact hy.leads
  faults e s' he := hy.faults e s' (by rw [← h]; exact he)

/-- Faults may have more sites than they need. -/
lemma widen {site : σ → ε → Prop} (hsite : ∀ s e, M.site s e → site s e) (hx : Refines M x s) :
    Refines { M with site := site } x s where
  leads := hx.leads
  faults e s' he := by
    obtain ⟨s₁, hs₁, h⟩ := hx.faults e s' he
    exact ⟨s₁, hs₁, hsite s₁ e h⟩

lemma ofPure (a : α) (s : σ) : Refines M (pure a : EStateM ε σ α) s := of_ok rfl (Via.refl _)

lemma ofThrow {e : ε} {s : σ} (h : M.site s e) : Refines M (throw e : EStateM ε σ α) s :=
  of_error rfl (Via.refl _) h

lemma ofModify {g : σ → σ} (h : M.Leads s (g s)) : Refines M (modify g : EStateM ε σ PUnit) s :=
  of_ok rfl h

lemma ofModifyGet {g : σ → α × σ} (h : M.Leads s (g s).2) :
    Refines M (modifyGet g : EStateM ε σ α) s :=
  of_ok rfl h

/-- A `do` block refines the machine if its first statement does, and the rest does from every state
the first statement returns in. -/
lemma bind (hx : Refines M x s) (hf : ∀ a s', x s = .ok a s' → Refines M (f a) s') :
    Refines M (x >>= f) s := by
  cases h : x s with
  | ok a s' =>
    have hs : M.Leads s s' := by simpa [h] using hx.leads
    have hrest := hf a s' h
    constructor
    · rw [run_bind_ok h]
      exact hs.trans hrest.leads
    · intro e s₁ he
      rw [run_bind_ok h] at he
      obtain ⟨s₂, h₂, hsite⟩ := hrest.faults e s₁ he
      exact ⟨s₂, hs.trans h₂, hsite⟩
  | error e s' =>
    constructor
    · rw [run_bind_error h, final_error]
      simpa [h] using hx.leads
    · intro e' s₁ he
      rw [run_bind_error h] at he
      cases he
      exact hx.faults e s' h

lemma get_bind {g : σ → EStateM ε σ β} (h : Refines M (g s) s) :
    Refines M ((get : EStateM ε σ σ) >>= g) s := ⟨h.leads, h.faults⟩

lemma modify_bind {g : σ → σ} {y : PUnit → EStateM ε σ β} (hs : M.Leads s (g s))
    (h : Refines M (y ⟨⟩) (g s)) : Refines M ((modify g : EStateM ε σ PUnit) >>= y) s :=
  (ofModify hs).bind fun _ s' he => by cases he; exact h

lemma modifyGet_bind {g : σ → α × σ} (hs : M.Leads s (g s).2)
    (h : Refines M (f (g s).1) (g s).2) : Refines M ((modifyGet g : EStateM ε σ α) >>= f) s :=
  (ofModifyGet hs).bind fun _ s' he => by cases he; exact h

lemma bind_pure (hx : Refines M x s) (g : α → β) : Refines M (x >>= fun a => pure (g a)) s :=
  hx.bind fun _ _ _ => ofPure _ _

/-- What holds at the start and is kept by the machine's steps holds at the end. -/
lemma keeps {I : τ → Prop} (hI : ∀ s e s', M.label e → M.step s e s' → I s → I s') (hx : Refines M x s)
    (hs : I (M.abs s)) : I (M.abs (final (x s))) :=
  Via.keeps hI hx.leads hs

end Refines

end Proc
