import Mathlib.Order.Basic

/-!
# Fallible steps and their runs

A system whose step can fail (an `assert!` or `panic!` in the modelled code) is a function
`σ → ι → Except ε σ`, and a run over a list of inputs is `List.foldlM` in `Except ε`: it stops
at the first failing step. The rules here are the ones the replica models use: peel a bind
apart, carry an invariant along a run, and carry a reflexive and transitive relation from the
first state to the last.
-/

namespace IggyCore.Library

variable {ε σ ι α β : Type}

theorem bind_eq_ok {x : Except ε α} {f : α → Except ε β} {b : β}
    (h : (x >>= f) = .ok b) : ∃ a, x = .ok a ∧ f a = .ok b := by
  cases x with
  | error e => cases h
  | ok a => exact ⟨a, rfl, h⟩

@[simp] theorem bind_ok (a : α) (f : α → Except ε β) : ((Except.ok a : Except ε α) >>= f) = f a :=
  rfl

@[simp] theorem bind_error (e : ε) (f : α → Except ε β) :
    ((Except.error e : Except ε α) >>= f) = .error e := rfl

@[simp] theorem pure_eq_ok (a : α) : (pure a : Except ε α) = .ok a := rfl

theorem foldlM_cons_eq_ok {step : σ → ι → Except ε σ} {s t : σ} {i : ι} {is : List ι}
    (h : (i :: is).foldlM step s = .ok t) :
    ∃ u, step s i = .ok u ∧ is.foldlM step u = .ok t := by
  simp only [List.foldlM_cons] at h
  exact bind_eq_ok h

/-- `x` succeeds with a value that passes the check `p`: a test of a run that can be
evaluated, and from which the run's result is recovered by `exists_of_okAnd`. -/
def okAnd (p : α → Bool) : Except ε α → Bool
  | .ok a => p a
  | .error _ => false

theorem exists_of_okAnd {p : α → Bool} {x : Except ε α} (h : okAnd p x = true) :
    ∃ a, x = .ok a ∧ p a = true := by
  cases x with
  | error e => cases h
  | ok a => exact ⟨a, rfl, h⟩

/-- The error a failed computation stopped with. -/
def errorOf : Except ε α → Option ε
  | .ok _ => none
  | .error e => some e

theorem eq_error_of_errorOf {x : Except ε α} {e : ε} (h : errorOf x = some e) :
    x = .error e := by
  cases x with
  | error e' => cases h; rfl
  | ok a => cases h

theorem map_eq_ok {f : α → β} {x : Except ε α} {b : β} (h : x.map f = .ok b) :
    ∃ a, x = .ok a ∧ f a = b := by
  cases x with
  | error e => cases h
  | ok a =>
    cases h
    exact ⟨a, rfl, rfl⟩

/-! ## Outcomes of a fallible step

`Outcome E P x`: the computation `x` either succeeds with a value satisfying `P` or fails with
an error satisfying `E`. It is the postcondition of a step whose failures are allowed only of
one kind (`E`); a bind composes two such facts, as the sequencing rule of a Hoare logic. -/

/-- `x` ends in `.ok a` with `P a` or in `.error e` with `E e`. -/
def Outcome (E : ε → Prop) (P : α → Prop) : Except ε α → Prop
  | .ok a => P a
  | .error e => E e

section Outcome

variable {E : ε → Prop} {P Q : α → Prop}

@[simp] theorem outcome_ok (a : α) : Outcome E P (.ok a) ↔ P a := Iff.rfl

@[simp] theorem outcome_error (e : ε) : Outcome E P (.error e : Except ε α) ↔ E e := Iff.rfl

theorem Outcome.pure {a : α} (h : P a) : Outcome E P (pure a) := h

theorem Outcome.throw {e : ε} (h : E e) : Outcome E P (throw e : Except ε α) := h

/-- **Sequencing rule.** -/
theorem Outcome.bind {R : β → Prop} {x : Except ε α} {f : α → Except ε β}
    (hx : Outcome E Q x) (hf : ∀ a, Q a → Outcome E R (f a)) : Outcome E R (x >>= f) := by
  cases x with
  | error e => exact hx
  | ok a => exact hf a hx

theorem Outcome.mono {x : Except ε α} (hx : Outcome E P x) (h : ∀ a, P a → Q a) :
    Outcome E Q x := by
  cases x with
  | error e => exact hx
  | ok a => exact h a hx

theorem Outcome.imp {E' : ε → Prop} {x : Except ε α} (hx : Outcome E P x)
    (hE : ∀ e, E e → E' e) (hP : ∀ a, P a → Q a) : Outcome E' Q x := by
  cases x with
  | error e => exact hE e hx
  | ok a => exact hP a hx

theorem Outcome.map {f : α → β} {R : β → Prop} {x : Except ε α} (hx : Outcome E P x)
    (hf : ∀ a, P a → R (f a)) : Outcome E R (x.map f) := by
  cases x with
  | error e => exact hx
  | ok a => exact hf a hx

theorem Outcome.of_eq_ok {x : Except ε α} {a : α} (hx : Outcome E P x) (h : x = .ok a) : P a := by
  subst h
  exact hx

theorem Outcome.of_eq_error {x : Except ε α} {e : ε} (hx : Outcome E P x) (h : x = .error e) :
    E e := by
  subst h
  exact hx

end Outcome

section Invariant

variable (step : σ → ι → Except ε σ)

/-- **Run rule.** An invariant kept by every successful step holds after a successful run. -/
theorem foldlM_invariant (P : σ → Prop)
    (hstep : ∀ s i t, P s → step s i = .ok t → P t) :
    ∀ (is : List ι) (s t : σ), P s → is.foldlM step s = .ok t → P t := by
  intro is
  induction is with
  | nil =>
    intro s t hs h
    cases h
    exact hs
  | cons i is ih =>
    intro s t hs h
    obtain ⟨u, hu, hrest⟩ := foldlM_cons_eq_ok h
    exact ih u t (hstep s i u hs hu) hrest

/-- **Run rule for relations.** If every successful step from an invariant state is related to
its source by a preorder-like `R`, so is the end of a successful run to its start. -/
theorem foldlM_rel (P : σ → Prop) (R : σ → σ → Prop)
    (hrefl : ∀ s, R s s) (htrans : ∀ s t u, R s t → R t u → R s u)
    (hinv : ∀ s i t, P s → step s i = .ok t → P t)
    (hstep : ∀ s i t, P s → step s i = .ok t → R s t) :
    ∀ (is : List ι) (s t : σ), P s → is.foldlM step s = .ok t → R s t := by
  intro is
  induction is with
  | nil =>
    intro s t _ h
    cases h
    exact hrefl s
  | cons i is ih =>
    intro s t hs h
    obtain ⟨u, hu, hrest⟩ := foldlM_cons_eq_ok h
    exact htrans s u t (hstep s i u hs hu) (ih u t (hinv s i u hs hu) hrest)

/-- **Run rule over the consumed inputs.** The step only has to keep the invariant on the
inputs the run actually consumes. -/
theorem foldlM_invariant_of_mem (P : σ → Prop) (is : List ι)
    (hstep : ∀ s i t, i ∈ is → P s → step s i = .ok t → P t) :
    ∀ s t, P s → is.foldlM step s = .ok t → P t := by
  induction is with
  | nil =>
    intro s t hs h
    cases h
    exact hs
  | cons i is ih =>
    intro s t hs h
    obtain ⟨u, hu, hrest⟩ := foldlM_cons_eq_ok h
    have hhead := hstep s i u (List.mem_cons_self ..) hs hu
    exact ih (fun s j t hj => hstep s j t (List.mem_cons_of_mem i hj)) u t hhead hrest

end Invariant

/-! ## Runs that answer each input

A state machine that answers every input it applies: the run threads the state and collects
the answers in order, and stops at the first error. -/

section Collect

variable {ρ : Type} (step : σ → ι → Except ε (σ × ρ))

def runCollect : σ → List ι → Except ε (σ × List ρ)
  | s, [] => .ok (s, [])
  | s, i :: is => do
    let (s, r) ← step s i
    let (s, rs) ← runCollect s is
    pure (s, r :: rs)

theorem runCollect_cons_eq_ok {s t : σ} {i : ι} {is : List ι} {rs : List ρ}
    (h : runCollect step s (i :: is) = .ok (t, rs)) :
    ∃ u r, step s i = .ok (u, r) ∧ ∃ rs', runCollect step u is = .ok (t, rs') := by
  simp only [runCollect] at h
  obtain ⟨⟨u, r⟩, hu, hrest⟩ := bind_eq_ok h
  obtain ⟨⟨t', rs'⟩, ht, hpure⟩ := bind_eq_ok hrest
  cases hpure
  exact ⟨u, r, hu, rs', ht⟩

/-- **Run rule.** An invariant every successful step keeps holds after a successful run. -/
theorem runCollect_invariant (P : σ → Prop)
    (hstep : ∀ s i t r, P s → step s i = .ok (t, r) → P t) :
    ∀ (is : List ι) (s t : σ) (rs : List ρ), P s → runCollect step s is = .ok (t, rs) → P t := by
  intro is
  induction is with
  | nil =>
    intro s t rs hs h
    cases h
    exact hs
  | cons i is ih =>
    intro s t rs hs h
    obtain ⟨u, r, hu, rs', hrest⟩ := runCollect_cons_eq_ok step h
    exact ih u t rs' (hstep s i u r hs hu) hrest

end Collect

/-! ## Two runs in lockstep

`ExceptRel R x y`: the computations fail with one error, or succeed with values related by
`R`. Steps that keep `R` between two states keep it between two runs over one input list: a
lockstep simulation, used for two copies of one system whose states differ only in what no
step observes. -/

/-- `x` and `y` fail alike or succeed with related values. -/
def ExceptRel {γ : Type} (R : α → γ → Prop) : Except ε α → Except ε γ → Prop
  | .ok a, .ok b => R a b
  | .error e, .error e' => e = e'
  | _, _ => False

section ExceptRel

variable {γ δ τ : Type} {R : α → γ → Prop} {x : Except ε α} {y : Except ε γ}

@[simp] theorem exceptRel_ok (a : α) (b : γ) : ExceptRel (ε := ε) R (.ok a) (.ok b) ↔ R a b :=
  Iff.rfl

theorem ExceptRel.refl (x : Except ε α) : ExceptRel Eq x x := by
  cases x <;> rfl

theorem ExceptRel.bind {S : β → δ → Prop} {f : α → Except ε β} {g : γ → Except ε δ}
    (h : ExceptRel R x y) (hf : ∀ a b, R a b → ExceptRel S (f a) (g b)) :
    ExceptRel S (x >>= f) (y >>= g) := by
  cases x with
  | error e =>
    cases y with
    | error e' => exact h
    | ok b => exact h.elim
  | ok a =>
    cases y with
    | error e' => exact h.elim
    | ok b => exact hf a b h

theorem ExceptRel.map {S : β → δ → Prop} {f : α → β} {g : γ → δ} (h : ExceptRel R x y)
    (hf : ∀ a b, R a b → S (f a) (g b)) : ExceptRel S (x.map f) (y.map g) := by
  cases x with
  | error e =>
    cases y with
    | error e' => exact h
    | ok b => exact h.elim
  | ok a =>
    cases y with
    | error e' => exact h.elim
    | ok b => exact hf a b h

/-- What two related computations return is the same once both are seen through views that
agree on related values. -/
theorem ExceptRel.map_eq {f : α → β} {g : γ → β} (h : ExceptRel R x y)
    (hf : ∀ a b, R a b → f a = g b) : x.map f = y.map g := by
  cases x with
  | error e =>
    cases y with
    | error e' =>
      cases h
      rfl
    | ok b => exact h.elim
  | ok a =>
    cases y with
    | error e' => exact h.elim
    | ok b =>
      show Except.ok (f a) = Except.ok (g b)
      rw [hf a b h]

/-- **Run rule for two runs.** Steps that keep `R` keep it along two runs over the same
inputs. -/
theorem foldlM_exceptRel (step₁ : σ → ι → Except ε σ) (step₂ : τ → ι → Except ε τ)
    (R : σ → τ → Prop) (hstep : ∀ s t i, R s t → ExceptRel R (step₁ s i) (step₂ t i)) :
    ∀ (is : List ι) s t, R s t → ExceptRel R (is.foldlM step₁ s) (is.foldlM step₂ t) := by
  intro is
  induction is with
  | nil =>
    intro s t h
    exact h
  | cons i is ih =>
    intro s t h
    simp only [List.foldlM_cons]
    exact (hstep s t i h).bind fun u v huv => ih u v huv

end ExceptRel

/-! ## Two collecting runs in lockstep -/

section CollectRel

variable {τ ρ : Type} (step₁ : σ → ι → Except ε (σ × ρ)) (step₂ : τ → ι → Except ε (τ × ρ))

/-- **Run rule for two collecting runs.** If steps from related states, on the inputs that
`allowed` admits, fail alike or reach related states with one answer, then so do two runs over
such inputs, with one list of answers. -/
theorem runCollect_exceptRel (R : σ → τ → Prop) (allowed : ι → Prop)
    (hstep : ∀ s t i, allowed i → R s t →
      ExceptRel (fun (x : σ × ρ) (y : τ × ρ) => R x.1 y.1 ∧ x.2 = y.2) (step₁ s i) (step₂ t i)) :
    ∀ (is : List ι) s t, (∀ i ∈ is, allowed i) → R s t →
      ExceptRel (fun (x : σ × List ρ) (y : τ × List ρ) => R x.1 y.1 ∧ x.2 = y.2)
        (runCollect step₁ s is) (runCollect step₂ t is) := by
  intro is
  induction is with
  | nil =>
    intro s t _ h
    exact ⟨h, rfl⟩
  | cons i is ih =>
    intro s t hallowed h
    simp only [runCollect]
    refine (hstep s t i (hallowed i List.mem_cons_self) h).bind
      fun ⟨s', r⟩ ⟨t', r'⟩ ⟨hst, hr⟩ => ?_
    refine (ih s' t' (fun i hi => hallowed i (List.mem_cons_of_mem _ hi)) hst).bind
      fun ⟨u, rs⟩ ⟨v, rs'⟩ ⟨huv, hrs⟩ => ?_
    exact ⟨huv, congrArg₂ List.cons hr hrs⟩

end CollectRel

end IggyCore.Library
