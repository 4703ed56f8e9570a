import Mathlib.Tactic.Common
import Mathlib.Control.Monad.Basic

set_option relaxedAutoImplicit false
set_option autoImplicit false

/-!
# Computations with a state and a fault

Imperative code whose functions read and write one state, return a value and may abort is
`StateT σ (Except ε) α`. This file fixes the two ways in which the development reasons about
such computations: by *running* them (equations for `StateT.run`) and by *partial correctness*
(`Ensures`), with one rule for each control structure.

## Main definitions

* `StateExcept.ifM` — branch on the verdict of a computation.
* `StateExcept.repeatWhile` — repeat a computation while its verdict is `true`, with fuel.
* `StateExcept.Ensures` — whenever the computation returns, its result meets a postcondition.
* `StateExcept.Avoids` — the computation does not abort with a given fault.
* `StateExcept.CutsOff` — a computation that is another one up to a fault.
* `StateExcept.Preserves` — a computation leaves a component of the state alone.
* `StateExcept.Succeeds` — a computation answers `true` only in states with a property.

## Main results

* `StateExcept.run_bind_of_ok`, `StateExcept.run_bind_of_error` — running a sequence.
* `StateExcept.Ensures.bind`, `StateExcept.Ensures.ifM`, `StateExcept.Ensures.repeatWhile` —
  the rules of partial correctness.
* `StateExcept.Avoids.repeatWhile` — a loop that decreases a measure does not run out of fuel.
* `StateExcept.CutsOff.bind`, `StateExcept.CutsOff.repeatWhile` — the rules for what is cut off.
* `StateExcept.Preserves.bind`, `StateExcept.Succeeds.ifM` — the rules for components and answers.
-/

namespace StateExcept

variable {ε σ α β γ : Type}

/-! ## Control structures -/

/-- `if (c()) t else e`, for a computation `c` with a verdict. -/
def ifM (c : StateT σ (Except ε) Bool) (t e : StateT σ (Except ε) α) :
    StateT σ (Except ε) α := do
  if ← c then t else e

/-- `while (body());` — repeat `body` as long as its verdict is `true`. The fuel bounds the number
of rounds; running out of it is the fault `out`. -/
def repeatWhile (out : ε) (body : StateT σ (Except ε) Bool) :
    ℕ → StateT σ (Except ε) Unit
  | 0 => throw out
  | n + 1 => ifM body (repeatWhile out body n) (pure ())

/-! ## Running -/

/-- A sequence whose first part returns continues from there. -/
lemma run_bind_of_ok {p : StateT σ (Except ε) α} {f : α → StateT σ (Except ε) β} {s s' : σ}
    {a : α} (h : p.run s = .ok (a, s')) : (p >>= f).run s = (f a).run s' := by
  rw [StateT.run_bind, h]
  rfl

/-- A sequence whose first part aborts, aborts. -/
lemma run_bind_of_error {p : StateT σ (Except ε) α} {f : α → StateT σ (Except ε) β} {s : σ}
    {e : ε} (h : p.run s = .error e) : (p >>= f).run s = .error e := by
  rw [StateT.run_bind, h]
  rfl

/-- Discarding the value keeps the effect. -/
lemma run_discard_of_ok {p : StateT σ (Except ε) α} {s s' : σ} {a : α}
    (h : p.run s = .ok (a, s')) : (discard p).run s = .ok ((), s') := by
  rw [show discard p = p >>= fun _ => pure () from rfl, run_bind_of_ok h]
  rfl

/-- A sequence returns exactly when both of its parts do. -/
lemma run_bind_eq_ok_iff {p : StateT σ (Except ε) α} {f : α → StateT σ (Except ε) β} {s s'' : σ}
    {b : β} : (p >>= f).run s = .ok (b, s'') ↔
      ∃ a s', p.run s = .ok (a, s') ∧ (f a).run s' = .ok (b, s'') := by
  cases h : p.run s with
  | error e => simp [run_bind_of_error h]
  | ok r =>
    obtain ⟨a, s'⟩ := r
    rw [run_bind_of_ok h]
    constructor
    · exact fun hb => ⟨a, s', rfl, hb⟩
    · rintro ⟨a₁, s₁, h₁, hb⟩
      obtain ⟨rfl, rfl⟩ : a = a₁ ∧ s' = s₁ := by simpa using h₁
      exact hb

section Running

variable {c : StateT σ (Except ε) Bool} {t e : StateT σ (Except ε) α} {s s' : σ}

/-- A branch whose condition answers `true` continues with the first alternative. -/
lemma ifM_run_true (h : c.run s = .ok (true, s')) : (ifM c t e).run s = t.run s' := by
  rw [ifM, run_bind_of_ok h]
  rfl

/-- A branch whose condition answers `false` continues with the second alternative. -/
lemma ifM_run_false (h : c.run s = .ok (false, s')) : (ifM c t e).run s = e.run s' := by
  rw [ifM, run_bind_of_ok h]
  rfl

/-- A branch whose condition aborts, aborts. -/
lemma ifM_run_error {f : ε} (h : c.run s = .error f) : (ifM c t e).run s = .error f := by
  rw [ifM, run_bind_of_error h]

/-- A branch that returns has taken one of its alternatives. -/
lemma ifM_run_eq_ok {s'' : σ} {a : α} (h : (ifM c t e).run s = .ok (a, s'')) :
    (∃ s', c.run s = .ok (true, s') ∧ t.run s' = .ok (a, s'')) ∨
      ∃ s', c.run s = .ok (false, s') ∧ e.run s' = .ok (a, s'') := by
  obtain ⟨b, s', hc, h⟩ := run_bind_eq_ok_iff.mp h
  cases b with
  | true => exact Or.inl ⟨s', hc, h⟩
  | false => exact Or.inr ⟨s', hc, h⟩

/-- A loop with fuel makes a round. -/
lemma repeatWhile_succ {out : ε} {n : ℕ} :
    repeatWhile out c (n + 1) = ifM c (repeatWhile out c n) (pure ()) := rfl

/-- A round with verdict `true` leaves the rest of the loop to run. -/
lemma repeatWhile_run_true {out : ε} {n : ℕ} (h : c.run s = .ok (true, s')) :
    (repeatWhile out c (n + 1)).run s = (repeatWhile out c n).run s' := by
  rw [repeatWhile_succ, ifM_run_true h]

/-- A round with verdict `false` ends the loop. -/
lemma repeatWhile_run_false {out : ε} {n : ℕ} (h : c.run s = .ok (false, s')) :
    (repeatWhile out c (n + 1)).run s = .ok ((), s') := by
  rw [repeatWhile_succ, ifM_run_false h]
  rfl

/-- A round that aborts, aborts the loop. -/
lemma repeatWhile_run_error {out f : ε} {n : ℕ} (h : c.run s = .error f) :
    (repeatWhile out c (n + 1)).run s = .error f := by
  rw [repeatWhile_succ, ifM_run_error h]

end Running

/-! ## Partial correctness -/

/-- Partial correctness: whenever `p` returns from `s`, the result meets `Q`. -/
def Ensures (p : StateT σ (Except ε) α) (s : σ) (Q : α → σ → Prop) : Prop :=
  ∀ a s', p.run s = .ok (a, s') → Q a s'

namespace Ensures

/-- Consequence: the postcondition may be weakened. -/
lemma mono {p : StateT σ (Except ε) α} {s : σ} {Q R : α → σ → Prop} (h : Ensures p s Q)
    (hQR : ∀ a s', Q a s' → R a s') : Ensures p s R :=
  fun a s' hr => hQR a s' (h a s' hr)

/-- Returning a value. -/
lemma pure {a : α} {s : σ} {Q : α → σ → Prop} (h : Q a s) :
    Ensures (Pure.pure a : StateT σ (Except ε) α) s Q := by
  intro b s' hr
  obtain ⟨rfl, rfl⟩ : a = b ∧ s = s' := by simpa using Except.ok.inj hr
  exact h

/-- Aborting meets every postcondition. -/
lemma throw {e : ε} {s : σ} {Q : α → σ → Prop} :
    Ensures (throw e : StateT σ (Except ε) α) s Q := by
  intro b s' hr
  cases hr

/-- Sequencing. -/
lemma bind {p : StateT σ (Except ε) α} {f : α → StateT σ (Except ε) β} {s : σ}
    {Q : β → σ → Prop} (h : Ensures p s fun a s' => Ensures (f a) s' Q) :
    Ensures (p >>= f) s Q := by
  intro b s'' hr
  obtain ⟨a, s', hp, hf⟩ := run_bind_eq_ok_iff.mp hr
  exact h a s' hp b s'' hf

/-- Branching on a verdict. -/
lemma ifM {c : StateT σ (Except ε) Bool} {t e : StateT σ (Except ε) α} {s : σ}
    {Q : α → σ → Prop}
    (h : Ensures c s fun b s' => if b then Ensures t s' Q else Ensures e s' Q) :
    Ensures (StateExcept.ifM c t e) s Q := by
  refine bind (h.mono fun b s' hb => ?_)
  cases b with
  | true => simpa using hb
  | false => simpa using hb

/-- The loop rule: an invariant kept by every round with verdict `true` gives the postcondition
after the round with verdict `false`.

**Proof sketch.** Induction on the fuel. Without fuel the loop aborts; a round either leaves the
invariant to the induction hypothesis or ends the loop in the postcondition. -/
lemma repeatWhile {out : ε} {body : StateT σ (Except ε) Bool} (I Q : σ → Prop)
    (hbody : ∀ s, I s → Ensures body s fun b s' => if b then I s' else Q s') (n : ℕ) :
    ∀ s, I s → Ensures (StateExcept.repeatWhile out body n) s fun _ s' => Q s' := by
  induction n with
  | zero => exact fun s _ => throw
  | succ n ih =>
    intro s hs
    refine ifM ((hbody s hs).mono fun b s' hb => ?_)
    cases b with
    | true => simpa using ih s' (by simpa using hb)
    | false => simpa using pure (by simpa using hb)

end Ensures

/-! ## Ends of computations -/

/-- From `s` the computation does not abort with the fault `f`. -/
def Avoids (f : ε) (p : StateT σ (Except ε) α) (s : σ) : Prop := p.run s ≠ .error f

namespace Avoids

variable {f : ε}

/-- Returning a value. -/
lemma pure {a : α} {s : σ} : Avoids f (Pure.pure a : StateT σ (Except ε) α) s := nofun

/-- Aborting with another fault. -/
lemma throw {e : ε} {s : σ} (h : e ≠ f) : Avoids f (throw e : StateT σ (Except ε) α) s :=
  fun he => h (Except.error.inj he)

/-- Sequencing. -/
lemma bind {p : StateT σ (Except ε) α} {k : α → StateT σ (Except ε) β} {s : σ}
    (hp : Avoids f p s) (hk : Ensures p s fun a s' => Avoids f (k a) s') :
    Avoids f (p >>= k) s := by
  intro hr
  cases h : p.run s with
  | error e =>
    rw [run_bind_of_error h] at hr
    obtain rfl := Except.error.inj hr
    exact hp h
  | ok r =>
    obtain ⟨a, s'⟩ := r
    rw [run_bind_of_ok h] at hr
    exact hk a s' h hr

/-- A loop does not run out of fuel while every round with verdict `true` decreases a measure.

**Proof sketch.** Induction on the fuel, which stays above the measure. -/
lemma repeatWhile {body : StateT σ (Except ε) Bool} (I : σ → Prop) (μ : σ → ℕ)
    (hbody : ∀ s, I s → Avoids f body s)
    (hround : ∀ s, I s → Ensures body s fun b s' => b = true → I s' ∧ μ s' < μ s) (n : ℕ) :
    ∀ s, I s → μ s < n → Avoids f (StateExcept.repeatWhile f body n) s := by
  induction n with
  | zero => exact fun s _ h => absurd h (Nat.not_lt_zero _)
  | succ n ih =>
    intro s hs hn
    refine bind (hbody s hs) ((hround s hs).mono fun b s' h => ?_)
    cases b with
    | true =>
      obtain ⟨hI, hμ⟩ := h rfl
      exact ih s' hI (by omega)
    | false => exact pure

/-- A loop does not abort with a fault that no round aborts with, besides the one for its fuel.

**Proof sketch.** Induction on the fuel. -/
lemma loop {out : ε} {body : StateT σ (Except ε) Bool} (hout : out ≠ f) (I : σ → Prop)
    (hbody : ∀ s, I s → Avoids f body s)
    (hround : ∀ s, I s → Ensures body s fun b s' => b = true → I s') (n : ℕ) :
    ∀ s, I s → Avoids f (StateExcept.repeatWhile out body n) s := by
  induction n with
  | zero => exact fun s _ => throw hout
  | succ n ih =>
    intro s hs
    refine bind (hbody s hs) ((hround s hs).mono fun b s' h => ?_)
    cases b with
    | true => exact ih s' (h rfl)
    | false => exact pure

end Avoids

/-! ## Computations that are cut off -/

/-- The first computation does what the second one does, unless it aborts with the fault `f`. -/
def CutsOff (f : ε) (p q : StateT σ (Except ε) α) : Prop :=
  ∀ s, p.run s = .error f ∨ p.run s = q.run s

namespace CutsOff

variable {f : ε}

/-- A computation that is not cut off. -/
lemma refl (p : StateT σ (Except ε) α) : CutsOff f p p := fun _ => Or.inr rfl

/-- Sequencing. -/
lemma bind {p q : StateT σ (Except ε) α} {k l : α → StateT σ (Except ε) β} (hp : CutsOff f p q)
    (hk : ∀ a, CutsOff f (k a) (l a)) : CutsOff f (p >>= k) (q >>= l) := by
  intro s
  rcases hp s with h | h
  · exact Or.inl (run_bind_of_error h)
  · cases hq : q.run s with
    | error e => exact Or.inr (by rw [run_bind_of_error hq, run_bind_of_error (h.trans hq)])
    | ok r =>
      obtain ⟨a, s'⟩ := r
      rw [run_bind_of_ok hq, run_bind_of_ok (h.trans hq)]
      exact hk a s'

/-- Branching on a verdict. -/
lemma ifM {c d : StateT σ (Except ε) Bool} {t t' e e' : StateT σ (Except ε) α}
    (hc : CutsOff f c d) (ht : CutsOff f t t') (he : CutsOff f e e') :
    CutsOff f (StateExcept.ifM c t e) (StateExcept.ifM d t' e') :=
  bind hc fun b => by
    cases b with
    | true => exact ht
    | false => exact he

/-- Repetition, by induction on the fuel. -/
lemma repeatWhile {out : ε} {p q : StateT σ (Except ε) Bool} (h : CutsOff f p q) (n : ℕ) :
    CutsOff f (StateExcept.repeatWhile out p n) (StateExcept.repeatWhile out q n) := by
  induction n with
  | zero => exact refl _
  | succ n ih => exact ifM h ih (refl _)

/-- What is cut off is partially correct if the whole is. -/
lemma ensures {p q : StateT σ (Except ε) α} {s : σ} {Q : α → σ → Prop} (h : CutsOff f p q)
    (hq : Ensures q s Q) : Ensures p s Q := by
  intro a s' hr
  rcases h s with hf | hf
  · cases hf.symm.trans hr
  · exact hq a s' (hf.symm.trans hr)

end CutsOff

/-! ## Components that stay as they are -/

/-- Whenever the computation returns, the component `f` of the state is what it was. -/
def Preserves (f : σ → γ) (p : StateT σ (Except ε) α) : Prop :=
  ∀ s, Ensures p s fun _ s' => f s' = f s

namespace Preserves

variable {f : σ → γ}

/-- Returning a value. -/
lemma pure (a : α) : Preserves f (Pure.pure a : StateT σ (Except ε) α) :=
  fun _ => Ensures.pure rfl

/-- Aborting. -/
lemma throw (e : ε) : Preserves f (MonadExcept.throw e : StateT σ (Except ε) α) :=
  fun _ => Ensures.throw

/-- Reading the state. -/
lemma get : Preserves f (MonadState.get : StateT σ (Except ε) σ) := by
  intro s a s' hr
  cases hr
  rfl

/-- A modification of other components. -/
lemma modify {g : σ → σ} (h : ∀ s, f (g s) = f s) :
    Preserves f (modify g : StateT σ (Except ε) PUnit) := by
  intro s a s' hr
  cases hr
  exact h s

/-- Sequencing. -/
lemma bind {p : StateT σ (Except ε) α} {k : α → StateT σ (Except ε) β} (hp : Preserves f p)
    (hk : ∀ a, Preserves f (k a)) : Preserves f (p >>= k) := by
  intro s
  refine Ensures.bind ((hp s).mono fun a s' h => (hk a s').mono fun b s'' h' => ?_)
  exact h'.trans h

/-- A plain branch. -/
lemma ite {c : Prop} [Decidable c] {t e : StateT σ (Except ε) α} (ht : Preserves f t)
    (he : Preserves f e) : Preserves f (if c then t else e) := by
  split
  · exact ht
  · exact he

/-- Branching on a verdict. -/
lemma ifM {c : StateT σ (Except ε) Bool} {t e : StateT σ (Except ε) α} (hc : Preserves f c)
    (ht : Preserves f t) (he : Preserves f e) : Preserves f (StateExcept.ifM c t e) :=
  bind hc fun _ => ite ht he

/-- A discarded value. -/
lemma discard {p : StateT σ (Except ε) α} (hp : Preserves f p) : Preserves f (discard p) :=
  bind hp fun _ => pure _

/-- Repetition, by induction on the fuel. -/
lemma repeatWhile {out : ε} {body : StateT σ (Except ε) Bool} (h : Preserves f body) (n : ℕ) :
    Preserves f (StateExcept.repeatWhile out body n) := by
  induction n with
  | zero => exact throw out
  | succ n ih => exact ifM h ih (pure _)

end Preserves

/-! ## Answers -/

/-- Whenever the computation answers `true`, the state it leaves has the property `Q`. -/
def Succeeds (p : StateT σ (Except ε) Bool) (Q : σ → Prop) : Prop :=
  ∀ s, Ensures p s fun b s' => b = true → Q s'

namespace Succeeds

variable {Q R : σ → Prop}

/-- Consequence. -/
lemma mono {p : StateT σ (Except ε) Bool} (h : Succeeds p Q) (hQR : ∀ s, Q s → R s) :
    Succeeds p R :=
  fun s => (h s).mono fun _ s' hq hb => hQR s' (hq hb)

/-- Aborting is no answer. -/
lemma throw (e : ε) : Succeeds (MonadExcept.throw e : StateT σ (Except ε) Bool) Q :=
  fun _ => Ensures.throw

/-- The last part of a sequence answers. -/
lemma bind {p : StateT σ (Except ε) α} {k : α → StateT σ (Except ε) Bool}
    (hk : ∀ a, Succeeds (k a) Q) : Succeeds (p >>= k) Q :=
  fun _ => Ensures.bind fun a s' _ => hk a s'

/-- A sequence whose first part establishes what the second one needs. -/
lemma bind_of {p : StateT σ (Except ε) α} {k : α → StateT σ (Except ε) Bool} {I : σ → Prop}
    (hp : ∀ s, Ensures p s fun _ s' => I s')
    (hk : ∀ a s, I s → Ensures (k a) s fun b s' => b = true → Q s') : Succeeds (p >>= k) Q :=
  fun s => Ensures.bind ((hp s).mono fun a s' h => hk a s' h)

/-- Either alternative answers. -/
lemma ifM {c t e : StateT σ (Except ε) Bool} (ht : Succeeds t Q) (he : Succeeds e Q) :
    Succeeds (StateExcept.ifM c t e) Q :=
  bind fun b => by
    cases b with
    | true => exact ht
    | false => exact he

/-- The first alternative may rely on the answer of the condition. -/
lemma ifM_of {c t e : StateT σ (Except ε) Bool} {I : σ → Prop} (hc : Succeeds c I)
    (ht : ∀ s, I s → Ensures t s fun b s' => b = true → Q s') (he : Succeeds e Q) :
    Succeeds (StateExcept.ifM c t e) Q := by
  intro s
  refine Ensures.ifM ((hc s).mono fun b s' h => ?_)
  cases b with
  | true => simpa using ht s' (h rfl)
  | false => simpa using he s'

end Succeeds

end StateExcept
