import Mathlib.Data.List.Basic
import Mathlib.Data.Nat.Notation
import Mathlib.Tactic.Common

set_option relaxedAutoImplicit false
set_option autoImplicit false

/-!
# Programs that ask

A program ends with a value, throws, or asks its environment to perform an action and goes on with
the answer. What happens is a path through the program, with the log of the actions and answers on
it. Nothing is assumed about the environment, so that a property of all paths holds however the
actions are implemented; a contract says what one relies on in addition.

## Main definitions

* `Program`, `Program.bind`, `Program.attempt` — programs, sequences, and `try`.
* `Program.Entry`, `Program.Path` — logs, and what a program has become after a log.
* `Program.Contract`, `Program.Respects` — what the environment allows and what the program demands.
* `Program.Only` — a program that asks for actions of one kind.
* `Program.Within` — a program that asks for a bounded number of actions.

## Main results

* `Program.path_bind`, `Program.path_attempt` — the paths through a sequence and through a `try`.
* `Program.path_bind_raise_iff` — where a sequence throws.
* `Program.Respects.bind`, `Program.Respects.attempt` — the rules for contracts.
* `Program.Respects.path`, `Program.Respects.asked`, `Program.Respects.invariant` — what is kept is
  kept on every path.
* `Program.Only.respects` — what actions of the kind keep holds throughout.
* `Program.Within.length_le` — the bound holds of every path.
-/

/-- A program that asks for actions `i`, which are answered by values of the type `ο i`. It may end
with a value or throw. -/
inductive Program (ι : Type) (ο : ι → Type) (ε α : Type) where
  | done (a : α)
  | raise (e : ε)
  | ask (i : ι) (k : ο i → Program ι ο ε α)

namespace Program

variable {ι : Type} {ο : ι → Type} {ε α β : Type}

/-! ## Control -/

/-- A sequence. -/
def bind : Program ι ο ε α → (α → Program ι ο ε β) → Program ι ο ε β
  | done a, f => f a
  | raise e, _ => raise e
  | ask i k, f => ask i fun r => (k r).bind f

instance : Monad (Program ι ο ε) where
  pure := done
  bind := bind

/-- Ask for one action. -/
def perform (i : ι) : Program ι ο ε (ο i) := ask i done

/-- A value, or an exception that is thrown. -/
def ofExcept : Except ε α → Program ι ο ε α
  | .ok a => done a
  | .error e => raise e

/-- `try`: an exception becomes a value. -/
def attempt : Program ι ο ε α → Program ι ο ε (Except ε α)
  | done a => done (.ok a)
  | raise e => done (.error e)
  | ask i k => ask i fun r => (k r).attempt

/-- The action that a program asks for first. -/
def head? : Program ι ο ε α → Option ι
  | ask i _ => some i
  | _ => none

/-- The program has ended. -/
def Ended (p : Program ι ο ε α) : Prop := p.head? = none

variable {p q : Program ι ο ε α} {f : α → Program ι ο ε β} {a : α} {e : ε} {i : ι}
  {k : ο i → Program ι ο ε α}

/-- One action and what follows it. -/
@[simp] lemma perform_bind {g : ο i → Program ι ο ε β} :
    (perform i >>= g : Program ι ο ε β) = ask i g := by
  rfl

/-! ## Paths -/

/-- An action and its answer. -/
structure Entry (ι : Type) (ο : ι → Type) where
  action : ι
  answer : ο action

/-- After the log, the first program has become the second one. -/
inductive Path : Program ι ο ε α → List (Entry ι ο) → Program ι ο ε α → Prop where
  | nil (p : Program ι ο ε α) : Path p [] p
  | ask {i : ι} {k : ο i → Program ι ο ε α} {r : ο i} {log : List (Entry ι ο)}
      {q : Program ι ο ε α} (h : Path (k r) log q) : Path (ask i k) (⟨i, r⟩ :: log) q

variable {log log' : List (Entry ι ο)}

/-- A path that goes on. -/
lemma Path.append {q' : Program ι ο ε α} (h : Path p log q) (h' : Path q log' q') :
    Path p (log ++ log') q' := by
  induction h with
  | nil => exact h'
  | ask _ ih => exact .ask (ih h')

/-- A path with a last action. -/
lemma Path.concat (h : Path p log (.ask i k)) (r : ο i) : Path p (log ++ [⟨i, r⟩]) (k r) :=
  h.append (.ask (.nil _))

/-- A program that has ended has no actions. -/
lemma Path.of_ended (h : Path p log q) (hp : p.Ended) : log = [] ∧ q = p := by
  cases h with
  | nil => exact ⟨rfl, rfl⟩
  | ask _ => cases hp

/-- The paths of a program that asks. -/
lemma path_ask_iff : Path (.ask i k) log q ↔
    (log = [] ∧ q = .ask i k) ∨ ∃ r log', log = ⟨i, r⟩ :: log' ∧ Path (k r) log' q := by
  constructor
  · intro h
    cases h with
    | nil => exact Or.inl ⟨rfl, rfl⟩
    | ask h => exact Or.inr ⟨_, _, rfl, h⟩
  · rintro (⟨rfl, rfl⟩ | ⟨r, log', rfl, h⟩)
    · exact .nil _
    · exact .ask h

/-- A path in two parts passes through a program between them. -/
lemma exists_of_path_append (h : Path p (log ++ log') q) :
    ∃ p', Path p log p' ∧ Path p' log' q := by
  induction log generalizing p with
  | nil => exact ⟨p, .nil p, h⟩
  | cons e log ih =>
    cases h with
    | ask h =>
      obtain ⟨p', hp, hq⟩ := ih h
      exact ⟨p', .ask hp, hq⟩

/-- **Sequences.** A path through a sequence is in its first part, or it has gone through the first
part and is in the second.

**Proof sketch.** Induction on the first part. -/
theorem path_bind {q : Program ι ο ε β} (h : Path (p >>= f) log q) :
    (∃ p', Path p log p' ∧ q = p' >>= f) ∨
      ∃ a log₁ log₂, log = log₁ ++ log₂ ∧ Path p log₁ (done a) ∧ Path (f a) log₂ q := by
  induction p generalizing log with
  | done a => exact Or.inr ⟨a, [], log, rfl, .nil _, h⟩
  | raise e =>
    obtain ⟨rfl, rfl⟩ := h.of_ended rfl
    exact Or.inl ⟨.raise e, .nil _, rfl⟩
  | ask i k ih =>
    rcases path_ask_iff.mp h with ⟨rfl, rfl⟩ | ⟨r, log', rfl, htail⟩
    · exact Or.inl ⟨.ask i k, .nil _, rfl⟩
    · rcases ih r htail with ⟨p', hp, rfl⟩ | ⟨a, log₁, log₂, rfl, hp, hf⟩
      · exact Or.inl ⟨p', .ask hp, rfl⟩
      · exact Or.inr ⟨a, ⟨i, r⟩ :: log₁, log₂, rfl, .ask hp, hf⟩

/-- **Attempts.** A path through a `try` is a path through what is tried.

**Proof sketch.** Induction on what is tried. -/
theorem path_attempt {q : Program ι ο ε (Except ε α)} (h : Path p.attempt log q) :
    ∃ p', Path p log p' ∧ q = p'.attempt := by
  induction p generalizing log with
  | done a =>
    obtain ⟨rfl, rfl⟩ := h.of_ended rfl
    exact ⟨.done a, .nil _, rfl⟩
  | raise e =>
    obtain ⟨rfl, rfl⟩ := h.of_ended rfl
    exact ⟨.raise e, .nil _, rfl⟩
  | ask i k ih =>
    rcases path_ask_iff.mp h with ⟨rfl, rfl⟩ | ⟨r, log', rfl, htail⟩
    · exact ⟨.ask i k, .nil _, rfl⟩
    · obtain ⟨p', hp, rfl⟩ := ih r htail
      exact ⟨p', .ask hp, rfl⟩

/-- A path through the first part of a sequence. -/
lemma Path.bind (h : Path p log q) : Path (p >>= f) log (q >>= f) := by
  induction h with
  | nil => exact .nil _
  | ask _ ih => exact .ask ih

/-- A path through what is tried. -/
lemma Path.attempt (h : Path p log q) : Path p.attempt log q.attempt := by
  induction h with
  | nil => exact .nil _
  | ask _ ih => exact .ask ih

/-- The log determines what a program has become. -/
lemma Path.unique {q' : Program ι ο ε α} (h : Path p log q) (h' : Path p log q') : q = q' := by
  induction h with
  | nil =>
    cases h'
    rfl
  | ask _ ih =>
    cases h' with
    | ask h' => exact ih h'

/-- What follows after a part of a path. -/
lemma Path.rest {q' : Program ι ο ε α} (h : Path p (log ++ log') q') (hp : Path p log q) :
    Path q log' q' := by
  obtain ⟨p', hp', hrest⟩ := exists_of_path_append h
  rwa [hp.unique hp']

/-- **Exceptions.** A sequence throws in its first part, or in its second after the first part has
returned. -/
theorem path_bind_raise_iff : Path (p >>= f) log (raise e) ↔ Path p log (raise e) ∨
    ∃ a log₁ log₂, log = log₁ ++ log₂ ∧ Path p log₁ (done a) ∧ Path (f a) log₂ (raise e) := by
  constructor
  · intro h
    rcases path_bind h with ⟨p', hp, hraise⟩ | hlater
    · cases p' with
      | done a => exact Or.inr ⟨a, log, [], (List.append_nil log).symm, hp, hraise ▸ .nil _⟩
      | raise e' =>
        cases hraise
        exact Or.inl hp
      | ask i k => cases hraise
    · exact Or.inr hlater
  · rintro (h | ⟨a, log₁, log₂, rfl, hp, hf⟩)
    · exact h.bind
    · exact hp.bind.append hf

/-- A `try` does not throw. -/
lemma not_path_attempt_raise : ¬ Path p.attempt log (raise e) := by
  intro h
  obtain ⟨p', -, hraise⟩ := path_attempt h
  cases p' <;> cases hraise

/-! ## Contracts -/

/-- What is relied on of an answer, and what is required of an action, after a log. -/
structure Contract (ι : Type) (ο : ι → Type) where
  allows : List (Entry ι ο) → Entry ι ο → Prop
  demands : List (Entry ι ο) → ι → Prop

/-- As long as the answers are allowed, the program asks only for actions that meet the demands,
and at its end `Q` holds of the log and of the value or the exception. -/
def Respects (C : Contract ι ο) (Q : List (Entry ι ο) → Except ε α → Prop) :
    Program ι ο ε α → List (Entry ι ο) → Prop
  | done a, log => Q log (.ok a)
  | raise e, log => Q log (.error e)
  | ask i k, log => C.demands log i ∧
      ∀ r, C.allows log ⟨i, r⟩ → Respects C Q (k r) (log ++ [⟨i, r⟩])

/-- The answers in `log'`, which comes after `log`, are allowed. -/
def Contract.Allows (C : Contract ι ο) (log log' : List (Entry ι ο)) : Prop :=
  ∀ pre e post, log' = pre ++ e :: post → C.allows (log ++ pre) e

/-- The contract that relies on nothing and requires a property of the log before every action. -/
def Contract.always (I : List (Entry ι ο) → Prop) : Contract ι ο where
  allows _ _ := True
  demands log _ := I log

variable {C : Contract ι ο} {Q Q' : List (Entry ι ο) → Except ε α → Prop}

/-- The first answer, and the others. -/
lemma Contract.allows_cons {e : Entry ι ο} (h : C.Allows log (e :: log')) :
    C.allows log e ∧ C.Allows (log ++ [e]) log' := by
  constructor
  · have hfirst := h [] e log' rfl
    rwa [List.append_nil] at hfirst
  · intro pre e' post hlog
    have hlater := h (e :: pre) e' post (by rw [hlog, List.cons_append])
    rwa [List.append_cons] at hlater

namespace Respects

/-- One action and what follows it. -/
lemma perform_bind_iff {g : ο i → Program ι ο ε α} : Respects C Q (perform i >>= g) log ↔
    C.demands log i ∧ ∀ r, C.allows log ⟨i, r⟩ → Respects C Q (g r) (log ++ [⟨i, r⟩]) :=
  Iff.rfl

/-- A value that is returned, or an exception that is thrown. -/
@[simp] lemma ofExcept_iff {r : Except ε α} : Respects C Q (ofExcept r) log ↔ Q log r := by
  cases r <;> exact Iff.rfl

/-- What is known at the end may be weakened. -/
lemma mono (h : Respects C Q p log) (hQ : ∀ log r, Q log r → Q' log r) : Respects C Q' p log := by
  induction p generalizing log with
  | done a => exact hQ _ _ h
  | raise e => exact hQ _ _ h
  | ask i k ih => exact ⟨h.1, fun r hr => ih r (h.2 r hr)⟩

/-- **Sequences.** The second part goes on from what is known at the end of the first.

**Proof sketch.** Induction on the first part. -/
theorem bind {R : List (Entry ι ο) → Except ε β → Prop} (h : Respects C Q p log)
    (hok : ∀ log a, Q log (.ok a) → Respects C R (f a) log)
    (herror : ∀ log e, Q log (.error e) → R log (.error e)) : Respects C R (p >>= f) log := by
  induction p generalizing log with
  | done a => exact hok _ _ h
  | raise e => exact herror _ _ h
  | ask i k ih => exact ⟨h.1, fun r hr => ih r (h.2 r hr)⟩

/-- **Attempts.** A `try` ends with the value or with the exception.

**Proof sketch.** Induction on what is tried. -/
theorem attempt {R : List (Entry ι ο) → Except ε (Except ε α) → Prop}
    (h : Respects C (fun log r => R log (.ok r)) p log) : Respects C R p.attempt log := by
  induction p generalizing log with
  | done a => exact h
  | raise e => exact h
  | ask i k ih => exact ⟨h.1, fun r hr => ih r (h.2 r hr)⟩

/-- **Paths.** A contract that is kept is kept after every log with allowed answers.

**Proof sketch.** Induction on the path. -/
theorem path (h : Respects C Q p log) (hp : Path p log' q) (hC : C.Allows log log') :
    Respects C Q q (log ++ log') := by
  induction hp generalizing log with
  | nil =>
    rw [List.append_nil]
    exact h
  | ask _ ih =>
    obtain ⟨hfirst, hothers⟩ := Contract.allows_cons hC
    rw [List.append_cons]
    exact ih (h.2 _ hfirst) hothers

/-- What is known at the end of a program that has ended. -/
lemma of_ended (h : Respects C Q p log) (hp : p.Ended) : ∃ r, Q log r := by
  cases p with
  | done a => exact ⟨.ok a, h⟩
  | raise e => exact ⟨.error e, h⟩
  | ask i k => cases hp

/-- An action that is asked for after a log with allowed answers meets the demands. -/
theorem asked (h : Respects C Q p []) (hp : Path p log (.ask i k)) (hC : C.Allows [] log) :
    C.demands log i :=
  (h.path hp hC).1

/-- Every action in a log with allowed answers meets the demands. -/
theorem demanded (h : Respects C Q p []) (hp : Path p log q) (hC : C.Allows [] log)
    {pre post : List (Entry ι ο)} {e : Entry ι ο} (hlog : log = pre ++ e :: post) :
    C.demands pre e.action := by
  subst hlog
  obtain ⟨p', hpre, hpost⟩ := exists_of_path_append hp
  cases hpost with
  | ask _ =>
    refine h.asked hpre fun pre₁ e₁ post₁ hlog => ?_
    exact hC pre₁ e₁ _ (by rw [hlog, List.append_assoc, List.cons_append])

/-- **Invariants.** A property of logs that is kept as long as the program asks, and holds at its
end, holds of the log of every path. -/
theorem invariant {I : List (Entry ι ο) → Prop} (h : Respects (.always I) (fun log _ => I log) p [])
    (hp : Path p log q) : I log := by
  have hq := h.path hp fun _ _ _ _ => trivial
  cases q with
  | done a => exact hq
  | raise e => exact hq
  | ask i k => exact hq.1

end Respects

/-! ## Actions of a kind -/

/-- The program asks only for actions with the property `P`, whatever the answers are. -/
def Only (P : ι → Prop) : Program ι ο ε α → Prop
  | done _ => True
  | raise _ => True
  | ask i k => P i ∧ ∀ r, Only P (k r)

namespace Only

variable {P : ι → Prop}

/-- A value that is returned, or an exception that is thrown. -/
lemma ofExcept (r : Except ε α) : Only P (ofExcept r : Program ι ο ε α) := by
  cases r <;> trivial

/-- A sequence. -/
lemma bind (h : Only P p) (hf : ∀ a, Only P (f a)) : Only P (p >>= f) := by
  induction p with
  | done a => exact hf a
  | raise e => trivial
  | ask i k ih => exact ⟨h.1, fun r => ih r (h.2 r)⟩

/-- A kind of actions may be widened. -/
lemma mono {P' : ι → Prop} (h : Only P p) (hP : ∀ i, P i → P' i) : Only P' p := by
  induction p with
  | done a => trivial
  | raise e => trivial
  | ask i k ih => exact ⟨hP i h.1, fun r => ih r (h.2 r)⟩

/-- A `try`. -/
lemma attempt (h : Only P p) : Only P p.attempt := by
  induction p with
  | done a => trivial
  | raise e => trivial
  | ask i k ih => exact ⟨h.1, fun r => ih r (h.2 r)⟩

/-- The actions on a path are of the kind. -/
lemma path (h : Only P p) (hp : Path p log q) : ∀ e ∈ log, P e.action := by
  induction hp with
  | nil => simp
  | ask _ ih =>
    rw [List.forall_mem_cons]
    exact ⟨h.1, ih (h.2 _)⟩

/-- **Invariants.** A property of logs that entries of the kind keep, and that implies the demands
for actions of the kind, holds throughout.

**Proof sketch.** Induction on the program. -/
theorem respects {I : List (Entry ι ο) → Prop} (h : Only P p)
    (hstep : ∀ log e, P e.action → I log → I (log ++ [e]))
    (hdemands : ∀ log i, P i → I log → C.demands log i) (hlog : I log) :
    Respects C (fun log _ => I log) p log := by
  induction p generalizing log with
  | done a => exact hlog
  | raise e => exact hlog
  | ask i k ih =>
    exact ⟨hdemands log i h.1 hlog, fun r _ => ih r (h.2 r) (hstep log ⟨i, r⟩ h.1 hlog)⟩

end Only

/-! ## Numbers of actions -/

/-- The program asks for at most `n` actions, whatever the answers are. -/
def Within : Program ι ο ε α → ℕ → Prop
  | done _, _ => True
  | raise _, _ => True
  | ask _ k, n => ∃ m, n = m + 1 ∧ ∀ r, Within (k r) m

namespace Within

variable {n m : ℕ}

/-- A value that is returned, or an exception that is thrown. -/
lemma ofExcept (r : Except ε α) (n : ℕ) : Within (ofExcept r : Program ι ο ε α) n := by
  cases r <;> trivial

/-- A bound may be raised. -/
lemma mono (h : Within p n) (hnm : n ≤ m) : Within p m := by
  induction p generalizing n m with
  | done a => trivial
  | raise e => trivial
  | ask i k ih =>
    obtain ⟨n', rfl, hk⟩ := h
    exact ⟨m - 1, by omega, fun r => ih r (hk r) (by omega)⟩

/-- A sequence. -/
lemma bind (h : Within p n) (hf : ∀ a, Within (f a) m) : Within (p >>= f) (n + m) := by
  induction p generalizing n with
  | done a => exact (hf a).mono (Nat.le_add_left m n)
  | raise e => trivial
  | ask i k ih =>
    obtain ⟨n', rfl, hk⟩ := h
    exact ⟨n' + m, by omega, fun r => ih r (hk r)⟩

/-- A `try`. -/
lemma attempt (h : Within p n) : Within p.attempt n := by
  induction p generalizing n with
  | done a => trivial
  | raise e => trivial
  | ask i k ih =>
    obtain ⟨n', rfl, hk⟩ := h
    exact ⟨n', rfl, fun r => ih r (hk r)⟩

/-- **Bounds.** No path is longer than the bound. What is left of the program is within the rest.

**Proof sketch.** Induction on the path. -/
theorem length_le (h : Within p n) (hp : Path p log q) :
    log.length ≤ n ∧ Within q (n - log.length) := by
  induction hp generalizing n with
  | nil => exact ⟨Nat.zero_le n, h⟩
  | ask _ ih =>
    obtain ⟨m, rfl, hk⟩ := h
    obtain ⟨hle, hrest⟩ := ih (hk _)
    rw [List.length_cons]
    exact ⟨by omega, by rwa [Nat.add_sub_add_right]⟩

end Within

end Program
