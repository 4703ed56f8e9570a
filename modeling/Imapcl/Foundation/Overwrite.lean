import Mathlib.Logic.Function.Basic

set_option relaxedAutoImplicit false
set_option autoImplicit false

/-!
# Overwriting a store

A store is a function from places to contents. An operation on stores is an overwrite if at every
place it either leaves the contents alone, whatever they are, or puts there what does not depend on
the contents before. Writing one place is an overwrite, and so is one overwrite after another.

## Main definitions

* `Overwrites` — an operation on stores is an overwrite.

## Main results

* `Overwrites.comp` — one overwrite after another.
* `Overwrites.idem` — an overwrite that is repeated changes nothing more.
-/

/-- At every place, `f` leaves all contents alone, or puts there the same for all stores. -/
def Overwrites {ι α : Type} (f : (ι → α) → ι → α) : Prop :=
  ∀ i, (∀ s, f s i = s i) ∨ ∃ a, ∀ s, f s i = a

namespace Overwrites

variable {ι α : Type} {f g : (ι → α) → ι → α}

/-- Doing nothing is an overwrite. -/
lemma id : Overwrites fun s : ι → α => s := fun _ => Or.inl fun _ => rfl

/-- Writing one place is an overwrite. -/
lemma update [DecidableEq ι] (i : ι) (a : α) : Overwrites fun s => Function.update s i a := by
  intro j
  by_cases hj : j = i
  · subst hj
    exact Or.inr ⟨a, fun s => Function.update_self j a s⟩
  · exact Or.inl fun s => Function.update_of_ne hj a s

/-- One overwrite after another is an overwrite: the later one decides where it writes, and the
earlier one elsewhere. -/
lemma comp (hg : Overwrites g) (hf : Overwrites f) : Overwrites fun s => g (f s) := by
  intro i
  rcases hg i with hg | ⟨a, hg⟩
  · rcases hf i with hf | ⟨a, hf⟩
    · exact Or.inl fun s => (hg (f s)).trans (hf s)
    · exact Or.inr ⟨a, fun s => (hg (f s)).trans (hf s)⟩
  · exact Or.inr ⟨a, fun s => hg (f s)⟩

/-- An overwrite that is repeated changes nothing more. -/
lemma idem (hf : Overwrites f) (s : ι → α) : f (f s) = f s := by
  funext i
  rcases hf i with hf | ⟨a, hf⟩
  · exact hf (f s)
  · rw [hf, hf]

end Overwrites
