import Mathlib.Data.List.Basic

set_option relaxedAutoImplicit false
set_option autoImplicit false

/-!
# Words between separators

A sequence of words is written with a separator between them and read back by splitting at it
(`List.splitOn_intercalate`). This file has what else one needs about the written form.

## Main results

* `Words.intercalate_cons_eq` — the first word, and the others with a separator before each.
* `Words.mem_intercalate` — the letters of the written form.
* `Words.infix_append_cons_iff` — a word without the separator is on one side of it.
-/

namespace Words

variable {α : Type}

/-- The written form is the first word, followed by the others with a separator before each. -/
lemma intercalate_cons_eq (sep w : List α) (ws : List (List α)) :
    sep.intercalate (w :: ws) = w ++ ws.flatMap fun u => sep ++ u := by
  induction ws generalizing w with
  | nil => simp
  | cons u ws ih => simp [List.intercalate_cons_cons, ih u, List.append_assoc]

/-- A letter of the written form belongs to a word or to the separator. -/
lemma mem_intercalate {a : α} {sep : List α} {ws : List (List α)}
    (h : a ∈ sep.intercalate ws) : a ∈ sep ∨ ∃ w ∈ ws, a ∈ w := by
  cases ws with
  | nil => cases h
  | cons w ws =>
    rw [intercalate_cons_eq, List.mem_append, List.mem_flatMap] at h
    rcases h with h | ⟨u, hu, h⟩
    · exact Or.inr ⟨w, by simp, h⟩
    · rcases List.mem_append.mp h with h | h
      · exact Or.inl h
      · exact Or.inr ⟨u, by simp [hu], h⟩

/-- A word without the separator that stands in a text stands on one side of the separator.

**Proof sketch.** Otherwise the separator would be one of its letters. -/
lemma infix_append_cons_iff {c : α} {w u v : List α} (hc : c ∉ w) :
    w <:+: u ++ c :: v ↔ w <:+: u ∨ w <:+: v := by
  constructor
  · rintro ⟨x, y, h⟩
    rw [List.append_assoc] at h
    rcases List.append_eq_append_iff.mp h with ⟨a, rfl, ha⟩ | ⟨a, rfl, ha⟩
    · rcases List.append_eq_append_iff.mp ha with ⟨b, rfl, -⟩ | ⟨b, rfl, hb⟩
      · exact Or.inl ⟨x, b, List.append_assoc x w b⟩
      · cases b with
        | nil => exact Or.inl ⟨x, [], by simp⟩
        | cons d b =>
          obtain ⟨rfl, -⟩ := List.cons.inj hb
          exact absurd (by simp) hc
    · cases a with
      | nil =>
        cases w with
        | nil => exact Or.inl List.nil_infix
        | cons d w =>
          obtain ⟨rfl, -⟩ := List.cons.inj ha
          exact absurd (by simp) hc
      | cons d a =>
        obtain ⟨-, rfl⟩ := List.cons.inj ha
        exact Or.inr ⟨a, y, List.append_assoc a w y⟩
  · rintro (h | h)
    · exact h.trans (List.prefix_append u (c :: v)).isInfix
    · exact h.trans ((List.suffix_cons c v).trans (List.suffix_append u (c :: v))).isInfix

end Words
