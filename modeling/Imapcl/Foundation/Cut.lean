import Mathlib.Data.List.Infix

set_option relaxedAutoImplicit false
set_option autoImplicit false

/-!
# Words that are cut off

A stream of words is read in pieces, and a piece may end inside a word. `Cut c t w` says that `t`
is what is left of the word `w` when it is cut off right after an occurrence of the letter `c`.

## Main definitions

* `Cut` — a proper prefix that ends in a given letter.

## Main results

* `Cut.append` — a cut of a concatenation lies in the first part, between the parts, or in the
  second part.
* `Cut.cut_or_append` — the same for a prefix that ends in the letter.
-/

/-- `t` is a proper prefix of `w` and ends in the letter `c`. -/
structure Cut {α : Type} (c : α) (t w : List α) : Prop where
  isPrefix : t <+: w
  ne : t ≠ w
  last : t.getLast? = some c

namespace Cut

variable {α : Type} {c : α} {t u v w : List α}

/-- A prefix of a concatenation ends in the first part or extends into the second one. -/
lemma prefix_append_cases (h : t <+: u ++ v) :
    t <+: u ∨ ∃ t', t' ≠ [] ∧ t' <+: v ∧ t = u ++ t' := by
  rcases Nat.lt_or_ge u.length t.length with hl | hl
  · obtain ⟨t', rfl⟩ :=
      List.prefix_of_prefix_length_le (List.prefix_append u v) h (Nat.le_of_lt hl)
    refine Or.inr ⟨t', ?_, (List.prefix_append_right_inj u).mp h, rfl⟩
    rintro rfl
    simp at hl
  · exact Or.inl (List.prefix_of_prefix_length_le h (List.prefix_append u v) hl)

/-- The letter of the cut occurs in the word. -/
lemma mem (h : Cut c t w) : c ∈ w := h.isPrefix.subset (List.mem_of_getLast? h.last)

/-- A cut word is not empty. -/
lemma ne_nil (h : Cut c t w) : t ≠ [] := by
  rintro rfl
  cases h.last

/-- A cut word is shorter than the word. -/
lemma length_lt (h : Cut c t w) : t.length < w.length := by
  rcases Nat.lt_or_ge t.length w.length with hl | hl
  · exact hl
  · exact absurd (h.isPrefix.eq_of_length_le hl) h.ne

/-- A cut of a concatenation. -/
lemma append (h : Cut c t (u ++ v)) :
    Cut c t u ∨ t = u ∨ ∃ t', t = u ++ t' ∧ Cut c t' v := by
  rcases prefix_append_cases h.isPrefix with hu | ⟨t', hne, hv, rfl⟩
  · by_cases htu : t = u
    · exact Or.inr (Or.inl htu)
    · exact Or.inl ⟨hu, htu, h.last⟩
  · refine Or.inr (Or.inr ⟨t', rfl, hv, ?_, ?_⟩)
    · rintro rfl
      exact h.ne rfl
    · rw [← h.last, List.getLast?_append_of_ne_nil u hne]

/-- A cut does not lie in a first part without the letter. -/
lemma skip (h : Cut c t (u ++ v)) (hu : c ∉ u) : ∃ t', t = u ++ t' ∧ Cut c t' v := by
  rcases h.append with h' | rfl | h'
  · exact absurd h'.mem hu
  · exact absurd (List.mem_of_getLast? h.last) hu
  · exact h'

/-! ## Prefixes that end in a given letter -/

/-- A prefix that ends in the letter does not end in a first part without it. -/
lemma skip_of_last (h : t <+: u ++ v) (hlast : t.getLast? = some c) (hu : c ∉ u) :
    ∃ t', t = u ++ t' ∧ t' <+: v ∧ t'.getLast? = some c := by
  rcases prefix_append_cases h with h' | ⟨t', hne, hv, rfl⟩
  · exact absurd (h'.subset (List.mem_of_getLast? hlast)) hu
  · exact ⟨t', rfl, hv, by rw [← hlast, List.getLast?_append_of_ne_nil u hne]⟩

/-- A prefix that ends in the letter does not end in a second part without it. -/
lemma left_of_last (h : t <+: u ++ v) (hlast : t.getLast? = some c) (hv : c ∉ v) : t <+: u := by
  rcases prefix_append_cases h with h' | ⟨t', hne, h', rfl⟩
  · exact h'
  · rw [List.getLast?_append_of_ne_nil u hne] at hlast
    exact absurd (h'.subset (List.mem_of_getLast? hlast)) hv

/-- A prefix that ends in the letter cuts the first part, or contains it and is continued by
nothing or by a prefix of the second part that ends in the letter. -/
lemma cut_or_append (h : t <+: u ++ v) (hlast : t.getLast? = some c) :
    Cut c t u ∨ ∃ t', t = u ++ t' ∧ t' <+: v ∧ (t' = [] ∨ t'.getLast? = some c) := by
  rcases prefix_append_cases h with h' | ⟨t', hne, hv, rfl⟩
  · by_cases htu : t = u
    · exact Or.inr ⟨[], by rw [htu, List.append_nil], List.nil_prefix, Or.inl rfl⟩
    · exact Or.inl ⟨h', htu, hlast⟩
  · refine Or.inr ⟨t', rfl, hv, Or.inr ?_⟩
    rw [← hlast, List.getLast?_append_of_ne_nil u hne]

end Cut
