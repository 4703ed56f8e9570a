import Mathlib.Data.List.Basic
import Mathlib.Data.List.TakeWhile
import Mathlib.Data.List.Infix
import Mathlib.Data.List.TakeDrop

set_option relaxedAutoImplicit false
set_option autoImplicit false

/-!
# Positions in a word

A reader of a word keeps the whole word and a position. `Cursor.At d p w` says that the word `d`
continues with exactly `w` from position `p` on; reading a prefix of `w` moves the position by
its length.

## Main definitions

* `Cursor.At` — what stands at a position of a word.

## Main results

* `Cursor.At.skip` — the position after a prefix.
* `Cursor.not_prefix_append` — a literal that differs from the word ahead inside its known part.
* `Cursor.takeWhile_append`, `Cursor.exists_longest_prefix` — the longest prefix with a property.
-/

namespace Cursor

variable {α : Type}

/-- From position `p`, which is not beyond its end, the word `d` continues with `w`. -/
def At (d : List α) (p : ℕ) (w : List α) : Prop := p ≤ d.length ∧ d.drop p = w

namespace At

variable {d u v w : List α} {p : ℕ} {c : α}

/-- The whole word stands at its start. -/
lemma start (d : List α) : At d 0 d := ⟨Nat.zero_le _, rfl⟩

/-- A position of a concatenation. -/
lemma append_left (u v : List α) : At (u ++ v) u.length v := ⟨by simp, by simp⟩

/-- The length of what stands at a position. -/
lemma length_eq (h : At d p w) : p + w.length = d.length := by
  obtain ⟨hp, rfl⟩ := h
  rw [List.length_drop]
  omega

/-- A word in three parts, the first of which is read next. -/
lemma assoc {x : List α} (h : At d p (u ++ v ++ x)) : At d p (u ++ (v ++ x)) := by
  rwa [List.append_assoc] at h

/-- Reading a prefix. -/
lemma skip (h : At d p (u ++ v)) : At d (p + u.length) v := by
  refine ⟨?_, ?_⟩
  · have := h.length_eq
    rw [List.length_append] at this
    omega
  · rw [← List.drop_drop, h.2, List.drop_left]

/-- What is left determines the position. -/
lemma unique {q : ℕ} (h : At d p w) (h' : At d q w) : p = q := by
  have := h.length_eq
  have := h'.length_eq
  omega

/-- Reading one letter. -/
lemma next (h : At d p (c :: v)) : At d (p + 1) v := skip (u := [c]) h

/-- A prefix of what stands at a position is a prefix there. -/
lemma isPrefix (h : At d p (u ++ v)) : u <+: d.drop p := by
  rw [h.2]
  exact List.prefix_append u v

/-- At the end of the word nothing is left. -/
lemma eq_length (h : At d p []) : p = d.length := by
  simpa using h.length_eq

end At

/-! ## Literals that do not match -/

/-- A literal that differs from the known part `u` of the word ahead is no prefix of it. -/
lemma not_prefix_append {w u v : List α} (h : ¬ w.take u.length <+: u) : ¬ w <+: u ++ v := by
  intro hw
  apply h
  have := hw.take u.length
  rwa [List.take_left] at this

/-- A literal whose first letter differs from the first letter of the word is no prefix of it. -/
lemma not_prefix_cons {a b : α} {w v : List α} (h : a ≠ b) : ¬ a :: w <+: b :: v := by
  intro hw
  exact h (List.cons_prefix_cons.mp hw).1

/-- A literal is no prefix of a word that does not start with its first letter. -/
lemma not_prefix_of_head {a : α} {w v : List α} (h : ∀ c, v.head? = some c → c ≠ a) :
    ¬ a :: w <+: v := by
  rintro ⟨u, rfl⟩
  exact h a rfl rfl

/-- A literal without the letter `c` that is a prefix of a word ends before the first `c`. -/
lemma prefix_of_prefix_append_cons {w u v : List α} {c : α} (h : w <+: u ++ c :: v)
    (hc : c ∉ w) : w <+: u := by
  rcases Nat.lt_or_ge u.length w.length with hl | hl
  · have hp : u ++ [c] <+: w :=
      List.prefix_of_prefix_length_le ⟨v, by simp⟩ h (by simp; omega)
    exact absurd (hp.subset (by simp)) hc
  · exact List.prefix_of_prefix_length_le h (List.prefix_append u _) hl

/-! ## Longest prefixes -/

/-- The first letter of a word has the property of its head. -/
lemma head_cons {f : α → Bool} {b : Bool} {a : α} (v : List α) (h : f a = b) :
    ∀ c, (a :: v).head? = some c → f c = b := by
  intro c hc
  rwa [← Option.some.inj hc]

/-- A longest prefix stops at the first letter without the property. -/
lemma takeWhile_append {f : α → Bool} {u v : List α} (hu : ∀ a ∈ u, f a = true)
    (hv : ∀ a, v.head? = some a → f a = false) : (u ++ v).takeWhile f = u := by
  rw [List.takeWhile_append_of_pos hu]
  cases v with
  | nil => simp
  | cons a v => simp [hv a rfl]

/-- What stands at a position starts with its longest prefix. -/
lemma At.longest_prefix {d : List α} {p : ℕ} (f : α → Bool) (hp : p ≤ d.length) :
    At d p ((d.drop p).takeWhile f ++ (d.drop p).dropWhile f) :=
  ⟨hp, List.takeWhile_append_dropWhile.symm⟩

/-- A word is what precedes the first letter without the property, and the rest. -/
lemma exists_longest_prefix (f : α → Bool) (w : List α) :
    ∃ u v, w = u ++ v ∧ (∀ a ∈ u, f a = true) ∧ ∀ a, v.head? = some a → f a = false := by
  refine ⟨w.takeWhile f, w.dropWhile f, List.takeWhile_append_dropWhile.symm,
    fun a ha => List.mem_takeWhile_imp ha, fun a ha => ?_⟩
  simpa [ha] using List.head?_dropWhile_not f w

/-! ## Sequences of words -/

/-- A sequence of non-empty words is at least as long as the number of its words. -/
lemma length_le_flatMap {β : Type} {f : β → List α} (hf : ∀ b, 0 < (f b).length) {bs : List β} :
    bs.length ≤ (bs.flatMap f).length := by
  induction bs with
  | nil => exact Nat.zero_le _
  | cons b bs ih =>
    have := hf b
    rw [List.flatMap_cons, List.length_append, List.length_cons]
    omega

end Cursor
