import Mathlib.Data.Nat.Notation
import Mathlib.Data.List.Basic
import Mathlib.Data.List.TakeWhile
import Mathlib.Tactic.Common

set_option relaxedAutoImplicit false
set_option autoImplicit false

/-!
# Patterns

Regular expressions as a backtracking matcher runs them: the matches of a pattern at a position come
in an order of preference, a repetition tries the longest word first, and a search takes the
preferred match at the leftmost position that has one. Anchors look at the letter before the
position.

## Main definitions

* `Pattern`, `Pattern.Match` — patterns with capture groups, and what a match consists of.
* `Pattern.all`, `Pattern.first` — the matches at a position, and the preferred one.
* `Pattern.search` — the leftmost match.

## Main results

* `Pattern.first_seq`, `Pattern.first_many` — where the first choices fit, they are taken.
* `Pattern.mem_all_seq`, `Pattern.mem_all_many` — what a match is made of.
* `Pattern.search_eq_some_iff`, `Pattern.search_eq_none_iff` — what a search finds.
-/

/-- Patterns: a word, a repetition of letters of a class, a sequence, a capture group, a part that
may be missing, and the start of a line, where `f` are the letters that end a line. -/
inductive Pattern (α : Type) where
  | lit (w : List α)
  | many (f : α → Bool) (lo : ℕ) (hi : Option ℕ)
  | seq (x y : Pattern α)
  | group (x : Pattern α)
  | opt (x : Pattern α)
  | lineStart (f : α → Bool)

namespace Pattern

variable {α : Type}

/-- The word that is matched, the words of the capture groups in it, and what follows. -/
structure Match (α : Type) where
  word : List α
  groups : List (List α)
  rest : List α

/-- The number of capture groups. -/
def count : Pattern α → ℕ
  | lit _ | many _ _ _ | lineStart _ => 0
  | seq x y => x.count + y.count
  | group x => x.count + 1
  | opt x => x.count

/-- One match after the other. -/
def Match.append (m n : Match α) : Match α := ⟨m.word ++ n.word, m.groups ++ n.groups, n.rest⟩

/-- The groups of two matches, one after the other. -/
@[simp] lemma Match.append_groups (m n : Match α) : (m.append n).groups = m.groups ++ n.groups := by
  rfl

/-- The letter before the end of `w`, where `prev` is the one before its start. -/
def before (prev : Option α) (w : List α) : Option α := w.getLast?.or prev

/-- The lengths of a repetition of at least `lo` and at most `hi` letters, out of `k` that fit, in
order of preference. -/
def lengths (lo : ℕ) (hi : Option ℕ) (k : ℕ) : List ℕ :=
  (List.range' lo (hi.elim k (min k) + 1 - lo)).reverse

variable {lo : ℕ} {hi : Option ℕ} {prev : Option α} {w : List α}

/-- A word with a first letter. -/
@[simp] lemma before_cons (prev : Option α) {a : α} : before prev (a :: w) = before (some a) w := by
  rw [before, before, List.getLast?_cons]
  cases w.getLast? <;> rfl

/-- A word with a last letter. -/
@[simp] lemma before_concat {a : α} : before prev (w ++ [a]) = some a := by
  rw [before, List.getLast?_concat, Option.some_or]

/-- Nothing before the word. -/
lemma before_none : before none w = w.getLast? := by rw [before, Option.or_none]

/-- The lengths of a repetition are within its bounds. -/
lemma mem_lengths {k i : ℕ} (h : i ∈ lengths lo hi k) :
    lo ≤ i ∧ i ≤ k ∧ ∀ b ∈ hi, i ≤ b := by
  rw [lengths, List.mem_reverse, List.mem_range'_1] at h
  cases hi with
  | none =>
    simp only [Option.elim_none] at h
    exact ⟨h.1, by omega, nofun⟩
  | some b =>
    simp only [Option.elim_some] at h
    refine ⟨h.1, by omega, fun b' hb' => ?_⟩
    obtain rfl := Option.some.inj hb'
    omega

/-- The preferred length is the largest within the bounds. -/
lemma head?_lengths {k i : ℕ} (hlo : lo ≤ i) (hi' : hi.elim k (min k) = i) :
    (lengths lo hi k).head? = some i := by
  obtain ⟨j, hj⟩ : ∃ j, i + 1 - lo = j + 1 := ⟨i - lo, by omega⟩
  rw [lengths, hi', hj, List.range'_concat, List.reverse_append, List.reverse_singleton,
    List.singleton_append, List.head?_cons]
  congr 1
  omega

/-- The letters that fit end where one comes that does not. -/
lemma takeWhile_append {f : α → Bool} {s : List α} (hw : ∀ a ∈ w, f a = true)
    (hend : ∀ a ∈ s.head?, f a = false) : (w ++ s).takeWhile f = w := by
  rw [List.takeWhile_append_of_pos hw]
  cases s with
  | nil => simp
  | cons a s => simp [List.takeWhile_cons_of_neg, hend a rfl]

variable [DecidableEq α]

/-- The matches at the start of `s` in order of preference, where `prev` is the letter before. The
groups of a part that is missing are empty. -/
def all : Pattern α → Option α → List α → List (Match α)
  | lit w, _, s => if w <+: s then [⟨w, [], s.drop w.length⟩] else []
  | many f lo hi, _, s =>
    (lengths lo hi (s.takeWhile f).length).map fun n => ⟨s.take n, [], s.drop n⟩
  | seq x y, prev, s =>
    (x.all prev s).flatMap fun m => (y.all (before prev m.word) m.rest).map m.append
  | group x, prev, s => (x.all prev s).map fun m => ⟨m.word, m.word :: m.groups, m.rest⟩
  | opt x, prev, s => x.all prev s ++ [⟨[], List.replicate x.count [], s⟩]
  | lineStart f, prev, s => if prev.all f then [⟨[], [], s⟩] else []

/-- The preferred match at the start of `s`. -/
def first (x : Pattern α) (prev : Option α) (s : List α) : Option (Match α) := (x.all prev s).head?

/-- The preferred match at the leftmost position of `s` that has one. -/
def search (x : Pattern α) : Option α → List α → Option (Match α)
  | prev, [] => x.first prev []
  | prev, a :: s => (x.first prev (a :: s)).or (x.search (some a) s)

variable {x y : Pattern α} {f : α → Bool} {s : List α} {m n : Match α}

/-! ## Equations -/

/-- A literal matches in one way or none. -/
lemma all_lit : (lit w).all prev s = if w <+: s then [⟨w, [], s.drop w.length⟩] else [] := rfl

/-- A repetition matches every permitted length, the longest first. -/
lemma all_many : (many f lo hi).all prev s =
    (lengths lo hi (s.takeWhile f).length).map fun n => ⟨s.take n, [], s.drop n⟩ := rfl

/-- The second pattern goes on from each match of the first. -/
lemma all_seq : (seq x y).all prev s =
    (x.all prev s).flatMap fun m => (y.all (before prev m.word) m.rest).map m.append := rfl

/-- A group records the word it has matched. -/
lemma all_group : (group x).all prev s =
    (x.all prev s).map fun m => ⟨m.word, m.word :: m.groups, m.rest⟩ := rfl

/-- An optional pattern is tried before it is left out. -/
lemma all_opt : (opt x).all prev s = x.all prev s ++ [⟨[], List.replicate x.count [], s⟩] := rfl

/-- The start of a line is a matter of the character before. -/
lemma all_lineStart : (lineStart f).all prev s = if prev.all f then [⟨[], [], s⟩] else [] := rfl

/-- A search goes on one character later where nothing matches. -/
lemma search_cons {a : α} : x.search prev (a :: s) =
    (x.first prev (a :: s)).or (x.search (some a) s) := rfl

/-! ## Matches -/

/-- There is no preferred match exactly if there is no match. -/
lemma first_eq_none_iff : x.first prev s = none ↔ ∀ m, m ∉ x.all prev s := by
  rw [first, List.head?_eq_none_iff, List.eq_nil_iff_forall_not_mem]

/-- The preferred match is a match. -/
lemma mem_all_of_first (h : x.first prev s = some m) : m ∈ x.all prev s :=
  List.mem_of_mem_head? h

/-- A match of a word. -/
lemma mem_all_lit (h : m ∈ (lit w).all prev s) :
    s = w ++ m.rest ∧ m.word = w ∧ m.groups = [] := by
  rw [all_lit] at h
  split at h
  · next hprefix =>
    obtain ⟨t, rfl⟩ := hprefix
    rw [List.mem_singleton.mp h]
    exact ⟨by rw [List.drop_left], rfl, rfl⟩
  · cases h

/-- The word is matched where it stands. -/
lemma first_lit : (lit w).first prev (w ++ s) = some ⟨w, [], s⟩ := by
  rw [first, all_lit, if_pos (List.prefix_append w s), List.drop_left]
  rfl

/-- The word is not matched where it does not stand. -/
lemma first_lit_eq_none_iff : (lit w).first prev s = none ↔ ¬ w <+: s := by
  rw [first, all_lit]
  split
  · next h => exact iff_of_false nofun (not_not_intro h)
  · next h => exact iff_of_true rfl h

/-- A match of a repetition. -/
lemma mem_all_many (h : m ∈ (many f lo hi).all prev s) :
    s = m.word ++ m.rest ∧ (∀ a ∈ m.word, f a = true) ∧ lo ≤ m.word.length ∧
      (∀ b ∈ hi, m.word.length ≤ b) ∧ m.groups = [] := by
  obtain ⟨i, hi', rfl⟩ := List.mem_map.mp h
  obtain ⟨hlo, hk, hbound⟩ := mem_lengths hi'
  have hprefix : s.takeWhile f <+: s := List.takeWhile_prefix f
  have htake : s.take i = (s.takeWhile f).take i := by
    rw [List.prefix_iff_eq_take.mp hprefix, List.take_take, Nat.min_eq_left hk]
  have hlen : (s.take i).length = i :=
    List.length_take_of_le (hk.trans hprefix.length_le)
  refine ⟨(List.take_append_drop i s).symm, fun a ha => ?_, ?_, ?_, rfl⟩
  · rw [htake] at ha
    exact List.mem_takeWhile_imp (List.mem_of_mem_take ha)
  · rwa [hlen]
  · rwa [hlen]

/-- A repetition takes as many letters as fit, up to its bound. -/
lemma first_many_take {i : ℕ} (hlo : lo ≤ i)
    (hi' : hi.elim (s.takeWhile f).length (min (s.takeWhile f).length) = i) :
    (many f lo hi).first prev s = some ⟨s.take i, [], s.drop i⟩ := by
  rw [first, all_many, List.head?_map, head?_lengths hlo hi', Option.map_some]

/-- The longest word of a repetition is preferred: it ends where the class ends. -/
lemma first_many (hw : ∀ a ∈ w, f a = true) (hlo : lo ≤ w.length)
    (hend : ∀ a ∈ s.head?, f a = false) (hbound : ∀ b ∈ hi, w.length ≤ b) :
    (many f lo hi).first prev (w ++ s) = some ⟨w, [], s⟩ := by
  rw [first_many_take hlo, List.take_left, List.drop_left]
  rw [takeWhile_append hw hend]
  cases hi with
  | none => rfl
  | some b => exact Nat.min_eq_left (hbound b rfl)

/-- A match of a sequence. -/
lemma mem_all_seq (h : m ∈ (seq x y).all prev s) :
    ∃ m₁ ∈ x.all prev s, ∃ m₂ ∈ y.all (before prev m₁.word) m₁.rest, m = m₁.append m₂ := by
  obtain ⟨m₁, h₁, h⟩ := List.mem_flatMap.mp h
  obtain ⟨m₂, h₂, rfl⟩ := List.mem_map.mp h
  exact ⟨m₁, h₁, m₂, h₂, rfl⟩

/-- Where the preferred match of the first part is followed by a match of the second, the two are
preferred. -/
lemma first_seq (hx : x.first prev s = some m)
    (hy : y.first (before prev m.word) m.rest = some n) :
    (seq x y).first prev s = some (m.append n) := by
  obtain ⟨ms, hms⟩ := List.head?_eq_some_iff.mp hx
  rw [first, all_seq, hms, List.flatMap_cons, List.head?_append, List.head?_map]
  rw [first] at hy
  rw [hy]
  rfl

/-- A match of a group. -/
lemma mem_all_group (h : m ∈ (group x).all prev s) :
    ∃ m₁ ∈ x.all prev s, m = ⟨m₁.word, m₁.word :: m₁.groups, m₁.rest⟩ := by
  obtain ⟨m₁, h₁, rfl⟩ := List.mem_map.mp h
  exact ⟨m₁, h₁, rfl⟩

/-- The preferred match of a group. -/
lemma first_group (h : x.first prev s = some m) :
    (group x).first prev s = some ⟨m.word, m.word :: m.groups, m.rest⟩ := by
  rw [first] at h
  rw [first, all_group, List.head?_map, h]
  rfl

/-- A match of a part that may be missing. -/
lemma mem_all_opt (h : m ∈ (opt x).all prev s) :
    m ∈ x.all prev s ∨ m = ⟨[], List.replicate x.count [], s⟩ := by
  rcases List.mem_append.mp h with h | h
  · exact Or.inl h
  · exact Or.inr (List.mem_singleton.mp h)

/-- A part that may be missing is preferred to be there. -/
lemma first_opt_of_some (h : x.first prev s = some m) : (opt x).first prev s = some m := by
  rw [first] at h
  rw [first, all_opt, List.head?_append, h, Option.some_or]

/-- A part that cannot be there is missing. -/
lemma first_opt_of_none (h : x.first prev s = none) :
    (opt x).first prev s = some ⟨[], List.replicate x.count [], s⟩ := by
  rw [first] at h
  rw [first, all_opt, List.head?_append, h, Option.none_or]
  rfl

/-- A match of the start of a line. -/
lemma mem_all_lineStart (h : m ∈ (lineStart f).all prev s) :
    prev.all f = true ∧ m = ⟨[], [], s⟩ := by
  rw [all_lineStart] at h
  split at h
  · next hprev => exact ⟨hprev, List.mem_singleton.mp h⟩
  · cases h

/-- The start of a line is matched where it is. -/
lemma first_lineStart (h : prev.all f = true) :
    (lineStart f).first prev s = some ⟨[], [], s⟩ := by
  rw [first, all_lineStart, if_pos h]
  rfl

/-! ## Searches -/

/-- A search takes a match at its start. -/
lemma search_of_first (h : x.first prev s = some m) : x.search prev s = some m := by
  cases s with
  | nil => exact h
  | cons a s => rw [search_cons, h, Option.some_or]

/-- A search passes over positions without a match. -/
lemma search_skip {t : List α}
    (h : ∀ u v, w = u ++ v → v ≠ [] → x.first (before prev u) (v ++ t) = none) :
    x.search prev (w ++ t) = x.search (before prev w) t := by
  induction w generalizing prev with
  | nil => rfl
  | cons a w ih =>
    have hstart : x.first prev (a :: (w ++ t)) = none := h [] (a :: w) rfl nofun
    rw [List.cons_append, search_cons, hstart, Option.none_or, before_cons]
    refine ih fun u v huv hv => ?_
    rw [← before_cons prev]
    exact h (a :: u) v (by rw [huv]; rfl) hv

/-- What a search finds is the preferred match at some position, and before it there is no match. -/
lemma exists_of_search (h : x.search prev s = some m) :
    ∃ u t, s = u ++ t ∧ x.first (before prev u) t = some m ∧
      ∀ u₁ v, u = u₁ ++ v → v ≠ [] → x.first (before prev u₁) (v ++ t) = none := by
  induction s generalizing prev with
  | nil =>
    exact ⟨[], [], rfl, h, fun u₁ v huv hv => absurd (List.append_eq_nil_iff.mp huv.symm).2 hv⟩
  | cons a s ih =>
    rw [search_cons] at h
    cases hfirst : x.first prev (a :: s) with
    | some m' =>
      rw [hfirst, Option.some_or] at h
      rw [← Option.some.inj h]
      exact ⟨[], a :: s, rfl, hfirst,
        fun u₁ v huv hv => absurd (List.append_eq_nil_iff.mp huv.symm).2 hv⟩
    | none =>
      rw [hfirst, Option.none_or] at h
      obtain ⟨u, t, rfl, hmatch, hearlier⟩ := ih h
      refine ⟨a :: u, t, rfl, by rwa [before_cons], fun u₁ v huv hv => ?_⟩
      cases u₁ with
      | nil =>
        rw [← show a :: u = v from huv]
        exact hfirst
      | cons b u₁ =>
        obtain ⟨rfl, huv'⟩ := List.cons.inj huv
        rw [before_cons]
        exact hearlier u₁ v huv' hv

/-- **Leftmost matches.** A search finds the preferred match at the first position that has a
match.

**Proof sketch.** What is found comes from such a position by induction on the text
(`exists_of_search`); conversely, the search passes over the positions before
(`search_skip`). -/
theorem search_eq_some_iff : x.search prev s = some m ↔
    ∃ u t, s = u ++ t ∧ x.first (before prev u) t = some m ∧
      ∀ u₁ v, u = u₁ ++ v → v ≠ [] → x.first (before prev u₁) (v ++ t) = none := by
  constructor
  · exact exists_of_search
  · rintro ⟨u, t, rfl, hfirst, hearlier⟩
    rw [search_skip hearlier]
    exact search_of_first hfirst

/-- **No match.** A search finds nothing exactly if there is no match at any position.

**Proof sketch.** Induction on the text. -/
theorem search_eq_none_iff : x.search prev s = none ↔
    ∀ u t, s = u ++ t → x.first (before prev u) t = none := by
  induction s generalizing prev with
  | nil =>
    constructor
    · rintro h u t hut
      obtain ⟨rfl, rfl⟩ := List.append_eq_nil_iff.mp hut.symm
      exact h
    · exact fun h => h [] [] rfl
  | cons a s ih =>
    rw [search_cons, Option.or_eq_none_iff, ih]
    constructor
    · rintro ⟨hstart, hrest⟩ u t hut
      cases u with
      | nil => exact (show a :: s = t from hut) ▸ hstart
      | cons b u =>
        obtain ⟨rfl, hut'⟩ := List.cons.inj hut
        rw [before_cons]
        exact hrest u t hut'
    · intro h
      refine ⟨h [] (a :: s) rfl, fun u t hut => ?_⟩
      rw [← before_cons prev]
      exact h (a :: u) t (by rw [hut]; rfl)

/-- A pattern that is matched exactly where a word stands is found exactly if the text has the
word in it. -/
lemma search_eq_none_iff_infix (hx : ∀ prev t, x.first prev t = none ↔ ¬ w <+: t) :
    x.search prev s = none ↔ ¬ w <:+: s := by
  rw [search_eq_none_iff]
  constructor
  · rintro h ⟨u, v, rfl⟩
    exact (hx _ _).mp (h u (w ++ v) (List.append_assoc u w v)) (List.prefix_append w v)
  · rintro h u t rfl
    rw [hx]
    intro hprefix
    exact h (List.IsInfix.trans hprefix.isInfix (List.suffix_append u t).isInfix)

end Pattern
