import Mathlib.Data.Nat.Digits.Defs
import Mathlib.Tactic.IntervalCases
import Imapcl.Response.Basic

set_option relaxedAutoImplicit false
set_option autoImplicit false

/-!
# Decimal numerals

How the program prints an unsigned number (`std::to_string`, `operator<<`), and what one needs to
read it back: a numeral is a non-empty word of digits, and the numeral of `n ≥ 10` is the numeral
of `n / 10` followed by one digit.

## Main definitions

* `Imapcl.decimal` — the decimal numeral of a number.
* `Imapcl.Digits` — words of one or more digits.
* `Imapcl.numeralValue` — the value of a word of digits.

## Main results

* `Imapcl.digit_induction` — induction along the digits of a numeral.
* `Imapcl.numeralValue_decimal` — a numeral determines its number.
-/

namespace Imapcl

/-- The decimal numeral of `n`. -/
def decimal (n : ℕ) : Bytes := (Nat.toDigits 10 n).map byte

/-- The digit of `k`. -/
def digit (k : ℕ) : UInt8 := byte k.digitChar

/-- The digit of `k` is the character `k` places after `'0'`. -/
lemma digit_toNat {k : ℕ} (h : k < 10) : (digit k).toNat = 48 + k := by
  interval_cases k <;> rfl

/-- A digit is a digit character. -/
lemma isDigit_digit {k : ℕ} (h : k < 10) : isDigit (digit k) = true := by
  interval_cases k <;> rfl

/-- A number below ten is one digit. -/
lemma decimal_of_lt {n : ℕ} (h : n < 10) : decimal n = [digit n] := by
  rw [decimal, Nat.toDigits_of_lt_base h]
  rfl

/-- A larger number ends in its last digit. -/
lemma decimal_of_le {n : ℕ} (h : 10 ≤ n) : decimal n = decimal (n / 10) ++ [digit (n % 10)] := by
  rw [decimal, Nat.toDigits_of_base_le (by decide) h, List.map_append]
  rfl

/-- Induction along the digits of the numeral of `n`. -/
@[elab_as_elim]
lemma digit_induction {motive : ℕ → Prop} (n : ℕ) (digit : ∀ n < 10, motive n)
    (append : ∀ n ≥ 10, motive (n / 10) → motive n) : motive n := by
  induction n using Nat.strong_induction_on with
  | _ n ih =>
    rcases Nat.lt_or_ge n 10 with h | h
    · exact digit n h
    · exact append n h (ih (n / 10) (by omega))

/-- A numeral consists of digits. -/
lemma isDigit_of_mem_decimal (n : ℕ) : ∀ c ∈ decimal n, isDigit c = true := by
  induction n using digit_induction with
  | digit n hn =>
    intro c hc
    rw [decimal_of_lt hn, List.mem_singleton] at hc
    rw [hc]
    exact isDigit_digit hn
  | append n hn ih =>
    intro c hc
    rw [decimal_of_le hn] at hc
    rcases List.mem_append.mp hc with hc | hc
    · exact ih c hc
    · rw [List.mem_singleton.mp hc]
      exact isDigit_digit (Nat.mod_lt n (by decide))

/-- What is no digit does not occur in a numeral. -/
lemma not_mem_decimal {c : UInt8} {n : ℕ} (hc : isDigit c = false) : c ∉ decimal n := by
  intro hm
  rw [isDigit_of_mem_decimal n c hm] at hc
  cases hc

/-- A numeral is not empty: it starts with a digit. -/
lemma exists_decimal_eq_cons (n : ℕ) : ∃ c w, decimal n = c :: w ∧ isDigit c = true := by
  cases h : decimal n with
  | nil =>
    rcases Nat.lt_or_ge n 10 with hn | hn
    · simp [decimal_of_lt hn] at h
    · simp [decimal_of_le hn] at h
  | cons c w => exact ⟨c, w, rfl, isDigit_of_mem_decimal n c (by simp [h])⟩

/-- A numeral is not empty. -/
lemma decimal_ne_nil (n : ℕ) : decimal n ≠ [] := by
  obtain ⟨c, w, hcw, -⟩ := exists_decimal_eq_cons n
  rw [hcw]
  exact List.cons_ne_nil c w

/-- A numeral as a server may write it: a word of one or more digits. -/
structure Digits (ds : Bytes) : Prop where
  nonempty : ds ≠ []
  digit : ∀ c ∈ ds, isDigit c = true

/-- The numeral of a number is one. -/
lemma digits_decimal (n : ℕ) : Digits (decimal n) := ⟨decimal_ne_nil n, isDigit_of_mem_decimal n⟩

/-- A word of digits starts with a digit. -/
lemma Digits.exists_cons {ds : Bytes} (h : Digits ds) :
    ∃ c w, ds = c :: w ∧ isDigit c = true := by
  cases ds with
  | nil => exact absurd rfl h.nonempty
  | cons c w => exact ⟨c, w, rfl, h.digit c (by simp)⟩

/-! ## Values -/

/-- A digit character is one of the ten characters from `'0'` on. -/
lemma isDigit_iff {c : UInt8} : isDigit c = true ↔ 48 ≤ c.toNat ∧ c.toNat ≤ 57 := by
  simp [isDigit, UInt8.le_iff_toNat_le]

/-- The value of a word of digits that follows a word with the value `n`. -/
def numeralFrom (n : ℕ) (ds : Bytes) : ℕ := ds.foldl (fun n c => 10 * n + (c.toNat - 48)) n

/-- The value of a word of digits. -/
def numeralValue (ds : Bytes) : ℕ := numeralFrom 0 ds

/-- The first digit comes before the others. -/
@[simp] lemma numeralFrom_cons {n : ℕ} {c : UInt8} {ds : Bytes} :
    numeralFrom n (c :: ds) = numeralFrom (10 * n + (c.toNat - 48)) ds := by
  rw [numeralFrom, List.foldl_cons, ← numeralFrom]

/-- More digits do not make the value smaller. -/
lemma le_numeralFrom (ds : Bytes) : ∀ n, n ≤ numeralFrom n ds := by
  induction ds with
  | nil => exact fun n => Nat.le_refl n
  | cons c ds ih =>
    intro n
    have := ih (10 * n + (c.toNat - 48))
    simp only [numeralFrom_cons]
    omega

/-- The value of the numeral of `n` is `n`. -/
lemma numeralValue_decimal (n : ℕ) : numeralValue (decimal n) = n := by
  induction n using digit_induction with
  | digit n hn =>
    have hd := digit_toNat hn
    simp [decimal_of_lt hn, numeralValue, numeralFrom, hd]
  | append n hn ih =>
    have hd := digit_toNat (Nat.mod_lt n (by decide : 0 < 10))
    simp only [numeralValue, numeralFrom] at ih
    simp only [numeralValue, numeralFrom, decimal_of_le hn, List.foldl_append, ih, List.foldl_cons,
      List.foldl_nil, hd]
    omega

end Imapcl
