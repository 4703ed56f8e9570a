import Mathlib.Algebra.Group.Nat.Defs
import Mathlib.Tactic.Common

set_option relaxedAutoImplicit false
set_option autoImplicit false

/-!
# Numerals

Numerals in a base of at most sixteen, as `Nat.toDigits` writes them, are read back digit by digit.
Reading does not mind zeros in front, so that numerals are told apart also when they are padded to a
width.

## Main definitions

* `Numeral.digitValue`, `Numeral.read` — the value of a digit and of a numeral.
* `Numeral.IsDigit` — the digits of a base.
* `Numeral.padded` — a numeral with zeros in front, up to a width.

## Main results

* `Numeral.read_padded`, `Numeral.padded_injective` — reading undoes writing.
* `Numeral.toDigits_read` — digits behind the numeral of a positive number make a numeral.
-/

namespace Numeral

/-- The value of a digit. -/
def digitValue (c : Char) : ℕ := if c.isDigit then c.toNat - 48 else c.toNat - 87

/-- The value of a numeral in base `b` that begins with the numeral of `n`. -/
def read (b n : ℕ) (w : List Char) : ℕ := w.foldl (fun n c => b * n + digitValue c) n

/-- The digits of the base `b`. -/
def IsDigit (b : ℕ) (c : Char) : Prop := ∃ k < b, c = Nat.digitChar k

/-- The numeral of `n` with zeros in front, up to the width `k`. -/
def padded (b k n : ℕ) : List Char := (Nat.toDigits b n).leftpad k '0'

variable {b k n m : ℕ} {c : Char} {w : List Char}

/-- The value of a written digit. -/
lemma digitValue_digitChar (h : k < 16) : digitValue k.digitChar = k := by
  have hall : ∀ k < 16, digitValue (Nat.digitChar k) = k := by decide
  exact hall k h

/-- A digit has a value below the base. -/
lemma IsDigit.digitChar_digitValue (hb : b ≤ 16) (h : IsDigit b c) :
    digitValue c < b ∧ (digitValue c).digitChar = c := by
  obtain ⟨k, hk, rfl⟩ := h
  rw [digitValue_digitChar (by omega)]
  exact ⟨hk, rfl⟩

/-- A numeral in two parts. -/
lemma read_append (w' : List Char) : read b n (w ++ w') = read b (read b n w) w' :=
  List.foldl_append

/-- Zeros in front do not count. -/
lemma read_replicate : read b 0 (List.replicate k '0' ++ w) = read b 0 w := by
  have hzeros : read b 0 (List.replicate k '0') = 0 := by
    induction k with
    | zero => rfl
    | succ k ih => exact ih
  rw [read_append, hzeros]

/-- A numeral is made of the digits of its base.

**Proof sketch.** Induction along its digits: the numeral of `n ≥ b` is that of `n / b` followed by
one digit. -/
lemma isDigit_of_mem (hb : 1 < b) (n : ℕ) : ∀ c ∈ Nat.toDigits b n, IsDigit b c := by
  induction n using Nat.strongRecOn with
  | ind n ih =>
    intro c hc
    rcases Nat.lt_or_ge n b with hn | hn
    · rw [Nat.toDigits_of_lt_base hn, List.mem_singleton] at hc
      exact ⟨n, hn, hc⟩
    · rw [Nat.toDigits_of_base_le hb hn] at hc
      rcases List.mem_append.mp hc with hc | hc
      · exact ih (n / b) (Nat.div_lt_self (by omega) hb) c hc
      · exact ⟨n % b, Nat.mod_lt n (by omega), List.mem_singleton.mp hc⟩

/-- Reading undoes writing.

**Proof sketch.** Induction along the digits, as for `isDigit_of_mem`. -/
lemma read_toDigits (hb : 1 < b) (hb' : b ≤ 16) (n : ℕ) : read b 0 (Nat.toDigits b n) = n := by
  induction n using Nat.strongRecOn with
  | ind n ih =>
    rcases Nat.lt_or_ge n b with hn | hn
    · rw [Nat.toDigits_of_lt_base hn]
      change b * 0 + digitValue n.digitChar = n
      rw [digitValue_digitChar (by omega), Nat.mul_zero, Nat.zero_add]
    · have hmod : n % b < b := Nat.mod_lt n (by omega)
      rw [Nat.toDigits_of_base_le hb hn, read_append,
        ih (n / b) (Nat.div_lt_self (by omega) hb)]
      change b * (n / b) + digitValue (n % b).digitChar = n
      rw [digitValue_digitChar (by omega), Nat.div_add_mod]

/-- The same for a numeral with zeros in front. -/
lemma isDigit_of_mem_padded (hb : 1 < b) (h : c ∈ padded b k n) : IsDigit b c := by
  rcases List.mem_append.mp h with h | h
  · exact ⟨0, by omega, List.eq_of_mem_replicate h⟩
  · exact isDigit_of_mem hb n c h

/-- Reading undoes writing with zeros in front. -/
lemma read_padded (hb : 1 < b) (hb' : b ≤ 16) : read b 0 (padded b k n) = n := by
  rw [padded, List.leftpad, read_replicate, read_toDigits hb hb']

/-- **Numerals are told apart.** Different numbers have different numerals, at any width. -/
theorem padded_injective (hb : 1 < b) (hb' : b ≤ 16) :
    Function.Injective fun n => padded b k n := by
  intro n m h
  have hread := congrArg (read b 0) h
  simp only [read_padded hb hb'] at hread
  exact hread

/-- A digit behind the numeral of a positive number. -/
lemma toDigits_concat (hb : 1 < b) (hn : 0 < n) (hk : k < b) :
    Nat.toDigits b (b * n + k) = Nat.toDigits b n ++ [k.digitChar] := by
  rw [← Nat.toDigits_append_toDigits hb hn hk, Nat.toDigits_of_lt_base hk]

/-- Digits behind the numeral of a positive number are the numeral of the number that they read as.

**Proof sketch.** Induction on the digits. -/
lemma toDigits_read (hb : 1 < b) (hb' : b ≤ 16) (hn : 0 < n) (hw : ∀ c ∈ w, IsDigit b c) :
    Nat.toDigits b (read b n w) = Nat.toDigits b n ++ w := by
  induction w generalizing n with
  | nil => exact (List.append_nil _).symm
  | cons c w ih =>
    rw [List.forall_mem_cons] at hw
    obtain ⟨hlt, hchar⟩ := hw.1.digitChar_digitValue hb'
    have hpos : 0 < b * n + digitValue c := by
      have hmul := Nat.mul_pos (show 0 < b by omega) hn
      omega
    change Nat.toDigits b (read b (b * n + digitValue c) w) = _
    rw [ih hpos hw.2, toDigits_concat hb hn hlt, hchar, List.append_assoc, List.singleton_append]

/-- The size of the number that digits behind a numeral read as.

**Proof sketch.** Induction on the digits. -/
lemma read_lt (hb : b ≤ 16) (hw : ∀ c ∈ w, IsDigit b c) : read b n w < (n + 1) * b ^ w.length := by
  induction w generalizing n with
  | nil =>
    change n < (n + 1) * b ^ 0
    rw [Nat.pow_zero, Nat.mul_one]
    exact Nat.lt_succ_self n
  | cons c w ih =>
    rw [List.forall_mem_cons] at hw
    have hlt := (hw.1.digitChar_digitValue hb).1
    calc read b (b * n + digitValue c) w < (b * n + digitValue c + 1) * b ^ w.length := ih hw.2
      _ ≤ (b * (n + 1)) * b ^ w.length := by
        refine Nat.mul_le_mul_right _ ?_
        rw [Nat.mul_add, Nat.mul_one]
        omega
      _ = (n + 1) * b ^ (w.length + 1) := by
        rw [Nat.pow_succ, Nat.mul_comm b (n + 1), Nat.mul_assoc, Nat.mul_comm b]

/-- A numeral with zeros in front has at least the width. -/
lemma le_length_padded : k ≤ (padded b k n).length := by
  rw [padded, List.length_leftpad]
  exact Nat.le_max_left _ _

/-- A numeral that is as long as the width needs no zeros. -/
lemma padded_of_le (h : k ≤ (Nat.toDigits b n).length) : padded b k n = Nat.toDigits b n := by
  rw [padded, List.leftpad, Nat.sub_eq_zero_of_le h, List.replicate_zero, List.nil_append]

/-- The length of a numeral with zeros in front, for a bounded number. -/
lemma length_padded_le {l : ℕ} (hb : 1 < b) (hkl : k ≤ l) (hl : 0 < l) (hn : n < b ^ l) :
    (padded b k n).length ≤ l := by
  rw [padded, List.length_leftpad]
  exact Nat.max_le.mpr ⟨hkl, (Nat.length_toDigits_le_iff hb hl).mpr hn⟩

end Numeral
