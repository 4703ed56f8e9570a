import Imapcl.Parser.Elements

set_option relaxedAutoImplicit false
set_option autoImplicit false

/-!
# The range of numbers

`parse_number` accumulates the digits of a numeral in an `int`, while the numbers of the protocol
are unsigned 32-bit integers. This file follows the accumulator through the loop and determines
the numerals that are read as what they are.

## Main definitions

* `Imapcl.StaysInRange` — no operation of the loop leaves the range of `int`.
* `Imapcl.ReadsExactly` — a numeral is read as its value, or refused, without an overflow.

## Main results

* `Imapcl.staysInRange_iff` — the loop stays in range exactly for values below `2 ^ 31`.
* `Imapcl.number_exact_iff` — the numerals that are read exactly.
-/

namespace Imapcl

open StateExcept Cursor

/-- The values of `int`. -/
def InInt32 (x : ℤ) : Prop := -2 ^ 31 ≤ x ∧ x < 2 ^ 31

instance (x : ℤ) : Decidable (InInt32 x) := by
  unfold InInt32
  infer_instance

/-- From the accumulator `number` on, neither the multiplication nor the addition of a round of the
loop of `parse_number` leaves the range of `int`. -/
def StaysInRange : ℤ → Bytes → Prop
  | _, [] => True
  | number, c :: ds => InInt32 (number * 10) ∧ InInt32 (wrap32 (number * 10) + (c.toNat - 48)) ∧
      StaysInRange (accumulate number c) ds

/-- A round on an accumulator that is a number stays in range if the new number does. -/
lemma inInt32_round {n : ℕ} {c : UInt8} (hc : isDigit c = true) :
    InInt32 ((n : ℤ) * 10) ∧ InInt32 (wrap32 ((n : ℤ) * 10) + (c.toNat - 48)) ↔
      10 * n + (c.toNat - 48) < 2 ^ 31 := by
  have hdigit := isDigit_iff.mp hc
  constructor
  · rintro ⟨⟨-, hmul⟩, -, hadd⟩
    rw [show (n : ℤ) * 10 = (n * 10 : ℕ) by norm_num, wrap32_of_lt (by omega)] at hadd
    omega
  · intro h
    rw [show (n : ℤ) * 10 = (n * 10 : ℕ) by norm_num, wrap32_of_lt (by omega)]
    simp only [InInt32]
    omega

/-- The loop stays in range exactly if the value of the numeral is below `2 ^ 31`.

**Proof sketch.** Induction on the digits, for every accumulator. If the first round stays in range,
it computes the value of the digits read so far, and the induction hypothesis covers the rest; if
it does not, the value of the whole numeral is at least what the round should have computed. -/
lemma staysInRange_iff {ds : Bytes} (hds : ∀ c ∈ ds, isDigit c = true) :
    ∀ n : ℕ, n < 2 ^ 31 → (StaysInRange n ds ↔ numeralFrom n ds < 2 ^ 31) := by
  induction ds with
  | nil => exact fun n hn => iff_of_true trivial hn
  | cons c ds ih =>
    intro n _
    have hc := hds c (by simp)
    rw [StaysInRange, ← and_assoc, inInt32_round hc, numeralFrom_cons]
    by_cases hround : 10 * n + (c.toNat - 48) < 2 ^ 31
    · rw [accumulate_digit hc hround, ih (fun a ha => hds a (by simp [ha])) _ hround]
      exact and_iff_right hround
    · have hle := le_numeralFrom ds (10 * n + (c.toNat - 48))
      refine iff_of_false (fun h => hround h.1) ?_
      omega

/-- From the state `s`, `parse_number` fails or reads the digits `ds` as their value, and its
accumulator never leaves the range of `int`. -/
def ReadsExactly (s : ResponseParser) (ds : Bytes) : Prop :=
  ((∃ s', parseNumber.run s = .ok (none, s')) ∨
    ∃ s', parseNumber.run s = .ok (some (numeralValue ds : ℤ), s')) ∧ StaysInRange 0 ds

/-- **Numbers without overflow.** A word of digits before a non-digit is read exactly if and only if
its value is below `2 ^ 31`. -/
theorem number_exact_iff (s : ResponseParser) (ds v : Bytes)
    (hat : At s.data s.currPos (ds ++ v)) (hne : ds ≠ []) (hds : ∀ c ∈ ds, isDigit c = true)
    (hv : ∀ c, v.head? = some c → isDigit c = false) :
    ReadsExactly s ds ↔ numeralValue ds < 2 ^ 31 := by
  have hrange : StaysInRange 0 ds ↔ numeralValue ds < 2 ^ 31 :=
    staysInRange_iff hds 0 (by decide)
  constructor
  · exact fun h => hrange.mp h.2
  · intro h
    have hrun := parseNumber_digits (κ := s.posStack) (r := s.parsedResponse)
      (m := s.messageContents) hat hne hds hv
    rw [foldl_accumulate_zero hds h] at hrun
    exact ⟨Or.inr ⟨_, hrun⟩, hrange.mpr h⟩

/-- The largest number that is read exactly. -/
theorem number_exact_iff_largest :
    ReadsExactly (.ofData (ascii "2147483647 EXISTS\r\n")) (ascii "2147483647") ↔
      numeralValue (ascii "2147483647") < 2 ^ 31 :=
  number_exact_iff _ _ (ascii " EXISTS\r\n") ⟨Nat.zero_le _, rfl⟩ (by decide)
    (by decide +kernel) (head_cons _ rfl)

/-- The next number, an unsigned 32-bit integer, is read as a negative one. -/
theorem number_wraps :
    numeralValue (ascii "2147483648") < 2 ^ 32 ∧
      (∃ s', parseNumber.run (.ofData (ascii "2147483648 EXISTS\r\n")) =
        .ok (some (-2147483648), s')) ∧
      ¬ ReadsExactly (.ofData (ascii "2147483648 EXISTS\r\n")) (ascii "2147483648") := by
  have hrun : parseNumber.run (.ofData (ascii "2147483648 EXISTS\r\n")) =
      .ok (some (-2147483648), ⟨ascii "2147483648 EXISTS\r\n", 10, [], none, []⟩) := by
    decide +kernel
  refine ⟨by decide, ⟨_, hrun⟩, ?_⟩
  rintro ⟨⟨s', h⟩ | ⟨s', h⟩, -⟩
  · rw [hrun] at h
    cases h
  · rw [hrun] at h
    exact absurd (Except.ok.inj h)
      (by simp [show numeralValue (ascii "2147483648") = 2147483648 by decide])

end Imapcl
