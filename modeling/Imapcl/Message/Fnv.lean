import Mathlib.Data.List.Basic
import Imapcl.Foundation.Numeral
import Imapcl.Response.Basic

set_option relaxedAutoImplicit false
set_option autoImplicit false

/-!
# The hash of a message

`fnv.cpp`: the 64-bit hash that begins the name of a message's file, as hexadecimal digits. It is
meant to be FNV-1a, of which every round is a bijection of the state; but a `char` is signed, and
the conversion to 64 bits extends its sign.

## Main definitions

* `Imapcl.FNV.value`, `Imapcl.FNV.render`, `Imapcl.FNV.hash` — `FNV::hash`.
* `Imapcl.FNV.standard`, `Imapcl.FNV.Conforms` — FNV-1a, on the values of the octets.

## Main results

* `Imapcl.FNV.isAlnum_of_mem_hash` — a hash is made of digits and letters.
* `Imapcl.FNV.render_injective` — the digits determine the value.
* `Imapcl.FNV.hash_change_ne` — another byte in the same place makes another hash.
* `Imapcl.FNV.conforms_of_ascii` — the hash of ASCII is that of FNV-1a.
* `Imapcl.FNV.not_conforms_of_one` — with a single other byte it is not.
-/

namespace Imapcl.FNV

/-- `FNV_OFFSET_BASIS`. -/
def offsetBasis : UInt64 := 0xcbf29ce484222325

/-- `FNV_PRIME`. -/
def prime : UInt64 := 0x100000001b3

/-- `static_cast<uint64_t>(c)`: a `char` is signed, and its sign is extended. -/
def ofChar (c : UInt8) : UInt64 := c.toInt8.toInt64.toUInt64

/-- One round of the loop. -/
def round (hash : UInt64) (c : UInt8) : UInt64 := (hash ^^^ ofChar c) * prime

/-- The value of `hash` after the loop. -/
def value (data : Bytes) : UInt64 := data.foldl round offsetBasis

/-- `result << std::hex << std::setw(8) << std::setfill('0') << hash`. -/
def render (hash : UInt64) : Bytes :=
  ((Nat.toDigits 16 hash.toNat).map byte).leftpad 8 (byte '0')

/-- `FNV::hash`. -/
def hash (data : Bytes) : Bytes := render (value data)

/-! ## Digits -/

/-- A hexadecimal digit is alphanumeric. -/
lemma isAlnum_digitChar {k : ℕ} (h : k < 16) : isAlnum (byte k.digitChar) = true := by
  have hall : ∀ k < 16, isAlnum (byte (Nat.digitChar k)) = true := by decide
  exact hall k h

/-- A hexadecimal numeral is alphanumeric. -/
lemma isAlnum_of_mem_toDigits (n : ℕ) : ∀ c ∈ Nat.toDigits 16 n, isAlnum (byte c) = true := by
  intro c hc
  obtain ⟨k, hk, rfl⟩ := Numeral.isDigit_of_mem (by decide) n c hc
  exact isAlnum_digitChar hk

/-- A hash is made of digits and letters. -/
theorem isAlnum_of_mem_hash {data : Bytes} {c : UInt8} (h : c ∈ hash data) : isAlnum c = true := by
  rw [hash, render, List.leftpad] at h
  rcases List.mem_append.mp h with h | h
  · rw [List.eq_of_mem_replicate h]
    rfl
  · obtain ⟨d, hd, rfl⟩ := List.mem_map.mp h
    exact isAlnum_of_mem_toDigits _ d hd

/-- The published FNV-1a hash of one letter. -/
example : hash (ascii "a") = ascii "af63dc4c8601ec8c" := by decide +kernel

/-- The characters of a string. -/
def chars (w : Bytes) : List Char := w.map fun c => Char.ofNat c.toNat

/-- The characters of hexadecimal digits. -/
lemma chars_map_byte {w : List Char} (h : ∀ c ∈ w, Numeral.IsDigit 16 c) :
    chars (w.map byte) = w := by
  have hall : ∀ k < 16, Char.ofNat (byte (Nat.digitChar k)).toNat = Nat.digitChar k := by decide
  rw [chars, List.map_map]
  refine (List.map_congr_left fun c hc => ?_).trans (List.map_id w)
  obtain ⟨k, hk, rfl⟩ := h c hc
  exact hall k hk

/-- A rendered hash is a numeral with zeros in front. -/
lemma render_eq (h : UInt64) : render h = (Numeral.padded 16 8 h.toNat).map byte := by
  rw [render, Numeral.padded, List.leftpad, List.leftpad, List.map_append, List.map_replicate,
    List.length_map]

/-- The characters of a rendered hash. -/
lemma chars_render (h : UInt64) : chars (render h) = Numeral.padded 16 8 h.toNat := by
  rw [render_eq]
  exact chars_map_byte fun c hc => Numeral.isDigit_of_mem_padded (by decide) hc

/-- **The digits determine the value.**

**Proof sketch.** The characters are a numeral with zeros in front, which is read back. -/
theorem render_injective : Function.Injective render := by
  intro h h' heq
  have hchars := congrArg chars heq
  rw [chars_render, chars_render] at hchars
  exact UInt64.toNat_inj.mp (Numeral.padded_injective (by decide) (by decide) hchars)

/-! ## Rounds -/

/-- The prime is odd, so that multiplication with it can be undone. -/
lemma mul_prime_injective : Function.Injective fun h => h * prime := by
  intro h h' heq
  have hunit : prime * 0xce965057aff6957b = 1 := by decide
  have hmul := congrArg (· * 0xce965057aff6957b) heq
  simpa only [UInt64.mul_assoc, hunit, UInt64.mul_one] using hmul

/-- The low byte of a converted character. -/
lemma toUInt8_ofChar (c : UInt8) : (ofChar c).toUInt8 = c := by
  have hall : ∀ n < 256, (ofChar (UInt8.ofNat n)).toUInt8 = UInt8.ofNat n := by decide +kernel
  have hc := hall c.toNat c.toNat_lt
  rwa [UInt8.ofNat_toNat] at hc

/-- A round loses nothing of the state. -/
lemma round_injective (c : UInt8) : Function.Injective fun h => round h c := by
  intro h h' heq
  exact (UInt64.xor_left_inj _).mp (mul_prime_injective heq)

/-- A round loses nothing of the character. -/
lemma round_injective_char (h : UInt64) : Function.Injective (round h) := by
  intro a b heq
  have hchar : ofChar a = ofChar b := (UInt64.xor_right_inj _).mp (mul_prime_injective heq)
  rw [← toUInt8_ofChar a, hchar, toUInt8_ofChar]

/-- Rounds one after the other lose nothing of the state. -/
lemma foldl_round_injective (s : Bytes) : Function.Injective fun h => s.foldl round h := by
  induction s with
  | nil => exact fun _ _ h => h
  | cons c s ih => exact ih.comp (round_injective c)

/-- The value of a string around one of its characters. -/
lemma value_append_cons (p s : Bytes) (a : UInt8) :
    value (p ++ a :: s) = s.foldl round (round (value p) a) := by
  rw [value, List.foldl_append]
  rfl

/-- **One byte.** Two strings of the same length that differ in one byte have different hashes.

**Proof sketch.** The round of the byte tells the two apart, and neither the rounds after it nor the
digits lose anything. -/
theorem hash_change_ne (p s : Bytes) {a b : UInt8} (h : a ≠ b) :
    hash (p ++ a :: s) ≠ hash (p ++ b :: s) := by
  intro heq
  have hvalue := render_injective heq
  rw [value_append_cons, value_append_cons] at hvalue
  exact h (round_injective_char _ (foldl_round_injective s hvalue))

/-- Two bytes from `128` on, which are negative characters. -/
theorem hash_change_ne_negative :
    (0xc4 : UInt8) ≠ 0xe4 ∧ hash (ascii "M" ++ 0xc4 :: ascii "rz") ≠
      hash (ascii "M" ++ 0xe4 :: ascii "rz") :=
  have h : (0xc4 : UInt8) ≠ 0xe4 := by decide
  ⟨h, hash_change_ne (ascii "M") (ascii "rz") h⟩

/-! ## Conformance -/

/-- One round of FNV-1a: the value of an octet is from `0` to `255`. -/
def standardRound (hash : UInt64) (c : UInt8) : UInt64 := (hash ^^^ c.toUInt64) * prime

/-- The 64-bit FNV-1a hash. -/
def standard (data : Bytes) : UInt64 := data.foldl standardRound offsetBasis

/-- The hash of a string is the rendered FNV-1a hash. -/
def Conforms (data : Bytes) : Prop := hash data = render (standard data)

/-- A conversion extends the sign of a character, which changes the values from `128` on. -/
lemma ofChar_eq_iff (c : UInt8) : ofChar c = c.toUInt64 ↔ c < 128 := by
  have hall : ∀ n < 256, ofChar (UInt8.ofNat n) = (UInt8.ofNat n).toUInt64 ↔
      UInt8.ofNat n < 128 := by decide +kernel
  have hc := hall c.toNat c.toNat_lt
  rwa [UInt8.ofNat_toNat] at hc

variable {p s data : Bytes} {a : UInt8}

/-- On ASCII the rounds are those of FNV-1a. -/
lemma foldl_standardRound (hs : ∀ c ∈ s, c < 128) (h : UInt64) :
    s.foldl standardRound h = s.foldl round h := by
  apply List.foldl_ext
  intro h c hc
  rw [round, (ofChar_eq_iff c).mpr (hs c hc), standardRound]

/-- The hash conforms exactly if the values agree. -/
lemma conforms_iff_value : Conforms data ↔ value data = standard data := render_injective.eq_iff

/-- **FNV-1a.** If every byte is below `128`, the hash of a string is that of FNV-1a.

**Proof sketch.** No sign is extended, so that the rounds are the same. -/
theorem conforms_of_ascii (data : Bytes) (h : ∀ c ∈ data, c < 128) : Conforms data :=
  conforms_iff_value.mpr (foldl_standardRound h offsetBasis).symm

/-- The letters of a header. -/
theorem conforms_of_ascii_date : Conforms (ascii "Date: x") :=
  conforms_of_ascii (ascii "Date: x") (by decide +kernel)

/-- With a single byte from `128` on, the hash is not that of FNV-1a.

**Proof sketch.** The states before the byte agree, its values in the two rounds do not, and the
rounds of the bytes behind it are the same bijections. -/
theorem not_conforms_of_one (hp : ∀ c ∈ p, c < 128) (ha : ¬ a < 128) (hs : ∀ c ∈ s, c < 128) :
    ¬ Conforms (p ++ a :: s) := by
  have hbefore : p.foldl standardRound offsetBasis = value p := foldl_standardRound hp offsetBasis
  have hstandard : standard (p ++ a :: s) = s.foldl round (standardRound (value p) a) := by
    rw [standard, List.foldl_append, List.foldl_cons, hbefore, foldl_standardRound hs]
  intro h
  rw [conforms_iff_value, value_append_cons, hstandard] at h
  have hround : round (value p) a = standardRound (value p) a := foldl_round_injective s h
  exact ha ((ofChar_eq_iff a).mp ((UInt64.xor_right_inj _).mp (mul_prime_injective hround)))

/-- The string of the single byte `128`. -/
theorem not_conforms : ¬ Conforms [0x80] := by
  rw [Conforms]
  decide +kernel

/-- Two signs that undo each other. -/
example : hash [0xa5, 0x80] = render (standard [0xa5, 0x80]) := by decide +kernel

end Imapcl.FNV
