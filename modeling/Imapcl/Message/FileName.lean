import Imapcl.Message.Directory

set_option relaxedAutoImplicit false
set_option autoImplicit false

/-!
# File names

The name of a message's file is the hash of the message and its date, with nothing between them. A
hash has sixteen digits when it is large, but it is padded to eight only, so that the length of the
first part is not known.

## Main definitions

* `Imapcl.fileName` — the name made of a hash and a date.
* `Imapcl.Decodable` — the names of two dates determine the hash and the date.
* `Imapcl.Extends` — one date is the other one behind some digits.

## Main results

* `Imapcl.path_eq` — the path of a message's file ends with such a name.
* `Imapcl.decodable_iff` — the dates whose names are decodable.
-/

namespace Imapcl

open FNV

/-- The name of a file: `fnv.hash(get_data()) + get_datetime_formatted() + ".eml"`. -/
def fileName (hash : UInt64) (date : Bytes) : Bytes := render hash ++ date ++ ascii ".eml"

/-- The path of a message's file ends with the name made of its hash and its date. -/
theorem path_eq (outputDir data : Bytes) : path outputDir data =
    (getDatetimeFormatted data).map fun date =>
      outputDir ++ ascii "/" ++ fileName (value data) date := by
  rfl

/-- A file name with one of the two dates determines the hash and the date. -/
def Decodable (d₁ d₂ : Bytes) : Prop :=
  ∀ h₁ h₂, fileName h₁ d₁ = fileName h₂ d₂ → h₁ = h₂ ∧ d₁ = d₂

/-- A lower-case hexadecimal digit. -/
def isHexDigit (c : UInt8) : Bool := isDigit c || (97 ≤ c && c ≤ 102)

/-- The first date is the second one behind one to eight hexadecimal digits. -/
def Extends (d₁ d₂ : Bytes) : Prop :=
  ∃ w, w ≠ [] ∧ w.length ≤ 8 ∧ (∀ c ∈ w, isHexDigit c = true) ∧ d₁ = w ++ d₂

/-! ## Digits -/

/-- The byte of a hexadecimal digit. -/
lemma isHexDigit_iff {c : UInt8} :
    isHexDigit c = true ↔ ∃ d, Numeral.IsDigit 16 d ∧ c = byte d := by
  constructor
  · intro h
    have hall : ∀ n < 256, isHexDigit (UInt8.ofNat n) = true →
        ∃ k < 16, UInt8.ofNat n = byte (Nat.digitChar k) := by decide +kernel
    have hc := hall c.toNat c.toNat_lt
    rw [UInt8.ofNat_toNat] at hc
    obtain ⟨k, hk, hck⟩ := hc h
    exact ⟨k.digitChar, ⟨k, hk, rfl⟩, hck⟩
  · rintro ⟨d, ⟨k, hk, rfl⟩, rfl⟩
    have hall : ∀ k < 16, isHexDigit (byte (Nat.digitChar k)) = true := by decide
    exact hall k hk

/-- A word of hexadecimal digits. -/
lemma exists_digits {w : Bytes} (h : ∀ c ∈ w, isHexDigit c = true) :
    ∃ u : List Char, (∀ d ∈ u, Numeral.IsDigit 16 d) ∧ w = u.map byte := by
  induction w with
  | nil => exact ⟨[], nofun, rfl⟩
  | cons c w ih =>
    rw [List.forall_mem_cons] at h
    obtain ⟨d, hd, rfl⟩ := isHexDigit_iff.mp h.1
    obtain ⟨u, hu, rfl⟩ := ih h.2
    exact ⟨d :: u, List.forall_mem_cons.mpr ⟨hd, hu⟩, rfl⟩

/-- A rendered hash is made of hexadecimal digits. -/
lemma isHexDigit_of_mem_render {h : UInt64} {c : UInt8} (hc : c ∈ render h) :
    isHexDigit c = true := by
  rw [render_eq] at hc
  obtain ⟨d, hd, rfl⟩ := List.mem_map.mp hc
  exact isHexDigit_iff.mpr ⟨d, Numeral.isDigit_of_mem_padded (by decide) hd, rfl⟩

/-- A rendered hash has eight to sixteen digits. -/
lemma length_render (h : UInt64) : 8 ≤ (render h).length ∧ (render h).length ≤ 16 := by
  rw [render_eq, List.length_map]
  exact ⟨Numeral.le_length_padded,
    Numeral.length_padded_le (by decide) (by decide) (by decide) h.toNat_lt⟩

/-- Up to eight digits can follow the digits of a hash.

**Proof sketch.** The digits behind the numeral `10000000` make the numeral of a number below
`2 ^ 64`. -/
lemma exists_render_append {w : Bytes} (hlen : w.length ≤ 8) (hw : ∀ c ∈ w, isHexDigit c = true) :
    ∃ h₁ h₂, render h₂ = render h₁ ++ w := by
  obtain ⟨u, hu, rfl⟩ := exists_digits hw
  rw [List.length_map] at hlen
  have hdigits : Nat.toDigits 16 (Numeral.read 16 0x10000000 u) =
      Nat.toDigits 16 0x10000000 ++ u :=
    Numeral.toDigits_read (by decide) (by decide) (by decide) hu
  have height : (Nat.toDigits 16 0x10000000).length = 8 := by decide
  have hlt : Numeral.read 16 0x10000000 u < 2 ^ 64 :=
    calc Numeral.read 16 0x10000000 u < (0x10000000 + 1) * 16 ^ u.length :=
          Numeral.read_lt (by decide) hu
      _ ≤ (0x10000000 + 1) * 16 ^ 8 := by
        exact Nat.mul_le_mul_left _ (Nat.pow_le_pow_right (by decide) hlen)
      _ < 2 ^ 64 := by decide
  refine ⟨0x10000000, UInt64.ofNat (Numeral.read 16 0x10000000 u), ?_⟩
  have hlong : 8 ≤ (Nat.toDigits 16 (Numeral.read 16 0x10000000 u)).length := by
    rw [hdigits, List.length_append, height]
    omega
  rw [render_eq, render_eq, ← List.map_append, UInt64.toNat_ofNat', Nat.mod_eq_of_lt hlt,
    Numeral.padded_of_le hlong, hdigits]
  rfl

/-! ## Names -/

section Names

variable {d₁ d₂ : Bytes}

/-- The names of two dates agree where the dates do, with their hashes in front. -/
lemma fileName_eq_iff {h₁ h₂ : UInt64} :
    fileName h₁ d₁ = fileName h₂ d₂ ↔ render h₁ ++ d₁ = render h₂ ++ d₂ := List.append_left_inj _

/-- If the digits of one hash are not fewer than those of the other and the names are equal, then
the hashes and dates are, or the date with the shorter hash begins with digits. -/
lemma eq_or_extends {h₁ h₂ : UInt64} (hlen : (render h₁).length ≤ (render h₂).length)
    (heq : render h₁ ++ d₁ = render h₂ ++ d₂) : (h₁ = h₂ ∧ d₁ = d₂) ∨ Extends d₁ d₂ := by
  obtain ⟨w, hw⟩ : render h₁ <+: render h₂ :=
    List.prefix_of_prefix_length_le (List.prefix_append _ d₁) (heq ▸ List.prefix_append _ d₂) hlen
  rw [← hw, List.append_assoc, List.append_cancel_left_eq] at heq
  rcases w with _ | ⟨c, w⟩
  · rw [List.append_nil] at hw
    exact Or.inl ⟨render_injective hw, heq⟩
  · refine Or.inr ⟨c :: w, nofun, ?_, fun a ha => ?_, heq⟩
    · have hlow := (length_render h₁).1
      have hhigh := (length_render h₂).2
      rw [← hw, List.length_append] at hhigh
      omega
    · exact isHexDigit_of_mem_render (hw ▸ List.mem_append_right _ ha)

/-- Dates of which one extends the other make the same name. -/
lemma exists_fileName_eq (h : Extends d₁ d₂) :
    d₁ ≠ d₂ ∧ ∃ h₁ h₂, fileName h₁ d₁ = fileName h₂ d₂ := by
  obtain ⟨w, hne, hlen, hw, rfl⟩ := h
  obtain ⟨h₁, h₂, hrender⟩ := exists_render_append hlen hw
  refine ⟨fun heq => hne (List.append_left_eq_self.mp heq), h₁, h₂, fileName_eq_iff.mpr ?_⟩
  rw [hrender, List.append_assoc]

end Names

/-- **File names.** The names of two dates determine the hash and the date if and only if neither
date is the other one behind one to eight hexadecimal digits.

**Proof sketch.** In equal names, the shorter hash is a prefix of the other one, and the digits
after it begin a date. Conversely, the digits at the start of a date can belong to a hash. -/
theorem decodable_iff (d₁ d₂ : Bytes) :
    Decodable d₁ d₂ ↔ ¬ Extends d₁ d₂ ∧ ¬ Extends d₂ d₁ := by
  constructor
  · intro hdecodable
    constructor
    · intro h
      obtain ⟨hne, h₁, h₂, heq⟩ := exists_fileName_eq h
      exact hne (hdecodable h₁ h₂ heq).2
    · intro h
      obtain ⟨hne, h₂, h₁, heq⟩ := exists_fileName_eq h
      exact hne (hdecodable h₁ h₂ heq.symm).2.symm
  · rintro ⟨hnot₁, hnot₂⟩ h₁ h₂ heq
    rw [fileName_eq_iff] at heq
    rcases Nat.le_total (render h₁).length (render h₂).length with hlen | hlen
    · exact (eq_or_extends hlen heq).resolve_right hnot₁
    · obtain ⟨rfl, rfl⟩ := (eq_or_extends hlen heq.symm).resolve_right hnot₂
      exact ⟨rfl, rfl⟩

/-- A digit that belongs to a date or to a hash. -/
theorem not_decodable : fileName 0x12345678 (ascii "9abc") = fileName 0x123456789 (ascii "abc") ∧
    ¬ Decodable (ascii "9abc") (ascii "abc") := by
  have heq : fileName 0x12345678 (ascii "9abc") = fileName 0x123456789 (ascii "abc") := by
    decide +kernel
  exact ⟨heq, fun h => absurd (h _ _ heq).1 (by decide)⟩

end Imapcl
