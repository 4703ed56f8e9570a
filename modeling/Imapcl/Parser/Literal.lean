import Imapcl.Parser.Truncated

set_option relaxedAutoImplicit false
set_option autoImplicit false

/-!
# Literals

A literal announces its length, which the server chooses independently of the bytes it sends.
This file compares `parse_literal` with what its header asks for: exactly the announced bytes where
they are there, and an exception where they are not.

## Main definitions

* `Imapcl.LiteralExact` — a literal is read exactly, or refused.

## Main results

* `Imapcl.literal_exact_iff` — the literals that are treated so.
-/

namespace Imapcl

open StateExcept Cursor

/-- From the state `s`, before a literal with the length `ds` and the bytes `v` after its header:
where `v` has enough bytes, `parse_literal` yields them and advances over them; where it does not,
the exception for a literal that is too short is thrown; and nothing is read beyond the
terminator. -/
def LiteralExact (s : ResponseParser) (ds v : Bytes) : Prop :=
  (numeralValue ds ≤ v.length → parseLiteral.run s = .ok (true, { s with
    currPos := s.currPos + (ascii "\x7b").length + ds.length + (ascii "\x7d").length +
      crlf.length + numeralValue ds
    messageContents := v.take (numeralValue ds) })) ∧
  (v.length < numeralValue ds → parseLiteral.run s = .error (.thrown (.runtimeError
    (ascii "Error: Literal string received from server shorter than expected!")))) ∧
  parseLiteral.run s ≠ .error .undefined

/-- **Literal exactness.** A literal is treated as it should if and only if its bytes are all there
and the character after them, if any, is not negative.

**Proof sketch.** The loop that copies the bytes does not look at the size of the data, so the
string it builds always has the announced length. Where bytes are missing, it reads beyond the
terminator, or the log line after it does; where they are not, only the log line can fail. -/
theorem literal_exact_iff (s : ResponseParser) (ds v : Bytes)
    (hat : At s.data s.currPos (ascii "\x7b" ++ (ds ++ (ascii "\x7d" ++ (crlf ++ v)))))
    (hne : ds ≠ []) (hds : ∀ c ∈ ds, isDigit c = true) (hn : numeralValue ds < 2 ^ 31)
    (hsize : s.data.length < 2 ^ 63) :
    LiteralExact s ds v ↔
      numeralValue ds ≤ v.length ∧ (v.drop (numeralValue ds)).headD 0 < 128 := by
  have hheader := parseLiteral_header (κ := s.posStack) (r := s.parsedResponse)
    (m := s.messageContents) hat hne hds hn
  have hbody := hat.skip.skip.skip.skip
  have hpos := hbody.1
  rcases Nat.lt_or_ge v.length (numeralValue ds) with hshort | henough
  · rw [readLiteral_short hbody hshort (by omega)] at hheader
    refine iff_of_false (fun h => h.2.2 hheader) fun h => ?_
    omega
  · have hlen : (v.take (numeralValue ds)).length = numeralValue ds := by
      rw [List.length_take, Nat.min_eq_left henough]
    have hsplit := List.take_append_drop (numeralValue ds) v
    rw [← hsplit] at hbody
    have hrun := readLiteral_run (x := wrap32 s.currPos) (κ := s.posStack)
      (r := s.parsedResponse) (m := s.messageContents) hbody (by omega)
    rw [hlen] at hrun
    rw [hrun] at hheader
    by_cases hneg : 128 ≤ (v.drop (numeralValue ds)).headD 0
    · rw [if_pos hneg] at hheader
      refine iff_of_false (fun h => ?_) fun h => absurd hneg (UInt8.not_le.mpr h.2)
      have hread := h.1 henough
      rw [hheader] at hread
      cases hread
    · rw [if_neg hneg] at hheader
      refine iff_of_true ⟨fun _ => hheader, fun h => ?_, fun h => ?_⟩
        ⟨henough, UInt8.not_le.mp hneg⟩
      · omega
      · rw [hheader] at h
        cases h

/-- A literal at the end of the data. -/
theorem literal_exact_iff_end :
    LiteralExact (.ofData (ascii "\x7b02\x7d\r\nab")) (ascii "02") (ascii "ab") ↔
      numeralValue (ascii "02") ≤ (ascii "ab").length ∧
        ((ascii "ab").drop (numeralValue (ascii "02"))).headD 0 < 128 :=
  literal_exact_iff _ _ _ ⟨Nat.zero_le _, rfl⟩ (by decide) (by decide +kernel)
    (by decide +kernel) (by decide +kernel)

/-- One byte is missing: the terminator is copied in its place, and the next read is beyond it. -/
theorem literal_overrun :
    parseLiteral.run (.ofData (ascii "\x7b3\x7d\r\nab")) = .error .undefined ∧
      ¬ LiteralExact (.ofData (ascii "\x7b3\x7d\r\nab")) (ascii "3") (ascii "ab") := by
  have hrun : parseLiteral.run (.ofData (ascii "\x7b3\x7d\r\nab")) = .error .undefined := by
    decide +kernel
  exact ⟨hrun, fun h => h.2.2 hrun⟩

end Imapcl
