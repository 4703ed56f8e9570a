import Imapcl.Parser.Numbers
import Imapcl.Parser.Progress

set_option relaxedAutoImplicit false
set_option autoImplicit false

/-!
# Calls up to a literal that is too long

What `parse_literal` does where its header announces more bytes than are left has been determined;
this file is about what a call of `parse_next` does before that. It puts a method in the place of
`parse_literal` that stops at such a header.

## Main definitions

* `Imapcl.parseNextUpTo` — `parse_next` up to a literal that is too long.

## Main results

* `Imapcl.cutsOff_parseNextUpTo` — a call that does not come to such a literal is not changed.
* `Imapcl.parseLiteralUpTo_diverges` — a literal at which a call is cut off is too long.

## Design

The mark of a call that is cut off is the fault `diverges`, which `parse_next` itself does not
abort with.
-/

namespace Imapcl

open StateExcept Cursor

/-! ## Literals that are too long -/

/-- The body of `parse_literal`, unless fewer bytes than `length` are left. -/
def readLiteralUpTo (length : ℤ) : Parser Bool := do
  let s ← get
  if s.data.length < s.currPos + length.toNat then throw .diverges
  else readLiteral length

/-- `parse_literal`, unless its header announces more bytes than are left. -/
def parseLiteralUpTo : Parser Bool := do
  savePos
  expectMatch "\x7b" do
    let length := (← parseNumber).getD 0
    expectMatch "\x7d" <| expect matchCrlf <| readLiteralUpTo length

/-- `parse_next` up to a call of `parse_literal` whose header announces more bytes than are left. -/
def parseNextUpTo : Parser Bool := parseNext parseLiteralUpTo

/-! ## What is cut off -/

section CutsOff

variable {f : Fault} {x y : Parser Bool}

/-- What precedes and follows a method that is cut off. -/
lemma cutsOff_saved {α : Type} {p q : Parser α} (h : CutsOff f p q) :
    CutsOff f (savePos >>= fun _ => p) (savePos >>= fun _ => q) :=
  CutsOff.bind (CutsOff.refl _) fun _ => h

/-- `if (!p()) PARSE_FAIL`. -/
lemma cutsOff_expect {rest rest' : Parser Bool} (h : CutsOff f x y) (hr : CutsOff f rest rest') :
    CutsOff f (expect x rest) (expect y rest') :=
  CutsOff.ifM h hr (CutsOff.refl _)

/-- A literal that is required, and what follows it. -/
lemma cutsOff_expectMatch {w : String} {rest rest' : Parser Bool} (hr : CutsOff f rest rest') :
    CutsOff f (expectMatch w rest) (expectMatch w rest') :=
  cutsOff_expect (CutsOff.refl _) hr

/-- A branch whose condition is not cut off. -/
lemma cutsOff_ifM {c t t' e e' : Parser Bool} (ht : CutsOff f t t') (he : CutsOff f e e') :
    CutsOff f (ifM c t e) (ifM c t' e') :=
  CutsOff.ifM (CutsOff.refl _) ht he

/-- `while (body());`. -/
lemma cutsOff_whileParser (h : CutsOff f x y) : CutsOff f (whileParser x) (whileParser y) :=
  CutsOff.bind (CutsOff.refl _) fun _ => CutsOff.repeatWhile h _

/-- A method that is cut off keeps to the backtracking discipline. -/
lemma tidy_of_cutsOff {α : Type} {ok : α → Bool} {p q : Parser α} (h : CutsOff f p q)
    (hq : Tidy ok q) : Tidy ok p :=
  fun s hs => h.ensures (hq s hs)

variable (h : CutsOff f x y)

include h

/-- A string is the literal. -/
lemma cutsOff_parseString : CutsOff f (parseString x) (parseString y) :=
  cutsOff_saved <| cutsOff_expect h (CutsOff.refl _)

/-- `NIL` does not reach the literal. -/
lemma cutsOff_parseNstring : CutsOff f (parseNstring x) (parseNstring y) :=
  cutsOff_saved <| cutsOff_ifM (CutsOff.refl _) <|
    cutsOff_expect (cutsOff_parseString h) (CutsOff.refl _)

/-- Only the contents of a body are read with a literal. -/
lemma cutsOff_parseMsgAttStatic : CutsOff f (parseMsgAttStatic x) (parseMsgAttStatic y) :=
  have hbody := cutsOff_expectMatch (w := " ") <|
    cutsOff_expect (cutsOff_parseNstring h) (CutsOff.refl parseSuccess)
  cutsOff_saved <| cutsOff_ifM (CutsOff.refl _) <| cutsOff_ifM (CutsOff.refl _) <|
    cutsOff_ifM (CutsOff.refl _) <| cutsOff_ifM (CutsOff.refl _) <|
    cutsOff_ifM
      (cutsOff_ifM (CutsOff.refl _) <| cutsOff_ifM (CutsOff.refl _) <|
        cutsOff_ifM (cutsOff_ifM (CutsOff.refl _) hbody) (CutsOff.refl _)) <|
    CutsOff.refl _

/-- The flags do not reach the literal. -/
lemma cutsOff_parseMsgAttItem : CutsOff f (parseMsgAttItem x) (parseMsgAttItem y) :=
  cutsOff_ifM (CutsOff.refl _) (cutsOff_parseMsgAttStatic h)

/-- The loop over the attributes reaches the literal in any round. -/
lemma cutsOff_parseMsgAtt : CutsOff f (parseMsgAtt x) (parseMsgAtt y) :=
  cutsOff_saved <| cutsOff_expectMatch <| cutsOff_expect (cutsOff_parseMsgAttItem h) <|
    CutsOff.bind
      (cutsOff_whileParser <| cutsOff_ifM (cutsOff_parseMsgAttItem h) (CutsOff.refl _))
      fun _ => CutsOff.refl _

/-- The literal is reached behind `FETCH`. -/
lemma cutsOff_parseMessageData : CutsOff f (parseMessageData x) (parseMessageData y) :=
  cutsOff_saved <| CutsOff.bind (CutsOff.refl _) fun number => by
    cases number with
    | none => exact CutsOff.refl _
    | some _ =>
      exact cutsOff_expectMatch <| cutsOff_ifM (CutsOff.refl _) <|
        cutsOff_ifM
          (CutsOff.bind (CutsOff.refl _) fun _ => cutsOff_expectMatch <|
            cutsOff_expect (cutsOff_parseMsgAtt h) (CutsOff.refl _)) <|
        CutsOff.refl _

/-- Only the data of a message reach the literal. -/
lemma cutsOff_parseResponseData :
    CutsOff f (parseResponseData x) (parseResponseData y) :=
  cutsOff_saved <| cutsOff_expectMatch <| cutsOff_expectMatch <|
    cutsOff_ifM (CutsOff.refl _) <| cutsOff_ifM (CutsOff.refl _) <|
    cutsOff_ifM (CutsOff.refl _) <|
    CutsOff.ifM (cutsOff_parseMessageData h) (CutsOff.refl _) (CutsOff.refl _)

/-- Only an untagged response reaches the literal. -/
lemma cutsOff_parseResponse : CutsOff f (parseResponse x) (parseResponse y) :=
  cutsOff_saved <| cutsOff_ifM (CutsOff.refl _) <|
    CutsOff.ifM (cutsOff_parseResponseData h) (CutsOff.refl _) (CutsOff.refl _)

/-- A greeting does not reach the literal. -/
lemma cutsOff_parseNext : CutsOff f (parseNext x) (parseNext y) :=
  CutsOff.bind (CutsOff.refl _) fun s => by
    by_cases hend : s.data.length ≤ s.currPos
    · simp only [if_pos hend]
      exact CutsOff.refl _
    · simp only [if_neg hend]
      exact CutsOff.ifM (cutsOff_parseResponse h) (CutsOff.refl _) (CutsOff.refl _)

end CutsOff

/-- `parse_literal` is cut off by its body only. -/
lemma cutsOff_parseLiteralUpTo : CutsOff .diverges parseLiteralUpTo parseLiteral := by
  have hbody : ∀ length, CutsOff .diverges (readLiteralUpTo length) (readLiteral length) := by
    intro length s
    rw [readLiteralUpTo, run_bind_of_ok (StateT.run_get _)]
    split
    · exact Or.inl rfl
    · exact Or.inr rfl
  exact cutsOff_saved <| cutsOff_expectMatch <| CutsOff.bind (CutsOff.refl _) fun _ =>
    cutsOff_expectMatch <| cutsOff_expect (CutsOff.refl _) (hbody _)

/-- **Calls that are not cut off.** A call that does not come to a literal that is too long is a
call of `parse_next`. -/
theorem cutsOff_parseNextUpTo : CutsOff .diverges parseNextUpTo parseNext :=
  cutsOff_parseNext cutsOff_parseLiteralUpTo

/-! ## Where a call is cut off -/

/-- The values that an `int` wraps to. -/
lemma inInt32_wrap32 (x : ℤ) : InInt32 (wrap32 x) := by
  simp only [InInt32, wrap32, Int.bmod_def]
  omega

/-- A round of the loop of `parse_number` is exact up to a multiple of `2 ^ 32`. -/
lemma accumulate_wrap32 {n : ℕ} {c : UInt8} (hc : isDigit c = true) :
    accumulate (wrap32 n) c = wrap32 (10 * n + (c.toNat - 48) : ℕ) := by
  have hdigit := isDigit_iff.mp hc
  have hround : ((n : ℤ) * 10 + ((c.toNat : ℤ) - 48)) = (10 * n + (c.toNat - 48) : ℕ) := by
    omega
  simp only [accumulate, wrap32, Int.bmod_add_bmod, Int.bmod_mul_bmod]
  rw [hround]

/-- So is the loop, by induction on the digits. -/
lemma foldl_accumulate_wrap32 {ds : Bytes} (hds : ∀ c ∈ ds, isDigit c = true) :
    ∀ n : ℕ, ds.foldl accumulate (wrap32 n) = wrap32 (numeralFrom n ds) := by
  induction ds with
  | nil => exact fun n => by rw [List.foldl_nil, numeralFrom, List.foldl_nil]
  | cons c ds ih =>
    intro n
    rw [List.foldl_cons, accumulate_wrap32 (hds c (by simp)), numeralFrom_cons]
    exact ih (fun a ha => hds a (by simp [ha])) _

/-- What `parse_number` stores is no larger than the value of the numeral. -/
lemma foldl_accumulate_le {ds : Bytes} (hds : ∀ c ∈ ds, isDigit c = true) :
    (ds.foldl accumulate 0).toNat ≤ numeralValue ds := by
  have hzero : wrap32 (0 : ℕ) = 0 := wrap32_of_lt (by decide)
  have hfold := foldl_accumulate_wrap32 hds 0
  rw [hzero] at hfold
  rw [hfold, ← numeralValue, wrap32, Int.bmod_def]
  omega

section Header

variable {d v : Bytes} {p : ℕ} {κ : List ℤ} {r : Option Response} {m : Bytes}

/-- After the number, only the body can be cut off, and only if the length is too large. -/
lemma literalTail_diverges {length : ℤ} (hat : At d p v) (hd : d.length < 2 ^ 31)
    (h : (expectMatch "\x7d" <| expect matchCrlf <| readLiteralUpTo length).run ⟨d, p, κ, r, m⟩ =
      .error .diverges) : ∃ u, v = ascii "\x7d" ++ (crlf ++ u) ∧ u.length < length.toNat := by
  by_cases hclose : ascii "\x7d" <+: v
  · obtain ⟨w, rfl⟩ := hclose
    rw [expectMatch_at hat] at h
    have hpos : p + (ascii "\x7d").length < 2 ^ 31 := Nat.lt_of_le_of_lt hat.skip.1 hd
    by_cases hcrlf : crlf <+: w
    · obtain ⟨u, rfl⟩ := hcrlf
      have hbody := hat.skip.skip
      have hlen := hbody.length_eq
      rw [expectCrlf_at hat.skip, readLiteralUpTo, run_bind_of_ok (StateT.run_get _)] at h
      by_cases hshort : u.length < length.toNat
      · exact ⟨u, rfl, hshort⟩
      · rw [show crlf.length = 2 from rfl] at hlen hbody
        rw [if_neg (by simp only; omega)] at h
        exact absurd h (halts_readLiteral _ _ ⟨hbody.1, hd⟩)
    · rw [expect, ifM_run_false (matchCrlf_not hat.skip hpos hcrlf)] at h
      exact absurd h (Halts.fail _ ⟨hat.skip.1, hd⟩)
  · rw [expectMatch, expect, ifM_run_false (matchStr_not hat hclose)] at h
    exact absurd h (Halts.fail _ ⟨hat.1, hd⟩)

/-- **A call is cut off at a literal that is too long.** Where `parseLiteralUpTo` stops, the header
of a literal stands ahead, and the number in it is larger than the number of bytes after it. -/
theorem parseLiteralUpTo_diverges (hp : p ≤ d.length) (hd : d.length < 2 ^ 31)
    (h : parseLiteralUpTo.run ⟨d, p, κ, r, m⟩ = .error .diverges) :
    ∃ ds v, At d p (ascii "\x7b" ++ (ds ++ (ascii "\x7d" ++ (crlf ++ v)))) ∧
      (∀ c ∈ ds, isDigit c = true) ∧ v.length < numeralValue ds := by
  rw [parseLiteralUpTo, run_bind_of_ok savePos_run] at h
  by_cases hopen : ascii "\x7b" <+: d.drop p
  · obtain ⟨w, hw⟩ := hopen
    have hat : At d p (ascii "\x7b" ++ w) := ⟨hp, hw.symm⟩
    obtain ⟨ds, v, rfl, hds, hv⟩ := exists_longest_prefix isDigit w
    have hpos : p + (ascii "\x7b").length < 2 ^ 31 := Nat.lt_of_le_of_lt hat.skip.1 hd
    rw [expectMatch_at hat] at h
    cases ds with
    | nil =>
      rw [run_bind_of_ok (parseNumber_none hat.skip hv), toSizeT_wrap32 hpos] at h
      obtain ⟨u, -, hu⟩ := literalTail_diverges hat.skip hd h
      exact absurd hu (Nat.not_lt_zero _)
    | cons c ds =>
      rw [run_bind_of_ok (parseNumber_digits hat.skip (List.cons_ne_nil _ _) hds hv)] at h
      obtain ⟨u, rfl, hu⟩ := literalTail_diverges hat.skip.skip hd h
      exact ⟨c :: ds, u, hat, hds, Nat.lt_of_lt_of_le hu (foldl_accumulate_le hds)⟩
  · rw [expectMatch, expect, ifM_run_false (matchStr_not ⟨hp, rfl⟩ hopen)] at h
    exact absurd h (Halts.fail _ ⟨hp, hd⟩)

end Header

end Imapcl
