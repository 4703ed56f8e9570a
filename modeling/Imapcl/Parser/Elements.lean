import Imapcl.Foundation.Cursor
import Imapcl.Parser.Grammar
import Imapcl.Parser.WireForm

set_option relaxedAutoImplicit false
set_option autoImplicit false

/-!
# What the elements of a line consume

For every nonterminal, the run on the wire form of what it is meant to read: it answers `true`,
advances by exactly the length of that wire form and stores the value it stands for. The runs are
stated on explicit states, with `Cursor.At` for what stands ahead; the only bound is that the
positions which are restored on the way are below `2 ^ 31`. This file has the elements: literals,
numbers, texts, and status responses.

## Main results

* `Imapcl.parseNumber_digits`, `Imapcl.parseText_at` — numbers and texts.
* `Imapcl.parseRespText_at`, `Imapcl.parseStatusText_at` — status texts.
* `Imapcl.parseResponseTagged_at` — tagged responses.
-/

namespace Imapcl

open StateExcept Cursor

variable {d u v w : Bytes} {p q : ℕ} {κ : List ℤ} {r : Option Response} {m : Bytes}

/-! ## Literals and numbers -/

/-- A literal that stands ahead is matched. -/
lemma matchStr_at (h : At d p (w ++ v)) :
    (matchStr w).run ⟨d, p, κ, r, m⟩ = .ok (true, ⟨d, p + w.length, κ, r, m⟩) :=
  matchStr_run_true h.1 h.isPrefix

/-- A literal that does not stand ahead is not matched. -/
lemma matchStr_not (h : At d p v) (hw : ¬ w <+: v) :
    (matchStr w).run ⟨d, p, κ, r, m⟩ = .ok (false, ⟨d, p, κ, r, m⟩) :=
  matchStr_run_false h.1 (by rwa [h.2])

/-- `EXPECT_MATCH` on a literal that stands ahead. -/
lemma expectMatch_at {s : String} {rest : Parser Bool} (h : At d p (ascii s ++ v)) :
    (expectMatch s rest).run ⟨d, p, κ, r, m⟩ =
      rest.run ⟨d, p + (ascii s).length, κ, r, m⟩ :=
  ifM_run_true (matchStr_at h)

/-- `EXPECT_MATCH` on a literal that does not stand ahead goes back to the saved position. -/
lemma expectMatch_not {s : String} {rest : Parser Bool} (h : At d p v) (hq : q < 2 ^ 31)
    (hs : ¬ ascii s <+: v) :
    (expectMatch s rest).run ⟨d, p, wrap32 q :: κ, r, m⟩ = .ok (false, ⟨d, q, κ, r, m⟩) := by
  rw [expectMatch, expect, ifM_run_false (matchStr_not h hs), parseFail_run hq]

/-- `match_crlf` on a CRLF. -/
lemma matchCrlf_at (h : At d p (crlf ++ v)) :
    matchCrlf.run ⟨d, p, κ, r, m⟩ = .ok (true, ⟨d, p + 2, κ, r, m⟩) := by
  rw [matchCrlf, run_bind_of_ok savePos_run, expect, ifM_run_true (matchStr_at h)]
  rfl

/-- `match_crlf` where no CRLF stands ahead. -/
lemma matchCrlf_not (h : At d p v) (hp : p < 2 ^ 31) (hv : ¬ crlf <+: v) :
    matchCrlf.run ⟨d, p, κ, r, m⟩ = .ok (false, ⟨d, p, κ, r, m⟩) := by
  rw [matchCrlf, run_bind_of_ok savePos_run, expect, ifM_run_false (matchStr_not h hv),
    parseFail_run hp]

/-- A CRLF that does not stand ahead. -/
lemma expectCrlf_not {rest : Parser Bool} (h : At d p v) (hp : p < 2 ^ 31) (hq : q < 2 ^ 31)
    (hv : ¬ crlf <+: v) :
    (expect matchCrlf rest).run ⟨d, p, wrap32 q :: κ, r, m⟩ = .ok (false, ⟨d, q, κ, r, m⟩) := by
  rw [expect, ifM_run_false (matchCrlf_not h hp hv), parseFail_run hq]

/-- One more digit, as long as the number stays below `2 ^ 31`. -/
lemma accumulate_digit {n : ℕ} {c : UInt8} (hc : isDigit c = true)
    (h : 10 * n + (c.toNat - 48) < 2 ^ 31) :
    accumulate n c = (10 * n + (c.toNat - 48) : ℕ) := by
  have hdigit := isDigit_iff.mp hc
  have h1 : wrap32 ((n : ℤ) * 10) = (n * 10 : ℕ) := by
    rw [← wrap32_of_lt (n := n * 10) (by omega)]
    norm_num
  have h2 : ((n * 10 : ℕ) : ℤ) + ((c.toNat : ℤ) - 48) = (10 * n + (c.toNat - 48) : ℕ) := by
    omega
  rw [accumulate, h1, h2, wrap32_of_lt h]

/-- The loop of `parse_number` computes the value of a numeral below `2 ^ 31`.

**Proof sketch.** Induction on the digits, for every start value. The value after the first digit is
at most that of the whole numeral, so the first round does not wrap. -/
lemma foldl_accumulate {ds : Bytes} (hds : ∀ c ∈ ds, isDigit c = true) :
    ∀ n, numeralFrom n ds < 2 ^ 31 → ds.foldl accumulate n = numeralFrom n ds := by
  induction ds with
  | nil => exact fun n _ => rfl
  | cons c ds ih =>
    intro n h
    have hle := le_numeralFrom ds (10 * n + (c.toNat - 48))
    rw [numeralFrom_cons] at h ⊢
    rw [List.foldl_cons, accumulate_digit (hds c (by simp)) (by omega)]
    exact ih (fun a ha => hds a (by simp [ha])) _ h

/-- The result of the loop of `parse_number`, for a value below `2 ^ 31`. -/
lemma foldl_accumulate_zero {ds : Bytes} (hds : ∀ c ∈ ds, isDigit c = true)
    (h : numeralValue ds < 2 ^ 31) : ds.foldl accumulate 0 = numeralValue ds :=
  foldl_accumulate hds 0 h

/-- `parse_number` on a word of digits that ends before a non-digit. -/
lemma parseNumber_digits {ds : Bytes} (h : At d p (ds ++ v)) (hne : ds ≠ [])
    (hds : ∀ c ∈ ds, isDigit c = true) (hv : ∀ c, v.head? = some c → isDigit c = false) :
    parseNumber.run ⟨d, p, κ, r, m⟩ =
      .ok (some (ds.foldl accumulate 0), ⟨d, p + ds.length, κ, r, m⟩) := by
  have hw : (d.drop p).takeWhile isDigit = ds := by
    rw [h.2]
    exact takeWhile_append hds hv
  rw [parseNumber, run_bind_of_ok savePos_run, run_bind_of_ok (scanWhile_run h.1), hw, if_neg hne]
  rfl

/-- `parse_number` where no digit stands ahead. -/
lemma parseNumber_none (h : At d p v) (hv : ∀ c, v.head? = some c → isDigit c = false) :
    parseNumber.run ⟨d, p, κ, r, m⟩ = .ok (none, ⟨d, toSizeT (wrap32 p), κ, r, m⟩) := by
  have hw : (d.drop p).takeWhile isDigit = [] := by
    rw [h.2]
    exact takeWhile_append (u := []) (by simp) hv
  rw [parseNumber, run_bind_of_ok savePos_run, run_bind_of_ok (scanWhile_run h.1), hw, if_pos rfl]
  rfl

/-- `if (!parse_number(n)) PARSE_FAIL` on a numeral. -/
lemma expectNumber_digits {ds : Bytes} {rest : ℤ → Parser Bool} (hds : Digits ds)
    (h : At d p (ds ++ v)) (hv : ∀ c, v.head? = some c → isDigit c = false) :
    (expectSome parseNumber rest).run ⟨d, p, κ, r, m⟩ =
      (rest (ds.foldl accumulate 0)).run ⟨d, p + ds.length, κ, r, m⟩ := by
  rw [expectSome, run_bind_of_ok (parseNumber_digits h hds.nonempty hds.digit hv)]

/-- The number that is stored for a word of digits: the `int` that `parse_number` computes,
converted to `uint32_t`. -/
def storedNumber (ds : Bytes) : UInt32 := UInt32.ofInt (ds.foldl accumulate 0)

/-! ## Texts -/

/-- The bytes ahead start with the end of a line. -/
def LineEnd (v : Bytes) : Prop := ∃ c v', v = c :: v' ∧ (c = cr ∨ c = lf)

/-- A CRLF is the end of a line. -/
lemma lineEnd_crlf (v : Bytes) : LineEnd (crlf ++ v) := ⟨cr, lf :: v, rfl, .inl rfl⟩

/-- `parse_text_char` on a character of a line. -/
lemma parseTextChar_at {c : UInt8} (h : At d p (c :: v)) (hc : c ≠ cr ∧ c ≠ lf) :
    parseTextChar.run ⟨d, p, κ, r, m⟩ = .ok (true, ⟨d, p + 1, κ, r, m⟩) := by
  rw [parseTextChar_run h.1, h.2, List.headD_cons, if_neg (by tauto)]

/-- `parse_text_char` at the end of a line restores the position it has saved. -/
lemma parseTextChar_restores {c : UInt8} (h : At d p (c :: v)) (hc : c = cr ∨ c = lf) :
    parseTextChar.run ⟨d, p, κ, r, m⟩ = .ok (false, ⟨d, toSizeT (wrap32 p), κ, r, m⟩) := by
  rw [parseTextChar_run h.1, h.2, List.headD_cons, if_pos hc]

/-- Below `2 ^ 31` this is the position of the end of the line. -/
lemma parseTextChar_eol {c : UInt8} (h : At d p (c :: v)) (hc : c = cr ∨ c = lf)
    (hp : p < 2 ^ 31) :
    parseTextChar.run ⟨d, p, κ, r, m⟩ = .ok (false, ⟨d, p, κ, r, m⟩) := by
  rw [parseTextChar_restores h hc, toSizeT_wrap32 hp]

/-- The loop of `parse_text` runs to the end of the line.

**Proof sketch.** Induction on the rest of the line; each round of the loop reads one character and
uses one unit of fuel. -/
lemma textLoop_at (hv : LineEnd v) (w : Bytes) (hw : ∀ c ∈ w, c ≠ cr ∧ c ≠ lf) :
    ∀ (p fuel : ℕ), At d p (w ++ v) → w.length < fuel →
      (repeatWhile .diverges parseTextChar fuel).run ⟨d, p, κ, r, m⟩ =
        .ok ((), ⟨d, toSizeT (wrap32 ↑(p + w.length)), κ, r, m⟩) := by
  induction w with
  | nil =>
    intro p fuel h hf
    obtain ⟨n, rfl⟩ : ∃ n, fuel = n + 1 := ⟨fuel - 1, by simp at hf; omega⟩
    obtain ⟨c, v', rfl, hc⟩ := hv
    rw [repeatWhile_run_false (parseTextChar_restores h hc)]
    rfl
  | cons c w ih =>
    intro p fuel h hf
    rw [List.length_cons] at hf
    obtain ⟨n, rfl⟩ : ∃ n, fuel = n + 1 := ⟨fuel - 1, by omega⟩
    rw [repeatWhile_run_true (parseTextChar_at h (hw c (by simp))),
      ih (fun c hc => hw c (by simp [hc])) (p + 1) n h.next (by omega),
      List.length_cons, show p + 1 + w.length = p + (w.length + 1) by omega]

/-- `parse_text` on the text of a line ends at the end of the line, as it has been saved. -/
lemma parseText_restores (hw : LineText w) (hv : LineEnd v) (h : At d p (w ++ v)) :
    parseText.run ⟨d, p, κ, r, m⟩ =
      .ok (true, ⟨d, toSizeT (wrap32 ↑(p + w.length)), κ, r, m⟩) := by
  obtain ⟨hne, hline⟩ := hw
  have hlen := h.length_eq
  cases w with
  | nil => exact absurd rfl hne
  | cons c w =>
    simp only [List.length_append, List.length_cons] at hlen
    have hloop := textLoop_at (κ := wrap32 p :: κ) (r := r) (m := m) hv w
      (fun c hc => hline c (by simp [hc])) (p + 1) (d.length + 2) h.next (by omega)
    rw [parseText, run_bind_of_ok savePos_run,
      run_bind_of_ok (parseTextChar_at h (hline c (by simp))), whileParser,
      run_bind_of_ok (run_bind_of_ok (StateT.run_get _) |>.trans hloop), if_pos rfl,
      List.length_cons, show p + 1 + w.length = p + (w.length + 1) by omega]
    exact parseSuccessWith_run

/-- Below `2 ^ 31` this is the end of the line. -/
lemma parseText_at (hw : LineText w) (hv : LineEnd v) (h : At d p (w ++ v))
    (hp : p + w.length < 2 ^ 31) :
    parseText.run ⟨d, p, κ, r, m⟩ = .ok (true, ⟨d, p + w.length, κ, r, m⟩) := by
  rw [parseText_restores hw hv h, toSizeT_wrap32 hp]

/-- Skipping to the closing bracket `c` passes over a word without it. -/
lemma skipTo_at {c : UInt8} (h : At d p (w ++ c :: v)) (hw : c ∉ w) :
    (skipTo c).run ⟨d, p, κ, r, m⟩ = .ok ((), ⟨d, p + w.length, κ, r, m⟩) := by
  have ht : (d.drop p).takeWhile (fun a => decide (a ≠ c)) = w := by
    rw [h.2]
    refine takeWhile_append (fun a ha => decide_eq_true ?_) (by simp)
    rintro rfl
    exact hw ha
  simp only [skipTo]
  rw [run_bind_of_ok (StateT.run_get _)]
  show Except.ok _ = _
  rw [ht]

/-- Skipping to a bracket that does not come ends at the end of the data. -/
lemma skipTo_end {c : UInt8} (h : At d p w) (hw : c ∉ w) :
    (skipTo c).run ⟨d, p, κ, r, m⟩ = .ok ((), ⟨d, p + w.length, κ, r, m⟩) := by
  have ht : (d.drop p).takeWhile (fun a => decide (a ≠ c)) = w := by
    rw [h.2, List.takeWhile_eq_self_iff]
    refine fun a ha => decide_eq_true ?_
    rintro rfl
    exact hw ha
  simp only [skipTo]
  rw [run_bind_of_ok (StateT.run_get _)]
  show Except.ok _ = _
  rw [ht]

/-! ## Status texts -/

/-- A literal without `]` that is no prefix of a code is no prefix of what follows the bracket. -/
lemma not_prefix_code {w code : Bytes} (hw : byte ']' ∉ w) (h : ¬ w <+: code) :
    ¬ w <+: code ++ byte ']' :: v :=
  fun hp => h (prefix_of_prefix_append_cons hp hw)

/-- `parse_resp_text_code` reads a well-formed code up to its closing bracket.

**Proof sketch.** The four recognised codes are tried in order. If one of them is a prefix of the
code, the code is exactly that; otherwise the bytes up to the first `]` are skipped. -/
lemma parseRespTextCode_at {code : Bytes} (hcode : RespTextCode code)
    (h : At d p (code ++ byte ']' :: v)) :
    parseRespTextCode.run ⟨d, p, κ, r, m⟩ = .ok (true, ⟨d, p + code.length, κ, r, m⟩) := by
  rw [parseRespTextCode, run_bind_of_ok savePos_run]
  by_cases h1 : ascii "ALERT" <+: code
  · rw [hcode.alert h1] at h ⊢
    rw [ifM_run_true (matchStr_at h)]
    rfl
  rw [ifM_run_false (matchStr_not h (not_prefix_code (by decide) h1))]
  by_cases h2 : ascii "UNSEEN" <+: code
  · obtain ⟨digits, hne, hdigits, rfl⟩ := hcode.unseen h2
    have hw : At d p (ascii "UNSEEN" ++ (ascii " " ++ (digits ++ byte ']' :: v))) := by
      rwa [show ascii "UNSEEN " = ascii "UNSEEN" ++ ascii " " from rfl, List.append_assoc,
        List.append_assoc] at h
    rw [ifM_run_true (matchStr_at hw), expectMatch_at hw.skip, expectSome,
      run_bind_of_ok (parseNumber_digits hw.skip.skip hne hdigits (head_cons _ rfl)),
      List.length_append, show (ascii "UNSEEN ").length =
        (ascii "UNSEEN").length + (ascii " ").length from rfl, ← Nat.add_assoc, ← Nat.add_assoc]
    rfl
  rw [ifM_run_false (matchStr_not h (not_prefix_code (by decide) h2))]
  by_cases h3 : ascii "READ-ONLY" <+: code
  · rw [hcode.readOnly h3] at h ⊢
    rw [ifM_run_true (by rw [ifM_run_true (matchStr_at h)]; rfl)]
    rfl
  by_cases h4 : ascii "READ-WRITE" <+: code
  · rw [hcode.readWrite h4] at h ⊢
    rw [ifM_run_true (by
      rw [ifM_run_false (matchStr_not h (not_prefix_append (by decide))), matchStr_at h])]
    rfl
  rw [ifM_run_false (by
    rw [ifM_run_false (matchStr_not h (not_prefix_code (by decide) h3)),
      matchStr_not h (not_prefix_code (by decide) h4)])]
  have hlen := h.length_eq
  rw [List.length_append, List.length_cons] at hlen
  rw [run_bind_of_ok (skipTo_at h hcode.free), run_bind_of_ok (StateT.run_get _),
    if_pos (show p + code.length < d.length by omega),
    run_bind_of_ok (charAt_run h.skip.1), h.skip.2, List.headD_cons, if_pos rfl]
  rfl

/-- `parse_resp_text` on a plain text of any length ends at a position that has been restored. -/
lemma parseRespText_restores (hw : LineText w) (hhead : w.head? ≠ some (byte '['))
    (hv : LineEnd v) (h : At d p (w ++ v)) :
    parseRespText.run ⟨d, p, κ, r, m⟩ =
      .ok (true, ⟨d, toSizeT (wrap32 ↑(p + w.length)), κ, r, m⟩) := by
  have hbracket : ¬ ascii "[" <+: w ++ v := by
    cases w with
    | nil => exact absurd rfl hw.nonempty
    | cons c w => exact not_prefix_cons fun hc => hhead (by rw [List.head?_cons, ← hc]; rfl)
  rw [parseRespText, run_bind_of_ok savePos_run, ifM_run_false (matchStr_not h hbracket), expect,
    ifM_run_true (parseText_restores hw hv h)]
  exact parseSuccessWith_run

/-- `parse_resp_text` on the text of a status response.

**Proof sketch.** A plain text goes to `parse_text` as it is. Of a text with a code, the bracket,
the code, the second bracket with its space and the rest are read one after the other. -/
lemma parseRespText_at (ht : RespText w) (hv : LineEnd v) (h : At d p (w ++ v))
    (hp : p + w.length < 2 ^ 31) :
    parseRespText.run ⟨d, p, κ, r, m⟩ = .ok (true, ⟨d, p + w.length, κ, r, m⟩) := by
  cases ht with
  | plain hhead hw => rw [parseRespText_restores hw hhead hv h, toSizeT_wrap32 hp]
  | coded code rest hw hcode hrest =>
    rw [parseRespText, run_bind_of_ok savePos_run]
    have hat : At d p (ascii "[" ++ (code ++ byte ']' :: (ascii " " ++ (rest ++ v)))) := by
      rw [hw] at h
      simp only [List.append_assoc] at h ⊢
      exact h
    have hclose : At d (p + (ascii "[").length + code.length)
        (ascii "]" ++ (ascii " " ++ (rest ++ v))) := hat.skip.skip
    have htext := hclose.skip.skip
    have hpos := htext.skip.unique h.skip
    rw [ifM_run_true (matchStr_at hat), run_bind_of_ok (run_discard_of_ok
      (parseRespTextCode_at hcode hat.skip)), expectMatch_at hclose, expectMatch_at hclose.skip,
      expect, ifM_run_true (parseText_at hrest hv htext (by omega)), hpos]
    rfl

/-- The space and the text after a status word are stored as a status response without a tag. -/
lemma parseStatusText_at (type : ResponseType) (ht : RespText w) (hv : LineEnd v)
    (h : At d p (ascii " " ++ w ++ v)) (hp : p + (ascii " " ++ w).length < 2 ^ 31) :
    (parseStatusText type).run ⟨d, p, wrap32 q :: κ, r, m⟩ =
      .ok (true, ⟨d, p + (ascii " " ++ w).length, κ, some (.status type [] w), m⟩) := by
  have htext := h.assoc.skip
  have hsub : subSizeT (p + (ascii " ").length + w.length) (p + (ascii " ").length) =
      w.length := by
    rw [subSizeT, if_pos (Nat.le_add_right _ _)]
    omega
  have htake : (d.drop (p + (ascii " ").length)).take w.length = w := by
    rw [htext.2, List.take_left]
  rw [List.length_append, ← Nat.add_assoc] at hp ⊢
  rw [parseStatusText, expectMatch_at h.assoc, run_bind_of_ok (StateT.run_get _), expect,
    ifM_run_true (parseRespText_at ht hv htext hp), run_bind_of_ok (StateT.run_get _)]
  show (substr _ (subSizeT _ _) >>= _).run _ = _
  rw [hsub, run_bind_of_ok (substr_run htext.1), htake]
  rfl

/-- `parse_resp_cond_state` on a status word and its text. -/
lemma parseRespCondState_at (c : Cond) (ht : RespText w) (hv : LineEnd v)
    (h : At d p (c.word ++ (ascii " " ++ w) ++ v))
    (hp : p + (c.word ++ (ascii " " ++ w)).length < 2 ^ 31) :
    parseRespCondState.run ⟨d, p, κ, r, m⟩ =
      .ok (true, ⟨d, p + (c.word ++ (ascii " " ++ w)).length, κ,
        some (.status c.type [] w), m⟩) := by
  have hword := h.assoc
  rw [List.length_append, ← Nat.add_assoc] at hp ⊢
  rw [parseRespCondState, run_bind_of_ok savePos_run]
  cases c with
  | ok =>
    rw [Cond.word] at hword hp ⊢
    rw [ifM_run_true (matchStr_at hword), parseStatusText_at .ok ht hv hword.skip hp]
    rfl
  | no =>
    rw [Cond.word] at hword hp ⊢
    rw [ifM_run_false (matchStr_not hword (not_prefix_append (by decide))),
      ifM_run_true (matchStr_at hword), parseStatusText_at .no ht hv hword.skip hp]
    rfl
  | bad =>
    rw [Cond.word] at hword hp ⊢
    rw [ifM_run_false (matchStr_not hword (not_prefix_append (by decide))),
      ifM_run_false (matchStr_not hword (not_prefix_append (by decide))),
      ifM_run_true (matchStr_at hword), parseStatusText_at .bad ht hv hword.skip hp]
    rfl

/-- `parse_resp_cond_state` before something that starts with none of its status words. -/
lemma parseRespCondState_not (h : At d p v) (hp : p < 2 ^ 31) (ho : ¬ ascii "OK" <+: v)
    (hn : ¬ ascii "NO" <+: v) (hb : ¬ ascii "BAD" <+: v) :
    parseRespCondState.run ⟨d, p, κ, r, m⟩ = .ok (false, ⟨d, p, κ, r, m⟩) := by
  rw [parseRespCondState, run_bind_of_ok savePos_run, ifM_run_false (matchStr_not h ho),
    ifM_run_false (matchStr_not h hn), ifM_run_false (matchStr_not h hb), parseFail_run hp]

/-- `parse_resp_cond_bye` on `BYE` and its text. -/
lemma parseRespCondBye_at (ht : RespText w) (hv : LineEnd v)
    (h : At d p (ascii "BYE" ++ (ascii " " ++ w) ++ v))
    (hp : p + (ascii "BYE" ++ (ascii " " ++ w)).length < 2 ^ 31) :
    parseRespCondBye.run ⟨d, p, κ, r, m⟩ =
      .ok (true, ⟨d, p + (ascii "BYE" ++ (ascii " " ++ w)).length, κ,
        some (.status .bye [] w), m⟩) := by
  rw [List.length_append, ← Nat.add_assoc] at hp ⊢
  rw [parseRespCondBye, run_bind_of_ok savePos_run, expectMatch_at h.assoc,
    parseStatusText_at .bye ht hv h.assoc.skip hp]

/-- `parse_resp_cond_bye` before something else. -/
lemma parseRespCondBye_not (h : At d p v) (hp : p < 2 ^ 31) (hb : ¬ ascii "BYE" <+: v) :
    parseRespCondBye.run ⟨d, p, κ, r, m⟩ = .ok (false, ⟨d, p, κ, r, m⟩) := by
  rw [parseRespCondBye, run_bind_of_ok savePos_run, expectMatch_not h hp hb]

/-! ## Tagged responses -/

/-- `parse_tag` on a tag. -/
lemma parseTag_at (tag : Tag) (h : At d p (tag.bytes ++ v))
    (hv : ∀ c, v.head? = some c → isAlnum c = false) :
    parseTag.run ⟨d, p, κ, r, m⟩ = .ok (true, ⟨d, p + tag.bytes.length, κ, r, m⟩) := by
  have hw : (d.drop p).takeWhile isAlnum = tag.bytes := by
    rw [h.2]
    exact takeWhile_append tag.alnum hv
  rw [parseTag, run_bind_of_ok (scanWhile_run h.1), hw, decide_eq_true tag.nonempty]
  rfl

/-- `parse_tag` before a byte that no tag contains. -/
lemma parseTag_not (h : At d p v) (hv : ∀ c, v.head? = some c → isAlnum c = false) :
    parseTag.run ⟨d, p, κ, r, m⟩ = .ok (false, ⟨d, p, κ, r, m⟩) := by
  have hw : (d.drop p).takeWhile isAlnum = [] := by
    rw [h.2]
    exact takeWhile_append (u := []) (by simp) hv
  rw [parseTag, run_bind_of_ok (scanWhile_run h.1), hw]
  rfl

/-- A CRLF at the end of a nonterminal. -/
lemma expectCrlf_at {rest : Parser Bool} (h : At d p (crlf ++ v)) :
    (expect matchCrlf rest).run ⟨d, p, κ, r, m⟩ = rest.run ⟨d, p + 2, κ, r, m⟩ :=
  ifM_run_true (matchCrlf_at h)

/-- `parse_response_tagged` on a tagged response. -/
lemma parseResponseTagged_at (tag : Tag) (c : Cond) (ht : RespText w)
    (h : At d p (tag.bytes ++ ascii " " ++ c.word ++ ascii " " ++ w ++ crlf ++ v))
    (hp : p + (tag.bytes ++ ascii " " ++ c.word ++ ascii " " ++ w).length < 2 ^ 31) :
    parseResponseTagged.run ⟨d, p, κ, r, m⟩ =
      .ok (true, ⟨d, p + (tag.bytes ++ ascii " " ++ c.word ++ ascii " " ++ w ++ crlf).length, κ,
        some (.status c.type tag.bytes w), m⟩) := by
  have htag : At d p (tag.bytes ++ (ascii " " ++ (c.word ++ (ascii " " ++ w) ++
      (crlf ++ v)))) := by
    simpa only [List.append_assoc] using h
  have hcond := htag.skip.skip
  have hbound : p + tag.bytes.length + (ascii " ").length +
      (c.word ++ (ascii " " ++ w)).length < 2 ^ 31 := by
    simp only [List.length_append] at hp ⊢
    omega
  have hsub : subSizeT (p + tag.bytes.length) p = tag.bytes.length := by
    rw [subSizeT, if_pos (Nat.le_add_right _ _), Nat.add_sub_cancel_left]
  have htake : (d.drop p).take tag.bytes.length = tag.bytes := by
    rw [htag.2, List.take_left]
  rw [parseResponseTagged, run_bind_of_ok savePos_run, run_bind_of_ok (StateT.run_get _), expect,
    ifM_run_true (parseTag_at tag htag (head_cons _ rfl)), run_bind_of_ok (StateT.run_get _)]
  show (substr p (subSizeT _ p) >>= _).run _ = _
  rw [hsub, run_bind_of_ok (substr_run htag.1), htake, expectMatch_at htag.skip, expect,
    ifM_run_true (parseRespCondState_at c ht (lineEnd_crlf v) hcond hbound),
    expectCrlf_at hcond.skip]
  have hend : At d _ v := hcond.skip.skip
  rw [← hend.unique h.skip]
  rfl

end Imapcl
