import Imapcl.Parser.StatusLine
import Imapcl.Parser.UpToLiteral

set_option relaxedAutoImplicit false
set_option autoImplicit false

/-!
# Scans inside of the data

The scanning loops of the parser test characters, not positions: they rely on the terminator of the
data, or on a line end, to stop them. The terminator stops those that look for digits and letters;
for the one in `parse_text` it is a character like others, and only a line end ahead keeps that loop
inside the data.

## Main definitions

* `Imapcl.LineData` — the data that the receiver passes to the parser.
* `Imapcl.Safe` — a method that does not read beyond the terminator.
* `Imapcl.Called` — the states in which a caller calls `parse_next`.

## Main results

* `Imapcl.scanWhile_eq_loop`, `Imapcl.skipTo_eq_loop` — the scans as loops over characters.
* `Imapcl.parseText_outcome` — `parse_text` ends at a line end, or beyond the data.
* `Imapcl.scans_in_bounds` — calls of `parse_next` on data shorter than `2 ^ 31`.
* `Imapcl.scan_out_of_bounds` — longer data on which a call reads beyond the terminator.

## Design

A read beyond the terminator is the fault `undefined`, which no method catches. So a call reads
inside of the data if and only if it does not abort with this fault, whatever method reads. What
`parse_text` relies on is a space that has been matched: it is not the last character of the data,
because that is a line feed.
-/

namespace Imapcl

open StateExcept Cursor

variable {α β : Type} {d u v w : Bytes} {p n k : ℕ} {κ : List ℤ} {r : Option Response} {m : Bytes}

/-! ## The scans as loops -/

section Loops

variable {f : UInt8 → Bool}

/-- A loop over the characters with the property `f` stops at the first other one, or at the end.

**Proof sketch.** Induction on what is ahead; each round passes over one character. -/
lemma charLoop_run {body : Parser Bool}
    (hstep : ∀ q c v, At d q (c :: v) → body.run ⟨d, q, κ, r, m⟩ =
      if f c then .ok (true, ⟨d, q + 1, κ, r, m⟩) else .ok (false, ⟨d, q, κ, r, m⟩))
    (hend : body.run ⟨d, d.length, κ, r, m⟩ = .ok (false, ⟨d, d.length, κ, r, m⟩)) (v : Bytes) :
    ∀ p fuel, At d p v → v.length < fuel →
      (repeatWhile .diverges body fuel).run ⟨d, p, κ, r, m⟩ =
        .ok ((), ⟨d, p + (v.takeWhile f).length, κ, r, m⟩) := by
  induction v with
  | nil =>
    intro p fuel h hfuel
    obtain ⟨fuel, rfl⟩ : ∃ j, fuel = j + 1 := ⟨fuel - 1, by simp at hfuel; omega⟩
    obtain rfl := h.eq_length
    rw [repeatWhile_run_false hend]
    rfl
  | cons c v ih =>
    intro p fuel h hfuel
    rw [List.length_cons] at hfuel
    obtain ⟨fuel, rfl⟩ : ∃ j, fuel = j + 1 := ⟨fuel - 1, by omega⟩
    have hround := hstep p c v h
    cases hc : f c with
    | false =>
      rw [hc, if_neg Bool.false_ne_true] at hround
      rw [repeatWhile_run_false hround, List.takeWhile_cons, hc]
      rfl
    | true =>
      rw [hc, if_pos rfl] at hround
      rw [repeatWhile_run_true hround, ih (p + 1) fuel h.next (by omega), List.takeWhile_cons, hc,
        if_pos rfl, List.length_cons, Nat.add_assoc, Nat.add_comm 1]

/-- One round of `while (f(data[curr_pos])) curr_pos += 1;`. -/
def scanRound (f : UInt8 → Bool) : Parser Bool := do
  if f (← charAt) then do
    advance 1
    pure true
  else pure false

/-- One round of the loop
`while (curr_pos < data.size()) { if (data[curr_pos] == c) break; else curr_pos++; }`. -/
def skipRound (c : UInt8) : Parser Bool := do
  let s ← get
  if s.currPos < s.data.length then do
    if (← charAt) ≠ c then do
      advance 1
      pure true
    else pure false
  else pure false

/-- **Scanning reads inside the data.** Where the terminator does not have the property `f`, the
loop over the characters is the longest prefix of the bytes ahead; it reads beyond the terminator
only if it starts there. -/
theorem scanWhile_eq_loop (hf : f 0 = false) (s : ResponseParser) :
    (whileParser (scanRound f)).run s = (discard (scanWhile f)).run s := by
  obtain ⟨d, p, κ, r, m⟩ := s
  rw [whileParser, run_bind_of_ok (StateT.run_get _)]
  rcases Nat.lt_or_ge d.length p with hp | hp
  · have hscan : (scanWhile f).run ⟨d, p, κ, r, m⟩ = .error .undefined := by
      rw [scanWhile, run_bind_of_error (ahead_run_beyond hp)]
    rw [show discard (scanWhile f) = scanWhile f >>= fun _ => pure () from rfl,
      run_bind_of_error hscan]
    exact repeatWhile_run_error (run_bind_of_error (charAt_run_beyond hp))
  · rw [run_discard_of_ok (scanWhile_run hp)]
    refine charLoop_run (fun q c v h => ?_) ?_ (d.drop p) p (d.length + 2) ⟨hp, rfl⟩ ?_
    · rw [scanRound, run_bind_of_ok (charAt_run h.1), h.2, List.headD_cons]
      cases f c <;> rfl
    · rw [scanRound, run_bind_of_ok (charAt_run (Nat.le_refl _)), List.drop_length,
        List.headD_nil, hf]
      rfl
    · rw [List.length_drop]
      omega

/-- The scans of `parse_number` and `parse_tag` stop at the terminator. -/
example : isDigit 0 = false ∧ isAlnum 0 = false := by decide

/-- **Skipping reads inside the data.** The loop tests the position before it reads. -/
theorem skipTo_eq_loop (c : UInt8) (s : ResponseParser) :
    (whileParser (skipRound c)).run s = (skipTo c).run s := by
  obtain ⟨d, p, κ, r, m⟩ := s
  have hstop : ∀ q, d.length ≤ q →
      (skipRound c).run ⟨d, q, κ, r, m⟩ = .ok (false, ⟨d, q, κ, r, m⟩) := by
    intro q hq
    rw [skipRound, run_bind_of_ok (StateT.run_get _), if_neg (Nat.not_lt.mpr hq)]
    rfl
  rw [whileParser, run_bind_of_ok (StateT.run_get _), skipTo, run_bind_of_ok (StateT.run_get _)]
  rcases Nat.lt_or_ge d.length p with hp | hp
  · simp only [List.drop_eq_nil_of_le (Nat.le_of_lt hp)]
    exact repeatWhile_run_false (hstop p (Nat.le_of_lt hp))
  · refine charLoop_run (fun q a v h => ?_) (hstop _ (Nat.le_refl _)) (d.drop p) p (d.length + 2)
      ⟨hp, rfl⟩ ?_
    · have hlen := h.length_eq
      rw [List.length_cons] at hlen
      rw [skipRound, run_bind_of_ok (StateT.run_get _), if_pos (by simp only; omega),
        run_bind_of_ok (charAt_run h.1), h.2, List.headD_cons]
      by_cases ha : a = c
      · simp only [ha, ne_eq, not_true_eq_false, decide_false, if_false, Bool.false_eq_true]
        rfl
      · simp only [ne_eq, ha, not_false_eq_true, decide_true, if_true]
        rfl
    · rw [List.length_drop]
      omega

end Loops

/-! ## The end of a text -/

/-- Whether a character belongs to a text: the test of `parse_text_char`. -/
def isInText (c : UInt8) : Bool := c ≠ cr && c ≠ lf

/-- A text goes on up to a CR or LF. -/
lemma isInText_iff {c : UInt8} : isInText c = true ↔ c ≠ cr ∧ c ≠ lf := by
  simp [isInText]

/-- `parse_text_char` takes the terminator for a character of the text. -/
lemma parseTextChar_terminator (h : At d p []) :
    parseTextChar.run ⟨d, p, κ, r, m⟩ = .ok (true, ⟨d, p + 1, κ, r, m⟩) := by
  rw [parseTextChar_run h.1, h.2, List.headD_nil, if_neg (by decide)]

/-- The loop of `parse_text` without a line end ahead reads beyond the terminator.

**Proof sketch.** Induction on what is ahead, with a round for the terminator and one behind it. -/
lemma textLoop_beyond (w : Bytes) (hw : ∀ c ∈ w, c ≠ cr ∧ c ≠ lf) :
    ∀ p fuel, At d p w → w.length + 1 < fuel →
      (repeatWhile .diverges parseTextChar fuel).run ⟨d, p, κ, r, m⟩ = .error .undefined := by
  induction w with
  | nil =>
    intro p fuel h hfuel
    obtain ⟨fuel, rfl⟩ : ∃ j, fuel = j + 2 := ⟨fuel - 2, by simp at hfuel; omega⟩
    have := h.eq_length
    rw [repeatWhile_run_true (parseTextChar_terminator h)]
    exact repeatWhile_run_error (parseTextChar_run_beyond (by omega))
  | cons c w ih =>
    intro p fuel h hfuel
    rw [List.length_cons] at hfuel
    obtain ⟨fuel, rfl⟩ : ∃ j, fuel = j + 1 := ⟨fuel - 1, by omega⟩
    rw [repeatWhile_run_true (parseTextChar_at h (hw c (by simp)))]
    exact ih (fun a ha => hw a (by simp [ha])) (p + 1) fuel h.next (by omega)

/-- `parse_text` without a line end ahead. -/
lemma parseText_beyond (hw : ∀ c ∈ w, c ≠ cr ∧ c ≠ lf) (h : At d p w) :
    parseText.run ⟨d, p, κ, r, m⟩ = .error .undefined := by
  have hlen := h.length_eq
  rw [parseText, run_bind_of_ok savePos_run]
  cases w with
  | nil =>
    have := h.eq_length
    rw [run_bind_of_ok (parseTextChar_terminator h), whileParser, bind_assoc,
      run_bind_of_ok (StateT.run_get _)]
    exact run_bind_of_error (repeatWhile_run_error (parseTextChar_run_beyond (by omega)))
  | cons c w =>
    rw [List.length_cons] at hlen
    rw [run_bind_of_ok (parseTextChar_at h (hw c (by simp))), whileParser, bind_assoc,
      run_bind_of_ok (StateT.run_get _)]
    exact run_bind_of_error (textLoop_beyond w (fun a ha => hw a (by simp [ha])) _ _ h.next
      (by simp only; omega))

/-- **Where `parse_text` stops.** Either no line end is ahead and it reads beyond the terminator, or
it returns at a line end inside the data.

**Proof sketch.** What is ahead starts with the longest word of characters of a text. If nothing
follows this word, the loop goes on to the terminator; if something does, it is a line end. -/
theorem parseText_outcome (hp : p ≤ d.length) (hd : d.length < 2 ^ 31) :
    ((∀ c ∈ d.drop p, c ≠ cr ∧ c ≠ lf) ∧
        parseText.run ⟨d, p, κ, r, m⟩ = .error .undefined) ∨
      ∃ b q, parseText.run ⟨d, p, κ, r, m⟩ = .ok (b, ⟨d, q, κ, r, m⟩) ∧ p ≤ q ∧
        LineEnd (d.drop q) := by
  obtain ⟨w, v, hsplit, hchar, hv⟩ := exists_longest_prefix isInText (d.drop p)
  have hw : ∀ c ∈ w, c ≠ cr ∧ c ≠ lf := fun c hc => isInText_iff.mp (hchar c hc)
  have hat : At d p (w ++ v) := ⟨hp, hsplit⟩
  cases v with
  | nil =>
    rw [List.append_nil] at hat
    rw [hat.2]
    exact Or.inl ⟨hw, parseText_beyond hw hat⟩
  | cons c v =>
    have hc : c = cr ∨ c = lf := by
      have := hv c rfl
      by_contra hne
      rw [not_or] at hne
      rw [isInText_iff.mpr hne] at this
      cases this
    have hend : LineEnd (c :: v) := ⟨c, v, rfl, hc⟩
    have hbound := Nat.lt_of_le_of_lt hat.skip.1 hd
    refine Or.inr ?_
    by_cases hne : w = []
    · subst hne
      exact ⟨false, p, parseText_eol hat hend (Nat.lt_of_le_of_lt hp hd), Nat.le_refl _,
        by rwa [hsplit]⟩
    · exact ⟨true, p + w.length, parseText_at ⟨hne, hw⟩ hend hat hbound, Nat.le_add_right _ _,
        by rwa [hat.skip.2]⟩

/-! ## Methods that read inside the data -/

/-- What the receiver passes to the parser: a string that ends in CRLF, or at most one byte. -/
def LineData (d : Bytes) : Prop := crlf <:+ d ∨ d.length ≤ 1

/-- Inside data of the receiver and under the condition `I`, the method does not read beyond the
terminator. -/
def Safe (I : ResponseParser → Prop) (x : Parser α) : Prop :=
  ∀ s, Inside s → LineData s.data → I s → Avoids .undefined x s

/-- At least `n` bytes have been read, and `k` positions are saved. -/
def Back (n k : ℕ) (s : ResponseParser) : Prop := n ≤ s.currPos ∧ k ≤ s.posStack.length

/-- The position is behind a space that is not the first character, and `k` positions are saved. -/
def BehindSpace (k : ℕ) (s : ResponseParser) : Prop :=
  (∃ u v, s.data = u ++ byte ' ' :: v ∧ u ≠ [] ∧ s.currPos = u.length + 1) ∧ k ≤ s.posStack.length

/-- Moving forward keeps what has been read and saved. -/
lemma Keeps.back {x : Parser α} (hx : Keeps x) {s : ResponseParser} (hs : Inside s)
    (hline : LineData s.data) (hb : Back n k s) :
    Ensures x s fun _ s' => Inside s' ∧ LineData s'.data ∧ Back n k s' := by
  refine (hx s hs).mono fun a s' h => ?_
  obtain ⟨hd, hκ, hp⟩ := h
  simp only [↓reduceIte] at hp
  exact ⟨⟨hd ▸ hp.2, hd ▸ hs.2⟩, hd ▸ hline, Nat.le_trans hb.1 hp.1, hκ ▸ hb.2⟩

namespace Safe

variable {I : ResponseParser → Prop}

/-- Returning a value. -/
lemma pure (a : α) : Safe I (Pure.pure a) := fun _ _ _ _ => Avoids.pure

/-- Aborting with another fault. -/
lemma throw {f : Fault} (hf : f ≠ .undefined) : Safe I (MonadExcept.throw f : Parser α) :=
  fun _ _ _ _ => Avoids.throw hf

/-- One method after another, of which the first establishes what the second one needs. -/
lemma bind_of {J : β → ResponseParser → Prop} {x : Parser β} {y : β → Parser α} (hx : Safe I x)
    (hpost : ∀ s, Inside s → LineData s.data → I s →
      Ensures x s fun b s' => Inside s' ∧ LineData s'.data ∧ J b s')
    (hy : ∀ b, Safe (J b) (y b)) : Safe I (x >>= y) :=
  fun s hs hline hI => Avoids.bind (hx s hs hline hI) <|
    (hpost s hs hline hI).mono fun b s' h => hy b s' h.1 h.2.1 h.2.2

/-- One method after another. -/
lemma bind {x : Parser β} {y : β → Parser α} (hx : Safe (Back n k) x) (hkeeps : Keeps x)
    (hy : ∀ b, Safe (Back n k) (y b)) : Safe (Back n k) (x >>= y) :=
  bind_of hx (fun _ hs hline hb => hkeeps.back hs hline hb) hy

/-- Reading the state. -/
lemma get {y : ResponseParser → Parser α} (hy : ∀ x, Safe I (y x)) :
    Safe I (MonadState.get >>= y) := by
  intro s hs hline hI
  refine Avoids.bind nofun fun x s' h => ?_
  cases h
  exact hy s s hs hline hI

/-- A modification of other components than the data, the position and the stack. -/
lemma modify {f : ResponseParser → ResponseParser} {y : PUnit → Parser α}
    (hf : ∀ s, ((f s).data, (f s).currPos, (f s).posStack) = (s.data, s.currPos, s.posStack))
    (hy : ∀ b, Safe (Back n k) (y b)) : Safe (Back n k) (modify f >>= y) := by
  intro s hs hline hb
  refine Avoids.bind nofun fun u s' h => ?_
  cases h
  have hs' := hf s
  simp only [Prod.mk.injEq] at hs'
  obtain ⟨hd, hp, hκ⟩ := hs'
  exact hy ⟨⟩ _ ⟨by rw [hd, hp]; exact hs.1, by rw [hd]; exact hs.2⟩ (by rwa [hd])
    ⟨by rw [hp]; exact hb.1, by rw [hκ]; exact hb.2⟩

/-- A plain branch. -/
lemma ite {c : Prop} [Decidable c] {t e : Parser α} (ht : Safe I t) (he : Safe I e) :
    Safe I (if c then t else e) := by
  split
  · exact ht
  · exact he

/-- A branch on a method. -/
lemma ifM {c : Parser Bool} {t e : Parser α} (hc : Safe (Back n k) c) (htidy : Tidy id c)
    (ht : Safe (Back n k) t) (he : Safe (Back n k) e) :
    Safe (Back n k) (StateExcept.ifM c t e) :=
  bind hc htidy.keeps fun _ => ite ht he

/-- A nonterminal that saves its position. -/
lemma saved {x : Parser α} (hx : Safe (Back n (k + 1)) x) :
    Safe (Back n k) (savePos >>= fun _ => x) := by
  rintro ⟨d, p, κ, r, m⟩ hs hline hb
  exact hx ⟨d, p, wrap32 p :: κ, r, m⟩ hs hline ⟨hb.1, Nat.succ_le_succ hb.2⟩

/-- `PARSE_FAIL`. -/
lemma fail {a : α} : Safe (Back n (k + 1)) (parseFailWith a) := by
  rintro ⟨d, p, κ, r, m⟩ - - ⟨-, hκ⟩ hr
  cases κ with
  | nil => exact absurd hκ (Nat.not_succ_le_zero k)
  | cons x κ => cases hr

/-- `PARSE_SUCCESS`. -/
lemma success {a : α} : Safe (Back n (k + 1)) (parseSuccessWith a) := by
  rintro ⟨d, p, κ, r, m⟩ - - ⟨-, hκ⟩ hr
  cases κ with
  | nil => exact absurd hκ (Nat.not_succ_le_zero k)
  | cons x κ => cases hr

/-- `if (!p()) PARSE_FAIL`. -/
lemma expect {c rest : Parser Bool} (hc : Safe (Back n (k + 1)) c) (htidy : Tidy id c)
    (hr : Safe (Back n (k + 1)) rest) : Safe (Back n (k + 1)) (Imapcl.expect c rest) :=
  ifM hc htidy hr fail

/-- `if (!p(x)) PARSE_FAIL`. -/
lemma expectSome {x : Parser (Option β)} {rest : β → Parser Bool} (hx : Safe (Back n (k + 1)) x)
    (htidy : Tidy Option.isSome x) (hr : ∀ b, Safe (Back n (k + 1)) (rest b)) :
    Safe (Back n (k + 1)) (Imapcl.expectSome x rest) :=
  bind hx htidy.keeps fun o => by
    cases o with
    | none => exact fail
    | some b => exact hr b

/-- `while (body());`. -/
lemma whileParser {x : Parser Bool} (hx : Safe (Back n k) x) (hkeeps : Keeps x) :
    Safe (Back n k) (Imapcl.whileParser x) := by
  intro s hs hline hb
  refine Avoids.bind nofun fun s₁ s₂ h₁ => ?_
  cases h₁
  exact Avoids.loop (by decide) (fun s' => Inside s' ∧ LineData s'.data ∧ Back n k s')
    (fun s' h => hx s' h.1 h.2.1 h.2.2)
    (fun s' h => (hkeeps.back h.1 h.2.1 h.2.2).mono fun _ _ h' _ => h') _ s ⟨hs, hline, hb⟩

end Safe

/-! ## Elements -/

section Elements

/-- A literal match, read off the bytes ahead. -/
lemma matchStr_cases (w : Bytes) {s : ResponseParser} (hs : Inside s) :
    (w <+: s.data.drop s.currPos ∧
        (matchStr w).run s = .ok (true, { s with currPos := s.currPos + w.length })) ∨
      (matchStr w).run s = .ok (false, s) := by
  obtain ⟨d, p, κ, r, m⟩ := s
  by_cases hw : w <+: d.drop p
  · exact Or.inl ⟨hw, matchStr_run_true hs.1 hw⟩
  · exact Or.inr (matchStr_run_false hs.1 hw)

/-- A comparison with a literal reads inside the data. -/
lemma safe_matchStr (w : Bytes) : Safe (Back n k) (matchStr w) := by
  intro s hs _ _ hr
  rcases matchStr_cases w hs with ⟨-, h⟩ | h
  · cases hr.symm.trans h
  · cases hr.symm.trans h

/-- The alternative behind a literal has read it. -/
lemma safe_ifMatch {w : Bytes} {t e : Parser α} (ht : Safe (Back (n + w.length) k) t)
    (he : Safe (Back n k) e) : Safe (Back n k) (ifM (matchStr w) t e) := by
  intro s hs hline hb
  rcases matchStr_cases w hs with ⟨hw, h⟩ | h
  · rw [Avoids, ifM_run_true h]
    refine ht _ ⟨?_, hs.2⟩ hline ⟨Nat.add_le_add_right hb.1 _, hb.2⟩
    have := hw.length_le
    have := hs.1
    simp only [List.length_drop] at *
    omega
  · rw [Avoids, ifM_run_false h]
    exact he s hs hline hb

/-- What follows a literal that is required has read it. -/
lemma safe_expectMatch {a : String} {rest : Parser Bool}
    (hr : Safe (Back (n + (ascii a).length) (k + 1)) rest) :
    Safe (Back n (k + 1)) (expectMatch a rest) :=
  safe_ifMatch hr Safe.fail

/-- After a space that is not the first character, a text may follow. -/
lemma safe_space {rest : Parser Bool} (hn : 0 < n) (hr : Safe (BehindSpace (k + 1)) rest) :
    Safe (Back n (k + 1)) (expectMatch " " rest) := by
  intro s hs hline hb
  rcases matchStr_cases (ascii " ") hs with ⟨hw, h⟩ | h
  · rw [Avoids, expectMatch, expect, ifM_run_true h]
    obtain ⟨v, hv⟩ := hw
    have hdata : s.data = s.data.take s.currPos ++ byte ' ' :: v := by
      rw [show byte ' ' :: v = ascii " " ++ v from rfl, hv, List.take_append_drop]
    have hlen : (s.data.take s.currPos).length = s.currPos := by
      rw [List.length_take, Nat.min_eq_left hs.1]
    have hpos := congrArg List.length hdata
    rw [List.length_append, List.length_cons, hlen] at hpos
    refine hr _ ⟨?_, hs.2⟩ hline ⟨⟨_, v, hdata, ?_, ?_⟩, hb.2⟩
    · simp only [show (ascii " ").length = 1 from rfl]
      omega
    · rw [← List.length_pos_iff, hlen]
      exact Nat.lt_of_lt_of_le hn hb.1
    · rw [hlen]
      rfl
  · rw [Avoids, expectMatch, expect, ifM_run_false h]
    exact Safe.fail s hs hline hb

/-- A substring that would start beyond the end throws. -/
lemma safe_substr (i j : ℕ) : Safe (Back n k) (substr i j) :=
  Safe.get fun _ => Safe.ite (Safe.throw nofun) (Safe.pure _)

/-- A line end. -/
lemma safe_matchCrlf : Safe (Back n k) matchCrlf :=
  Safe.saved <| Safe.expect (safe_matchStr _) (tidy_matchStr _) Safe.success

/-- Inside the data there is a character or the terminator. -/
lemma safe_charAt : Safe (Back n k) charAt := by
  rintro ⟨d, p, κ, r, m⟩ ⟨hp, -⟩ - - hr
  rw [charAt_run hp] at hr
  cases hr

/-- A scan that starts inside the data stops at the terminator. -/
lemma safe_scanWhile (f : UInt8 → Bool) : Safe (Back n k) (scanWhile f) := by
  rintro ⟨d, p, κ, r, m⟩ ⟨hp, -⟩ - - hr
  rw [scanWhile_run hp] at hr
  cases hr

/-- The search stops at the end of the data. -/
lemma safe_skipTo (c : UInt8) : Safe (Back n k) (skipTo c) := fun _ _ _ _ => nofun

/-- The digits are scanned from inside the data. -/
lemma safe_parseNumber : Safe (Back n k) parseNumber :=
  Safe.saved <| Safe.bind (safe_scanWhile _) (keeps_scanWhile _) fun _ =>
    Safe.ite Safe.fail Safe.success

/-- The tag is scanned from inside the data. -/
lemma safe_parseTag : Safe (Back n k) parseTag :=
  Safe.bind (safe_scanWhile _) (keeps_scanWhile _) fun _ => Safe.pure _

/-- A bracketed word; an unmatched bracket throws. -/
lemma safe_parseBracketed (o c : Char) (what : String) :
    Safe (Back n (k + 1)) (parseBracketed o c what) :=
  Safe.expect (safe_matchStr _) (tidy_matchStr _) <|
    Safe.bind (safe_skipTo _) (keeps_skipTo _) fun _ => Safe.get fun _ =>
      Safe.ite (Safe.throw nofun) <| Safe.expect (safe_matchStr _) (tidy_matchStr _) Safe.success

end Elements

/-! ## Texts -/

/-- What is behind a space has been reached by reading. -/
lemma BehindSpace.back {s : ResponseParser} (h : BehindSpace k s) : Back 1 k s := by
  obtain ⟨⟨u, v, -, -, hp⟩, hκ⟩ := h
  exact ⟨by omega, hκ⟩

/-- Behind a space that is not the first character, the data of the receiver have a line end ahead:
the space is not their last character, which is a line feed. -/
lemma BehindSpace.lineEnd {s : ResponseParser} (h : BehindSpace k s) (hline : LineData s.data) :
    ¬ ∀ c ∈ s.data.drop s.currPos, c ≠ cr ∧ c ≠ lf := by
  obtain ⟨⟨u, v, hd, hu, hp⟩, -⟩ := h
  have hat : At s.data s.currPos v := by
    rw [hd, hp]
    exact (At.append_left u (byte ' ' :: v)).next
  rw [hat.2]
  intro hall
  rcases hline with ⟨w, hw⟩ | hshort
  · have hlast : (u ++ byte ' ' :: v).getLast? = some lf := by
      rw [← hd, ← hw, List.getLast?_append]
      rfl
    rw [List.getLast?_append, List.getLast?_cons] at hlast
    cases hv : v.getLast? with
    | none =>
      rw [hv] at hlast
      exact absurd (Option.some.inj hlast) (by decide)
    | some c =>
      rw [hv] at hlast
      obtain rfl : c = lf := by simpa using hlast
      exact (hall lf (List.mem_of_getLast? hv)).2 rfl
  · have := List.length_pos_iff.mpr hu
    rw [hd, List.length_append, List.length_cons] at hshort
    omega

/-- `parse_text` behind a space. -/
lemma text_parseText : Safe (BehindSpace k) parseText := by
  intro s hs hline hspace hr
  rcases parseText_outcome (κ := s.posStack) (r := s.parsedResponse) (m := s.messageContents)
    hs.1 hs.2 with ⟨hall, -⟩ | ⟨b, q, hrun, -⟩
  · exact hspace.lineEnd hline hall
  · cases hr.symm.trans hrun

/-- A method that needs the space, and others after it. -/
lemma text_expect {x rest : Parser Bool} (hx : Safe (BehindSpace (k + 1)) x) (htidy : Tidy id x)
    (hr : Safe (Back 1 (k + 1)) rest) : Safe (BehindSpace (k + 1)) (expect x rest) :=
  Safe.bind_of hx (fun _ hs hline hb => htidy.keeps.back hs hline hb.back)
    fun _ => Safe.ite hr Safe.fail

/-- The character behind an unknown code is read only inside the data. -/
lemma safe_parseRespTextCode : Safe (Back n k) parseRespTextCode :=
  Safe.saved <| Safe.ifM (safe_matchStr _) (tidy_matchStr _) Safe.success <|
    Safe.ifM (safe_matchStr _) (tidy_matchStr _)
      (safe_expectMatch <| Safe.expectSome safe_parseNumber tidy_parseNumber fun _ =>
        Safe.success) <|
    Safe.ifM
      (Safe.ifM (safe_matchStr _) (tidy_matchStr _) (Safe.pure true) (safe_matchStr _))
      ((tidy_matchStr _).orElse (tidy_matchStr _)) Safe.success <|
    Safe.bind (safe_skipTo _) (keeps_skipTo _) fun _ => Safe.get fun _ => Safe.ite
      (Safe.bind safe_charAt keeps_charAt fun _ => Safe.ite Safe.success Safe.fail)
      Safe.fail

/-- `parse_resp_text` behind a space: the text that it reads is behind this one, or behind the space
that follows the code. -/
lemma text_parseRespText : Safe (BehindSpace k) parseRespText := by
  have htext : ∀ k, Safe (BehindSpace (k + 1)) (expect parseText parseSuccess) := fun _ =>
    text_expect text_parseText tidy_parseText Safe.success
  have hcoded : Safe (Back 1 (k + 1)) (do
      discard parseRespTextCode
      expectMatch "]" <| expectMatch " " <| expect parseText parseSuccess) :=
    Safe.bind (Safe.bind safe_parseRespTextCode tidy_parseRespTextCode.keeps fun _ => Safe.pure _)
      tidy_parseRespTextCode.keeps.discard fun _ =>
      safe_expectMatch <| safe_space (Nat.succ_pos _) (htext k)
  rintro ⟨d, p, κ, r, m⟩ hs hline ⟨hspace, hκ⟩
  rw [Avoids, parseRespText, run_bind_of_ok savePos_run]
  have hspace' : BehindSpace (k + 1) ⟨d, p, wrap32 p :: κ, r, m⟩ :=
    ⟨hspace, Nat.succ_le_succ hκ⟩
  rcases matchStr_cases (s := ⟨d, p, wrap32 p :: κ, r, m⟩) (ascii "[") hs with ⟨hw, h⟩ | h
  · rw [ifM_run_true h]
    have hlen := hw.length_le
    simp only [List.length_drop, show (ascii "[").length = 1 from rfl] at hlen
    have hb := hspace'.back
    refine hcoded _ ⟨?_, hs.2⟩ hline ⟨Nat.le_add_right_of_le hb.1, hb.2⟩
    have := hb.1
    simp only [show (ascii "[").length = 1 from rfl] at *
    omega
  · rw [ifM_run_false h]
    exact htext k _ hs hline hspace'

/-- Storing a response. -/
lemma safe_setResponse (x : Response) {rest : Parser Bool} (hr : Safe (Back n k) rest) :
    Safe (Back n k) (setResponse x >>= fun _ => rest) :=
  Safe.modify (fun _ => rfl) fun _ => hr

/-- A status text is behind a space, and this behind the status word. -/
lemma safe_parseStatusText (type : ResponseType) (hn : 0 < n) :
    Safe (Back n (k + 1)) (parseStatusText type) :=
  safe_space hn <| Safe.get fun _ => text_expect text_parseRespText tidy_parseRespText <|
    Safe.get fun _ => Safe.bind (safe_substr _ _) (keeps_substr _ _) fun _ =>
      safe_setResponse _ Safe.success

/-- The text of a BYE is behind the three characters of the word. -/
lemma safe_parseRespCondBye : Safe (Back n k) parseRespCondBye :=
  Safe.saved <| safe_expectMatch <| safe_parseStatusText .bye (Nat.add_pos_right _ (by decide))

/-- The text of a status is behind the characters of its word. -/
lemma safe_parseRespCondState : Safe (Back n k) parseRespCondState :=
  Safe.saved <|
    safe_ifMatch (safe_parseStatusText .ok (Nat.add_pos_right _ (by decide))) <|
    safe_ifMatch (safe_parseStatusText .no (Nat.add_pos_right _ (by decide))) <|
    safe_ifMatch (safe_parseStatusText .bad (Nat.add_pos_right _ (by decide))) Safe.fail

/-! ## Tags of responses -/

/-- At least `n` bytes have been read, `k` positions are saved, and a response is stored. -/
def Filled (n k : ℕ) (s : ResponseParser) : Prop := Back n k s ∧ Stored s

/-- An alternative behind a method that stores a response. -/
lemma safe_ifStored {c : Parser Bool} {t e : Parser α} (hc : Safe (Back n k) c)
    (htidy : Tidy id c) (hstored : Succeeds c Stored) (ht : Safe (Filled n k) t)
    (he : Safe (Back n k) e) : Safe (Back n k) (ifM c t e) := by
  refine Safe.bind_of (J := fun b s => Back n k s ∧ (b = true → Stored s)) hc ?_ fun b => ?_
  · intro s hs hline hb a s' hr
    obtain ⟨hs', hline', hb'⟩ := htidy.keeps.back hs hline hb a s' hr
    exact ⟨hs', hline', hb', hstored s a s' hr⟩
  · cases b with
    | true => exact fun s hs hline h => ht s hs hline ⟨h.1, h.2 rfl⟩
    | false => exact fun s hs hline h => he s hs hline h.1

/-- `set_tag` on a response that is stored. -/
lemma safe_setResponseTag (tag : Bytes) {rest : Parser Bool} (hr : Safe (Back n k) rest) :
    Safe (Filled n k) (setResponseTag tag >>= fun _ => rest) := by
  refine Safe.bind_of (J := fun _ => Back n k) ?_
    (fun s hs hline h => (keeps_setResponseTag tag).back hs hline h.1) fun _ => hr
  rintro ⟨d, p, κ, r, m⟩ - - ⟨-, hstored⟩ h
  cases r with
  | none => exact hstored rfl
  | some x =>
    rw [setResponseTag, run_bind_of_ok (StateT.run_get _)] at h
    cases hx : x.setTag tag <;> simp only [hx] at h <;> cases h

/-- The CRLF of a response that is stored. -/
lemma filled_expectCrlf {rest : Parser Bool} (hr : Safe (Filled n (k + 1)) rest) :
    Safe (Filled n (k + 1)) (expect matchCrlf rest) := by
  refine Safe.bind_of (J := fun _ => Filled n (k + 1))
    (fun s hs hline h => safe_matchCrlf s hs hline h.1) ?_
    fun _ => Safe.ite hr fun s hs hline h => Safe.fail s hs hline h.1
  intro s hs hline h a s' hr
  obtain ⟨hs', hline', hb'⟩ := tidy_matchCrlf.keeps.back hs hline h.1 a s' hr
  refine ⟨hs', hline', hb', ?_⟩
  rw [Stored, frames_matchCrlf s a s' hr]
  exact h.2

/-- `parse_resp_cond_state` stores a response. -/
lemma stored_parseRespCondState : Succeeds parseRespCondState Stored :=
  succeeds_parseRespCondState.mono fun s h => by
    obtain ⟨type, ⟨text, htext⟩, -⟩ := h
    simp [Stored, htext]

/-- `parse_resp_cond_bye` stores a response. -/
lemma stored_parseRespCondBye : Succeeds parseRespCondBye Stored :=
  succeeds_parseRespCondBye.mono fun s h => by
    obtain ⟨⟨text, htext⟩, -⟩ := h
    simp [Stored, htext]

/-- The tag is set only on a response that the status has stored. -/
lemma safe_parseResponseTagged : Safe (Back n k) parseResponseTagged :=
  Safe.saved <| Safe.get fun _ => Safe.expect safe_parseTag tidy_parseTag <|
    Safe.get fun _ => Safe.bind (safe_substr _ _) (keeps_substr _ _) fun _ =>
      safe_expectMatch <| safe_ifStored safe_parseRespCondState tidy_parseRespCondState
        stored_parseRespCondState
        (filled_expectCrlf <| safe_setResponseTag _ Safe.success) Safe.fail

/-- A BYE that ends the connection. -/
lemma safe_parseResponseFatal : Safe (Back n k) parseResponseFatal :=
  Safe.saved <| safe_expectMatch <| safe_expectMatch <|
    Safe.expect safe_parseRespCondBye tidy_parseRespCondBye Safe.success

/-- A tagged response or a BYE. -/
lemma safe_parseResponseDone : Safe (Back n k) parseResponseDone :=
  Safe.saved <| Safe.ifM safe_parseResponseTagged tidy_parseResponseTagged Safe.success <|
    Safe.ifM safe_parseResponseFatal tidy_parseResponseFatal Safe.success Safe.fail

/-- The text is behind the plus and a space. -/
lemma safe_parseContinueReq : Safe (Back n k) parseContinueReq :=
  Safe.saved <| safe_expectMatch <| safe_space (Nat.add_pos_right _ (by decide)) <|
    text_expect text_parseRespText tidy_parseRespText <|
    Safe.expect safe_matchCrlf tidy_matchCrlf Safe.success

/-! ## Mailbox data -/

/-- A list of flags. -/
lemma safe_parseFlagList : Safe (Back n k) parseFlagList := Safe.saved (safe_parseBracketed _ _ _)

/-- The loop of `parse_message_id_list`, by induction on the fuel. -/
lemma safe_messageIdLoop (fuel : ℕ) :
    ∀ numbers, Safe (Back n (k + 1)) (messageIdLoop fuel numbers) := by
  induction fuel with
  | zero => exact fun _ => Safe.throw (by decide)
  | succ fuel ih =>
    intro numbers
    refine Safe.ifM (safe_matchStr _) (tidy_matchStr _) ?_ Safe.success
    refine Safe.bind safe_parseNumber tidy_parseNumber.keeps fun number => ?_
    cases number with
    | none => exact Safe.fail
    | some number => exact ih _

/-- A list of numbers. -/
lemma safe_parseMessageIdList : Safe (Back n k) parseMessageIdList :=
  Safe.saved <| Safe.get fun _ => safe_messageIdLoop _ _

/-- `parse_mailbox` scans for a tag from where it starts, and throws. -/
lemma safe_parseMailbox : Safe (Back n k) parseMailbox := by
  have hinbox : ∀ s, Inside s → (∃ s', regexMatchInbox.run s = .ok (true, s')) ∨
      regexMatchInbox.run s = .ok (false, s) := by
    rintro ⟨d, p, κ, r, m⟩ hs
    rw [regexMatchInbox, run_bind_of_ok (StateT.run_get _), run_bind_of_ok (substr_run hs.1)]
    split
    · exact Or.inl ⟨_, rfl⟩
    · exact Or.inr rfl
  intro s hs hline hb
  have hmailbox : Avoids .undefined (ifM regexMatchInbox (pure true) parseTag) s := by
    rcases hinbox s hs with ⟨s', h⟩ | h
    · rw [Avoids, ifM_run_true h]
      exact Avoids.pure
    · rw [Avoids, ifM_run_false h]
      exact safe_parseTag s hs hline hb
  exact Avoids.bind (Avoids.bind hmailbox fun _ _ _ => Avoids.pure)
    fun _ _ _ => Avoids.throw fun h => by cases h

/-- The data of a mailbox. -/
lemma safe_parseMailboxData : Safe (Back n k) parseMailboxData :=
  Safe.saved <|
    Safe.ifM (safe_matchStr _) (tidy_matchStr _)
      (safe_expectMatch <| Safe.expect safe_parseFlagList tidy_parseFlagList <|
        safe_setResponse _ Safe.success) <|
    Safe.ifM (safe_matchStr _) (tidy_matchStr _)
      (safe_expectMatch <| Safe.expect (Safe.pure _) (tidy_pure id _) Safe.success) <|
    Safe.ifM (safe_matchStr _) (tidy_matchStr _)
      (safe_expectMatch <| Safe.expect (Safe.pure _) (tidy_pure id _) Safe.success) <|
    Safe.ifM (safe_matchStr _) (tidy_matchStr _)
      (Safe.expectSome safe_parseMessageIdList tidy_parseMessageIdList fun _ =>
        safe_setResponse _ Safe.success) <|
    Safe.ifM (safe_matchStr _) (tidy_matchStr _)
      (safe_expectMatch <| Safe.expect safe_parseMailbox tidy_parseMailbox <|
        safe_expectMatch <| safe_expectMatch <| Safe.throw nofun) <|
    Safe.expectSome safe_parseNumber tidy_parseNumber fun _ => safe_expectMatch <|
      Safe.ifM (safe_matchStr _) (tidy_matchStr _) (safe_setResponse _ Safe.success) <|
      Safe.ifM (safe_matchStr _) (tidy_matchStr _) (safe_setResponse _ Safe.success) Safe.fail

/-! ## Message data -/

/-- The flags of a message. -/
lemma safe_parseMsgAttDynamic : Safe (Back n k) parseMsgAttDynamic :=
  Safe.saved <| safe_expectMatch <| safe_expectMatch <| safe_parseBracketed _ _ _

/-- A section. -/
lemma safe_parseSection : Safe (Back n k) parseSection := Safe.saved (safe_parseBracketed _ _ _)

/-- The length that `parse_number` stores is an `int`. -/
lemma parseNumber_inInt32 (s : ResponseParser) :
    Ensures parseNumber s fun number _ => InInt32 (number.getD 0) := by
  have hfold : ∀ (ds : Bytes) (x : ℤ), InInt32 x → InInt32 (ds.foldl accumulate x) := by
    intro ds
    induction ds with
    | nil => exact fun _ h => h
    | cons c ds ih => exact fun x _ => ih _ (inInt32_wrap32 _)
  have hzero : InInt32 0 := by decide
  refine Ensures.bind fun _ s₁ _ => Ensures.bind fun ds s₂ _ => ?_
  show Ensures (if ds = [] then _ else _) s₂ _
  split
  · exact Ensures.bind fun _ _ _ => Ensures.pure hzero
  · exact Ensures.bind fun _ _ _ => Ensures.pure (hfold ds 0 hzero)

/-- The body of a literal that is not too long. A length that has wrapped to a negative number
throws before the next character is read.

**Proof sketch.** The bytes that are copied, and the next character, are inside the data. -/
lemma safe_readLiteralUpTo {length : ℤ} (hlength : InInt32 length) :
    Safe (Back n (k + 1)) (readLiteralUpTo length) := by
  rintro ⟨d, p, κ, r, m⟩ ⟨hp, hd⟩ - ⟨-, hκ⟩
  obtain ⟨hlow, hhigh⟩ := hlength
  simp only at hp hd hκ
  intro hr
  rw [readLiteralUpTo, run_bind_of_ok (StateT.run_get _)] at hr
  by_cases hlong : d.length < p + length.toNat
  · rw [if_pos hlong] at hr
    cases hr
  rw [if_neg hlong, readLiteral, run_bind_of_ok (StateT.run_get _),
    if_neg (by simp only; omega), run_bind_of_ok (StateT.run_set _ _)] at hr
  have hcopied : ((d.drop p ++ [0]).take length.toNat).length = length.toNat := by
    rw [List.length_take, List.length_append, List.length_drop]
    omega
  split at hr
  · cases hr
  · rename_i hall
    simp only [hcopied, toSizeT] at hall
    have hin : toSizeT (p + length) ≤ d.length := by
      rw [toSizeT]
      omega
    rw [run_bind_of_ok (charAt_run hin)] at hr
    split at hr
    · cases hr
    · cases κ with
      | nil => exact absurd hκ (Nat.not_succ_le_zero k)
      | cons x κ => cases hr

/-- `parse_literal` behind its opening brace. -/
lemma safe_literalTail : Safe (Back n (k + 1)) (parseNumber >>= fun number =>
    expectMatch "\x7d" <| expect matchCrlf <| readLiteralUpTo (number.getD 0)) := by
  refine Safe.bind_of (J := fun number s => Back n (k + 1) s ∧ InInt32 (number.getD 0))
    safe_parseNumber (fun s hs hline hb number s' h => ?_) fun number s hs hline h => ?_
  · obtain ⟨hs', hline', hb'⟩ := tidy_parseNumber.keeps.back hs hline hb number s' h
    exact ⟨hs', hline', hb', parseNumber_inInt32 s number s' h⟩
  · have htail : Safe (Back n (k + 1)) (expectMatch "\x7d" <| expect matchCrlf <|
        readLiteralUpTo (number.getD 0)) :=
      safe_expectMatch <| Safe.expect safe_matchCrlf tidy_matchCrlf (safe_readLiteralUpTo h.2)
    exact htail s hs hline h.1

/-- A literal that fits is copied from inside the data. -/
lemma safe_parseLiteralUpTo : Safe (Back n k) parseLiteralUpTo :=
  Safe.saved <| safe_expectMatch safe_literalTail

section With

variable {literal : Parser Bool} (hcut : CutsOff .diverges literal parseLiteral)
  (hlit : ∀ n k, Safe (Back n k) literal)

include hcut hlit

/-- A string. -/
lemma safe_parseString : Safe (Back n k) (parseString literal) :=
  Safe.saved <| Safe.expect (hlit _ _) (tidy_of_cutsOff hcut tidy_parseLiteral) Safe.success

/-- A string or `NIL`. -/
lemma safe_parseNstring : Safe (Back n k) (parseNstring literal) :=
  have htidy := tidy_of_cutsOff (cutsOff_parseString hcut) tidy_parseString
  Safe.saved <| Safe.ifM (safe_matchStr _) (tidy_matchStr _)
    (Safe.modify (fun _ => rfl) fun _ => Safe.fail)
    (Safe.expect (safe_parseString hcut hlit) htidy Safe.success)

/-- An attribute other than the flags. -/
lemma safe_parseMsgAttStatic : Safe (Back n k) (parseMsgAttStatic literal) :=
  have htidy := tidy_of_cutsOff (cutsOff_parseNstring hcut) tidy_parseNstring
  Safe.saved <|
    Safe.ifM (safe_matchStr _) (tidy_matchStr _) (Safe.throw nofun) <|
    Safe.ifM (safe_matchStr _) (tidy_matchStr _) (Safe.throw nofun) <|
    Safe.ifM (safe_matchStr _) (tidy_matchStr _) (Safe.throw nofun) <|
    Safe.ifM (safe_matchStr _) (tidy_matchStr _) (Safe.throw nofun) <|
    Safe.ifM (safe_matchStr _) (tidy_matchStr _)
      (Safe.ifM (safe_matchStr _) (tidy_matchStr _) (Safe.throw nofun) <|
        Safe.ifM (safe_matchStr _) (tidy_matchStr _) (Safe.throw nofun) <|
        Safe.ifM safe_parseSection tidy_parseSection
          (Safe.ifM (safe_matchStr _) (tidy_matchStr _) (Safe.throw nofun) <|
            safe_expectMatch <| Safe.expect (safe_parseNstring hcut hlit) htidy Safe.success)
          Safe.fail) <|
    Safe.ifM (safe_matchStr _) (tidy_matchStr _)
      (safe_expectMatch <| Safe.expectSome safe_parseNumber tidy_parseNumber fun _ =>
        Safe.success)
      Safe.fail

/-- One attribute. -/
lemma safe_parseMsgAttItem : Safe (Back n k) (parseMsgAttItem literal) :=
  Safe.ifM safe_parseMsgAttDynamic tidy_parseMsgAttDynamic (Safe.pure true)
    (safe_parseMsgAttStatic hcut hlit)

/-- A list of attributes. -/
lemma safe_parseMsgAtt : Safe (Back n k) (parseMsgAtt literal) :=
  have hitem := safe_parseMsgAttItem hcut hlit
  have htidy := tidy_of_cutsOff (cutsOff_parseMsgAttItem hcut) tidy_parseMsgAttItem
  have hround : Keeps (ifM (matchStr (ascii " ")) (parseMsgAttItem literal) (pure false)) :=
    (tidy_matchStr _).keeps.bind fun b => by
      cases b with
      | true => exact htidy.keeps
      | false => exact (tidy_pure id false).keeps
  Safe.saved <| safe_expectMatch <| Safe.expect hitem htidy <|
    Safe.bind
      (Safe.whileParser (Safe.ifM (safe_matchStr _) (tidy_matchStr _) hitem (Safe.pure false))
        hround)
      hround.whileParser fun _ => safe_expectMatch Safe.success

/-- The data of a message. -/
lemma safe_parseMessageData : Safe (Back n k) (parseMessageData literal) :=
  have htidy := tidy_of_cutsOff (cutsOff_parseMsgAtt hcut) tidy_parseMsgAtt
  Safe.saved <| Safe.expectSome safe_parseNumber tidy_parseNumber fun _ => safe_expectMatch <|
    Safe.ifM (safe_matchStr _) (tidy_matchStr _) (Safe.throw nofun) <|
    Safe.ifM (safe_matchStr _) (tidy_matchStr _)
      (Safe.modify (fun _ => rfl) fun _ => safe_expectMatch <|
        Safe.expect (safe_parseMsgAtt hcut hlit) htidy <| Safe.get fun _ =>
          safe_setResponse _ Safe.success)
      Safe.fail

/-! ## Responses -/

/-- Where a status is stored, it gets its tag. -/
lemma safe_parseResponseData : Safe (Back n k) (parseResponseData literal) :=
  have htidy := tidy_of_cutsOff (cutsOff_parseMessageData hcut) tidy_parseMessageData
  have hcrlf : ∀ n, Safe (Back n (k + 1)) (expect matchCrlf parseSuccess) := fun _ =>
    Safe.expect safe_matchCrlf tidy_matchCrlf Safe.success
  Safe.saved <| safe_expectMatch <| safe_expectMatch <|
    safe_ifStored safe_parseRespCondState tidy_parseRespCondState stored_parseRespCondState
      (safe_setResponseTag _ (hcrlf _)) <|
    safe_ifStored safe_parseRespCondBye tidy_parseRespCondBye stored_parseRespCondBye
      (safe_setResponseTag _ (hcrlf _)) <|
    Safe.ifM safe_parseMailboxData tidy_parseMailboxData (hcrlf _) <|
    Safe.ifM (safe_parseMessageData hcut hlit) htidy (hcrlf _) Safe.fail

/-- A response. -/
lemma safe_parseResponse : Safe (Back n k) (parseResponse literal) :=
  have htidy := tidy_of_cutsOff (cutsOff_parseResponseData hcut) tidy_parseResponseData
  Safe.saved <| Safe.ifM safe_parseContinueReq tidy_parseContinueReq Safe.success <|
    Safe.ifM (safe_parseResponseData hcut hlit) htidy Safe.success <|
    Safe.ifM safe_parseResponseDone tidy_parseResponseDone Safe.success Safe.fail

omit hcut hlit in
/-- The text of a greeting is behind the space after its status word. -/
lemma safe_parseGreeting : Safe (Back n k) parseGreeting := by
  have hrest : ∀ (n k : ℕ) (type : ResponseType), 0 < n →
      Safe (Back n (k + 1)) (expectMatch " " <| expect parseRespText do
        setResponse (.status type [] [])
        parseSuccess) := fun n k type hn =>
    safe_space hn <| text_expect text_parseRespText tidy_parseRespText <|
      safe_setResponse _ Safe.success
  have hauth : ∀ n k, Safe (Back n k) parseRespCondAuth := fun n k =>
    Safe.saved <|
      safe_ifMatch (hrest _ _ .ok (Nat.add_pos_right _ (by decide))) <|
      safe_ifMatch (hrest _ _ .preauth (Nat.add_pos_right _ (by decide))) Safe.fail
  exact Safe.saved <| safe_expectMatch <| safe_expectMatch <|
    Safe.expect (hauth _ _) tidy_parseRespCondAuth Safe.success

/-- `parse_next` around a parser of literals that reads inside the data. -/
lemma safe_parseNext : Safe (Back n k) (parseNext literal) :=
  have htidy := tidy_of_cutsOff (cutsOff_parseResponse hcut) tidy_parseResponse
  Safe.get fun _ => Safe.ite (Safe.pure false) <|
    Safe.ifM (safe_parseResponse hcut hlit) htidy (Safe.pure true) <|
    Safe.ifM safe_parseGreeting tidy_parseGreeting (Safe.pure true) (Safe.throw nofun)

end With

/-- **A call reads inside the data.** On data of the receiver, a call of `parse_next` reads beyond
the terminator only at a literal that is too long or after it.

**Proof sketch.** Each method is built from others by the rules of `Safe`. A text is read behind a
space only, and a tag is set only where a response has been stored. -/
theorem safe_parseNextUpTo : Safe (fun _ => True) parseNextUpTo := fun s hs hline _ =>
  safe_parseNext cutsOff_parseLiteralUpTo (fun _ _ => safe_parseLiteralUpTo) s hs hline
    (⟨Nat.zero_le _, Nat.zero_le _⟩ : Back 0 0 s)

/-! ## The main result -/

/-- The states in which a caller calls `parse_next` on the buffer `data`, whatever pointer it
passes, and whatever the calls before have answered. -/
inductive Called (data : Bytes) : ResponseParser → Prop where
  | start (r : Option Response) :
      Called data { ResponseParser.ofData data with parsedResponse := r }
  | next {s s' : ResponseParser} {b : Bool} (h : Called data s)
      (hrun : parseNext.run s = .ok (b, s')) (r : Option Response) :
      Called data { s' with parsedResponse := r }

/-- A sequence of calls stays inside data shorter than `2 ^ 31`. -/
lemma Called.inside {data : Bytes} {s : ResponseParser} (hd : data.length < 2 ^ 31)
    (h : Called data s) : s.data = data ∧ s.currPos ≤ data.length := by
  induction h with
  | start r => exact ⟨rfl, Nat.zero_le _⟩
  | next _ hrun r ih =>
    obtain ⟨rfl, hp⟩ := ih
    obtain ⟨hd', -, hp'⟩ := tidy_parseNext.keeps _ ⟨hp, hd⟩ _ _ hrun
    simp only [↓reduceIte] at hp'
    exact ⟨hd', hp'.2⟩

/-- Up to a literal that is too long, the call is one of `parse_next` and does not read beyond the
terminator. -/
def ScansInside (s : ResponseParser) : Prop :=
  (parseNextUpTo.run s = .error .diverges ∨ parseNextUpTo.run s = parseNext.run s) ∧
    parseNextUpTo.run s ≠ .error .undefined

/-- If `parse_text` does not read beyond the terminator, it stops at a line end inside the data. -/
def TextStops (s : ResponseParser) : Prop :=
  parseText.run s ≠ .error .undefined → ∃ b s', parseText.run s = .ok (b, s') ∧
    s'.data = s.data ∧ s.currPos ≤ s'.currPos ∧ LineEnd (s.data.drop s'.currPos)

/-- **Scans stay in bounds.** On data of the receiver shorter than `2 ^ 31`, every call of
`parse_next` starts inside the data and, up to a literal that is too long, reads nothing beyond the
terminator; and a `parse_text` that reads nothing beyond it stops at a CR or LF inside the data.

**Proof sketch.** A call leaves the position inside the data (`tidy_parseNext`), so the next one
reads inside the data as well (`safe_parseNextUpTo`). Reading beyond the terminator is the only way
in which `parse_text` can miss a line end (`parseText_outcome`). -/
theorem scans_in_bounds (data : Bytes) (hline : LineData data) (hlen : data.length < 2 ^ 31) :
    (∀ s, Called data s → s.data = data ∧ s.currPos ≤ data.length ∧ ScansInside s) ∧
      ∀ s, s.data = data → s.currPos ≤ data.length → TextStops s := by
  refine ⟨fun s h => ?_, fun s hd hp => ?_⟩
  · obtain ⟨rfl, hp⟩ := h.inside hlen
    exact ⟨rfl, hp, cutsOff_parseNextUpTo s, safe_parseNextUpTo s ⟨hp, hlen⟩ hline trivial⟩
  · obtain ⟨d, p, κ, r, m⟩ := s
    obtain rfl : d = data := hd
    intro hdefined
    rcases parseText_outcome (κ := κ) (r := r) (m := m) hp hlen with ⟨-, hrun⟩ | ⟨b, q, hrun, hq⟩
    · exact absurd hrun hdefined
    · exact ⟨b, _, hrun, rfl, hq⟩

/-- The status of a SELECT. -/
theorem scans_in_bounds_select :
    ScansInside (.ofData (ascii "2 OK [READ-WRITE] done\r\n")) ∧
      TextStops (.ofData (ascii "2 OK [READ-WRITE] done\r\n")) :=
  have hline : LineData (ascii "2 OK [READ-WRITE] done\r\n") :=
    Or.inl ⟨ascii "2 OK [READ-WRITE] done", rfl⟩
  have h := scans_in_bounds (ascii "2 OK [READ-WRITE] done\r\n") hline (by decide +kernel)
  ⟨(h.1 _ (.start none)).2.2, h.2 _ rfl (Nat.zero_le _)⟩

/-! ## Positions from `2 ^ 31` on -/

/-- `parse_text` at a line end behind `2 ^ 31`: the position that `parse_text_char` restores is
beyond the data, and the next character is read there. -/
lemma parseText_wraps (hv : LineEnd v) (h : At d p v) (hp : 2 ^ 31 ≤ p) (hp' : p < 2 ^ 32)
    (hlen : d.length < 2 ^ 63) : parseText.run ⟨d, p, κ, r, m⟩ = .error .undefined := by
  have hbeyond : d.length < toSizeT (wrap32 p) :=
    Nat.lt_of_lt_of_le hlen (le_toSizeT_wrap32 hp hp')
  obtain ⟨c, v, rfl, hc⟩ := hv
  rw [parseText, run_bind_of_ok savePos_run, run_bind_of_ok (parseTextChar_restores h hc),
    whileParser, bind_assoc, run_bind_of_ok (StateT.run_get _)]
  exact run_bind_of_error (repeatWhile_run_error (parseTextChar_run_beyond hbeyond))

/-- A continuation request without a text behind `2 ^ 31`. -/
lemma parseNextUpTo_wraps (h : At d p (ascii "+ \r\n")) (hp : 2 ^ 31 ≤ p) (hp' : p + 2 < 2 ^ 32)
    (hlen : d.length < 2 ^ 63) : parseNextUpTo.run ⟨d, p, κ, r, m⟩ = .error .undefined := by
  have hplus : At d p (ascii "+" ++ (ascii " " ++ crlf)) := h
  have hend : At d (p + 2) crlf := hplus.skip.skip
  have htext : ∀ κ, parseText.run ⟨d, p + 2, κ, r, m⟩ = .error .undefined := fun κ =>
    parseText_wraps (lineEnd_crlf []) hend (by omega) hp' hlen
  have hlt : p < d.length := by
    have := hplus.length_eq
    have : (ascii "+" ++ (ascii " " ++ crlf)).length = 4 := rfl
    omega
  have hrespText : ∀ κ, parseRespText.run ⟨d, p + 2, κ, r, m⟩ = .error .undefined := by
    intro κ
    rw [parseRespText, run_bind_of_ok savePos_run,
      ifM_run_false (matchStr_not hend (by decide)), expect, ifM_run_error (htext _)]
  rw [parseNextUpTo, parseNext, run_bind_of_ok (StateT.run_get _),
    if_neg (Nat.not_le.mpr hlt), ifM_run_error]
  rw [parseResponse, run_bind_of_ok savePos_run, ifM_run_error]
  rw [parseContinueReq, run_bind_of_ok savePos_run, expectMatch_at hplus,
    expectMatch_at hplus.skip, expect]
  exact ifM_run_error (hrespText _)

/-- A caller gets through a stream of responses.

**Proof sketch.** Induction on the responses. -/
lemma called_stream (xs : List WireResponse) :
    ∀ p m, Called d ⟨d, p, [], none, m⟩ → At d p (Stream.wire xs ++ v) →
      p + (Stream.wire xs).length ≤ 2 ^ 31 →
        ∃ m', Called d ⟨d, p + (Stream.wire xs).length, [], none, m'⟩ := by
  induction xs with
  | nil => exact fun p m h _ _ => ⟨m, h⟩
  | cons x xs ih =>
    intro p m h hat hp
    rw [Stream.wire, List.flatMap_cons] at hat hp ⊢
    rw [List.length_append, ← Nat.add_assoc] at hp ⊢
    have hline : p + x.line.length < 2 ^ 31 := by
      rw [WireResponse.wire, List.length_append, show crlf.length = 2 from rfl] at hp
      omega
    obtain ⟨m₁, hnext⟩ := parseNext_at (κ := []) (r := none) (m := m) x hat.assoc hline
    exact ih (p + x.wire.length) m₁ (.next h hnext none) hat.assoc.skip hp

/-- Responses of `2 ^ 31` bytes. -/
def existsLines : List WireResponse := List.replicate (2 ^ 27) (.exists ⟨10000, by decide⟩)

/-- Each line has 16 bytes. -/
lemma length_existsLines : (Stream.wire existsLines).length = 2 ^ 31 := by
  have hline : (WireResponse.exists ⟨10000, by decide⟩).wire.length = 16 := by decide +kernel
  rw [Stream.wire, List.length_flatMap, existsLines, List.map_replicate, hline,
    List.sum_replicate_nat]
  rfl

/-- **Scans do not stay in bounds in general.** After `2 ^ 31` bytes of responses, on data that end
in CRLF and contain no literal, `parse_text` reads beyond the terminator.

**Proof sketch.** At the CR behind a continuation request, `parse_text_char` goes back to the
position it has saved, which has become a negative `int` and is beyond all data as a `size_t`. The
next round of the loop reads there. -/
theorem scan_out_of_bounds : LineData (Stream.wire existsLines ++ ascii "+ \r\n") ∧
    byte '\x7b' ∉ Stream.wire existsLines ++ ascii "+ \r\n" ∧
    ∃ s, Called (Stream.wire existsLines ++ ascii "+ \r\n") s ∧
      parseNext.run s = .error .undefined ∧ ¬ ScansInside s := by
  have hbrace : byte '\x7b' ∉ Stream.wire existsLines := by
    intro hmem
    obtain ⟨x, hx, hmem⟩ := List.mem_flatMap.mp hmem
    rw [List.eq_of_mem_replicate hx] at hmem
    exact absurd hmem (by decide +kernel)
  have hlines := length_existsLines
  -- the responses are not to be written out
  generalize existsLines = xs at hbrace hlines ⊢
  have hlen : (Stream.wire xs ++ ascii "+ \r\n").length < 2 ^ 63 := by
    rw [List.length_append, hlines]
    decide
  refine ⟨Or.inl ⟨Stream.wire xs ++ ascii "+ ", ?_⟩, ?_, ?_⟩
  · rw [List.append_assoc]
    rfl
  · rw [List.mem_append, not_or]
    exact ⟨hbrace, by decide⟩
  · obtain ⟨m, hcalled⟩ := called_stream (v := ascii "+ \r\n") xs 0 [] (.start none)
      (At.start _) (by omega)
    have hcut := parseNextUpTo_wraps (κ := []) (r := none) (m := m)
      (At.append_left (Stream.wire xs) (ascii "+ \r\n")) (by omega) (by omega) hlen
    rw [Nat.zero_add] at hcalled
    refine ⟨_, hcalled, ?_, fun h => h.2 hcut⟩
    rcases cutsOff_parseNextUpTo _ with h | h
    · cases hcut.symm.trans h
    · exact h.symm.trans hcut

end Imapcl
