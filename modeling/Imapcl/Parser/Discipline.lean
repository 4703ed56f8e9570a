import Imapcl.Parser.Grammar

set_option relaxedAutoImplicit false
set_option autoImplicit false

/-!
# The backtracking discipline

Every nonterminal saves its start position by hand and has to undo this on each of its exits. This
file proves that all of them do: on success the position stack is back to what it was and the
position has not decreased, on failure both are exactly what they were.

## Main definitions

* `Imapcl.Tidy` — a method that leaves the stack alone and, on failure, the position too.
* `Imapcl.Body` — the same for the rest of a method whose start position is on the stack.
* `Imapcl.Nonterminal` — the methods reachable from `parse_next`.

## Main results

* `Imapcl.Body.tidy`, `Imapcl.Body.ifM`, `Imapcl.Body.keeps` — the rules, one for each way in
  which the source builds a method.
* `Imapcl.backtracking_discipline` — every nonterminal is tidy, and `parse_next` ends with the
  stack it started with.

## Design

The data is shorter than `2 ^ 31`, since positions are stacked as `int`. The rules carry the bound
`curr_pos ≤ data.size()` along, which makes each saved position restorable; only
`parse_text_char` can step past it, and its loop in `parse_text` then reads outside the data.
-/

namespace Imapcl

open StateExcept

/-! ## Specifications -/

/-- The position is inside the data, and the data is short enough for `int` positions. -/
def Inside (s : ResponseParser) : Prop := s.currPos ≤ s.data.length ∧ s.data.length < 2 ^ 31

/-- The exit of a method entered with data `d`, position `q` and stack `κ`. -/
def Exit (d : Bytes) (q : ℕ) (κ : List ℤ) (success : Bool) (s : ResponseParser) : Prop :=
  s.data = d ∧ s.posStack = κ ∧
    if success then q ≤ s.currPos ∧ s.currPos ≤ d.length else s.currPos = q

/-- A method that undoes what it does to the position stack, and on failure to the position;
`ok` reads its verdict off its result. -/
def Tidy {α : Type} (ok : α → Bool) (p : Parser α) : Prop :=
  ∀ s, Inside s → Ensures p s fun a s' => Exit s.data s.currPos s.posStack (ok a) s'

/-- An action that leaves the position stack alone and moves forward inside the data. -/
def Keeps {α : Type} (p : Parser α) : Prop :=
  ∀ s, Inside s → Ensures p s fun _ s' => Exit s.data s.currPos s.posStack true s'

/-- The rest of a method that was entered with data `d`, position `q` and stack `κ`, and has
saved its position. -/
def Body {α : Type} (ok : α → Bool) (d : Bytes) (q : ℕ) (κ : List ℤ) (p : Parser α) : Prop :=
  ∀ s, Inside s → Exit d q (wrap32 q :: κ) true s → Ensures p s fun a s' => Exit d q κ (ok a) s'

variable {α β : Type} {ok : α → Bool} {d : Bytes} {q : ℕ} {κ : List ℤ}

/-- A tidy method moves forward inside the data. -/
lemma Tidy.keeps {p : Parser α} (h : Tidy ok p) : Keeps p := by
  intro s hs
  refine (h s hs).mono fun a s' hx => ?_
  obtain ⟨hd, hst, hx⟩ := hx
  refine ⟨hd, hst, ?_⟩
  cases hok : ok a with
  | true => simpa [hok] using hx
  | false =>
    have hp : s'.currPos = s.currPos := by simpa [hok] using hx
    simpa [hp] using hs.1

/-- A tidy method that has failed has changed at most the out-parameters. -/
lemma Tidy.failed {x : Parser Bool} {p : ℕ} {r : Option Response} {m : Bytes} {s' : ResponseParser}
    (h : Tidy id x) (hp : p ≤ d.length) (hd : d.length < 2 ^ 31)
    (hrun : x.run ⟨d, p, κ, r, m⟩ = .ok (false, s')) : ∃ r' m', s' = ⟨d, p, κ, r', m'⟩ := by
  obtain ⟨d', p', κ', r', m'⟩ := s'
  obtain ⟨hd', hκ', hp'⟩ := h ⟨d, p, κ, r, m⟩ ⟨hp, hd⟩ false _ hrun
  simp only [id, Bool.false_eq_true, if_false] at hd' hκ' hp'
  exact ⟨r', m', by rw [hd', hκ', hp']⟩

/-! ## Rules for bodies -/

namespace Body

/-- `PARSE_SUCCESS`. -/
lemma success {a : α} (ha : ok a = true) : Body ok d q κ (parseSuccessWith a) := by
  rintro ⟨d', p, κ', r, m⟩ hs ⟨rfl, rfl, hx⟩
  rintro a' s' hr
  rw [parseSuccessWith_run] at hr
  cases hr
  exact ⟨rfl, rfl, by simpa [ha] using hx⟩

/-- `PARSE_FAIL`. -/
lemma fail {a : α} (ha : ok a = false) : Body ok d q κ (parseFailWith a) := by
  rintro ⟨d', p, κ', r, m⟩ ⟨hs, hd⟩ ⟨rfl, rfl, hx⟩
  rintro a' s' hr
  simp only [↓reduceIte] at hs hd hx
  rw [parseFailWith_run (by omega)] at hr
  cases hr
  exact ⟨rfl, rfl, by simp [ha]⟩

/-- `throw`. -/
lemma throw {f : Fault} : Body ok d q κ (MonadExcept.throw f : Parser α) :=
  fun _ _ _ => Ensures.throw

/-- An action before the rest of the body. -/
lemma keeps {p : Parser β} {k : β → Parser α} (hp : Keeps p) (hk : ∀ x, Body ok d q κ (k x)) :
    Body ok d q κ (p >>= k) := by
  intro s hs hx
  obtain ⟨hd, hst, hq⟩ := hx
  refine Ensures.bind ((hp s hs).mono fun x s' hx' => ?_)
  obtain ⟨hd', hst', hq'⟩ := hx'
  simp only [↓reduceIte] at hq hq'
  refine hk x s' ⟨hd' ▸ hq'.2, hd' ▸ hs.2⟩ ⟨hd'.trans hd, hst'.trans hst, ?_⟩
  simp only [↓reduceIte]
  exact ⟨Nat.le_trans hq.1 hq'.1, hd ▸ hq'.2⟩

/-- Reading the state before the rest of the body. -/
lemma get {k : ResponseParser → Parser α} (hk : ∀ x, Body ok d q κ (k x)) :
    Body ok d q κ (MonadState.get >>= k) := by
  intro s hs hx b s' hr
  exact hk s s hs hx b s' hr

/-- A plain branch. -/
lemma ite {c : Prop} [Decidable c] {t e : Parser α} (ht : Body ok d q κ t)
    (he : Body ok d q κ e) : Body ok d q κ (if c then t else e) := by
  split
  · exact ht
  · exact he

/-- A branch on a tidy method. -/
lemma ifM {c : Parser Bool} {t e : Parser α} (hc : Tidy id c) (ht : Body ok d q κ t)
    (he : Body ok d q κ e) : Body ok d q κ (StateExcept.ifM c t e) :=
  keeps hc.keeps fun b => by
    cases b with
    | true => exact ht
    | false => exact he

/-- `if (!p()) PARSE_FAIL`. -/
lemma expect {p rest : Parser Bool} (hp : Tidy id p) (hr : Body id d q κ rest) :
    Body id d q κ (Imapcl.expect p rest) :=
  ifM hp hr (fail rfl)

/-- `if (!p(x)) PARSE_FAIL`. -/
lemma expectSome {p : Parser (Option β)} {rest : β → Parser Bool} (hp : Tidy Option.isSome p)
    (hr : ∀ x, Body id d q κ (rest x)) : Body id d q κ (Imapcl.expectSome p rest) :=
  keeps hp.keeps fun x => by
    cases x with
    | none => exact fail rfl
    | some x => exact hr x

/-- A method that saves its position and goes on with a body is tidy. -/
lemma tidy {p : Parser α} (h : ∀ d q κ, Body ok d q κ p) : Tidy ok (savePos >>= fun _ => p) := by
  rintro ⟨d, q, κ, r, m⟩ hs b s' hr
  exact h d q κ ⟨d, q, wrap32 q :: κ, r, m⟩ hs ⟨rfl, rfl, by simpa using hs.1⟩ b s' hr

end Body

/-! ## Elementary actions -/

/-- A fixed verdict is tidy. -/
lemma tidy_pure (ok : α → Bool) (a : α) : Tidy ok (pure a) := by
  intro s hs
  refine Ensures.pure ⟨rfl, rfl, ?_⟩
  cases ok a with
  | true => simpa using hs.1
  | false => simp

/-- Trying one tidy method after another is tidy. -/
lemma Tidy.orElse {c e : Parser Bool} (hc : Tidy id c) (he : Tidy id e) :
    Tidy id (ifM c (pure true) e) := by
  intro s hs
  refine Ensures.ifM ((hc s hs).mono fun b s' hx => ?_)
  obtain ⟨hd, hst, hx⟩ := hx
  cases b with
  | true => exact Ensures.pure ⟨hd, hst, hx⟩
  | false =>
    obtain hp : s'.currPos = s.currPos := by simpa using hx
    have := he s' ⟨by rw [hd, hp]; exact hs.1, by rw [hd]; exact hs.2⟩
    rwa [hd, hst, hp] at this

/-- Actions follow one another. -/
lemma Keeps.bind {p : Parser α} {k : α → Parser β} (hp : Keeps p) (hk : ∀ x, Keeps (k x)) :
    Keeps (p >>= k) := by
  intro s hs
  refine Ensures.bind ((hp s hs).mono fun x s' hx => ?_)
  obtain ⟨hd, hst, hq⟩ := hx
  simp only [↓reduceIte] at hq
  refine (hk x s' ⟨hd ▸ hq.2, hd ▸ hs.2⟩).mono fun y s'' hx' => ?_
  obtain ⟨hd', hst', hq'⟩ := hx'
  simp only [↓reduceIte] at hq'
  refine ⟨hd'.trans hd, hst'.trans hst, ?_⟩
  simp only [↓reduceIte]
  exact ⟨Nat.le_trans hq.1 hq'.1, hd ▸ hq'.2⟩

/-- A literal match is tidy. -/
lemma tidy_matchStr (w : Bytes) : Tidy id (matchStr w) := by
  rintro ⟨d, p, κ, r, m⟩ ⟨hp, hd⟩ b s' hr
  by_cases hw : w <+: d.drop p
  · rw [matchStr_run_true hp hw] at hr
    cases hr
    have := hw.length_le
    simp only [List.length_drop] at this hp
    exact ⟨rfl, rfl, by simp; omega⟩
  · rw [matchStr_run_false hp hw] at hr
    cases hr
    exact ⟨rfl, rfl, rfl⟩

/-- A substring leaves the state alone. -/
lemma keeps_substr (i n : ℕ) : Keeps (substr i n) := by
  rintro ⟨d, p, κ, r, m⟩ ⟨hp, hd⟩ b s' hr
  rcases Nat.lt_or_ge d.length i with h | h
  · rw [substr_run_beyond h] at hr
    cases hr
  · rw [substr_run h] at hr
    cases hr
    exact ⟨rfl, rfl, by simpa using hp⟩

/-- Reading a character leaves the state alone. -/
lemma keeps_charAt : Keeps charAt := by
  rintro ⟨d, p, κ, r, m⟩ ⟨hp, hd⟩ b s' hr
  rw [charAt_run hp] at hr
  cases hr
  exact ⟨rfl, rfl, by simpa using hp⟩

/-- Scanning stays inside the data. -/
lemma keeps_scanWhile (f : UInt8 → Bool) : Keeps (scanWhile f) := by
  rintro ⟨d, p, κ, r, m⟩ ⟨hp, hd⟩ b s' hr
  rw [scanWhile_run hp] at hr
  cases hr
  have := (List.takeWhile_prefix f (l := d.drop p)).length_le
  simp only [List.length_drop] at this hp
  exact ⟨rfl, rfl, by simp; omega⟩

/-- Skipping to a bracket stays inside the data. -/
lemma keeps_skipTo (c : UInt8) : Keeps (skipTo c) := by
  rintro ⟨d, p, κ, r, m⟩ ⟨hp, hd⟩ b s' hr
  cases hr
  have := (List.takeWhile_prefix (· ≠ c) (l := d.drop p)).length_le
  simp only [List.length_drop] at this hp
  refine ⟨rfl, rfl, ?_⟩
  simp only [↓reduceIte]
  omega

/-- Storing a response leaves the position and the stack alone. -/
lemma keeps_setResponse (x : Response) : Keeps (setResponse x) := by
  rintro ⟨d, p, κ, r, m⟩ ⟨hp, hd⟩ b s' hr
  cases hr
  exact ⟨rfl, rfl, by simpa using hp⟩

/-- Storing message contents leaves the position and the stack alone. -/
lemma keeps_setContents (x : Bytes) : Keeps (setContents x) := by
  rintro ⟨d, p, κ, r, m⟩ ⟨hp, hd⟩ b s' hr
  cases hr
  exact ⟨rfl, rfl, by simpa using hp⟩

/-- Setting the tag of the response leaves the position and the stack alone. -/
lemma keeps_setResponseTag (tag : Bytes) : Keeps (setResponseTag tag) := by
  rintro ⟨d, p, κ, r, m⟩ ⟨hp, hd⟩ b s' hr
  simp only [setResponseTag] at hr
  rw [run_bind_of_ok (StateT.run_get _)] at hr
  cases r with
  | none => cases hr
  | some r =>
    cases h : r.setTag tag with
    | error ex => simp only [h] at hr; cases hr
    | ok r' =>
      simp only [h] at hr
      cases hr
      exact ⟨rfl, rfl, by simpa using hp⟩

/-- A discarded verdict. -/
lemma Keeps.discard {p : Parser α} (hp : Keeps p) : Keeps (discard p) :=
  hp.bind fun _ => (tidy_pure (fun _ => true) _).keeps

/-- A loop of actions that move forward moves forward. -/
lemma Keeps.whileParser {p : Parser Bool} (hp : Keeps p) : Keeps (whileParser p) := by
  intro s hs a s' hr
  rw [Imapcl.whileParser, run_bind_of_ok (StateT.run_get _)] at hr
  refine Ensures.repeatWhile (fun s' => Exit s.data s.currPos s.posStack true s')
    (fun s' => Exit s.data s.currPos s.posStack true s') (fun s' hs' => ?_) _ s
    ⟨rfl, rfl, by simpa using hs.1⟩ a s' hr
  obtain ⟨hd, hst, hq⟩ := hs'
  simp only [↓reduceIte] at hq
  refine (hp s' ⟨hd ▸ hq.2, hd ▸ hs.2⟩).mono fun b s'' hx => ?_
  obtain ⟨hd', hst', hq'⟩ := hx
  simp only [↓reduceIte] at hq'
  have : Exit s.data s.currPos s.posStack true s'' :=
    ⟨hd'.trans hd, hst'.trans hst, by
      simpa using ⟨Nat.le_trans hq.1 hq'.1, hd ▸ hq'.2⟩⟩
  simpa using this

/-! ## The nonterminals -/

/-- A line end is read as a whole or not at all. -/
lemma tidy_matchCrlf : Tidy id matchCrlf :=
  Body.tidy fun _ _ _ => Body.expect (tidy_matchStr _) (Body.success rfl)

/-- A failure of `parse_number` has scanned no digit. -/
lemma tidy_parseNumber : Tidy Option.isSome parseNumber :=
  Body.tidy fun _ _ _ => Body.keeps (keeps_scanWhile _) fun _ =>
    Body.ite (Body.fail rfl) (Body.success rfl)

/-- A mismatch of a literal that is required discards the saved position. -/
lemma body_expectMatch {w : String} {rest : Parser Bool} (h : Body id d q κ rest) :
    Body id d q κ (expectMatch w rest) :=
  Body.expect (tidy_matchStr _) h

/-- The skipped word of an unknown code is given back where no bracket closes it. -/
lemma tidy_parseRespTextCode : Tidy id parseRespTextCode :=
  Body.tidy fun _ _ _ =>
    Body.ifM (tidy_matchStr _) (Body.success rfl) <|
    Body.ifM (tidy_matchStr _)
      (body_expectMatch <| Body.expectSome tidy_parseNumber fun _ => Body.success rfl) <|
    Body.ifM ((tidy_matchStr _).orElse (tidy_matchStr _)) (Body.success rfl) <|
    Body.keeps (keeps_skipTo _) fun _ => Body.get fun _ =>
      Body.ite (Body.keeps keeps_charAt fun _ => Body.ite (Body.success rfl) (Body.fail rfl))
        (Body.fail rfl)

/-- `parse_text_char` returns only from a position up to the terminator, and moves by at most one
character; after the terminator it may be outside the data. -/
lemma parseTextChar_ensures {s : ResponseParser} (hd : s.data.length < 2 ^ 31) :
    Ensures parseTextChar s fun b s' => s.currPos ≤ s.data.length ∧ s'.data = s.data ∧
      s'.posStack = s.posStack ∧ s'.currPos = if b then s.currPos + 1 else s.currPos := by
  obtain ⟨d, p, κ, r, m⟩ := s
  intro b s' hr
  simp only at hd
  rcases Nat.lt_or_ge d.length p with hp | hp
  · rw [parseTextChar_run_beyond hp] at hr
    cases hr
  · rw [parseTextChar_run hp, toSizeT_wrap32 (by omega)] at hr
    split at hr
    · cases hr
      exact ⟨hp, rfl, rfl, rfl⟩
    · cases hr
      exact ⟨hp, rfl, rfl, rfl⟩

/-- **The text loop.** Its rounds can step over the terminator, but the read that ends it is inside
the data.

**Proof sketch.** The invariant allows positions up to one beyond the terminator. A round that
answers `true` read a character at or before the terminator; the round that answers `false` did
so too and did not move. -/
lemma tidy_parseText : Tidy id parseText := by
  refine Body.tidy fun d q κ s hs hx => ?_
  have hd := hs.2
  have hround : ∀ s' : ResponseParser, s'.data = d → s'.posStack = wrap32 q :: κ →
      q ≤ s'.currPos → Ensures parseTextChar s' fun b s'' => s''.data = d ∧
        s''.posStack = wrap32 q :: κ ∧ q ≤ s''.currPos ∧
        (b = false → s''.currPos ≤ d.length) := by
    intro s' hd' hst' hq'
    refine (parseTextChar_ensures (by rw [hd', ← hx.1]; exact hd)).mono fun b s'' h => ?_
    obtain ⟨hin, hd'', hst'', hp⟩ := h
    refine ⟨hd''.trans hd', hst''.trans hst', ?_, ?_⟩
    · cases b with
      | true => simp_all; omega
      | false => simp_all
    · rintro rfl
      simp_all
  obtain ⟨hxd, hxst, hxq⟩ := hx
  simp only [↓reduceIte] at hxq
  refine Ensures.bind ((hround s hxd hxst hxq.1).mono fun success s₁ h₁ => ?_)
  refine Ensures.bind fun _ s₂ h₂ => ?_
  rw [whileParser, run_bind_of_ok (StateT.run_get _)] at h₂
  have h₃ := Ensures.repeatWhile
    (fun s' => s'.data = d ∧ s'.posStack = wrap32 q :: κ ∧ q ≤ s'.currPos)
    (fun s' => Exit d q (wrap32 q :: κ) true s')
    (fun s' hs' => (hround s' hs'.1 hs'.2.1 hs'.2.2).mono fun b s'' h => by
      cases b with
      | true => simpa using ⟨h.1, h.2.1, h.2.2.1⟩
      | false => simpa [Exit] using ⟨h.1, h.2.1, h.2.2.1, h.2.2.2 rfl⟩)
    _ s₁ ⟨h₁.1, h₁.2.1, h₁.2.2.1⟩ _ s₂ h₂
  have hin : Inside s₂ := by
    obtain ⟨hd₂, -, hq₂⟩ := h₃
    exact ⟨by rw [hd₂]; simpa using hq₂.2, by rw [hd₂, ← hxd]; exact hd⟩
  cases success with
  | true => exact Body.success rfl s₂ hin h₃
  | false => exact Body.fail rfl s₂ hin h₃

/-- A code without its bracket and space fails, and takes the opening bracket back. -/
lemma tidy_parseRespText : Tidy id parseRespText :=
  Body.tidy fun _ _ _ =>
    Body.ifM (tidy_matchStr _)
      (Body.keeps tidy_parseRespTextCode.keeps.discard fun _ =>
        body_expectMatch <| body_expectMatch <| Body.expect tidy_parseText (Body.success rfl))
      (Body.expect tidy_parseText (Body.success rfl))

/-- The text of a status, stored with its type. -/
lemma body_parseStatusText (type : ResponseType) : Body id d q κ (parseStatusText type) :=
  body_expectMatch <| Body.get fun _ => Body.expect tidy_parseRespText <| Body.get fun _ =>
    Body.keeps (keeps_substr _ _) fun _ => Body.keeps (keeps_setResponse _) fun _ =>
      Body.success rfl

/-- `BYE` and the text behind it are read together. -/
lemma tidy_parseRespCondBye : Tidy id parseRespCondBye :=
  Body.tidy fun _ _ _ => body_expectMatch (body_parseStatusText _)

/-- The three alternatives start at one position, and so does the failure. -/
lemma tidy_parseRespCondState : Tidy id parseRespCondState :=
  Body.tidy fun _ _ _ =>
    Body.ifM (tidy_matchStr _) (body_parseStatusText _) <|
    Body.ifM (tidy_matchStr _) (body_parseStatusText _) <|
    Body.ifM (tidy_matchStr _) (body_parseStatusText _) (Body.fail rfl)

/-- `parse_tag` saves nothing, but on failure it has not moved. -/
lemma tidy_parseTag : Tidy id parseTag := by
  rintro ⟨d, p, κ, r, m⟩ hs b s' hr
  have hk := keeps_scanWhile isAlnum _ hs _ _ (scanWhile_run hs.1)
  rw [parseTag, run_bind_of_ok (scanWhile_run hs.1)] at hr
  cases hr
  refine ⟨rfl, rfl, ?_⟩
  cases hw : (d.drop p).takeWhile isAlnum with
  | nil => simp
  | cons c w => simpa [hw] using hk.2.2

/-- A failure behind the tag takes the tag back; the response stored by then stays. -/
lemma tidy_parseResponseTagged : Tidy id parseResponseTagged :=
  Body.tidy fun _ _ _ => Body.get fun _ => Body.expect tidy_parseTag <| Body.get fun _ =>
    Body.keeps (keeps_substr _ _) fun _ => body_expectMatch <|
    Body.expect tidy_parseRespCondState <| Body.expect tidy_matchCrlf <|
    Body.keeps (keeps_setResponseTag _) fun _ => Body.success rfl

/-- A BYE behind `* `, with no line end of its own. -/
lemma tidy_parseResponseFatal : Tidy id parseResponseFatal :=
  Body.tidy fun _ _ _ => body_expectMatch <| body_expectMatch <|
    Body.expect tidy_parseRespCondBye (Body.success rfl)

/-- The second alternative starts where the first one did. -/
lemma tidy_parseResponseDone : Tidy id parseResponseDone :=
  Body.tidy fun _ _ _ => Body.ifM tidy_parseResponseTagged (Body.success rfl) <|
    Body.ifM tidy_parseResponseFatal (Body.success rfl) (Body.fail rfl)

/-- A continuation request is read up to its line end, or not at all. -/
lemma tidy_parseContinueReq : Tidy id parseContinueReq :=
  Body.tidy fun _ _ _ => body_expectMatch <| body_expectMatch <|
    Body.expect tidy_parseRespText <| Body.expect tidy_matchCrlf (Body.success rfl)

/-- A bracketed word. Without a closing bracket the method throws, so that nothing
is left to restore. -/
lemma body_parseBracketed (opening closing : Char) (what : String) :
    Body id d q κ (parseBracketed opening closing what) :=
  Body.expect (tidy_matchStr _) <| Body.keeps (keeps_skipTo _) fun _ => Body.get fun _ =>
    Body.ite Body.throw (Body.expect (tidy_matchStr _) (Body.success rfl))

/-- A list of flags is a word in parentheses. -/
lemma tidy_parseFlagList : Tidy id parseFlagList :=
  Body.tidy fun _ _ _ => body_parseBracketed _ _ _

/-- The loop of `parse_message_id_list`, by induction on its fuel. -/
lemma body_messageIdLoop (fuel : ℕ) :
    ∀ numbers, Body Option.isSome d q κ (messageIdLoop fuel numbers) := by
  induction fuel with
  | zero => exact fun _ => Body.throw
  | succ fuel ih =>
    exact fun numbers => Body.ifM (tidy_matchStr _)
      (Body.keeps tidy_parseNumber.keeps fun x => by
        cases x with
        | none => exact Body.fail rfl
        | some x => exact ih _)
      (Body.success rfl)

/-- A number missing behind a space fails the whole list. -/
lemma tidy_parseMessageIdList : Tidy Option.isSome parseMessageIdList :=
  Body.tidy fun _ _ _ => Body.get fun _ => body_messageIdLoop _ _

/-- `parse_mailbox` never returns. -/
lemma tidy_parseMailbox : Tidy id parseMailbox := by
  intro s _
  exact Ensures.bind fun _ _ _ => Ensures.throw

/-- Lists of mailboxes always fail, and the status of a mailbox throws in `parse_mailbox`. -/
lemma tidy_parseMailboxData : Tidy id parseMailboxData :=
  Body.tidy fun _ _ _ =>
    Body.ifM (tidy_matchStr _)
      (body_expectMatch <| Body.expect tidy_parseFlagList <|
        Body.keeps (keeps_setResponse _) fun _ => Body.success rfl) <|
    Body.ifM (tidy_matchStr _)
      (body_expectMatch <| Body.expect (tidy_pure id _) (Body.success rfl)) <|
    Body.ifM (tidy_matchStr _)
      (body_expectMatch <| Body.expect (tidy_pure id _) (Body.success rfl)) <|
    Body.ifM (tidy_matchStr _)
      (Body.expectSome tidy_parseMessageIdList fun _ =>
        Body.keeps (keeps_setResponse _) fun _ => Body.success rfl) <|
    Body.ifM (tidy_matchStr _)
      (body_expectMatch <| Body.expect tidy_parseMailbox <| body_expectMatch <|
        body_expectMatch Body.throw) <|
    Body.expectSome tidy_parseNumber fun _ => body_expectMatch <|
    Body.ifM (tidy_matchStr _)
      (Body.keeps (keeps_setResponse _) fun _ => Body.success rfl) <|
    Body.ifM (tidy_matchStr _)
      (Body.keeps (keeps_setResponse _) fun _ => Body.success rfl) (Body.fail rfl)

/-- `FLAGS (` and the flags behind it. -/
lemma tidy_parseMsgAttDynamic : Tidy id parseMsgAttDynamic :=
  Body.tidy fun _ _ _ => body_expectMatch <| body_expectMatch <| body_parseBracketed _ _ _

/-- A section is a word in square brackets. -/
lemma tidy_parseSection : Tidy id parseSection :=
  Body.tidy fun _ _ _ => body_parseBracketed _ _ _

/-- A literal whose length has wrapped to a negative number throws, so the position never goes
back. -/
lemma body_readLiteral (length : ℤ) : Body id d q κ (readLiteral length) := by
  rintro ⟨d, p, κ', r, m⟩ ⟨hp, hd⟩ ⟨rfl, rfl, hx⟩ b s' hr
  simp only [↓reduceIte] at hp hd hx
  simp only [readLiteral] at hr
  rw [run_bind_of_ok (StateT.run_get _)] at hr
  split at hr
  · cases hr
  · rename_i hfit
    rw [run_bind_of_ok (StateT.run_set _ _)] at hr
    split at hr
    · cases hr
    · rename_i hlen
      simp only [List.length_take, List.length_append, List.length_drop, List.length_cons,
        List.length_nil, toSizeT] at hfit hlen
      rcases Nat.lt_or_ge d.length (toSizeT (p + length)) with hout | hin
      · rw [run_bind_of_error (charAt_run_beyond hout)] at hr
        cases hr
      · rw [run_bind_of_ok (charAt_run hin)] at hr
        split at hr
        · cases hr
        · cases hr
          refine ⟨rfl, rfl, ?_⟩
          simp only [id, ↓reduceIte]
          refine ⟨?_, hin⟩
          simp only [toSizeT]
          omega

/-- The number may be missing, which reads as the length zero. -/
lemma tidy_parseLiteral : Tidy id parseLiteral :=
  Body.tidy fun _ _ _ => body_expectMatch <| Body.keeps tidy_parseNumber.keeps fun _ =>
    body_expectMatch <| Body.expect tidy_matchCrlf (body_readLiteral _)

/-- A string is a literal. -/
lemma tidy_parseString : Tidy id parseString :=
  Body.tidy fun _ _ _ => Body.expect tidy_parseLiteral (Body.success rfl)

/-- The branch for `NIL` fails, and takes the word back. -/
lemma tidy_parseNstring : Tidy id parseNstring :=
  Body.tidy fun _ _ _ => Body.ifM (tidy_matchStr _)
    (Body.keeps (keeps_setContents _) fun _ => Body.fail rfl)
    (Body.expect tidy_parseString (Body.success rfl))

/-- The attributes that are not implemented throw behind their word. -/
lemma tidy_parseMsgAttStatic : Tidy id parseMsgAttStatic :=
  Body.tidy fun _ _ _ =>
    Body.ifM (tidy_matchStr _) Body.throw <|
    Body.ifM (tidy_matchStr _) Body.throw <|
    Body.ifM (tidy_matchStr _) Body.throw <|
    Body.ifM (tidy_matchStr _) Body.throw <|
    Body.ifM (tidy_matchStr _)
      (Body.ifM (tidy_matchStr _) Body.throw <|
        Body.ifM (tidy_matchStr _) Body.throw <|
        Body.ifM tidy_parseSection
          (Body.ifM (tidy_matchStr _) Body.throw <|
            body_expectMatch <| Body.expect tidy_parseNstring (Body.success rfl))
          (Body.fail rfl)) <|
    Body.ifM (tidy_matchStr _)
      (body_expectMatch <| Body.expectSome tidy_parseNumber fun _ => Body.success rfl)
      (Body.fail rfl)

/-- The second kind of attribute is tried where the first one failed. -/
lemma tidy_parseMsgAttItem : Tidy id parseMsgAttItem :=
  tidy_parseMsgAttDynamic.orElse tidy_parseMsgAttStatic

/-- One round of the loop of `parse_msg_att` can keep the space it matched. -/
lemma keeps_msgAttRound : Keeps (ifM (matchStr (ascii " ")) parseMsgAttItem (pure false)) :=
  (tidy_matchStr _).keeps.bind fun b => by
    cases b with
    | true => exact tidy_parseMsgAttItem.keeps
    | false => exact (tidy_pure id _).keeps

/-- The first attribute may fail; the rounds of the loop behind it only move forward. -/
lemma tidy_parseMsgAtt : Tidy id parseMsgAtt :=
  Body.tidy fun _ _ _ => body_expectMatch <| Body.expect tidy_parseMsgAttItem <|
    Body.keeps keeps_msgAttRound.whileParser fun _ => body_expectMatch (Body.success rfl)

/-- A failure behind the number takes it back; the contents are cleared by then. -/
lemma tidy_parseMessageData : Tidy id parseMessageData :=
  Body.tidy fun _ _ _ => Body.expectSome tidy_parseNumber fun _ => body_expectMatch <|
    Body.ifM (tidy_matchStr _) Body.throw <|
    Body.ifM (tidy_matchStr _)
      (Body.keeps (keeps_setContents _) fun _ => body_expectMatch <|
        Body.expect tidy_parseMsgAtt <| Body.get fun _ =>
        Body.keeps (keeps_setResponse _) fun _ => Body.success rfl)
      (Body.fail rfl)

/-- Each alternative has a line end of its own, and a failure there fails the response. -/
lemma tidy_parseResponseData : Tidy id parseResponseData :=
  Body.tidy fun _ _ _ => body_expectMatch <| body_expectMatch <|
    Body.ifM tidy_parseRespCondState
      (Body.keeps (keeps_setResponseTag _) fun _ =>
        Body.expect tidy_matchCrlf (Body.success rfl)) <|
    Body.ifM tidy_parseRespCondBye
      (Body.keeps (keeps_setResponseTag _) fun _ =>
        Body.expect tidy_matchCrlf (Body.success rfl)) <|
    Body.ifM tidy_parseMailboxData (Body.expect tidy_matchCrlf (Body.success rfl)) <|
    Body.ifM tidy_parseMessageData (Body.expect tidy_matchCrlf (Body.success rfl)) (Body.fail rfl)

/-- The three kinds of responses are tried at one position. -/
lemma tidy_parseResponse : Tidy id parseResponse :=
  Body.tidy fun _ _ _ =>
    Body.ifM tidy_parseContinueReq (Body.success rfl) <|
    Body.ifM tidy_parseResponseData (Body.success rfl) <|
    Body.ifM tidy_parseResponseDone (Body.success rfl) (Body.fail rfl)

/-- The status of a greeting. -/
lemma tidy_parseRespCondAuth : Tidy id parseRespCondAuth := by
  have hrest : ∀ (type : ResponseType) (d : Bytes) (q : ℕ) (κ : List ℤ), Body id d q κ
      (expectMatch " " <| expect parseRespText do
        setResponse (.status type [] [])
        parseSuccess) := fun _ _ _ _ =>
    body_expectMatch <| Body.expect tidy_parseRespText <|
      Body.keeps (keeps_setResponse _) fun _ => Body.success rfl
  exact Body.tidy fun d q κ => Body.ifM (tidy_matchStr _) (hrest _ d q κ) <|
    Body.ifM (tidy_matchStr _) (hrest _ d q κ) (Body.fail rfl)

/-- A greeting has no line end of its own. -/
lemma tidy_parseGreeting : Tidy id parseGreeting :=
  Body.tidy fun _ _ _ => body_expectMatch <| body_expectMatch <|
    Body.expect tidy_parseRespCondAuth (Body.success rfl)

/-- `parse_next` is tidy as well: a greeting is tried from where the response failed. -/
lemma tidy_parseNext : Tidy id parseNext := by
  intro s hs
  refine Ensures.bind fun s₁ s₂ h₁ => ?_
  cases h₁
  split
  · exact tidy_pure id _ s hs
  · exact (tidy_parseResponse.orElse
      (tidy_parseGreeting.orElse fun _ _ => Ensures.throw)) s hs

/-! ## The discipline -/

/-- The methods reachable from `parse_next`. -/
inductive Nonterminal where
  | matchCrlf
  | number
  | textChar
  | text
  | respTextCode
  | respText
  | respCondState
  | respCondBye
  | responseTagged
  | responseFatal
  | responseDone
  | continueReq
  | flagList
  | messageIdList
  | mailboxData
  | section
  | msgAttDynamic
  | msgAttStatic
  | literal
  | string
  | nstring
  | msgAtt
  | messageData
  | responseData
  | response
  | respCondAuth
  | greeting
  deriving DecidableEq, Repr

/-- The verdict of a method. -/
def Nonterminal.parse : Nonterminal → Parser Bool
  | .matchCrlf => Imapcl.matchCrlf
  | .number => Option.isSome <$> parseNumber
  | .textChar => parseTextChar
  | .text => parseText
  | .respTextCode => parseRespTextCode
  | .respText => parseRespText
  | .respCondState => parseRespCondState
  | .respCondBye => parseRespCondBye
  | .responseTagged => parseResponseTagged
  | .responseFatal => parseResponseFatal
  | .responseDone => parseResponseDone
  | .continueReq => parseContinueReq
  | .flagList => parseFlagList
  | .messageIdList => Option.isSome <$> parseMessageIdList
  | .mailboxData => parseMailboxData
  | .section => parseSection
  | .msgAttDynamic => parseMsgAttDynamic
  | .msgAttStatic => parseMsgAttStatic
  | .literal => parseLiteral
  | .string => parseString
  | .nstring => parseNstring
  | .msgAtt => parseMsgAtt
  | .messageData => parseMessageData
  | .responseData => parseResponseData
  | .response => parseResponse
  | .respCondAuth => parseRespCondAuth
  | .greeting => parseGreeting

/-- Reading the verdict off a result keeps a method tidy. -/
lemma Tidy.isSome {p : Parser (Option α)} (hp : Tidy Option.isSome p) :
    Tidy id (Option.isSome <$> p) := by
  intro s hs b s' hr
  rw [map_eq_pure_bind] at hr
  obtain ⟨a, s₁, ha, hb⟩ := run_bind_eq_ok_iff.mp hr
  cases hb
  exact hp s hs a s' ha

/-- All methods but `parse_text_char` are tidy. -/
lemma Nonterminal.tidy (f : Nonterminal) (hf : f ≠ .textChar) : Tidy id f.parse := by
  cases f with
  | matchCrlf => exact tidy_matchCrlf
  | number => exact tidy_parseNumber.isSome
  | textChar => exact absurd rfl hf
  | text => exact tidy_parseText
  | respTextCode => exact tidy_parseRespTextCode
  | respText => exact tidy_parseRespText
  | respCondState => exact tidy_parseRespCondState
  | respCondBye => exact tidy_parseRespCondBye
  | responseTagged => exact tidy_parseResponseTagged
  | responseFatal => exact tidy_parseResponseFatal
  | responseDone => exact tidy_parseResponseDone
  | continueReq => exact tidy_parseContinueReq
  | flagList => exact tidy_parseFlagList
  | messageIdList => exact tidy_parseMessageIdList.isSome
  | mailboxData => exact tidy_parseMailboxData
  | «section» => exact tidy_parseSection
  | msgAttDynamic => exact tidy_parseMsgAttDynamic
  | msgAttStatic => exact tidy_parseMsgAttStatic
  | literal => exact tidy_parseLiteral
  | string => exact tidy_parseString
  | nstring => exact tidy_parseNstring
  | msgAtt => exact tidy_parseMsgAtt
  | messageData => exact tidy_parseMessageData
  | responseData => exact tidy_parseResponseData
  | response => exact tidy_parseResponse
  | respCondAuth => exact tidy_parseRespCondAuth
  | greeting => exact tidy_parseGreeting

/-- **Backtracking discipline.** On data shorter than `2 ^ 31` and from a position inside it, a
method that returns has restored the position stack; on success the position has not decreased,
on failure it is what it was. So `parse_next`, called with an empty stack, ends with an empty
stack, which is what its first assertion checks.

**Proof sketch.** Each method is a `Body` behind a `savePos`, built by the rules above from the
methods it calls; `parse_text_char` is read off its definition. -/
theorem backtracking_discipline :
    (∀ (f : Nonterminal) (s s' : ResponseParser) (success : Bool), s.data.length < 2 ^ 31 →
      s.currPos ≤ s.data.length → f.parse.run s = .ok (success, s') →
      s'.posStack = s.posStack ∧ (success = true → s.currPos ≤ s'.currPos) ∧
        (success = false → s'.currPos = s.currPos)) ∧
    (∀ (s s' : ResponseParser) (success : Bool), s.data.length < 2 ^ 31 →
      s.currPos ≤ s.data.length → s.posStack = [] → parseNext.run s = .ok (success, s') →
      s'.posStack = []) := by
  constructor
  · intro f s s' success hd hp hr
    by_cases hf : f = .textChar
    · subst hf
      obtain ⟨-, -, hst, hq⟩ := parseTextChar_ensures hd success s' hr
      exact ⟨hst, by rintro rfl; simp [hq], by rintro rfl; simp [hq]⟩
    · obtain ⟨-, hst, hq⟩ := f.tidy hf s ⟨hp, hd⟩ success s' hr
      refine ⟨hst, ?_, ?_⟩
      · rintro rfl
        exact (by simpa using hq : _ ∧ _).1
      · rintro rfl
        simpa using hq
  · intro s s' success hd hp hst hr
    obtain ⟨-, hst', -⟩ := tidy_parseNext s ⟨hp, hd⟩ success s' hr
    rw [hst', hst]

/-- The discipline on the line `1 OK x`: the untagged alternative fails and gives its position
back, and the whole line leaves the stack empty. -/
theorem backtracking_discipline_line :
    (∃ s', Nonterminal.responseData.parse.run (.ofData (ascii "1 OK x\r\n")) = .ok (false, s') ∧
      s'.posStack = [] ∧ s'.currPos = 0) ∧
    ∃ s', parseNext.run (.ofData (ascii "1 OK x\r\n")) = .ok (true, s') ∧ s'.posStack = [] := by
  have hdata : (ascii "1 OK x\r\n").length < 2 ^ 31 := by decide
  constructor
  · have hr : Nonterminal.responseData.parse.run (.ofData (ascii "1 OK x\r\n")) =
        .ok (false, .ofData (ascii "1 OK x\r\n")) := by decide +kernel
    have h := backtracking_discipline.1 _ _ _ _ hdata (Nat.zero_le _) hr
    exact ⟨_, hr, h.1, h.2.2 rfl⟩
  · have hr : parseNext.run (.ofData (ascii "1 OK x\r\n")) =
        .ok (true,
          ⟨ascii "1 OK x\r\n", 8, [], some (.status .ok (ascii "1") (ascii "x")), []⟩) := by
      decide +kernel
    exact ⟨_, hr, backtracking_discipline.2 _ _ _ hdata (Nat.zero_le _) rfl hr⟩

end Imapcl
