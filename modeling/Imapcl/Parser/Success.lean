import Imapcl.Parser.Grammar

set_option relaxedAutoImplicit false
set_option autoImplicit false

/-!
# What a success leaves behind

The success exits of the nonterminals, on data of any size: what is in `parsed_response`, and where
the position is after a status response. The failure exits say nothing here, since a position that
does not fit into an `int` is not restored.

## Main definitions

* `Imapcl.Stored`, `Imapcl.Untagged`, `Imapcl.Restored` — properties of the state after a success.
* `Imapcl.Continues` — a continuation request is read from this state.

## Main results

* `Imapcl.frames_parseContinueReq` — a continuation request stores nothing.
* `Imapcl.succeeds_parseResponseTagged`, `Imapcl.succeeds_parseResponseData`,
  `Imapcl.succeeds_parseResponseFatal`, `Imapcl.succeeds_parseGreeting` — every other alternative
  of `parse_next` stores a response.
* `Imapcl.parseNext_success` — the rule for the successes of `parse_next`.
-/

namespace Imapcl

open StateExcept

variable {α : Type} {Q : ResponseParser → Prop}

/-! ## Methods that store nothing -/

/-- The method leaves `parsed_response` alone. -/
abbrev Frames (x : Parser α) : Prop := Preserves ResponseParser.parsedResponse x

/-- Restoring a position. -/
lemma frames_restorePos : Frames restorePos := by
  rintro ⟨d, p, κ, r, m⟩ a s' hr
  cases κ with
  | nil => cases hr
  | cons x κ =>
    cases hr
    rfl

/-- Popping a position. -/
lemma frames_popPos : Frames popPos := by
  rintro ⟨d, p, κ, r, m⟩ a s' hr
  cases κ with
  | nil => cases hr
  | cons x κ =>
    cases hr
    rfl

/-- Saving a position. -/
lemma frames_savePos : Frames savePos := Preserves.modify fun _ => rfl

/-- `PARSE_FAIL` stores nothing. -/
lemma frames_parseFailWith (a : α) : Frames (parseFailWith a) :=
  frames_restorePos.bind fun _ => Preserves.pure a

/-- `PARSE_SUCCESS` stores nothing. -/
lemma frames_parseSuccessWith (a : α) : Frames (parseSuccessWith a) :=
  frames_popPos.bind fun _ => Preserves.pure a

/-- A substring. -/
lemma frames_substr (i n : ℕ) : Frames (substr i n) :=
  Preserves.get.bind fun _ => Preserves.ite (Preserves.throw _) (Preserves.pure _)

/-- A literal match moves the position only. -/
lemma frames_matchStr (w : Bytes) : Frames (matchStr w) := by
  intro s
  refine Ensures.bind fun s₁ s₂ h₁ => ?_
  cases h₁
  refine Ensures.bind ((frames_substr _ _ s).mono fun w' s' h => ?_)
  split
  · refine Ensures.bind fun _ s'' h₂ => ?_
    cases h₂
    exact Ensures.pure rfl
  · exact Ensures.pure h

/-- The bytes ahead. -/
lemma frames_ahead : Frames ahead :=
  Preserves.get.bind fun _ => Preserves.ite (Preserves.throw _) (Preserves.pure _)

/-- Reading a character stores nothing. -/
lemma frames_charAt : Frames charAt := frames_ahead.bind fun _ => Preserves.pure _

/-- Moving the position. -/
lemma frames_advance (n : ℕ) : Frames (advance n) := Preserves.modify fun _ => rfl

/-- A condition and what follows it. -/
lemma frames_expect {c rest : Parser Bool} (hc : Frames c) (hr : Frames rest) :
    Frames (expect c rest) :=
  Preserves.ifM hc hr (frames_parseFailWith false)

/-- A literal that is required, and what follows it. -/
lemma frames_expectMatch {w : String} {rest : Parser Bool} (hr : Frames rest) :
    Frames (expectMatch w rest) :=
  frames_expect (frames_matchStr _) hr

/-- A line end. -/
lemma frames_matchCrlf : Frames matchCrlf :=
  frames_savePos.bind fun _ => frames_expect (frames_matchStr _) (frames_parseSuccessWith true)

/-- A number is returned, not stored. -/
lemma frames_parseNumber : Frames parseNumber :=
  frames_savePos.bind fun _ =>
    (frames_ahead.bind fun _ => (frames_advance _).bind fun _ => Preserves.pure _).bind fun _ =>
      Preserves.ite (frames_parseFailWith none) (frames_parseSuccessWith _)

/-- A character of a text. -/
lemma frames_parseTextChar : Frames parseTextChar :=
  frames_savePos.bind fun _ => frames_charAt.bind fun _ =>
    Preserves.ite (frames_parseFailWith false)
      ((frames_advance 1).bind fun _ => frames_parseSuccessWith true)

/-- A text is only passed over. -/
lemma frames_parseText : Frames parseText :=
  frames_savePos.bind fun _ => frames_parseTextChar.bind fun _ =>
    (Preserves.get.bind fun _ => Preserves.repeatWhile frames_parseTextChar _).bind fun _ =>
      Preserves.ite (frames_parseSuccessWith true) (frames_parseFailWith false)

/-- A code is only passed over. -/
lemma frames_parseRespTextCode : Frames parseRespTextCode :=
  frames_savePos.bind fun _ =>
    Preserves.ifM (frames_matchStr _) (frames_parseSuccessWith true) <|
    Preserves.ifM (frames_matchStr _)
      (frames_expectMatch <| frames_parseNumber.bind fun x => by
        cases x with
        | none => exact frames_parseFailWith false
        | some x => exact frames_parseSuccessWith true) <|
    Preserves.ifM (Preserves.ifM (frames_matchStr _) (Preserves.pure true) (frames_matchStr _))
      (frames_parseSuccessWith true) <|
    (Preserves.get.bind fun _ => frames_advance _).bind fun _ => Preserves.get.bind fun _ =>
      Preserves.ite
        (frames_charAt.bind fun _ =>
          Preserves.ite (frames_parseSuccessWith true) (frames_parseFailWith false))
        (frames_parseFailWith false)

/-- The text of a response is only passed over. -/
lemma frames_parseRespText : Frames parseRespText :=
  frames_savePos.bind fun _ =>
    Preserves.ifM (frames_matchStr _)
      (frames_parseRespTextCode.discard.bind fun _ =>
        frames_expectMatch <| frames_expectMatch <|
          frames_expect frames_parseText (frames_parseSuccessWith true))
      (frames_expect frames_parseText (frames_parseSuccessWith true))

/-- A continuation request stores nothing. -/
lemma frames_parseContinueReq : Frames parseContinueReq :=
  frames_savePos.bind fun _ => frames_expectMatch <| frames_expectMatch <|
    frames_expect frames_parseRespText <|
      frames_expect frames_matchCrlf (frames_parseSuccessWith true)

/-! ## Success exits -/

/-- `PARSE_FAIL` is no success. -/
lemma succeeds_parseFail : Succeeds parseFail Q := by
  rintro ⟨d, p, κ, r, m⟩ b s' hr rfl
  cases κ with
  | nil => cases hr
  | cons x κ => cases hr

/-- `PARSE_FAIL` does not answer `true`. -/
lemma parseFail_ne_true {s s' : ResponseParser} : parseFail.run s ≠ .ok (true, s') :=
  fun h => succeeds_parseFail (Q := fun _ => False) s true s' h rfl

/-- After `if (!p()) PARSE_FAIL`, the rest answers. -/
lemma succeeds_expect {c rest : Parser Bool} (h : Succeeds rest Q) : Succeeds (expect c rest) Q :=
  Succeeds.ifM h succeeds_parseFail

/-- A literal that is required does not succeed without what follows it. -/
lemma succeeds_expectMatch {w : String} {rest : Parser Bool} (h : Succeeds rest Q) :
    Succeeds (expectMatch w rest) Q :=
  succeeds_expect h

/-- After `if (!p(x)) PARSE_FAIL`, the rest answers. -/
lemma succeeds_expectSome {p : Parser (Option α)} {rest : α → Parser Bool}
    (h : ∀ x, Succeeds (rest x) Q) : Succeeds (expectSome p rest) Q :=
  Succeeds.bind fun x => by
    cases x with
    | none => exact succeeds_parseFail
    | some x => exact h x

/-- A property that `PARSE_SUCCESS` does not touch. -/
lemma ensures_parseSuccess {s : ResponseParser} (hQ : ∀ κ, Q { s with posStack := κ }) :
    Ensures parseSuccess s fun b s' => b = true → Q s' := by
  obtain ⟨d, p, κ, r, m⟩ := s
  intro b s' hr _
  cases κ with
  | nil => cases hr
  | cons x κ =>
    cases hr
    exact hQ κ

/-- A response is stored. -/
def Stored (s : ResponseParser) : Prop := s.parsedResponse ≠ none

/-- A response without a tag is stored. -/
def Untagged (s : ResponseParser) : Prop := ∃ x, s.parsedResponse = some x ∧ x.getTag = []

/-- The position is one that was saved as an `int`. -/
def Restored (s : ResponseParser) : Prop := ∃ q : ℕ, s.currPos = toSizeT (wrap32 q)

/-- A response without a tag is a response. -/
lemma Untagged.stored {s : ResponseParser} (h : Untagged s) : Stored s := by
  obtain ⟨x, hx, -⟩ := h
  simp [Stored, hx]

/-- A substring leaves the state alone. -/
lemma ensures_substr (i n : ℕ) (s : ResponseParser) :
    Ensures (substr i n) s fun _ s' => s' = s := by
  obtain ⟨d, p, κ, r, m⟩ := s
  intro w s' hr
  rcases Nat.lt_or_ge d.length i with h | h
  · rw [substr_run_beyond h] at hr
    cases hr
  · rw [substr_run h] at hr
    cases hr
    rfl

/-- `parse_mailbox_list` never succeeds. -/
lemma succeeds_expectList {rest : Parser Bool} : Succeeds (expect parseMailboxList rest) Q :=
  fun s b s' hr => succeeds_parseFail s b s' hr

/-- Storing a response before `PARSE_SUCCESS`. -/
lemma succeeds_setResponse {x : Response} :
    Succeeds (setResponse x >>= fun _ => parseSuccess) fun s => s.parsedResponse = some x := by
  refine Succeeds.bind_of (I := fun s => s.parsedResponse = some x) (fun s a s' hr => ?_)
    fun _ s hs => ensures_parseSuccess fun κ => hs
  cases hr
  rfl

/-- Storing a response without a tag. -/
lemma succeeds_setUntagged {x : Response} (hx : x.getTag = []) :
    Succeeds (setResponse x >>= fun _ => parseSuccess) Untagged :=
  succeeds_setResponse.mono fun _ hs => ⟨x, hs, hx⟩

/-! ## Status responses -/

/-- `parse_text_char` fails at the position that it saved. -/
lemma parseTextChar_restored (s : ResponseParser) :
    Ensures parseTextChar s fun b s' => b = false → Restored s' := by
  obtain ⟨d, p, κ, r, m⟩ := s
  intro b s' hr hb
  rcases Nat.lt_or_ge d.length p with hp | hp
  · rw [parseTextChar_run_beyond hp] at hr
    cases hr
  · rw [parseTextChar_run hp] at hr
    split at hr
    · cases hr
      exact ⟨p, by simp only⟩
    · cases hr
      cases hb

/-- `parse_text` ends where `parse_text_char` has failed. -/
lemma succeeds_parseText : Succeeds parseText Restored := by
  refine Succeeds.bind fun _ => Succeeds.bind fun success => ?_
  refine Succeeds.bind_of (I := Restored) (fun s => ?_) fun _ s hs => ?_
  · rw [whileParser]
    refine Ensures.bind fun s₁ s₂ h₁ => ?_
    cases h₁
    refine Ensures.repeatWhile (fun _ => True) Restored (fun s' _ => ?_) _ s trivial
    refine (parseTextChar_restored s').mono fun b s'' h => ?_
    cases b with
    | true => simp
    | false => simpa using h
  · cases success with
    | true => exact ensures_parseSuccess fun κ => hs
    | false => exact succeeds_parseFail s

/-- `parse_text` is the last part of `parse_resp_text`. -/
lemma succeeds_parseRespText : Succeeds parseRespText Restored := by
  have htext : Succeeds (expect parseText parseSuccess) Restored :=
    Succeeds.ifM_of succeeds_parseText (fun s hs => ensures_parseSuccess fun κ => hs)
      succeeds_parseFail
  exact Succeeds.bind fun _ => Succeeds.ifM
    (Succeeds.bind fun _ => succeeds_expectMatch (succeeds_expectMatch htext)) htext

/-- A status response of the given type is stored, without a tag and before the end of its line. -/
def StoredStatus (type : ResponseType) (s : ResponseParser) : Prop :=
  (∃ text, s.parsedResponse = some (.status type [] text)) ∧ Restored s

/-- Reading a status text stores a response of its type. -/
lemma succeeds_parseStatusText (type : ResponseType) :
    Succeeds (parseStatusText type) (StoredStatus type) := by
  refine succeeds_expectMatch (Succeeds.bind fun start => ?_)
  refine Succeeds.ifM_of succeeds_parseRespText (fun s hs => ?_) succeeds_parseFail
  refine Ensures.bind fun s₁ s₂ h₁ => ?_
  cases h₁
  refine Ensures.bind ((ensures_substr _ _ s).mono fun text s' hs' => ?_)
  refine Ensures.bind fun _ s'' hr => ?_
  cases hr
  exact ensures_parseSuccess fun κ => ⟨⟨text, rfl⟩, by rwa [hs']⟩

/-- `parse_resp_cond_bye` stores a BYE. -/
lemma succeeds_parseRespCondBye : Succeeds parseRespCondBye (StoredStatus .bye) :=
  Succeeds.bind fun _ => succeeds_expectMatch (succeeds_parseStatusText .bye)

/-- `parse_resp_cond_state` stores a status response, whatever its type. -/
lemma succeeds_parseRespCondState :
    Succeeds parseRespCondState fun s => ∃ type, StoredStatus type s :=
  Succeeds.bind fun _ =>
    Succeeds.ifM ((succeeds_parseStatusText .ok).mono fun _ h => ⟨.ok, h⟩) <|
    Succeeds.ifM ((succeeds_parseStatusText .no).mono fun _ h => ⟨.no, h⟩) <|
    Succeeds.ifM ((succeeds_parseStatusText .bad).mono fun _ h => ⟨.bad, h⟩) succeeds_parseFail

/-- `match_crlf` advances by two bytes. -/
lemma matchCrlf_ensures (s : ResponseParser) :
    Ensures matchCrlf s fun b s' => b = true →
      s'.parsedResponse = s.parsedResponse ∧ s'.currPos = s.currPos + 2 := by
  obtain ⟨d, p, κ, r, m⟩ := s
  intro b s' hr hb
  rw [matchCrlf, run_bind_of_ok savePos_run] at hr
  rcases Nat.lt_or_ge d.length p with hp | hp
  · rw [expect, ifM_run_error (matchStr_run_beyond hp)] at hr
    cases hr
  · by_cases hw : crlf <+: d.drop p
    · rw [expect, ifM_run_true (matchStr_run_true hp hw)] at hr
      cases hr
      exact ⟨rfl, rfl⟩
    · rw [expect, ifM_run_false (matchStr_run_false hp hw)] at hr
      cases hr
      cases hb

/-- A CRLF at the end of a method that has stored its response. -/
lemma ensures_expectCrlf {P : Option Response → Prop} {s : ResponseParser}
    (h : P s.parsedResponse) :
    Ensures (expect matchCrlf parseSuccess) s fun b s' => b = true → P s'.parsedResponse := by
  refine Ensures.ifM ((frames_matchCrlf s).mono fun b s' hs => ?_)
  rw [← hs] at h
  cases b with
  | true => simpa using ensures_parseSuccess (Q := fun s => P s.parsedResponse) fun κ => h
  | false => simpa using succeeds_parseFail s'

/-- `parse_response_tagged` stores a response, and ends two bytes after the end of its text. -/
lemma succeeds_parseResponseTagged :
    Succeeds parseResponseTagged fun s =>
      Stored s ∧ ∃ q : ℕ, s.currPos = toSizeT (wrap32 q) + 2 := by
  refine Succeeds.bind fun _ => Succeeds.bind fun start => succeeds_expect <|
    Succeeds.bind fun s => Succeeds.bind fun tag => succeeds_expectMatch ?_
  refine Succeeds.ifM_of succeeds_parseRespCondState (fun s hs => ?_) succeeds_parseFail
  obtain ⟨type, ⟨text, htext⟩, q, hq⟩ := hs
  refine Ensures.ifM ((matchCrlf_ensures s).mono fun b s' h => ?_)
  cases b with
  | false => simpa using succeeds_parseFail s'
  | true =>
    obtain ⟨hr, hp⟩ := h rfl
    rw [if_pos rfl]
    refine Ensures.bind fun _ s'' hset => ?_
    obtain ⟨d, p, κ, r, m⟩ := s'
    obtain rfl : r = some (.status type [] text) := hr.trans htext
    cases hset
    exact ensures_parseSuccess fun κ => ⟨by simp [Stored], q, by rw [← hq, ← hp]⟩

/-- `parse_response_fatal` stores a status response without a tag. -/
lemma succeeds_parseResponseFatal : Succeeds parseResponseFatal Untagged := by
  refine Succeeds.bind fun _ => succeeds_expectMatch <| succeeds_expectMatch ?_
  refine Succeeds.ifM_of succeeds_parseRespCondBye (fun s hs => ?_) succeeds_parseFail
  obtain ⟨⟨text, htext⟩, -⟩ := hs
  exact ensures_parseSuccess fun κ => ⟨_, htext, rfl⟩

/-! ## Data -/

/-- `parse_mailbox_data` stores a response without a tag. -/
lemma succeeds_parseMailboxData : Succeeds parseMailboxData Untagged :=
  Succeeds.bind fun _ =>
    Succeeds.ifM (succeeds_expectMatch <| succeeds_expect <| succeeds_setUntagged rfl) <|
    Succeeds.ifM (succeeds_expectMatch succeeds_expectList) <|
    Succeeds.ifM (succeeds_expectMatch succeeds_expectList) <|
    Succeeds.ifM (succeeds_expectSome fun _ => succeeds_setUntagged rfl) <|
    Succeeds.ifM (succeeds_expectMatch <| succeeds_expect <| succeeds_expectMatch <|
      succeeds_expectMatch <| Succeeds.throw _) <|
    succeeds_expectSome fun _ => succeeds_expectMatch <|
    Succeeds.ifM (succeeds_setUntagged rfl) <|
    Succeeds.ifM (succeeds_setUntagged rfl) succeeds_parseFail

/-- A FETCH response is stored. -/
def Fetched (s : ResponseParser) : Prop := ∃ contents, s.parsedResponse = some (.fetch contents)

/-- A FETCH response has no tag. -/
lemma Fetched.untagged {s : ResponseParser} (h : Fetched s) : Untagged s := by
  obtain ⟨contents, hc⟩ := h
  exact ⟨_, hc, rfl⟩

/-- `parse_message_data` stores a FETCH response. -/
lemma succeeds_parseMessageData : Succeeds parseMessageData Fetched :=
  Succeeds.bind fun _ => succeeds_expectSome fun _ => succeeds_expectMatch <|
    Succeeds.ifM (Succeeds.throw _) <|
    Succeeds.ifM
      (Succeeds.bind fun _ => succeeds_expectMatch <| succeeds_expect <|
        Succeeds.bind fun _ => succeeds_setResponse.mono fun _ hs => ⟨_, hs⟩)
      succeeds_parseFail

/-- `parse_response_data` stores a response without a tag. -/
lemma succeeds_parseResponseData : Succeeds parseResponseData Untagged := by
  have hcrlf : ∀ s, Untagged s →
      Ensures (expect matchCrlf parseSuccess) s fun b s' => b = true → Untagged s' :=
    fun s hs => ensures_expectCrlf (P := fun r => ∃ x, r = some x ∧ x.getTag = []) hs
  have hstatus : ∀ type s, StoredStatus type s →
      Ensures (setResponseTag [] >>= fun _ => expect matchCrlf parseSuccess) s
        fun b s' => b = true → Untagged s' := by
    rintro type ⟨d, p, κ, r, m⟩ ⟨⟨text, rfl⟩, -⟩
    refine Ensures.bind fun _ s' hset => ?_
    cases hset
    exact hcrlf _ ⟨_, rfl, rfl⟩
  refine Succeeds.bind fun _ => succeeds_expectMatch <| succeeds_expectMatch ?_
  refine Succeeds.ifM_of succeeds_parseRespCondState (fun s ⟨type, hs⟩ => hstatus type s hs) ?_
  refine Succeeds.ifM_of succeeds_parseRespCondBye (fun s hs => hstatus _ s hs) ?_
  refine Succeeds.ifM_of succeeds_parseMailboxData (fun s hs => hcrlf s hs) ?_
  exact Succeeds.ifM_of succeeds_parseMessageData (fun s hs => hcrlf s hs.untagged)
    succeeds_parseFail

/-- `parse_greeting` stores a response without a tag. -/
lemma succeeds_parseGreeting : Succeeds parseGreeting Untagged := by
  have hrest : ∀ type, Succeeds (expectMatch " " <| expect parseRespText do
      setResponse (.status type [] [])
      parseSuccess) Untagged := fun type =>
    succeeds_expectMatch <| succeeds_expect <| succeeds_setUntagged rfl
  have hauth : Succeeds parseRespCondAuth Untagged :=
    Succeeds.bind fun _ =>
      Succeeds.ifM (hrest .ok) <| Succeeds.ifM (hrest .preauth) succeeds_parseFail
  refine Succeeds.bind fun _ => succeeds_expectMatch <| succeeds_expectMatch ?_
  exact Succeeds.ifM_of hauth (fun s hs => ensures_parseSuccess fun κ => hs) succeeds_parseFail

/-! ## Whole responses -/

/-- The first alternative of `parse_response` succeeds: what stands at the position is read as a
continuation request. -/
def Continues (s : ResponseParser) : Prop :=
  s.currPos < s.data.length ∧ ∃ s', (do
    savePos
    expect parseContinueReq parseSuccess).run s = .ok (true, s')

/-- `PARSE_SUCCESS` after a method that has established `Q`, which does not look at the stack. -/
lemma ensures_success_of (hpop : ∀ s κ, Q s → Q { s with posStack := κ }) :
    ∀ s, Q s → Ensures parseSuccess s fun b s' => b = true → Q s' :=
  fun s hs => ensures_parseSuccess fun κ => hpop s κ hs

/-- What holds after tagged responses and where a response without a tag is stored holds whenever
`parse_next` succeeds, except after a continuation request, which stores nothing.

**Proof sketch.** The alternatives one after the other: each ends in a success exit behind an
assignment to `parsed_response`. -/
lemma parseNext_success (hpop : ∀ s κ, Q s → Q { s with posStack := κ })
    (htagged : Succeeds parseResponseTagged Q) (huntagged : ∀ s, Untagged s → Q s)
    {s s' : ResponseParser} (h : parseNext.run s = .ok (true, s')) :
    Q s' ∨ Continues s ∧ s'.parsedResponse = s.parsedResponse := by
  have hdone : Succeeds parseResponseDone Q := by
    refine Succeeds.bind fun _ => Succeeds.ifM_of htagged (ensures_success_of hpop) ?_
    exact Succeeds.ifM_of (succeeds_parseResponseFatal.mono huntagged) (ensures_success_of hpop)
      succeeds_parseFail
  have hresponses : Succeeds
      (ifM parseResponseData parseSuccess <| ifM parseResponseDone parseSuccess parseFail) Q := by
    refine Succeeds.ifM_of (succeeds_parseResponseData.mono huntagged) (ensures_success_of hpop) ?_
    exact Succeeds.ifM_of hdone (ensures_success_of hpop) succeeds_parseFail
  have hgreeting : Succeeds (ifM parseGreeting (pure true)
      (throwRuntime "Didn't understand the server's response!")) Q :=
    Succeeds.ifM_of (succeeds_parseGreeting.mono huntagged) (fun s hs => Ensures.pure fun _ => hs)
      (Succeeds.throw _)
  rw [parseNext, run_bind_of_ok (StateT.run_get _)] at h
  split at h
  · cases h
  rename_i hp
  rcases ifM_run_eq_ok h with ⟨s₁, hresponse, hnext⟩ | ⟨s₁, -, hnext⟩
  · cases hnext
    rw [parseResponse, run_bind_eq_ok_iff] at hresponse
    obtain ⟨_, s₀, hsave, hresponse⟩ := hresponse
    rcases ifM_run_eq_ok hresponse with ⟨s₂, hcontinue, hrest⟩ | ⟨s₂, -, hrest⟩
    · refine Or.inr ⟨⟨Nat.not_le.mp hp, s', ?_⟩, ?_⟩
      · rw [run_bind_of_ok hsave, expect, ifM_run_true hcontinue]
        exact hrest
      · rw [frames_parseSuccessWith true _ _ _ hrest, frames_parseContinueReq _ _ _ hcontinue,
          frames_savePos _ _ _ hsave]
    · exact Or.inl (hresponses s₂ true s' hrest rfl)
  · exact Or.inl (hgreeting s₁ true s' hnext rfl)

end Imapcl
