import Imapcl.Parser.Lines
import Imapcl.Parser.Stream

set_option relaxedAutoImplicit false
set_option autoImplicit false

/-!
# Progress

The caller repeats `parse_next` until it answers `false` or aborts. This file shows that the loop
ends: a call that answers `true` has passed over at least one byte and stays inside the data, and no
call runs forever.

## Main definitions

* `Imapcl.Halts`, `Imapcl.Stays` — a method does not loop, and leaves the position inside the data.

## Main results

* `Imapcl.halts_parseNext` — `parse_next` returns or aborts.
* `Imapcl.nonEmpty_parseNext` — a success of `parse_next` has read something.
* `Imapcl.response_loop_terminates` — the loop over a buffer.
-/

namespace Imapcl

open StateExcept Cursor

variable {α β : Type} {ok : α → Bool} {d : Bytes} {q : ℕ} {κ : List ℤ}

/-! ## Methods that end -/

/-- Inside the data the method does not run forever. -/
def Halts (x : Parser α) : Prop := ∀ s, Inside s → Avoids .diverges x s

/-- The method leaves the position inside the data. -/
def Stays (x : Parser α) : Prop := ∀ s, Inside s → Ensures x s fun _ s' => Inside s'

/-- A method that moves forward stays inside the data. -/
lemma Keeps.stays {x : Parser α} (hx : Keeps x) : Stays x := by
  intro s hs
  refine (hx s hs).mono fun a s' h => ?_
  obtain ⟨hd, -, hp⟩ := h
  simp only [↓reduceIte] at hp
  exact ⟨hd ▸ hp.2, hd ▸ hs.2⟩

/-- A method that leaves data and position alone. -/
lemma stays_of_preserves {x : Parser α}
    (hx : Preserves (fun s : ResponseParser => (s.data, s.currPos)) x) : Stays x := by
  intro s hs
  refine (hx s).mono fun a s' h => ?_
  obtain ⟨hd, hp⟩ := Prod.mk.inj h
  exact ⟨by rw [hd, hp]; exact hs.1, by rw [hd]; exact hs.2⟩

namespace Halts

/-- A method that always returns. -/
lemma of_ok {x : Parser α} (h : ∀ s, ∃ a s', x.run s = .ok (a, s')) : Halts x := by
  intro s _ hr
  obtain ⟨a, s', ha⟩ := h s
  cases ha.symm.trans hr

/-- Returning a value. -/
lemma pure (a : α) : Halts (Pure.pure a) := fun _ _ => Avoids.pure

/-- Throwing an exception. -/
lemma throw {ex : StdException} : Halts (MonadExcept.throw (.thrown ex) : Parser α) :=
  fun _ _ => Avoids.throw nofun

/-- One method after another. -/
lemma bind {x : Parser β} {k : β → Parser α} (hx : Halts x) (hstay : Stays x)
    (hk : ∀ b, Halts (k b)) : Halts (x >>= k) :=
  fun s hs => Avoids.bind (hx s hs) ((hstay s hs).mono fun b s' hs' => hk b s' hs')

/-- Reading the state. -/
lemma get {k : ResponseParser → Parser α} (hk : ∀ x, Halts (k x)) :
    Halts (MonadState.get >>= k) :=
  bind (of_ok fun s => ⟨s, s, rfl⟩) (stays_of_preserves Preserves.get) hk

/-- A modification of other components than data and position. -/
lemma modify {f : ResponseParser → ResponseParser} {k : PUnit → Parser α}
    (hf : ∀ s, ((f s).data, (f s).currPos) = (s.data, s.currPos)) (hk : ∀ u, Halts (k u)) :
    Halts (modify f >>= k) :=
  bind (of_ok fun s => ⟨⟨⟩, f s, rfl⟩) (stays_of_preserves (Preserves.modify hf)) hk

/-- A plain branch. -/
lemma ite {c : Prop} [Decidable c] {t e : Parser α} (ht : Halts t) (he : Halts e) :
    Halts (if c then t else e) := by
  split
  · exact ht
  · exact he

/-- A branch on a method. -/
lemma ifM {c : Parser Bool} {t e : Parser α} (hc : Halts c) (htidy : Tidy id c) (ht : Halts t)
    (he : Halts e) : Halts (StateExcept.ifM c t e) :=
  bind hc htidy.keeps.stays fun _ => ite ht he

/-- A nonterminal that saves its position. -/
lemma saved {x : Parser α} (hx : Halts x) : Halts (savePos >>= fun _ => x) :=
  modify (fun _ => rfl) fun _ => hx

/-- `PARSE_FAIL`. -/
lemma fail {a : α} : Halts (parseFailWith a) := by
  rintro ⟨d, p, κ, r, m⟩ _ hr
  cases κ <;> cases hr

/-- `PARSE_SUCCESS`. -/
lemma success {a : α} : Halts (parseSuccessWith a) := by
  rintro ⟨d, p, κ, r, m⟩ _ hr
  cases κ <;> cases hr

/-- `if (!p()) PARSE_FAIL`. -/
lemma expect {c rest : Parser Bool} (hc : Halts c) (htidy : Tidy id c) (hr : Halts rest) :
    Halts (Imapcl.expect c rest) :=
  ifM hc htidy hr fail

/-- `if (!p(x)) PARSE_FAIL`. -/
lemma expectSome {x : Parser (Option β)} {rest : β → Parser Bool} (hx : Halts x)
    (htidy : Tidy Option.isSome x) (hr : ∀ b, Halts (rest b)) :
    Halts (Imapcl.expectSome x rest) :=
  bind hx htidy.keeps.stays fun o => by
    cases o with
    | none => exact fail
    | some b => exact hr b

/-- `while (body());` for a body that moves forward whenever it answers `true`. -/
lemma whileParser {x : Parser Bool} (hx : Halts x)
    (hmove : ∀ s, Inside s → Ensures x s fun b s' => b = true →
      s'.data = s.data ∧ s.currPos < s'.currPos ∧ s'.currPos ≤ s.data.length) :
    Halts (Imapcl.whileParser x) := by
  intro s hs
  refine Avoids.bind nofun fun s₁ s₂ h₁ => ?_
  cases h₁
  refine Avoids.repeatWhile (fun s' => s'.data = s.data ∧ s'.currPos ≤ s.data.length)
    (fun s' => s.data.length - s'.currPos) (fun s' hs' => hx s' ?_) (fun s' hs' => ?_) _ s
    ⟨rfl, hs.1⟩ (by omega)
  · exact ⟨hs'.1 ▸ hs'.2, hs'.1 ▸ hs.2⟩
  · refine (hmove s' ⟨hs'.1 ▸ hs'.2, hs'.1 ▸ hs.2⟩).mono fun b s'' h hb => ?_
    obtain ⟨hd, hp, hin⟩ := h hb
    rw [hs'.1] at hd hin
    exact ⟨⟨hd, hin⟩, by omega⟩

end Halts

/-! ## Elements -/

/-- A substring. -/
lemma halts_substr (i n : ℕ) : Halts (substr i n) :=
  Halts.get fun _ => Halts.ite Halts.throw (Halts.pure _)

/-- A literal match. -/
lemma halts_matchStr (w : Bytes) : Halts (matchStr w) :=
  Halts.get fun _ => Halts.bind (halts_substr _ _) (stays_of_preserves (preserves_substr _ _))
    fun _ => Halts.ite (Halts.of_ok fun _ => ⟨true, _, rfl⟩) (Halts.pure false)

/-- A literal that is required, and what follows it. -/
lemma halts_expectMatch {w : String} {rest : Parser Bool} (hr : Halts rest) :
    Halts (expectMatch w rest) :=
  Halts.expect (halts_matchStr _) (tidy_matchStr _) hr

/-- A line end. -/
lemma halts_matchCrlf : Halts matchCrlf :=
  Halts.saved <| Halts.expect (halts_matchStr _) (tidy_matchStr _) Halts.success

/-- Reading a character is no loop. -/
lemma halts_charAt : Halts charAt := by
  rintro ⟨d, p, κ, r, m⟩ ⟨hp, -⟩ hr
  rw [charAt_run hp] at hr
  cases hr

/-- The scan ends at the terminator. -/
lemma halts_scanWhile (f : UInt8 → Bool) : Halts (scanWhile f) := by
  rintro ⟨d, p, κ, r, m⟩ ⟨hp, -⟩ hr
  rw [scanWhile_run hp] at hr
  cases hr

/-- The search ends at the end of the data. -/
lemma halts_skipTo (c : UInt8) : Halts (skipTo c) := Halts.of_ok fun _ => ⟨(), _, rfl⟩

/-- The digits are scanned once. -/
lemma halts_parseNumber : Halts parseNumber :=
  Halts.saved <| Halts.bind (halts_scanWhile _) (keeps_scanWhile _).stays fun _ =>
    Halts.ite Halts.fail Halts.success

/-- The tag is scanned once. -/
lemma halts_parseTag : Halts parseTag :=
  Halts.bind (halts_scanWhile _) (keeps_scanWhile _).stays fun _ => Halts.pure _

/-- A bracketed word; an unmatched bracket throws. -/
lemma halts_parseBracketed (o c : Char) (what : String) : Halts (parseBracketed o c what) :=
  Halts.expect (halts_matchStr _) (tidy_matchStr _) <|
    Halts.bind (halts_skipTo _) (keeps_skipTo _).stays fun _ => Halts.get fun _ =>
      Halts.ite Halts.throw <| Halts.expect (halts_matchStr _) (tidy_matchStr _) Halts.success

/-! ## Texts -/

/-- `parse_text` ends: each round of its loop moves on, and one that reads beyond the terminator
aborts.

**Proof sketch.** The position stays at most one beyond the terminator, and what is missing to
there decreases. -/
lemma halts_parseText : Halts parseText := by
  have hround : ∀ s : ResponseParser, s.data.length < 2 ^ 31 →
      Avoids .diverges parseTextChar s := by
    rintro ⟨d, p, κ, r, m⟩ - hr
    rcases Nat.lt_or_ge d.length p with hp | hp
    · rw [parseTextChar_run_beyond hp] at hr
      cases hr
    · rw [parseTextChar_run hp] at hr
      split at hr <;> cases hr
  have hmove : ∀ s : ResponseParser, s.data.length < 2 ^ 31 →
      Ensures parseTextChar s fun b s' => s'.data = s.data ∧
        (b = true → s'.currPos = s.currPos + 1 ∧ s.currPos ≤ s.data.length) := by
    intro s hd
    refine (parseTextChar_ensures hd).mono fun b s' h => ⟨h.2.1, ?_⟩
    rintro rfl
    exact ⟨by simpa using h.2.2.2, h.1⟩
  refine Halts.saved fun s hs => ?_
  refine Avoids.bind (hround s hs.2) ((hmove s hs.2).mono fun success s₁ h₁ => ?_)
  have hd₁ : s₁.data.length < 2 ^ 31 := h₁.1 ▸ hs.2
  refine Avoids.bind ?_ fun u s₂ h₂ => ?_
  · refine Avoids.bind nofun fun s' s'' h => ?_
    cases h
    refine Avoids.repeatWhile (fun s' => s'.data = s₁.data)
      (fun s' => s₁.data.length + 1 - s'.currPos) (fun s' hs' => ?_) (fun s' hs' => ?_) _ s₁ rfl
      (by omega)
    · exact hround s' (hs' ▸ hd₁)
    · refine (hmove s' (hs' ▸ hd₁)).mono fun b s'' h hb => ⟨h.1.trans hs', ?_⟩
      obtain ⟨hp, hin⟩ := h.2 hb
      rw [hs'] at hin
      omega
  · obtain ⟨d, p, κ, r, m⟩ := s₂
    intro hr
    cases success <;> cases κ <;> cases hr

/-- A code of a text. -/
lemma halts_parseRespTextCode : Halts parseRespTextCode :=
  Halts.saved <| Halts.ifM (halts_matchStr _) (tidy_matchStr _) Halts.success <|
    Halts.ifM (halts_matchStr _) (tidy_matchStr _)
      (halts_expectMatch <| Halts.expectSome halts_parseNumber tidy_parseNumber fun _ =>
        Halts.success) <|
    Halts.ifM
      (Halts.ifM (halts_matchStr _) (tidy_matchStr _) (Halts.pure true) (halts_matchStr _))
      ((tidy_matchStr _).orElse (tidy_matchStr _)) Halts.success <|
    Halts.bind (halts_skipTo _) (keeps_skipTo _).stays fun _ => Halts.get fun _ => Halts.ite
      (Halts.bind halts_charAt keeps_charAt.stays fun _ => Halts.ite Halts.success Halts.fail)
      Halts.fail

/-- A text with or without a code. -/
lemma halts_parseRespText : Halts parseRespText :=
  have htext := Halts.expect halts_parseText tidy_parseText Halts.success
  Halts.saved <| Halts.ifM (halts_matchStr _) (tidy_matchStr _)
    (Halts.bind (Halts.bind halts_parseRespTextCode tidy_parseRespTextCode.keeps.stays fun _ =>
        Halts.pure _) tidy_parseRespTextCode.keeps.discard.stays fun _ =>
      halts_expectMatch <| halts_expectMatch htext) htext

/-- Storing a response. -/
lemma halts_setResponse (x : Response) {rest : Parser Bool} (hr : Halts rest) :
    Halts (setResponse x >>= fun _ => rest) :=
  Halts.modify (fun _ => rfl) fun _ => hr

/-- The text behind a status word. -/
lemma halts_parseStatusText (type : ResponseType) : Halts (parseStatusText type) :=
  halts_expectMatch <| Halts.get fun _ => Halts.expect halts_parseRespText tidy_parseRespText <|
    Halts.get fun _ => Halts.bind (halts_substr _ _) (keeps_substr _ _).stays fun _ =>
      halts_setResponse _ Halts.success

/-- `BYE` and its text. -/
lemma halts_parseRespCondBye : Halts parseRespCondBye :=
  Halts.saved <| halts_expectMatch (halts_parseStatusText .bye)

/-- `OK`, `NO` or `BAD` and its text. -/
lemma halts_parseRespCondState : Halts parseRespCondState :=
  Halts.saved <| Halts.ifM (halts_matchStr _) (tidy_matchStr _) (halts_parseStatusText .ok) <|
    Halts.ifM (halts_matchStr _) (tidy_matchStr _) (halts_parseStatusText .no) <|
    Halts.ifM (halts_matchStr _) (tidy_matchStr _) (halts_parseStatusText .bad) Halts.fail

/-- Setting the tag of the stored response. -/
lemma halts_setResponseTag (tag : Bytes) : Halts (setResponseTag tag) := by
  rintro ⟨d, p, κ, r, m⟩ _ hr
  cases r with
  | none => cases hr
  | some x =>
    rw [setResponseTag, run_bind_of_ok (StateT.run_get _)] at hr
    cases h : x.setTag tag <;> simp only [h] at hr <;> cases hr

/-- A tagged response. -/
lemma halts_parseResponseTagged : Halts parseResponseTagged :=
  Halts.saved <| Halts.get fun _ => Halts.expect halts_parseTag tidy_parseTag <|
    Halts.get fun _ => Halts.bind (halts_substr _ _) (keeps_substr _ _).stays fun tag =>
      halts_expectMatch <| Halts.expect halts_parseRespCondState tidy_parseRespCondState <|
      Halts.expect halts_matchCrlf tidy_matchCrlf <|
      Halts.bind (halts_setResponseTag tag) (keeps_setResponseTag tag).stays fun _ =>
        Halts.success

/-- A BYE that ends the connection. -/
lemma halts_parseResponseFatal : Halts parseResponseFatal :=
  Halts.saved <| halts_expectMatch <| halts_expectMatch <|
    Halts.expect halts_parseRespCondBye tidy_parseRespCondBye Halts.success

/-- A tagged response or a BYE. -/
lemma halts_parseResponseDone : Halts parseResponseDone :=
  Halts.saved <| Halts.ifM halts_parseResponseTagged tidy_parseResponseTagged Halts.success <|
    Halts.ifM halts_parseResponseFatal tidy_parseResponseFatal Halts.success Halts.fail

/-- A continuation request. -/
lemma halts_parseContinueReq : Halts parseContinueReq :=
  Halts.saved <| halts_expectMatch <| halts_expectMatch <|
    Halts.expect halts_parseRespText tidy_parseRespText <|
    Halts.expect halts_matchCrlf tidy_matchCrlf Halts.success

/-! ## Data -/

/-- A list of flags. -/
lemma halts_parseFlagList : Halts parseFlagList := Halts.saved (halts_parseBracketed _ _ _)

/-- The loop of `parse_message_id_list` ends, since every round passes over a space. -/
lemma halts_messageIdLoop (fuel : ℕ) : ∀ numbers (s : ResponseParser), Inside s →
    s.data.length < fuel + s.currPos → Avoids .diverges (messageIdLoop fuel numbers) s := by
  induction fuel with
  | zero => exact fun _ s hs h => absurd hs.1 (by omega)
  | succ fuel ih =>
    intro numbers s hs hfuel
    refine Avoids.bind (halts_matchStr _ s hs) fun b s₁ h₁ => ?_
    have hs₁ := (tidy_matchStr _).keeps.stays s hs _ _ h₁
    cases b with
    | false => exact Halts.success s₁ hs₁
    | true =>
      obtain ⟨w, v, -, hd₁, hp₁, rfl⟩ := (reads_matchStr _ s hs _ _ h₁ rfl).resolve_left id
      refine Avoids.bind (halts_parseNumber s₁ hs₁) fun o s₂ h₂ => ?_
      have hs₂ := tidy_parseNumber.keeps.stays s₁ hs₁ _ _ h₂
      obtain ⟨hd₂, -, hp₂⟩ := tidy_parseNumber.keeps s₁ hs₁ _ _ h₂
      cases o with
      | none => exact Halts.fail s₂ hs₂
      | some number =>
        refine ih _ s₂ hs₂ ?_
        have hspace : (ascii " ").length = 1 := rfl
        simp only [↓reduceIte] at hp₂
        rw [hd₂, hd₁]
        omega

/-- What the loop is given as fuel is more than the data can hold. -/
lemma halts_parseMessageIdList : Halts parseMessageIdList :=
  Halts.saved fun s hs => Avoids.bind nofun fun s₁ s₂ h => by
    cases h
    exact halts_messageIdLoop _ _ s hs (by omega)

/-- `parse_mailbox` throws. -/
lemma halts_parseMailbox : Halts parseMailbox := by
  have htag : ∀ s, Avoids .diverges parseTag s := by
    rintro ⟨d, p, κ, r, m⟩ hr
    rcases Nat.lt_or_ge d.length p with hp | hp
    · rw [parseTag, scanWhile, bind_assoc, run_bind_of_error (ahead_run_beyond hp)] at hr
      cases hr
    · rw [parseTag, run_bind_of_ok (scanWhile_run hp)] at hr
      cases hr
  have hinbox : Halts regexMatchInbox :=
    Halts.get fun _ => Halts.bind (halts_substr _ _) (keeps_substr _ _).stays fun _ =>
      Halts.ite (Halts.of_ok fun _ => ⟨true, _, rfl⟩) (Halts.pure false)
  intro s hs
  refine Avoids.bind (Avoids.bind (Avoids.bind (hinbox s hs) fun b s' _ => ?_) fun _ _ _ =>
    Avoids.pure) fun _ _ _ => Avoids.throw fun h => by cases h
  cases b with
  | true => exact Avoids.pure
  | false => exact htag s'

/-- The data of a mailbox. -/
lemma halts_parseMailboxData : Halts parseMailboxData :=
  Halts.saved <|
    Halts.ifM (halts_matchStr _) (tidy_matchStr _)
      (halts_expectMatch <| Halts.expect halts_parseFlagList tidy_parseFlagList <|
        halts_setResponse _ Halts.success) <|
    Halts.ifM (halts_matchStr _) (tidy_matchStr _)
      (halts_expectMatch <| Halts.expect (Halts.pure _) (tidy_pure id _) Halts.success) <|
    Halts.ifM (halts_matchStr _) (tidy_matchStr _)
      (halts_expectMatch <| Halts.expect (Halts.pure _) (tidy_pure id _) Halts.success) <|
    Halts.ifM (halts_matchStr _) (tidy_matchStr _)
      (Halts.expectSome halts_parseMessageIdList tidy_parseMessageIdList fun _ =>
        halts_setResponse _ Halts.success) <|
    Halts.ifM (halts_matchStr _) (tidy_matchStr _)
      (halts_expectMatch <| Halts.expect halts_parseMailbox tidy_parseMailbox <|
        halts_expectMatch <| halts_expectMatch Halts.throw) <|
    Halts.expectSome halts_parseNumber tidy_parseNumber fun _ => halts_expectMatch <|
      Halts.ifM (halts_matchStr _) (tidy_matchStr _) (halts_setResponse _ Halts.success) <|
      Halts.ifM (halts_matchStr _) (tidy_matchStr _) (halts_setResponse _ Halts.success)
        Halts.fail

/-- The flags of a message. -/
lemma halts_parseMsgAttDynamic : Halts parseMsgAttDynamic :=
  Halts.saved <| halts_expectMatch <| halts_expectMatch <| halts_parseBracketed _ _ _

/-- A section. -/
lemma halts_parseSection : Halts parseSection := Halts.saved (halts_parseBracketed _ _ _)

/-- The copy of a literal ends, whatever its length. -/
lemma halts_readLiteral (length : ℤ) : Halts (readLiteral length) := by
  rintro ⟨d, p, κ, r, m⟩ - hr
  rw [readLiteral, run_bind_of_ok (StateT.run_get _)] at hr
  split at hr
  · cases hr
  · rw [run_bind_of_ok (StateT.run_set _ _)] at hr
    split at hr
    · cases hr
    · rcases Nat.lt_or_ge d.length (toSizeT (p + length)) with hp | hp
      · rw [run_bind_of_error (charAt_run_beyond hp)] at hr
        cases hr
      · rw [run_bind_of_ok (charAt_run hp)] at hr
        split at hr
        · cases hr
        · cases κ <;> cases hr

/-- A literal. -/
lemma halts_parseLiteral : Halts parseLiteral :=
  Halts.saved <| halts_expectMatch <|
    Halts.bind halts_parseNumber tidy_parseNumber.keeps.stays fun _ => halts_expectMatch <|
      Halts.expect halts_matchCrlf tidy_matchCrlf (halts_readLiteral _)

/-- A string. -/
lemma halts_parseString : Halts parseString :=
  Halts.saved <| Halts.expect halts_parseLiteral tidy_parseLiteral Halts.success

/-- A string or `NIL`. -/
lemma halts_parseNstring : Halts parseNstring :=
  Halts.saved <| Halts.ifM (halts_matchStr _) (tidy_matchStr _)
    (Halts.modify (fun _ => rfl) fun _ => Halts.fail)
    (Halts.expect halts_parseString tidy_parseString Halts.success)

/-- An attribute other than the flags. -/
lemma halts_parseMsgAttStatic : Halts parseMsgAttStatic :=
  Halts.saved <|
    Halts.ifM (halts_matchStr _) (tidy_matchStr _) Halts.throw <|
    Halts.ifM (halts_matchStr _) (tidy_matchStr _) Halts.throw <|
    Halts.ifM (halts_matchStr _) (tidy_matchStr _) Halts.throw <|
    Halts.ifM (halts_matchStr _) (tidy_matchStr _) Halts.throw <|
    Halts.ifM (halts_matchStr _) (tidy_matchStr _)
      (Halts.ifM (halts_matchStr _) (tidy_matchStr _) Halts.throw <|
        Halts.ifM (halts_matchStr _) (tidy_matchStr _) Halts.throw <|
        Halts.ifM halts_parseSection tidy_parseSection
          (Halts.ifM (halts_matchStr _) (tidy_matchStr _) Halts.throw <|
            halts_expectMatch <| Halts.expect halts_parseNstring tidy_parseNstring Halts.success)
          Halts.fail) <|
    Halts.ifM (halts_matchStr _) (tidy_matchStr _)
      (halts_expectMatch <| Halts.expectSome halts_parseNumber tidy_parseNumber fun _ =>
        Halts.success)
      Halts.fail

/-- One attribute. -/
lemma halts_parseMsgAttItem : Halts parseMsgAttItem :=
  Halts.ifM halts_parseMsgAttDynamic tidy_parseMsgAttDynamic (Halts.pure true)
    halts_parseMsgAttStatic

/-- A round of the loop of `parse_msg_att` that answers `true` passes over a space. -/
lemma msgAttRound_moves (s : ResponseParser) (hs : Inside s) :
    Ensures (ifM (matchStr (ascii " ")) parseMsgAttItem (pure false)) s fun b s' => b = true →
      s'.data = s.data ∧ s.currPos < s'.currPos ∧ s'.currPos ≤ s.data.length := by
  refine Ensures.bind fun b s₁ h₁ => ?_
  cases b with
  | false => exact Ensures.pure nofun
  | true =>
    have hs₁ := (tidy_matchStr _).keeps.stays s hs _ _ h₁
    obtain ⟨w, v, -, hd₁, hp₁, rfl⟩ := (reads_matchStr _ s hs _ _ h₁ rfl).resolve_left id
    have hspace : (ascii " ").length = 1 := rfl
    refine (tidy_parseMsgAttItem.keeps s₁ hs₁).mono fun b s' h _ => ?_
    obtain ⟨hd, -, hp⟩ := h
    simp only [↓reduceIte] at hp
    rw [hd₁] at hd hp
    exact ⟨hd, by omega, hp.2⟩

/-- The loop over the attributes ends, since every round passes over a space. -/
lemma halts_parseMsgAtt : Halts parseMsgAtt :=
  Halts.saved <| halts_expectMatch <| Halts.expect halts_parseMsgAttItem tidy_parseMsgAttItem <|
    Halts.bind
      (Halts.whileParser (Halts.ifM (halts_matchStr _) (tidy_matchStr _) halts_parseMsgAttItem
        (Halts.pure false)) msgAttRound_moves)
      keeps_msgAttRound.whileParser.stays fun _ => halts_expectMatch Halts.success

/-- The data of a message. -/
lemma halts_parseMessageData : Halts parseMessageData :=
  Halts.saved <| Halts.expectSome halts_parseNumber tidy_parseNumber fun _ => halts_expectMatch <|
    Halts.ifM (halts_matchStr _) (tidy_matchStr _) Halts.throw <|
    Halts.ifM (halts_matchStr _) (tidy_matchStr _)
      (Halts.modify (fun _ => rfl) fun _ => halts_expectMatch <|
        Halts.expect halts_parseMsgAtt tidy_parseMsgAtt <| Halts.get fun _ =>
          halts_setResponse _ Halts.success)
      Halts.fail

/-! ## Responses -/

/-- An untagged response. -/
lemma halts_parseResponseData : Halts parseResponseData :=
  have hcrlf := Halts.expect halts_matchCrlf tidy_matchCrlf Halts.success
  have hstatus := Halts.bind (halts_setResponseTag []) (keeps_setResponseTag []).stays
    fun _ => hcrlf
  Halts.saved <| halts_expectMatch <| halts_expectMatch <|
    Halts.ifM halts_parseRespCondState tidy_parseRespCondState hstatus <|
    Halts.ifM halts_parseRespCondBye tidy_parseRespCondBye hstatus <|
    Halts.ifM halts_parseMailboxData tidy_parseMailboxData hcrlf <|
    Halts.ifM halts_parseMessageData tidy_parseMessageData hcrlf Halts.fail

/-- A response. -/
lemma halts_parseResponse : Halts parseResponse :=
  Halts.saved <| Halts.ifM halts_parseContinueReq tidy_parseContinueReq Halts.success <|
    Halts.ifM halts_parseResponseData tidy_parseResponseData Halts.success <|
    Halts.ifM halts_parseResponseDone tidy_parseResponseDone Halts.success Halts.fail

/-- A greeting. -/
lemma halts_parseGreeting : Halts parseGreeting :=
  have hrest : ∀ type, Halts (expectMatch " " <| expect parseRespText do
      setResponse (.status type [] [])
      parseSuccess) := fun _ =>
    halts_expectMatch <| Halts.expect halts_parseRespText tidy_parseRespText <|
      halts_setResponse _ Halts.success
  have hauth : Halts parseRespCondAuth :=
    Halts.saved <| Halts.ifM (halts_matchStr _) (tidy_matchStr _) (hrest .ok) <|
      Halts.ifM (halts_matchStr _) (tidy_matchStr _) (hrest .preauth) Halts.fail
  Halts.saved <| halts_expectMatch <| halts_expectMatch <|
    Halts.expect hauth tidy_parseRespCondAuth Halts.success

/-- `parse_next` returns or aborts. -/
theorem halts_parseNext : Halts parseNext :=
  Halts.get fun _ => Halts.ite (Halts.pure false) <|
    Halts.ifM halts_parseResponse tidy_parseResponse (Halts.pure true) <|
    Halts.ifM halts_parseGreeting tidy_parseGreeting (Halts.pure true) Halts.throw

/-! ## Progress -/

/-- A tidy method moves over some word. -/
lemma Tidy.reads {x : Parser α} (hx : Tidy ok x) : Reads ok x fun _ _ => True := by
  intro s hs
  refine (hx s hs).mono fun a s' h ha => Or.inr ?_
  obtain ⟨hd, -, hp⟩ := h
  rw [ha, if_pos rfl] at hp
  refine ⟨(s.data.drop s.currPos).take (s'.currPos - s.currPos),
    (s.data.drop s.currPos).drop (s'.currPos - s.currPos), ⟨hs.1, ?_⟩, hd, ?_, trivial⟩
  · rw [List.take_append_drop]
  · rw [List.length_take, List.length_drop]
    omega

/-- The language of words that are not empty. -/
def NonEmpty (w _v : Bytes) : Prop := w ≠ []

/-- A method that first matches a character has read something. -/
lemma reads_nonEmpty {a : String} {rest : Parser Bool} (ha : ascii a ≠ [])
    (hr : Reads id rest fun _ _ => True) :
    Reads id (savePos >>= fun _ => expectMatch a rest) NonEmpty := by
  refine ReadsUnless.mono (ReadsUnless.saved (reads_expectMatch hr)) ?_
  rintro w v ⟨_, _, rfl, rfl, -⟩ h
  exact ha (List.append_eq_nil_iff.mp h).1

/-- One word after another is some word. -/
lemma Reads.any {x : Parser α} {L : Bytes → Bytes → Prop} (hx : Reads ok x L) :
    Reads ok x fun _ _ => True :=
  hx.mono fun _ _ _ => trivial

/-- `parse_response_data` reads something. -/
lemma nonEmpty_parseResponseData : Reads id parseResponseData NonEmpty :=
  reads_nonEmpty (by decide) <| Reads.any <| reads_expectMatch <|
    ReadsUnless.ifM reads_parseRespCondState tidy_parseRespCondState
      (ReadsUnless.still (preserves_setResponseTag []) fun _ => ReadsUnless.last reads_matchCrlf) <|
    ReadsUnless.ifM reads_parseRespCondBye tidy_parseRespCondBye
      (ReadsUnless.still (preserves_setResponseTag []) fun _ => ReadsUnless.last reads_matchCrlf) <|
    ReadsUnless.ifM reads_parseMailboxData tidy_parseMailboxData
      (ReadsUnless.last reads_matchCrlf) <|
    ReadsUnless.ifM tidy_parseMessageData.reads tidy_parseMessageData
      (ReadsUnless.last reads_matchCrlf) <| ReadsUnless.fail (L := fun _ _ => True) rfl

/-- `parse_response_done` reads something. -/
lemma nonEmpty_parseResponseDone : Reads id parseResponseDone NonEmpty := by
  refine ReadsUnless.mono (ReadsUnless.saved <|
    ReadsUnless.ifM reads_parseResponseTagged tidy_parseResponseTagged ReadsUnless.success <|
    ReadsUnless.ifM (reads_nonEmpty (by decide) <| Reads.any <| reads_expectMatch <|
      ReadsUnless.last reads_parseRespCondBye) tidy_parseResponseFatal ReadsUnless.success <|
    ReadsUnless.fail (L := fun _ _ => False) rfl) ?_
  rintro w v (⟨_, _, rfl, ⟨tag, c, t, -, rfl⟩, rfl⟩ | ⟨_, _, rfl, hne, rfl⟩ | hf)
  · simp [NonEmpty, tag.nonempty]
  · simpa [NonEmpty] using hne
  · exact hf.elim

/-- `parse_response` reads something. -/
lemma nonEmpty_parseResponse : Reads id parseResponse NonEmpty := by
  refine ReadsUnless.mono (ReadsUnless.saved <|
    ReadsUnless.ifM reads_parseContinueReq tidy_parseContinueReq ReadsUnless.success <|
    ReadsUnless.ifM nonEmpty_parseResponseData tidy_parseResponseData ReadsUnless.success <|
    ReadsUnless.ifM nonEmpty_parseResponseDone tidy_parseResponseDone ReadsUnless.success <|
    ReadsUnless.fail (L := fun _ _ => False) rfl) ?_
  rintro w v (⟨_, _, rfl, ⟨t, -, rfl⟩, rfl⟩ | ⟨_, _, rfl, hne, rfl⟩ | ⟨_, _, rfl, hne, rfl⟩ | hf)
  · simp [NonEmpty, ascii]
  · simpa [NonEmpty] using hne
  · simpa [NonEmpty] using hne
  · exact hf.elim

/-- `parse_next` reads something, where it answers `true`. -/
theorem nonEmpty_parseNext : Reads id parseNext NonEmpty := by
  have hfalse : Reads id (pure false) NonEmpty := fun s _ => Ensures.pure nofun
  have htrue : Reads id (pure true) (Word []) := fun s hs =>
    Ensures.pure fun _ => Or.inr (Passed.still hs rfl rfl)
  refine ReadsUnless.get fun s => ReadsUnless.ite hfalse ?_
  refine ReadsUnless.mono (ReadsUnless.ifM nonEmpty_parseResponse tidy_parseResponse htrue <|
    ReadsUnless.ifM reads_parseGreeting tidy_parseGreeting htrue <|
    ReadsUnless.throw (L := fun _ _ => False)) ?_
  rintro w v (⟨_, _, rfl, hne, rfl⟩ | ⟨_, _, rfl, ⟨kind, t, -, -, rfl⟩, rfl⟩ | hf)
  · simpa [NonEmpty] using hne
  · simp [NonEmpty, ascii]
  · exact hf.elim

/-- A call that answers `true` moves forward, inside the data. -/
lemma parseNext_advances {s s' : ResponseParser} (hd : s.data.length < 2 ^ 31)
    (h : parseNext.run s = .ok (true, s')) :
    s'.data = s.data ∧ s.currPos < s'.currPos ∧ s'.currPos ≤ s.data.length := by
  have hp : s.currPos ≤ s.data.length := by
    by_contra hlt
    rw [parseNext, run_bind_of_ok (StateT.run_get _), if_pos (by omega)] at h
    cases h
  obtain ⟨w, v, hat, hd', hp', hne⟩ := (nonEmpty_parseNext s ⟨hp, hd⟩ _ _ h rfl).resolve_left id
  have hpos := List.length_pos_iff.mpr hne
  exact ⟨hd', by omega, hp' ▸ hat.skip.1⟩

/-- A call ends, wherever the position is. -/
lemma parseNext_avoids {s : ResponseParser} (hd : s.data.length < 2 ^ 31) :
    Avoids .diverges parseNext s := by
  rcases Nat.lt_or_ge s.data.length s.currPos with hp | hp
  · rw [Avoids, parseNext, run_bind_of_ok (StateT.run_get _), if_pos (Nat.le_of_lt hp)]
    exact Avoids.pure
  · exact halts_parseNext s ⟨hp, hd⟩

/-! ## The main result -/

/-- The loop ends, with no more rounds that answer `true` than there are bytes left.

**Proof sketch.** Induction on the fuel: a round that answers `true` leaves fewer bytes. -/
lemma parseAll_ends (fuel : ℕ) : ∀ s : ResponseParser, s.data.length < 2 ^ 31 →
    s.data.length - s.currPos < fuel →
      (parseAll fuel s).1.length ≤ s.data.length - s.currPos ∧
        (parseAll fuel s).2 ≠ .error .diverges := by
  induction fuel with
  | zero => exact fun s _ h => absurd h (Nat.not_lt_zero _)
  | succ fuel ih =>
    intro s hd hfuel
    rcases h : parseNext.run { s with parsedResponse := none } with e | ⟨b, s'⟩
    · rw [parseAll_error h]
      refine ⟨Nat.zero_le _, fun he => ?_⟩
      obtain rfl := Except.error.inj he
      exact parseNext_avoids (s := { s with parsedResponse := none }) hd h
    · cases b with
      | false =>
        rw [parseAll_end h]
        exact ⟨Nat.zero_le _, nofun⟩
      | true =>
        obtain ⟨hd', hp, hin⟩ := parseNext_advances (s := { s with parsedResponse := none }) hd h
        simp only at hd' hp hin
        obtain ⟨hlen, hne⟩ := ih s' (hd' ▸ hd) (by rw [hd']; omega)
        rw [parseAll_next h]
        refine ⟨?_, hne⟩
        rw [List.length_cons]
        rw [hd'] at hlen
        omega

/-- **The response loop terminates.** On data shorter than `2 ^ 31`, a call of `parse_next` returns
or aborts, and where it answers `true` it has moved forward and stays inside the data; the loop over
such a buffer makes at most as many rounds that answer `true` as the buffer has bytes, before a
round answers `false`, throws, or reads beyond the data.

**Proof sketch.** Every alternative starts with a character that is matched and is not given back,
and a literal whose length has wrapped to a negative number throws. So a round leaves fewer bytes;
the loops inside of a call decrease the number of bytes left in the same way. -/
theorem response_loop_terminates (data : Bytes) (hlen : data.length < 2 ^ 31) :
    (∀ s s' : ResponseParser, s.data = data → parseNext.run s = .ok (true, s') →
        s.currPos < s'.currPos ∧ s'.currPos ≤ data.length) ∧
      (∀ s : ResponseParser, s.data = data → parseNext.run s ≠ .error .diverges) ∧
      (parseBuffer data).1.length ≤ data.length ∧ (parseBuffer data).2 ≠ .error .diverges := by
  refine ⟨?_, ?_, parseAll_ends _ (.ofData data) hlen (by simp [ResponseParser.ofData])⟩
  · rintro s s' rfl h
    exact (parseNext_advances hlen h).2
  · rintro s rfl
    exact parseNext_avoids hlen

/-- A literal whose length is the numeral of `2 ^ 32 - 1`, which wraps to `-1`. -/
theorem response_loop_terminates_wrapped :
    (parseBuffer (ascii "* 1 FETCH (BODY[] \x7b4294967295\x7d\r\n")).1.length ≤ 32 ∧
      (parseBuffer (ascii "* 1 FETCH (BODY[] \x7b4294967295\x7d\r\n")).2 ≠ .error .diverges :=
  (response_loop_terminates (ascii "* 1 FETCH (BODY[] \x7b4294967295\x7d\r\n")
    (by decide +kernel)).2.2

end Imapcl
