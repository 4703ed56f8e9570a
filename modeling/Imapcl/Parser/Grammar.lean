import Imapcl.Parser.Machine

set_option relaxedAutoImplicit false
set_option autoImplicit false

/-!
# The nonterminals

The methods of `ResponseParser` (`response_parser.cpp`) in the order of the source. Each is its
source function with the macros replaced by `Imapcl.expect` and its relatives and `if`/`else if`
chains by `StateExcept.ifM`.

## Design

* A method with an out-parameter `int &number` or `std::vector<uint32_t> &numbers` returns an
  option: `none` is the verdict `false`, after which no caller reads the parameter, except that
  `parse_literal` reads the `0` that a failed `parse_number` leaves behind.
* A loop that only scans (`isdigit`, `isalnum`, up to a closing bracket) is the longest prefix of
  the bytes ahead; a loop that calls other methods is `StateExcept.repeatWhile`, with more fuel
  than there are positions in the data.
* The methods from `parse_string` to `parse_next` have the method that they call for a literal as a
  parameter, which is `parse_literal` unless another one is given.
* `parse_quoted`, `parse_astring` and `regex_match` for other patterns are not called and are left
  out.

## Main definitions

* `Imapcl.parseResponse`, `Imapcl.parseGreeting`, `Imapcl.parseNext` — the entry points.
-/

namespace Imapcl

open StateExcept

/-! ## Loops and verdicts -/

/-- `while (body());` for a body that reads the data. -/
def whileParser (body : Parser Bool) : Parser Unit := do
  let s ← get
  repeatWhile .diverges body (s.data.length + 2)

/-- `if (!p(x)) PARSE_FAIL`, followed by `rest` with the value that `p` stored in `x`. -/
def expectSome {α : Type} (p : Parser (Option α)) (rest : α → Parser Bool) : Parser Bool := do
  match ← p with
  | none => parseFail
  | some x => rest x

/-- `while (f(data[curr_pos])) curr_pos += 1;` with the bytes it passes over. -/
def scanWhile (f : UInt8 → Bool) : Parser Bytes := do
  let w := (← ahead).takeWhile f
  advance w.length
  pure w

/-- Scanning passes over the longest prefix of the bytes ahead. -/
lemma scanWhile_run {f : UInt8 → Bool} {d : Bytes} {p : ℕ} {κ : List ℤ} {r : Option Response}
    {m : Bytes} (hp : p ≤ d.length) :
    (scanWhile f).run ⟨d, p, κ, r, m⟩ = .ok ((d.drop p).takeWhile f,
      ⟨d, p + ((d.drop p).takeWhile f).length, κ, r, m⟩) := by
  simp only [scanWhile]
  rw [run_bind_of_ok (ahead_run hp)]
  rfl

/-- `while (curr_pos < data.size()) { if (data[curr_pos] == c) break; else curr_pos++; }` -/
def skipTo (c : UInt8) : Parser Unit := do
  let s ← get
  advance ((s.data.drop s.currPos).takeWhile (· ≠ c)).length

/-! ## Lexical elements -/

/-- `match_crlf`. -/
def matchCrlf : Parser Bool := do
  savePos
  expect (matchStr crlf) parseSuccess

/-- One round of the loop of `parse_number`: `number *= 10; number += c - '0'`. -/
def accumulate (number : ℤ) (c : UInt8) : ℤ := wrap32 (wrap32 (number * 10) + (c.toNat - 48))

/-- `parse_number`. -/
def parseNumber : Parser (Option ℤ) := do
  savePos
  let digits ← scanWhile isDigit
  if digits = [] then parseFailWith none
  else parseSuccessWith (some (digits.foldl accumulate 0))

/-- `parse_tag`. -/
def parseTag : Parser Bool := do
  let tag ← scanWhile isAlnum
  pure (tag ≠ [])

/-- `parse_text_char`. -/
def parseTextChar : Parser Bool := do
  savePos
  let c ← charAt
  if c = cr ∨ c = lf then parseFail
  else do
    advance 1
    parseSuccess

/-- `parse_text_char` inside the data; the character at the end is the terminator. -/
lemma parseTextChar_run {d : Bytes} {p : ℕ} {κ : List ℤ} {r : Option Response} {m : Bytes}
    (hp : p ≤ d.length) : parseTextChar.run ⟨d, p, κ, r, m⟩ =
      if (d.drop p).headD 0 = cr ∨ (d.drop p).headD 0 = lf
      then .ok (false, ⟨d, toSizeT (wrap32 p), κ, r, m⟩)
      else .ok (true, ⟨d, p + 1, κ, r, m⟩) := by
  rw [parseTextChar, run_bind_of_ok savePos_run, run_bind_of_ok (charAt_run hp)]
  split <;> rfl

/-- `parse_text_char` beyond the terminator. -/
lemma parseTextChar_run_beyond {d : Bytes} {p : ℕ} {κ : List ℤ} {r : Option Response} {m : Bytes}
    (hp : d.length < p) : parseTextChar.run ⟨d, p, κ, r, m⟩ = .error .undefined := by
  rw [parseTextChar, run_bind_of_ok savePos_run, run_bind_of_error (charAt_run_beyond hp)]

/-- `parse_text`. -/
def parseText : Parser Bool := do
  savePos
  let success ← parseTextChar
  whileParser parseTextChar
  if success then parseSuccess else parseFail

/-! ## Status responses -/

/-- `parse_resp_text_code`. -/
def parseRespTextCode : Parser Bool := do
  savePos
  ifM (matchStr (ascii "ALERT")) parseSuccess <|
    ifM (matchStr (ascii "UNSEEN"))
      (expectMatch " " <| expectSome parseNumber fun _ => parseSuccess) <|
    ifM (ifM (matchStr (ascii "READ-ONLY")) (pure true) (matchStr (ascii "READ-WRITE")))
      parseSuccess <| do
    skipTo (byte ']')
    let s ← get
    if s.currPos < s.data.length then do
      if (← charAt) = byte ']' then parseSuccess else parseFail
    else parseFail

/-- `parse_resp_text`. The verdict of `parse_resp_text_code` is ignored. -/
def parseRespText : Parser Bool := do
  savePos
  ifM (matchStr (ascii "["))
    (do
      discard parseRespTextCode
      expectMatch "]" <| expectMatch " " <| expect parseText parseSuccess)
    (expect parseText parseSuccess)

/-- What `parse_resp_cond_bye` and `parse_resp_cond_state` do after the status word: a space and
a text, stored in a status response without a tag. -/
def parseStatusText (type : ResponseType) : Parser Bool :=
  expectMatch " " do
    let textStart := (← get).currPos
    expect parseRespText do
      let responseText ← substr textStart (subSizeT (← get).currPos textStart)
      setResponse (.status type [] responseText)
      parseSuccess

/-- `parse_resp_cond_bye`. -/
def parseRespCondBye : Parser Bool := do
  savePos
  expectMatch "BYE" (parseStatusText .bye)

/-- `parse_resp_cond_state`. -/
def parseRespCondState : Parser Bool := do
  savePos
  ifM (matchStr (ascii "OK")) (parseStatusText .ok) <|
    ifM (matchStr (ascii "NO")) (parseStatusText .no) <|
    ifM (matchStr (ascii "BAD")) (parseStatusText .bad) parseFail

/-- `parse_response_tagged`. -/
def parseResponseTagged : Parser Bool := do
  savePos
  let tagStart := (← get).currPos
  expect parseTag do
    let tag ← substr tagStart (subSizeT (← get).currPos tagStart)
    expectMatch " " <| expect parseRespCondState <| expect matchCrlf do
      setResponseTag tag
      parseSuccess

/-- `parse_response_fatal`. It stops before the CRLF that its grammar comment asks for. -/
def parseResponseFatal : Parser Bool := do
  savePos
  expectMatch "*" <| expectMatch " " <| expect parseRespCondBye parseSuccess

/-- `parse_response_done`. -/
def parseResponseDone : Parser Bool := do
  savePos
  ifM parseResponseTagged parseSuccess <| ifM parseResponseFatal parseSuccess parseFail

/-- `parse_continue_req`. It stores no response. -/
def parseContinueReq : Parser Bool := do
  savePos
  expectMatch "+" <| expectMatch " " <| expect parseRespText <| expect matchCrlf parseSuccess

/-! ## Mailbox data -/

/-- What `parse_flag_list`, `parse_msg_att_dynamic` and `parse_section` share: an opening bracket
and everything up to the first closing one; `what` is thrown where the data ends before it. -/
def parseBracketed (opening closing : Char) (what : String) : Parser Bool :=
  expect (matchStr [byte opening]) do
    skipTo (byte closing)
    let s ← get
    if s.data.length ≤ s.currPos then throwRuntime what
    else expect (matchStr [byte closing]) parseSuccess

/-- `parse_flag_list`. -/
def parseFlagList : Parser Bool := do
  savePos
  parseBracketed '(' ')' "Didn't understand the server's response!"

/-- `parse_mailbox_list`. -/
def parseMailboxList : Parser Bool := pure false

/-- The loop of `parse_message_id_list`, with the numbers read so far. -/
def messageIdLoop : ℕ → List UInt32 → Parser (Option (List UInt32))
  | 0, _ => throw .diverges
  | fuel + 1, numbers =>
    ifM (matchStr (ascii " "))
      (do
        match ← parseNumber with
        | none => parseFailWith none
        | some number => messageIdLoop fuel (numbers ++ [UInt32.ofInt number]))
      (parseSuccessWith (some numbers))

/-- `parse_message_id_list`. -/
def parseMessageIdList : Parser (Option (List UInt32)) := do
  savePos
  messageIdLoop ((← get).data.length + 2) []

/-- ASCII letters in upper case, for the pattern flag `icase`. -/
def toUpper (c : UInt8) : UInt8 := if 97 ≤ c ∧ c ≤ 122 then c - 32 else c

/-- `regex_match(std::regex("^INBOX", std::regex_constants::icase))`. -/
def regexMatchInbox : Parser Bool := do
  let s ← get
  if ((← substr s.currPos s.data.length).take 5).map toUpper = ascii "INBOX" then do
    advance 5
    pure true
  else pure false

/-- `parse_mailbox`. -/
def parseMailbox : Parser Bool := do
  discard (ifM regexMatchInbox (pure true) parseTag)
  throwLogic "Not implemented."

/-- `parse_mailbox_data`. -/
def parseMailboxData : Parser Bool := do
  savePos
  ifM (matchStr (ascii "FLAGS"))
      (expectMatch " " <| expect parseFlagList do
        setResponse .flags
        parseSuccess) <|
    ifM (matchStr (ascii "LIST")) (expectMatch " " <| expect parseMailboxList parseSuccess) <|
    ifM (matchStr (ascii "LSUB")) (expectMatch " " <| expect parseMailboxList parseSuccess) <|
    ifM (matchStr (ascii "SEARCH"))
      (expectSome parseMessageIdList fun ids => do
        setResponse (.search ids)
        parseSuccess) <|
    ifM (matchStr (ascii "STATUS"))
      (expectMatch " " <| expect parseMailbox <| expectMatch " " <| expectMatch "(" <|
        throwLogic "Not implemented.") <|
    expectSome parseNumber fun number => expectMatch " " <|
      ifM (matchStr (ascii "EXISTS"))
        (do
          setResponse (.singleNumber .exists (UInt32.ofInt number))
          parseSuccess) <|
      ifM (matchStr (ascii "RECENT"))
        (do
          setResponse (.singleNumber .recent (UInt32.ofInt number))
          parseSuccess)
        parseFail

/-! ## Message data -/

/-- `parse_msg_att_dynamic`. -/
def parseMsgAttDynamic : Parser Bool := do
  savePos
  expectMatch "FLAGS" <| expectMatch " " <| parseBracketed '(' ')' "Unmatched bracket."

/-- `parse_section`. -/
def parseSection : Parser Bool := do
  savePos
  parseBracketed '[' ']' "Unmatched bracket."

/-- The body of `parse_literal` after its header: `length` bytes are copied, reading at most the
terminator of the data, and skipped. The string built for the log line takes the next character,
a signed `char`, as its length. -/
def readLiteral (length : ℤ) : Parser Bool := do
  let s ← get
  if s.data.length + 1 < s.currPos + length.toNat then throw .undefined
  else do
    let parsedLiteral := (s.data.drop s.currPos ++ [0]).take length.toNat
    set { s with currPos := toSizeT (s.currPos + length), messageContents := parsedLiteral }
    if parsedLiteral.length < toSizeT length then
      throwRuntime "Error: Literal string received from server shorter than expected!"
    else if 128 ≤ (← charAt) then throw (.thrown .lengthError)
    else parseSuccess

/-- `parse_literal`. A failed `parse_number` leaves the length `0`. -/
def parseLiteral : Parser Bool := do
  savePos
  expectMatch "\x7b" do
    let length := (← parseNumber).getD 0
    expectMatch "\x7d" <| expect matchCrlf <| readLiteral length

/-- `parse_string`. -/
def parseString (literal : Parser Bool := parseLiteral) : Parser Bool := do
  savePos
  expect literal parseSuccess

/-- `parse_nstring`. The branch of `NIL` runs into the failure at the end of the function. -/
def parseNstring (literal : Parser Bool := parseLiteral) : Parser Bool := do
  savePos
  ifM (matchStr (ascii "NIL"))
    (do
      setContents []
      parseFail)
    (expect (parseString literal) parseSuccess)

/-- `parse_msg_att_static`. -/
def parseMsgAttStatic (literal : Parser Bool := parseLiteral) : Parser Bool := do
  savePos
  ifM (matchStr (ascii "ENVELOPE")) (throwLogic "Not implemented") <|
    ifM (matchStr (ascii "INTERNALDATE")) (throwLogic "Not implemented") <|
    ifM (matchStr (ascii "RFC822")) (throwLogic "Not implemented") <|
    ifM (matchStr (ascii "RFC822.SIZE")) (throwLogic "Not implemented") <|
    ifM (matchStr (ascii "BODY"))
      (ifM (matchStr (ascii "STRUCTURE")) (throwLogic "Not implemented") <|
        ifM (matchStr (ascii " ")) (throwLogic "Not implemented") <|
        ifM parseSection
          (ifM (matchStr (ascii "<")) (throwLogic "Not implemented") <|
            expectMatch " " <| expect (parseNstring literal) parseSuccess)
          parseFail) <|
    ifM (matchStr (ascii "UID"))
      (expectMatch " " <| expectSome parseNumber fun _ => parseSuccess)
      parseFail

/-- One attribute of `parse_msg_att`. -/
def parseMsgAttItem (literal : Parser Bool := parseLiteral) : Parser Bool :=
  ifM parseMsgAttDynamic (pure true) (parseMsgAttStatic literal)

/-- `parse_msg_att`. The loop ends where no space follows, and also where no attribute follows the
space. -/
def parseMsgAtt (literal : Parser Bool := parseLiteral) : Parser Bool := do
  savePos
  expectMatch "(" <| expect (parseMsgAttItem literal) do
    whileParser (ifM (matchStr (ascii " ")) (parseMsgAttItem literal) (pure false))
    expectMatch ")" parseSuccess

/-- `parse_message_data`. -/
def parseMessageData (literal : Parser Bool := parseLiteral) : Parser Bool := do
  savePos
  expectSome parseNumber fun _ => expectMatch " " <|
    ifM (matchStr (ascii "EXPUNGE")) (throwLogic "Not implemented") <|
    ifM (matchStr (ascii "FETCH"))
      (do
        setContents []
        expectMatch " " <| expect (parseMsgAtt literal) do
          setResponse (.fetch (← get).messageContents)
          parseSuccess)
      parseFail

/-! ## Responses -/

/-- `parse_response_data`. -/
def parseResponseData (literal : Parser Bool := parseLiteral) : Parser Bool := do
  savePos
  expectMatch "*" <| expectMatch " " <|
    ifM parseRespCondState
      (do
        setResponseTag []
        expect matchCrlf parseSuccess) <|
    ifM parseRespCondBye
      (do
        setResponseTag []
        expect matchCrlf parseSuccess) <|
    ifM parseMailboxData (expect matchCrlf parseSuccess) <|
    ifM (parseMessageData literal) (expect matchCrlf parseSuccess) parseFail

/-- `parse_response`. -/
def parseResponse (literal : Parser Bool := parseLiteral) : Parser Bool := do
  savePos
  ifM parseContinueReq parseSuccess <|
    ifM (parseResponseData literal) parseSuccess <|
    ifM parseResponseDone parseSuccess parseFail

/-- `parse_resp_cond_auth`. -/
def parseRespCondAuth : Parser Bool := do
  savePos
  let rest (type : ResponseType) : Parser Bool :=
    expectMatch " " <| expect parseRespText do
      setResponse (.status type [] [])
      parseSuccess
  ifM (matchStr (ascii "OK")) (rest .ok) <|
    ifM (matchStr (ascii "PREAUTH")) (rest .preauth) parseFail

/-- `parse_greeting`. It stops before the CRLF. -/
def parseGreeting : Parser Bool := do
  savePos
  expectMatch "*" <| expectMatch " " <| expect parseRespCondAuth parseSuccess

/-- `parse_next`, in the release build, where the assertions at its end are compiled out. -/
def parseNext (literal : Parser Bool := parseLiteral) : Parser Bool := do
  let s ← get
  if s.data.length ≤ s.currPos then pure false
  else
    ifM (parseResponse literal) (pure true) <|
      ifM parseGreeting (pure true) <|
      throwRuntime "Didn't understand the server's response!"

end Imapcl
