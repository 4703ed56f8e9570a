import Imapcl.Parser.Bounds
import Imapcl.Parser.Language

set_option relaxedAutoImplicit false
set_option autoImplicit false

/-!
# The parser accepts exactly its language

The direction from a run to a derivation: whatever word `parse_next` has passed over when it
answers `true`, the word is one of `Imapcl.Reading`. Together with the runs on derivations, this
determines on arbitrary bytes where `parse_next` succeeds, how far it goes and what it stores; and
since runs are unique, so are derivations.

## Main results

* `Imapcl.reads_parseMsgAtt` — what is read as the attributes of a message.
* `Imapcl.parseNext_readable` — what `parse_next` has passed over is a word of the language.
* `Imapcl.parseNext_exact` — success, position and response of `parse_next`.
* `Imapcl.Reading.unique` — no two responses begin at the same place.

## Design

A rule for sequences whose second part depends on what the first one has returned
(`ReadsUnless.bindValue`) is all that is added to the rules of `Imapcl.Reads`; the length of a
literal is the only such value.
-/

namespace Imapcl

open StateExcept Cursor

variable {α β : Type} {ok : α → Bool} {E : ResponseParser → Prop} {d u v w : Bytes} {p q : ℕ}
  {κ : List ℤ} {r x : Option Response} {m : Bytes}

/-- One method after another, where the language of the second depends on the value of the
first. -/
lemma ReadsUnless.bindValue {y : Parser β} {k : β → Parser α} {P : β → Prop}
    {L M : β → Bytes → Bytes → Prop}
    (hy : ∀ s, Inside s → Ensures y s fun b s' => P b ∧ Passed (L b) s s')
    (hk : ∀ b, P b → ReadsUnless E ok (k b) (M b)) :
    ReadsUnless E ok (y >>= k) fun w v => ∃ b, P b ∧ Then (L b) (M b) w v := by
  intro s hs
  refine Ensures.bind ((hy s hs).mono fun b s' h => ?_)
  obtain ⟨hb, hpassed⟩ := h
  refine (hk b hb s' (hpassed.inside hs)).mono fun a s'' h' ha => (h' ha).imp_right fun h'' => ?_
  obtain ⟨w, v, hat, hd, hp, hw⟩ := hpassed.trans h''
  exact ⟨w, v, hat, hd, hp, b, hb, hw⟩

/-! ## Numbers -/

/-- `parse_number` passes over digits and stores what they make up; without a digit it fails and
passes over nothing. -/
lemma parseNumber_passed {s : ResponseParser} (hs : Inside s) :
    Ensures parseNumber s fun o s' => InInt32 (o.getD 0) ∧
      Passed (fun w _ => (∀ c ∈ w, isDigit c = true) ∧ w.foldl accumulate 0 = o.getD 0 ∧
        (o.isSome = true → w ≠ [])) s s' := by
  obtain ⟨d, p, κ, r, m⟩ := s
  obtain ⟨hp, hd⟩ := hs
  simp only at hp hd
  intro o s' hr
  refine ⟨parseNumber_inInt32 _ o s' hr, ?_⟩
  obtain ⟨ds, v, hv, hds, hend⟩ := exists_longest_prefix isDigit (d.drop p)
  have hat : At d p (ds ++ v) := ⟨hp, hv⟩
  by_cases hne : ds = []
  · subst hne
    rw [parseNumber_none hat hend, toSizeT_wrap32 (by omega)] at hr
    cases hr
    exact ⟨[], v, hat, rfl, rfl, hds, rfl, nofun⟩
  · rw [parseNumber_digits hat hne hds hend] at hr
    cases hr
    exact ⟨ds, v, hat, rfl, rfl, hds, rfl, fun _ => hne⟩

/-- Where `parse_number` succeeds, it has read a word of one or more digits. -/
lemma reads_digits : Reads Option.isSome parseNumber fun w _ => Digits w := by
  intro s hs
  refine (parseNumber_passed hs).mono fun o s' h ho => Or.inr ?_
  obtain ⟨-, w, v, hat, hd, hp, hds, -, hne⟩ := h
  exact ⟨w, v, hat, hd, hp, hne ho, hds⟩

/-- The loop of `parse_message_id_list` reads numbers with a space before each, by induction on its
fuel. -/
lemma reads_numbers (fuel : ℕ) :
    ∀ numbers, Reads Option.isSome (messageIdLoop fuel numbers) fun w _ =>
      ∃ dss : List Bytes, (∀ ds ∈ dss, Digits ds) ∧ w = dss.flatMap fun ds => ascii " " ++ ds := by
  induction fuel with
  | zero => exact fun _ => ReadsUnless.throw
  | succ fuel ih =>
    intro numbers
    refine ReadsUnless.mono (ReadsUnless.ifMatch
      (ReadsUnless.bindOk (M := fun w _ => ∃ dss : List Bytes, (∀ ds ∈ dss, Digits ds) ∧
        w = dss.flatMap fun ds => ascii " " ++ ds) reads_digits (fun o ho => ?_) fun o ho => ?_)
      ReadsUnless.success) fun w v h => ?_
    · obtain rfl : o = none := by simpa using ho
      exact ReadsUnless.fails rfl
    · obtain ⟨number, rfl⟩ := Option.isSome_iff_exists.mp ho
      exact ih _
    rcases h with ⟨_, _, rfl, rfl, ds, _, rfl, hds, dss, hdss, rfl⟩ | ⟨-, rfl⟩
    · refine ⟨ds :: dss, fun ds' h' => ?_, by rw [List.flatMap_cons, List.append_assoc]⟩
      rcases List.mem_cons.mp h' with rfl | h'
      · exact hds
      · exact hdss ds' h'
    · exact ⟨[], by simp, rfl⟩

/-! ## Literals -/

/-- The body of `parse_literal` reads as many bytes as it is told to. A negative length throws, and
so does one that takes the terminator along.

**Proof sketch.** By cases on the sign of the length and on whether so many bytes are left. -/
lemma reads_readLiteral {length : ℤ} (hlength : InInt32 length) :
    Reads id (readLiteral length) fun w _ => length = w.length := by
  rintro ⟨d, p, κ, r, m⟩ ⟨hp, hd⟩ b s' hr hb
  obtain rfl : b = true := hb
  simp only at hp hd
  obtain ⟨hlow, hhigh⟩ := hlength
  rcases Int.lt_or_le length 0 with hneg | hpos
  · rw [readLiteral, run_bind_of_ok (StateT.run_get _), if_neg (by simp only; omega),
      run_bind_of_ok (StateT.run_set _ _)] at hr
    have hcopied : ((d.drop p ++ [0]).take length.toNat).length < toSizeT length := by
      rw [show length.toNat = 0 by omega, List.take_zero, toSizeT]
      simp only [List.length_nil]
      omega
    rw [if_pos hcopied] at hr
    cases hr
  obtain ⟨n, rfl⟩ := Int.eq_ofNat_of_zero_le hpos
  have hat : At d p (d.drop p) := ⟨hp, rfl⟩
  rcases Nat.lt_or_ge (d.drop p).length n with hshort | henough
  · rw [readLiteral_short hat hshort (by omega)] at hr
    cases hr
  · have hlen : ((d.drop p).take n).length = n := by
      rw [List.length_take, Nat.min_eq_left henough]
    have hsplit : At d p ((d.drop p).take n ++ (d.drop p).drop n) := by
      rwa [List.take_append_drop]
    have hrun := readLiteral_enough (κ := κ) (r := r) (m := m) hsplit (by omega)
    rw [hlen] at hrun
    rw [hrun] at hr
    split at hr
    · cases hr
    · obtain ⟨κ', rfl⟩ := parseSuccess_inv hr
      exact Or.inr ⟨_, _, hsplit, rfl, by rw [hlen], by simp only [hlen]⟩

/-- A literal: its header, and as many bytes as the header announces. -/
def LiteralWord (w _v : Bytes) : Prop :=
  ∃ ds content, Announces ds content.length ∧
    w = ascii "\x7b" ++ ds ++ ascii "\x7d" ++ crlf ++ content

/-- A literal that succeeds has read its length, and as many bytes. -/
lemma reads_parseLiteral : Reads id parseLiteral LiteralWord := by
  refine ReadsUnless.mono (ReadsUnless.saved <| reads_expectMatch (a := "\x7b") <|
    ReadsUnless.bindValue (fun s hs => parseNumber_passed hs) fun o ho =>
      reads_expectMatch (a := "\x7d") <| ReadsUnless.expect reads_matchCrlf <|
        reads_readLiteral ho) ?_
  rintro w v ⟨_, _, rfl, rfl, o, -, ds, _, rfl, ⟨hds, hvalue, -⟩, _, _, rfl, rfl, _, content, rfl,
    rfl, hlen⟩
  refine ⟨ds, content, ⟨hds, hvalue.trans hlen⟩, ?_⟩
  simp only [List.append_assoc]

/-- `NIL` fails, so that only a literal is read. -/
lemma reads_parseNstring : Reads id parseNstring LiteralWord := by
  have hstring : Reads id parseString LiteralWord :=
    ReadsUnless.saved (ReadsUnless.last reads_parseLiteral)
  refine ReadsUnless.mono (ReadsUnless.saved <| ReadsUnless.ifMatch
    (ReadsUnless.still (Preserves.modify fun _ => rfl) fun _ =>
      ReadsUnless.fail (L := fun _ _ => False) rfl) (ReadsUnless.last hstring)) ?_
  rintro w v (⟨_, _, rfl, rfl, hf⟩ | ⟨-, h⟩)
  · exact hf.elim
  · exact h

/-! ## Attributes -/

/-- The wire form of an attribute. -/
def AttributeWord (w _v : Bytes) : Prop := ∃ a : ReadAttribute, w = a.wire

/-- The flags of a message are a word in parentheses. -/
lemma reads_parseMsgAttDynamic : Reads id parseMsgAttDynamic AttributeWord := by
  refine ReadsUnless.mono (ReadsUnless.saved <| reads_expectMatch (a := "FLAGS") <|
    reads_expectMatch (a := " ") <| reads_parseBracketed _ _ _) ?_
  rintro w v ⟨_, _, rfl, rfl, _, _, rfl, rfl, u, hu, rfl⟩
  refine ⟨.flags ⟨u, hu⟩, ?_⟩
  simp [ReadAttribute.wire, ascii, byte]

/-- A branch whose first alternative throws. -/
lemma reads_ifThrow {L : Bytes → Bytes → Prop} {a : Bytes} {what : String} {e : Parser Bool}
    (he : Reads id e L) :
    Reads id (ifM (matchStr a) (throwLogic what) e) L := by
  refine ReadsUnless.mono (ReadsUnless.ifMatch (ReadsUnless.throw (L := fun _ _ => False)) he) ?_
  rintro w v (⟨_, _, rfl, rfl, hf⟩ | ⟨-, h⟩)
  · exact hf.elim
  · exact h

/-- `BODY` and its literal, or `UID` and a number: the others throw. -/
lemma reads_parseMsgAttStatic : Reads id parseMsgAttStatic AttributeWord := by
  have hsection : Reads id parseSection fun w _ =>
      ∃ u, byte ']' ∉ u ∧ w = [byte '['] ++ u ++ [byte ']'] :=
    ReadsUnless.saved (reads_parseBracketed _ _ _)
  refine ReadsUnless.mono (ReadsUnless.saved <| reads_ifThrow <| reads_ifThrow <| reads_ifThrow <|
    reads_ifThrow <| ReadsUnless.ifMatch (reads_ifThrow <| reads_ifThrow <|
      ReadsUnless.ifM hsection tidy_parseSection
        (reads_ifThrow <| reads_expectMatch (a := " ") <| ReadsUnless.last reads_parseNstring)
        (ReadsUnless.fail (L := fun _ _ => False) rfl)) <|
    ReadsUnless.ifMatch (reads_expectMatch (a := " ") <| ReadsUnless.expectSome reads_digits
        fun _ => ReadsUnless.success (a := true))
      (ReadsUnless.fail (L := fun _ _ => False) rfl)) ?_
  rintro w v
    (⟨_, _, rfl, rfl, ⟨_, _, rfl, ⟨u, hu, rfl⟩, _, _, rfl, rfl, ds, content, h, rfl⟩ | hf⟩ |
      ⟨-, ⟨_, _, rfl, rfl, _, _, rfl, rfl, ds, _, rfl, hds, rfl⟩ | ⟨-, hf⟩⟩)
  · refine ⟨.body ⟨u, hu⟩ ds content h, ?_⟩
    simp [ReadAttribute.wire, ascii, byte]
  · exact hf.elim
  · refine ⟨.uid ds hds, ?_⟩
    simp [ReadAttribute.wire, ascii]
  · exact hf.elim

/-- One attribute. -/
lemma reads_parseMsgAttItem : Reads id parseMsgAttItem AttributeWord := by
  refine ReadsUnless.mono (ReadsUnless.ifM reads_parseMsgAttDynamic tidy_parseMsgAttDynamic
    (fun s hs => Ensures.pure fun _ => Or.inr (Passed.still hs rfl rfl))
    reads_parseMsgAttStatic) ?_
  rintro w v (h | h)
  · rwa [then_nil_right] at h
  · exact h

/-- One round of the loop of `parse_msg_att`: a space and an attribute, or, where the loop ends, at
most a space. -/
lemma msgAttRound_passed {s : ResponseParser} (hs : Inside s) :
    Ensures (ifM (matchStr (ascii " ")) parseMsgAttItem (pure false)) s fun b s' =>
      True ∧ Passed (fun w v => if b then Then (Word (ascii " ")) AttributeWord w v
        else w = [] ∨ w = ascii " ") s s' := by
  obtain ⟨d, p, κ, r, m⟩ := s
  intro b s' hr
  refine ⟨trivial, ?_⟩
  by_cases hspace : ascii " " <+: d.drop p
  · obtain ⟨v, hv⟩ := hspace
    have hat : At d p (ascii " " ++ v) := ⟨hs.1, hv.symm⟩
    have hpassed : Passed (Word (ascii " ")) ⟨d, p, κ, r, m⟩ ⟨d, p + (ascii " ").length, κ, r, m⟩ :=
      ⟨_, v, hat, rfl, rfl, rfl⟩
    rw [ifM_run_true (matchStr_at hat)] at hr
    cases b with
    | true =>
      exact hpassed.trans ((reads_parseMsgAttItem _ (hpassed.inside hs) _ _ hr rfl).resolve_left id)
    | false =>
      obtain ⟨r', m', rfl⟩ := tidy_parseMsgAttItem.failed hat.skip.1 hs.2 hr
      exact ⟨_, v, hat, rfl, rfl, Or.inr rfl⟩
  · rw [ifM_run_false (matchStr_run_false hs.1 hspace)] at hr
    cases hr
    exact ⟨[], d.drop p, ⟨hs.1, rfl⟩, rfl, rfl, Or.inl rfl⟩

/-- The loop of `parse_msg_att` reads attributes with a space before each, and at most a space after
them, by induction on its fuel. -/
lemma reads_msgAttLoop (fuel : ℕ) :
    Reads (fun _ => true)
      (repeatWhile .diverges (ifM (matchStr (ascii " ")) parseMsgAttItem (pure false)) fuel)
      fun w _ => ∃ (as : List ReadAttribute) (e : Bytes), (e = [] ∨ e = ascii " ") ∧
        w = (as.flatMap fun a => ascii " " ++ a.wire) ++ e := by
  induction fuel with
  | zero => exact ReadsUnless.throw
  | succ fuel ih =>
    refine ReadsUnless.mono (ReadsUnless.bindValue (fun s hs => msgAttRound_passed hs)
      (M := fun b w _ => if b then ∃ (as : List ReadAttribute) (e : Bytes),
        (e = [] ∨ e = ascii " ") ∧ w = (as.flatMap fun a => ascii " " ++ a.wire) ++ e
        else w = []) fun b _ => ?_) ?_
    · cases b with
      | true => exact ih
      | false => exact fun s hs => Ensures.pure fun _ => Or.inr (Passed.still hs rfl rfl)
    · rintro w v ⟨b, -, w₁, w₂, rfl, h₁, h₂⟩
      cases b with
      | true =>
        obtain ⟨_, _, rfl, rfl, a, rfl⟩ := h₁
        obtain ⟨as, e, he, rfl⟩ := h₂
        exact ⟨a :: as, e, he, by rw [List.flatMap_cons, ← List.append_assoc]⟩
      | false =>
        obtain rfl : w₂ = [] := h₂
        exact ⟨[], w₁, h₁, List.append_nil w₁⟩

/-- `parse_msg_att` reads attributes in parentheses. -/
lemma reads_parseMsgAtt : Reads id parseMsgAtt fun w _ =>
    ∃ (first : ReadAttribute) (rest : List ReadAttribute) (e : Bytes), Closes e ∧
      w = ascii "(" ++ first.wire ++ (rest.flatMap fun a => ascii " " ++ a.wire) ++ e := by
  refine ReadsUnless.mono (ReadsUnless.saved <| reads_expectMatch (a := "(") <|
    ReadsUnless.expect reads_parseMsgAttItem <| ReadsUnless.bind (ReadsUnless.get fun s =>
      reads_msgAttLoop _) fun _ => reads_expectMatch (a := ")")
        (ReadsUnless.success (a := true))) ?_
  rintro w v ⟨_, _, rfl, rfl, _, _, rfl, ⟨first, rfl⟩, _, _, rfl, ⟨rest, e, he, rfl⟩, _, _, rfl,
    rfl, rfl⟩
  refine ⟨first, rest, e ++ ascii ")", ?_, by simp only [List.append_assoc, List.append_nil]⟩
  rcases he with rfl | rfl
  · exact Or.inl rfl
  · exact Or.inr rfl

/-! ## Data -/

/-- The words of the language, whatever they stand for. -/
def Readable (w v : Bytes) : Prop := ∃ x, Reading w v x

/-- `parse_message_data` reads a number, the keyword and the attributes. -/
lemma reads_parseMessageData : Reads id parseMessageData fun w _ =>
    ∃ (ds : Bytes) (first : ReadAttribute) (rest : List ReadAttribute) (e : Bytes), Digits ds ∧
      Closes e ∧ ascii "* " ++ w = fetchWord ds first rest e := by
  refine ReadsUnless.mono (ReadsUnless.saved <| ReadsUnless.expectSome reads_digits fun _ =>
    reads_expectMatch (a := " ") <| reads_ifThrow <|
      ReadsUnless.ifMatch (u := ascii "FETCH")
        (ReadsUnless.still (Preserves.modify fun _ => rfl) fun _ => reads_expectMatch (a := " ") <|
          ReadsUnless.expect reads_parseMsgAtt <| ReadsUnless.get fun s =>
            ReadsUnless.still (Preserves.modify fun _ => rfl) fun _ =>
              ReadsUnless.success (a := true))
        (ReadsUnless.fail (L := fun _ _ => False) rfl)) ?_
  rintro w v ⟨ds, _, rfl, hds, _, _, rfl, rfl, ⟨_, _, rfl, rfl, _, _, rfl, rfl, _, _, rfl,
    ⟨first, rest, e, he, rfl⟩, rfl⟩ | ⟨-, hf⟩⟩
  · refine ⟨ds, first, rest, e, hds, he, ?_⟩
    simp [fetchWord, ascii]
  · exact hf.elim

/-- `parse_mailbox_data` reads flags, or a line with numbers. -/
lemma reads_mailboxData : Reads id parseMailboxData fun w _ =>
    ∀ v, Readable (ascii "* " ++ w ++ crlf) v := by
  refine ReadsUnless.mono (ReadsUnless.saved <|
    ReadsUnless.ifMatch (reads_expectMatch <| ReadsUnless.expect reads_parseFlagList <|
      ReadsUnless.still (Preserves.modify fun _ => rfl) fun _ => ReadsUnless.success) <|
    ReadsUnless.ifMatch (reads_expectMatch reads_expectList) <|
    ReadsUnless.ifMatch (reads_expectMatch reads_expectList) <|
    ReadsUnless.ifMatch (ReadsUnless.expectSome
      (ReadsUnless.saved <| ReadsUnless.get fun _ => reads_numbers _ _) fun _ =>
        ReadsUnless.still (Preserves.modify fun _ => rfl) fun _ => ReadsUnless.success) <|
    ReadsUnless.ifMatch (M := fun _ _ => False) (ReadsUnless.of_succeeds <| succeeds_expectMatch <|
      succeeds_expect <| succeeds_expectMatch <| succeeds_expectMatch <| Succeeds.throw _) <|
    ReadsUnless.expectSome reads_digits fun number => reads_expectMatch <|
      ReadsUnless.ifMatch
        (ReadsUnless.still (Preserves.modify fun _ => rfl) fun _ => ReadsUnless.success) <|
      ReadsUnless.ifMatch
        (ReadsUnless.still (Preserves.modify fun _ => rfl) fun _ => ReadsUnless.success) <|
      ReadsUnless.fail (L := fun _ _ => False) rfl) ?_
  rintro w v (⟨_, _, rfl, rfl, _, _, rfl, rfl, _, _, rfl, ⟨u, hu, rfl⟩, rfl⟩ | ⟨-, h⟩)
  · have hword : ascii "FLAGS" ++ (ascii " " ++ ([byte '('] ++ u ++ [byte ')'] ++ [])) =
        ascii "FLAGS (" ++ u ++ ascii ")" := by
      simp [ascii, byte]
    rw [hword]
    exact fun v => ⟨_, .flags ⟨u, hu⟩ v⟩
  rcases h with ⟨_, _, rfl, rfl, _, _, rfl, rfl, hf⟩ | ⟨-, h⟩
  · exact hf.elim
  rcases h with ⟨_, _, rfl, rfl, _, _, rfl, rfl, hf⟩ | ⟨-, h⟩
  · exact hf.elim
  rcases h with ⟨_, _, rfl, rfl, _, _, rfl, ⟨dss, hdss, rfl⟩, rfl⟩ | ⟨-, h⟩
  · rw [List.append_nil]
    exact fun v => ⟨_, .search dss v hdss⟩
  rcases h with ⟨_, _, rfl, rfl, hf⟩ | ⟨-, ds, _, rfl, hds, _, _, rfl, rfl, h⟩
  · exact hf.elim
  rcases h with ⟨_, _, rfl, rfl, rfl⟩ | ⟨-, ⟨_, _, rfl, rfl, rfl⟩ | ⟨-, hf⟩⟩
  · exact fun v => ⟨_, .exists ds v hds⟩
  · exact fun v => ⟨_, .recent ds v hds⟩
  · exact hf.elim

/-! ## Responses -/

/-- `parse_response_data` reads a word of the language. -/
lemma reads_responseData : Reads id parseResponseData Readable := by
  refine ReadsUnless.mono (ReadsUnless.saved <| reads_expectMatch <| reads_expectMatch <|
    ReadsUnless.ifM reads_parseRespCondState tidy_parseRespCondState
      (ReadsUnless.still (preserves_setResponseTag []) fun _ => ReadsUnless.last reads_matchCrlf) <|
    ReadsUnless.ifM reads_parseRespCondBye tidy_parseRespCondBye
      (ReadsUnless.still (preserves_setResponseTag []) fun _ => ReadsUnless.last reads_matchCrlf) <|
    ReadsUnless.ifM reads_mailboxData tidy_parseMailboxData (ReadsUnless.last reads_matchCrlf) <|
    ReadsUnless.ifM reads_parseMessageData tidy_parseMessageData
      (ReadsUnless.last reads_matchCrlf) (ReadsUnless.fail (L := fun _ _ => False) rfl)) ?_
  rintro w v ⟨_, _, rfl, rfl, _, _, rfl, rfl, h⟩
  rcases h with ⟨_, _, rfl, ⟨c, t, ht, -, rfl⟩, rfl⟩ | h
  · have hword : ascii "*" ++ (ascii " " ++ (c.word ++ (ascii " " ++ t) ++ crlf)) =
        ascii "* " ++ c.word ++ ascii " " ++ t ++ crlf := by
      simp [show ascii "* " = ascii "*" ++ ascii " " from rfl]
    rw [hword]
    exact ⟨_, .untagged c t v ht⟩
  rcases h with ⟨_, _, rfl, ⟨t, ht, -, rfl⟩, rfl⟩ | h
  · have hword : ascii "*" ++ (ascii " " ++ (ascii "BYE" ++ (ascii " " ++ t) ++ crlf)) =
        ascii "* BYE " ++ t ++ crlf := by
      simp [ascii]
    rw [hword]
    exact ⟨_, .bye t v ht⟩
  rcases h with ⟨w, _, rfl, hw, rfl⟩ | h
  · exact hw v
  rcases h with ⟨w, _, rfl, ⟨ds, first, rest, e, hds, he, hw⟩, rfl⟩ | hf
  · have hword : ascii "*" ++ (ascii " " ++ (w ++ crlf)) = fetchWord ds first rest e ++ crlf := by
      rw [← hw]
      simp [ascii]
    rw [hword]
    exact ⟨_, .fetch ds v hds first rest e he⟩
  · exact hf.elim

/-- A continuation request, or response data, or a response that `parse_response_done` reads: what
`parse_response` passes over is a word of the language.

**Proof sketch.** The alternatives are read off one after the other. Where `parse_response_fatal`
succeeds, `parse_response_data` has failed on the same BYE, so no CRLF follows it. -/
lemma parseResponse_readable {s' : ResponseParser} (hp : p ≤ d.length) (hd : d.length < 2 ^ 31)
    (h : parseResponse.run ⟨d, p, κ, r, m⟩ = .ok (true, s')) :
    Passed Readable ⟨d, p, κ, r, m⟩ s' := by
  rw [parseResponse, run_bind_of_ok savePos_run] at h
  rcases ifM_run_eq_ok h with ⟨s₁, hcontinue, h₁⟩ | ⟨s₁, hcontinue, h₁⟩
  · obtain ⟨κ', rfl⟩ := parseSuccess_inv h₁
    obtain ⟨w, v, hat, hds, hps, t, ht, rfl⟩ :=
      (reads_parseContinueReq _ ⟨hp, hd⟩ _ _ hcontinue rfl).resolve_left id
    exact ⟨_, v, hat, hds, hps, _, .continueReq t v ht⟩
  obtain ⟨r₁, m₁, rfl⟩ := tidy_parseContinueReq.failed hp hd hcontinue
  rcases ifM_run_eq_ok h₁ with ⟨s₂, hdata, h₂⟩ | ⟨s₂, hdata, h₂⟩
  · obtain ⟨κ', rfl⟩ := parseSuccess_inv h₂
    have hpassed := (reads_responseData _ ⟨hp, hd⟩ _ _ hdata rfl).resolve_left id
    exact hpassed.congr rfl rfl rfl rfl
  obtain ⟨r₂, m₂, rfl⟩ := tidy_parseResponseData.failed hp hd hdata
  rcases ifM_run_eq_ok h₂ with ⟨s₃, hdone, h₃⟩ | ⟨s₃, hdone, h₃⟩
  swap
  · exact absurd h₃ parseFail_ne_true
  obtain ⟨κ', rfl⟩ := parseSuccess_inv h₃
  have hfatal : Reads id parseResponseFatal fun w v =>
      ∃ t, RespText t ∧ LineEnd v ∧ w = ascii "* BYE " ++ t := by
    refine ReadsUnless.mono (ReadsUnless.saved <| reads_expectMatch <| reads_expectMatch <|
      ReadsUnless.last reads_parseRespCondBye) ?_
    rintro w v ⟨_, _, rfl, rfl, _, _, rfl, rfl, t, ht, hv, rfl⟩
    exact ⟨t, ht, hv, by simp [ascii]⟩
  rw [parseResponseDone, run_bind_of_ok savePos_run] at hdone
  rcases ifM_run_eq_ok hdone with ⟨s₄, htagged, h₄⟩ | ⟨s₄, htagged, h₄⟩
  · obtain ⟨κ'', rfl⟩ := parseSuccess_inv h₄
    obtain ⟨w, v, hat, hds, hps, tag, c, t, ht, rfl⟩ :=
      (reads_parseResponseTagged _ ⟨hp, hd⟩ _ _ htagged rfl).resolve_left id
    exact ⟨_, v, hat, hds, hps, _, .tagged tag c t v ht⟩
  obtain ⟨r₄, m₄, rfl⟩ := tidy_parseResponseTagged.failed hp hd htagged
  rcases ifM_run_eq_ok h₄ with ⟨s₅, hbye, h₅⟩ | ⟨s₅, -, h₅⟩
  · obtain ⟨κ'', rfl⟩ := parseSuccess_inv h₅
    obtain ⟨w, v, hat, hds, hps, t, ht, hv, rfl⟩ :=
      (hfatal _ ⟨hp, hd⟩ _ _ hbye rfl).resolve_left id
    refine ⟨_, v, hat, hds, hps, _, .fatal t v ht hv fun hcrlf => ?_⟩
    obtain ⟨v, rfl⟩ := hcrlf
    have hbound := Nat.lt_of_le_of_lt hat.skip.1 hd
    rw [parseResponseData_bye ht hv hat hbound, expectCrlf_at hat.skip] at hdata
    cases hdata
  · exact absurd h₅ parseFail_ne_true

/-- **From the parser to the language.** What `parse_next` has passed over when it answers `true` is
a word of the language.

**Proof sketch.** After `parse_response` only a greeting is read. Where it is an OK, no CRLF follows
it, since `parse_response_data` has failed on the same line. -/
lemma parseNext_readable {s' : ResponseParser} (hp : p ≤ d.length) (hd : d.length < 2 ^ 31)
    (h : parseNext.run ⟨d, p, κ, r, m⟩ = .ok (true, s')) :
    Passed Readable ⟨d, p, κ, r, m⟩ s' := by
  rw [parseNext, run_bind_of_ok (StateT.run_get _)] at h
  split at h
  · cases h
  rcases ifM_run_eq_ok h with ⟨s₁, hresponse, h₁⟩ | ⟨s₁, hresponse, h₁⟩
  · cases h₁
    exact parseResponse_readable hp hd hresponse
  obtain ⟨r₁, m₁, rfl⟩ := tidy_parseResponse.failed hp hd hresponse
  rcases ifM_run_eq_ok h₁ with ⟨s₂, hgreeting, h₂⟩ | ⟨s₂, hgreeting, h₂⟩
  swap
  · cases h₂
  cases h₂
  obtain ⟨w, v, hat, hds, hps, kind, t, ht, hv, rfl⟩ :=
    (reads_parseGreeting _ ⟨hp, hd⟩ _ _ hgreeting rfl).resolve_left id
  refine ⟨_, v, hat, hds, hps, ?_⟩
  cases kind with
  | preauth => exact ⟨_, .preauth t v ht hv⟩
  | ok =>
    refine ⟨_, .greeting t v ht hv fun hcrlf => ?_⟩
    obtain ⟨v, rfl⟩ := hcrlf
    have hbound := Nat.lt_of_le_of_lt hat.skip.1 hd
    have hcond : At d p (ascii "* " ++ Cond.ok.word ++ ascii " " ++ t ++ (crlf ++ v)) := hat
    have hstar : At d p (ascii "*" ++ (ascii " OK " ++ t ++ (crlf ++ v))) := hat
    rw [parseResponse_data hstar (by simp only at hbound; omega) (by
      rw [parseResponseData_cond .ok ht hv hcond hbound, expectCrlf_at hcond.skip]
      rfl)] at hresponse
    cases hresponse

/-! ## Exactness -/

/-- `parse_next` called with a null pointer succeeds with the pointer `x` at the position `q`. -/
def NextIs (s : ResponseParser) (q : ℕ) (x : Option Response) : Prop :=
  ∃ s', parseNext.run s = .ok (true, s') ∧ s'.currPos = q ∧ s'.parsedResponse = x

/-- **The language of `parse_next`.** On data shorter than `2 ^ 31`, called with a null pointer,
`parse_next` succeeds exactly where a word of the language stands: it passes over that word and
leaves the pointer that belongs to it.

**Proof sketch.** What has been passed over is a word of the language (`parseNext_readable`), and
the run on such a word is known (`Reading.run`). -/
theorem parseNext_exact (s : ResponseParser) (q : ℕ) (x : Option Response)
    (hnull : s.parsedResponse = none) (hd : s.data.length < 2 ^ 31) :
    NextIs s q x ↔
      ∃ w v, At s.data s.currPos (w ++ v) ∧ q = s.currPos + w.length ∧ Reading w v x := by
  obtain ⟨d, p, κ, r, m⟩ := s
  obtain rfl : r = none := hnull
  constructor
  · rintro ⟨s', hrun, rfl, rfl⟩
    have hp : p ≤ d.length := by
      by_contra hlt
      rw [parseNext, run_bind_of_ok (StateT.run_get _), if_pos (show d.length ≤ p by omega)] at hrun
      cases hrun
    obtain ⟨w, v, hat, -, hps, x, hx⟩ := parseNext_readable hp hd hrun
    obtain ⟨m', hrun'⟩ := hx.run (κ := κ) (m := m) hat hd
    rw [hrun] at hrun'
    cases hrun'
    exact ⟨w, v, hat, rfl, hx⟩
  · rintro ⟨w, v, hat, rfl, hx⟩
    obtain ⟨m', hrun⟩ := hx.run (κ := κ) (m := m) hat hd
    exact ⟨_, hrun, rfl, rfl⟩

/-- A number that wraps, and a space before the closing parenthesis. -/
theorem parseNext_exact_fetch :
    NextIs (.ofData (ascii "* 4294967297 FETCH (UID 9 )\r\n")) 29 (some (.fetch [])) := by
  have hds : Digits (ascii "4294967297") := ⟨by decide, by decide +kernel⟩
  have huid : Digits (ascii "9") := ⟨by decide, by decide +kernel⟩
  exact (parseNext_exact _ _ _ rfl (by decide +kernel)).mpr
    ⟨_, [], ⟨Nat.zero_le _, rfl⟩, rfl,
      .fetch (ascii "4294967297") [] hds (.uid (ascii "9") huid) [] (ascii " )") (.inr rfl)⟩

/-- **Unique readability.** No two responses begin at the same place: the words of two derivations
at the head of the same bytes are the same, and so is what they stand for.

**Proof sketch.** Both are read by the same run of `parse_next`. -/
lemma Reading.unique {y : Option Response} (hw : Reading w v x) {w' v' : Bytes}
    (hw' : Reading w' v' y) (h : w ++ v = w' ++ v') (hlen : (w ++ v).length < 2 ^ 31) :
    w = w' ∧ v = v' ∧ x = y := by
  obtain ⟨m, hrun⟩ := hw.run (κ := []) (m := []) (At.start (w ++ v)) hlen
  obtain ⟨m', hrun'⟩ := hw'.run (κ := []) (m := []) (by
    rw [← h]
    exact At.start (w ++ v)) hlen
  rw [hrun] at hrun'
  have hs := (Prod.mk.inj (Except.ok.inj hrun')).2
  obtain ⟨-, hpos, -, hx, -⟩ := ResponseParser.mk.inj hs
  obtain ⟨rfl, rfl⟩ := List.append_inj h (by omega)
  exact ⟨rfl, rfl, hx⟩

end Imapcl
