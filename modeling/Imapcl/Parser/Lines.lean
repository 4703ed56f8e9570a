import Imapcl.Parser.Greeting
import Imapcl.Parser.Inversion

set_option relaxedAutoImplicit false
set_option autoImplicit false

/-!
# Lines

A response other than FETCH is one line, so reading one should not touch the next. This file
determines the data on which it does: codes and flag lists are skipped up to a closing bracket
wherever it is, and a BYE or a greeting may end before its CRLF.

## Main definitions

* `Imapcl.Line`, `Imapcl.LineIsolated` — a response other than FETCH is one line.
* `Imapcl.Unisolated` — the data whose first response is not.

## Main results

* `Imapcl.parseNext_passed` — what `parse_next` has passed over when it succeeds.
* `Imapcl.line_isolated_iff` — the data on which lines are isolated.
-/

namespace Imapcl

open StateExcept Cursor

variable {d u v w : Bytes} {p q : ℕ} {κ : List ℤ} {r : Option Response} {m : Bytes}

/-- The language of lines: no line break but the CRLF at the end. -/
def Line (w _v : Bytes) : Prop := ∃ u, OneLine u ∧ w = u ++ crlf

/-- If `parse_next` succeeds with a response other than FETCH, it has passed over one line. -/
def LineIsolated (s : ResponseParser) : Prop :=
  ∀ s' x, parseNext.run s = .ok (true, s') → s'.parsedResponse = some x → x.getType ≠ .fetch →
    Passed Line s s'

/-- Data whose first response is read, but not as one line: a code or a flag list goes over the end
of a line, or the response ends before a CRLF. -/
inductive Unisolated : Bytes → Prop where
  | tagged (tag : Tag) (c : Cond) (t v : Bytes) (ht : RespText t) (hbreak : ¬ OneLine t) :
      Unisolated (tag.bytes ++ ascii " " ++ c.word ++ ascii " " ++ t ++ crlf ++ v)
  | untagged (c : Cond) (t v : Bytes) (ht : RespText t) (hbreak : ¬ OneLine t) :
      Unisolated (ascii "* " ++ c.word ++ ascii " " ++ t ++ crlf ++ v)
  | bye (t v : Bytes) (ht : RespText t) (hbreak : ¬ OneLine t) :
      Unisolated (ascii "* BYE " ++ t ++ crlf ++ v)
  | flags (u v : Bytes) (hu : byte ')' ∉ u) (hbreak : ¬ OneLine u) :
      Unisolated (ascii "* FLAGS (" ++ u ++ ascii ")" ++ crlf ++ v)
  | fatal (t v : Bytes) (ht : RespText t) (hv : LineEnd v) (hcrlf : ¬ crlf <+: v) :
      Unisolated (ascii "* BYE " ++ t ++ v)
  | greeting (t v : Bytes) (ht : RespText t) (hv : LineEnd v) (hcrlf : ¬ crlf <+: v) :
      Unisolated (ascii "* OK " ++ t ++ v)
  | preauth (t v : Bytes) (ht : RespText t) (hv : LineEnd v) :
      Unisolated (ascii "* PREAUTH " ++ t ++ v)

/-! ## What has been passed over -/

/-- The words of a response: a line, or the beginning of data that are not isolated. -/
def Isolated (w v : Bytes) : Prop := Line w v ∨ Unisolated (w ++ v)

/-- A word and the CRLF after it. -/
lemma isolated_of (hw : OneLine w ∨ Unisolated (w ++ crlf ++ v)) : Isolated (w ++ crlf) v := by
  rcases hw with hw | hw
  · exact Or.inl ⟨w, hw, rfl⟩
  · exact Or.inr hw

/-- A tag fits on a line. -/
lemma oneLine_tag (tag : Tag) : OneLine tag.bytes := by
  refine fun c hc => ⟨?_, ?_⟩
  · rintro rfl
    exact absurd (tag.alnum _ hc) (by decide)
  · rintro rfl
    exact absurd (tag.alnum _ hc) (by decide)

/-- The word of a status condition fits on a line. -/
lemma oneLine_word (c : Cond) : OneLine c.word := by
  cases c with
  | ok => exact (by decide +kernel : ∀ a ∈ ascii "OK", a ≠ cr ∧ a ≠ lf)
  | no => exact (by decide +kernel : ∀ a ∈ ascii "NO", a ≠ cr ∧ a ≠ lf)
  | bad => exact (by decide +kernel : ∀ a ∈ ascii "BAD", a ≠ cr ∧ a ≠ lf)

/-- So does a space. -/
lemma oneLine_space : OneLine (ascii " ") := (by decide +kernel : ∀ a ∈ ascii " ", a ≠ cr ∧ a ≠ lf)

/-- `parse_response_tagged` reads a line, unless its code goes over the end of the line. -/
lemma reads_tagged : Reads id parseResponseTagged Isolated := by
  refine ReadsUnless.mono reads_parseResponseTagged ?_
  rintro w v ⟨tag, c, t, ht, rfl⟩
  refine isolated_of ?_
  by_cases hline : OneLine t
  · exact Or.inl (((((oneLine_tag tag).append oneLine_space).append (oneLine_word c)).append
      oneLine_space).append hline)
  · exact Or.inr (.tagged tag c t v ht hline)

/-- `parse_response_data` reads a line, unless it stores a FETCH response or a bracket is closed
only beyond the end of the line. -/
lemma reads_parseResponseData : ReadsUnless Fetched id parseResponseData Isolated := by
  have hstar : OneLine (ascii "* ") := (by decide +kernel : ∀ a ∈ ascii "* ", a ≠ cr ∧ a ≠ lf)
  have hbye : OneLine (ascii "* BYE ") :=
    (by decide +kernel : ∀ a ∈ ascii "* BYE ", a ≠ cr ∧ a ≠ lf)
  have hflags : OneLine (ascii "* FLAGS (") :=
    (by decide +kernel : ∀ a ∈ ascii "* FLAGS (", a ≠ cr ∧ a ≠ lf)
  have hclose : OneLine (ascii ")") := (by decide +kernel : ∀ a ∈ ascii ")", a ≠ cr ∧ a ≠ lf)
  refine ReadsUnless.mono (ReadsUnless.saved <| reads_expectMatch <| reads_expectMatch <|
    ReadsUnless.ifM reads_parseRespCondState tidy_parseRespCondState
      (ReadsUnless.still (preserves_setResponseTag []) fun _ => ReadsUnless.last reads_matchCrlf) <|
    ReadsUnless.ifM reads_parseRespCondBye tidy_parseRespCondBye
      (ReadsUnless.still (preserves_setResponseTag []) fun _ => ReadsUnless.last reads_matchCrlf) <|
    ReadsUnless.ifM reads_parseMailboxData tidy_parseMailboxData
      (ReadsUnless.last reads_matchCrlf) <|
    ReadsUnless.of_succeeds (L := fun _ _ => False) <|
      Succeeds.ifM_of succeeds_parseMessageData (fun s hs => ensures_expectCrlf
        (P := fun r => ∃ contents, r = some (.fetch contents)) hs) succeeds_parseFail) ?_
  rintro w v ⟨_, _, rfl, rfl, _, _, rfl, rfl, h⟩
  rcases h with ⟨_, _, rfl, ⟨c, t, ht, -, rfl⟩, rfl⟩ | h
  · have hword : ascii "*" ++ (ascii " " ++ (c.word ++ (ascii " " ++ t) ++ crlf)) =
        ascii "* " ++ c.word ++ ascii " " ++ t ++ crlf := by
      simp [show ascii "* " = ascii "*" ++ ascii " " from rfl]
    rw [hword]
    refine isolated_of ?_
    by_cases hline : OneLine t
    · exact Or.inl (((hstar.append (oneLine_word c)).append oneLine_space).append hline)
    · exact Or.inr (.untagged c t v ht hline)
  rcases h with ⟨_, _, rfl, ⟨t, ht, -, rfl⟩, rfl⟩ | h
  · have hword : ascii "*" ++ (ascii " " ++ (ascii "BYE" ++ (ascii " " ++ t) ++ crlf)) =
        ascii "* BYE " ++ t ++ crlf := by
      simp [ascii]
    rw [hword]
    refine isolated_of ?_
    by_cases hline : OneLine t
    · exact Or.inl (hbye.append hline)
    · exact Or.inr (.bye t v ht hline)
  rcases h with ⟨w', _, rfl, hdata, rfl⟩ | hf
  · have hword : ascii "*" ++ (ascii " " ++ (w' ++ crlf)) = ascii "* " ++ w' ++ crlf := by
      simp [ascii]
    rw [hword]
    refine isolated_of ?_
    rcases hdata with hline | ⟨u, hu, rfl⟩
    · exact Or.inl (hstar.append hline)
    · rw [← List.append_assoc, ← List.append_assoc]
      by_cases hline : OneLine u
      · exact Or.inl ((hflags.append hline).append hclose)
      · exact Or.inr (.flags u v hu hline)
  · exact hf.elim

/-- `parse_response_done` reads a tagged response, or a BYE before the end of its line. -/
lemma reads_parseResponseDone : Reads id parseResponseDone fun w v =>
    Isolated w v ∨ ∃ t, RespText t ∧ LineEnd v ∧ w = ascii "* BYE " ++ t := by
  refine ReadsUnless.mono (ReadsUnless.saved <|
    ReadsUnless.ifM reads_tagged tidy_parseResponseTagged ReadsUnless.success <|
    ReadsUnless.ifM (ReadsUnless.saved <| reads_expectMatch <| reads_expectMatch <|
      ReadsUnless.last reads_parseRespCondBye) tidy_parseResponseFatal ReadsUnless.success <|
    ReadsUnless.fail (L := fun _ _ => False) rfl) ?_
  rintro w v (h | ⟨_, _, rfl, ⟨_, _, rfl, rfl, _, _, rfl, rfl, t, ht, hv, rfl⟩, rfl⟩ | hf)
  · rw [then_nil_right] at h
    exact Or.inl h
  · exact Or.inr ⟨t, ht, hv, by simp [ascii]⟩
  · exact hf.elim

/-- `parse_greeting` reads a greeting before the end of its line. -/
lemma reads_parseGreeting : Reads id parseGreeting fun w v =>
    ∃ (kind : GreetingKind) (t : Bytes), RespText t ∧ LineEnd v ∧
      w = ascii "* " ++ kind.word ++ ascii " " ++ t := by
  have hrest : ∀ type, Reads id (expectMatch " " <| expect parseRespText do
      setResponse (.status type [] [])
      parseSuccess)
      (Then (Word (ascii " ")) (Then (fun w v => RespText w ∧ LineEnd v) (Word []))) :=
    fun type => reads_expectMatch <| ReadsUnless.expect reads_parseRespText <|
      ReadsUnless.still (Preserves.modify fun _ => rfl) fun _ => ReadsUnless.success
  have hauth : Reads id parseRespCondAuth fun w v => ∃ (kind : GreetingKind) (t : Bytes),
      RespText t ∧ LineEnd v ∧ w = kind.word ++ (ascii " " ++ t) := by
    refine ReadsUnless.mono (ReadsUnless.saved <|
      ReadsUnless.ifMatch (hrest .ok) <| ReadsUnless.ifMatch (hrest .preauth) <|
      ReadsUnless.fail (L := fun _ _ => False) rfl) ?_
    rw [then_nil_right]
    rintro w v (⟨_, _, rfl, rfl, _, t, rfl, rfl, ht, hv⟩ |
      ⟨-, ⟨_, _, rfl, rfl, _, t, rfl, rfl, ht, hv⟩ | ⟨-, hf⟩⟩)
    · exact ⟨.ok, t, ht, hv, rfl⟩
    · exact ⟨.preauth, t, ht, hv, rfl⟩
    · exact hf.elim
  refine ReadsUnless.mono (ReadsUnless.saved <| reads_expectMatch <| reads_expectMatch <|
    ReadsUnless.last hauth) ?_
  rintro w v ⟨_, _, rfl, rfl, _, _, rfl, rfl, kind, t, ht, hv, rfl⟩
  refine ⟨kind, t, ht, hv, ?_⟩
  simp [show ascii "* " = ascii "*" ++ ascii " " from rfl]

/-! ## The inversion of `parse_next` -/

/-- `PARSE_SUCCESS` pops the stack and changes nothing else. -/
lemma parseSuccess_inv {s s' : ResponseParser} {b : Bool} (h : parseSuccess.run s = .ok (b, s')) :
    ∃ κ, s' = { s with posStack := κ } := by
  obtain ⟨d, p, κ, r, m⟩ := s
  cases κ with
  | nil => cases h
  | cons x κ =>
    cases h
    exact ⟨κ, rfl⟩

/-- The position inside the data, seen from a state with the same data and position. -/
lemma Passed.congr {L : Bytes → Bytes → Prop} {s s' t t' : ResponseParser} (h : Passed L s s')
    (hd : t.data = s.data) (hp : t.currPos = s.currPos) (hd' : t'.data = s'.data)
    (hp' : t'.currPos = s'.currPos) : Passed L t t' := by
  obtain ⟨w, v, hat, hds, hps, hL⟩ := h
  refine ⟨w, v, ?_, ?_, ?_, hL⟩
  · rwa [hd, hp]
  · rw [hd', hds, hd]
  · rw [hp', hps, hp]

/-- No response is stored, or a FETCH response. -/
def Exempt (s : ResponseParser) : Prop := ∀ x, s.parsedResponse = some x → x.getType = .fetch

/-- What `parse_response` has passed over: a line, or the beginning of data that are not isolated.

**Proof sketch.** The alternatives are read off one after the other. Where `parse_response_fatal`
succeeds, `parse_response_data` has failed on the same BYE, so no CRLF follows it. -/
lemma parseResponse_passed {s' : ResponseParser} (hp : p ≤ d.length) (hd : d.length < 2 ^ 31)
    (h : parseResponse.run ⟨d, p, κ, none, m⟩ = .ok (true, s')) :
    Exempt s' ∨ Passed Isolated ⟨d, p, κ, none, m⟩ s' := by
  rw [parseResponse, run_bind_of_ok savePos_run] at h
  rcases ifM_run_eq_ok h with ⟨s₁, hcontinue, h₁⟩ | ⟨s₁, hcontinue, h₁⟩
  · obtain ⟨κ', rfl⟩ := parseSuccess_inv h₁
    have hr := frames_parseContinueReq _ _ _ hcontinue
    refine Or.inl fun x hx => ?_
    rw [hr] at hx
    cases hx
  obtain ⟨r₁, m₁, rfl⟩ := tidy_parseContinueReq.failed hp hd hcontinue
  rcases ifM_run_eq_ok h₁ with ⟨s₂, hdata, h₂⟩ | ⟨s₂, hdata, h₂⟩
  · obtain ⟨κ', rfl⟩ := parseSuccess_inv h₂
    rcases reads_parseResponseData _ ⟨hp, hd⟩ _ _ hdata rfl with ⟨contents, hc⟩ | hpassed
    · refine Or.inl fun x hx => ?_
      rw [hc] at hx
      cases hx
      rfl
    · exact Or.inr (hpassed.congr rfl rfl rfl rfl)
  obtain ⟨r₂, m₂, rfl⟩ := tidy_parseResponseData.failed hp hd hdata
  rcases ifM_run_eq_ok h₂ with ⟨s₃, hdone, h₃⟩ | ⟨s₃, hdone, h₃⟩
  · obtain ⟨κ', rfl⟩ := parseSuccess_inv h₃
    obtain ⟨w, v, hat, hds, hps, hw⟩ :=
      (reads_parseResponseDone _ ⟨hp, hd⟩ _ _ hdone rfl).resolve_left id
    rcases hw with hw | ⟨t, ht, hv, rfl⟩
    · exact Or.inr ⟨w, v, hat, hds, hps, hw⟩
    · refine Or.inr ⟨_, v, hat, hds, hps, Or.inr (.fatal t v ht hv fun hcrlf => ?_)⟩
      obtain ⟨v, rfl⟩ := hcrlf
      have hbound := Nat.lt_of_le_of_lt hat.skip.1 hd
      rw [parseResponseData_bye ht hv hat hbound, expectCrlf_at hat.skip] at hdata
      cases hdata
  · exact absurd h₃ parseFail_ne_true

/-- What `parse_next` has passed over when it succeeds: a line, or the beginning of data that are
not isolated, unless it has stored a FETCH response or none. -/
theorem parseNext_passed {s' : ResponseParser} (hp : p ≤ d.length) (hd : d.length < 2 ^ 31)
    (h : parseNext.run ⟨d, p, κ, none, m⟩ = .ok (true, s')) :
    Exempt s' ∨ Passed Isolated ⟨d, p, κ, none, m⟩ s' := by
  rw [parseNext, run_bind_of_ok (StateT.run_get _)] at h
  split at h
  · cases h
  rcases ifM_run_eq_ok h with ⟨s₁, hresponse, h₁⟩ | ⟨s₁, hresponse, h₁⟩
  · cases h₁
    exact parseResponse_passed hp hd hresponse
  obtain ⟨r₁, m₁, rfl⟩ := tidy_parseResponse.failed hp hd hresponse
  rcases ifM_run_eq_ok h₁ with ⟨s₂, hgreeting, h₂⟩ | ⟨s₂, hgreeting, h₂⟩
  · cases h₂
    obtain ⟨w, v, hat, hds, hps, kind, t, ht, hv, rfl⟩ :=
      (reads_parseGreeting _ ⟨hp, hd⟩ _ _ hgreeting rfl).resolve_left id
    refine Or.inr ⟨_, v, hat, hds, hps, Or.inr ?_⟩
    cases kind with
    | preauth => exact .preauth t v ht hv
    | ok =>
      refine .greeting t v ht hv fun hcrlf => ?_
      obtain ⟨v, rfl⟩ := hcrlf
      have hbound := Nat.lt_of_le_of_lt hat.skip.1 hd
      have hcond : At d p (ascii "* " ++ Cond.ok.word ++ ascii " " ++ t ++ (crlf ++ v)) := hat
      have hstar : At d p (ascii "*" ++ (ascii " OK " ++ t ++ (crlf ++ v))) := hat
      rw [parseResponse_data hstar (by simp only at hbound; omega) (by
        rw [parseResponseData_cond .ok ht hv hcond hbound, expectCrlf_at hcond.skip]
        rfl)] at hresponse
      cases hresponse
  · cases h₂

/-! ## Data that are not isolated -/

/-- A word that has been passed over is the only one of its length. -/
lemma Passed.word {L : Bytes → Bytes → Prop} {s s' : ResponseParser} (h : Passed L s s')
    (hat : At s.data s.currPos (w ++ v)) (hp : s'.currPos = s.currPos + w.length) : L w v := by
  obtain ⟨w', v', hat', -, hp', hL⟩ := h
  obtain ⟨rfl, rfl⟩ := List.append_inj (hat.2.symm.trans hat'.2) (by omega)
  exact hL

/-- The text of a line does not end in a line feed. -/
lemma LineText.getLast?_ne (h : LineText w) : w.getLast? ≠ some lf :=
  fun hl => (h.line lf (List.mem_of_getLast? hl)).2 rfl

/-- A text, with a code or without one, does not end in a line feed. -/
lemma RespText.getLast?_ne (h : RespText w) : w.getLast? ≠ some lf := by
  cases h with
  | plain _ hw => exact hw.getLast?_ne
  | coded code rest hw _ hrest =>
    rw [hw, List.getLast?_append_of_ne_nil _ hrest.nonempty]
    exact hrest.getLast?_ne

/-- A text is not empty. -/
lemma RespText.ne_nil (h : RespText w) : w ≠ [] := by
  cases h with
  | plain _ hw => exact hw.nonempty
  | coded code rest hw _ hrest =>
    rw [hw]
    simp [hrest.nonempty]

/-- A response that ends in its text is no line. -/
lemma not_line_text (ht : RespText w) : ¬ Line (u ++ w) v := by
  rintro ⟨u', -, hw⟩
  have hlast : (u ++ w).getLast? = some lf := by
    rw [hw, List.getLast?_append_of_ne_nil _ (by decide)]
    rfl
  rw [List.getLast?_append_of_ne_nil _ ht.ne_nil] at hlast
  exact ht.getLast?_ne hlast

/-- A response with a line break before its CRLF is no line. -/
lemma not_line_break (hw : ¬ OneLine w) (hsub : w ⊆ u) : ¬ Line (u ++ crlf) v := by
  rintro ⟨u', hline, h⟩
  obtain rfl := List.append_cancel_right h
  exact hw fun c hc => hline c (hsub hc)

/-- No status response is a FETCH response. -/
lemma Cond.type_ne_fetch (c : Cond) : c.type ≠ .fetch := by
  cases c <;> decide

/-- Data that are not isolated contain a response. -/
lemma Unisolated.ne_nil {x : Bytes} (hx : Unisolated x) : x ≠ [] := by
  cases hx with
  | tagged tag c t v ht hbreak => simp [tag.nonempty]
  | _ => simp [ascii]

/-- Where the data are not isolated, `parse_next` succeeds and has not passed over a line. -/
lemma Unisolated.run {x : Bytes} (hx : Unisolated x) (h : At d p x) (hd : d.length < 2 ^ 31) :
    ∃ (w v : Bytes) (y : Response) (m' : Bytes), x = w ++ v ∧ ¬ Line w v ∧ y.getType ≠ .fetch ∧
      parseNext.run ⟨d, p, κ, none, m⟩ = .ok (true, ⟨d, p + w.length, κ, some y, m'⟩) := by
  have hlen := h.length_eq
  have hpos : x ≠ [] → p < d.length := fun hne => by
    have := List.length_pos_iff.mpr hne
    omega
  cases hx with
  | tagged tag c t v ht hbreak =>
    have hbound := Nat.lt_of_le_of_lt h.skip.1 hd
    rw [List.length_append] at hbound
    exact ⟨_, v, .status c.type tag.bytes t, m, rfl,
      not_line_break hbreak (List.subset_append_right _ t), c.type_ne_fetch,
      parseNext_response (hpos (by simp [tag.nonempty]))
        (parseResponse_tagged tag c ht h (by omega))⟩
  | untagged c t v ht hbreak =>
    have hat : At d p (ascii "* " ++ c.word ++ ascii " " ++ t ++ (crlf ++ v)) := h.assoc
    have hbound := Nat.lt_of_le_of_lt hat.skip.1 hd
    have hstar : At d p (ascii "*" ++ (ascii " " ++ c.word ++ ascii " " ++ t ++ crlf ++ v)) := h
    refine ⟨ascii "* " ++ c.word ++ ascii " " ++ t ++ crlf, v, .status c.type [] t, m, rfl,
      not_line_break hbreak (List.subset_append_right _ t), c.type_ne_fetch,
      parseNext_response (hpos (by simp [ascii])) (parseResponse_data hstar (by omega) ?_)⟩
    rw [parseResponseData_cond c ht (lineEnd_crlf v) hat hbound, expectCrlf_at hat.skip,
      ← hat.skip.skip.unique h.skip]
    rfl
  | bye t v ht hbreak =>
    have hat : At d p (ascii "* BYE " ++ t ++ (crlf ++ v)) := h.assoc
    have hbound := Nat.lt_of_le_of_lt hat.skip.1 hd
    have hstar : At d p (ascii "*" ++ (ascii " BYE " ++ t ++ crlf ++ v)) := h
    refine ⟨ascii "* BYE " ++ t ++ crlf, v, .status .bye [] t, m, rfl,
      not_line_break hbreak (List.subset_append_right _ t),
      (by decide : ResponseType.bye ≠ .fetch),
      parseNext_response (hpos (by simp [ascii])) (parseResponse_data hstar (by omega) ?_)⟩
    rw [parseResponseData_bye ht (lineEnd_crlf v) hat hbound, expectCrlf_at hat.skip,
      ← hat.skip.skip.unique h.skip]
    rfl
  | flags u v hu hbreak =>
    have hbound := Nat.lt_of_le_of_lt h.skip.1 hd
    rw [List.length_append] at hbound
    obtain ⟨m', hrun⟩ := parseNext_at (κ := κ) (r := none) (m := m) (.flags ⟨u, hu⟩) h
      (Nat.lt_of_le_of_lt (Nat.add_le_add_left (Nat.le_add_right _ _) p) hbound)
    exact ⟨_, v, .flags, m', rfl, not_line_break hbreak fun c hc => by simp [hc],
      (by decide : ResponseType.flags ≠ .fetch), hrun⟩
  | fatal t v ht hv hcrlf =>
    exact ⟨_, v, .status .bye [] t, m, rfl, not_line_text ht,
      (by decide : ResponseType.bye ≠ .fetch), parseNext_fatal ht hv hcrlf h hd⟩
  | greeting t v ht hv hcrlf =>
    exact ⟨_, v, .status .ok [] [], m, rfl, not_line_text ht,
      (by decide : ResponseType.ok ≠ .fetch),
      parseNext_greeting .ok ht hv h hd fun κ => parseResponseData_okOpen ht hv hcrlf h hd⟩
  | preauth t v ht hv =>
    have hat : At d p (ascii "* " ++ (ascii "PREAUTH" ++ (ascii " " ++ t ++ v))) := by
      simp only [List.append_assoc] at h ⊢
      exact h
    exact ⟨_, v, .status .preauth [] [], m, rfl, not_line_text ht,
      (by decide : ResponseType.preauth ≠ .fetch),
      parseNext_greeting .preauth ht hv h hd fun κ => parseResponseData_preauth hat hd⟩

/-! ## The main result -/

/-- **Line isolation.** On data shorter than `2 ^ 31`, called with a null pointer, `parse_next`
reads every response other than FETCH as exactly one line if and only if the data do not start with
one of the responses of `Unisolated`.

**Proof sketch.** What has been passed over by a success is a line or starts one of these responses
(`parseNext_passed`); conversely each of these is read, as something that is no line. -/
theorem line_isolated_iff (s : ResponseParser) (hnull : s.parsedResponse = none)
    (hd : s.data.length < 2 ^ 31) :
    LineIsolated s ↔ ¬ Unisolated (s.data.drop s.currPos) := by
  obtain ⟨d, p, κ, r, m⟩ := s
  simp only at hnull hd
  subst hnull
  constructor
  · intro h hx
    have hp : p ≤ d.length := by
      by_contra hlt
      exact hx.ne_nil (List.drop_eq_nil_of_le (Nat.le_of_not_le hlt))
    obtain ⟨w, v, y, m', hw, hline, hy, hrun⟩ := hx.run (κ := κ) (m := m) ⟨hp, rfl⟩ hd
    exact hline ((h _ y hrun rfl hy).word ⟨hp, hw⟩ rfl)
  · intro h s' x hrun hx hfetch
    have hp : p ≤ d.length := by
      by_contra hlt
      rw [parseNext, run_bind_of_ok (StateT.run_get _), if_pos (show d.length ≤ p by omega)] at hrun
      cases hrun
    rcases parseNext_passed hp hd hrun with hexempt | ⟨w, v, hat, hds, hps, hw | hw⟩
    · exact absurd (hexempt x hx) hfetch
    · exact ⟨w, v, hat, hds, hps, hw⟩
    · exact absurd (hat.2 ▸ hw) h

/-- A BYE that ends in a line feed alone is read up to this line feed. -/
theorem line_isolated_iff_fatal : ¬ LineIsolated (.ofData (ascii "* BYE x\n")) := by
  intro h
  refine (line_isolated_iff (.ofData (ascii "* BYE x\n")) rfl (by decide +kernel)).mp h ?_
  exact .fatal (ascii "x") (ascii "\n") (.plain (by decide) ⟨by decide +kernel, by decide +kernel⟩)
    ⟨lf, [], rfl, .inr rfl⟩ (by decide)

/-- A bracket that is closed on a later line takes the response between along. -/
theorem line_swallowed :
    parseNext.run (.ofData (ascii "* OK [a\r\n* 1 EXISTS\r\nb] c\r\n")) =
      .ok (true, ⟨ascii "* OK [a\r\n* 1 EXISTS\r\nb] c\r\n", 27, [],
        some (.status .ok [] (ascii "[a\r\n* 1 EXISTS\r\nb] c")), []⟩) ∧
      ¬ LineIsolated (.ofData (ascii "* OK [a\r\n* 1 EXISTS\r\nb] c\r\n")) := by
  have hrun : parseNext.run (.ofData (ascii "* OK [a\r\n* 1 EXISTS\r\nb] c\r\n")) =
      .ok (true, ⟨ascii "* OK [a\r\n* 1 EXISTS\r\nb] c\r\n", 27, [],
        some (.status .ok [] (ascii "[a\r\n* 1 EXISTS\r\nb] c")), []⟩) := by decide +kernel
  refine ⟨hrun, fun h => ?_⟩
  have hpassed := h _ _ hrun rfl (by decide)
  obtain ⟨u, hline, hu⟩ := hpassed.word (w := ascii "* OK [a\r\n* 1 EXISTS\r\nb] c" ++ crlf)
    (v := []) ⟨Nat.zero_le _, rfl⟩ rfl
  obtain rfl := List.append_cancel_right hu
  exact absurd (hline cr (by decide)).1 (by decide)

end Imapcl
