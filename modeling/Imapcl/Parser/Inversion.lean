import Imapcl.Parser.Discipline
import Imapcl.Parser.Elements
import Imapcl.Parser.Success

set_option relaxedAutoImplicit false
set_option autoImplicit false

/-!
# What has been read

The converse of the runs on wire forms: which words a nonterminal can have passed over when it
answers `true`, on arbitrary data shorter than `2 ^ 31`. A language says which word may be read
where which bytes follow; the rules build the language of a nonterminal from those of its parts.

## Main definitions

* `Imapcl.Passed` — the position has moved over a word of a language.
* `Imapcl.ReadsUnless`, `Imapcl.Reads` — a method reads a language.

## Main results

* `Imapcl.parseRespTextCode_run` — the run of `parse_resp_text_code` on any bytes.
* `Imapcl.reads_parseRespText`, `Imapcl.reads_parseStatusText` — status texts.
* `Imapcl.reads_parseMailboxData` — mailbox data.
-/

namespace Imapcl

open StateExcept Cursor

variable {α β : Type} {ok : α → Bool} {E : ResponseParser → Prop}
  {L M N : Bytes → Bytes → Prop} {d u v w : Bytes} {p q : ℕ} {κ : List ℤ} {r : Option Response}
  {m : Bytes}

/-! ## Languages -/

/-- From `s` to `s'` the position has moved over a word `w` before bytes `v` with `L w v`. -/
def Passed (L : Bytes → Bytes → Prop) (s s' : ResponseParser) : Prop :=
  ∃ w v, At s.data s.currPos (w ++ v) ∧ s'.data = s.data ∧ s'.currPos = s.currPos + w.length ∧ L w v

/-- The language of one word. -/
def Word (u : Bytes) : Bytes → Bytes → Prop := fun w _ => w = u

/-- A word of the first language and then one of the second. -/
def Then (L M : Bytes → Bytes → Prop) : Bytes → Bytes → Prop :=
  fun w v => ∃ w₁ w₂, w = w₁ ++ w₂ ∧ L w₁ (w₂ ++ v) ∧ M w₂ v

/-- Where the method succeeds, in a state outside of `E`, it has read a word of `L`; `ok` reads its
verdict off its result. -/
def ReadsUnless (E : ResponseParser → Prop) (ok : α → Bool) (x : Parser α)
    (L : Bytes → Bytes → Prop) : Prop :=
  ∀ s, Inside s → Ensures x s fun a s' => ok a = true → E s' ∨ Passed L s s'

/-- Where the method succeeds, it has read a word of `L`. -/
abbrev Reads (ok : α → Bool) (x : Parser α) (L : Bytes → Bytes → Prop) : Prop :=
  ReadsUnless (fun _ => False) ok x L

/-- One word after another. -/
lemma Passed.trans {s s' s'' : ResponseParser} (h : Passed L s s') (h' : Passed M s' s'') :
    Passed (Then L M) s s'' := by
  obtain ⟨w₁, v₁, hat₁, hd₁, hp₁, hL⟩ := h
  obtain ⟨w₂, v₂, hat₂, hd₂, hp₂, hM⟩ := h'
  have hv : v₁ = w₂ ++ v₂ := by
    have := hat₁.skip.2
    rw [← this, ← hat₂.2, hd₁, hp₁]
  rw [hv] at hat₁ hL
  refine ⟨w₁ ++ w₂, v₂, by rwa [List.append_assoc], hd₂.trans hd₁, ?_, w₁, w₂, rfl, hL, hM⟩
  rw [hp₂, hp₁, List.length_append, Nat.add_assoc]

/-- Passing over a word keeps the position inside the data. -/
lemma Passed.inside {s s' : ResponseParser} (h : Passed L s s') (hs : Inside s) : Inside s' := by
  obtain ⟨w, v, hat, hd, hp, -⟩ := h
  have := hat.skip.1
  rw [Inside, hd, hp]
  exact ⟨this, hs.2⟩

/-- Passing over nothing. -/
lemma Passed.still {s s' : ResponseParser} (hs : Inside s) (hd : s'.data = s.data)
    (hp : s'.currPos = s.currPos) : Passed (Word []) s s' :=
  ⟨[], s.data.drop s.currPos, ⟨hs.1, rfl⟩, hd, hp, rfl⟩

/-- The empty word before a word. -/
lemma then_nil_left : Then (Word []) L = L := by
  funext w v
  refine propext ⟨?_, fun h => ⟨[], w, rfl, rfl, h⟩⟩
  rintro ⟨_, w₂, rfl, rfl, h⟩
  exact h

/-- The empty word after a word. -/
lemma then_nil_right : Then L (Word []) = L := by
  funext w v
  refine propext ⟨?_, fun h => ⟨w, [], (List.append_nil w).symm, h, rfl⟩⟩
  rintro ⟨w₁, _, rfl, h, rfl⟩
  simpa using h

/-! ## Rules -/

namespace ReadsUnless

/-- A larger language. -/
lemma mono {x : Parser α} (h : ReadsUnless E ok x L) (hLM : ∀ w v, L w v → M w v) :
    ReadsUnless E ok x M := by
  intro s hs
  refine (h s hs).mono fun a s' h ha => (h ha).imp_right ?_
  rintro ⟨w, v, hat, hd, hp, hL⟩
  exact ⟨w, v, hat, hd, hp, hLM w v hL⟩

/-- A method that succeeds only in `E`. -/
lemma of_succeeds {x : Parser Bool} (h : Succeeds x E) : ReadsUnless E id x L :=
  fun s _ => (h s).mono fun _ _ he hb => Or.inl (he hb)

/-- `PARSE_FAIL` is no success. -/
lemma fails {a : α} (ha : ok a = false) (s : ResponseParser) :
    Ensures (parseFailWith a) s fun b _ => ok b = false := by
  obtain ⟨d, p, κ, r, m⟩ := s
  intro b s' hr
  cases κ with
  | nil => cases hr
  | cons x κ =>
    cases hr
    exact ha

/-- `PARSE_FAIL`. -/
lemma fail {a : α} (ha : ok a = false) : ReadsUnless E ok (parseFailWith a) L := by
  intro s hs
  refine (fails ha s).mono fun b s' hb hok => ?_
  rw [hb] at hok
  cases hok

/-- `throw`. -/
lemma throw {f : Fault} : ReadsUnless E ok (MonadExcept.throw f : Parser α) L :=
  fun _ _ => Ensures.throw

/-- `PARSE_SUCCESS`. -/
lemma success {a : α} : ReadsUnless E ok (parseSuccessWith a) (Word []) := by
  rintro ⟨d, p, κ, r, m⟩ hs b s' hr hb
  cases κ with
  | nil => cases hr
  | cons x κ =>
    cases hr
    exact Or.inr (Passed.still hs rfl rfl)

/-- Reading the state. -/
lemma get {k : ResponseParser → Parser α} (hk : ∀ x, ReadsUnless E ok (k x) L) :
    ReadsUnless E ok (MonadState.get >>= k) L :=
  fun s hs b s' hr => hk s s hs b s' hr

/-- One method after another, where nothing succeeds after the first one has failed. -/
lemma bindOk {okx : β → Bool} {x : Parser β} {k : β → Parser α} (hx : Reads okx x L)
    (hfail : ∀ b, okx b = false → ∀ s, Ensures (k b) s fun a _ => ok a = false)
    (hk : ∀ b, okx b = true → ReadsUnless E ok (k b) M) :
    ReadsUnless E ok (x >>= k) (Then L M) := by
  intro s hs
  refine Ensures.bind ((hx s hs).mono fun b s' h => ?_)
  cases hb : okx b with
  | true =>
    have hpassed := (h hb).resolve_left id
    exact (hk b hb s' (hpassed.inside hs)).mono fun a s'' h' ha => (h' ha).imp_right hpassed.trans
  | false =>
    refine (hfail b hb s').mono fun a s'' ha hok => ?_
    rw [ha] at hok
    cases hok

/-- One method after another. -/
lemma bind {x : Parser β} {k : β → Parser α} (hx : Reads (fun _ => true) x L)
    (hk : ∀ b, ReadsUnless E ok (k b) M) : ReadsUnless E ok (x >>= k) (Then L M) :=
  bindOk hx (fun _ h => by cases h) fun b _ => hk b

/-- An action that does not move the position. -/
lemma still {x : Parser β} {k : β → Parser α}
    (hx : Preserves (fun s : ResponseParser => (s.data, s.currPos)) x)
    (hk : ∀ b, ReadsUnless E ok (k b) L) : ReadsUnless E ok (x >>= k) L := by
  rw [← then_nil_left (L := L)]
  refine bind (fun s hs => (hx s).mono fun b s' h _ => Or.inr ?_) hk
  exact Passed.still hs (Prod.mk.inj h).1 (Prod.mk.inj h).2

/-- A nonterminal that saves its position. -/
lemma saved {x : Parser α} (hx : ReadsUnless E ok x L) :
    ReadsUnless E ok (savePos >>= fun _ => x) L :=
  still (Preserves.modify fun _ => rfl) fun _ => hx

/-- A plain branch. -/
lemma ite {c : Prop} [Decidable c] {t e : Parser α} (ht : ReadsUnless E ok t L)
    (he : ReadsUnless E ok e L) : ReadsUnless E ok (if c then t else e) L := by
  split
  · exact ht
  · exact he

/-- A branch on a method that goes back to its start when it fails. -/
lemma ifM {c : Parser Bool} {t e : Parser α} (hc : Reads id c L) (htidy : Tidy id c)
    (ht : ReadsUnless E ok t M) (he : ReadsUnless E ok e N) :
    ReadsUnless E ok (StateExcept.ifM c t e) (fun w v => Then L M w v ∨ N w v) := by
  intro s hs b s'' hr
  obtain ⟨verdict, s', hc', hr⟩ := run_bind_eq_ok_iff.mp hr
  cases verdict with
  | true =>
    have hpassed := (hc s hs true s' hc' rfl).resolve_left id
    refine fun hb => (ht s' (hpassed.inside hs) b s'' hr hb).imp_right fun h => ?_
    obtain ⟨w, v, hat, hd, hp, hL⟩ := hpassed.trans h
    exact ⟨w, v, hat, hd, hp, Or.inl hL⟩
  | false =>
    obtain ⟨hd', -, hp'⟩ := htidy s hs false s' hc'
    have hp'' : s'.currPos = s.currPos := by simpa using hp'
    refine fun hb => (he s' (by rwa [Inside, hd', hp'']) b s'' hr hb).imp_right ?_
    rintro ⟨w, v, hat, hd, hp, hN⟩
    rw [hd', hp''] at hat
    exact ⟨w, v, hat, hd.trans hd', by rw [hp, hp''], Or.inr hN⟩

/-- `if (!p()) PARSE_FAIL`. -/
lemma expect {c rest : Parser Bool} (hc : Reads id c L) (hr : ReadsUnless E id rest M) :
    ReadsUnless E id (Imapcl.expect c rest) (Then L M) := by
  refine bindOk hc (fun b hb => ?_) fun b hb => ?_
  · obtain rfl : b = false := hb
    exact fails rfl
  · obtain rfl : b = true := hb
    exact hr

/-- `if (!p()) PARSE_FAIL` at the end of a nonterminal. -/
lemma last {c : Parser Bool} (hc : Reads id c L) :
    ReadsUnless E id (Imapcl.expect c parseSuccess) L := by
  have h : ReadsUnless E id (Imapcl.expect c parseSuccess) (Then L (Word [])) := expect hc success
  rwa [then_nil_right] at h

/-- `if (!p(x)) PARSE_FAIL`. -/
lemma expectSome {x : Parser (Option β)} {rest : β → Parser Bool} (hx : Reads Option.isSome x L)
    (hr : ∀ b, ReadsUnless E id (rest b) M) :
    ReadsUnless E id (Imapcl.expectSome x rest) (Then L M) := by
  refine bindOk hx (fun o ho => ?_) fun o ho => ?_
  · obtain rfl : o = none := by simpa using ho
    exact fails rfl
  · obtain ⟨b, rfl⟩ := Option.isSome_iff_exists.mp ho
    exact hr b

end ReadsUnless

/-! ## Elements -/

/-- A substring leaves data and position alone. -/
lemma preserves_substr (i n : ℕ) :
    Preserves (fun s : ResponseParser => (s.data, s.currPos)) (substr i n) :=
  fun s => (ensures_substr i n s).mono fun _ s' h => by rw [h]

/-- Setting the tag leaves data and position alone. -/
lemma preserves_setResponseTag (tag : Bytes) :
    Preserves (fun s : ResponseParser => (s.data, s.currPos)) (setResponseTag tag) := by
  rintro ⟨d, p, κ, r, m⟩ a s' hr
  cases r with
  | none => cases hr
  | some r =>
    rw [setResponseTag, run_bind_of_ok (StateT.run_get _)] at hr
    cases h : r.setTag tag with
    | error ex =>
      simp only [h] at hr
      cases hr
    | ok r' =>
      simp only [h] at hr
      cases hr
      rfl

/-- A method that reads a word, from the equations of its runs. -/
lemma reads_matchStr (u : Bytes) : Reads id (matchStr u) (Word u) := by
  rintro ⟨d, p, κ, r, m⟩ ⟨hp, hd⟩ b s' hr hb
  by_cases hw : u <+: d.drop p
  · rw [matchStr_run_true hp hw] at hr
    cases hr
    obtain ⟨v, hv⟩ := hw
    exact Or.inr ⟨u, v, ⟨hp, hv.symm⟩, rfl, rfl, rfl⟩
  · rw [matchStr_run_false hp hw] at hr
    cases hr
    cases hb

/-- `EXPECT_MATCH`. -/
lemma reads_expectMatch {a : String} {rest : Parser Bool} (hr : ReadsUnless E id rest M) :
    ReadsUnless E id (expectMatch a rest) (Then (Word (ascii a)) M) :=
  ReadsUnless.expect (reads_matchStr _) hr

/-- A line end reads CRLF. -/
lemma reads_matchCrlf : Reads id matchCrlf (Word crlf) :=
  ReadsUnless.saved (ReadsUnless.last (reads_matchStr crlf))

/-- A scanning loop reads characters of its class. -/
lemma reads_scanWhile (f : UInt8 → Bool) :
    Reads (fun _ => true) (scanWhile f) fun w _ => ∀ c ∈ w, f c = true := by
  rintro ⟨d, p, κ, r, m⟩ ⟨hp, hd⟩ b s' hr hb
  rw [scanWhile_run hp] at hr
  cases hr
  exact Or.inr ⟨_, _, At.longest_prefix f hp, rfl, rfl, fun c hc => List.mem_takeWhile_imp hc⟩

/-- Skipping to a bracket reads a word without it. -/
lemma reads_skipTo (c : UInt8) : Reads (fun _ => true) (skipTo c) fun w _ => c ∉ w := by
  rintro ⟨d, p, κ, r, m⟩ ⟨hp, hd⟩ b s' hr hb
  cases hr
  refine Or.inr ⟨_, _, At.longest_prefix (· ≠ c) hp, rfl, rfl, fun hc => ?_⟩
  simpa using List.mem_takeWhile_imp hc

/-- `parse_number` reads digits. -/
lemma reads_parseNumber :
    Reads Option.isSome parseNumber fun w _ => ∀ c ∈ w, isDigit c = true := by
  have h : Reads Option.isSome parseNumber
      (Then (fun w _ => ∀ c ∈ w, isDigit c = true) (Word [])) :=
    ReadsUnless.saved <| ReadsUnless.bind (reads_scanWhile isDigit) fun digits =>
      ReadsUnless.ite (ReadsUnless.fail rfl) ReadsUnless.success
  rwa [then_nil_right] at h

/-- `parse_tag` reads a tag. -/
lemma reads_parseTag : Reads id parseTag fun w _ => ∃ tag : Tag, w = tag.bytes := by
  rintro ⟨d, p, κ, r, m⟩ ⟨hp, hd⟩ b s' hr hb
  rw [parseTag, run_bind_of_ok (scanWhile_run hp)] at hr
  cases hr
  have hne : (d.drop p).takeWhile isAlnum ≠ [] := by simpa using hb
  exact Or.inr ⟨_, _, At.longest_prefix isAlnum hp, rfl, rfl,
    ⟨_, hne, fun c hc => List.mem_takeWhile_imp hc⟩, rfl⟩

/-- What `parse_flag_list` and its relatives read: a bracket, a word without the closing one, and
the closing one. -/
lemma reads_parseBracketed (o c : Char) (what : String) :
    Reads id (parseBracketed o c what) fun w _ =>
      ∃ u, byte c ∉ u ∧ w = [byte o] ++ u ++ [byte c] := by
  have h : Reads id (parseBracketed o c what)
      (Then (Word [byte o]) (Then (fun w _ => byte c ∉ w) (Word [byte c]))) :=
    ReadsUnless.expect (reads_matchStr _) <| ReadsUnless.bind (reads_skipTo _) fun _ =>
      ReadsUnless.get fun _ => ReadsUnless.ite ReadsUnless.throw
        (ReadsUnless.last (reads_matchStr _))
  refine h.mono ?_
  rintro w v ⟨_, _, rfl, rfl, u, _, rfl, hu, rfl⟩
  exact ⟨u, hu, by simp⟩

/-- A list of flags ends at its first closing parenthesis. -/
lemma reads_parseFlagList : Reads id parseFlagList fun w _ =>
    ∃ u, byte ')' ∉ u ∧ w = [byte '('] ++ u ++ [byte ')'] :=
  ReadsUnless.saved (reads_parseBracketed _ _ _)

/-! ## Texts -/

/-- `parse_text_char` answers `true` at a character of a line or at the terminator, and `false` at
the end of a line. -/
lemma parseTextChar_cases {s : ResponseParser} (hd : s.data.length < 2 ^ 31) :
    Ensures parseTextChar s fun b s' => s'.data = s.data ∧ if b
      then s'.currPos = s.currPos + 1 ∧ (s'.currPos ≤ s.data.length →
        ∃ c, At s.data s.currPos (c :: s.data.drop s'.currPos) ∧ c ≠ cr ∧ c ≠ lf)
      else s'.currPos = s.currPos ∧ s.currPos ≤ s.data.length ∧
        LineEnd (s.data.drop s.currPos) := by
  obtain ⟨d, p, κ, r, m⟩ := s
  intro b s' hr
  simp only at hd
  rcases Nat.lt_or_ge d.length p with hp | hp
  · rw [parseTextChar_run_beyond hp] at hr
    cases hr
  rw [parseTextChar_run hp, toSizeT_wrap32 (by omega)] at hr
  split at hr
  · rename_i hc
    cases hr
    cases hv : d.drop p with
    | nil =>
      rw [hv] at hc
      exact absurd hc (by decide)
    | cons c v =>
      rw [hv, List.headD_cons] at hc
      exact ⟨rfl, rfl, hp, c, v, rfl, hc⟩
  · rename_i hc
    cases hr
    refine ⟨rfl, rfl, fun hp' => ?_⟩
    have hlt : p < d.length := hp'
    rw [List.drop_eq_getElem_cons hlt, List.headD_cons, not_or] at hc
    exact ⟨d[p], ⟨hp, List.drop_eq_getElem_cons hlt⟩, hc⟩

/-- One more character on a line. -/
lemma LineText.snoc {c : UInt8} (hw : ∀ a ∈ w, a ≠ cr ∧ a ≠ lf) (hc : c ≠ cr ∧ c ≠ lf) :
    LineText (w ++ [c]) := by
  refine ⟨by simp, fun a ha => ?_⟩
  rcases List.mem_append.mp ha with ha | ha
  · exact hw a ha
  · rwa [List.mem_singleton.mp ha]

/-- One round of the loop of `parse_text`, with its invariant: where the position is inside the
data, it stands behind a text that fits on a line. -/
lemma textRound_ensures {s : ResponseParser} (hd : d.length < 2 ^ 31) (hs : s.data = d)
    (hI : s.currPos ≤ d.length → ∃ w, (∀ c ∈ w, c ≠ cr ∧ c ≠ lf) ∧
      At d p (w ++ d.drop s.currPos) ∧ s.currPos = p + w.length) :
    Ensures parseTextChar s fun b s' => s'.data = d ∧ if b
      then s'.currPos ≤ d.length → ∃ w, LineText w ∧
        At d p (w ++ d.drop s'.currPos) ∧ s'.currPos = p + w.length
      else s'.currPos = s.currPos ∧ s.currPos ≤ d.length ∧ LineEnd (d.drop s.currPos) := by
  subst hs
  refine (parseTextChar_cases hd).mono fun b s' h => ⟨h.1, ?_⟩
  cases b with
  | false => exact h.2
  | true =>
    obtain ⟨-, hp, hchar⟩ := h
    rw [if_pos rfl]
    intro hin
    obtain ⟨c, hat, hc⟩ := hchar hin
    obtain ⟨w, hw, hat', hp'⟩ := hI hat.1
    refine ⟨w ++ [c], LineText.snoc hw hc, ?_, ?_⟩
    · rw [hat.2] at hat'
      simpa using hat'
    · rw [hp, hp', List.length_append, List.length_singleton, Nat.add_assoc]

/-- `parse_text` reads the text up to the end of the line.

**Proof sketch.** A round that steps over the terminator leaves the data, and from there no round
answers `false`; so the loop ends inside the data, behind a text that fits on a line. -/
lemma reads_parseText : Reads id parseText fun w v => LineText w ∧ LineEnd v := by
  rintro ⟨d, p, κ, r, m⟩ ⟨hp, hd⟩ b s'' hr hb
  simp only at hp hd
  rw [parseText, run_bind_of_ok savePos_run] at hr
  obtain ⟨success, s₁, h₁, hr⟩ := run_bind_eq_ok_iff.mp hr
  obtain ⟨_, s₂, h₂, hr⟩ := run_bind_eq_ok_iff.mp hr
  cases success with
  | false =>
    subst hb
    exact absurd hr parseFail_ne_true
  | true =>
    obtain ⟨hd₁, hfirst⟩ := textRound_ensures (p := p) hd rfl
      (fun _ => ⟨[], by simp, ⟨hp, rfl⟩, rfl⟩) _ _ h₁
    rw [if_pos rfl] at hfirst
    rw [whileParser, run_bind_of_ok (StateT.run_get _)] at h₂
    have hloop := Ensures.repeatWhile
      (fun s => s.data = d ∧ (s.currPos ≤ d.length → ∃ w, LineText w ∧
        At d p (w ++ d.drop s.currPos) ∧ s.currPos = p + w.length))
      (fun s => s.data = d ∧ ∃ w v, LineText w ∧ LineEnd v ∧ At d p (w ++ v) ∧
        s.currPos = p + w.length)
      (fun s hI => (textRound_ensures hd hI.1 fun hin => by
        obtain ⟨w, hw, hrest⟩ := hI.2 hin
        exact ⟨w, hw.line, hrest⟩).mono fun b s' h => by
          cases b with
          | true => exact h
          | false =>
            obtain ⟨hd', hp', hin, hend⟩ := h
            obtain ⟨w, hw, hat, hpos⟩ := hI.2 hin
            exact ⟨hd', w, _, hw, hend, hat, hp'.trans hpos⟩)
      _ s₁ ⟨hd₁, hfirst⟩ _ s₂ h₂
    obtain ⟨hd₂, w, v, hw, hv, hat, hpos⟩ := hloop
    obtain ⟨d₂, p₂, κ₂, r₂, m₂⟩ := s₂
    cases κ₂ with
    | nil => cases hr
    | cons x κ₂ =>
      cases hr
      exact Or.inr ⟨w, v, hat, hd₂, hpos, hw, hv⟩

/-! ## Codes -/

/-- A code that begins with none of the recognised ones. -/
lemma respTextCode_other {code : Bytes} (hfree : byte ']' ∉ code) (ha : ¬ ascii "ALERT" <+: code)
    (hu : ¬ ascii "UNSEEN" <+: code) (ho : ¬ ascii "READ-ONLY" <+: code)
    (hw : ¬ ascii "READ-WRITE" <+: code) : RespTextCode code :=
  ⟨hfree, fun h => absurd h ha, fun h => absurd h hu, fun h => absurd h ho, fun h => absurd h hw⟩

/-- `ALERT` stands alone. -/
lemma respTextCode_alert : RespTextCode (ascii "ALERT") :=
  ⟨by decide, fun _ => rfl, fun h => absurd h (by decide), fun h => absurd h (by decide),
    fun h => absurd h (by decide)⟩

/-- `READ-ONLY` stands alone. -/
lemma respTextCode_readOnly : RespTextCode (ascii "READ-ONLY") :=
  ⟨by decide, fun h => absurd h (by decide), fun h => absurd h (by decide), fun _ => rfl,
    fun h => absurd h (by decide)⟩

/-- `READ-WRITE` stands alone. -/
lemma respTextCode_readWrite : RespTextCode (ascii "READ-WRITE") :=
  ⟨by decide, fun h => absurd h (by decide), fun h => absurd h (by decide),
    fun h => absurd h (by decide), fun _ => rfl⟩

/-- `UNSEEN` has a number behind it. -/
lemma respTextCode_unseen {ds : Bytes} (hne : ds ≠ []) (hds : ∀ c ∈ ds, isDigit c = true) :
    RespTextCode (ascii "UNSEEN " ++ ds) := by
  refine ⟨?_, fun h => absurd h (not_prefix_append (by decide)), fun _ => ⟨ds, hne, hds, rfl⟩,
    fun h => absurd h (not_prefix_append (by decide)),
    fun h => absurd h (not_prefix_append (by decide))⟩
  rw [List.mem_append, not_or]
  exact ⟨by decide, fun hm => absurd (hds _ hm) (by decide)⟩

/-- What `parse_resp_text_code` does ahead of `w`: it passes over a code and, where it fails, over
nothing. A word that it passes over before a closing bracket is a well-formed code. -/
def ReadsCode (x : Parser Bool) (s : ResponseParser) (w : Bytes) : Prop :=
  ∃ b code rest, w = code ++ rest ∧ (rest.head? = some (byte ']') → RespTextCode code) ∧
    x.run s = .ok (b, { s with currPos := s.currPos + code.length })

/-- A failure that goes back to before a word that is not the closing bracket. -/
lemma ReadsCode.of_fail {s : ResponseParser} (hw : w.head? ≠ some (byte ']'))
    (hrun : parseRespTextCode.run s = .ok (false, s)) : ReadsCode parseRespTextCode s w :=
  ⟨false, [], w, rfl, fun h => absurd h hw, hrun⟩

/-- After `UNSEEN`, a space and a number are read, or the method fails. -/
lemma readsCode_unseen {rest : Bytes} (h : At d p (ascii "UNSEEN" ++ rest)) (hp : p < 2 ^ 31) :
    ReadsCode parseRespTextCode ⟨d, p, κ, r, m⟩ (ascii "UNSEEN" ++ rest) := by
  have hhead : (ascii "UNSEEN" ++ rest).head? ≠ some (byte ']') := by
    rw [List.head?_append_of_ne_nil _ (by decide)]
    decide
  have hrun : parseRespTextCode.run ⟨d, p, κ, r, m⟩ =
      (expectMatch " " <| expectSome parseNumber fun _ => parseSuccess).run
        ⟨d, p + (ascii "UNSEEN").length, wrap32 p :: κ, r, m⟩ := by
    rw [parseRespTextCode, run_bind_of_ok savePos_run,
      ifM_run_false (matchStr_not h (not_prefix_append (by decide))), ifM_run_true (matchStr_at h)]
  by_cases hspace : ascii " " <+: rest
  swap
  · exact ReadsCode.of_fail hhead (by rw [hrun, expectMatch_not h.skip hp hspace])
  obtain ⟨rest, rfl⟩ := hspace
  have hrest := h.skip.skip
  rw [expectMatch_at h.skip] at hrun
  obtain ⟨digits, rest, rfl, hds, hv⟩ := exists_longest_prefix isDigit rest
  by_cases hne : digits = []
  · subst hne
    refine ReadsCode.of_fail hhead ?_
    rw [hrun, expectSome, run_bind_of_ok (parseNumber_none hrest hv)]
    exact parseFail_run hp
  · refine ⟨true, ascii "UNSEEN " ++ digits, rest, ?_, fun _ => respTextCode_unseen hne hds, ?_⟩
    · rw [List.append_assoc]
      rfl
    · rw [hrun, expectSome, run_bind_of_ok (parseNumber_digits hrest hne hds hv),
        List.length_append, show (ascii "UNSEEN ").length =
          (ascii "UNSEEN").length + (ascii " ").length from rfl, ← Nat.add_assoc, ← Nat.add_assoc]
      rfl

/-- Ahead of none of the recognised codes, the bytes up to the next closing bracket are passed
over; without one the method fails. -/
lemma readsCode_other (h : At d p w) (hp : p < 2 ^ 31) (ha : ¬ ascii "ALERT" <+: w)
    (hu : ¬ ascii "UNSEEN" <+: w) (ho : ¬ ascii "READ-ONLY" <+: w)
    (hw : ¬ ascii "READ-WRITE" <+: w) : ReadsCode parseRespTextCode ⟨d, p, κ, r, m⟩ w := by
  have hrun : parseRespTextCode.run ⟨d, p, κ, r, m⟩ = (do
      skipTo (byte ']')
      let s ← get
      if s.currPos < s.data.length then do
        if (← charAt) = byte ']' then parseSuccess else parseFail
      else parseFail).run ⟨d, p, wrap32 p :: κ, r, m⟩ := by
    rw [parseRespTextCode, run_bind_of_ok savePos_run, ifM_run_false (matchStr_not h ha),
      ifM_run_false (matchStr_not h hu), ifM_run_false (by
        rw [ifM_run_false (matchStr_not h ho), matchStr_not h hw])]
  by_cases hmem : byte ']' ∈ w
  · obtain ⟨code, rest, rfl, hfree⟩ := List.eq_append_cons_of_mem hmem
    have hlen := h.length_eq
    rw [List.length_append, List.length_cons] at hlen
    have hcode : ∀ x, ¬ x <+: code ++ byte ']' :: rest → ¬ x <+: code :=
      fun x hx hx' => hx (hx'.trans (List.prefix_append _ _))
    refine ⟨true, code, byte ']' :: rest, rfl, fun _ => respTextCode_other hfree (hcode _ ha)
      (hcode _ hu) (hcode _ ho) (hcode _ hw), ?_⟩
    rw [hrun, run_bind_of_ok (skipTo_at h hfree), run_bind_of_ok (StateT.run_get _),
      if_pos (show p + code.length < d.length by omega), run_bind_of_ok (charAt_run h.skip.1),
      h.skip.2, List.headD_cons, if_pos rfl]
    rfl
  · have hlen := h.length_eq
    refine ReadsCode.of_fail (fun hhead => hmem (List.mem_of_head? hhead)) ?_
    rw [hrun, run_bind_of_ok (skipTo_end h hmem), run_bind_of_ok (StateT.run_get _),
      if_neg (show ¬ p + w.length < d.length by omega)]
    exact parseFail_run hp

/-- `parse_resp_text_code` on any bytes. -/
lemma readsCode_parseRespTextCode (h : At d p w) (hp : p < 2 ^ 31) :
    ReadsCode parseRespTextCode ⟨d, p, κ, r, m⟩ w := by
  by_cases ha : ascii "ALERT" <+: w
  · obtain ⟨rest, rfl⟩ := ha
    refine ⟨true, ascii "ALERT", rest, rfl, fun _ => respTextCode_alert, ?_⟩
    rw [parseRespTextCode, run_bind_of_ok savePos_run, ifM_run_true (matchStr_at h)]
    rfl
  by_cases hu : ascii "UNSEEN" <+: w
  · obtain ⟨rest, rfl⟩ := hu
    exact readsCode_unseen h hp
  by_cases ho : ascii "READ-ONLY" <+: w
  · obtain ⟨rest, rfl⟩ := ho
    refine ⟨true, ascii "READ-ONLY", rest, rfl, fun _ => respTextCode_readOnly, ?_⟩
    rw [parseRespTextCode, run_bind_of_ok savePos_run, ifM_run_false (matchStr_not h ha),
      ifM_run_false (matchStr_not h hu), ifM_run_true (by
        rw [ifM_run_true (matchStr_at h)]
        rfl)]
    rfl
  by_cases hw : ascii "READ-WRITE" <+: w
  · obtain ⟨rest, rfl⟩ := hw
    refine ⟨true, ascii "READ-WRITE", rest, rfl, fun _ => respTextCode_readWrite, ?_⟩
    rw [parseRespTextCode, run_bind_of_ok savePos_run, ifM_run_false (matchStr_not h ha),
      ifM_run_false (matchStr_not h hu), ifM_run_true (by
        rw [ifM_run_false (matchStr_not h ho), matchStr_at h])]
    rfl
  exact readsCode_other h hp ha hu ho hw

/-! ## Status texts -/

/-- A branch on a literal match: in the second alternative the literal does not stand ahead. -/
lemma ReadsUnless.ifMatch {t e : Parser α} (ht : ReadsUnless E ok t M)
    (he : ReadsUnless E ok e N) :
    ReadsUnless E ok (StateExcept.ifM (matchStr u) t e)
      (fun w v => Then (Word u) M w v ∨ ¬ u <+: w ++ v ∧ N w v) := by
  rintro ⟨d, p, κ, r, m⟩ hs b s' hr hb
  by_cases hu : u <+: d.drop p
  · obtain ⟨v, hv⟩ := hu
    have hpassed : Passed (Word u) ⟨d, p, κ, r, m⟩ ⟨d, p + u.length, κ, r, m⟩ :=
      ⟨u, v, ⟨hs.1, hv.symm⟩, rfl, rfl, rfl⟩
    rw [ifM_run_true (matchStr_run_true hs.1 ⟨v, hv⟩)] at hr
    refine (ht _ (hpassed.inside hs) b s' hr hb).imp_right fun h => ?_
    obtain ⟨w, v, hat, hd, hp, hM⟩ := hpassed.trans h
    exact ⟨w, v, hat, hd, hp, Or.inl hM⟩
  · rw [ifM_run_false (matchStr_run_false hs.1 hu)] at hr
    refine (he _ hs b s' hr hb).imp_right ?_
    rintro ⟨w, v, hat, hd, hp, hN⟩
    refine ⟨w, v, hat, hd, hp, Or.inr ⟨?_, hN⟩⟩
    rwa [← hat.2]

/-- `parse_resp_text` reads a text, with a code or without one. -/
lemma reads_parseRespText : Reads id parseRespText fun w v => RespText w ∧ LineEnd v := by
  have hcode : Reads (fun _ => true) (discard parseRespTextCode)
      fun w v => v.head? = some (byte ']') → RespTextCode w := by
    rintro ⟨d, p, κ, r, m⟩ ⟨hp, hd⟩ b s' hr hb
    obtain ⟨verdict, code, rest, hw, hform, hrun⟩ := readsCode_parseRespTextCode (κ := κ) (r := r)
      (m := m) (⟨hp, rfl⟩ : At d p (d.drop p)) (Nat.lt_of_le_of_lt hp hd)
    rw [run_discard_of_ok hrun] at hr
    cases hr
    exact Or.inr ⟨code, rest, ⟨hp, hw⟩, rfl, rfl, hform⟩
  refine ReadsUnless.mono (ReadsUnless.saved <| ReadsUnless.ifMatch (u := ascii "[")
    (ReadsUnless.bind hcode fun _ => reads_expectMatch (a := "]") <| reads_expectMatch (a := " ") <|
      ReadsUnless.last reads_parseText) (ReadsUnless.last reads_parseText)) fun w v h => ?_
  rcases h with
    ⟨_, _, rfl, rfl, code, _, rfl, hform, _, _, rfl, rfl, _, rest, rfl, rfl, hrest, hv⟩ |
    ⟨hhead, hw, hv⟩
  · refine ⟨.coded code rest ?_ (hform rfl) hrest, hv⟩
    simp [show ascii "] " = ascii "]" ++ ascii " " from rfl]
  · refine ⟨.plain (fun hb => hhead ?_) hw, hv⟩
    obtain ⟨w', rfl⟩ := List.head?_eq_some_iff.mp hb
    exact ⟨w' ++ v, rfl⟩

/-- The rest of a status response after its status word. -/
lemma reads_parseStatusText (type : ResponseType) : Reads id (parseStatusText type)
    fun w v => ∃ t, RespText t ∧ LineEnd v ∧ w = ascii " " ++ t := by
  have h : Reads id (parseStatusText type)
      (Then (Word (ascii " ")) (Then (fun w v => RespText w ∧ LineEnd v) (Word []))) :=
    reads_expectMatch <| ReadsUnless.get fun _ => ReadsUnless.expect reads_parseRespText <|
      ReadsUnless.get fun _ => ReadsUnless.still (preserves_substr _ _) fun _ =>
        ReadsUnless.still (Preserves.modify fun _ => rfl) fun _ => ReadsUnless.success
  rw [then_nil_right] at h
  refine h.mono ?_
  rintro w v ⟨_, t, rfl, rfl, ht, hv⟩
  exact ⟨t, ht, hv, rfl⟩

/-- `parse_resp_cond_bye` reads `BYE` and a text. -/
lemma reads_parseRespCondBye : Reads id parseRespCondBye
    fun w v => ∃ t, RespText t ∧ LineEnd v ∧ w = ascii "BYE" ++ (ascii " " ++ t) := by
  refine ReadsUnless.mono (ReadsUnless.saved <|
    reads_expectMatch (a := "BYE") (reads_parseStatusText .bye)) ?_
  rintro w v ⟨_, _, rfl, rfl, t, ht, hv, rfl⟩
  exact ⟨t, ht, hv, rfl⟩

/-- `parse_resp_cond_state` reads a status word and a text. -/
lemma reads_parseRespCondState : Reads id parseRespCondState
    fun w v => ∃ (c : Cond) (t : Bytes), RespText t ∧ LineEnd v ∧
      w = c.word ++ (ascii " " ++ t) := by
  refine ReadsUnless.mono (ReadsUnless.saved <|
    ReadsUnless.ifMatch (u := ascii "OK") (reads_parseStatusText .ok) <|
    ReadsUnless.ifMatch (u := ascii "NO") (reads_parseStatusText .no) <|
    ReadsUnless.ifMatch (u := ascii "BAD") (reads_parseStatusText .bad)
      (ReadsUnless.fail (L := fun _ _ => False) rfl)) ?_
  rintro w v (⟨_, _, rfl, rfl, t, ht, hv, rfl⟩ | ⟨-, ⟨_, _, rfl, rfl, t, ht, hv, rfl⟩ |
    ⟨-, ⟨_, _, rfl, rfl, t, ht, hv, rfl⟩ | ⟨-, hf⟩⟩⟩)
  · exact ⟨.ok, t, ht, hv, rfl⟩
  · exact ⟨.no, t, ht, hv, rfl⟩
  · exact ⟨.bad, t, ht, hv, rfl⟩
  · exact hf.elim

/-- `parse_continue_req` reads a text after `+`. -/
lemma reads_parseContinueReq : Reads id parseContinueReq
    fun w _ => ∃ t, RespText t ∧ w = ascii "+ " ++ t ++ crlf := by
  refine ReadsUnless.mono (ReadsUnless.saved <|
    reads_expectMatch (a := "+") <| reads_expectMatch (a := " ") <|
    ReadsUnless.expect reads_parseRespText (ReadsUnless.last reads_matchCrlf)) ?_
  rintro w v ⟨_, _, rfl, rfl, _, _, rfl, rfl, t, _, rfl, ⟨ht, -⟩, rfl⟩
  refine ⟨t, ht, ?_⟩
  simp [show ascii "+ " = ascii "+" ++ ascii " " from rfl]

/-- `parse_response_tagged` reads a tag, a status word, a text and the end of the line. -/
lemma reads_parseResponseTagged : Reads id parseResponseTagged
    fun w _ => ∃ (tag : Tag) (c : Cond) (t : Bytes), RespText t ∧
      w = tag.bytes ++ ascii " " ++ c.word ++ ascii " " ++ t ++ crlf := by
  refine ReadsUnless.mono (ReadsUnless.saved <| ReadsUnless.get fun _ =>
    ReadsUnless.expect reads_parseTag <| ReadsUnless.get fun _ =>
    ReadsUnless.still (preserves_substr _ _) fun tag => reads_expectMatch (a := " ") <|
    ReadsUnless.expect reads_parseRespCondState <| ReadsUnless.expect reads_matchCrlf <|
    ReadsUnless.still (preserves_setResponseTag tag) fun _ => ReadsUnless.success (a := true)) ?_
  rintro w v
    ⟨_, _, rfl, ⟨tag, rfl⟩, _, _, rfl, rfl, _, _, rfl, ⟨c, t, ht, -, rfl⟩, _, _, rfl, rfl, rfl⟩
  refine ⟨tag, c, t, ht, ?_⟩
  simp

/-! ## Mailbox data -/

/-- A word without a line break. -/
def OneLine (w : Bytes) : Prop := ∀ c ∈ w, c ≠ cr ∧ c ≠ lf

/-- Words without line breaks make up a word without line breaks. -/
lemma OneLine.append (hu : OneLine u) (hv : OneLine v) : OneLine (u ++ v) := by
  intro c hc
  rcases List.mem_append.mp hc with hc | hc
  · exact hu c hc
  · exact hv c hc

/-- Digits are no line breaks. -/
lemma OneLine.digits (h : ∀ c ∈ w, isDigit c = true) : OneLine w := by
  refine fun c hc => ⟨?_, ?_⟩
  · rintro rfl
    exact absurd (h _ hc) (by decide)
  · rintro rfl
    exact absurd (h _ hc) (by decide)

/-- The loop of `parse_message_id_list` reads no line break, by induction on its fuel. -/
lemma reads_messageIdLoop (fuel : ℕ) :
    ∀ numbers, Reads Option.isSome (messageIdLoop fuel numbers) fun w _ => OneLine w := by
  induction fuel with
  | zero => exact fun _ => ReadsUnless.throw
  | succ fuel ih =>
    intro numbers
    refine ReadsUnless.mono (ReadsUnless.ifMatch
      (ReadsUnless.bindOk (M := fun w _ => OneLine w) reads_parseNumber (fun o ho => ?_)
        fun o ho => ?_) ReadsUnless.success) fun w v h => ?_
    · obtain rfl : o = none := by simpa using ho
      exact ReadsUnless.fails rfl
    · obtain ⟨number, rfl⟩ := Option.isSome_iff_exists.mp ho
      exact ih _
    rcases h with ⟨_, _, rfl, rfl, ds, w', rfl, hds, hw'⟩ | ⟨-, rfl⟩
    · exact OneLine.append (by simp [OneLine, ascii, cr, lf]) ((OneLine.digits hds).append hw')
    · simp [OneLine]

/-- A list of numbers stays in its line. -/
lemma reads_parseMessageIdList : Reads Option.isSome parseMessageIdList fun w _ => OneLine w :=
  ReadsUnless.saved <| ReadsUnless.get fun _ => reads_messageIdLoop _ _

/-- `parse_mailbox_list` reads nothing. -/
lemma reads_expectList {rest : Parser Bool} :
    ReadsUnless E id (expect parseMailboxList rest) fun _ _ => False :=
  fun s hs b s' hr => ReadsUnless.fail (a := false) rfl s hs b s' hr

/-- What `parse_mailbox_data` reads: a line, or flags. -/
lemma reads_parseMailboxData : Reads id parseMailboxData fun w _ =>
    OneLine w ∨ ∃ u, byte ')' ∉ u ∧ w = ascii "FLAGS (" ++ u ++ ascii ")" := by
  refine ReadsUnless.mono (ReadsUnless.saved <|
    ReadsUnless.ifMatch (reads_expectMatch <| ReadsUnless.expect reads_parseFlagList <|
      ReadsUnless.still (Preserves.modify fun _ => rfl) fun _ => ReadsUnless.success) <|
    ReadsUnless.ifMatch (reads_expectMatch reads_expectList) <|
    ReadsUnless.ifMatch (reads_expectMatch reads_expectList) <|
    ReadsUnless.ifMatch (ReadsUnless.expectSome reads_parseMessageIdList fun _ =>
      ReadsUnless.still (Preserves.modify fun _ => rfl) fun _ => ReadsUnless.success) <|
    ReadsUnless.ifMatch (M := fun _ _ => False) (ReadsUnless.of_succeeds <| succeeds_expectMatch <|
      succeeds_expect <| succeeds_expectMatch <| succeeds_expectMatch <| Succeeds.throw _) <|
    ReadsUnless.expectSome reads_parseNumber fun number => reads_expectMatch <|
      ReadsUnless.ifMatch
        (ReadsUnless.still (Preserves.modify fun _ => rfl) fun _ => ReadsUnless.success) <|
      ReadsUnless.ifMatch
        (ReadsUnless.still (Preserves.modify fun _ => rfl) fun _ => ReadsUnless.success) <|
      ReadsUnless.fail (L := fun _ _ => False) rfl) ?_
  have hword : ∀ a : String, (∀ c ∈ ascii a, c ≠ cr ∧ c ≠ lf) → OneLine (ascii a) := fun _ h => h
  rintro w v (⟨_, _, rfl, rfl, _, _, rfl, rfl, _, _, rfl, ⟨u, hu, rfl⟩, rfl⟩ | ⟨-, h⟩)
  · exact Or.inr ⟨u, hu, by simp [ascii, byte]⟩
  rcases h with ⟨_, _, rfl, rfl, _, _, rfl, rfl, hf⟩ | ⟨-, h⟩
  · exact hf.elim
  rcases h with ⟨_, _, rfl, rfl, _, _, rfl, rfl, hf⟩ | ⟨-, h⟩
  · exact hf.elim
  refine Or.inl ?_
  rcases h with ⟨_, _, rfl, rfl, ids, _, rfl, hids, rfl⟩ | ⟨-, h⟩
  · exact (hword "SEARCH" (by decide +kernel)).append (hids.append (hword "" (by decide +kernel)))
  rcases h with ⟨_, _, rfl, rfl, hf⟩ | ⟨-, ds, _, rfl, hds, _, _, rfl, rfl, h⟩
  · exact hf.elim
  refine (OneLine.digits hds).append ((hword " " (by decide +kernel)).append ?_)
  rcases h with ⟨_, _, rfl, rfl, rfl⟩ | ⟨-, ⟨_, _, rfl, rfl, rfl⟩ | ⟨-, hf⟩⟩
  · exact hword "EXISTS" (by decide +kernel)
  · exact hword "RECENT" (by decide +kernel)
  · exact hf.elim

end Imapcl
