import Imapcl.Parser.Truncated

set_option relaxedAutoImplicit false
set_option autoImplicit false

/-!
# NIL bodies

In the grammar of `parse_nstring` a body is a string or `NIL`, which stands for no contents. This
file gives FETCH responses of any length, with any numbers and with bodies of both kinds, and
determines when they are accepted: `parse_nstring` fails on `NIL`, and the failure goes through
every method above it.

## Main definitions

* `Imapcl.NAttribute` — an attribute, with `NIL` as a value of a body.
* `Imapcl.fetchLine`, `Imapcl.FetchAccepted` — a FETCH response, and that it is read.

## Main results

* `Imapcl.parseMsgAtt_nil` — attributes with a `NIL` body are rejected.
* `Imapcl.fetch_accepted_iff` — the FETCH responses that are accepted.
-/

namespace Imapcl

open StateExcept Cursor

variable {d u v w : Bytes} {p q : ℕ} {κ : List ℤ} {r : Option Response} {m : Bytes}

/-- An attribute of a FETCH response. A body without content is `NIL`. -/
inductive NAttribute where
  | flags (s : Free (byte ')'))
  | uid (n : ℕ)
  | body (section_ : Free (byte ']')) (content : Option Bytes)

namespace NAttribute

/-- The bytes of an attribute. -/
def wire : NAttribute → Bytes
  | flags s => ascii "FLAGS (" ++ s.1 ++ ascii ")"
  | uid n => ascii "UID " ++ decimal n
  | body sec (some content) =>
    ascii "BODY[" ++ sec.1 ++ ascii "] \x7b" ++ decimal content.length ++ ascii "\x7d" ++ crlf ++
      content
  | body sec none => ascii "BODY[" ++ sec.1 ++ ascii "] NIL"

/-- The message contents after an attribute, `m` being those before it; `NIL` counts as the empty
string. -/
def contents (m : Bytes) : NAttribute → Bytes
  | body _ content => content.getD []
  | _ => m

/-- The attribute is not a body that is `NIL`. -/
def Proper : NAttribute → Prop
  | body _ content => content ≠ none
  | _ => True

/-- A proper attribute is read. -/
lemma readsItem (a : NAttribute) (ha : a.Proper) : ReadsItem d a.wire fun m => a.contents m := by
  cases a with
  | flags s => exact readsItem_flags s
  | uid n => exact readsItem_uid (digits_decimal n)
  | body sec content =>
    cases content with
    | none => exact absurd rfl ha
    | some w => exact readsItem_body sec announces_decimal

end NAttribute

/-- A FETCH response before its CRLF. -/
def fetchLine (n : ℕ) (first : NAttribute) (rest : List NAttribute) : Bytes :=
  ascii "* " ++ decimal n ++ ascii " FETCH (" ++ first.wire ++
    (rest.flatMap fun a => ascii " " ++ a.wire) ++ ascii ")"

/-- `parse_next` reads a FETCH response with the contents of its last body. -/
def FetchAccepted (s : ResponseParser) (first : NAttribute) (rest : List NAttribute) : Prop :=
  ∃ s', parseNext.run s = .ok (true, s') ∧
    s'.parsedResponse = some (.fetch ((first :: rest).foldl NAttribute.contents []))

/-- Attributes that are not all proper have a first body that is `NIL`. -/
lemma exists_nilBody {as : List NAttribute} (h : ¬ ∀ a ∈ as, a.Proper) :
    ∃ (bs : List NAttribute) (sec : Free (byte ']')) (cs : List NAttribute),
      as = bs ++ .body sec none :: cs ∧ ∀ b ∈ bs, b.Proper := by
  induction as with
  | nil => exact absurd (by simp) h
  | cons a as ih =>
    by_cases ha : a.Proper
    · obtain ⟨bs, sec, cs, rfl, hbs⟩ := ih fun hall => h (by simpa using ⟨ha, hall⟩)
      exact ⟨a :: bs, sec, cs, rfl, by simpa using ⟨ha, hbs⟩⟩
    · cases a with
      | flags s => exact absurd trivial ha
      | uid n => exact absurd trivial ha
      | body sec content =>
        cases content with
        | none => exact ⟨[], sec, as, rfl, by simp⟩
        | some w => exact absurd (by simp [NAttribute.Proper]) ha

/-! ## Bodies that are NIL -/

/-- `parse_nstring` fails on `NIL`, having cleared the message contents. -/
lemma parseNstring_nil (h : At d p (ascii "NIL" ++ v)) (hp : p < 2 ^ 31) :
    parseNstring.run ⟨d, p, κ, r, m⟩ = .ok (false, ⟨d, p, κ, r, []⟩) := by
  rw [parseNstring, run_bind_of_ok savePos_run, ifM_run_true (matchStr_at h),
    run_bind_of_ok setContents_run, parseFail_run hp]

/-- An attribute that is a body `NIL` is not read. -/
lemma parseMsgAttItem_nil (sec : Free (byte ']'))
    (h : At d p ((NAttribute.body sec none).wire ++ v)) (hd : d.length < 2 ^ 31) :
    parseMsgAttItem.run ⟨d, p, κ, r, m⟩ = .ok (false, ⟨d, p, κ, r, []⟩) := by
  have hp : p < 2 ^ 31 := Nat.lt_of_le_of_lt h.1 hd
  have hat : At d p (ascii "BODY" ++ ([byte '['] ++ (sec.1 ++ ([byte ']'] ++ (ascii " " ++
      (ascii "NIL" ++ v)))))) := by
    simp only [NAttribute.wire, List.append_assoc] at h
    exact h
  have hnil := hat.skip.skip.skip.skip.skip
  rw [parseMsgAttItem,
    ifM_run_false (parseMsgAttDynamic_not hat hp (not_prefix_append (by decide))),
    parseMsgAttStatic_nstring sec hat, expect,
    ifM_run_false (parseNstring_nil hnil (Nat.lt_of_le_of_lt hnil.1 hd)), parseFail_run hp]

/-- `parse_msg_att` rejects attributes with a body that is `NIL`.

**Proof sketch.** If it is the first attribute, the method fails at once. Otherwise the loop reads
the attributes before it and the space before it, and ends there; a parenthesis does not follow. -/
lemma parseMsgAtt_nil (first : NAttribute) (rest : List NAttribute)
    (hnil : ¬ ∀ a ∈ first :: rest, a.Proper)
    (h : At d p (ascii "(" ++ (first.wire ++ ((rest.flatMap fun a => ascii " " ++ a.wire) ++ v))))
    (hd : d.length < 2 ^ 31) :
    parseMsgAtt.run ⟨d, p, κ, r, []⟩ = .ok (false, ⟨d, p, κ, r, []⟩) := by
  have hp : p < 2 ^ 31 := Nat.lt_of_le_of_lt h.1 hd
  obtain ⟨bs, sec, cs, has, hbs⟩ := exists_nilBody hnil
  cases bs with
  | nil =>
    obtain ⟨rfl, rfl⟩ := List.cons_eq_cons.mp has
    rw [parseMsgAtt, run_bind_of_ok savePos_run, expectMatch_at h, expect,
      ifM_run_false (parseMsgAttItem_nil sec h.skip hd), parseFail_run hp]
  | cons b bs =>
    rw [List.cons_append, List.cons.injEq] at has
    obtain ⟨rfl, rfl⟩ := has
    have hat : At d p (ascii "(" ++ (first.wire ++ ((bs.flatMap fun a => ascii " " ++ a.wire) ++
        (ascii " " ++ ((NAttribute.body sec none).wire ++
          ((cs.flatMap fun a => ascii " " ++ a.wire) ++ v)))))) := by
      simpa only [List.flatMap_append, List.flatMap_cons, List.append_assoc] using h
    have hspace := hat.skip.skip.skip
    have hopen : ¬ ascii ")" <+: (NAttribute.body sec none).wire ++
        ((cs.flatMap fun a => ascii " " ++ a.wire) ++ v) :=
      not_prefix_cons (by decide : byte ')' ≠ byte 'B')
    obtain ⟨fuel, hrun⟩ := parseMsgAtt_skip (κ := κ) (r := r) (m := []) first bs
      (fun a ha => a.readsItem (hbs a ha)) hat (head_cons _ rfl) (by decide : ¬ 128 ≤ byte ' ')
      (Nat.lt_of_le_of_lt hspace.1 hd)
    rw [hrun, run_bind_of_ok (repeatWhile_run_false (by
        rw [ifM_run_true (matchStr_at hspace), parseMsgAttItem_nil sec hspace.skip hd])),
      expectMatch_not hspace.skip hp hopen]

/-! ## The main result -/

/-- `parse_next` on a FETCH response with proper attributes. -/
lemma parseNext_fetch (n : ℕ) (first : NAttribute) (rest : List NAttribute)
    (hproper : ∀ a ∈ first :: rest, a.Proper) (h : At d p (fetchLine n first rest ++ crlf ++ v))
    (hd : d.length < 2 ^ 31) :
    parseNext.run ⟨d, p, κ, r, m⟩ =
      .ok (true, ⟨d, p + (fetchLine n first rest ++ crlf).length, κ,
        some (.fetch ((first :: rest).foldl NAttribute.contents [])),
        (first :: rest).foldl NAttribute.contents []⟩) := by
  have hlen := h.length_eq
  have hstar : At d p (ascii "*" ++ (ascii " " ++ _)) := h
  rw [List.length_append, List.length_append, show crlf.length = 2 from rfl] at hlen
  exact parseNext_response (by omega) (parseResponse_data hstar (by omega)
    (parseResponseData_fetch (digits_decimal n) first rest (.inl rfl)
      (fun a ha => a.readsItem (hproper a ha)) h
      (show p + (fetchLine n first rest).length < 2 ^ 31 by omega)))

/-- **FETCH responses.** In data below `2 ^ 31` bytes, a FETCH response is read with the contents of
its last body if and only if none of its bodies is `NIL`.

**Proof sketch.** Proper attributes are read one after the other. With a body that is `NIL`,
`parse_msg_att` fails, and no other alternative of `parse_next` reads the line. -/
theorem fetch_accepted_iff (n : ℕ) (first : NAttribute) (rest : List NAttribute) (v : Bytes)
    (s : ResponseParser) (hat : At s.data s.currPos (fetchLine n first rest ++ crlf ++ v))
    (hsize : s.data.length < 2 ^ 31) :
    FetchAccepted s first rest ↔ ∀ a ∈ first :: rest, a.Proper := by
  constructor
  · rintro ⟨s', hs', -⟩
    by_contra hnil
    simp only [fetchLine, List.append_assoc] at hat
    obtain ⟨e, he⟩ := parseNext_fetchReject (κ := s.posStack) (r := s.parsedResponse)
      (m := s.messageContents) n hsize hat fun q κ hatts =>
        Or.inr ⟨[], parseMsgAtt_nil first rest hnil hatts hsize⟩
    rw [he] at hs'
    cases hs'
  · exact fun h => ⟨_, parseNext_fetch n first rest h hat hsize, rfl⟩

/-- A FETCH response with a literal after a unique identifier. -/
theorem fetch_accepted_iff_body :
    FetchAccepted (.ofData (ascii "* 1 FETCH (UID 4294967295 BODY[] \x7b2\x7d\r\nhi)\r\n"))
        (.uid 4294967295) [.body ⟨[], by decide⟩ (some (ascii "hi"))] ↔
      ∀ a ∈ [NAttribute.uid 4294967295, .body ⟨[], by decide⟩ (some (ascii "hi"))], a.Proper :=
  fetch_accepted_iff 1 (.uid 4294967295) [.body ⟨[], by decide⟩ (some (ascii "hi"))] [] _
    ⟨Nat.zero_le _, by decide +kernel⟩ (by decide +kernel)

/-- A FETCH response with the body `NIL` is not understood. -/
theorem fetch_nil_rejected :
    fetchLine 1 (.body ⟨[], by decide⟩ none) [] ++ crlf = ascii "* 1 FETCH (BODY[] NIL)\r\n" ∧
      ¬ FetchAccepted (.ofData (ascii "* 1 FETCH (BODY[] NIL)\r\n"))
        (.body ⟨[], by decide⟩ none) [] := by
  refine ⟨by decide +kernel, ?_⟩
  rintro ⟨s', hs', -⟩
  have hrun : parseNext.run (.ofData (ascii "* 1 FETCH (BODY[] NIL)\r\n")) =
      .error (.thrown (.runtimeError (ascii "Didn't understand the server's response!"))) := by
    decide +kernel
  rw [hrun] at hs'
  cases hs'

end Imapcl
