import Imapcl.Parser.Truncated

set_option relaxedAutoImplicit false
set_option autoImplicit false

/-!
# Greetings

The first line of a connection. An OK greeting has the form of an untagged status response and is
read by `parse_response_data`; a PREAUTH greeting reaches `parse_greeting` after everything else
has failed. The two differ in where they end: `parse_greeting` and `parse_response_fatal` stop
before the end of the line.

## Main definitions

* `Imapcl.GreetingKind`, `Imapcl.greeting` — greetings and their lines.
* `Imapcl.GreetingConsumed` — a greeting is read whole, and then the rest of the stream.

## Main results

* `Imapcl.parseNext_fatal`, `Imapcl.parseNext_greeting` — a BYE that is not followed by a CRLF, and
  a greeting that is not an untagged response.
* `Imapcl.greeting_consumed_iff` — the greetings that are read whole.
-/

namespace Imapcl

open StateExcept Cursor

variable {d u v w : Bytes} {p q : ℕ} {κ : List ℤ} {r : Option Response} {m : Bytes}

/-! ## Kinds of greetings -/

/-- The kinds of greetings that `parse_resp_cond_auth` tells apart. -/
inductive GreetingKind where
  | ok
  | preauth
  deriving DecidableEq, Repr

namespace GreetingKind

/-- The status word. -/
def word : GreetingKind → Bytes
  | ok => ascii "OK"
  | preauth => ascii "PREAUTH"

/-- The response type. -/
def type : GreetingKind → ResponseType
  | ok => .ok
  | preauth => .preauth

end GreetingKind

/-- The line of a greeting. -/
def greeting (kind : GreetingKind) (text : Bytes) : Bytes :=
  ascii "* " ++ kind.word ++ ascii " " ++ text ++ crlf

/-! ## Lines without their end -/

/-- `parse_resp_cond_auth` on a greeting. -/
lemma parseRespCondAuth_at (kind : GreetingKind) (ht : RespText w) (hv : LineEnd v)
    (h : At d p (kind.word ++ (ascii " " ++ w) ++ v))
    (hp : p + (kind.word ++ (ascii " " ++ w)).length < 2 ^ 31) :
    parseRespCondAuth.run ⟨d, p, κ, r, m⟩ =
      .ok (true, ⟨d, p + (kind.word ++ (ascii " " ++ w)).length, κ,
        some (.status kind.type [] []), m⟩) := by
  have hat : At d p (kind.word ++ (ascii " " ++ (w ++ v))) := by
    simp only [List.append_assoc] at h ⊢
    exact h
  have hend := hat.skip.skip.skip.unique h.skip
  have htext := parseRespText_at (κ := wrap32 p :: κ) (r := r) (m := m) ht hv hat.skip.skip
    (by omega)
  rw [parseRespCondAuth, run_bind_of_ok savePos_run]
  show (ifM _ _ (ifM _ _ _)).run _ = _
  cases kind with
  | ok =>
    rw [GreetingKind.word] at hat hend htext ⊢
    rw [ifM_run_true (matchStr_at hat), expectMatch_at hat.skip, expect, ifM_run_true htext, hend]
    rfl
  | preauth =>
    rw [GreetingKind.word] at hat hend htext ⊢
    rw [ifM_run_false (matchStr_not hat (not_prefix_append (by decide))),
      ifM_run_true (matchStr_at hat), expectMatch_at hat.skip, expect, ifM_run_true htext, hend]
    rfl

/-- `parse_greeting` on a greeting; the end of its line is left. -/
lemma parseGreeting_at (kind : GreetingKind) (ht : RespText w) (hv : LineEnd v)
    (h : At d p (ascii "* " ++ kind.word ++ ascii " " ++ w ++ v))
    (hp : p + (ascii "* " ++ kind.word ++ ascii " " ++ w).length < 2 ^ 31) :
    parseGreeting.run ⟨d, p, κ, r, m⟩ =
      .ok (true, ⟨d, p + (ascii "* " ++ kind.word ++ ascii " " ++ w).length, κ,
        some (.status kind.type [] []), m⟩) := by
  have hat : At d p (ascii "*" ++ (ascii " " ++ (kind.word ++ (ascii " " ++ w) ++ v))) := by
    simp only [List.append_assoc] at h ⊢
    exact h
  have hend := hat.skip.skip.skip.unique h.skip
  rw [parseGreeting, run_bind_of_ok savePos_run, expectMatch_at hat, expectMatch_at hat.skip,
    expect, ifM_run_true (parseRespCondAuth_at kind ht hv hat.skip.skip (by omega)), hend]
  rfl

/-- `parse_response_fatal` on a BYE; the end of its line is left. -/
lemma parseResponseFatal_at (ht : RespText w) (hv : LineEnd v)
    (h : At d p (ascii "* BYE " ++ w ++ v)) (hp : p + (ascii "* BYE " ++ w).length < 2 ^ 31) :
    parseResponseFatal.run ⟨d, p, κ, r, m⟩ =
      .ok (true, ⟨d, p + (ascii "* BYE " ++ w).length, κ, some (.status .bye [] w), m⟩) := by
  have hat : At d p (ascii "*" ++ (ascii " " ++ (ascii "BYE" ++ (ascii " " ++ w) ++ v))) := by
    simp only [List.append_assoc] at h ⊢
    exact h
  have hend := hat.skip.skip.skip.unique h.skip
  rw [parseResponseFatal, run_bind_of_ok savePos_run, expectMatch_at hat, expectMatch_at hat.skip,
    expect, ifM_run_true (parseRespCondBye_at ht hv hat.skip.skip (by omega)), hend]
  rfl

/-- A BYE that is not followed by a CRLF is read by `parse_response_fatal`. -/
theorem parseNext_fatal (ht : RespText w) (hv : LineEnd v) (hcrlf : ¬ crlf <+: v)
    (h : At d p (ascii "* BYE " ++ w ++ v)) (hd : d.length < 2 ^ 31) :
    parseNext.run ⟨d, p, κ, r, m⟩ =
      .ok (true, ⟨d, p + (ascii "* BYE " ++ w).length, κ, some (.status .bye [] w), m⟩) := by
  have hbound := Nat.lt_of_le_of_lt h.skip.1 hd
  have hp : p < 2 ^ 31 := by omega
  have hlen := h.length_eq
  rw [List.length_append, List.length_append, show (ascii "* BYE ").length = 6 from rfl] at hlen
  have hat : At d p (ascii "*" ++ (ascii " BYE " ++ w ++ v)) := h
  refine parseNext_response (by omega) ?_
  rw [parseResponse, run_bind_of_ok savePos_run,
    ifM_run_false (parseContinueReq_not hat hp (not_prefix_append (by decide))),
    ifM_run_false (by
      rw [parseResponseData_bye ht hv h hbound, expectCrlf_not h.skip hbound hp hcrlf]),
    ifM_run_true (by
      rw [parseResponseDone, run_bind_of_ok savePos_run,
        ifM_run_false (parseResponseTagged_not hat hp (head_cons _ rfl)),
        ifM_run_true (parseResponseFatal_at ht hv h hbound)]
      rfl)]
  rfl

/-- A greeting is read by `parse_greeting` where `parse_response_data` has failed. -/
theorem parseNext_greeting (kind : GreetingKind) {r' : Option Response} (ht : RespText w)
    (hv : LineEnd v) (h : At d p (ascii "* " ++ kind.word ++ ascii " " ++ w ++ v))
    (hd : d.length < 2 ^ 31) (hdata : ∀ κ, parseResponseData.run ⟨d, p, κ, r, m⟩ =
      .ok (false, ⟨d, p, κ, r', m⟩)) :
    parseNext.run ⟨d, p, κ, r, m⟩ =
      .ok (true, ⟨d, p + (ascii "* " ++ kind.word ++ ascii " " ++ w).length, κ,
        some (.status kind.type [] []), m⟩) := by
  have hbound := Nat.lt_of_le_of_lt h.skip.1 hd
  have hp : p < 2 ^ 31 := by omega
  have hlen := h.length_eq
  simp only [List.length_append, show (ascii "* ").length = 2 from rfl] at hlen
  have hat : At d p (ascii "* " ++ (kind.word ++ (ascii " " ++ w ++ v))) := by
    simp only [List.append_assoc] at h ⊢
    exact h
  have hbye : ¬ ascii "BYE" <+: kind.word ++ (ascii " " ++ w ++ v) := by
    cases kind with
    | ok => exact not_prefix_append (by decide)
    | preauth => exact not_prefix_append (by decide)
  rw [parseNext, run_bind_of_ok (StateT.run_get _), if_neg (show ¬ d.length ≤ p by omega),
    ifM_run_false (by
      rw [parseResponse, run_bind_of_ok savePos_run,
        ifM_run_false (parseContinueReq_not hat hp (not_prefix_append (by decide))),
        ifM_run_false (hdata _), ifM_run_false (parseResponseDone_not hat hp hbye hd),
        parseFail_run hp]),
    ifM_run_true (parseGreeting_at kind ht hv h hbound)]
  rfl

/-- An OK that is not followed by a CRLF is no untagged response. -/
lemma parseResponseData_okOpen (ht : RespText w) (hv : LineEnd v) (hcrlf : ¬ crlf <+: v)
    (h : At d p (ascii "* " ++ Cond.ok.word ++ ascii " " ++ w ++ v)) (hd : d.length < 2 ^ 31) :
    parseResponseData.run ⟨d, p, κ, r, m⟩ =
      .ok (false, ⟨d, p, κ, some (.status .ok [] w), m⟩) := by
  have hbound := Nat.lt_of_le_of_lt h.skip.1 hd
  rw [parseResponseData_cond .ok ht hv h hbound, expectCrlf_not h.skip hbound (by omega) hcrlf]
  rfl

/-- A PREAUTH is no untagged response. -/
lemma parseResponseData_preauth (h : At d p (ascii "* " ++ (ascii "PREAUTH" ++ v)))
    (hd : d.length < 2 ^ 31) :
    parseResponseData.run ⟨d, p, κ, r, m⟩ = .ok (false, ⟨d, p, κ, r, m⟩) := by
  have hbound := Nat.lt_of_le_of_lt h.skip.1 hd
  have hp : p < 2 ^ 31 := by omega
  have hword := h.skip
  have hdigit : ∀ c, (ascii "PREAUTH" ++ v).head? = some c → isDigit c = false := head_cons _ rfl
  have hnumber : ∀ κ, parseNumber.run ⟨d, p + (ascii "* ").length, κ, r, m⟩ =
      .ok (none, ⟨d, p + (ascii "* ").length, κ, r, m⟩) := by
    intro κ
    rw [parseNumber_none hword hdigit, toSizeT_wrap32 hbound]
  rw [parseResponseData_data h hbound (head_cons _ rfl), ifM_run_false (by
      rw [parseMailboxData, run_bind_of_ok savePos_run,
        ifM_run_false (matchStr_not hword (not_prefix_append (by decide))),
        ifM_run_false (matchStr_not hword (not_prefix_append (by decide))),
        ifM_run_false (matchStr_not hword (not_prefix_append (by decide))),
        ifM_run_false (matchStr_not hword (not_prefix_append (by decide))),
        ifM_run_false (matchStr_not hword (not_prefix_append (by decide))), expectSome,
        run_bind_of_ok (hnumber _), parseFail_run hbound]),
    ifM_run_false (by
      rw [parseMessageData, run_bind_of_ok savePos_run, expectSome, run_bind_of_ok (hnumber _),
        parseFail_run hbound]), parseFail_run hp]

/-! ## The main result -/

/-- Parsing a greeting and then responses: the first `parse_next` returns the status of the greeting
without a tag and ends right after its line, and the following ones return exactly the responses,
the last one `false`. -/
def GreetingConsumed (kind : GreetingKind) (text : Bytes) (xs : List WireResponse) : Prop :=
  ∃ s txt, parseNext.run (.ofData (greeting kind text ++ Stream.wire xs)) = .ok (true, s) ∧
    s.parsedResponse = some (.status kind.type [] txt) ∧
    s.currPos = (greeting kind text).length ∧
    ∃ s', parseAll (xs.length + 1) s = (xs.map fun x => some x.value, .ok s')

/-- **Greetings.** An OK greeting is read whole, together with what follows it; a PREAUTH greeting
is not, since its CRLF is left.

**Proof sketch.** The OK line is an untagged response, so this is the round trip of a stream. On a
PREAUTH line every alternative but `parse_greeting` fails, which ends before the CRLF. -/
theorem greeting_consumed_iff (kind : GreetingKind) (text : Bytes) (xs : List WireResponse)
    (htext : LineText text) (hhead : text.head? ≠ some (byte '['))
    (hsize : (greeting kind text ++ Stream.wire xs).length < 2 ^ 31) :
    GreetingConsumed kind text xs ↔ kind = .ok := by
  cases kind with
  | ok =>
    refine iff_of_true ?_ rfl
    obtain ⟨x, hx⟩ : ∃ x, x = WireResponse.untagged .ok ⟨text, htext, .plain hhead⟩ := ⟨_, rfl⟩
    have hwire : greeting .ok text = x.wire := by rw [hx]; rfl
    rw [hwire] at hsize
    have hlen := hsize
    rw [List.length_append, WireResponse.wire, List.length_append] at hlen
    obtain ⟨m, hnext⟩ := parseNext_at (κ := []) (r := none) (m := []) x
      (At.start (x.wire ++ Stream.wire xs)) (by omega)
    have hrest : At (x.wire ++ Stream.wire xs) x.wire.length (Stream.wire xs ++ []) := by
      rw [List.append_nil]
      exact At.append_left x.wire (Stream.wire xs)
    obtain ⟨r', m', hall⟩ := parseAll_append (κ := []) xs 1 x.wire.length (some x.value) m hrest (by
      rw [List.length_append] at hsize
      omega)
    have hlast : ∀ r m, parseAll 1 ⟨x.wire ++ Stream.wire xs,
        x.wire.length + (Stream.wire xs).length, [], r, m⟩ = ([], .ok _) :=
      fun r m => parseAll_end (parseNext_end hrest.skip)
    rw [hlast, List.append_nil] at hall
    rw [Nat.zero_add] at hnext
    rw [GreetingConsumed, hwire]
    refine ⟨_, text, hnext, ?_, rfl, _, hall⟩
    rw [hx]
    rfl
  | preauth =>
    refine iff_of_false ?_ (by simp)
    rintro ⟨s, txt, hnext, -, hpos, -⟩
    have hat : At (greeting .preauth text ++ Stream.wire xs) 0 (ascii "* " ++
        GreetingKind.preauth.word ++ ascii " " ++ text ++ (crlf ++ Stream.wire xs)) := by
      rw [← List.append_assoc]
      exact At.start _
    have hrun := parseNext_greeting (κ := []) (r := none) (m := []) .preauth
      (.plain hhead htext) (lineEnd_crlf _) hat hsize fun κ => parseResponseData_preauth (by
        simp only [List.append_assoc] at hat ⊢
        exact hat) hsize
    rw [ResponseParser.ofData, hrun] at hnext
    cases hnext
    rw [greeting, List.length_append, List.length_append, List.length_append, List.length_append,
      show crlf.length = 2 from rfl] at hpos
    simp only [List.length_append] at hpos
    omega

/-- An OK greeting and a first response. -/
theorem greeting_consumed_iff_ok :
    GreetingConsumed .ok (ascii "ready") [.exists ⟨3, by decide⟩] ↔ GreetingKind.ok = .ok :=
  greeting_consumed_iff .ok (ascii "ready") [.exists ⟨3, by decide⟩]
    ⟨by decide +kernel, by decide +kernel⟩ (by decide) (by decide +kernel)

/-- The CRLF of a PREAUTH greeting is left for the next call, which does not understand it. -/
theorem greeting_preauth_open :
    ¬ GreetingConsumed .preauth (ascii "ready") [] := by
  rintro ⟨s, txt, hnext, -, hpos, -⟩
  have hrun : parseNext.run (.ofData (greeting .preauth (ascii "ready") ++ Stream.wire [])) =
      .ok (true, ⟨ascii "* PREAUTH ready\r\n", 15, [], some (.status .preauth [] []), []⟩) := by
    decide +kernel
  rw [hrun] at hnext
  cases hnext
  exact absurd hpos (by decide)

end Imapcl
