import Imapcl.Parser.Progress
import Imapcl.Parser.StatusLine

set_option relaxedAutoImplicit false
set_option autoImplicit false

/-!
# Tagged responses

The operations of the session recognise the end of a reply by its tag. This file shows that a
response with a tag is what stands in the data, on the positions that the loop over a buffer
reaches: whatever alternatives have stored before they failed, the tag, the status and the text are
those of the bytes that the call has passed over.

## Main definitions

* `Imapcl.Reached` — the states in which the loop over a buffer calls `parse_next`.
* `Imapcl.TaggedSound` — a response with a tag is the line that has been passed over.

## Main results

* `Imapcl.tagged_sound` — this holds in the whole loop over a buffer shorter than `2 ^ 31`.
* `Imapcl.tagged_unsound` — a longer buffer on which it does not.
-/

namespace Imapcl

open StateExcept Cursor

variable {d v w : Bytes} {p : ℕ} {κ : List ℤ} {r : Option Response} {m : Bytes}

/-- The states in which the loop over the buffer `data` calls `parse_next`: the caller has moved the
last response out of the pointer. -/
inductive Reached (data : Bytes) : ResponseParser → Prop where
  | start : Reached data (.ofData data)
  | next {s s' : ResponseParser} (h : Reached data s) (hrun : parseNext.run s = .ok (true, s')) :
      Reached data { s' with parsedResponse := none }

/-- If `parse_next` succeeds with a response that has a tag, then this is a status OK, NO or BAD
with an alphanumeric tag and a text, and its printed form is what the call has passed over. -/
def TaggedSound (s : ResponseParser) : Prop :=
  ∀ s' x, parseNext.run s = .ok (true, s') → s'.parsedResponse = some x → x.getTag ≠ [] →
    ∃ (tag : Tag) (c : Cond) (text : Bytes), x = .status c.type tag.bytes text ∧ text ≠ [] ∧
      Passed (Word (statusLine tag c text ++ crlf)) s s'

/-! ## Soundness -/

/-- The loop stays inside the data, with a null pointer. -/
lemma Reached.inside {data : Bytes} {s : ResponseParser} (hd : data.length < 2 ^ 31)
    (h : Reached data s) : s.data = data ∧ s.currPos ≤ data.length ∧ s.parsedResponse = none := by
  induction h with
  | start => exact ⟨rfl, Nat.zero_le _, rfl⟩
  | next _ hrun ih =>
    obtain ⟨rfl, -, -⟩ := ih
    obtain ⟨hd', -, hp'⟩ := parseNext_advances hd hrun
    exact ⟨hd', hp', rfl⟩

/-- The response is a status whose printed form has been passed over. -/
def StatusRead (x : Response) (s s' : ResponseParser) : Prop :=
  ∃ (tag : Tag) (c : Cond) (text : Bytes), x = .status c.type tag.bytes text ∧ text ≠ [] ∧
    Passed (Word (statusLine tag c text ++ crlf)) s s'

/-- This depends on the data and the positions only. -/
lemma StatusRead.congr {x : Response} {s s' t t' : ResponseParser} (h : StatusRead x s s')
    (hd : t.data = s.data) (hp : t.currPos = s.currPos) (hd' : t'.data = s'.data)
    (hp' : t'.currPos = s'.currPos) : StatusRead x t t' := by
  obtain ⟨tag, c, text, hx, hne, hpassed⟩ := h
  exact ⟨tag, c, text, hx, hne, hpassed.congr hd hp hd' hp'⟩

section Alternatives

variable {s' : ResponseParser} {x : Response}

/-- A stored response with a tag. -/
lemma not_untagged (hx : s'.parsedResponse = some x) (htag : x.getTag ≠ []) : ¬ Untagged s' := by
  rintro ⟨y, hy, hnil⟩
  obtain rfl := Option.some.inj (hx.symm.trans hy)
  exact htag hnil

/-- `parse_response_tagged` stores what it reads. -/
lemma parseResponseTagged_sound (hp : p ≤ d.length) (hd : d.length < 2 ^ 31)
    (h : parseResponseTagged.run ⟨d, p, κ, r, m⟩ = .ok (true, s'))
    (hx : s'.parsedResponse = some x) : StatusRead x ⟨d, p, κ, r, m⟩ s' := by
  obtain ⟨w, v, hat, hd', hp', tag, c, text, ht, rfl⟩ :=
    (reads_parseResponseTagged _ ⟨hp, hd⟩ _ _ h rfl).resolve_left id
  replace hat : At d p _ := hat
  have hbound := Nat.lt_of_le_of_lt hat.skip.1 hd
  rw [List.length_append] at hbound
  have hrun := parseResponseTagged_at (κ := κ) (r := r) (m := m) tag c ht hat (by omega)
  obtain ⟨-, rfl⟩ := Prod.mk.inj (Except.ok.inj (h.symm.trans hrun))
  exact ⟨tag, c, text, (Option.some.inj hx).symm, ht.ne_nil, _, v, hat, rfl, rfl, rfl⟩

/-- `parse_response_done` stores a response with a tag by its first alternative only. -/
lemma parseResponseDone_sound (hp : p ≤ d.length) (hd : d.length < 2 ^ 31)
    (h : parseResponseDone.run ⟨d, p, κ, r, m⟩ = .ok (true, s'))
    (hx : s'.parsedResponse = some x) (htag : x.getTag ≠ []) :
    StatusRead x ⟨d, p, κ, r, m⟩ s' := by
  rw [parseResponseDone, run_bind_of_ok savePos_run] at h
  rcases ifM_run_eq_ok h with ⟨s₁, htagged, h₁⟩ | ⟨s₁, -, h₁⟩
  · obtain ⟨κ', rfl⟩ := parseSuccess_inv h₁
    exact (parseResponseTagged_sound hp hd htagged hx).congr rfl rfl rfl rfl
  · rcases ifM_run_eq_ok h₁ with ⟨s₂, hfatal, h₂⟩ | ⟨s₂, -, h₂⟩
    · obtain ⟨κ', rfl⟩ := parseSuccess_inv h₂
      exact absurd (succeeds_parseResponseFatal _ _ _ hfatal rfl) (not_untagged hx htag)
    · exact absurd h₂ parseFail_ne_true

/-- `parse_response` stores a response with a tag by its last alternative only.

**Proof sketch.** A continuation request stores nothing, response data have no tag, and an
alternative that fails goes back to where it has started. -/
lemma parseResponse_sound (hp : p ≤ d.length) (hd : d.length < 2 ^ 31)
    (h : parseResponse.run ⟨d, p, κ, none, m⟩ = .ok (true, s'))
    (hx : s'.parsedResponse = some x) (htag : x.getTag ≠ []) :
    StatusRead x ⟨d, p, κ, none, m⟩ s' := by
  rw [parseResponse, run_bind_of_ok savePos_run] at h
  rcases ifM_run_eq_ok h with ⟨s₁, hcontinue, h₁⟩ | ⟨s₁, hcontinue, h₁⟩
  · obtain ⟨κ', rfl⟩ := parseSuccess_inv h₁
    rw [show s₁.parsedResponse = none from frames_parseContinueReq _ _ _ hcontinue] at hx
    cases hx
  obtain ⟨r₁, m₁, rfl⟩ := tidy_parseContinueReq.failed hp hd hcontinue
  rcases ifM_run_eq_ok h₁ with ⟨s₂, hdata, h₂⟩ | ⟨s₂, hdata, h₂⟩
  · obtain ⟨κ', rfl⟩ := parseSuccess_inv h₂
    exact absurd (succeeds_parseResponseData _ _ _ hdata rfl) (not_untagged hx htag)
  obtain ⟨r₂, m₂, rfl⟩ := tidy_parseResponseData.failed hp hd hdata
  rcases ifM_run_eq_ok h₂ with ⟨s₃, hdone, h₃⟩ | ⟨s₃, -, h₃⟩
  · obtain ⟨κ', rfl⟩ := parseSuccess_inv h₃
    exact (parseResponseDone_sound hp hd hdone hx htag).congr rfl rfl rfl rfl
  · exact absurd h₃ parseFail_ne_true

end Alternatives

/-- Inside of data shorter than `2 ^ 31`, a response with a tag is the line that has been read.

**Proof sketch.** After `parse_response` (`parseResponse_sound`), only a greeting is tried, which
has no tag. -/
lemma taggedSound_of_inside (hp : p ≤ d.length) (hd : d.length < 2 ^ 31) :
    TaggedSound ⟨d, p, κ, none, m⟩ := by
  intro s' x h hx htag
  rw [parseNext, run_bind_of_ok (StateT.run_get _)] at h
  split at h
  · cases h
  rcases ifM_run_eq_ok h with ⟨s₁, hresponse, h₁⟩ | ⟨s₁, -, h₁⟩
  · cases h₁
    exact parseResponse_sound hp hd hresponse hx htag
  · rcases ifM_run_eq_ok h₁ with ⟨s₂, hgreeting, h₂⟩ | ⟨s₂, -, h₂⟩
    · cases h₂
      exact absurd (succeeds_parseGreeting _ _ _ hgreeting rfl) (not_untagged hx htag)
    · cases h₂

/-- **Tagged responses are sound.** In the loop over a buffer shorter than `2 ^ 31`, every response
with a tag that `parse_next` stores is a status OK, NO or BAD with an alphanumeric tag and a text
that is not empty, and the call has passed over exactly the printed form of it.

**Proof sketch.** The loop stays inside the data, so every position it saves is exact, and an
alternative that fails goes back to where it started. -/
theorem tagged_sound (data : Bytes) (hlen : data.length < 2 ^ 31) (s : ResponseParser)
    (h : Reached data s) : TaggedSound s := by
  obtain ⟨rfl, hp, hnull⟩ := h.inside hlen
  obtain ⟨d, p, κ, r, m⟩ := s
  obtain rfl : r = none := hnull
  exact taggedSound_of_inside hp hlen

/-- The status of a SELECT. -/
theorem tagged_sound_select :
    TaggedSound (.ofData (ascii "2 OK [READ-WRITE] done\r\n")) :=
  tagged_sound (ascii "2 OK [READ-WRITE] done\r\n") (by decide +kernel) _ .start

/-! ## Positions that wrap -/

/-- A short response, and a tagged one with the text `w`. -/
def wrappedLine (w : Bytes) : Bytes :=
  ascii "* 1 EXISTS" ++ (crlf ++ (ascii "1" ++ (ascii " " ++ (ascii "OK" ++ (ascii " " ++
    (w ++ crlf))))))

/-- What stands at the end of the first response. -/
lemma at_wrappedLine (w : Bytes) : At (wrappedLine w) 10 (crlf ++ (ascii "1" ++ (ascii " " ++
    (ascii "OK" ++ (ascii " " ++ (w ++ crlf)))))) :=
  At.append_left (ascii "* 1 EXISTS") _

/-- A text that ends at the position `2 ^ 32 + 10` is read up to the position `10`. -/
lemma parseRespText_wrapped (hw : LineText w) (hhead : w.head? ≠ some (byte '['))
    (hlen : 17 + w.length = 2 ^ 32 + 10) (h : At d 17 (w ++ crlf)) :
    parseRespText.run ⟨d, 17, κ, r, m⟩ = .ok (true, ⟨d, 10, κ, r, m⟩) := by
  have hten : toSizeT (wrap32 ↑(17 + w.length)) = 10 := by
    rw [hlen]
    decide
  rw [parseRespText_restores hw hhead (lineEnd_crlf []) h, hten]

/-- The text that is stored is the rest of the data. -/
lemma parseRespCondState_wrapped (hw : LineText w) (hhead : w.head? ≠ some (byte '['))
    (hlen : 17 + w.length = 2 ^ 32 + 10) :
    parseRespCondState.run ⟨wrappedLine w, 14, κ, r, m⟩ =
      .ok (true, ⟨wrappedLine w, 10, κ, some (.status .ok [] (w ++ crlf)), m⟩) := by
  have hok : At (wrappedLine w) 14 (ascii "OK" ++ (ascii " " ++ (w ++ crlf))) :=
    (at_wrappedLine w).skip.skip.skip
  have htext : At (wrappedLine w) 17 (w ++ crlf) := hok.skip.skip
  have hsub : subSizeT 10 17 = 2 ^ 64 - 7 := by decide
  have hcount : (w ++ crlf).length ≤ subSizeT 10 17 := by
    rw [hsub, List.length_append, show crlf.length = 2 from rfl]
    omega
  rw [parseRespCondState, run_bind_of_ok savePos_run, ifM_run_true (matchStr_at hok),
    parseStatusText, expectMatch_at hok.skip, run_bind_of_ok (StateT.run_get _), expect]
  show (ifM parseRespText _ _).run ⟨wrappedLine w, 17, _, _, _⟩ = _
  rw [ifM_run_true (parseRespText_wrapped hw hhead hlen htext), run_bind_of_ok (StateT.run_get _)]
  show (substr 17 (subSizeT 10 17) >>= _).run _ = _
  rw [run_bind_of_ok (substr_run htext.1), htext.2, List.take_of_length_le hcount]
  rfl

/-- `parse_response_tagged` ends where it has started. -/
lemma parseResponseTagged_wrapped (hw : LineText w) (hhead : w.head? ≠ some (byte '['))
    (hlen : 17 + w.length = 2 ^ 32 + 10) :
    parseResponseTagged.run ⟨wrappedLine w, 12, κ, r, m⟩ =
      .ok (true, ⟨wrappedLine w, 12, κ, some (.status .ok (ascii "1") (w ++ crlf)), m⟩) := by
  have htag : At (wrappedLine w) 12 (ascii "1" ++ (ascii " " ++ (ascii "OK" ++ (ascii " " ++
      (w ++ crlf))))) := (at_wrappedLine w).skip
  rw [parseResponseTagged, run_bind_of_ok savePos_run, run_bind_of_ok (StateT.run_get _), expect,
    ifM_run_true (parseTag_at (.number 1) htag (head_cons _ rfl)),
    run_bind_of_ok (StateT.run_get _)]
  show (substr 12 1 >>= _).run _ = _
  rw [run_bind_of_ok (substr_run htag.1), htag.2]
  show (expectMatch " " _).run ⟨_, 12 + (ascii "1").length, _, _, _⟩ = _
  rw [expectMatch_at htag.skip, expect]
  show (ifM parseRespCondState _ _).run ⟨wrappedLine w, 14, _, _, _⟩ = _
  rw [ifM_run_true (parseRespCondState_wrapped hw hhead hlen), expectCrlf_at (at_wrappedLine w)]
  rfl

/-- The tagged response is accepted, and the call has gone back to its start. -/
lemma parseNext_wrapped (hw : LineText w) (hhead : w.head? ≠ some (byte '['))
    (hlen : 17 + w.length = 2 ^ 32 + 10) :
    parseNext.run ⟨wrappedLine w, 12, κ, none, m⟩ =
      .ok (true, ⟨wrappedLine w, 12, κ, some (.status .ok (ascii "1") (w ++ crlf)), m⟩) := by
  have htag : At (wrappedLine w) 12 ((Tag.number 1).bytes ++ (ascii " " ++ (ascii "OK" ++
      (ascii " " ++ (w ++ crlf))))) := (at_wrappedLine w).skip
  have htwelve : 12 < 2 ^ 31 := by decide
  have hlt : 12 < (wrappedLine w).length := by
    have := htag.length_eq
    rw [List.length_append, show (Tag.number 1).bytes.length = 1 from rfl] at this
    omega
  refine parseNext_response hlt ?_
  rw [parseResponse, run_bind_of_ok savePos_run,
    ifM_run_false (parseContinueReq_not htag htwelve (not_prefix_tag _ rfl)),
    ifM_run_false (parseResponseData_not htag htwelve (not_prefix_tag _ rfl)), ifM_run_true (by
      rw [parseResponseDone, run_bind_of_ok savePos_run,
        ifM_run_true (parseResponseTagged_wrapped hw hhead hlen)]
      rfl)]
  rfl

/-- A text that ends at the position `2 ^ 32 + 10` if it starts at `17`. -/
def wrappedText : Bytes := List.replicate (2 ^ 32 - 7) (byte 'a')

/-- The text has no CR and no LF. -/
lemma lineText_wrappedText : LineText wrappedText := by
  refine ⟨?_, fun c hc => ?_⟩
  · rw [wrappedText, Ne, List.replicate_eq_nil_iff]
    norm_num
  · rw [List.eq_of_mem_replicate hc]
    decide

/-- **Tagged responses are not sound in general.** A buffer longer than `2 ^ 32` that ends in CRLF
gives, after a short response, a tagged one whose text goes on beyond its line, and that has
consumed nothing.

**Proof sketch.** The position behind the text wraps to the one behind the first line, where a CRLF
stands. So the text is cut with a length below zero, and the call ends where it has started. -/
theorem tagged_unsound : crlf <:+ wrappedLine wrappedText ∧
    ∃ s, Reached (wrappedLine wrappedText) s ∧ ¬ TaggedSound s := by
  have hw := lineText_wrappedText
  have hhead : wrappedText.head? ≠ some (byte '[') := by
    rw [wrappedText, List.head?_replicate]
    decide
  have hlen : 17 + wrappedText.length = 2 ^ 32 + 10 := by
    rw [wrappedText, List.length_replicate]
    norm_num
  -- the text is not to be written out
  generalize wrappedText = w at hw hhead hlen ⊢
  have hsuffix : crlf <:+ wrappedLine w := by
    refine ⟨ascii "* 1 EXISTS" ++ (crlf ++ (ascii "1" ++ (ascii " " ++ (ascii "OK" ++
      (ascii " " ++ w))))), ?_⟩
    simp only [wrappedLine, List.append_assoc]
  have hfirst : At (wrappedLine w) 0 ((WireResponse.exists ⟨1, by decide⟩).wire ++
      (ascii "1" ++ (ascii " " ++ (ascii "OK" ++ (ascii " " ++ (w ++ crlf)))))) :=
    ⟨Nat.zero_le _, rfl⟩
  obtain ⟨m, hrun⟩ := parseNext_at (κ := []) (r := none) (m := []) _ hfirst (by decide)
  refine ⟨hsuffix, ⟨wrappedLine w, 12, [], none, m⟩, .next .start hrun, fun hsound => ?_⟩
  obtain ⟨tag, c, text, -, -, w', v', -, -, hend, hw'⟩ :=
    hsound _ _ (parseNext_wrapped hw hhead hlen) rfl (List.cons_ne_nil _ _)
  have hpos : 0 < w'.length := by
    rw [hw', List.length_append, show crlf.length = 2 from rfl]
    omega
  have hend : 12 = 12 + w'.length := hend
  omega

end Imapcl
