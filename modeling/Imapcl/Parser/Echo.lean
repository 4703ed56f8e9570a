import Imapcl.Parser.StatusLine

set_option relaxedAutoImplicit false
set_option autoImplicit false

/-!
# Lines that echo a tag

The server completes a command by a status line with the tag of the command. A text without a
bracket is plain, so all that can go wrong with such a line is its length: the end of the text is a
position that `parse_text` has saved as an `int` and restored.

## Main definitions

* `Imapcl.echoLine`, `Imapcl.EchoText` — the line, and its texts.
* `Imapcl.EchoRead` — the line is parsed into a status response with the tag.

## Main results

* `Imapcl.echoRead_iff` — the lines for which this is so.
-/

namespace Imapcl

open StateExcept Cursor

/-- A status line with a tag, before its CRLF. -/
def echoLine (tag : Bytes) (c : Cond) (text : Bytes) : Bytes :=
  tag ++ ascii " " ++ c.word ++ ascii " " ++ text

/-- A text that is not empty and has no CR, LF and `[`. -/
structure EchoText (text : Bytes) : Prop where
  nonempty : text ≠ []
  free : ∀ a ∈ text, a ≠ cr ∧ a ≠ lf ∧ a ≠ byte '['

/-- `parse_next` stores a status response with the tag of the line. -/
def EchoRead (tag : Bytes) (c : Cond) (text : Bytes) : Prop :=
  ∃ s' type text', parseNext.run (.ofData (echoLine tag c text ++ crlf)) = .ok (true, s') ∧
    s'.parsedResponse = some (.status type tag text')

variable {d w : Bytes} {p q : ℕ} {κ : List ℤ} {r : Option Response} {m : Bytes}

/-- Such a text fits on a line. -/
lemma EchoText.lineText (h : EchoText w) : LineText w :=
  ⟨h.nonempty, fun a ha => ⟨(h.free a ha).1, (h.free a ha).2.1⟩⟩

/-- Such a text is plain. -/
lemma EchoText.head_ne (h : EchoText w) : w.head? ≠ some (byte '[') :=
  fun hhead => (h.free _ (List.mem_of_mem_head? hhead)).2.2 rfl

/-- There is no CR in the line. -/
lemma EchoText.cr_notMem (h : EchoText w) (tag : Tag) (c : Cond) :
    cr ∉ echoLine tag.bytes c w := by
  have htag : cr ∉ tag.bytes := fun hmem => absurd (tag.alnum _ hmem) (by decide)
  have hword : cr ∉ c.word := by cases c <;> decide
  have htext : cr ∉ w := fun hmem => (h.free _ hmem).1 rfl
  have hspace : cr ∉ ascii " " := by decide
  simp only [echoLine, List.mem_append, not_or]
  exact ⟨⟨⟨⟨htag, hspace⟩, hword⟩, hspace⟩, htext⟩

/-! ## Long lines -/

/-- A space and a text of any length after a status word. The text that is stored may be another
one. -/
lemma parseStatusText_restores (type : ResponseType) (ht : EchoText w)
    (h : At d p (ascii " " ++ (w ++ crlf))) :
    ∃ text, (parseStatusText type).run ⟨d, p, wrap32 q :: κ, r, m⟩ =
      .ok (true, ⟨d, toSizeT (wrap32 ↑(p + (ascii " ").length + w.length)), κ,
        some (.status type [] text), m⟩) := by
  have htext := parseRespText_restores (κ := wrap32 q :: κ) (r := r) (m := m) ht.lineText
    ht.head_ne (lineEnd_crlf []) h.skip
  -- the position is not to be computed
  generalize toSizeT (wrap32 ↑(p + (ascii " ").length + w.length)) = e at htext ⊢
  refine ⟨(d.drop (p + (ascii " ").length)).take (subSizeT e (p + (ascii " ").length)), ?_⟩
  rw [parseStatusText, expectMatch_at h, run_bind_of_ok (StateT.run_get _), expect,
    ifM_run_true htext, run_bind_of_ok (StateT.run_get _)]
  show (substr _ (subSizeT _ _) >>= _).run _ = _
  rw [run_bind_of_ok (substr_run h.skip.1)]
  rfl

/-- `parse_resp_cond_state` on a text of any length ends at a position that has been restored. -/
lemma parseRespCondState_restores (c : Cond) (ht : EchoText w)
    (h : At d p (c.word ++ (ascii " " ++ (w ++ crlf)))) :
    ∃ text, parseRespCondState.run ⟨d, p, κ, r, m⟩ =
      .ok (true, ⟨d, toSizeT (wrap32 ↑(p + c.word.length + (ascii " ").length + w.length)), κ,
        some (.status c.type [] text), m⟩) := by
  obtain ⟨text, hrun⟩ := parseStatusText_restores (q := p) (κ := κ) (r := r) (m := m) c.type ht
    h.skip
  refine ⟨text, ?_⟩
  rw [parseRespCondState, run_bind_of_ok savePos_run, ← hrun]
  cases c with
  | ok =>
    rw [Cond.word] at h
    rw [ifM_run_true (matchStr_at h)]
    rfl
  | no =>
    rw [Cond.word] at h
    rw [ifM_run_false (matchStr_not h (not_prefix_append (by decide))),
      ifM_run_true (matchStr_at h)]
    rfl
  | bad =>
    rw [Cond.word] at h
    rw [ifM_run_false (matchStr_not h (not_prefix_append (by decide))),
      ifM_run_false (matchStr_not h (not_prefix_append (by decide))),
      ifM_run_true (matchStr_at h)]
    rfl

section Long

variable (tag : Tag) (c : Cond)

/-- What stands in the line. -/
lemma at_echoLine : At (echoLine tag.bytes c w ++ crlf) 0
    (tag.bytes ++ (ascii " " ++ (c.word ++ (ascii " " ++ (w ++ crlf))))) := by
  simpa only [echoLine, List.append_assoc] using At.start (echoLine tag.bytes c w ++ crlf)

/-- A tag does not begin with an asterisk. -/
lemma not_prefix_star {v : Bytes} : ¬ ascii "*" <+: tag.bytes ++ v := not_prefix_tag tag rfl

/-- No CRLF stands before the end of the line. -/
lemma crlf_not_prefix (ht : EchoText w) (hp : p < (echoLine tag.bytes c w).length) :
    ¬ crlf <+: (echoLine tag.bytes c w ++ crlf).drop p := by
  rw [List.drop_append_of_le_length (Nat.le_of_lt hp), List.drop_eq_getElem_cons hp]
  exact not_prefix_cons fun hcr => ht.cr_notMem tag c (by rw [hcr]; exact List.getElem_mem hp)

/-- `parse_response_tagged` on a line that is too long: at the position where it looks for the CRLF
there is none, and if the position is beyond the data, it throws. -/
lemma parseResponseTagged_long (ht : EchoText w)
    (hlong : 2 ^ 31 ≤ (echoLine tag.bytes c w).length)
    (hsize : (echoLine tag.bytes c w ++ crlf).length < 2 ^ 63) :
    (∃ e, parseResponseTagged.run ⟨echoLine tag.bytes c w ++ crlf, 0, κ, r, m⟩ = .error e) ∨
      ∃ r', parseResponseTagged.run ⟨echoLine tag.bytes c w ++ crlf, 0, κ, r, m⟩ =
        .ok (false, ⟨echoLine tag.bytes c w ++ crlf, 0, κ, r', m⟩) := by
  have hat := at_echoLine tag c (w := w)
  obtain ⟨text, hcond⟩ := parseRespCondState_restores (κ := wrap32 ↑(0 : ℕ) :: κ) (r := r)
    (m := m) c ht hat.skip.skip
  have hend : 0 + tag.bytes.length + (ascii " ").length + c.word.length + (ascii " ").length +
      w.length = (echoLine tag.bytes c w).length := by
    simp only [echoLine, List.length_append]
    omega
  have hcases := restored_cases (echoLine tag.bytes c w).length
  have hnot := crlf_not_prefix tag c
    (p := toSizeT (wrap32 ↑(echoLine tag.bytes c w).length)) ht
  rw [hend] at hcond
  -- the position is not to be computed
  generalize toSizeT (wrap32 ↑(echoLine tag.bytes c w).length) = e at hcond hcases hnot
  rw [parseResponseTagged, run_bind_of_ok savePos_run, run_bind_of_ok (StateT.run_get _), expect,
    ifM_run_true (parseTag_at tag hat (head_cons _ rfl)), run_bind_of_ok (StateT.run_get _),
    run_bind_of_ok (substr_run hat.1), expectMatch_at hat.skip, expect, ifM_run_true hcond]
  rcases hcases with hinside | hbeyond
  · refine Or.inr ⟨some (.status c.type [] text), ?_⟩
    have hlen : e ≤ (echoLine tag.bytes c w ++ crlf).length := by
      rw [List.length_append]
      omega
    exact expectCrlf_not ⟨hlen, rfl⟩ hinside (by decide) (hnot (by omega))
  · refine Or.inl ⟨.thrown .outOfRange, ?_⟩
    have hcrlf : matchCrlf.run ⟨echoLine tag.bytes c w ++ crlf, e, wrap32 ↑(0 : ℕ) :: κ,
        some (.status c.type [] text), m⟩ = .error (.thrown .outOfRange) := by
      rw [matchCrlf, run_bind_of_ok savePos_run, expect,
        ifM_run_error (matchStr_run_beyond (by omega))]
    rw [expect, ifM_run_error hcrlf]

/-- `parse_response` on a line that is too long: no other alternative begins with a tag. -/
lemma parseResponse_long (ht : EchoText w) (hlong : 2 ^ 31 ≤ (echoLine tag.bytes c w).length)
    (hsize : (echoLine tag.bytes c w ++ crlf).length < 2 ^ 63) :
    (∃ e, parseResponse.run ⟨echoLine tag.bytes c w ++ crlf, 0, κ, r, m⟩ = .error e) ∨
      ∃ r', parseResponse.run ⟨echoLine tag.bytes c w ++ crlf, 0, κ, r, m⟩ =
        .ok (false, ⟨echoLine tag.bytes c w ++ crlf, 0, κ, r', m⟩) := by
  have hat := at_echoLine tag c (w := w)
  have hstart : 0 < 2 ^ 31 := by decide
  rw [parseResponse, run_bind_of_ok savePos_run,
    ifM_run_false (parseContinueReq_not hat hstart (not_prefix_tag tag rfl)),
    ifM_run_false (parseResponseData_not hat hstart (not_prefix_tag tag rfl))]
  rcases parseResponseTagged_long tag c ht hlong hsize with ⟨e, he⟩ | ⟨r', hr⟩
  · refine Or.inl ⟨e, ifM_run_error ?_⟩
    rw [parseResponseDone, run_bind_of_ok savePos_run, ifM_run_error he]
  · have hfatal : ∀ κ, parseResponseFatal.run ⟨echoLine tag.bytes c w ++ crlf, 0, κ, r', m⟩ =
        .ok (false, ⟨echoLine tag.bytes c w ++ crlf, 0, κ, r', m⟩) := fun κ => by
      rw [parseResponseFatal, run_bind_of_ok savePos_run,
        expectMatch_not hat hstart (not_prefix_star tag)]
    have hdone : parseResponseDone.run
        ⟨echoLine tag.bytes c w ++ crlf, 0, wrap32 ↑(0 : ℕ) :: κ, r, m⟩ =
          .ok (false, ⟨echoLine tag.bytes c w ++ crlf, 0, wrap32 ↑(0 : ℕ) :: κ, r', m⟩) := by
      rw [parseResponseDone, run_bind_of_ok savePos_run, ifM_run_false hr,
        ifM_run_false (hfatal _), parseFail_run hstart]
    exact Or.inr ⟨r', by rw [ifM_run_false hdone, parseFail_run hstart]⟩

/-- `parse_next` throws on a line that is too long. -/
lemma parseNext_long (ht : EchoText w) (hlong : 2 ^ 31 ≤ (echoLine tag.bytes c w).length)
    (hsize : (echoLine tag.bytes c w ++ crlf).length < 2 ^ 63) :
    ∃ e, parseNext.run (.ofData (echoLine tag.bytes c w ++ crlf)) = .error e := by
  have hpos : ¬ (echoLine tag.bytes c w ++ crlf).length ≤ 0 := by
    rw [List.length_append]
    omega
  rw [ResponseParser.ofData, parseNext, run_bind_of_ok (StateT.run_get _), if_neg hpos]
  rcases parseResponse_long tag c ht hlong hsize with ⟨e, he⟩ | ⟨r', hr⟩
  · exact ⟨e, ifM_run_error he⟩
  · rw [ifM_run_false hr, ifM_run_false]
    · exact ⟨_, rfl⟩
    · rw [parseGreeting, run_bind_of_ok savePos_run,
        expectMatch_not (at_echoLine tag c) (by decide) (not_prefix_star tag)]

end Long

/-! ## The main result -/

/-- **Echoed tags.** A status line with a tag and a text free of CR, LF and `[` is parsed into a
status response with the tag if and only if the end of its text is a position that fits into an
`int`.

**Proof sketch.** A line that fits is read as it is. In one that is too long, the position behind
the text is restored to one inside the line, where no CRLF stands, or beyond the data. -/
theorem echoRead_iff (tag : Tag) (c : Cond) (ht : EchoText w)
    (hsize : (echoLine tag.bytes c w ++ crlf).length < 2 ^ 63) :
    EchoRead tag.bytes c w ↔ (echoLine tag.bytes c w).length < 2 ^ 31 := by
  constructor
  · rintro ⟨s', type, text', hrun, -⟩
    by_contra hlong
    obtain ⟨e, he⟩ := parseNext_long tag c ht (Nat.le_of_not_lt hlong) hsize
    cases he.symm.trans hrun
  · intro hlen
    have hat : At (echoLine tag.bytes c w ++ crlf) 0 (echoLine tag.bytes c w ++ crlf ++ []) := by
      rw [List.append_nil]
      exact At.start _
    refine ⟨_, _, _, parseNext_response ?_ (parseResponse_tagged tag c
      (.plain ht.head_ne ht.lineText) hat (by rwa [Nat.zero_add])), rfl⟩
    rw [List.length_append]
    exact Nat.add_pos_right _ (by decide)

end Imapcl
