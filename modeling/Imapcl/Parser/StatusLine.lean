import Imapcl.Parser.Inversion
import Imapcl.Parser.Stream
import Imapcl.Parser.Truncated

set_option relaxedAutoImplicit false
set_option autoImplicit false

/-!
# Tagged status lines

In the grammar the text of a status response is any word of text characters, with a code in
brackets as an option. The parser commits itself to a code at the first `[`. This file determines
the texts that it accepts.

## Main definitions

* `Imapcl.statusLine`, `Imapcl.StatusParsed` — a tagged status line, and what it is parsed into.

## Main results

* `Imapcl.parseRespText_not` — texts that are rejected.
* `Imapcl.status_text_iff` — the texts that are accepted.
-/

namespace Imapcl

open StateExcept Cursor

variable {d u v w : Bytes} {p q : ℕ} {κ : List ℤ} {r : Option Response} {m : Bytes}

/-- A tagged status line before its CRLF. -/
def statusLine (tag : Tag) (c : Cond) (text : Bytes) : Bytes :=
  tag.bytes ++ ascii " " ++ c.word ++ ascii " " ++ text

/-- `parse_next` reads a tagged status line into the status response it stands for, and ends right
after its CRLF. -/
def StatusParsed (s : ResponseParser) (tag : Tag) (c : Cond) (text : Bytes) : Prop :=
  ∃ s', parseNext.run s = .ok (true, s') ∧
    s'.parsedResponse = some (.status c.type tag.bytes text) ∧
    s'.currPos = s.currPos + (statusLine tag c text ++ crlf).length

/-! ## Texts that are rejected -/

/-- `parse_text` at the end of a line. -/
lemma parseText_eol (h : At d p v) (hv : LineEnd v) (hp : p < 2 ^ 31) :
    parseText.run ⟨d, p, κ, r, m⟩ = .ok (false, ⟨d, p, κ, r, m⟩) := by
  have hloop := textLoop_at (κ := wrap32 p :: κ) (r := r) (m := m) hv [] (by simp) p (d.length + 2)
    h (Nat.succ_pos _)
  rw [List.length_nil, show p + 0 = p from rfl, toSizeT_wrap32 hp] at hloop
  obtain ⟨c, v', rfl, hc⟩ := hv
  rw [parseText, run_bind_of_ok savePos_run, run_bind_of_ok (parseTextChar_eol h hc hp),
    whileParser, run_bind_of_ok (run_bind_of_ok (StateT.run_get _) |>.trans hloop)]
  exact parseFail_run hp

/-- What follows a code in a line: the CRLF is not part of `] ` and of what comes before it. -/
lemma split_code {code rest : Bytes} (h : w ++ crlf = code ++ (ascii "] " ++ rest)) :
    ∃ x, w = code ++ ascii "] " ++ x ∧ rest = x ++ crlf := by
  rw [← List.append_assoc] at h
  rcases List.append_eq_append_iff.mp h with ⟨y, hy, hrest⟩ | ⟨x, hw, hrest⟩
  · have hlast : (w ++ y).getLast? = some (byte ' ') := by
      rw [← hy, List.getLast?_append_of_ne_nil _ (by decide)]
      rfl
    cases y with
    | nil => exact ⟨[], by simpa using hy.symm, by simpa using hrest.symm⟩
    | cons a y =>
      rw [List.getLast?_append_of_ne_nil _ (List.cons_ne_nil a y)] at hlast
      have hmem : byte ' ' ∈ crlf := by
        rw [hrest]
        exact List.mem_append_left _ (List.mem_of_getLast? hlast)
      exact absurd hmem (by decide)
  · exact ⟨x, hw, hrest⟩

/-- `parse_resp_text` fails on the text of a line that is neither plain nor has a well-formed code.

**Proof sketch.** Such a text begins with a bracket. Whatever `parse_resp_text_code` passes over,
`] ` and a text do not follow it, or else they would make up a text with a code. -/
lemma parseRespText_not (hform : ¬ TextForm w) (h : At d p (w ++ crlf))
    (hp : p + w.length < 2 ^ 31) :
    parseRespText.run ⟨d, p, κ, r, m⟩ = .ok (false, ⟨d, p, κ, r, m⟩) := by
  have hstart : p < 2 ^ 31 := by omega
  obtain ⟨w', rfl⟩ : ∃ w', w = byte '[' :: w' := by
    have hhead : w.head? = some (byte '[') := by
      by_contra hne
      exact hform (.plain hne)
    exact List.head?_eq_some_iff.mp hhead
  have hat : At d p (ascii "[" ++ (w' ++ crlf)) := h
  obtain ⟨b, code, rest, hsplit, hcode, hrun⟩ := readsCode_parseRespTextCode
    (κ := wrap32 p :: κ) (r := r) (m := m) hat.skip (by
      rw [List.length_cons] at hp
      simp only [show (ascii "[").length = 1 from rfl]
      omega)
  have hrest : At d (p + (ascii "[").length + code.length) rest := by
    have := hat.skip
    rw [hsplit] at this
    exact this.skip
  rw [parseRespText, run_bind_of_ok savePos_run, ifM_run_true (matchStr_at hat),
    run_bind_of_ok (run_discard_of_ok hrun)]
  by_cases hclose : ascii "]" <+: rest
  swap
  · exact expectMatch_not hrest hstart hclose
  obtain ⟨rest, rfl⟩ := hclose
  rw [expectMatch_at hrest]
  by_cases hspace : ascii " " <+: rest
  swap
  · exact expectMatch_not hrest.skip hstart hspace
  obtain ⟨rest, rfl⟩ := hspace
  rw [expectMatch_at hrest.skip]
  obtain ⟨x, rfl, rfl⟩ := split_code (w := w') hsplit
  cases x with
  | nil =>
    have hend := hrest.skip.skip
    rw [expect, ifM_run_false (parseText_eol hend (lineEnd_crlf []) (by
      have := hend.unique (h.skip (u := _))
      omega))]
    exact parseFail_run hstart
  | cons c x =>
    exact absurd (.coded code (c :: x) (by simp [ascii, byte]) (hcode rfl) (by simp)) hform

/-! ## Lines that are rejected -/

/-- `parse_resp_cond_state` fails where the text after the status word is rejected. -/
lemma parseRespCondState_reject (c : Cond) (h : At d p (c.word ++ (ascii " " ++ v)))
    (hp : p < 2 ^ 31) (htext : ∀ κ,
      parseRespText.run ⟨d, p + c.word.length + (ascii " ").length, κ, r, m⟩ =
        .ok (false, ⟨d, p + c.word.length + (ascii " ").length, κ, r, m⟩)) :
    parseRespCondState.run ⟨d, p, κ, r, m⟩ = .ok (false, ⟨d, p, κ, r, m⟩) := by
  have hrest : ∀ type, (parseStatusText type).run ⟨d, p + c.word.length, wrap32 p :: κ, r, m⟩ =
      .ok (false, ⟨d, p, κ, r, m⟩) := by
    intro type
    rw [parseStatusText, expectMatch_at h.skip, run_bind_of_ok (StateT.run_get _), expect,
      ifM_run_false (htext _)]
    exact parseFail_run hp
  rw [parseRespCondState, run_bind_of_ok savePos_run]
  cases c with
  | ok =>
    rw [Cond.word] at h hrest
    rw [ifM_run_true (matchStr_at h), hrest]
  | no =>
    rw [Cond.word] at h hrest
    rw [ifM_run_false (matchStr_not h (not_prefix_append (by decide))),
      ifM_run_true (matchStr_at h), hrest]
  | bad =>
    rw [Cond.word] at h hrest
    rw [ifM_run_false (matchStr_not h (not_prefix_append (by decide))),
      ifM_run_false (matchStr_not h (not_prefix_append (by decide))),
      ifM_run_true (matchStr_at h), hrest]

/-- `parse_next` throws on a tagged line whose text is rejected: no other alternative begins with a
tag. -/
lemma parseNext_reject (tag : Tag) (c : Cond) (hform : ¬ TextForm w)
    (h : At d p (statusLine tag c w ++ crlf)) (hp : p + (statusLine tag c w).length < 2 ^ 31) :
    ∃ e, parseNext.run ⟨d, p, κ, r, m⟩ = .error e := by
  have htag : At d p (tag.bytes ++ (ascii " " ++ (c.word ++ (ascii " " ++ (w ++ crlf))))) := by
    simpa only [statusLine, List.append_assoc] using h
  simp only [statusLine, List.length_append] at hp
  have hcond := htag.skip.skip
  have hstart : p < 2 ^ 31 := by omega
  have hstar : ¬ ascii "*" <+:
      tag.bytes ++ (ascii " " ++ (c.word ++ (ascii " " ++ (w ++ crlf)))) := not_prefix_tag tag rfl
  have htagged : ∀ κ, parseResponseTagged.run ⟨d, p, κ, r, m⟩ =
      .ok (false, ⟨d, p, κ, r, m⟩) := by
    intro κ
    rw [parseResponseTagged, run_bind_of_ok savePos_run, run_bind_of_ok (StateT.run_get _), expect,
      ifM_run_true (parseTag_at tag htag (head_cons _ rfl)), run_bind_of_ok (StateT.run_get _),
      run_bind_of_ok (substr_run htag.1), expectMatch_at htag.skip, expect,
      ifM_run_false (parseRespCondState_reject c hcond (by omega) fun κ =>
        parseRespText_not hform hcond.skip.skip (by omega))]
    exact parseFail_run hstart
  have hdone : ∀ κ, parseResponseDone.run ⟨d, p, κ, r, m⟩ =
      .ok (false, ⟨d, p, κ, r, m⟩) := by
    intro κ
    rw [parseResponseDone, run_bind_of_ok savePos_run, ifM_run_false (htagged _), ifM_run_false (by
      rw [parseResponseFatal, run_bind_of_ok savePos_run,
        expectMatch_not htag hstart hstar])]
    exact parseFail_run hstart
  have hlen := htag.length_eq
  have htagpos := List.length_pos_iff.mpr tag.nonempty
  rw [List.length_append] at hlen
  refine parseNext_throw (by omega) (Or.inr ⟨m, ?_⟩) fun m' => ?_
  · rw [parseResponse, run_bind_of_ok savePos_run,
      ifM_run_false (parseContinueReq_not htag hstart (not_prefix_tag tag rfl)),
      ifM_run_false (parseResponseData_not htag hstart hstar),
      ifM_run_false (hdone _)]
    exact parseFail_run hstart
  · rw [parseGreeting, run_bind_of_ok savePos_run,
      expectMatch_not htag hstart hstar]

/-! ## Positions -/

/-- A restored position is below `2 ^ 31` or beyond all data. -/
lemma restored_cases (x : ℤ) : toSizeT (wrap32 x) < 2 ^ 31 ∨ 2 ^ 63 ≤ toSizeT (wrap32 x) := by
  have hlo := Int.le_bmod (x := x) (m := 2 ^ 32) (by norm_num)
  have hhi := Int.bmod_lt (x := x) (m := 2 ^ 32) (by norm_num)
  rw [wrap32, toSizeT]
  omega

/-- No response with a tag is stored, or the position is two bytes after a restored one. -/
def TaggedAtRestored (s : ResponseParser) : Prop :=
  (∀ x, s.parsedResponse = some x → x.getTag = []) ∨
    ∃ q : ℕ, s.currPos = toSizeT (wrap32 q) + 2

/-- A response without a tag is no response with a tag. -/
lemma Untagged.taggedAtRestored {s : ResponseParser} (h : Untagged s) : TaggedAtRestored s := by
  obtain ⟨x, hx, htag⟩ := h
  refine Or.inl fun y hy => ?_
  rw [hx] at hy
  cases hy
  exact htag

/-- On data of any size, a tagged response that `parse_next` has stored ends two bytes after a
restored position. -/
lemma parseNext_taggedAtRestored {s s' : ResponseParser} (hnull : s.parsedResponse = none)
    (h : parseNext.run s = .ok (true, s')) : TaggedAtRestored s' := by
  rcases parseNext_success (fun _ _ hs => hs) (succeeds_parseResponseTagged.mono fun _ hs =>
    Or.inr hs.2) (fun _ hs => hs.taggedAtRestored) h with hs | ⟨-, hr⟩
  · exact hs
  · refine Or.inl fun x hx => ?_
    rw [hr, hnull] at hx
    cases hx

/-- On data of any size, a loop whose last response has a tag ends right behind a restored position,
or beyond all data.

**Proof sketch.** Induction on the fuel. The round behind the last response finds nothing, and ends
where it starts. -/
lemma parseAll_tagged {fuel : ℕ} {s s' : ResponseParser} {rs : List (Option Response)}
    {x : Response} (h : parseAll fuel s = (rs ++ [some x], .ok s')) (htag : x.getTag ≠ []) :
    s'.currPos < 2 ^ 31 + 2 ∨ 2 ^ 63 ≤ s'.currPos := by
  induction fuel generalizing s rs with
  | zero => cases congrArg Prod.snd h
  | succ fuel ih =>
    cases hrun : parseNext.run { s with parsedResponse := none } with
    | error e =>
      rw [parseAll_error hrun] at h
      cases congrArg Prod.snd h
    | ok y =>
      obtain ⟨b, s₁⟩ := y
      cases b with
      | false =>
        rw [parseAll_end hrun] at h
        have hnil := congrArg Prod.fst h
        simp at hnil
      | true =>
        rw [parseAll_next hrun] at h
        obtain ⟨hpointers, hend⟩ := Prod.mk.inj h
        cases rs with
        | cons y rs => exact ih (Prod.ext (List.cons.inj hpointers).2 hend)
        | nil =>
          obtain ⟨hstored, hnil⟩ := List.cons.inj hpointers
          have hstill := parseAll_still (Prod.ext hnil hend)
          rcases parseNext_taggedAtRestored rfl hrun with hfree | ⟨q, hq⟩
          · exact absurd (hfree x hstored) htag
          · have := restored_cases q
            omega

/-! ## The main result -/

/-- A word of text characters fits on a line. -/
lemma lineText_of_isTextChar (hne : w ≠ []) (h : ∀ c ∈ w, isTextChar c = true) : LineText w := by
  refine ⟨hne, fun c hc => ?_⟩
  have hchar := h c hc
  simp only [isTextChar, Bool.and_eq_true, decide_eq_true_eq] at hchar
  exact ⟨hchar.1.2, hchar.2⟩

/-- **Status lines.** A tagged status line whose text is a word of text characters is parsed into
its status response if and only if the text is plain or has a well-formed code, and ends at a
position that fits into an `int`; what follows the line then does not matter.

**Proof sketch.** A text of the two forms is read as it is. Of another one `parse_resp_text` makes
nothing, and no other alternative begins with a tag, so `parse_next` throws. Beyond `2 ^ 31` no
success of a tagged response ends at the end of the line, since `parse_text` ends at a restored
position. -/
theorem status_text_iff (tag : Tag) (c : Cond) (text v : Bytes) (s : ResponseParser)
    (hat : At s.data s.currPos (statusLine tag c text ++ crlf ++ v))
    (hnull : s.parsedResponse = none) (hsize : s.data.length < 2 ^ 63) (hne : text ≠ [])
    (htext : ∀ a ∈ text, isTextChar a = true) :
    (TextForm text ∧ s.currPos + (statusLine tag c text).length < 2 ^ 31 →
      StatusParsed s tag c text) ∧
    (v = [] → (StatusParsed s tag c text ↔
      TextForm text ∧ s.currPos + (statusLine tag c text).length < 2 ^ 31)) := by
  have hline := lineText_of_isTextChar hne htext
  obtain ⟨d, p, κ, r, m⟩ := s
  simp only at hat hnull hsize ⊢
  have hlen := hat.length_eq
  simp only [List.length_append, show crlf.length = 2 from rfl] at hlen
  have hparsed : TextForm text ∧ p + (statusLine tag c text).length < 2 ^ 31 →
      StatusParsed ⟨d, p, κ, r, m⟩ tag c text := by
    rintro ⟨hform, hpos⟩
    exact ⟨_, parseNext_response (by omega) (parseResponse_tagged tag c
      (StatusText.mk text hline hform).respText hat hpos), rfl, rfl⟩
  refine ⟨hparsed, ?_⟩
  rintro rfl
  refine ⟨?_, hparsed⟩
  rintro ⟨s', hrun, hstored, hend⟩
  rw [List.append_nil] at hat
  have hpos : p + (statusLine tag c text).length < 2 ^ 31 := by
    rcases parseNext_taggedAtRestored hnull hrun with htag | ⟨q, hq⟩
    · exact absurd (htag _ hstored) tag.nonempty
    · simp only [List.length_append, show crlf.length = 2 from rfl] at hend
      have := restored_cases q
      omega
  refine ⟨?_, hpos⟩
  by_contra hform
  obtain ⟨e, he⟩ := parseNext_reject (κ := κ) (r := r) (m := m) tag c hform hat hpos
  rw [he] at hrun
  cases hrun

/-- The text `done` is accepted. -/
theorem status_text_iff_done :
    StatusParsed (.ofData (ascii "1 OK done\r\n")) (Tag.number 1) .ok (ascii "done") :=
  (status_text_iff (Tag.number 1) .ok (ascii "done") [] (.ofData (ascii "1 OK done\r\n"))
    ⟨Nat.zero_le _, by decide +kernel⟩ rfl (by decide +kernel) (by decide)
    (by decide +kernel)).1
    ⟨.plain (by decide), by decide +kernel⟩

/-- A bracket that is not closed, and a word that merely starts like a code. -/
theorem status_text_rejected :
    ¬ StatusParsed (.ofData (ascii "1 OK [done\r\n")) (Tag.number 1) .ok (ascii "[done") ∧
      ¬ StatusParsed (.ofData (ascii "1 OK [ALERTS] done\r\n")) (Tag.number 1) .ok
        (ascii "[ALERTS] done") := by
  have hopen : parseNext.run (.ofData (ascii "1 OK [done\r\n")) = .error (.thrown (.runtimeError
      (ascii "Didn't understand the server's response!"))) := by decide +kernel
  have halerts : parseNext.run (.ofData (ascii "1 OK [ALERTS] done\r\n")) =
      .error (.thrown (.runtimeError (ascii "Didn't understand the server's response!"))) := by
    decide +kernel
  constructor
  · rintro ⟨s', hrun, -⟩
    rw [hopen] at hrun
    cases hrun
  · rintro ⟨s', hrun, -⟩
    rw [halerts] at hrun
    cases hrun

end Imapcl
