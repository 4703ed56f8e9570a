import Imapcl.Foundation.Pattern
import Imapcl.Response.Basic

set_option relaxedAutoImplicit false
set_option autoImplicit false

/-!
# The date of a message

`imf_message.cpp`. The date that becomes a part of a file name is searched for in the whole
message: the pattern takes the first line that has the form of a date header, whether it stands in
the header section or in the body.

## Main definitions

* `Imapcl.datePattern`, `Imapcl.getDatetimeFormatted` — `IMFMessage::get_datetime_formatted`.
* `Imapcl.FirstDate` — the date that the search finds, in terms of the text.
* `Imapcl.message`, `Imapcl.headerSection` — messages made of lines, and their header section.

## Main results

* `Imapcl.getDatetimeFormatted_eq_ok_iff` — what is returned for an arbitrary text.
* `Imapcl.getDatetimeFormatted_message` — what is returned for a message made of lines.
* `Imapcl.date_of_header_iff` — when this is the date of the header section.

## Design

An `IMFMessage` is its data. The lines of a message are free of CR and LF, which a message has only
together, at the ends of its lines.
-/

namespace Imapcl

open Pattern

/-! ## The pattern -/

/-- The characters after which `^` matches, and which `[^\r\n]` leaves out. -/
def isLineEnd (c : UInt8) : Bool := c = cr || c = lf

/-- `date_pattern`: `^Date:([^\r\n]+)\r\n`, with the multiline flag. -/
def datePattern : Pattern UInt8 :=
  .seq (.lineStart isLineEnd)
    (.seq (.lit (ascii "Date:")) (.seq (.group (.many (fun c => !isLineEnd c) 1 none)) (.lit crlf)))

/-- `regex_replace(result, regex("[, :]"), "_")`. -/
def underscored (v : Bytes) : Bytes :=
  v.map fun c => if c = byte ',' ∨ c = byte ' ' ∨ c = byte ':' then byte '_' else c

/-- `IMFMessage::get_datetime_formatted`. -/
def getDatetimeFormatted (data : Bytes) : Except StdException Bytes :=
  match datePattern.search none data with
  | none => .error (.runtimeError (ascii "Date header not found!"))
  | some m => .ok (underscored (m.groups.headD []))

/-- A text without CR and LF. -/
def NoBreak (w : Bytes) : Prop := ∀ c ∈ w, isLineEnd c = false

/-- A date header with the value `v` stands at the start of `s`, where `prev` is the character
before. -/
structure DateField (prev : Option UInt8) (s v : Bytes) : Prop where
  start : prev.all isLineEnd = true
  nonempty : v ≠ []
  noBreak : NoBreak v
  field : ascii "Date:" ++ (v ++ crlf) <+: s

/-- The first date header of a text has the value `v`. -/
def FirstDate (data v : Bytes) : Prop :=
  ∃ u s, data = u ++ s ∧ DateField u.getLast? s v ∧
    ∀ u₁ w, u = u₁ ++ w → w ≠ [] → ∀ v', ¬ DateField u₁.getLast? (w ++ s) v'

/-! ## Matches -/

section Matches

variable {s t v : Bytes} {prev : Option UInt8} {m : Match UInt8}

/-- Every match of the pattern is a date header. -/
lemma mem_all_datePattern (h : m ∈ datePattern.all prev s) :
    prev.all isLineEnd = true ∧ ∃ v, v ≠ [] ∧ NoBreak v ∧ m.groups = [v] ∧
      s = ascii "Date:" ++ (v ++ (crlf ++ m.rest)) := by
  obtain ⟨m₁, h₁, r₁, hr₁, rfl⟩ := mem_all_seq h
  obtain ⟨hprev, rfl⟩ := mem_all_lineStart h₁
  obtain ⟨m₂, h₂, r₂, hr₂, rfl⟩ := mem_all_seq hr₁
  obtain ⟨hs₂, -, hg₂⟩ := mem_all_lit h₂
  obtain ⟨m₃, h₃, m₄, h₄, rfl⟩ := mem_all_seq hr₂
  obtain ⟨n, hn, rfl⟩ := mem_all_group h₃
  obtain ⟨hs₃, hclass, hlo, -, hg₃⟩ := mem_all_many hn
  obtain ⟨hs₄, -, hg₄⟩ := mem_all_lit h₄
  refine ⟨hprev, n.word, List.length_pos_iff.mp hlo, fun c hc => ?_, ?_, ?_⟩
  · exact Bool.not_eq_true' _ ▸ hclass c hc
  · simp only [Match.append_groups, hg₂, hg₃, hg₄, List.nil_append, List.append_nil]
  · calc s = ascii "Date:" ++ m₂.rest := hs₂
      _ = ascii "Date:" ++ (n.word ++ n.rest) := by rw [hs₃]
      _ = ascii "Date:" ++ (n.word ++ (crlf ++ m₄.rest)) := by rw [← hs₄]

/-- A date header is matched. -/
lemma first_datePattern (hprev : prev.all isLineEnd = true) (hv : v ≠ []) (hbreak : NoBreak v) :
    datePattern.first prev (ascii "Date:" ++ (v ++ (crlf ++ t))) =
      some ⟨ascii "Date:" ++ (v ++ crlf), [v], t⟩ := by
  have hvalue : (Pattern.many (fun c => !isLineEnd c) 1 none).first
      (before prev (ascii "Date:")) (v ++ (crlf ++ t)) = some ⟨v, [], crlf ++ t⟩ := by
    refine first_many (fun c hc => ?_) (List.length_pos_iff.mpr hv) (fun c hc => ?_) nofun
    · rw [hbreak c hc]
      rfl
    · rw [← Option.some.inj hc]
      rfl
  exact first_seq (first_lineStart hprev)
    (first_seq first_lit (first_seq (first_group hvalue) first_lit))

/-- At every position, the pattern matches exactly the date headers. -/
lemma first_datePattern_groups :
    (datePattern.first prev s).map Match.groups = some [v] ↔ DateField prev s v := by
  constructor
  · intro h
    obtain ⟨m, hm, hgroups⟩ := Option.map_eq_some_iff.mp h
    obtain ⟨hstart, v', hv', hbreak, hg, hs⟩ := mem_all_datePattern (mem_all_of_first hm)
    obtain rfl : v' = v := List.singleton_inj.mp (hg.symm.trans hgroups)
    exact ⟨hstart, hv', hbreak, m.rest, by rw [hs]; simp only [List.append_assoc]⟩
  · rintro ⟨hstart, hv, hbreak, t, rfl⟩
    rw [List.append_assoc, List.append_assoc, first_datePattern hstart hv hbreak]
    rfl

/-- There is no match where there is no date header. -/
lemma first_datePattern_eq_none_iff :
    datePattern.first prev s = none ↔ ∀ v, ¬ DateField prev s v := by
  constructor
  · intro h v hv
    have hgroups := first_datePattern_groups.mpr hv
    rw [h] at hgroups
    cases hgroups
  · intro h
    refine first_eq_none_iff.mpr fun m hm => ?_
    obtain ⟨hstart, v, hv, hbreak, -, hs⟩ := mem_all_datePattern hm
    exact h v ⟨hstart, hv, hbreak, m.rest, by rw [hs]; simp only [List.append_assoc]⟩

end Matches

/-! ## Arbitrary texts -/

/-- **What is returned.** The date of a text is that of its first date header, with the commas,
spaces and colons replaced.

**Proof sketch.** The search finds the leftmost match (`Pattern.search_eq_some_iff`), and the
matches are the date headers. -/
theorem getDatetimeFormatted_eq_ok_iff {data d : Bytes} :
    getDatetimeFormatted data = .ok d ↔ ∃ v, FirstDate data v ∧ d = underscored v := by
  constructor
  · intro h
    rw [getDatetimeFormatted] at h
    split at h
    · cases h
    · next m hm =>
      obtain ⟨u, s, hdata, hfirst, hearlier⟩ := search_eq_some_iff.mp hm
      obtain ⟨-, v, -, -, hg, -⟩ := mem_all_datePattern (mem_all_of_first hfirst)
      have hfield : DateField (before none u) s v :=
        first_datePattern_groups.mp (by rw [hfirst, ← hg]; rfl)
      rw [before_none] at hfield
      refine ⟨v, ⟨u, s, hdata, hfield, fun u₁ w hu hw => ?_⟩, ?_⟩
      · rw [← before_none]
        exact first_datePattern_eq_none_iff.mp (hearlier u₁ w hu hw)
      · rw [← Except.ok.inj h, hg]
        rfl
  · rintro ⟨v, ⟨u, s, hdata, hfield, hearlier⟩, rfl⟩
    rw [← before_none] at hfield
    obtain ⟨m, hm, hg⟩ := Option.map_eq_some_iff.mp (first_datePattern_groups.mpr hfield)
    have hsearch : datePattern.search none data = some m := by
      refine search_eq_some_iff.mpr ⟨u, s, hdata, hm, fun u₁ w hu hw => ?_⟩
      rw [before_none]
      exact first_datePattern_eq_none_iff.mpr (hearlier u₁ w hu hw)
    rw [getDatetimeFormatted, hsearch]
    exact congrArg (fun gs => Except.ok (underscored (gs.headD []))) hg

/-! ## Messages made of lines -/

/-- A message made of lines. -/
def message (lines : List Bytes) : Bytes := lines.flatMap (· ++ crlf)

/-- The header section: the lines before the first empty one. -/
def headerSection (lines : List Bytes) : List Bytes := lines.takeWhile (· ≠ [])

/-- The rest of the message, from the first empty line on. -/
def body (lines : List Bytes) : List Bytes := lines.dropWhile (· ≠ [])

/-- The value of a line that begins with `Date:`, unless it is empty. -/
def dateValue (line : Bytes) : Option Bytes :=
  if ascii "Date:" <+: line ∧ line.drop 5 ≠ [] then some (line.drop 5) else none

/-- The value of the first date line of the header section. -/
def headerDate (lines : List Bytes) : Option Bytes := (headerSection lines).findSome? dateValue

/-- The date of the header section is returned, or there is none and this is reported. -/
def DateOfHeader (lines : List Bytes) : Prop :=
  (∀ v, headerDate lines = some v → getDatetimeFormatted (message lines) = .ok (underscored v)) ∧
    ((∃ what, getDatetimeFormatted (message lines) = .error (.runtimeError what)) ↔
      headerDate lines = none)

section Lines

variable {l u v w s t : Bytes} {prev : Option UInt8} {lines : List Bytes}

/-- The date lines. -/
lemma dateValue_eq_some_iff : dateValue l = some v ↔ v ≠ [] ∧ l = ascii "Date:" ++ v := by
  rw [dateValue]
  constructor
  · intro h
    split at h
    · next hdate =>
      obtain ⟨⟨w, rfl⟩, hvalue⟩ := hdate
      rw [← Option.some.inj h]
      exact ⟨hvalue, rfl⟩
    · cases h
  · rintro ⟨hv, rfl⟩
    exact if_pos ⟨List.prefix_append _ _, hv⟩

/-- A part of a text without line breaks has none. -/
lemma NoBreak.mono (h : NoBreak w) (hsub : v ⊆ w) : NoBreak v := fun c hc => h c (hsub hc)

/-- The letters of `Date:` do not break a line. -/
lemma noBreak_date : NoBreak (ascii "Date:") := by
  rw [NoBreak]
  decide +kernel

/-- The first line of a text is determined. -/
lemma NoBreak.append_inj (hv : NoBreak v) (hw : NoBreak w) (h : v ++ cr :: s = w ++ cr :: t) :
    v = w := by
  have hline : ∀ {v s : Bytes}, NoBreak v →
      (v ++ cr :: s).takeWhile (fun c => !isLineEnd c) = v := by
    intro v s hv
    refine takeWhile_append (fun c hc => by rw [hv c hc]; rfl) fun c hc => ?_
    rw [← Option.some.inj hc]
    rfl
  rw [← hline hv, h, hline hw]

/-- No date header begins inside a line or its CRLF, and at the start only that of the line. -/
lemma not_dateField (hl : NoBreak l) (hdate : dateValue l = none) (huv : l ++ crlf = u ++ v)
    (hv : v ≠ []) (x : Bytes) : ¬ DateField (before prev u) (v ++ t) x := by
  rintro ⟨hstart, hx, hbreak, r, hr⟩
  rcases List.eq_nil_or_concat u with rfl | ⟨u, c, rfl⟩
  · -- at the start of the line, the value would be that of the line
    rw [List.nil_append] at huv
    have hsame : ascii "Date:" ++ x = l := by
      refine NoBreak.append_inj (s := lf :: r) (t := lf :: t) ?_ hl ?_
      · exact fun c hc => (List.mem_append.mp hc).elim (noBreak_date c) (hbreak c)
      · rw [← huv] at hr
        simpa only [crlf, List.append_assoc, List.cons_append, List.nil_append] using hr
    rw [dateValue_eq_some_iff.mpr ⟨hx, hsame.symm⟩] at hdate
    cases hdate
  · rw [List.concat_eq_append] at huv hstart
    rw [before_concat, Option.all_some] at hstart
    obtain ⟨v, d, rfl⟩ := (List.eq_nil_or_concat v).resolve_left hv
    rw [List.concat_eq_append, ← List.append_assoc] at huv
    obtain ⟨hrest, hd⟩ := List.append_inj' (show (l ++ [cr]) ++ [lf] = u ++ [c] ++ v ++ [d] by
      rw [← huv, List.append_assoc]; rfl) rfl
    rcases List.eq_nil_or_concat v with rfl | ⟨v, e, rfl⟩
    · -- between the CR and the LF, the LF follows
      rw [← List.singleton_inj.mp hd] at hr
      cases List.cons.inj hr |>.1
    · -- before that, the character of the line does not end a line
      rw [List.concat_eq_append, ← List.append_assoc] at hrest
      obtain ⟨rfl, -⟩ := List.append_inj' hrest rfl
      have hc := hl c (List.mem_append_left v (List.mem_append_right u (List.mem_singleton_self c)))
      exact Bool.false_ne_true (hc.symm.trans hstart)

/-- **The date of a message.** The search finds the value of the first date line of the message,
wherever it stands.

**Proof sketch.** Induction on the lines. At the first line, either the date header begins there, or
the search passes over the line and its CRLF (`not_dateField`). -/
theorem search_message (hlines : ∀ l ∈ lines, NoBreak l) (hprev : prev.all isLineEnd = true) :
    (datePattern.search prev (message lines)).map Match.groups =
      (lines.findSome? dateValue).map fun v => [v] := by
  induction lines generalizing prev with
  | nil =>
    have hnone : datePattern.first prev [] = none :=
      first_datePattern_eq_none_iff.mpr fun v hv => by
        obtain ⟨t, ht⟩ := hv.field
        cases ht
    rw [message, List.flatMap_nil, search, hnone]
    rfl
  | cons l lines ih =>
    rw [List.forall_mem_cons] at hlines
    rw [message, List.flatMap_cons, List.findSome?_cons]
    cases hdate : dateValue l with
    | some v =>
      obtain ⟨hv, rfl⟩ := dateValue_eq_some_iff.mp hdate
      have hbreak : NoBreak v := hlines.1.mono (List.subset_append_right _ _)
      rw [List.append_assoc, List.append_assoc,
        search_of_first (first_datePattern hprev hv hbreak)]
      rfl
    | none =>
      rw [search_skip fun u v huv hv =>
        first_datePattern_eq_none_iff.mpr (not_dateField hlines.1 hdate huv hv)]
      refine ih hlines.2 ?_
      rw [show l ++ crlf = (l ++ [cr]) ++ [lf] by rw [List.append_assoc]; rfl, before_concat]
      rfl

/-- What is returned for a message made of lines. -/
theorem getDatetimeFormatted_message (hlines : ∀ l ∈ lines, NoBreak l) :
    getDatetimeFormatted (message lines) = ((lines.findSome? dateValue).map underscored).elim
      (.error (.runtimeError (ascii "Date header not found!"))) .ok := by
  have hsearch : (datePattern.search none (message lines)).map Match.groups =
      (lines.findSome? dateValue).map fun v => [v] := search_message hlines rfl
  rw [getDatetimeFormatted]
  split
  · next h =>
    rw [h, Option.map_none] at hsearch
    rw [Option.map_eq_none_iff.mp hsearch.symm]
    rfl
  · next m h =>
    rw [h, Option.map_some] at hsearch
    obtain ⟨v, hv, hg⟩ := Option.map_eq_some_iff.mp hsearch.symm
    rw [hv, ← hg]
    rfl

/-- The first date line of a message is that of the header section, or else that of the body. -/
lemma findSome?_dateValue :
    lines.findSome? dateValue = (headerDate lines).or ((body lines).findSome? dateValue) := by
  rw [headerDate, ← List.findSome?_append, headerSection, body, List.takeWhile_append_dropWhile]

/-- **The date of the header section.** It is returned, or its absence reported, exactly if the
header section has a date line or the body has none.

**Proof sketch.** A date of the header section comes first. Without one, the first date line of the
body is taken in its place, if there is one. -/
theorem date_of_header_iff (hlines : ∀ l ∈ lines, NoBreak l) :
    DateOfHeader lines ↔
      (∃ l ∈ headerSection lines, dateValue l ≠ none) ∨ ∀ l ∈ body lines, dateValue l = none := by
  have hheader : (∃ l ∈ headerSection lines, dateValue l ≠ none) ↔ headerDate lines ≠ none := by
    rw [headerDate, Ne, List.findSome?_eq_none_iff, not_forall]
    simp only [Classical.not_imp, Ne]
  rw [hheader, ← List.findSome?_eq_none_iff, DateOfHeader, getDatetimeFormatted_message hlines,
    findSome?_dateValue]
  cases headerDate lines with
  | some v =>
    refine ⟨fun _ => Or.inl nofun, fun _ => ⟨fun w hw => ?_, ?_⟩⟩
    · rw [Option.some.inj hw]
      rfl
    · exact ⟨nofun, nofun⟩
  | none =>
    rw [Option.none_or]
    cases (body lines).findSome? dateValue with
    | some v =>
      constructor
      · rintro ⟨-, hthrows⟩
        obtain ⟨what, hwhat⟩ := hthrows.mpr rfl
        cases hwhat
      · rintro (hsome | hnone)
        · exact absurd rfl hsome
        · cases hnone
    | none => exact ⟨fun _ => Or.inr rfl, fun _ => ⟨nofun, fun _ => rfl, fun _ => ⟨_, rfl⟩⟩⟩

/-- The date of the test of the source, before a body with another date line. -/
theorem date_of_header_iff_test :
    DateOfHeader [ascii "Date: Thu, 17 Oct 2024 13:01:30 +0200", [], ascii "Date: x"] :=
  (date_of_header_iff (by simp only [NoBreak]; decide +kernel)).mpr
    (Or.inl (by decide +kernel))

/-- A message without a date header takes the date line of its body for one. -/
theorem date_of_body : ¬ DateOfHeader [ascii "Subject: x", [], ascii "Date: y"] := by
  rintro ⟨-, hthrows⟩
  obtain ⟨what, hwhat⟩ := hthrows.mpr (by decide +kernel)
  rw [show getDatetimeFormatted (message [ascii "Subject: x", [], ascii "Date: y"]) =
    .ok (ascii "_y") by rfl] at hwhat
  cases hwhat

end Lines

end Imapcl
