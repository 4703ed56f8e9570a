import Imapcl.Foundation.Cursor
import Imapcl.Session.CommandLine

set_option relaxedAutoImplicit false
set_option autoImplicit false

/-!
# The mailbox of a SELECT command

The option `-b` passes any string on to `select`, and `make_tcp` puts it into the command as it is.
A server reads the argument of a command as an atom or as a quoted string; this file determines
the mailbox names that it reads as themselves.

## Main definitions

* `Imapcl.readArgument`, `Imapcl.readCommandLine` — how a server reads a command with one argument.
* `Imapcl.SelectNames` — a SELECT command is refused, or names its mailbox.

## Main results

* `Imapcl.select_names_interactive` — the interactive commands let only such names through.
* `Imapcl.select_names_iff` — the mailbox names for which it does.
-/

namespace Imapcl

open Words Cursor

/-! ## Reading a command line -/

/-- An atom is made of printable characters other than `(`, `)`, `{`, `%`, `*`, `"`, `\` and `]`. -/
def isAtomChar (c : UInt8) : Bool :=
  byte ' ' < c && c < 127 && c ∉ ascii "()\x7b%*\"\\]"

/-- A tag may contain `]` as well, but no `+`. -/
def isTagChar (c : UInt8) : Bool := (isAtomChar c || c = byte ']') && c ≠ byte '+'

/-- The rest of a quoted string after its opening quote: a backslash escapes a quote or a
backslash, and nothing follows the closing quote. -/
def readQuoted : Bytes → Option Bytes
  | [] => none
  | [c] => if c = byte '"' then some [] else none
  | c :: e :: w =>
    if c = byte '"' then none
    else if c = byte '\\' then
      if e = byte '"' ∨ e = byte '\\' then (readQuoted w).map (e :: ·) else none
    else if isTextChar c then (readQuoted (e :: w)).map (c :: ·) else none

/-- An argument: a quoted string or an atom. -/
def readArgument : Bytes → Option Bytes
  | [] => none
  | c :: w =>
    if c = byte '"' then readQuoted w
    else if (c :: w).all isAtomChar then some (c :: w)
    else none

/-- A command line with one argument: its tag, the name of the command and the argument. The only
line break is the CRLF at its end. -/
def readCommandLine (out : Bytes) : Option (Bytes × Bytes × Bytes) :=
  let line := out.take (out.length - 2)
  let tag := line.takeWhile (· ≠ byte ' ')
  let command := line.drop (tag.length + 1)
  let name := command.takeWhile (· ≠ byte ' ')
  if out.drop (out.length - 2) = crlf ∧ cr ∉ line ∧ lf ∉ line ∧ tag ≠ [] ∧ tag.all isTagChar then
    (readArgument (command.drop (name.length + 1))).map fun arg => (tag, name, arg)
  else none

/-- `make_tcp` refuses the SELECT command, or a server reads the mailbox off its line. -/
def SelectNames (tag mailbox : Bytes) : Prop :=
  match (Command.select tag mailbox).makeTcp with
  | .error _ => True
  | .ok out => readCommandLine out = some (tag, ascii "SELECT", mailbox)

/-! ## Arguments -/

/-- A quoted string is longer than what it stands for. -/
lemma readQuoted_length {w x : Bytes} (h : readQuoted w = some x) : x.length < w.length := by
  induction w using readQuoted.induct generalizing x with
  | case1 => cases h
  | case2 =>
    rw [readQuoted, if_pos rfl] at h
    rw [← Option.some.inj h]
    exact Nat.zero_lt_one
  | case3 c hquote =>
    rw [readQuoted, if_neg hquote] at h
    cases h
  | case4 e w =>
    rw [readQuoted, if_pos rfl] at h
    cases h
  | case5 e w hescape hquote ih =>
    rw [readQuoted, if_neg hquote, if_pos rfl, if_pos hescape] at h
    obtain ⟨y, hy, rfl⟩ := Option.map_eq_some_iff.mp h
    have := ih hy
    simp only [List.length_cons]
    omega
  | case6 e w hescape hquote =>
    rw [readQuoted, if_neg hquote, if_pos rfl, if_neg hescape] at h
    cases h
  | case7 c e w hquote hslash htext ih =>
    rw [readQuoted, if_neg hquote, if_neg hslash, if_pos htext] at h
    obtain ⟨y, hy, rfl⟩ := Option.map_eq_some_iff.mp h
    have := ih hy
    simp only [List.length_cons] at this ⊢
    omega
  | case8 c e w hquote hslash htext =>
    rw [readQuoted, if_neg hquote, if_neg hslash, if_neg htext] at h
    cases h

/-- The arguments that stand for themselves are the atoms: a quoted string stands for something
shorter. -/
lemma readArgument_eq_self_iff {w : Bytes} :
    readArgument w = some w ↔ WordOver isAtomChar w := by
  cases w with
  | nil => exact iff_of_false (by simp [readArgument]) fun h => h.nonempty rfl
  | cons c w =>
    rw [readArgument]
    by_cases hquote : c = byte '"'
    · rw [if_pos hquote]
      refine iff_of_false (fun h => ?_) fun h => ?_
      · have := readQuoted_length h
        rw [List.length_cons] at this
        omega
      · have hc := h.chars c (by simp)
        rw [hquote] at hc
        cases hc
    · rw [if_neg hquote]
      by_cases hall : (c :: w).all isAtomChar = true
      · rw [if_pos hall]
        exact iff_of_true rfl ⟨List.cons_ne_nil c w, List.all_eq_true.mp hall⟩
      · rw [if_neg hall]
        exact iff_of_false (by simp) fun h => hall (List.all_eq_true.mpr h.chars)

/-- An atom has no space and no line break. -/
lemma WordOver.graphic_atom {w : Bytes} (h : WordOver isAtomChar w) : Graphic w := by
  intro c hc
  have hchar := h.chars c hc
  simp only [isAtomChar, Bool.and_eq_true, decide_eq_true_eq] at hchar
  exact hchar.1.1

/-- A tag has no space and no line break. -/
lemma WordOver.graphic_tag {w : Bytes} (h : WordOver isTagChar w) : Graphic w := by
  intro c hc
  have hchar := h.chars c hc
  simp only [isTagChar, isAtomChar, Bool.and_eq_true, Bool.or_eq_true, decide_eq_true_eq] at hchar
  rcases hchar.1 with hatom | rfl
  · exact hatom.1.1
  · decide

/-- A control character or a space is not in a graphic word. -/
lemma Graphic.not_mem {w : Bytes} (h : Graphic w) {a : UInt8} (ha : a ≤ byte ' ') : a ∉ w :=
  fun hm => absurd (h a hm) (UInt8.not_lt.mpr ha)

/-! ## SELECT commands -/

/-- The line of a SELECT command, as a server reads it. -/
lemma readCommandLine_select {tag mailbox : Bytes} :
    readCommandLine (tag ++ ascii " SELECT " ++ mailbox ++ crlf) =
        some (tag, ascii "SELECT", mailbox) ↔
      WordOver isTagChar tag ∧ readArgument mailbox = some mailbox ∧
        cr ∉ mailbox ∧ lf ∉ mailbox := by
  have hline : (tag ++ ascii " SELECT " ++ mailbox ++ crlf).take
      ((tag ++ ascii " SELECT " ++ mailbox ++ crlf).length - 2) =
        tag ++ ascii " SELECT " ++ mailbox := by
    rw [List.length_append, show crlf.length = 2 from rfl, Nat.add_sub_cancel, List.take_left]
  have hend : (tag ++ ascii " SELECT " ++ mailbox ++ crlf).drop
      ((tag ++ ascii " SELECT " ++ mailbox ++ crlf).length - 2) = crlf := by
    rw [List.length_append, show crlf.length = 2 from rfl, Nat.add_sub_cancel, List.drop_left]
  have htag : byte ' ' ∉ tag → (tag ++ ascii " SELECT " ++ mailbox).takeWhile (· ≠ byte ' ') =
      tag := by
    intro h
    rw [List.append_assoc]
    refine takeWhile_append (fun a ha => decide_eq_true ?_) (head_cons _ rfl)
    rintro rfl
    exact h ha
  have hcommand : (tag ++ ascii " SELECT " ++ mailbox).drop (tag.length + 1) =
      ascii "SELECT" ++ (byte ' ' :: mailbox) := by
    rw [List.append_assoc, List.drop_append, List.drop_eq_nil_of_le (by omega)]
    simp [ascii, byte]
  have hname : (ascii "SELECT" ++ (byte ' ' :: mailbox)).takeWhile (· ≠ byte ' ') =
      ascii "SELECT" :=
    takeWhile_append (by decide +kernel) (head_cons _ rfl)
  simp only [readCommandLine, hline, hend]
  constructor
  · intro h
    split at h
    · next hcond =>
      obtain ⟨-, hcr, hlf, hne, hall⟩ := hcond
      obtain ⟨arg, harg, heq⟩ := Option.map_eq_some_iff.mp h
      simp only [Prod.mk.injEq] at heq
      obtain ⟨htag', -, rfl⟩ := heq
      rw [htag'] at hne hall harg
      rw [hcommand, hname] at harg
      simp only [List.mem_append, not_or] at hcr hlf
      exact ⟨⟨hne, List.all_eq_true.mp hall⟩, harg, hcr.2, hlf.2⟩
    · cases h
  · rintro ⟨hword, harg, hcr, hlf⟩
    have hgraphic := hword.graphic_tag
    rw [htag (hgraphic.not_mem (by decide)), hcommand, hname, if_pos]
    · show Option.map _ (readArgument mailbox) = _
      rw [harg]
      rfl
    · refine ⟨trivial, ?_, ?_, hword.nonempty, List.all_eq_true.mpr hword.chars⟩
      · simp only [List.mem_append, not_or]
        exact ⟨⟨hgraphic.not_mem (by decide), by decide⟩, hcr⟩
      · simp only [List.mem_append, not_or]
        exact ⟨⟨hgraphic.not_mem (by decide), by decide⟩, hlf⟩

/-- A server reads the mailbox of a SELECT command exactly if tag and mailbox are a tag and an
atom. -/
lemma selectNames_iff {tag mailbox : Bytes} :
    SelectNames tag mailbox ↔ WordOver isTagChar tag ∧ WordOver isAtomChar mailbox := by
  show readCommandLine _ = some _ ↔ _
  rw [readCommandLine_select, readArgument_eq_self_iff]
  constructor
  · exact fun h => ⟨h.1, h.2.1⟩
  · exact fun h => ⟨h.1, h.2, h.2.graphic_atom.not_mem (by decide),
      h.2.graphic_atom.not_mem (by decide)⟩

/-- A letter or a digit may stand in an atom. -/
lemma isAtomChar_of_isAlnum {c : UInt8} (h : isAlnum c = true) : isAtomChar c = true := by
  have hspecial : ∀ d ∈ ascii "()\x7b%*\"\\]", isAlnum d = false :=
    by decide +kernel
  have hmem : c ∉ ascii "()\x7b%*\"\\]" := by
    intro hm
    rw [hspecial c hm] at h
    cases h
  have hlt : c < 127 := by
    simp only [isAlnum, Bool.or_eq_true, isDigit_iff, Bool.and_eq_true, decide_eq_true_eq,
      UInt8.le_iff_toNat_le, UInt8.reduceToNat] at h
    rw [UInt8.lt_iff_toNat_lt, show (127 : UInt8).toNat = 127 from rfl]
    omega
  simp [isAtomChar, space_lt_of_isAlnum h, hlt, hmem]

/-- The mailbox names that the interactive commands accept name their mailbox: the restriction is
made there, and neither by the option nor by the command. -/
theorem select_names_interactive (tag mailbox : Bytes) (htag : WordOver isAlnum tag)
    (hmailbox : WordOver isMailboxChar mailbox) : SelectNames tag mailbox := by
  refine selectNames_iff.mpr ⟨⟨htag.nonempty, fun c hc => ?_⟩, hmailbox.nonempty, fun c hc => ?_⟩
  · have halnum := htag.chars c hc
    have hplus : c ≠ byte '+' := by
      rintro rfl
      exact absurd halnum (by decide)
    simp [isTagChar, isAtomChar_of_isAlnum halnum, hplus]
  · have hchar := hmailbox.chars c hc
    simp only [isMailboxChar, Bool.or_eq_true, decide_eq_true_eq] at hchar
    rcases hchar with (halnum | rfl) | rfl
    · exact isAtomChar_of_isAlnum halnum
    · decide
    · decide

/-- `make_tcp` never refuses a SELECT command and puts the name into it as it is, so the command
names its mailbox exactly if the tag is a tag and the name is an atom: a name with a space, a
quote, a line break or another special character names something else, or is no single command.

**Proof sketch.** The line of the command is cut at the first space after the tag and after
`SELECT`, so what is read as the argument is the name itself. As an atom it stands for itself; a
quoted string stands for something shorter. The characters of an atom exclude the line break. -/
theorem select_names_iff (tag mailbox : Bytes) :
    SelectNames tag mailbox ↔ WordOver isTagChar tag ∧ WordOver isAtomChar mailbox :=
  selectNames_iff

/-- A name with a space is not read as one argument, and a name with a line break brings a second
command with it. -/
theorem select_injection :
    ¬ SelectNames (ascii "2") (ascii "Sent Items") ∧
      ¬ SelectNames (ascii "2") (ascii "INBOX\r\n3 LOGOUT") := by
  constructor
  · show ¬ readCommandLine _ = some _
    decide +kernel
  · show ¬ readCommandLine _ = some _
    decide +kernel

end Imapcl
