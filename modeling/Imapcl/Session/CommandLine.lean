import Imapcl.Foundation.Words
import Imapcl.Parser.WireForm
import Imapcl.Session.System

set_option relaxedAutoImplicit false
set_option autoImplicit false

/-!
# Command lines

What a server can tell from the bytes of a command. A command line is a sequence of words between
single spaces and a CRLF, and the words determine the command; this is shown by a reader that
recovers the command from its line.

## Main definitions

* `Imapcl.Command.WellFormed` — the commands that a session builds from accepted arguments.
* `Imapcl.Command.words`, `Imapcl.Command.ofLine` — the words of a command, and the reader.

## Main results

* `Imapcl.Command.makeTcp_eq` — the bytes of a command are its words and a CRLF.
* `Imapcl.Command.ofLine_makeTcp` — the reader recovers the command.
* `Imapcl.commands_decodable` — commands are uniquely decodable single lines.
-/

namespace Imapcl

open Words

/-! ## Words -/

/-- A non-empty word over the characters with the property `f`. -/
structure WordOver (f : UInt8 → Bool) (w : Bytes) : Prop where
  nonempty : w ≠ []
  chars : ∀ c ∈ w, f c = true

/-- `[a-zA-Z0-9@.-]`, the characters of a user name in `cred_file_username_regex`. -/
def isUserNameChar (c : UInt8) : Bool := isAlnum c || c = byte '@' || c = byte '.' || c = byte '-'

/-- `[a-zA-Z0-9-_]`, the characters of a mailbox name in `Client::Commands`. -/
def isMailboxChar (c : UInt8) : Bool := isAlnum c || c = byte '-' || c = byte '_'

/-- A word without spaces and control characters. -/
def Graphic (w : Bytes) : Prop := ∀ c ∈ w, byte ' ' < c

/-- An alphanumeric character is beyond the space. -/
lemma space_lt_of_isAlnum {c : UInt8} (h : isAlnum c = true) : byte ' ' < c := by
  simp only [isAlnum, Bool.or_eq_true, isDigit_iff, Bool.and_eq_true, decide_eq_true_eq,
    UInt8.le_iff_toNat_le, UInt8.reduceToNat] at h
  rw [UInt8.lt_iff_toNat_lt, show (byte ' ').toNat = 32 from rfl]
  omega

/-- An alphanumeric word is graphic. -/
lemma WordOver.graphic {w : Bytes} (h : WordOver isAlnum w) : Graphic w :=
  fun c hc => space_lt_of_isAlnum (h.chars c hc)

/-- A user name is graphic. -/
lemma WordOver.graphic_userName {w : Bytes} (h : WordOver isUserNameChar w) : Graphic w := by
  intro c hc
  have hchar := h.chars c hc
  simp only [isUserNameChar, Bool.or_eq_true, decide_eq_true_eq] at hchar
  rcases hchar with ((halnum | rfl) | rfl) | rfl
  · exact space_lt_of_isAlnum halnum
  all_goals decide

/-- A mailbox name is graphic. -/
lemma WordOver.graphic_mailbox {w : Bytes} (h : WordOver isMailboxChar w) : Graphic w := by
  intro c hc
  have hchar := h.chars c hc
  simp only [isMailboxChar, Bool.or_eq_true, decide_eq_true_eq] at hchar
  rcases hchar with (halnum | rfl) | rfl
  · exact space_lt_of_isAlnum halnum
  all_goals decide

/-! ## Sequence sets -/

/-- The numbers of a sequence set, separated by commas. -/
def sequenceSetWord (ns : List UInt32) : Bytes :=
  [byte ','].intercalate (ns.map fun n => decimal n.toNat)

/-- The numbers of a sequence set, read from its word. -/
def readSequenceSet (w : Bytes) : List UInt32 :=
  (w.splitOn (byte ',')).map fun ds => UInt32.ofNat (numeralValue ds)

/-- The text of a sequence set is its word after a space. -/
lemma sequenceSetText_eq {ns : List UInt32} (h : ns ≠ []) :
    Command.sequenceSetText ns = .ok (ascii " " ++ sequenceSetWord ns) := by
  cases ns with
  | nil => exact absurd rfl h
  | cons n ns =>
    rw [Command.sequenceSetText, sequenceSetWord, List.map_cons, intercalate_cons_eq,
      List.flatMap_map, List.append_assoc]
    rfl

/-- The numbers of a non-empty sequence set are recovered from its word. -/
lemma readSequenceSet_word {ns : List UInt32} (h : ns ≠ []) :
    readSequenceSet (sequenceSetWord ns) = ns := by
  have hcomma : ∀ w ∈ ns.map fun n => decimal n.toNat, byte ',' ∉ w := by
    intro w hw
    obtain ⟨n, -, rfl⟩ := List.mem_map.mp hw
    exact not_mem_decimal rfl
  rw [readSequenceSet, sequenceSetWord, List.splitOn_intercalate _ hcomma (by simpa using h),
    List.map_map]
  refine (List.map_congr_left fun n _ => ?_).trans (List.map_id ns)
  simp [numeralValue_decimal]

/-- The word of a sequence set is graphic. -/
lemma graphic_sequenceSetWord (ns : List UInt32) : Graphic (sequenceSetWord ns) := by
  intro c hc
  rcases mem_intercalate hc with hcomma | ⟨w, hw, hcw⟩
  · rw [List.mem_singleton.mp hcomma]
    decide
  · obtain ⟨n, -, rfl⟩ := List.mem_map.mp hw
    exact space_lt_of_isAlnum (isAlnum_of_isDigit (isDigit_of_mem_decimal _ c hcw))

/-! ## Commands -/

namespace Command

/-- The commands of the session: alphanumeric tags, credentials as the credential file accepts them,
mailbox names as the interactive mode accepts them, the criteria and data items of the operations,
and non-empty sequence sets. -/
def WellFormed : Command → Prop
  | login tag userName password =>
    WordOver isAlnum tag ∧ WordOver isUserNameChar userName ∧ WordOver isAlnum password
  | select tag mailboxName => WordOver isAlnum tag ∧ WordOver isMailboxChar mailboxName
  | search tag searchCriteria =>
    WordOver isAlnum tag ∧ (searchCriteria = ascii "ALL" ∨ searchCriteria = ascii "UNSEEN")
  | fetch tag sequenceSet dataItem => WordOver isAlnum tag ∧ sequenceSet ≠ [] ∧
    (dataItem = ascii "(BODY.PEEK[HEADER])" ∨ dataItem = ascii "BODY[]")
  | store tag sequenceSet dataItemName dataItemValue => WordOver isAlnum tag ∧ sequenceSet ≠ [] ∧
    dataItemName = ascii "+FLAGS" ∧ dataItemValue = ascii "\\Seen"
  | logout tag => WordOver isAlnum tag

/-- The words of the line of a command. -/
def words : Command → List Bytes
  | login tag userName password => [tag, ascii "LOGIN", userName, password]
  | select tag mailboxName => [tag, ascii "SELECT", mailboxName]
  | search tag searchCriteria => [tag, ascii "SEARCH", searchCriteria]
  | fetch tag sequenceSet dataItem => [tag, ascii "FETCH", sequenceSetWord sequenceSet, dataItem]
  | store tag sequenceSet dataItemName dataItemValue =>
    [tag, ascii "STORE", sequenceSetWord sequenceSet, dataItemName, dataItemValue]
  | logout tag => [tag, ascii "LOGOUT"]

/-- The line of a command, without its CRLF. -/
def line (c : Command) : Bytes := [byte ' '].intercalate c.words

/-- The command with the given words. -/
def ofWords : List Bytes → Option Command
  | [tag, name] => if name = ascii "LOGOUT" then some (logout tag) else none
  | [tag, name, arg] =>
    if name = ascii "SELECT" then some (select tag arg)
    else if name = ascii "SEARCH" then some (search tag arg)
    else none
  | [tag, name, arg, arg'] =>
    if name = ascii "LOGIN" then some (login tag arg arg')
    else if name = ascii "FETCH" then some (fetch tag (readSequenceSet arg) arg')
    else none
  | [tag, name, arg, arg', arg''] =>
    if name = ascii "STORE" then some (store tag (readSequenceSet arg) arg' arg'') else none
  | _ => none

/-- The command on a line. -/
def ofLine (out : Bytes) : Option Command :=
  ofWords ((out.take (out.length - 2)).splitOn (byte ' '))

variable {c : Command} {out : Bytes}

/-- The bytes of a command are its line and a CRLF. -/
lemma makeTcp_eq (h : c.WellFormed) : c.makeTcp = .ok (c.line ++ crlf) := by
  cases c with
  | login tag userName password => simp [makeTcp, line, words, intercalate_cons_eq, ascii, byte]
  | select tag mailboxName => simp [makeTcp, line, words, intercalate_cons_eq, ascii, byte]
  | search tag searchCriteria => simp [makeTcp, line, words, intercalate_cons_eq, ascii, byte]
  | fetch tag sequenceSet dataItem =>
    rw [makeTcp, sequenceSetText_eq h.2.1]
    simp [line, words, intercalate_cons_eq, ascii, byte]
  | store tag sequenceSet dataItemName dataItemValue =>
    rw [makeTcp, sequenceSetText_eq h.2.1]
    simp [line, words, intercalate_cons_eq, ascii, byte]
  | logout tag => simp [makeTcp, line, words, intercalate_cons_eq, ascii, byte]

/-- The words of a command are graphic. -/
lemma graphic_of_mem_words (h : c.WellFormed) : ∀ w ∈ c.words, Graphic w := by
  have hconst : ∀ w ∈ [ascii "LOGIN", ascii "SELECT", ascii "SEARCH", ascii "FETCH", ascii "STORE",
      ascii "LOGOUT", ascii "ALL", ascii "UNSEEN", ascii "(BODY.PEEK[HEADER])", ascii "BODY[]",
      ascii "+FLAGS", ascii "\\Seen"], Graphic w := by
    unfold Graphic
    decide +kernel
  cases c with
  | login tag userName password =>
    simp only [words, List.forall_mem_cons, List.not_mem_nil, false_implies, implies_true,
      and_true]
    exact ⟨h.1.graphic, hconst _ (by decide), h.2.1.graphic_userName, h.2.2.graphic⟩
  | select tag mailboxName =>
    simp only [words, List.forall_mem_cons, List.not_mem_nil, false_implies, implies_true,
      and_true]
    exact ⟨h.1.graphic, hconst _ (by decide), h.2.graphic_mailbox⟩
  | search tag searchCriteria =>
    obtain ⟨htag, rfl | rfl⟩ := h
    all_goals
      simp only [words, List.forall_mem_cons, List.not_mem_nil, false_implies, implies_true,
        and_true]
      exact ⟨htag.graphic, hconst _ (by decide), hconst _ (by decide)⟩
  | fetch tag sequenceSet dataItem =>
    have hset := graphic_sequenceSetWord sequenceSet
    obtain ⟨htag, -, rfl | rfl⟩ := h
    all_goals
      simp only [words, List.forall_mem_cons, List.not_mem_nil, false_implies, implies_true,
        and_true]
      exact ⟨htag.graphic, hconst _ (by decide), hset, hconst _ (by decide)⟩
  | store tag sequenceSet dataItemName dataItemValue =>
    have hset := graphic_sequenceSetWord sequenceSet
    obtain ⟨htag, -, rfl, rfl⟩ := h
    simp only [words, List.forall_mem_cons, List.not_mem_nil, false_implies, implies_true,
      and_true]
    exact ⟨htag.graphic, hconst _ (by decide), hset, hconst _ (by decide), hconst _ (by decide)⟩
  | logout tag =>
    simp only [words, List.forall_mem_cons, List.not_mem_nil, false_implies, implies_true,
      and_true]
    exact ⟨WordOver.graphic h, hconst _ (by decide)⟩

/-- The reader of words recovers the command. -/
lemma ofWords_words (h : c.WellFormed) : ofWords c.words = some c := by
  cases c with
  | fetch tag sequenceSet dataItem =>
    rw [words, ofWords, readSequenceSet_word h.2.1]
    rfl
  | store tag sequenceSet dataItemName dataItemValue =>
    rw [words, ofWords, readSequenceSet_word h.2.1]
    rfl
  | _ => rfl

/-- The reader of lines recovers the command. -/
lemma ofLine_makeTcp (h : c.WellFormed) (hout : c.makeTcp = .ok out) : ofLine out = some c := by
  obtain rfl : c.line ++ crlf = out := Except.ok.inj ((makeTcp_eq h).symm.trans hout)
  have hspace : ∀ w ∈ c.words, byte ' ' ∉ w := fun w hw hm =>
    absurd (graphic_of_mem_words h w hw _ hm) (by decide)
  have hne : c.words ≠ [] := by
    cases c <;> exact List.cons_ne_nil _ _
  rw [ofLine, List.length_append, show crlf.length = 2 from rfl, Nat.add_sub_cancel,
    List.take_left, line, List.splitOn_intercalate _ hspace hne, ofWords_words h]

/-- A line has no control characters. -/
lemma not_mem_line (h : c.WellFormed) {a : UInt8} (ha : a < byte ' ') : a ∉ c.line := by
  intro hm
  rcases mem_intercalate hm with hs | ⟨w, hw, haw⟩
  · rw [List.mem_singleton.mp hs] at ha
    exact absurd ha (by decide)
  · exact absurd (graphic_of_mem_words h w hw a haw) (UInt8.not_lt.mpr (UInt8.le_of_lt ha))

end Command

/-- **Unique decodability.** A well-formed command is sent, as a line whose only CR and LF are those
of its final CRLF, and two well-formed commands with the same bytes are the same command.

**Proof sketch.** The words of a command have neither spaces nor control characters, so the line can
be split at its spaces; the keyword gives the kind, and the sequence set can be split at its
commas. -/
theorem commands_decodable :
    (∀ c : Command, c.WellFormed → ∃ out, c.makeTcp = .ok out ∧ out.count cr = 1 ∧
      out.count lf = 1 ∧ crlf <:+ out) ∧
    ∀ (c c' : Command) (out : Bytes), c.WellFormed → c'.WellFormed → c.makeTcp = .ok out →
      c'.makeTcp = .ok out → c = c' := by
  constructor
  · intro c h
    have hcr := List.count_eq_zero.mpr (c.not_mem_line h (a := cr) (by decide))
    have hlf := List.count_eq_zero.mpr (c.not_mem_line h (a := lf) (by decide))
    refine ⟨_, c.makeTcp_eq h, ?_, ?_, List.suffix_append _ _⟩
    · rw [List.count_append, hcr]
      rfl
    · rw [List.count_append, hlf]
      rfl
  · intro c c' out h h' hout hout'
    have hread := c.ofLine_makeTcp h hout
    rw [c'.ofLine_makeTcp h' hout'] at hread
    exact (Option.some.inj hread).symm

/-- A password or a mailbox may be spelled like a keyword. -/
theorem commands_decodable_keyword :
    (∃ out, (Command.login (ascii "a001") (ascii "LOGIN") (ascii "LOGIN")).makeTcp = .ok out ∧
      out.count cr = 1 ∧ out.count lf = 1 ∧ crlf <:+ out) ∧
    Command.select (ascii "2") (ascii "SELECT") = .select (ascii "2") (ascii "SELECT") := by
  have hword : WordOver isAlnum (ascii "LOGIN") := ⟨by decide, by decide +kernel⟩
  have hselect : (Command.select (ascii "2") (ascii "SELECT")).WellFormed :=
    ⟨⟨by decide, by decide +kernel⟩, by decide, by decide +kernel⟩
  exact ⟨commands_decodable.1 _
      ⟨⟨by decide, by decide +kernel⟩, ⟨by decide, by decide +kernel⟩, hword⟩,
    commands_decodable.2 _ _ _ hselect hselect rfl rfl⟩

/-! ## Commands of the session -/

/-- The arguments that the credential file and the interactive mode let through to an operation,
and the sequence sets that `make_tcp` accepts. -/
def Call.Accepted : Call → Prop
  | .login userName password => WordOver isUserNameChar userName ∧ WordOver isAlnum password
  | .select mailbox => WordOver isMailboxChar mailbox
  | .fetch sequenceSet _ => sequenceSet ≠ []
  | .read sequenceSet => sequenceSet ≠ []
  | _ => True

/-- With such arguments the session sends well-formed commands only. -/
theorem wellFormed_of_sends {s : System} {c : Call} {command : Command} (hc : c.Accepted)
    (h : Sends s (.call c) command) : command.WellFormed := by
  obtain ⟨c', hcall, -, hcommand⟩ := h
  obtain rfl := Event.call.inj hcall
  have htag : WordOver isAlnum s.session.getNewTag.1 :=
    ⟨(Tag.number s.session.tag.toNat).nonempty, (Tag.number s.session.tag.toNat).alnum⟩
  by_cases hguard : c.Guard s.session.state
  · obtain ⟨τ, command', control, hbegin, -, hsent, -⟩ := begin_of_guard hguard
    rw [hbegin] at hcommand
    obtain rfl := Option.some.inj hcommand
    cases c with
    | receiveGreeting => cases hsent
    | login userName password =>
      cases hsent
      exact ⟨⟨by decide, by decide +kernel⟩, hc⟩
    | select mailbox =>
      cases hsent
      exact ⟨htag, hc⟩
    | search onlyUnseen =>
      cases hsent
      refine ⟨htag, ?_⟩
      cases onlyUnseen with
      | true => exact Or.inr rfl
      | false => exact Or.inl rfl
    | fetch sequenceSet onlyHeaders =>
      cases hsent
      refine ⟨htag, hc, ?_⟩
      cases onlyHeaders with
      | true => exact Or.inl rfl
      | false => exact Or.inr rfl
    | read sequenceSet =>
      cases hsent
      exact ⟨htag, hc, rfl, rfl⟩
    | logout =>
      cases hsent
      exact htag
  · obtain ⟨control, hbegin, -⟩ := begin_of_not_guard hguard
    rw [hbegin] at hcommand
    cases hcommand

end Imapcl
