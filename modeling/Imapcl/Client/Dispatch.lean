import Imapcl.Client.Basic

set_option relaxedAutoImplicit false
set_option autoImplicit false

/-!
# The commands of the user

`process_command` searches the input for one command after the other. The searches are not anchored,
so that a command is found in the name of a mailbox as well, and a command that is tried early hides
the others. The name after a command is cut at the first character that is not in the class, and
after 128 characters.

## Main definitions

* `Imapcl.MailboxCommand` — the commands with an optional mailbox, and the words tried before each.
* `Imapcl.Dispatches` — a command with a mailbox, and without one, does what it should.
* `Imapcl.ActsOnlyOn` — no mailbox is used except a given one.

## Main results

* `Imapcl.processCommand_own`, `Imapcl.exists_action_of_hidden` — what is done with a line.
* `Imapcl.dispatches_iff` — the mailboxes with which a command is recognised.
* `Imapcl.acts_only_on_iff` — the arguments that no other mailbox is used for.
-/

namespace Imapcl

open Pattern Program Words

/-! ## Commands -/

/-- The commands with an optional mailbox. -/
inductive MailboxCommand where
  | downloadNew
  | downloadAll
  | readNew
  deriving DecidableEq, Repr

namespace MailboxCommand

/-- The word of a command. -/
def word : MailboxCommand → Bytes
  | downloadNew => ascii "DOWNLOADNEW"
  | downloadAll => ascii "DOWNLOADALL"
  | readNew => ascii "READNEW"

/-- The function of a command. -/
def action : MailboxCommand → Bytes → Client Unit
  | downloadNew => Imapcl.downloadNew
  | downloadAll => Imapcl.downloadAll
  | readNew => Imapcl.readNew

/-- The commands that are tried before. -/
def earlier : MailboxCommand → List MailboxCommand
  | downloadNew => []
  | downloadAll => [downloadNew]
  | readNew => [downloadNew, downloadAll]

/-- The pattern of a command. -/
def pattern (c : MailboxCommand) : Pattern UInt8 := commandPattern c.word

/-- The words that are tried before. -/
def tried (c : MailboxCommand) : List Bytes :=
  ascii "HELP" :: ascii "QUIT" :: c.earlier.map word

/-- A line with the command and an argument. -/
def line (c : MailboxCommand) (arg : Bytes) : Bytes := c.word ++ byte ' ' :: arg

end MailboxCommand

/-! ## Patterns -/

section Patterns

variable {command arg s line : Bytes} {prev : Option UInt8} {m : Match UInt8}

/-- The part of a pattern after the command. -/
def namePattern : Pattern UInt8 :=
  .group (.seq (.lit (ascii " ")) (.group (.many isMailboxChar 1 (some 128))))

/-- A match of the part after the command. -/
lemma mem_all_namePattern (h : m ∈ namePattern.all prev s) :
    ∃ name, s = byte ' ' :: (name ++ m.rest) ∧ WordOver isMailboxChar name ∧
      m.groups = [byte ' ' :: name, name] := by
  obtain ⟨m₁, h₁, rfl⟩ := mem_all_group h
  obtain ⟨m₂, h₂, m₃, h₃, rfl⟩ := mem_all_seq h₁
  obtain ⟨hs, hword, hgroups⟩ := mem_all_lit h₂
  obtain ⟨m₄, h₄, rfl⟩ := mem_all_group h₃
  obtain ⟨hrest, hclass, hlo, -, hnone⟩ := mem_all_many h₄
  refine ⟨m₄.word, ?_, ⟨List.length_pos_iff.mp hlo, hclass⟩, ?_⟩
  · rw [hs, hrest]
    rfl
  · simp only [Match.append, hword, hgroups, hnone, List.nil_append]
    rfl

/-- A name is taken as far as its characters are in the class, up to 128 of them. -/
lemma first_namePattern (prev : Option UInt8) {n : ℕ}
    (hn : min (arg.takeWhile isMailboxChar).length 128 = n) (hpos : 1 ≤ n) :
    ∃ m, namePattern.first prev (byte ' ' :: arg) = some m ∧
      m.groups = [byte ' ' :: arg.take n, arg.take n] :=
  ⟨_, first_group (first_seq (s := byte ' ' :: arg) first_lit (first_group
    (first_many_take hpos hn))), rfl⟩

/-- Without a character of the class after a space, there is no name. -/
lemma first_namePattern_eq_none (h : ∀ c ∈ arg.head?, isMailboxChar c = false) :
    namePattern.first prev (byte ' ' :: arg) = none := by
  rw [first_eq_none_iff]
  intro m hm
  obtain ⟨name, hs, hname, -⟩ := mem_all_namePattern hm
  obtain ⟨-, harg⟩ := List.cons.inj hs
  rcases name with _ | ⟨c, name⟩
  · exact hname.nonempty rfl
  · have hc := hname.chars c (by simp)
    rw [h c (by rw [harg]; rfl)] at hc
    cases hc

/-- A pattern is matched where its command stands. -/
lemma first_commandPattern_eq_none_iff :
    (commandPattern command).first prev s = none ↔ ¬ command <+: s := by
  constructor
  · rintro h ⟨t, rfl⟩
    have hrest : ∃ m, (opt namePattern).first (before prev command) t = some m := by
      cases hname : namePattern.first (before prev command) t with
      | none => exact ⟨_, first_opt_of_none hname⟩
      | some m => exact ⟨m, first_opt_of_some hname⟩
    obtain ⟨m, hm⟩ := hrest
    cases h.symm.trans (first_seq first_lit hm)
  · intro h
    rw [first_eq_none_iff]
    intro m hm
    obtain ⟨m₁, h₁, -⟩ := mem_all_seq hm
    obtain ⟨hs, -⟩ := mem_all_lit h₁
    exact h ⟨m₁.rest, hs.symm⟩

/-- A pattern finds nothing exactly if its command does not stand in the line. -/
lemma search_commandPattern_eq_none_iff :
    (commandPattern command).search prev line = none ↔ ¬ command <:+: line :=
  search_eq_none_iff_infix fun _ _ => first_commandPattern_eq_none_iff

/-- A word finds nothing exactly if it does not stand in the line. -/
lemma search_lit_eq_none_iff :
    (Pattern.lit command).search prev line = none ↔ ¬ command <:+: line :=
  search_eq_none_iff_infix fun _ _ => first_lit_eq_none_iff

/-- The mailbox that a pattern finds is empty, or stands behind the command and a space. -/
lemma mailboxName_of_search (h : (commandPattern command).search prev line = some m) :
    mailboxName m = [] ∨ ∃ u r, line = u ++ (command ++ byte ' ' :: (mailboxName m ++ r)) := by
  obtain ⟨u, t, rfl, hfirst, -⟩ := exists_of_search h
  obtain ⟨m₁, h₁, m₂, h₂, rfl⟩ := mem_all_seq (mem_all_of_first hfirst)
  obtain ⟨hs, -, hgroups⟩ := mem_all_lit h₁
  rcases mem_all_opt h₂ with hname | hname
  · obtain ⟨name, hrest, -, hnames⟩ := mem_all_namePattern hname
    right
    refine ⟨u, m₂.rest, ?_⟩
    rw [hs, hrest, mailboxName, Match.append_groups, hgroups, hnames]
    rfl
  · left
    rw [mailboxName, Match.append_groups, hgroups, hname]
    rfl

/-- The mailbox in a line that is a command and an argument: the characters of the class at the
start of the argument, up to 128 of them. -/
lemma search_commandPattern_line (command arg : Bytes) :
    ∃ m, (commandPattern command).search none (command ++ byte ' ' :: arg) = some m ∧
      mailboxName m = (arg.takeWhile isMailboxChar).take 128 := by
  by_cases hclass : arg.takeWhile isMailboxChar = []
  · have hnone : namePattern.first (before none command) (byte ' ' :: arg) = none := by
      refine first_namePattern_eq_none fun c hc => ?_
      obtain ⟨s, rfl⟩ := List.head?_eq_some_iff.mp hc
      by_contra h
      rw [List.takeWhile_cons_of_pos (by simpa using h)] at hclass
      cases hclass
    refine ⟨_, search_of_first (first_seq first_lit (first_opt_of_none hnone)), ?_⟩
    rw [hclass]
    rfl
  · have hpos : 1 ≤ min (arg.takeWhile isMailboxChar).length 128 := by
      have hlen := List.length_pos_iff.mpr hclass
      omega
    obtain ⟨m, hm, hgroups⟩ := first_namePattern (before none command) rfl hpos
    have htake : arg.takeWhile isMailboxChar = arg.take (arg.takeWhile isMailboxChar).length :=
      List.prefix_iff_eq_take.mp (List.takeWhile_prefix isMailboxChar)
    refine ⟨_, search_of_first (first_seq first_lit (first_opt_of_some hm)), ?_⟩
    rw [mailboxName, Match.append_groups, hgroups]
    change arg.take (min (arg.takeWhile isMailboxChar).length 128) = _
    conv_rhs => rw [htake, List.take_take, Nat.min_comm]

/-- The mailbox in a line that is the bare command. -/
lemma search_commandPattern_bare (command : Bytes) :
    ∃ m, (commandPattern command).search none command = some m ∧ mailboxName m = [] := by
  have hnone : namePattern.first (before none command) [] = none := by
    rw [first_eq_none_iff]
    intro m hm
    obtain ⟨name, hs, -⟩ := mem_all_namePattern hm
    cases hs
  have hlit : (Pattern.lit command).first none command = some ⟨command, [], []⟩ := by
    have hfirst : (Pattern.lit command).first none (command ++ []) = some ⟨command, [], []⟩ :=
      first_lit
    rwa [List.append_nil] at hfirst
  exact ⟨_, search_of_first (first_seq hlit (first_opt_of_none hnone)), rfl⟩

end Patterns

/-! ## Lines -/

section Lines

variable {c : MailboxCommand} {input arg : Bytes} {m : Match UInt8}

/-- The words that are tried before a command have no space and do not stand in it. -/
lemma MailboxCommand.tried_word (c : MailboxCommand) :
    ∀ v ∈ c.tried, byte ' ' ∉ v ∧ ¬ v <:+: c.word := by
  cases c <;> decide +kernel

/-- A line with the word for help in it. -/
lemma processCommand_help (h : ascii "HELP" <:+: input) :
    processCommand input = print helpText := by
  cases hsearch : (Pattern.lit (ascii "HELP")).search none input with
  | none => exact absurd h (search_lit_eq_none_iff.mp hsearch)
  | some m =>
    unfold processCommand
    simp only [hsearch]

/-- What `QUIT` does. -/
def quit : Client Unit := do
  call .logout
  print (ascii "Logout." ++ [lf])

/-- A line with the word to quit in it. -/
lemma processCommand_quit (hhelp : ¬ ascii "HELP" <:+: input) (h : ascii "QUIT" <:+: input) :
    processCommand input = quit := by
  cases hsearch : (Pattern.lit (ascii "QUIT")).search none input with
  | none => exact absurd h (search_lit_eq_none_iff.mp hsearch)
  | some m =>
    unfold processCommand
    simp only [search_lit_eq_none_iff.mpr hhelp, hsearch]
    rfl

/-- A line with a command in it, and none that is tried before. -/
lemma processCommand_own (h : ∀ v ∈ c.tried, ¬ v <:+: input)
    (hsearch : c.pattern.search none input = some m) :
    processCommand input = c.action (mailboxName m) := by
  simp only [MailboxCommand.tried, List.forall_mem_cons, List.forall_mem_map] at h
  obtain ⟨hhelp, hquit, hearlier⟩ := h
  have hnone : ∀ e ∈ c.earlier, e.pattern.search none input = none :=
    fun e he => search_commandPattern_eq_none_iff.mpr (hearlier e he)
  unfold processCommand
  simp only [search_lit_eq_none_iff.mpr hhelp, search_lit_eq_none_iff.mpr hquit]
  cases c with
  | downloadNew =>
    rw [show downloadNewPattern.search none input = some m from hsearch]
    rfl
  | downloadAll =>
    rw [show downloadNewPattern.search none input = none from hnone .downloadNew (by decide),
      show downloadAllPattern.search none input = some m from hsearch]
    rfl
  | readNew =>
    rw [show downloadNewPattern.search none input = none from hnone .downloadNew (by decide),
      show downloadAllPattern.search none input = none from hnone .downloadAll (by decide),
      show readNewPattern.search none input = some m from hsearch]
    rfl

/-- A word that is tried before a command stands in a line only if it stands in the argument. -/
lemma tried_infix_line_iff {v : Bytes} (hv : v ∈ c.tried) : v <:+: c.line arg ↔ v <:+: arg := by
  have hword := c.tried_word v hv
  rw [MailboxCommand.line, infix_append_cons_iff hword.1, or_iff_right hword.2]

/-- The words of the first two searches are tried before every command. -/
lemma help_quit_mem (c : MailboxCommand) : ascii "HELP" ∈ c.tried ∧ ascii "QUIT" ∈ c.tried := by
  simp [MailboxCommand.tried]

/-- A line with the word to quit in it, and without the one for help. -/
def QuitLine (input : Bytes) : Prop := ¬ ascii "HELP" <:+: input ∧ ascii "QUIT" <:+: input

/-- A line with a command in it, and without the words that are tried before. -/
def MailboxCommand.In (c : MailboxCommand) (input : Bytes) : Prop :=
  (∀ v ∈ c.tried, ¬ v <:+: input) ∧ c.word <:+: input

/-- The function of the command in a line is called. -/
lemma MailboxCommand.In.processCommand (h : c.In input) :
    ∃ name, Imapcl.processCommand input = c.action name := by
  cases hsearch : c.pattern.search none input with
  | none => exact absurd h.2 (search_commandPattern_eq_none_iff.mp hsearch)
  | some m => exact ⟨mailboxName m, processCommand_own h.1 hsearch⟩

/-- A line has one command that is called at most. -/
lemma MailboxCommand.In.unique {c' : MailboxCommand} (h : c.In input) (h' : c'.In input) :
    c = c' := by
  have hnot : ∀ {c c' : MailboxCommand}, c.In input → c'.In input → c ∉ c'.earlier :=
    fun {c c'} h h' hearlier => h'.1 c.word (by
      simp only [MailboxCommand.tried, List.mem_cons, List.mem_map]
      exact Or.inr (Or.inr ⟨c, hearlier, rfl⟩)) h.2
  have hearlier : c ∈ c'.earlier ∨ c' ∈ c.earlier ∨ c = c' := by
    cases c <;> cases c' <;> simp [MailboxCommand.earlier]
  exact (hearlier.resolve_left (hnot h h')).resolve_left (hnot h' h)

/-- What may be done with a line: the help is printed, the session is ended, the function of a
command is called, or no command is found. -/
lemma processCommand_cases (input : Bytes) : processCommand input = print helpText ∨
    (QuitLine input ∧ processCommand input = quit) ∨
    (∃ c name, MailboxCommand.In c input ∧ processCommand input = c.action name) ∨
    processCommand input = pure () ∨
    processCommand input = print (ascii "Please use one of the commands: \n" ++ helpText) := by
  by_cases hhelp : ascii "HELP" <:+: input
  · exact Or.inl (processCommand_help hhelp)
  by_cases hquit : ascii "QUIT" <:+: input
  · exact Or.inr (Or.inl ⟨⟨hhelp, hquit⟩, processCommand_quit hhelp hquit⟩)
  by_cases hcommand : ∃ c, MailboxCommand.In c input
  · obtain ⟨c, hc⟩ := hcommand
    obtain ⟨name, hname⟩ := hc.processCommand
    exact Or.inr (Or.inr (Or.inl ⟨c, name, hc, hname⟩))
  · have hnone : ∀ c : MailboxCommand, (∀ e ∈ c.earlier, ¬ e.word <:+: input) →
        ¬ c.word <:+: input := by
      intro c hearlier hword
      refine hcommand ⟨c, ?_, hword⟩
      simp only [MailboxCommand.tried, List.forall_mem_cons, List.forall_mem_map]
      exact ⟨hhelp, hquit, hearlier⟩
    have hnew := hnone .downloadNew nofun
    have hall := hnone .downloadAll (by simpa [MailboxCommand.earlier] using hnew)
    have hread := hnone .readNew (by simpa [MailboxCommand.earlier] using ⟨hnew, hall⟩)
    have hsearch : ∀ c : MailboxCommand, ¬ c.word <:+: input → c.pattern.search none input = none :=
      fun c hc => search_commandPattern_eq_none_iff.mpr hc
    right; right; right
    unfold processCommand
    simp only [search_lit_eq_none_iff.mpr hhelp, search_lit_eq_none_iff.mpr hquit]
    rw [show downloadNewPattern.search none input = none from hsearch _ hnew,
      show downloadAllPattern.search none input = none from hsearch _ hall,
      show readNewPattern.search none input = none from hsearch _ hread]
    by_cases hempty : input = []
    · exact Or.inl (if_pos hempty)
    · exact Or.inr (if_neg hempty)

/-- A line whose argument has the word for help in it. -/
lemma processCommand_line_help (h : ascii "HELP" <:+: arg) :
    processCommand (c.line arg) = print helpText :=
  processCommand_help ((tried_infix_line_iff (help_quit_mem c).1).mpr h)

/-- A line whose argument has the word to quit in it. -/
lemma processCommand_line_quit (hhelp : ¬ ascii "HELP" <:+: arg) (h : ascii "QUIT" <:+: arg) :
    processCommand (c.line arg) = quit :=
  processCommand_quit ((tried_infix_line_iff (help_quit_mem c).1).not.mpr hhelp)
    ((tried_infix_line_iff (help_quit_mem c).2).mpr h)

/-- A line whose argument has none of the words in it that are tried before. -/
lemma processCommand_line (h : ∀ v ∈ c.tried, ¬ v <:+: arg) :
    processCommand (c.line arg) = c.action ((arg.takeWhile isMailboxChar).take 128) := by
  obtain ⟨m, hsearch, hname⟩ := search_commandPattern_line c.word arg
  rw [← hname]
  exact processCommand_own (fun v hv => (tried_infix_line_iff hv).not.mpr (h v hv)) hsearch

/-- A line that is the bare command. -/
lemma processCommand_bare (c : MailboxCommand) : processCommand c.word = c.action [] := by
  obtain ⟨m, hsearch, hname⟩ := search_commandPattern_bare c.word
  rw [← hname]
  exact processCommand_own (fun v hv => (c.tried_word v hv).2) hsearch

/-- A command is not longer than those that are tried before it, and different from them. -/
lemma MailboxCommand.earlier_word (c : MailboxCommand) :
    ∀ e ∈ c.earlier, c.word.length ≤ e.word.length ∧ c.word ≠ e.word ∧
      ∀ v ∈ e.tried, v ∈ c.tried := by
  cases c <;> decide +kernel

/-- The first one of the commands that are tried before and stand in a line. -/
lemma exists_first_hidden (h : ∃ e ∈ c.earlier, e.word <:+: arg) :
    ∃ e ∈ c.earlier, e.word <:+: arg ∧ ∀ e' ∈ MailboxCommand.earlier e, ¬ e'.word <:+: arg := by
  obtain ⟨e, he, hword⟩ := h
  cases c with
  | downloadNew => cases he
  | downloadAll =>
    obtain rfl := List.mem_singleton.mp he
    exact ⟨_, he, hword, nofun⟩
  | readNew =>
    by_cases hnew : MailboxCommand.downloadNew.word <:+: arg
    · exact ⟨.downloadNew, by decide, hnew, nofun⟩
    · refine ⟨e, he, hword, fun e' he' => ?_⟩
      cases e with
      | downloadNew => exact absurd hword hnew
      | downloadAll =>
        obtain rfl := List.mem_singleton.mp he'
        exact hnew
      | readNew => exact absurd he (by decide)

/-- The mailbox behind a command in the argument of another one is not the whole argument.

**Proof sketch.** Otherwise the two commands would be equally long and in the same place. -/
lemma mailboxName_ne {e : MailboxCommand} (he : e ∈ c.earlier) (harg : arg ≠ [])
    (h : e.pattern.search none (c.line arg) = some m) : mailboxName m ≠ arg := by
  obtain ⟨hlen, hne, -⟩ := c.earlier_word e he
  rcases mailboxName_of_search h with hname | ⟨u, r, hline⟩
  · rw [hname]
    exact harg.symm
  · intro hname
    rw [hname, MailboxCommand.line] at hline
    have hlengths := congrArg List.length hline
    simp only [List.length_append, List.length_cons] at hlengths
    obtain rfl : u = [] := List.eq_nil_of_length_eq_zero (by omega)
    rw [List.nil_append] at hline
    exact hne (List.append_inj_left hline (by omega))

/-- Where a command hides another one, the mailbox is not the argument.

**Proof sketch.** The first command that stands in the argument is found, and its function is
called. -/
lemma exists_action_of_hidden (hhelp : ¬ ascii "HELP" <:+: arg) (hquit : ¬ ascii "QUIT" <:+: arg)
    (h : ∃ e ∈ c.earlier, e.word <:+: arg) : ∃ e name,
      processCommand (c.line arg) = MailboxCommand.action e name ∧ name ≠ arg := by
  obtain ⟨e, he, hword, hfirst⟩ := exists_first_hidden h
  obtain ⟨-, -, htried⟩ := c.earlier_word e he
  have harg : arg ≠ [] := by
    rintro rfl
    have hnil := List.eq_nil_of_infix_nil hword
    revert hnil
    cases e <;> decide
  have hnone : ∀ v ∈ e.tried, ¬ v <:+: c.line arg := by
    intro v hv
    rw [tried_infix_line_iff (htried v hv)]
    revert v
    simp only [MailboxCommand.tried, List.forall_mem_cons, List.forall_mem_map]
    exact ⟨hhelp, hquit, hfirst⟩
  cases hsearch : e.pattern.search none (c.line arg) with
  | none =>
    refine absurd ?_ (search_commandPattern_eq_none_iff.mp hsearch)
    rw [MailboxCommand.line]
    exact hword.trans ((List.suffix_cons _ arg).trans (List.suffix_append c.word _)).isInfix
  | some m =>
    exact ⟨e, mailboxName m, processCommand_own hnone hsearch, mailboxName_ne he harg hsearch⟩

end Lines

/-! ## Recognition -/

/-- The command with the mailbox calls its function for this mailbox, and the bare command calls it
for the current one. -/
structure Dispatches (c : MailboxCommand) (mailbox : Bytes) : Prop where
  named : processCommand (c.line mailbox) = c.action mailbox
  bare : processCommand c.word = c.action []

section Actions

variable {c e : MailboxCommand} {mailbox name : Bytes}

/-- What the function of a command asks for first. -/
lemma head?_action (e : MailboxCommand) (name : Bytes) : (e.action name).head? =
    some (.call (if name = [] then .search (e = .downloadNew) else .select name)) := by
  cases e <;> cases name <;> rfl

/-- The function of a command for a given mailbox starts with this mailbox. -/
lemma eq_of_action_eq (hmailbox : mailbox ≠ []) (h : e.action name = c.action mailbox) :
    name = mailbox := by
  have hhead := congrArg Program.head? h
  rw [head?_action, head?_action, if_neg hmailbox] at hhead
  split at hhead
  · cases hhead
  · exact Call.select.inj (Action.call.inj (Option.some.inj hhead))

/-- Neither the help nor the end is the function of a command. -/
lemma action_ne (c : MailboxCommand) (mailbox : Bytes) :
    print helpText ≠ c.action mailbox ∧ quit ≠ c.action mailbox := by
  constructor
  · intro h
    have hhead := congrArg Program.head? h
    rw [head?_action] at hhead
    cases Option.some.inj hhead
  · intro h
    have hhead := congrArg Program.head? h
    rw [head?_action] at hhead
    have hcall : Call.logout = _ := Action.call.inj (Option.some.inj hhead)
    split at hcall <;> cases hcall

end Actions

/-- **Recognition.** For a name of at most 128 characters of the class, a command is recognised if
and only if none of the words that are tried before it stands in the name.

**Proof sketch.** The words stand in the line exactly if they stand in the name. One that does leads
to something else: to the help, to the end, or to a function called for another mailbox. -/
theorem dispatches_iff (c : MailboxCommand) {mailbox : Bytes} (h : WordOver isMailboxChar mailbox)
    (hlen : mailbox.length ≤ 128) :
    Dispatches c mailbox ↔ ∀ v ∈ c.tried, ¬ v <:+: mailbox := by
  constructor
  · intro hdispatches
    simp only [MailboxCommand.tried, List.forall_mem_cons, List.forall_mem_map]
    have hhelp : ¬ ascii "HELP" <:+: mailbox := fun hin => (action_ne c mailbox).1
      ((processCommand_line_help hin).symm.trans hdispatches.named)
    have hquit : ¬ ascii "QUIT" <:+: mailbox := fun hin => (action_ne c mailbox).2
      ((processCommand_line_quit hhelp hin).symm.trans hdispatches.named)
    refine ⟨hhelp, hquit, fun e he hin => ?_⟩
    obtain ⟨e', name, hcommand, hne⟩ := exists_action_of_hidden hhelp hquit ⟨e, he, hin⟩
    exact hne (eq_of_action_eq h.nonempty (hcommand.symm.trans hdispatches.named))
  · intro hnone
    refine ⟨?_, processCommand_bare c⟩
    rw [processCommand_line hnone, List.takeWhile_eq_self_iff.mpr h.chars,
      List.take_of_length_le hlen]

/-- The characters of a mailbox name. -/
lemma archive_word : WordOver isMailboxChar (ascii "archive-2024") :=
  ⟨by decide +kernel, by decide +kernel⟩

/-- A mailbox whose name has none of the words in it. -/
theorem dispatches_iff_archive : (ascii "archive-2024").length ≤ 128 ∧
    (Dispatches .readNew (ascii "archive-2024") ↔
      ∀ v ∈ MailboxCommand.tried .readNew, ¬ v <:+: ascii "archive-2024") :=
  have hlen : (ascii "archive-2024").length ≤ 128 := by decide
  ⟨hlen, dispatches_iff .readNew archive_word hlen⟩

/-- A mailbox whose name begins with the word for help. -/
theorem not_dispatches : WordOver isMailboxChar (ascii "HELPDESK") ∧
    ¬ Dispatches .downloadNew (ascii "HELPDESK") := by
  refine ⟨⟨by decide +kernel, by decide +kernel⟩, fun h => ?_⟩
  have hhelp : ascii "HELP" <:+: ascii "HELPDESK" := ⟨[], ascii "DESK", rfl⟩
  exact (action_ne _ _).1 ((processCommand_line_help hhelp).symm.trans h.named)

/-! ## Other mailboxes -/

/-- What may be asked for after a log, where only the mailbox is to be used: a select of it, and
what acts on the selected mailbox after such a select. -/
def OnlyOn (mailbox : Bytes) (log : Log) : Action → Prop
  | .call (.select m) => m = mailbox
  | .call (.search _) | .call (.fetch _ _) | .call (.read _) =>
    ⟨.call (.select mailbox), .ok ()⟩ ∈ log
  | _ => True

/-- The program uses no mailbox but the given one, whatever the answers are. -/
def ActsOnlyOn (mailbox : Bytes) (p : Client Unit) : Prop :=
  ∀ log i k, Path p log (.ask i k) → OnlyOn mailbox log i

/-- The arguments with which a command uses no other mailbox: there is nothing done with a mailbox,
or the command is recognised and its argument is a name. -/
def Confined (c : MailboxCommand) (arg : Bytes) : Prop :=
  ascii "HELP" <:+: arg ∨ ascii "QUIT" <:+: arg ∨
    ((∀ e ∈ c.earlier, ¬ e.word <:+: arg) ∧ (∀ a ∈ arg, isMailboxChar a = true) ∧
      arg.length ≤ 128)

section Confined

variable {c e : MailboxCommand} {mailbox name : Bytes} {log : Log}

/-- The contract under which a program uses no other mailbox. -/
def onlyOn (mailbox : Bytes) : Contract Action Action.Answer := ⟨fun _ _ => True, OnlyOn mailbox⟩

/-- A program that keeps the contract uses no other mailbox. -/
lemma actsOnlyOn_of_keeps {p : Client Unit}
    (h : Respects (onlyOn mailbox) (fun _ _ => True) p []) : ActsOnlyOn mailbox p :=
  fun _ _ _ hp => h.asked hp fun _ _ _ _ => trivial

/-- After the select of a mailbox, anything but another select may be asked for. -/
lemma onlyOn_of_selected {i : Action} (hlog : ⟨.call (.select mailbox), .ok ()⟩ ∈ log)
    (hi : ∀ m, i ≠ .call (.select m)) : OnlyOn mailbox log i := by
  cases i with
  | call c =>
    cases c with
    | select m => exact absurd rfl (hi m)
    | search _ | fetch _ _ | read _ => exact hlog
    | _ => trivial
  | _ => trivial

/-- The select of the mailbox may be asked for, and if it returns it is in the log. -/
lemma respects_selectNamed (hmailbox : mailbox ≠ []) :
    Respects (onlyOn mailbox) (fun log r => r = .ok () → ⟨.call (.select mailbox), .ok ()⟩ ∈ log)
      (selectNamed mailbox) [] := by
  rw [selectNamed, if_pos hmailbox]
  refine respects_call.mpr ⟨rfl, fun r _ hr => ?_⟩
  rw [hr]
  exact List.mem_singleton_self _

/-- After the select of the mailbox, a program without another select keeps the contract. -/
lemma respects_of_selected {p : Client Unit} (h : Only (fun i => ∀ m, i ≠ .call (.select m)) p)
    (hlog : ⟨.call (.select mailbox), .ok ()⟩ ∈ log) :
    Respects (onlyOn mailbox) (fun _ _ => True) p log := by
  have hkeeps : Respects (onlyOn mailbox)
      (fun log _ => ⟨.call (.select mailbox), .ok ()⟩ ∈ log) p log :=
    h.respects (fun _ _ _ hlog => List.mem_append_left _ hlog)
      (fun _ _ hi hlog => onlyOn_of_selected hlog hi) hlog
  exact hkeeps.mono fun _ _ _ => trivial

/-- A download into a given mailbox uses no other one. -/
lemma respects_downloadMailbox (onlyUnseen : Bool) (what : String) (hmailbox : mailbox ≠ []) :
    Respects (onlyOn mailbox) (fun _ _ => True) (downloadMailbox onlyUnseen what mailbox) [] := by
  refine (respects_selectNamed hmailbox).bind (fun log _ hselect => ?_) fun _ _ _ => trivial
  refine respects_of_selected (Only.bind (only_call nofun) fun seqSet => ?_) (hselect rfl)
  refine Only.bind (Only.attempt ?_) fun result => ?_
  · split
    · exact (only_call nofun).bind fun messages => ⟨nofun, fun r => Only.ofExcept r⟩
    · trivial
  · cases result <;> exact ⟨nofun, fun _ => trivial⟩

/-- Marking the messages of a given mailbox as read uses no other one. -/
lemma respects_readNew (hmailbox : mailbox ≠ []) :
    Respects (onlyOn mailbox) (fun _ _ => True) (readNew mailbox) [] := by
  refine (respects_selectNamed hmailbox).bind (fun log _ hselect => ?_) fun _ _ _ => trivial
  refine respects_of_selected (Only.bind (only_call nofun) fun seqSet => ?_) (hselect rfl)
  refine Only.bind (Only.attempt (only_call nofun)) fun result => ?_
  cases result <;> exact ⟨nofun, fun _ => trivial⟩

/-- The function of a command uses no mailbox but the given one, and only if there is one.

**Proof sketch.** It starts with a select of the mailbox it is called for; without a mailbox it
starts with a search in the current one. -/
lemma actsOnlyOn_action_iff (hmailbox : mailbox ≠ []) :
    ActsOnlyOn mailbox (e.action name) ↔ name = mailbox := by
  constructor
  · intro h
    have hhead := head?_action e name
    cases hp : e.action name with
    | ask i k =>
      rw [hp] at hhead h
      have honly := h [] i k (.nil _)
      rw [Option.some.inj hhead] at honly
      split at honly
      · cases honly
      · exact honly
    | _ =>
      rw [hp] at hhead
      cases hhead
  · rintro rfl
    refine actsOnlyOn_of_keeps ?_
    cases e with
    | downloadNew => exact respects_downloadMailbox _ _ hmailbox
    | downloadAll => exact respects_downloadMailbox _ _ hmailbox
    | readNew => exact respects_readNew hmailbox

/-- Neither the help nor the end uses a mailbox. -/
lemma actsOnlyOn_help_quit : ActsOnlyOn mailbox (print helpText) ∧ ActsOnlyOn mailbox quit := by
  constructor
  · exact actsOnlyOn_of_keeps ⟨trivial, fun _ _ => trivial⟩
  · refine actsOnlyOn_of_keeps (Respects.bind (Q := fun _ _ => True) ?_ (fun _ _ _ => ?_)
      fun _ _ _ => trivial)
    · exact respects_call.mpr ⟨trivial, fun _ _ => trivial⟩
    · exact ⟨trivial, fun _ _ => trivial⟩

/-- The name that is found is the whole argument if and only if the argument is a name. -/
lemma takeWhile_take_eq_iff {arg : Bytes} : (arg.takeWhile isMailboxChar).take 128 = arg ↔
    (∀ a ∈ arg, isMailboxChar a = true) ∧ arg.length ≤ 128 := by
  constructor
  · intro h
    have hprefix : arg <+: arg.takeWhile isMailboxChar := by
      have htake := List.take_prefix 128 (arg.takeWhile isMailboxChar)
      rwa [h] at htake
    have hall : arg.takeWhile isMailboxChar = arg :=
      (List.takeWhile_prefix isMailboxChar).eq_of_length_le hprefix.length_le
    have hlen := List.length_take_le 128 (arg.takeWhile isMailboxChar)
    rw [h] at hlen
    exact ⟨List.takeWhile_eq_self_iff.mp hall, hlen⟩
  · rintro ⟨hclass, hlen⟩
    rw [List.takeWhile_eq_self_iff.mpr hclass, List.take_of_length_le hlen]

end Confined

/-- **Other mailboxes.** A command with a non-empty argument uses no mailbox but the one named by
the whole argument if and only if it is confined: the line is taken for one of help or of the end,
or the argument is a name of at most 128 characters in which no command stands that is tried before.

**Proof sketch.** The function of a command is called, for the start of the argument or for what
stands behind another command; it starts with a select of this mailbox or, if there is none, with a
search in the current one. -/
theorem acts_only_on_iff (c : MailboxCommand) {arg : Bytes} (harg : arg ≠ []) :
    ActsOnlyOn arg (processCommand (c.line arg)) ↔ Confined c arg := by
  unfold Confined
  by_cases hhelp : ascii "HELP" <:+: arg
  · rw [processCommand_line_help hhelp]
    exact iff_of_true actsOnlyOn_help_quit.1 (Or.inl hhelp)
  by_cases hquit : ascii "QUIT" <:+: arg
  · rw [processCommand_line_quit hhelp hquit]
    exact iff_of_true actsOnlyOn_help_quit.2 (Or.inr (Or.inl hquit))
  rw [or_iff_right hhelp, or_iff_right hquit]
  by_cases hhidden : ∃ e ∈ c.earlier, e.word <:+: arg
  · obtain ⟨e, name, hcommand, hne⟩ := exists_action_of_hidden hhelp hquit hhidden
    rw [hcommand, actsOnlyOn_action_iff harg]
    refine iff_of_false hne fun h => ?_
    obtain ⟨e, he, hin⟩ := hhidden
    exact h.1 e he hin
  · have hnone : ∀ e ∈ c.earlier, ¬ e.word <:+: arg := fun e he hin => hhidden ⟨e, he, hin⟩
    have htried : ∀ v ∈ c.tried, ¬ v <:+: arg := by
      simp only [MailboxCommand.tried, List.forall_mem_cons, List.forall_mem_map]
      exact ⟨hhelp, hquit, hnone⟩
    rw [processCommand_line htried, actsOnlyOn_action_iff harg, takeWhile_take_eq_iff,
      and_iff_right hnone]

/-- A name that is selected as it is typed. -/
theorem acts_only_on_iff_sent : ascii "Sent" ≠ [] ∧
    ActsOnlyOn (ascii "Sent")
      (processCommand (MailboxCommand.line .downloadAll (ascii "Sent"))) := by
  have harg : ascii "Sent" ≠ [] := by decide
  have hname : (∀ e ∈ MailboxCommand.earlier .downloadAll, ¬ e.word <:+: ascii "Sent") ∧
      (∀ a ∈ ascii "Sent", isMailboxChar a = true) ∧ (ascii "Sent").length ≤ 128 := by
    decide +kernel
  exact ⟨harg, (acts_only_on_iff .downloadAll harg).mpr (Or.inr (Or.inr hname))⟩

/-- A name with a space in it: the messages of another mailbox are marked as read. -/
theorem not_acts_only_on : ¬ ActsOnlyOn (ascii "Sent Items")
    (processCommand (MailboxCommand.line .readNew (ascii "Sent Items"))) := by
  have htried : ∀ v ∈ MailboxCommand.tried .readNew, ¬ v <:+: ascii "Sent Items" := by
    decide +kernel
  rw [processCommand_line htried, actsOnlyOn_action_iff (by decide)]
  decide +kernel

end Imapcl
