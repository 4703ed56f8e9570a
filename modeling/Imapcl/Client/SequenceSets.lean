import Imapcl.Client.Quit

set_option relaxedAutoImplicit false
set_option autoImplicit false

/-!
# Sequence sets

A command with an empty sequence set cannot be encoded, and its tag is taken before this is noticed.
Downloads and the non-interactive mode do not ask for such a command. `READNEW` marks whatever has
been found, also if this is nothing.

## Main definitions

* `Imapcl.Call.NonEmpty` — an operation whose sequence set, if it has one, is not empty.
* `Imapcl.SendsWhole` — a command that an operation hands over is sent.
* `Imapcl.NothingToMark`, `Imapcl.MarksNothing` — a search for `READNEW` has just found nothing.

## Main results

* `Imapcl.sendsWhole_iff` — the operations that send what they hand over.
* `Imapcl.sends_whole_iff` — the states of the program in which the next command is sent.
-/

namespace Imapcl

open Machine Program

/-! ## Operations -/

/-- The sequence set of an operation, if it has one, is not empty. -/
def Call.NonEmpty : Call → Prop
  | .fetch sequenceSet _ => sequenceSet ≠ []
  | .read sequenceSet => sequenceSet ≠ []
  | _ => True

/-- What an operation does to the session before it waits: a command that is handed over can be
encoded, so that it is sent, and a tag is taken only for such a command. -/
structure SendsWhole (σ : Session) (c : Call) : Prop where
  encodes : ∀ command, (begin σ c).command = some command → ∃ text, command.makeTcp = .ok text
  tag : (begin σ c).session ≠ σ → ∃ command text,
    (begin σ c).command = some command ∧ command.makeTcp = .ok text

/-- A sequence set that is not empty has a text. -/
lemma exists_sequenceSetText {ns : List UInt32} (h : ns ≠ []) :
    ∃ text, Command.sequenceSetText ns = .ok text := by
  cases ns with
  | nil => exact absurd rfl h
  | cons n ns => exact ⟨_, rfl⟩

/-- The command of an operation whose set is not empty can be encoded. -/
lemma exists_makeTcp {c : Call} {tag : Bytes} {command : Command} (hc : c.NonEmpty)
    (h : c.command tag = some command) : ∃ text, command.makeTcp = .ok text := by
  cases c with
  | receiveGreeting => cases h
  | fetch sequenceSet onlyHeaders =>
    obtain ⟨text, htext⟩ := exists_sequenceSetText hc
    rw [← Option.some.inj h, Command.makeTcp, htext]
    exact ⟨_, rfl⟩
  | read sequenceSet =>
    obtain ⟨text, htext⟩ := exists_sequenceSetText hc
    rw [← Option.some.inj h, Command.makeTcp, htext]
    exact ⟨_, rfl⟩
  | _ =>
    rw [← Option.some.inj h]
    exact ⟨_, rfl⟩

/-- An operation that is refused takes no tag. -/
lemma sendsWhole_of_not_guard (σ : Session) {c : Call} (h : ¬ c.Guard σ.state) :
    SendsWhole σ c := by
  obtain ⟨control, hbegin, -⟩ := begin_of_not_guard h
  constructor
  · rw [hbegin]
    nofun
  · rw [hbegin]
    exact fun hne => absurd rfl hne

/-- An operation whose set is not empty sends what it hands over. -/
lemma sendsWhole_of_nonEmpty (σ : Session) {c : Call} (hc : c.NonEmpty) : SendsWhole σ c := by
  by_cases hguard : c.Guard σ.state
  · obtain ⟨τ, command, control, hbegin, -, hcommand, -⟩ := begin_of_guard hguard
    obtain ⟨text, htext⟩ := exists_makeTcp hc hcommand
    constructor
    · rw [hbegin]
      rintro command' h
      exact ⟨text, Option.some.inj h ▸ htext⟩
    · rw [hbegin]
      exact fun _ => ⟨command, text, rfl, htext⟩
  · exact sendsWhole_of_not_guard σ hguard

/-- Exactly the operations with an empty set that pass their guard do not send what they hand
over. -/
lemma sendsWhole_iff (σ : Session) {c : Call} :
    SendsWhole σ c ↔ (c.Guard σ.state → c.NonEmpty) := by
  constructor
  · intro h hguard
    obtain ⟨τ, command, control, hbegin, -, hcommand, -⟩ := begin_of_guard hguard
    obtain ⟨text, htext⟩ := h.encodes command (by rw [hbegin])
    cases c with
    | fetch sequenceSet onlyHeaders =>
      rintro rfl
      rw [← Option.some.inj hcommand] at htext
      cases htext
    | read sequenceSet =>
      rintro rfl
      rw [← Option.some.inj hcommand] at htext
      cases htext
    | _ => trivial
  · intro h
    by_cases hguard : c.Guard σ.state
    · exact sendsWhole_of_nonEmpty σ (h hguard)
    · exact sendsWhole_of_not_guard σ hguard

/-- The operations with an empty set are those that need a selected mailbox. -/
lemma guard_iff_of_empty {c : Call} {state : ImapState} (hc : ¬ c.NonEmpty) :
    c.Guard state ↔ state = .selected := by
  cases c with
  | fetch | read => exact Iff.rfl
  | _ => exact absurd trivial hc

/-! ## The searches for `READNEW` -/

/-- The line that has been read last is one with `READNEW`. -/
def ReadingNew (log : Log) : Prop :=
  ∃ pre line post, log = pre ++ ⟨.getline (some line), ()⟩ :: post ∧
    MailboxCommand.readNew.In line ∧ ∀ e ∈ post, ∀ line', e.action ≠ .getline line'

/-- The search for `READNEW` has just found nothing. -/
def NothingToMark (log : Log) : Prop :=
  ∃ pre onlyUnseen, log = pre ++ [⟨.call (.search onlyUnseen), .ok []⟩] ∧ ReadingNew pre

/-- The search for `READNEW` has just found nothing, and the mailbox is still selected. -/
structure MarksNothing {File α : Type} (x : Process File α) : Prop where
  nothing : NothingToMark x.entries
  selected : x.system.session.state = .selected
  running : ∃ p, x.place = .running p

section Logs

variable {log : Log} {e : Entry Action Action.Answer}

/-- An entry that is not a line. -/
lemma readingNew_concat_iff (he : ∀ line, e.action ≠ .getline line) :
    ReadingNew (log ++ [e]) ↔ ReadingNew log := by
  constructor
  · rintro ⟨pre, line, post, hlog, hline, hpost⟩
    rcases exists_concat_of_append_cons hlog with ⟨-, rfl, -⟩ | ⟨post', rfl, rfl⟩
    · exact absurd rfl (he (some line))
    · exact ⟨pre, line, post', rfl, hline, fun e' he' => hpost e' (by simp [he'])⟩
  · rintro ⟨pre, line, post, rfl, hline, hpost⟩
    refine ⟨pre, line, post ++ [e], by simp, hline, fun e' he' => ?_⟩
    rcases List.mem_append.mp he' with he' | he'
    · exact hpost e' he'
    · rwa [List.mem_singleton.mp he']

/-- A line that has just been read. -/
lemma readingNew_getline_iff {line : Bytes} :
    ReadingNew (log ++ [⟨.getline (some line), ()⟩]) ↔ MailboxCommand.readNew.In line := by
  constructor
  · rintro ⟨pre, line', post, hlog, hline, hpost⟩
    rcases exists_concat_of_append_cons hlog with ⟨-, he, -⟩ | ⟨post', -, rfl⟩
    · cases he
      exact hline
    · exact absurd rfl (hpost ⟨.getline (some line), ()⟩ (by simp) (some line))
  · exact fun hline => ⟨log, line, [], rfl, hline, nofun⟩

/-- There is nothing to mark after a search for `READNEW` only. -/
lemma nothingToMark_concat_iff : NothingToMark (log ++ [e]) ↔
    (∃ onlyUnseen, e = ⟨.call (.search onlyUnseen), .ok []⟩) ∧ ReadingNew log := by
  constructor
  · rintro ⟨pre, onlyUnseen, hlog, hpre⟩
    obtain ⟨rfl, he⟩ := List.append_inj' hlog rfl
    exact ⟨⟨onlyUnseen, List.head_eq_of_cons_eq he⟩, hpre⟩
  · rintro ⟨⟨onlyUnseen, rfl⟩, hlog⟩
    exact ⟨log, onlyUnseen, rfl, hlog⟩

/-- While another line is worked off, there is not nothing to mark. -/
lemma not_nothingToMark_of_not_readingNew (h : ¬ ReadingNew log) : ¬ NothingToMark log := by
  rintro ⟨pre, onlyUnseen, rfl, hpre⟩
  exact h ((readingNew_concat_iff (by nofun)).mpr hpre)

/-- After an action other than a search, there is not nothing to mark. -/
lemma not_nothingToMark_concat (he : ∀ onlyUnseen, e.action ≠ .call (.search onlyUnseen)) :
    ¬ NothingToMark (log ++ [e]) := by
  rw [nothingToMark_concat_iff]
  rintro ⟨⟨onlyUnseen, rfl⟩, -⟩
  exact he onlyUnseen rfl

end Logs

/-! ## The contract -/

/-- An action without an empty sequence set. -/
def Action.NonEmpty : Action → Prop
  | .call c => c.NonEmpty
  | _ => True

/-- The contract of a program that asks for an operation with an empty sequence set exactly where
`READNEW` has found nothing. -/
def nonEmptySets : Contract Action Action.Answer where
  allows _ _ := True
  demands log i := i.NonEmpty ↔ ¬ NothingToMark log

/-- An action without a sequence set that is not a search. -/
def Action.Quiet : Action → Prop
  | .call (.search _) | .call (.fetch _ _) | .call (.read _) => False
  | _ => True

/-- An action without an empty sequence set that does not read a line. -/
def Action.Inside (i : Action) : Prop := i.NonEmpty ∧ ∀ line, i ≠ .getline line

section Contract

variable {α : Type} {p : Client α} {log : Log} {input name : Bytes} {i : Action}

/-- A quiet action has no empty sequence set. -/
lemma nonEmpty_of_quiet (h : i.Quiet) : i.NonEmpty := by
  cases i with
  | call c =>
    cases c with
    | fetch | read => exact absurd h id
    | _ => trivial
  | _ => trivial

/-- After a quiet action, there is not nothing to mark. -/
lemma not_nothingToMark_of_quiet {e : Entry Action Action.Answer} (he : e.action.Quiet) :
    ¬ NothingToMark (log ++ [e]) := by
  refine not_nothingToMark_concat fun onlyUnseen hsearch => ?_
  rw [hsearch] at he
  exact he

/-- The prompt is quiet. -/
lemma quiet_of_prompt (h : i.OfPrompt) : i.Quiet := by
  cases i with
  | call c => exact absurd h id
  | _ => trivial

/-- The set-up is quiet, and reads no line. -/
lemma quiet_of_setUp (h : i.OfSetUp) : i.Quiet ∧ i.Inside := by
  cases i with
  | call c =>
    cases c with
    | receiveGreeting | login | select => exact ⟨trivial, trivial, nofun⟩
    | _ => exact absurd h id
  | _ => exact absurd h id

/-- A program of quiet actions keeps the contract, unless there is nothing to mark. -/
lemma respects_of_quiet (h : Only Action.Quiet p) (hlog : ¬ NothingToMark log) :
    Respects nonEmptySets (fun log _ => ¬ NothingToMark log) p log :=
  h.respects (fun _ _ he _ => not_nothingToMark_of_quiet he)
    (fun _ _ hi hlog => iff_of_true (nonEmpty_of_quiet hi) hlog) hlog

/-- While no line with `READNEW` is worked off, a program without empty sequence sets keeps the
contract. -/
lemma respects_of_inside (h : Only Action.Inside p) (hlog : ¬ ReadingNew log) :
    Respects nonEmptySets (fun log _ => ¬ NothingToMark log) p log := by
  have hkeeps : Respects nonEmptySets (fun log _ => ¬ ReadingNew log) p log :=
    h.respects (fun log e he hlog => (readingNew_concat_iff he.2).not.mpr hlog)
      (fun log i hi hlog => iff_of_true hi.1 (not_nothingToMark_of_not_readingNew hlog)) hlog
  exact hkeeps.mono fun _ _ => not_nothingToMark_of_not_readingNew

/-- A download fetches only what has been found. -/
lemma inside_of_download (h : i.OfDownload) : i.Inside := by
  cases i with
  | call c =>
    cases c with
    | fetch sequenceSet onlyHeaders => exact ⟨h, nofun⟩
    | select | search => exact ⟨trivial, nofun⟩
    | _ => exact absurd h id
  | getline => exact absurd h id
  | _ => exact ⟨trivial, nofun⟩

/-- The marking asks for an empty sequence set exactly where nothing has been found. -/
lemma respects_readNew_nonEmpty (h : ReadingNew log) (hlog : ¬ NothingToMark log) :
    Respects nonEmptySets (fun log _ => ¬ NothingToMark log) (readNew name) log := by
  have hselect : Respects nonEmptySets (fun log _ => ReadingNew log ∧ ¬ NothingToMark log)
      (selectNamed name) log := by
    unfold selectNamed
    split
    · refine respects_call.mpr ⟨iff_of_true trivial hlog, fun r _ => ⟨?_, ?_⟩⟩
      · exact (readingNew_concat_iff (by nofun)).mpr h
      · exact not_nothingToMark_concat nofun
    · exact ⟨h, hlog⟩
  refine hselect.bind (fun log _ ⟨h, hlog⟩ => ?_) fun _ _ hlog => hlog.2
  have hsearch : Respects nonEmptySets (fun log r => NothingToMark log ↔ r = .ok [])
      (call (.search false)) log := by
    refine respects_call.mpr ⟨iff_of_true trivial hlog, fun r _ => ?_⟩
    rw [nothingToMark_concat_iff, and_iff_left h]
    constructor
    · rintro ⟨onlyUnseen, he⟩
      cases he
      rfl
    · rintro rfl
      exact ⟨false, rfl⟩
  refine hsearch.bind (fun log seqSet hset => ?_) fun log ex hlog => by rw [hlog]; nofun
  have hread : Respects nonEmptySets (fun log _ => ¬ NothingToMark log)
      (call (.read seqSet)) log := by
    refine respects_call.mpr ⟨?_, fun r _ => not_nothingToMark_concat nofun⟩
    change seqSet ≠ [] ↔ ¬ NothingToMark log
    rw [hset, Except.ok.injEq]
  have hattempt : Respects nonEmptySets (fun log _ => ¬ NothingToMark log)
      (attempt (call (.read seqSet))) log := Respects.attempt hread
  refine hattempt.bind (fun log result hlog => respects_of_quiet ?_ hlog) fun _ _ hlog => hlog
  cases result <;> exact ⟨trivial, fun _ => trivial⟩

/-- Working off a line keeps the contract. -/
lemma respects_processCommand_nonEmpty : Respects nonEmptySets (fun log _ => ¬ NothingToMark log)
    (processCommand input) (log ++ [⟨.getline (some input), ()⟩]) := by
  have hline : ¬ NothingToMark (log ++ [⟨.getline (some input), ()⟩]) :=
    not_nothingToMark_concat nofun
  have hdownload : ∀ (c : MailboxCommand) onlyUnseen what name, c.In input → c ≠ .readNew →
      Respects nonEmptySets (fun log _ => ¬ NothingToMark log)
        (downloadMailbox onlyUnseen what name) (log ++ [⟨.getline (some input), ()⟩]) := by
    intro c onlyUnseen what name hc hne
    refine respects_of_inside ((only_downloadMailbox ..).mono fun _ => inside_of_download) ?_
    rw [readingNew_getline_iff]
    exact fun hread => hne (hc.unique hread)
  rcases processCommand_cases input with hcommand | ⟨-, hcommand⟩ | ⟨c, name, hc, hcommand⟩ |
    hcommand | hcommand
  · rw [hcommand]
    exact respects_of_quiet ⟨trivial, fun _ => trivial⟩ hline
  · rw [hcommand]
    exact respects_of_quiet ((only_call trivial).bind fun _ => ⟨trivial, fun _ => trivial⟩) hline
  · rw [hcommand]
    cases c with
    | downloadNew => exact hdownload _ _ _ name hc nofun
    | downloadAll => exact hdownload _ _ _ name hc nofun
    | readNew => exact respects_readNew_nonEmpty (readingNew_getline_iff.mpr hc) hline
  · rw [hcommand]
    exact hline
  · rw [hcommand]
    exact respects_of_quiet ⟨trivial, fun _ => trivial⟩ hline

/-- A round of the loop keeps the contract. -/
lemma respects_replRound_nonEmpty {line : Option Bytes} {next : Client Unit}
    (hlog : ¬ NothingToMark log) (hnext : ∀ log, Respects nonEmptySets
      (fun log _ => ¬ NothingToMark log) next (log ++ [⟨.getline line, ()⟩])) :
    Respects nonEmptySets (fun log _ => ¬ NothingToMark log) (replRound line next) log := by
  refine Respects.perform_bind_iff.mpr ⟨iff_of_true trivial hlog, fun state _ => ?_⟩
  have hstate : ¬ NothingToMark (log ++ [⟨.getState, state⟩]) := not_nothingToMark_concat nofun
  split
  · exact hstate
  · have hprompt : Respects nonEmptySets (fun log r => ¬ NothingToMark log ∧ r = .ok ())
        printPrompt (log ++ [⟨.getState, state⟩]) :=
      respects_printPrompt (fun _ _ he _ => not_nothingToMark_of_quiet (quiet_of_prompt he))
        (fun _ _ hi hlog => iff_of_true (nonEmpty_of_quiet (quiet_of_prompt hi)) hlog) hstate
    refine hprompt.bind (fun log _ ⟨hlog, _⟩ => ?_) fun _ _ hlog => hlog.1
    exact Respects.perform_bind_iff.mpr ⟨iff_of_true trivial hlog, fun _ _ => hnext log⟩

/-- The loop keeps the contract.

**Proof sketch.** Induction on the lines. -/
lemma respects_replLoop_nonEmpty (inputs : List Bytes) (hlog : ¬ NothingToMark log) :
    Respects nonEmptySets (fun log _ => ¬ NothingToMark log) (replLoop inputs) log := by
  induction inputs generalizing log with
  | nil =>
    refine respects_replRound_nonEmpty hlog fun log => ?_
    refine respects_of_quiet ?_ (not_nothingToMark_concat nofun)
    exact (only_call trivial).bind fun _ => ⟨trivial, fun _ => ⟨trivial, fun _ => trivial⟩⟩
  | cons input inputs ih =>
    refine respects_replRound_nonEmpty hlog fun log => ?_
    exact respects_processCommand_nonEmpty.bind (fun log _ hlog => ih hlog) fun _ _ hlog => hlog

/-- The interactive mode keeps the contract. -/
lemma respects_mainInteractive_nonEmpty (o : Options) (creds : Credentials) (inputs : List Bytes)
    (hlog : ¬ NothingToMark log) : Respects nonEmptySets (fun log _ => ¬ NothingToMark log)
      (mainInteractive o creds inputs) log := by
  have hsetUp : Only Action.Quiet (setUp creds o.mailboxName) :=
    (only_setUp ..).mono fun _ hi => (quiet_of_setUp hi).1
  refine (respects_of_quiet hsetUp hlog).bind (fun log _ hlog => ?_) fun _ _ hlog => hlog
  have hrepl : Respects nonEmptySets (fun log _ => ¬ NothingToMark log) (repl inputs) log :=
    Respects.perform_bind_iff.mpr ⟨iff_of_true trivial hlog, fun _ _ =>
      respects_replLoop_nonEmpty inputs (not_nothingToMark_concat nofun)⟩
  have hattempt : Respects nonEmptySets (fun log _ => ¬ NothingToMark log)
      (attempt (repl inputs)) log := Respects.attempt hrepl
  refine hattempt.bind (fun log result hlog => respects_of_quiet ?_ hlog) fun _ _ hlog => hlog
  cases result with
  | error ex => exact ⟨trivial, fun _ => trivial⟩
  | ok _ => trivial

/-- The non-interactive mode fetches only what has been found, and reads no line. -/
lemma only_mainBatch_inside (o : Options) (creds : Credentials) :
    Only Action.Inside (mainBatch o creds) := by
  refine Only.bind (Only.attempt ?_) fun result => ?_
  · refine ((only_setUp ..).mono fun _ hi => (quiet_of_setUp hi).2).bind fun _ => ?_
    refine (only_call ⟨trivial, nofun⟩).bind fun seqSet => ?_
    split
    · next hpos => exact only_call ⟨List.ne_nil_of_length_pos hpos, nofun⟩
    · trivial
  · cases result with
    | error ex => exact ⟨⟨trivial, nofun⟩, fun _ => trivial⟩
    | ok messages =>
      change Only _ (if messages.length ≠ 0 then _ else _)
      split
      · have hsave : Only Action.Inside (attempt (save messages)) :=
          Only.attempt ⟨⟨trivial, nofun⟩, fun r => Only.ofExcept r⟩
        refine ⟨⟨trivial, nofun⟩, fun _ => hsave.bind fun result => ?_⟩
        cases result with
        | error ex => exact ⟨⟨trivial, nofun⟩, fun _ => trivial⟩
        | ok _ => trivial
      · exact ⟨⟨trivial, nofun⟩, fun _ => trivial⟩

/-- The program keeps the contract. -/
lemma respects_main_nonEmpty (o : Options) (creds : Except StdException Credentials)
    (server : Except StdException Unit) (inputs : List Bytes) : Respects nonEmptySets
      (fun log _ => ¬ NothingToMark log) (main o creds server inputs) [] := by
  have hreading : ¬ ReadingNew [] := by
    rintro ⟨pre, line, post, hnil, -⟩
    exact absurd hnil.symm (by simp)
  have hlog := not_nothingToMark_of_not_readingNew hreading
  have hfail : ∀ ex, Respects nonEmptySets (fun log _ => ¬ NothingToMark log) (fail ex) [] :=
    fun ex => respects_of_quiet ⟨trivial, fun _ => trivial⟩ hlog
  unfold main
  split
  · exact hfail _
  · exact hlog
  · split
    · exact hfail _
    · split
      · exact respects_mainInteractive_nonEmpty _ _ _ hlog
      · exact respects_of_inside (only_mainBatch_inside ..) hreading

end Contract

/-! ## Runs -/

/-- **Sequence sets.** In every state that the program reaches, in either mode, on any lines and
with any responses, the operation that is about to be called sends the command for which it takes a
tag, if and only if it is not the marking after a search for `READNEW` that has found nothing, with
the mailbox still selected.

**Proof sketch.** The program keeps the contract `nonEmptySets`: a download and the non-interactive
mode fetch only after a test, and `READNEW` marks what a search for it has found. An operation with
an empty set that passes its guard does not send what it hands over. -/
theorem sends_whole_iff {File : Type} [DecidableEq File] (openFile : Bytes → Option File)
    (outputDir : Bytes) (σ : Session) (files : File → Option Bytes) (o : Options)
    (creds : Except StdException Credentials) (server : Except StdException Unit)
    (inputs : List Bytes) (es : List ProcessEvent) (x : Process File ℕ)
    (h : run (Process.step openFile outputDir) (.start σ files (main o creds server inputs)) es =
      some x) :
    (∀ c k, x.place = .running (.ask (.call c) k) → SendsWhole x.system.session c) ↔
      ¬ MarksNothing x := by
  have hkeeps := respects_of_run h (respects_main_nonEmpty o creds server inputs)
    fun _ _ _ _ => trivial
  constructor
  · rintro hwhole ⟨hnothing, hselected, p, hplace⟩
    rw [hplace] at hkeeps
    cases p with
    | done a => exact hkeeps hnothing
    | raise ex => exact hkeeps hnothing
    | ask i k =>
      have hi : ¬ i.NonEmpty := fun hi => hkeeps.1.mp hi hnothing
      cases i with
      | call c =>
        have hguard : c.Guard x.system.session.state := (guard_iff_of_empty hi).mpr hselected
        exact hi ((sendsWhole_iff _).mp (hwhole c k hplace) hguard)
      | _ => exact hi trivial
  · intro hnot c k hplace
    rw [hplace] at hkeeps
    refine (sendsWhole_iff _).mpr fun hguard => ?_
    by_contra hempty
    have hnothing : NothingToMark x.entries := not_not.mp fun hno => hempty (hkeeps.1.mpr hno)
    exact hnot ⟨hnothing, (guard_iff_of_empty hempty).mp hguard, _, hplace⟩

/-- A session in the interactive mode up to a line `READNEW`, with the given search result. -/
def readNewSteps (seqNumbers : List UInt32) : List ProcessEvent :=
  .act :: replySteps (.status .ok [] (ascii "hello")) ++
    .act :: replySteps (.status .ok (ascii "a001") (ascii "done")) ++
    .act :: replySteps (.status .ok (ascii "1") (ascii "done")) ++ List.replicate 7 .act ++
    [.session (.incoming (.search seqNumbers)), .session (.incoming (.status .ok (ascii "2") [])),
      .session .take, .session .take, .answer]

/-- The program in interactive mode, with one line `READNEW`. -/
def mainReadNew : Client ℕ :=
  main ⟨true, false, false, ascii "INBOX"⟩ (.ok ⟨ascii "user", ascii "secret"⟩) (.ok ())
    [ascii "READNEW"]

/-- A run up to the marking of two messages. -/
lemma exists_run_readNew : ∃ x, run (Process.step noFile [])
    (.start .new (fun _ => none) mainReadNew) (readNewSteps [1, 2]) = some x :=
  ⟨_, rfl⟩

/-- `READNEW` in a mailbox with two messages. -/
theorem sends_whole_iff_two : ∃ x, run (Process.step noFile [])
      (.start .new (fun _ => none) mainReadNew) (readNewSteps [1, 2]) = some x ∧
    ((∀ c k, x.place = .running (.ask (.call c) k) → SendsWhole x.system.session c) ↔
      ¬ MarksNothing x) := by
  obtain ⟨x, hx⟩ := exists_run_readNew
  exact ⟨x, hx, sends_whole_iff noFile [] .new (fun _ => none) _ _ _ _ _ x hx⟩

/-- `READNEW` in an empty mailbox: a tag is taken for a command that cannot be encoded, and the
operation throws. -/
theorem not_sends_whole : ∃ x, run (Process.step noFile [])
      (.start .new (fun _ => none) mainReadNew) (readNewSteps []) = some x ∧
    (∃ c k, x.place = .running (.ask (.call c) k) ∧ ¬ SendsWhole x.system.session c) ∧
      ∃ y, x.step noFile [] .act = some y ∧
        y.system.control = .threw (.logicError (ascii "Sequence set empty!")) ∧
        y.system.session.tag = x.system.session.tag + 1 :=
  ⟨_, rfl, ⟨_, _, rfl, fun h => (sendsWhole_iff _).mp h rfl rfl⟩, _, rfl, rfl, rfl⟩

end Imapcl
