import Imapcl.Client.SequenceSets
import Imapcl.World.Commands

set_option relaxedAutoImplicit false
set_option autoImplicit false

/-!
# What the server is sent

The commands of the whole program, in every run of it: whatever the server answers, whatever the
user types, and in every interleaving with the receiving thread.

## Main definitions

* `Imapcl.proper` — the contract of the program's operations.

## Main results

* `Imapcl.credentials_once` — there is one LOGIN at most, before everything else.
* `Imapcl.batch_commands` — the commands of the non-interactive mode.
-/

namespace Imapcl

open Machine Program

/-! ## The operations of the program -/

/-- What is required of the operations: the credentials are those of the file, and are handed over
right after the greeting only; FETCH and STORE have the numbers that a SEARCH has returned. -/
def Proper (creds : Credentials) (log : Log) : Action → Prop
  | .call (.login userName password) => userName = creds.getUsername ∧
      password = creds.getPassword ∧ log = [⟨.call .receiveGreeting, .ok ()⟩]
  | .call (.fetch numbers _) | .call (.read numbers) =>
    ∃ onlyUnseen, ⟨.call (.search onlyUnseen), .ok numbers⟩ ∈ log
  | _ => True

/-- The contract of the operations. -/
def proper (creds : Credentials) : Contract Action Action.Answer := ⟨fun _ _ => True, Proper creds⟩

/-- The actions of which nothing is required. -/
def Action.Plain : Action → Prop
  | .call (.login _ _) | .call (.fetch _ _) | .call (.read _) => False
  | _ => True

section Contract

variable {α β : Type} {creds : Credentials} {log : Log} {p : Client α} {f : α → Client β}
  {i : Action} {mailbox input : Bytes} {o : Options}

/-- Nothing is required of a plain action. -/
lemma Action.Plain.proper (h : i.Plain) : Proper creds log i := by
  cases i with
  | call c => cases c <;> trivial
  | _ => trivial

/-- A program with plain actions only. -/
lemma respects_of_plain (h : Only Action.Plain p) :
    Respects (proper creds) (fun _ _ => True) p log :=
  h.respects (I := fun _ => True) (fun _ _ _ _ => trivial) (fun _ _ hi _ => hi.proper) trivial

/-- A sequence. -/
lemma respects_bind_proper (hp : Respects (proper creds) (fun _ _ => True) p log)
    (hf : ∀ log a, Respects (proper creds) (fun _ _ => True) (f a) log) :
    Respects (proper creds) (fun _ _ => True) (p >>= f) log :=
  hp.bind (fun log a _ => hf log a) fun _ _ _ => trivial

/-- A search, and what follows with its numbers. -/
lemma respects_search_proper {onlyUnseen : Bool} {f : List UInt32 → Client β}
    (hf : ∀ log numbers, ⟨.call (.search onlyUnseen), .ok numbers⟩ ∈ log →
      Respects (proper creds) (fun _ _ => True) (f numbers) log) :
    Respects (proper creds) (fun _ _ => True) (call (.search onlyUnseen) >>= f) log := by
  have hsearch : Respects (proper creds)
      (fun log r => ∀ numbers, r = .ok numbers → ⟨.call (.search onlyUnseen), .ok numbers⟩ ∈ log)
      (call (.search onlyUnseen)) log := by
    refine respects_call.mpr ⟨trivial, fun r _ numbers hr => ?_⟩
    rw [hr]
    exact List.mem_append_right _ (List.mem_singleton_self _)
  exact hsearch.bind (fun log numbers h => hf log numbers (h numbers rfl)) fun _ _ _ => trivial

/-- The select before a command, if there is one. -/
lemma plain_selectNamed (mailbox : Bytes) : Only Action.Plain (selectNamed mailbox) := by
  unfold selectNamed
  split
  · exact only_call trivial
  · trivial

/-- A download fetches what has been found. -/
lemma respects_downloadMailbox_proper (onlyUnseen : Bool) (what : String) :
    Respects (proper creds) (fun _ _ => True) (downloadMailbox onlyUnseen what mailbox) log := by
  apply respects_bind_proper (respects_of_plain (plain_selectNamed mailbox))
  intro log _
  apply respects_search_proper
  intro log numbers hfound
  apply respects_bind_proper
  · apply Respects.attempt
    split
    · refine respects_bind_proper (respects_call.mpr ⟨⟨onlyUnseen, hfound⟩, fun _ _ => trivial⟩) ?_
      exact fun log messages => respects_of_plain ⟨trivial, fun r => Only.ofExcept r⟩
    · trivial
  · intro log result
    cases result <;> exact respects_of_plain ⟨trivial, fun _ => trivial⟩

/-- READNEW marks what has been found. -/
lemma respects_readNew_proper :
    Respects (proper creds) (fun _ _ => True) (readNew mailbox) log := by
  apply respects_bind_proper (respects_of_plain (plain_selectNamed mailbox))
  intro log _
  apply respects_search_proper
  intro log numbers hfound
  apply respects_bind_proper
  · exact Respects.attempt (respects_call.mpr ⟨⟨false, hfound⟩, fun _ _ => trivial⟩)
  · intro log result
    cases result <;> exact respects_of_plain ⟨trivial, fun _ => trivial⟩

/-- Every line. -/
lemma respects_processCommand_proper :
    Respects (proper creds) (fun _ _ => True) (processCommand input) log := by
  rcases processCommand_cases input with h | ⟨-, h⟩ | ⟨c, name, -, h⟩ | h | h
  · rw [h]
    exact respects_of_plain ⟨trivial, fun _ => trivial⟩
  · rw [h]
    exact respects_of_plain ((only_call trivial).bind fun _ => ⟨trivial, fun _ => trivial⟩)
  · rw [h]
    cases c with
    | downloadNew => exact respects_downloadMailbox_proper _ _
    | downloadAll => exact respects_downloadMailbox_proper _ _
    | readNew => exact respects_readNew_proper
  · rw [h]
    trivial
  · rw [h]
    exact respects_of_plain ⟨trivial, fun _ => trivial⟩

/-- A round of the loop. -/
lemma respects_replRound_proper {line : Option Bytes} {next : Client Unit}
    (hnext : ∀ log, Respects (proper creds) (fun _ _ => True) next log) :
    Respects (proper creds) (fun _ _ => True) (replRound line next) log := by
  refine Respects.perform_bind_iff.mpr ⟨trivial, fun state _ => ?_⟩
  split
  · trivial
  · have hprompt : Respects (proper creds) (fun _ r => True ∧ r = .ok ()) printPrompt
        (log ++ [⟨.getState, state⟩]) := by
      refine respects_printPrompt (I := fun _ => True) (fun _ _ _ _ => trivial)
        (fun _ i hi _ => ?_) trivial
      apply Action.Plain.proper
      cases i <;> trivial
    refine hprompt.bind (fun log _ _ => ?_) fun _ _ _ => trivial
    exact Respects.perform_bind_iff.mpr ⟨trivial, fun _ _ => hnext _⟩

/-- The loop.

**Proof sketch.** Induction on the lines. -/
lemma respects_replLoop_proper (inputs : List Bytes) :
    Respects (proper creds) (fun _ _ => True) (replLoop inputs) log := by
  induction inputs generalizing log with
  | nil =>
    refine respects_replRound_proper fun log => respects_of_plain ?_
    exact (only_call trivial).bind fun _ => ⟨trivial, fun _ => ⟨trivial, fun _ => trivial⟩⟩
  | cons input inputs ih =>
    refine respects_replRound_proper fun log => ?_
    exact respects_bind_proper respects_processCommand_proper fun log _ => ih

/-- The set-up logs in right after the greeting. -/
lemma respects_setUp_proper (mailbox : Bytes) :
    Respects (proper creds) (fun _ _ => True) (setUp creds mailbox) [] := by
  have hgreeting : Respects (proper creds)
      (fun log r => r = .ok () → log = [⟨.call .receiveGreeting, .ok ()⟩])
      (call .receiveGreeting) [] := by
    refine respects_call.mpr ⟨trivial, fun r _ hr => ?_⟩
    rw [hr]
    rfl
  refine hgreeting.bind (fun log _ hlog => ?_) fun _ _ _ => trivial
  apply respects_bind_proper
  · exact respects_call.mpr ⟨⟨rfl, rfl, hlog rfl⟩, fun _ _ => trivial⟩
  · exact fun log _ => respects_of_plain (only_call trivial)

/-- The non-interactive mode. -/
lemma respects_mainBatch_proper :
    Respects (proper creds) (fun _ _ => True) (mainBatch o creds) [] := by
  apply respects_bind_proper
  · apply Respects.attempt
    refine respects_bind_proper (respects_setUp_proper _) fun log _ => ?_
    apply respects_search_proper
    intro log numbers hfound
    split
    · exact respects_call.mpr ⟨⟨o.onlyUnseen, hfound⟩, fun _ _ => trivial⟩
    · trivial
  · intro log result
    cases result with
    | error ex => exact respects_of_plain ⟨trivial, fun _ => trivial⟩
    | ok messages =>
      change Respects _ _ (if messages.length ≠ 0 then _ else _) log
      split
      · refine ⟨trivial, fun _ _ => ?_⟩
        have hsave : Only Action.Plain (attempt (save messages)) :=
          Only.attempt ⟨trivial, fun r => Only.ofExcept r⟩
        refine respects_of_plain (hsave.bind fun result => ?_)
        cases result <;> first | trivial | exact ⟨trivial, fun _ => trivial⟩
      · exact respects_of_plain ⟨trivial, fun _ => trivial⟩

/-- The program. -/
lemma respects_main_proper (inputs : List Bytes) :
    Respects (proper creds) (fun _ _ => True) (main o (.ok creds) (.ok ()) inputs) [] := by
  change Respects _ _ (if o.interactive then _ else _) []
  split
  · refine respects_bind_proper (respects_setUp_proper _) fun log _ => ?_
    apply respects_bind_proper
    · exact Respects.attempt (Respects.perform_bind_iff.mpr ⟨trivial, fun _ _ =>
        respects_replLoop_proper inputs⟩)
    · intro log result
      cases result <;> first | trivial | exact respects_of_plain ⟨trivial, fun _ => trivial⟩
  · exact respects_mainBatch_proper

end Contract

/-! ## What is sent -/

/-- A LOGIN is what `login` hands over. -/
lemma isLogin_of_command {c : Call} {tag : Bytes} {command : Command}
    (h : c.command tag = some command) (hc : ∀ userName password, c ≠ .login userName password) :
    command.isLogin = false := by
  cases c with
  | receiveGreeting => cases h
  | login userName password => exact absurd rfl (hc userName password)
  | _ =>
    obtain rfl := Option.some.inj h
    rfl

/-- The numbers in a FETCH or a STORE. -/
def Command.numbers? : Command → Option (List UInt32)
  | .fetch _ sequenceSet _ | .store _ sequenceSet _ _ => some sequenceSet
  | _ => none

section Sent

variable {File : Type} [DecidableEq File] {openFile : Bytes → Option File} {outputDir : Bytes}
  {files : File → Option Bytes} {o : Options} {creds : Credentials} {inputs : List Bytes}
  {es : List ProcessEvent} {x : Process File ℕ} {log : Log} {said : List Command} {q : Client ℕ}

/-- Operations that are no `login` hand over no LOGIN. -/
lemma Spoken.no_login (h : Spoken log said)
    (hlog : ∀ e ∈ log, ∀ userName password, e.action ≠ .call (.login userName password)) :
    ∀ command ∈ said, command.isLogin = false := by
  intro command hmem
  obtain ⟨c, r, tag, hcall, hc⟩ := h.exists_of_mem hmem
  exact isLogin_of_command hc fun userName password heq => hlog _ hcall _ _ (congrArg _ heq)

/-- If the operations are proper, then there is one LOGIN at most, before everything else. -/
lemma Spoken.credentials (h : Spoken log said)
    (hproper : ∀ pre e post, log = pre ++ e :: post → Proper creds pre e.action) :
    ∃ login others, said = login ++ others ∧
      (login = [] ∨ login = [.login (ascii "a001") creds.getUsername creds.getPassword]) ∧
      ∀ command ∈ others, command.isLogin = false := by
  by_cases hnone : ∀ e ∈ log, ∀ userName password, e.action ≠ .call (.login userName password)
  · exact ⟨[], said, rfl, Or.inl rfl, h.no_login hnone⟩
  push Not at hnone
  obtain ⟨⟨i, r⟩, hmem, userName, password, rfl⟩ := hnone
  obtain ⟨pre, post, rfl⟩ := List.append_of_mem hmem
  obtain ⟨rfl, rfl, rfl⟩ := hproper pre _ post rfl
  have hlater : ∀ e ∈ post, ∀ userName password, e.action ≠ .call (.login userName password) := by
    rintro ⟨i', r'⟩ hpost userName password rfl
    obtain ⟨mid, post', rfl⟩ := List.append_of_mem hpost
    have hpre := (hproper (_ :: _ :: mid) _ post' rfl).2.2
    simp at hpre
  have hfirst : Spoken (⟨.call (.login creds.getUsername creds.getPassword), r⟩ :: post) said := by
    rcases h.of_call with ⟨tag, command, rest, -, hcommand, -⟩ | ⟨-, hs⟩
    · cases hcommand
    · exact hs
  rcases hfirst.of_call with ⟨tag, command, rest, rfl, hcommand, hs⟩ | ⟨-, hs⟩
  · obtain rfl := Option.some.inj hcommand
    exact ⟨[_], rest, rfl, Or.inr rfl, hs.no_login hlater⟩
  · exact ⟨[], said, rfl, Or.inl rfl, hs.no_login hlater⟩

/-- The operations of a run are proper. -/
lemma proper_of_path (hpath : Path (main o (.ok creds) (.ok ()) inputs) log q) :
    ∀ pre e post, log = pre ++ e :: post → Proper creds pre e.action :=
  fun _ _ _ hlog => (respects_main_proper inputs).demanded hpath (fun _ _ _ _ => trivial) hlog

/-- The tags of the commands of a run. -/
lemma tags_of_process {p : Client ℕ}
    (h : run (Process.step openFile outputDir) (.start .new files p) es = some x) :
    ((Process.commands openFile outputDir (.start .new files p) es).filter
        fun command => !command.isLogin).map Command.tag =
      counter 1 ((Process.commands openFile outputDir (.start .new files p) es).countP
        fun command => !command.isLogin) := by
  obtain ⟨events, hrun, hcommands⟩ := system_of_run h
  rw [← hcommands]
  exact (tags_of_run hrun).1

end Sent

/-- **Credentials.** In every run of the program, the credentials are handed over once at most, in a
LOGIN that comes before all other commands. The others have the tags `1`, `2` and so on.

**Proof sketch.** The contract of the operations lets `login` come only right after the greeting,
so that it comes once. -/
theorem credentials_once {File : Type} [DecidableEq File] (openFile : Bytes → Option File)
    (outputDir : Bytes) (files : File → Option Bytes) (o : Options) (creds : Credentials)
    (inputs : List Bytes) (es : List ProcessEvent) (x : Process File ℕ)
    (h : run (Process.step openFile outputDir)
      (.start .new files (main o (.ok creds) (.ok ()) inputs)) es = some x) :
    ∃ login others, Process.commands openFile outputDir
        (.start .new files (main o (.ok creds) (.ok ()) inputs)) es = login ++ others ∧
      (login = [] ∨ login = [.login (ascii "a001") creds.getUsername creds.getPassword]) ∧
      (∀ command ∈ others, command.isLogin = false) ∧
      others.map Command.tag = counter 1 others.length := by
  obtain ⟨log, q, hpath, hspoken, -⟩ := spoken_of_run h
  obtain ⟨login, others, hsaid, hlogin, hothers⟩ := hspoken.credentials (proper_of_path hpath)
  refine ⟨login, others, hsaid, hlogin, hothers, ?_⟩
  have htags := tags_of_process h
  have hnone : login.filter (fun command => !command.isLogin) = [] := by
    rcases hlogin with rfl | rfl <;> rfl
  have hall : others.filter (fun command => !command.isLogin) = others := by
    rw [List.filter_eq_self]
    intro command hmem
    rw [hothers command hmem]
    rfl
  rwa [hsaid, List.countP_eq_length_filter, List.filter_append, hnone, hall, List.nil_append]
    at htags

/-- A program that has marked two messages as read. -/
theorem credentials_once_readNew : ∃ x, run (Process.step noFile [])
      (.start .new (fun _ => none) mainReadNew) (readNewSteps [1, 2]) = some x ∧
    ∃ login others, Process.commands noFile []
        (.start .new (fun _ => none) mainReadNew) (readNewSteps [1, 2]) = login ++ others ∧
      (login = [] ∨ login = [.login (ascii "a001") (ascii "user") (ascii "secret")]) ∧
      (∀ command ∈ others, command.isLogin = false) ∧
      others.map Command.tag = counter 1 others.length := by
  obtain ⟨x, hrun⟩ := exists_run_readNew
  exact ⟨x, hrun, credentials_once noFile [] (fun _ => none) _ _ _ _ x hrun⟩

/-- The sequence set of a FETCH or a STORE is what a SEARCH of this run has returned before.

**Proof sketch.** The contract of the operations requires this of `fetch` and `read`. An operation
that is going on is the last one of the log, so that the search comes before it. -/
lemma numbers_found {File : Type} [DecidableEq File] (openFile : Bytes → Option File)
    (outputDir : Bytes) (files : File → Option Bytes) (o : Options) (creds : Credentials)
    (inputs : List Bytes) (es : List ProcessEvent) (x : Process File ℕ)
    (h : run (Process.step openFile outputDir)
      (.start .new files (main o (.ok creds) (.ok ()) inputs)) es = some x) :
    ∀ command ∈ Process.commands openFile outputDir
        (.start .new files (main o (.ok creds) (.ok ()) inputs)) es,
      ∀ numbers, command.numbers? = some numbers →
        ∃ onlyUnseen, ⟨.call (.search onlyUnseen), .ok numbers⟩ ∈ x.entries := by
  intro command hmem numbers hnumbers
  obtain ⟨log, q, hpath, hspoken, hlog⟩ := spoken_of_run h
  obtain ⟨c, r, tag, hcall, hc⟩ := hspoken.exists_of_mem hmem
  obtain ⟨pre, post, hsplit⟩ := List.append_of_mem hcall
  have hproper := proper_of_path hpath pre _ post hsplit
  have hpre : pre <+: x.entries := by
    have hlen := congrArg List.length hsplit
    have hbefore : pre <+: log := by
      rw [hsplit]
      exact List.prefix_append _ _
    rcases hlog with rfl | ⟨c', r', rfl⟩
    · exact hbefore
    · apply List.prefix_of_prefix_length_le hbefore (List.prefix_append _ _)
      simp at hlen
      omega
  have hfound : ∃ onlyUnseen, ⟨.call (.search onlyUnseen), .ok numbers⟩ ∈ pre := by
    cases c with
    | receiveGreeting => cases hc
    | fetch | read =>
      cases hc
      cases hnumbers
      exact hproper
    | _ =>
      cases hc
      cases hnumbers
  obtain ⟨onlyUnseen, hsearch⟩ := hfound
  exact ⟨onlyUnseen, hpre.subset hsearch⟩

/-! ## The non-interactive mode -/

/-- The rest of the non-interactive mode, after the messages have been fetched. -/
def batchReport (o : Options) (messages : List Bytes) : Client ℕ :=
  if messages.length ≠ 0 then do
    print (fetchedReport o messages.length)
    let result ← attempt (save messages)
    match result with
    | .error ex => fail ex
    | .ok () => pure 0
  else do
    print (noMessagesReport o)
    pure 0

/-- The rest has no operations. -/
lemma only_batchReport (o : Options) (messages : List Bytes) :
    Only (fun i => ∀ c, i ≠ .call c) (batchReport o messages) := by
  unfold batchReport
  split
  · have hsave : Only (fun i => ∀ c, i ≠ Action.call c) (attempt (save messages)) :=
      Only.attempt ⟨by simp, fun r => Only.ofExcept r⟩
    refine ⟨by simp, fun _ => hsave.bind fun result => ?_⟩
    cases result with
    | error ex => exact ⟨by simp, fun _ => trivial⟩
    | ok _ => trivial
  · exact ⟨by simp, fun _ => trivial⟩

section Batch

variable {o : Options} {creds : Credentials} {log : Log} {said : List Command} {q : Client ℕ}
  {c : Call} {k : Except StdException c.Result → Client ℕ}

/-- The next operation of the non-interactive mode. If it throws, it is the last one. -/
lemma Spoken.next (h : Path (.ask (.call c) k) log q) (herror : ∀ ex, k (.error ex) = fail ex)
    (hs : Spoken log said) : said = [] ∨
      (∃ tag command, said = [command] ∧ c.command tag = some command) ∨
      ∃ a log', Path (k (.ok a)) log' q ∧
        ((∃ tag command rest, said = command :: rest ∧ c.command tag = some command ∧
          Spoken log' rest) ∨ (c.Silent ∧ Spoken log' said)) := by
  rcases path_ask_iff.mp h with ⟨rfl, -⟩ | ⟨r, log', rfl, hlater⟩
  · cases hs
    exact Or.inl rfl
  · cases r with
    | error ex =>
      have hnothing : ∀ {rest : List Command}, Spoken log' rest → rest = [] := by
        intro rest hrest
        apply hrest.eq_nil
        rw [herror] at hlater
        rcases path_ask_iff.mp hlater with ⟨rfl, -⟩ | ⟨r, log'', rfl, hend⟩
        · simp
        · obtain ⟨rfl, -⟩ := hend.of_ended rfl
          simp
      rcases hs.of_call with ⟨tag, command, rest, rfl, hcommand, hrest⟩ | ⟨-, hrest⟩
      · rw [hnothing hrest]
        exact Or.inr (Or.inl ⟨tag, command, rfl, hcommand⟩)
      · exact Or.inl (hnothing hrest)
    | ok a =>
      refine Or.inr (Or.inr ⟨a, log', hlater, ?_⟩)
      rcases hs.of_call with ⟨tag, command, rest, rfl, hcommand, hrest⟩ |
        ⟨hsilent | ⟨ex, hex⟩, hrest⟩
      · exact Or.inl ⟨tag, command, rest, rfl, hcommand, hrest⟩
      · exact Or.inr ⟨hsilent, hrest⟩
      · cases hex

/-- The commands of the non-interactive mode, up to their tags. -/
lemma Spoken.batch (h : Path (mainBatch o creds) log q) (hs : Spoken log said) :
    ∃ login t₁ t₂ t₃ numbers,
      (login = [] ∨ login = [.login (ascii "a001") creds.getUsername creds.getPassword]) ∧
      said <+: login ++ [.select t₁ o.mailboxName,
        .search t₂ (if o.onlyUnseen then ascii "UNSEEN" else ascii "ALL"),
        .fetch t₃ numbers (if o.onlyHeaders then ascii "(BODY.PEEK[HEADER])" else
          ascii "BODY[]")] := by
  rcases hs.next h (fun _ => rfl) with rfl | ⟨tag, command, rfl, hc⟩ |
    ⟨a, log₁, h₁, ⟨tag, command, rest, rfl, hc, -⟩ | ⟨-, hs₁⟩⟩
  · exact ⟨[], [], [], [], [], Or.inl rfl, List.nil_prefix⟩
  · cases hc
  · cases hc
  rcases hs₁.next h₁ (fun _ => rfl) with rfl | ⟨tag, command, rfl, hc⟩ |
    ⟨a, log₂, h₂, hlater⟩
  · exact ⟨[], [], [], [], [], Or.inl rfl, List.nil_prefix⟩
  · obtain rfl := Option.some.inj hc
    exact ⟨_, [], [], [], [], Or.inr rfl, List.prefix_append _ _⟩
  suffices hrest : ∀ {rest : List Command}, Spoken log₂ rest → ∃ t₁ t₂ t₃ numbers,
      rest <+: [.select t₁ o.mailboxName,
        .search t₂ (if o.onlyUnseen then ascii "UNSEEN" else ascii "ALL"),
        .fetch t₃ numbers (if o.onlyHeaders then ascii "(BODY.PEEK[HEADER])" else
          ascii "BODY[]")] by
    rcases hlater with ⟨tag, command, rest, rfl, hc, hs₂⟩ | ⟨-, hs₂⟩
    · obtain rfl := Option.some.inj hc
      obtain ⟨t₁, t₂, t₃, numbers, hprefix⟩ := hrest hs₂
      exact ⟨_, t₁, t₂, t₃, numbers, Or.inr rfl, (List.prefix_cons_inj _).mpr hprefix⟩
    · obtain ⟨t₁, t₂, t₃, numbers, hprefix⟩ := hrest hs₂
      exact ⟨[], t₁, t₂, t₃, numbers, Or.inl rfl, hprefix⟩
  intro rest hs₂
  rcases hs₂.next h₂ (fun _ => rfl) with rfl | ⟨t₁, command, rfl, hc⟩ |
    ⟨a, log₃, h₃, ⟨t₁, command, rest, rfl, hc, hs₃⟩ | ⟨hsilent, -⟩⟩
  · exact ⟨[], [], [], [], List.nil_prefix⟩
  · obtain rfl := Option.some.inj hc
    exact ⟨t₁, [], [], [], List.prefix_append [_] _⟩
  · obtain rfl := Option.some.inj hc
    suffices hafter : ∃ t₂ t₃ numbers, rest <+: [
        .search t₂ (if o.onlyUnseen then ascii "UNSEEN" else ascii "ALL"),
        .fetch t₃ numbers (if o.onlyHeaders then ascii "(BODY.PEEK[HEADER])" else
          ascii "BODY[]")] by
      obtain ⟨t₂, t₃, numbers, hprefix⟩ := hafter
      exact ⟨t₁, t₂, t₃, numbers, (List.prefix_cons_inj _).mpr hprefix⟩
    rcases hs₃.next h₃ (fun _ => rfl) with rfl | ⟨t₂, command, rfl, hc⟩ |
      ⟨numbers, log₄, h₄, ⟨t₂, command, rest, rfl, hc, hs₄⟩ | ⟨hsilent, -⟩⟩
    · exact ⟨[], [], [], List.nil_prefix⟩
    · obtain rfl := Option.some.inj hc
      exact ⟨t₂, [], [], List.prefix_append [_] _⟩
    · obtain rfl := Option.some.inj hc
      suffices hlast : ∃ t₃, rest <+: [
          .fetch t₃ numbers (if o.onlyHeaders then ascii "(BODY.PEEK[HEADER])" else
            ascii "BODY[]")] by
        obtain ⟨t₃, hprefix⟩ := hlast
        exact ⟨t₂, t₃, numbers, (List.prefix_cons_inj _).mpr hprefix⟩
      cases numbers with
      | nil =>
        rw [hs₄.eq_nil ((only_batchReport o []).path h₄)]
        exact ⟨[], List.nil_prefix⟩
      | cons n numbers =>
        rcases hs₄.next h₄ (fun _ => rfl) with rfl | ⟨t₃, command, rfl, hc⟩ |
          ⟨messages, log₅, h₅, ⟨t₃, command, rest, rfl, hc, hs₅⟩ | ⟨hsilent, -⟩⟩
        · exact ⟨[], List.nil_prefix⟩
        · obtain rfl := Option.some.inj hc
          exact ⟨t₃, List.prefix_refl _⟩
        · obtain rfl := Option.some.inj hc
          rw [hs₅.eq_nil ((only_batchReport o messages).path h₅)]
          exact ⟨t₃, List.prefix_refl _⟩
        · exact hsilent.elim
    · exact hsilent.elim
  · exact hsilent.elim

/-- Commands with the tags of the counter. -/
lemma prefix_of_tags {others : List Command} {t₁ t₂ t₃ mailbox criteria item : Bytes}
    {numbers : List UInt32}
    (h : others <+: [.select t₁ mailbox, .search t₂ criteria, .fetch t₃ numbers item])
    (htags : (others.filter fun command => !command.isLogin).map Command.tag =
      counter 1 (others.countP fun command => !command.isLogin)) :
    others <+: [.select (ascii "1") mailbox, .search (ascii "2") criteria,
      .fetch (ascii "3") numbers item] := by
  have hone : counter 1 1 = [ascii "1"] := by decide +kernel
  have htwo : counter 1 2 = [ascii "1", ascii "2"] := by decide +kernel
  have hthree : counter 1 3 = [ascii "1", ascii "2", ascii "3"] := by decide +kernel
  simp only [List.prefix_cons_iff, List.prefix_nil] at h
  rcases h with rfl | ⟨_, rfl, rfl | ⟨_, rfl, rfl | ⟨_, rfl, rfl⟩⟩⟩
  · exact List.nil_prefix
  · obtain rfl : t₁ = ascii "1" := List.head_eq_of_cons_eq (htags.trans hone)
    exact List.prefix_append [_] _
  · obtain ⟨h₁, h₂⟩ := List.cons.inj (htags.trans htwo)
    obtain rfl : t₁ = ascii "1" := h₁
    obtain rfl : t₂ = ascii "2" := List.head_eq_of_cons_eq h₂
    exact List.prefix_append [_, _] _
  · obtain ⟨h₁, h₂⟩ := List.cons.inj (htags.trans hthree)
    obtain ⟨h₂, h₃⟩ := List.cons.inj h₂
    obtain rfl : t₁ = ascii "1" := h₁
    obtain rfl : t₂ = ascii "2" := h₂
    obtain rfl : t₃ = ascii "3" := List.head_eq_of_cons_eq h₃
    exact List.prefix_refl _

end Batch

/-- **The non-interactive mode.** In every run, the commands are a LOGIN or none, and then one
SELECT, one SEARCH and one FETCH, in this order and with the tags `1`, `2` and `3`, or only the
first ones of them.

**Proof sketch.** An operation that throws is the last one of this mode, so that each of those
before it has handed over its command. The counter has the tags. -/
theorem batch_commands {File : Type} [DecidableEq File] (openFile : Bytes → Option File)
    (outputDir : Bytes) (files : File → Option Bytes) (o : Options) (creds : Credentials)
    (inputs : List Bytes) (es : List ProcessEvent) (x : Process File ℕ)
    (hbatch : o.interactive = false)
    (h : run (Process.step openFile outputDir)
      (.start .new files (main o (.ok creds) (.ok ()) inputs)) es = some x) :
    ∃ login others numbers, Process.commands openFile outputDir
        (.start .new files (main o (.ok creds) (.ok ()) inputs)) es = login ++ others ∧
      (login = [] ∨ login = [.login (ascii "a001") creds.getUsername creds.getPassword]) ∧
      others <+: [.select (ascii "1") o.mailboxName,
        .search (ascii "2") (if o.onlyUnseen then ascii "UNSEEN" else ascii "ALL"),
        .fetch (ascii "3") numbers
          (if o.onlyHeaders then ascii "(BODY.PEEK[HEADER])" else ascii "BODY[]")] := by
  obtain ⟨log, q, hpath, hspoken, -⟩ := spoken_of_run h
  have htags := tags_of_process h
  generalize Process.commands openFile outputDir _ es = said at hspoken htags
  have hmain : main o (.ok creds) (.ok ()) inputs = mainBatch o creds := by
    simp [main, hbatch]
  rw [hmain] at hpath
  obtain ⟨login, t₁, t₂, t₃, numbers, rfl | rfl, hprefix⟩ := hspoken.batch hpath
  · exact ⟨[], said, numbers, rfl, Or.inl rfl, prefix_of_tags hprefix htags⟩
  · rw [List.singleton_append, List.prefix_cons_iff] at hprefix
    rcases hprefix with rfl | ⟨others, rfl, hothers⟩
    · exact ⟨[], [], numbers, rfl, Or.inl rfl, List.nil_prefix⟩
    · exact ⟨[_], others, numbers, rfl, Or.inr rfl, prefix_of_tags hothers htags⟩

/-- A program that has downloaded one message. -/
theorem batch_commands_one : ∃ x, run (Process.step some (ascii "out"))
        (.start .new (fun _ => none)
          (main batchOptions (.ok ⟨ascii "user", ascii "word"⟩) (.ok ()) []))
            (processEvents batchSteps) = some x ∧
    ∃ login others numbers, Process.commands some (ascii "out")
        (.start .new (fun _ => none)
          (main batchOptions (.ok ⟨ascii "user", ascii "word"⟩) (.ok ()) []))
            (processEvents batchSteps) = login ++ others ∧
      (login = [] ∨ login = [.login (ascii "a001") (ascii "user") (ascii "word")]) ∧
      others <+: [.select (ascii "1") (ascii "INBOX"), .search (ascii "2") (ascii "ALL"),
        .fetch (ascii "3") numbers (ascii "BODY[]")] := by
  obtain ⟨x, hrun⟩ : ∃ x, run (Process.step some (ascii "out")) (.start .new (fun _ => none)
      (main batchOptions (.ok ⟨ascii "user", ascii "word"⟩) (.ok ()) []))
        (processEvents batchSteps) = some x := Option.isSome_iff_exists.mp (by decide +kernel)
  exact ⟨x, hrun, batch_commands some (ascii "out") (fun _ => none) batchOptions _ [] _ x rfl hrun⟩

end Imapcl
