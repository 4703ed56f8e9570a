import Imapcl.Client.Dispatch
import Imapcl.Client.Reports
import Imapcl.World.Queue

set_option relaxedAutoImplicit false
set_option autoImplicit false

/-!
# From the server to the files

What the program writes to its files. A `fetch` returns the data of the FETCH responses that it has
taken, one for each and in their order; only what a `fetch` has returned is saved; and the data of a
FETCH response stands in the bytes received. So a file that the program has written holds a part of
what the server has sent, with a newline, under a name that is made from this part.

## Main definitions

* `Imapcl.fetchData` — the data of the FETCH responses among responses.
* `Imapcl.savingFetched` — the contract of a program that saves only what it has fetched.
* `Imapcl.savedLists` — the lists of messages that a log saves.

## Main results

* `Imapcl.operations_of_run` — the rule for properties of operations.
* `Imapcl.fetched_of_run` — what a `fetch` returns.
* `Imapcl.respects_main` — `main` saves only what it has fetched.
* `Imapcl.files_of_run` — the files after a run.
* `Imapcl.files_from_server` — what a file holds.
-/

namespace Imapcl

open Machine Program

/-! ## Operations -/

section Operations

variable {File α : Type} [DecidableEq File] {openFile : Bytes → Option File} {outputDir : Bytes}
  {x x' : Process File α} {es : List ProcessEvent} {p : Client α} {σ : Session}
  {files : File → Option Bytes} {I : Call → List Response → Control → Prop}

/-- Every operation of a process has the property: the one that is called, and those that have
ended. -/
structure Operations (I : Call → List Response → Control → Prop) (x : Process File α) : Prop where
  calling : ∀ c taken k, x.place = .calling c taken k → I c taken x.system.control
  logged : ∀ (c : Call) (r : Except StdException c.Result) taken,
    ⟨⟨.call c, r⟩, taken⟩ ∈ x.log → ∃ control, I c taken control ∧ c.answer control = some r

/-- **Operations.** A property of an operation, the responses that it has taken and its place, which
holds where the operation begins and is kept by the steps in the session, holds of all operations of
a run.

**Proof sketch.** Induction on the run. -/
theorem operations_of_run (hbegin : ∀ σ c, I c [] (begin σ c).control)
    (hstep : ∀ c taken s e s', I c taken s.control → System.step s e = some s' →
      (∀ c, e ≠ .call c) → I c (taken ++ takenBy s e) s'.control)
    (h : run (Process.step openFile outputDir) (.start σ files p) es = some x) :
    Operations I x := by
  have hstart : Operations I (Process.start σ files p) :=
    ⟨fun _ _ _ hplace => (nomatch hplace), fun _ _ _ hmem => absurd hmem List.not_mem_nil⟩
  refine invariant (I := fun y : Process File α => Operations I y) (C := fun _ _ => True) ?_ hstart
    (fun _ _ _ _ _ _ => trivial) h
  intro y e y' hy _ hstep'
  rcases process_step_cases hstep' with ⟨c, k, s, -, hplace, hs, rfl⟩ |
    ⟨i, k, r, files, -, hplace, hr, rfl⟩ | ⟨c, taken, k, r, -, hplace, hr, rfl⟩ |
    ⟨e', s, -, hcall, hs, rfl⟩
  · refine ⟨fun c' taken k' hplace' => ?_, hy.logged⟩
    obtain ⟨rfl, rfl, -⟩ := Place.calling.inj hplace'
    obtain ⟨-, rfl⟩ := step_call_iff.mp hs
    exact hbegin _ c
  · refine ⟨nofun, fun c r' taken hmem => ?_⟩
    rcases List.mem_append.mp hmem with hmem | hmem
    · exact hy.logged c r' taken hmem
    · cases List.mem_singleton.mp hmem
      cases hr
  · refine ⟨nofun, fun c' r' taken' hmem => ?_⟩
    rcases List.mem_append.mp hmem with hmem | hmem
    · exact hy.logged c' r' taken' hmem
    · cases List.mem_singleton.mp hmem
      exact ⟨_, hy.calling c taken k hplace, hr⟩
  · refine ⟨fun c taken k hplace => ?_, hy.logged⟩
    obtain ⟨before, hplace', rfl⟩ := Place.of_after_calling hplace
    exact hstep c before _ _ _ (hy.calling c before k hplace') hs hcall

end Operations

/-! ## What a fetch returns -/

/-- The data of the FETCH responses, each of which is null where the cast fails. -/
def fetchData (rs : List Response) : List (Option Bytes) :=
  (rs.filter fun r => r.getType = .fetch).map asFetch

/-- The place of a `fetch` that has taken the responses: it keeps the data of the FETCH responses,
and returns it. -/
def Control.Holds (taken : List Response) : Control → Prop
  | .waiting (.fetch found) => found = fetchData taken
  | .returned (.messages messages) => messages.map some = fetchData taken
  | .threw _ => True
  | .undefined => True
  | _ => False

section Fetch

variable {taken : List Response} {found : List (Option Bytes)} {messages : List Bytes}

/-- The pointers in a list none of which is null. -/
lemma map_some_of_mapM_id (h : found.mapM id = some messages) : messages.map some = found := by
  induction found generalizing messages with
  | nil =>
    cases h
    rfl
  | cons d found ih =>
    cases d with
    | none => simp at h
    | some m =>
      simp only [List.mapM_cons, id_eq, Option.pure_def, Option.bind_eq_bind, Option.bind_some,
        Option.bind_eq_some_iff, Option.some.injEq] at h
      obtain ⟨messages', h', rfl⟩ := h
      rw [List.map_cons, ih h']

/-- A response that is taken adds its data. -/
lemma fetchData_concat (taken : List Response) (r : Response) : fetchData (taken ++ [r]) =
    if r.getType = .fetch then fetchData taken ++ [asFetch r] else fetchData taken := by
  by_cases hr : r.getType = .fetch <;> simp [fetchData, hr]

/-- The beginning of a fetch. -/
lemma holds_begin (σ : Session) (sequenceSet : List UInt32) (onlyHeaders : Bool) :
    (begin σ (.fetch sequenceSet onlyHeaders)).control.Holds [] := by
  rw [begin]
  split
  · trivial
  · unfold send
    split
    · rfl
    · trivial

/-- A fetch with a response. -/
lemma holds_react (state : ImapState) (r : Response) (h : found = fetchData taken) :
    (react state r (.fetch found)).Holds (taken ++ [r]) := by
  have hdata := fetchData_concat taken r
  rw [← h] at hdata
  rw [react]
  split
  · next htype =>
    rw [if_pos htype] at hdata
    exact hdata.symm
  · next htype =>
    rw [if_neg htype] at hdata
    split
    · exact hdata.symm
    · split
      · cases hmap : found.mapM id with
        | none => trivial
        | some messages => exact (map_some_of_mapM_id hmap).trans hdata.symm
      · obtain ⟨ex, hex⟩ := failWith_threw "FETCH Failed -> [" r
        rw [hex]
        trivial

/-- A step in the session while a fetch is called. -/
lemma holds_step {s s' : System} {e : Event} (h : s.step e = some s')
    (hcall : ∀ c, e ≠ .call c) (hs : s.control.Holds taken) :
    s'.control.Holds (taken ++ takenBy s e) := by
  rcases session_step_cases h hcall with ⟨w, target, -, hmoving, -⟩ |
    ⟨w, ex, -, -, -, rfl⟩ | ⟨w, r, rs, -, hw, -, -, htaken, rfl⟩ | ⟨r, rfl, rfl⟩ | ⟨rfl, rfl⟩
  · rw [hmoving] at hs
    exact hs.elim
  · trivial
  · rw [hw] at hs
    rw [htaken]
    cases w with
    | fetch found => exact holds_react s.session.state r hs
    | _ => exact hs.elim
  · rw [show takenBy s (.incoming r) = [] from rfl, List.append_nil]
    exact hs
  · rw [show takenBy s .failed = [] from rfl, List.append_nil]
    exact hs

variable {File α : Type} [DecidableEq File] {openFile : Bytes → Option File} {outputDir : Bytes}
  {x : Process File α} {es : List ProcessEvent} {p : Client α} {σ : Session}
  {files : File → Option Bytes}

/-- **Fetches.** In every run a `fetch` that has returned has returned the data of the FETCH
responses that it has taken, in their order. -/
theorem fetched_of_run (h : run (Process.step openFile outputDir) (.start σ files p) es = some x)
    {sequenceSet : List UInt32} {onlyHeaders : Bool}
    (hlog : ⟨⟨.call (.fetch sequenceSet onlyHeaders), .ok messages⟩, taken⟩ ∈ x.log) :
    messages.map some = fetchData taken := by
  have hall : Operations (fun c taken control => ∀ sequenceSet onlyHeaders,
      c = .fetch sequenceSet onlyHeaders → control.Holds taken) x := by
    refine operations_of_run ?_ ?_ h
    · rintro σ c sequenceSet onlyHeaders rfl
      exact holds_begin σ sequenceSet onlyHeaders
    · intro c taken s e s' hc hs hcall sequenceSet onlyHeaders heq
      exact holds_step hs hcall (hc sequenceSet onlyHeaders heq)
  obtain ⟨control, hcontrol, hanswer⟩ := hall.logged _ _ _ hlog
  have hholds := hcontrol _ _ rfl
  cases control with
  | returned v =>
    cases v with
    | messages messages' =>
      cases hanswer
      exact hholds
    | _ => cases hanswer
  | _ => cases hanswer

/-- A message that a `fetch` has returned is the data of a response that the user's thread has
taken. -/
lemma mem_taken_of_fetched
    (h : run (Process.step openFile outputDir) (.start σ files p) es = some x)
    {sequenceSet : List UInt32} {onlyHeaders : Bool} {m : Bytes}
    (hlog : ⟨.call (.fetch sequenceSet onlyHeaders), .ok messages⟩ ∈ x.entries)
    (hm : m ∈ messages) : .fetch m ∈ x.taken := by
  obtain ⟨⟨entry, taken⟩, hmem, rfl⟩ := List.mem_map.mp hlog
  have hdata : some m ∈ fetchData taken := by
    rw [← fetched_of_run h hmem]
    exact List.mem_map_of_mem hm
  obtain ⟨r, hr, hfetch⟩ := List.mem_map.mp hdata
  have hmemr : r ∈ x.taken :=
    List.mem_append_left _ (List.mem_flatMap.mpr ⟨_, hmem, List.mem_of_mem_filter hr⟩)
  cases r with
  | fetch m' => exact Option.some.inj hfetch ▸ hmemr
  | _ => cases hfetch

end Fetch

/-! ## What is saved -/

/-- The messages have been fetched. -/
def Obtained (messages : List Bytes) (log : Log) : Prop :=
  ∃ sequenceSet onlyHeaders, ⟨.call (.fetch sequenceSet onlyHeaders), .ok messages⟩ ∈ log

/-- The contract under which only what has been fetched is saved. -/
def savingFetched : Contract Action Action.Answer where
  allows _ _ := True
  demands log i := ∀ messages, i = .saveMessages messages → Obtained messages log

section Contract

variable {α : Type} {log : Log} {messages : List Bytes} {p : Client α}
  {Q : Log → Except StdException α → Prop}

/-- What has been fetched has been fetched. -/
lemma Obtained.append (h : Obtained messages log) (log' : Log) :
    Obtained messages (log ++ log') := by
  obtain ⟨sequenceSet, onlyHeaders, hmem⟩ := h
  exact ⟨sequenceSet, onlyHeaders, List.mem_append_left _ hmem⟩

/-- The actions that save nothing. -/
def Action.Unsaving : Action → Prop
  | .saveMessages _ => False
  | _ => True

/-- A program that saves nothing. -/
lemma respects_unsaving (h : Only Action.Unsaving p) :
    Respects savingFetched (fun _ _ => True) p log := by
  refine h.respects (I := fun _ => True) (fun _ _ _ _ => trivial) (fun log i hi _ => ?_) trivial
  rintro messages rfl
  exact hi.elim

/-- A call that saves nothing, as all do. -/
lemma respects_call_saving {c : Call} {Q : Log → Except StdException c.Result → Prop}
    (hQ : ∀ r, Q (log ++ [⟨.call c, r⟩]) r) : Respects savingFetched Q (call c) log :=
  respects_call.mpr ⟨nofun, fun r _ => hQ r⟩

/-- A fetch, followed by a program that may save what it returns. -/
lemma respects_fetch_bind {sequenceSet : List UInt32} {onlyHeaders : Bool}
    {f : List Bytes → Client α}
    (hf : ∀ log messages, Obtained messages log →
      Respects savingFetched (fun _ _ => True) (f messages) log) :
    Respects savingFetched (fun _ _ => True) (call (.fetch sequenceSet onlyHeaders) >>= f) log := by
  refine Respects.bind (Q := fun log r => ∀ messages, r = .ok messages → Obtained messages log)
    (respects_call_saving fun r messages hr => ?_) (fun log messages h => hf log messages (h _ rfl))
    fun _ _ _ => trivial
  rw [hr]
  exact ⟨sequenceSet, onlyHeaders, List.mem_append_right _ List.mem_cons_self⟩

/-- Messages that have been fetched are saved. -/
lemma respects_save_fetched (h : Obtained messages log) :
    Respects savingFetched (fun _ _ => True) (save messages) log := by
  refine respects_save.mpr ⟨fun messages' heq => ?_, fun _ _ => trivial⟩
  cases heq
  exact h

/-- A download saves what it fetches. -/
lemma respects_downloadMailbox_saving (onlyUnseen : Bool) (what : String) (mailbox : Bytes) :
    Respects savingFetched (fun _ _ => True) (downloadMailbox onlyUnseen what mailbox) log := by
  refine Respects.bind (Q := fun _ _ => True) (respects_unsaving ?_) (fun log _ _ => ?_)
    fun _ _ _ => trivial
  · unfold selectNamed
    split
    · exact only_call trivial
    · trivial
  refine Respects.bind (Q := fun _ _ => True) (respects_unsaving (only_call trivial))
    (fun log seqSet _ => ?_) fun _ _ _ => trivial
  refine Respects.bind (Q := fun _ _ => True) (Respects.attempt ?_) (fun log result _ => ?_)
    fun _ _ _ => trivial
  · split
    · exact respects_fetch_bind fun log messages h => respects_save_fetched h
    · trivial
  · apply respects_unsaving
    cases result <;> exact ⟨trivial, fun _ => trivial⟩

/-- A line of the user saves what it fetches. -/
lemma respects_processCommand_saving (input : Bytes) :
    Respects savingFetched (fun _ _ => True) (processCommand input) log := by
  rcases processCommand_cases input with hcommand | ⟨-, hcommand⟩ | ⟨c, name, -, hcommand⟩ |
    hcommand | hcommand
  · rw [hcommand]
    exact respects_unsaving ⟨trivial, fun _ => trivial⟩
  · rw [hcommand]
    exact respects_unsaving ((only_call trivial).bind fun _ => ⟨trivial, fun _ => trivial⟩)
  · rw [hcommand]
    cases c with
    | downloadNew => exact respects_downloadMailbox_saving _ _ name
    | downloadAll => exact respects_downloadMailbox_saving _ _ name
    | readNew =>
      apply respects_unsaving
      refine Only.bind ?_ fun _ => Only.bind (only_call trivial) fun seqSet =>
        Only.bind (Only.attempt (only_call trivial)) fun result => ?_
      · unfold selectNamed
        split
        · exact only_call trivial
        · trivial
      · cases result <;> exact ⟨trivial, fun _ => trivial⟩
  · rw [hcommand]
    trivial
  · rw [hcommand]
    exact respects_unsaving ⟨trivial, fun _ => trivial⟩

/-- A round of the loop saves what its line fetches. -/
lemma respects_replRound_saving {line : Option Bytes} {next : Client Unit}
    (hnext : ∀ log, Respects savingFetched (fun _ _ => True) next log) :
    Respects savingFetched (fun _ _ => True) (replRound line next) log := by
  refine Respects.perform_bind_iff.mpr ⟨nofun, fun state _ => ?_⟩
  split
  · trivial
  · refine (respects_printPrompt (I := fun _ => True) (fun _ _ _ _ => trivial)
      (fun log i hi _ => ?_) trivial).bind (fun log _ _ => ?_) fun _ _ _ => trivial
    · rintro messages rfl
      exact hi.elim
    · exact Respects.perform_bind_iff.mpr ⟨nofun, fun _ _ => hnext _⟩

/-- The interactive loop saves what its lines fetch. -/
lemma respects_replLoop_saving (inputs : List Bytes) :
    Respects savingFetched (fun _ _ => True) (replLoop inputs) log := by
  induction inputs generalizing log with
  | nil =>
    refine respects_replRound_saving fun log => respects_unsaving ?_
    exact (only_call trivial).bind fun _ => Only.bind ⟨trivial, fun _ => trivial⟩ fun _ =>
      ⟨trivial, fun _ => trivial⟩
  | cons input inputs ih =>
    refine respects_replRound_saving fun log => ?_
    exact (respects_processCommand_saving input).bind (fun log _ _ => ih) fun _ _ _ => trivial

/-- The set-up saves nothing. -/
lemma respects_setUp_saving (creds : Credentials) (mailbox : Bytes) :
    Respects savingFetched (fun _ _ => True) (setUp creds mailbox) log :=
  respects_unsaving ((only_call trivial).bind fun _ => (only_call trivial).bind fun _ =>
    only_call trivial)

/-- A failure saves nothing. -/
lemma respects_fail_saving (ex : StdException) :
    Respects savingFetched (fun _ _ => True) (fail ex) log :=
  respects_unsaving ⟨trivial, fun _ => trivial⟩

/-- The interactive mode saves what it fetches. -/
lemma respects_mainInteractive_saving (o : Options) (creds : Credentials) (inputs : List Bytes) :
    Respects savingFetched (fun _ _ => True) (mainInteractive o creds inputs) log := by
  refine (respects_setUp_saving creds o.mailboxName).bind (fun log _ _ => ?_) fun _ _ _ => trivial
  refine Respects.bind (Q := fun _ _ => True) (Respects.attempt ?_) (fun log result _ => ?_)
    fun _ _ _ => trivial
  · exact ⟨nofun, fun _ _ => respects_replLoop_saving inputs⟩
  · cases result with
    | error ex => exact respects_fail_saving ex
    | ok _ => trivial

/-- The other mode saves what it fetches. -/
lemma respects_mainBatch_saving (o : Options) (creds : Credentials) :
    Respects savingFetched (fun _ _ => True) (mainBatch o creds) log := by
  refine Respects.bind (Q := fun log result => ∀ messages, result = .ok (.ok messages) →
    messages = [] ∨ Obtained messages log) (Respects.attempt ?_) (fun log result hresult => ?_)
    fun _ _ _ => trivial
  · refine (respects_setUp_saving creds o.mailboxName).bind (fun log _ _ => ?_)
      fun _ _ _ => by nofun
    refine (respects_call_saving (Q := fun _ _ => True) fun _ => trivial).bind
      (fun log seqSet _ => ?_) fun _ _ _ => by nofun
    split
    · refine respects_call_saving fun r messages hr => Or.inr ?_
      cases hr
      exact ⟨seqSet, o.onlyHeaders, List.mem_append_right _ List.mem_cons_self⟩
    · intro messages hr
      cases hr
      exact Or.inl rfl
  · cases result with
    | error ex => exact respects_fail_saving ex
    | ok messages =>
      change Respects _ _ (if messages.length ≠ 0 then _ else _) log
      split
      · next hlen =>
        have hfetched := (hresult messages rfl).resolve_left fun hnil => hlen (by rw [hnil]; rfl)
        refine ⟨nofun, fun _ _ => ?_⟩
        have hsave : Respects savingFetched (fun _ _ => True) (attempt (save messages))
            (log ++ [⟨.print (fetchedReport o messages.length), ()⟩]) :=
          Respects.attempt (respects_save_fetched (hfetched.append _))
        refine hsave.bind (fun log result _ => ?_) fun _ _ h => h
        cases result with
        | error ex => exact respects_fail_saving ex
        | ok _ => trivial
      · exact respects_unsaving ⟨trivial, fun _ => trivial⟩

/-- **The contract.** `main` saves only what it has fetched, in both modes and whatever is answered.

**Proof sketch.** The rules of contracts, along the functions of the program. -/
theorem respects_main (o : Options) (creds : Except StdException Credentials)
    (server : Except StdException Unit) (inputs : List Bytes) :
    Respects savingFetched (fun _ _ => True) (main o creds server inputs) log := by
  unfold main
  split
  · exact respects_fail_saving _
  · trivial
  · split
    · exact respects_fail_saving _
    · split
      · exact respects_mainInteractive_saving _ _ _
      · exact respects_mainBatch_saving _ _

end Contract

/-! ## The files -/

/-- The lists of messages that a log saves, or tries to. -/
def savedLists (log : Log) : List (List Bytes) := log.filterMap fun e =>
  match e.action with
  | .saveMessages messages => some messages
  | _ => none

section Files

variable {File α : Type} [DecidableEq File] {openFile : Bytes → Option File} {outputDir : Bytes}
  {x : Process File α} {es : List ProcessEvent} {p : Client α} {σ : Session}
  {files : File → Option Bytes} {file : File} {messages : List Bytes}

/-- The files after a list of messages has been saved. -/
def saved (openFile : Bytes → Option File) (outputDir : Bytes) (files : File → Option Bytes)
    (messages : List Bytes) : File → Option Bytes :=
  (saveMessages openFile outputDir messages files).2

/-- **The files.** The files after a run are those of its saves, one after the other.

**Proof sketch.** Induction on the run; nothing else changes them. -/
theorem files_of_run (h : run (Process.step openFile outputDir) (.start σ files p) es = some x) :
    x.files = (savedLists x.entries).foldl (saved openFile outputDir) files := by
  refine invariant (I := fun y : Process File α =>
    y.files = (savedLists y.entries).foldl (saved openFile outputDir) files)
    (C := fun _ _ => True) ?_ rfl (fun _ _ _ _ _ _ => trivial) h
  intro y e y' hy _ hstep
  rcases process_step_cases hstep with ⟨c, k, s, -, -, -, rfl⟩ |
    ⟨i, k, r, files', -, -, hr, rfl⟩ | ⟨c, taken, k, r, -, -, -, rfl⟩ | ⟨e', s, -, -, -, rfl⟩
  · exact hy
  · rw [Process.entries_concat, savedLists, List.filterMap_append, List.foldl_append, ← savedLists,
      ← hy]
    cases i with
    | saveMessages messages => exact congrArg Prod.snd (Option.some.inj hr).symm
    | call c => cases hr
    | _ =>
      cases hr
      rfl
  · rw [Process.entries_concat, savedLists, List.filterMap_append, List.foldl_append, ← savedLists,
      ← hy]
    rfl
  · exact hy

/-- A file that a save has changed holds one of its messages. -/
lemma saved_changed (h : saved openFile outputDir files messages file ≠ files file) :
    ∃ m ∈ messages, target openFile outputDir m = some file ∧
      saved openFile outputDir files messages file = some (m ++ [lf]) := by
  induction messages generalizing files with
  | nil => exact absurd rfl h
  | cons m messages ih =>
    unfold saved at h ih ⊢
    cases htarget : target openFile outputDir m with
    | none =>
      obtain ⟨e, he⟩ := saveMessages_cons_of_none htarget
      rw [he] at h
      exact absurd rfl h
    | some f =>
      rw [saveMessages_cons_of_some htarget] at h ⊢
      by_cases hlater : (saveMessages openFile outputDir messages
          (Function.update files f (some (m ++ [lf])))).2 file =
        Function.update files f (some (m ++ [lf])) file
      · rw [hlater] at h ⊢
        by_cases hf : file = f
        · subst hf
          exact ⟨m, List.mem_cons_self, htarget, Function.update_self _ _ _⟩
        · rw [Function.update_of_ne hf] at h
          exact absurd rfl h
      · obtain ⟨m', hm', hrest⟩ := ih hlater
        exact ⟨m', List.mem_cons_of_mem m hm', hrest⟩

/-- A file that several saves have changed holds a message of one of them. -/
lemma foldl_saved_changed {lists : List (List Bytes)}
    (h : lists.foldl (saved openFile outputDir) files file ≠ files file) :
    ∃ messages ∈ lists, ∃ m ∈ messages, target openFile outputDir m = some file ∧
      lists.foldl (saved openFile outputDir) files file = some (m ++ [lf]) := by
  induction lists using List.reverseRecOn with
  | nil => exact absurd rfl h
  | append_singleton lists messages ih =>
    rw [List.foldl_append, List.foldl_cons, List.foldl_nil] at h ⊢
    by_cases hlast : saved openFile outputDir (lists.foldl (saved openFile outputDir) files)
        messages file = lists.foldl (saved openFile outputDir) files file
    · rw [hlast] at h ⊢
      obtain ⟨messages', hmem, hrest⟩ := ih h
      exact ⟨messages', List.mem_append_left _ hmem, hrest⟩
    · obtain ⟨m, hm, hrest⟩ := saved_changed hlast
      exact ⟨messages, List.mem_append_right _ List.mem_cons_self, m, hm, hrest⟩

/-- What a program under the contract has saved has been fetched. -/
lemma fetched_of_savedLists (hp : Respects savingFetched (fun _ _ => True) p [])
    (h : run (Process.step openFile outputDir) (.start σ files p) es = some x)
    (hmem : messages ∈ savedLists x.entries) : Obtained messages x.entries := by
  obtain ⟨e, he, hsome⟩ := List.mem_filterMap.mp hmem
  obtain ⟨pre, post, hlog⟩ := List.append_of_mem he
  have hdemand := hp.demanded (path_of_run h) (fun _ _ _ _ => trivial) hlog messages
  split at hsome
  · next messages' haction =>
    cases hsome
    rw [hlog]
    exact (hdemand haction).append _
  · cases hsome

end Files

/-! ## What a file holds -/

/-- The contents of an attribute stand in it, or those before it are kept. -/
lemma ReadAttribute.contents_infix (a : ReadAttribute) (m : Bytes) :
    a.contents m = m ∨ a.contents m <:+: a.wire := by
  cases a with
  | body sec ds content h =>
    exact Or.inr (List.IsSuffix.isInfix (List.suffix_append _ content))
  | _ => exact Or.inl rfl

/-- The contents of attributes stand in one of them, or those before them are kept. -/
lemma contents_infix (as : List ReadAttribute) (m : Bytes) :
    as.foldl ReadAttribute.contents m = m ∨
      ∃ a ∈ as, as.foldl ReadAttribute.contents m <:+: a.wire := by
  induction as generalizing m with
  | nil => exact Or.inl rfl
  | cons a as ih =>
    rw [List.foldl_cons]
    rcases ih (a.contents m) with hsame | ⟨a', ha', hin⟩
    · rw [hsame]
      exact (a.contents_infix m).imp_right fun hin => ⟨a, List.mem_cons_self, hin⟩
    · exact Or.inr ⟨a', List.mem_cons_of_mem a ha', hin⟩

/-- The data of a FETCH response stands in its word. -/
lemma Reading.fetch_infix {w v m : Bytes} (h : Reading w v (some (.fetch m))) : m <:+: w := by
  cases h with
  | fetch ds v hds first rest e he =>
    rcases contents_infix (first :: rest) [] with hnil | ⟨a, ha, hin⟩
    · rw [hnil]
      exact List.nil_infix
    · apply hin.trans
      rw [fetchWord]
      rcases List.mem_cons.mp ha with rfl | ha
      · exact ⟨ascii "* " ++ ds ++ ascii " FETCH (", _, by simp only [List.append_assoc]; rfl⟩
      · obtain ⟨pre, post, rfl⟩ := List.append_of_mem ha
        refine ⟨ascii "* " ++ ds ++ ascii " FETCH (" ++ first.wire ++
          (pre.flatMap fun a => ascii " " ++ a.wire) ++ ascii " ",
          (post.flatMap fun a => ascii " " ++ a.wire) ++ e ++ crlf, ?_⟩
        simp only [List.flatMap_append, List.flatMap_cons, List.append_assoc]

/-- A response that is read off bytes has a word among them. -/
lemma Delivered.exists_word {d t : Bytes} {ns : List Notice} {r : Response}
    (h : Delivered d ns t) (hr : .incoming r ∈ ns) :
    ∃ w v, w <:+: d ∧ Reading w v (some r) := by
  induction h with
  | nil t => cases hr
  | @incoming w u v t x ns hw hu h ih =>
    rcases List.mem_cons.mp hr with heq | hmem
    · cases heq
      exact ⟨w, u, (List.prefix_append w v).isInfix, hw⟩
    · obtain ⟨w', v', hin, hread⟩ := ih hmem
      exact ⟨w', v', hin.trans (List.suffix_append w v).isInfix, hread⟩
  | @failed v t ns skipped ex h ih =>
    obtain ⟨w', v', hin, hread⟩ := ih ((List.mem_cons.mp hr).resolve_left nofun)
    exact ⟨w', v', hin.trans (List.suffix_append skipped v).isInfix, hread⟩

/-- A response that the user's thread has taken has a word in the bytes that have been received. -/
lemma word_of_taken {File α : Type} [DecidableEq File] {openFile : Bytes → Option File}
    {outputDir : Bytes} {σ : Session} {files : File → Option Bytes} {p : Client α}
    {es : List WorldEvent} {x : World File α} {r : Response} (hqueue : σ.responseQueue = [])
    (h : run (World.step openFile outputDir) (.start σ files p) es = some x)
    (hfit : Receiver.Tests ⟨[], false⟩ (inputsRead es) fun d => d.length < 2 ^ 31)
    (htaken : r ∈ x.process.taken) :
    ∃ w v, w <:+: receivedBytes (inputsRead es) ∧ Reading w v (some r) := by
  have hheard : r ∈ responsesIn (noticesMade es) := by
    rw [← heard_of_run h]
    exact (retains_of_run hqueue (process_of_run h)).sublist.subset
      (List.mem_append_left _ htaken)
  have hnotice : .incoming r ∈ noticesMade es ++ x.pending := by
    obtain ⟨n, hn, hr⟩ := List.mem_filterMap.mp hheard
    cases n with
    | incoming r => exact List.mem_append_left _ (Option.some.inj hr ▸ hn)
    | failed ex => cases hr
  obtain ⟨t, hdelivered, -⟩ := Receiver.run_delivered _ _ hfit
  rw [receiver_of_run h] at hdelivered
  exact hdelivered.exists_word hnotice

/-- **Files.** In every run of the program, in either mode, with any server and any interleaving: a
file that has been changed holds, with a newline, the data of a FETCH response whose word, the data
in it, stands in the bytes that have been received; and it is the file that the name made from this
data opens.

**Proof sketch.** Files change only by saves, and `main` saves only what a `fetch` has returned.
This is the data of responses that the user's thread has taken, which come from the queue and are
read off the bytes. -/
theorem files_from_server {File : Type} [DecidableEq File] (openFile : Bytes → Option File)
    (outputDir : Bytes) (σ : Session) (files : File → Option Bytes) (o : Options)
    (creds : Except StdException Credentials) (server : Except StdException Unit)
    (inputs : List Bytes) (es : List WorldEvent) (x : World File ℕ) (hqueue : σ.responseQueue = [])
    (h : run (World.step openFile outputDir) (.start σ files (main o creds server inputs)) es =
      some x)
    (hfit : Receiver.Tests ⟨[], false⟩ (inputsRead es) fun d => d.length < 2 ^ 31)
    (file : File) (hfile : x.process.files file ≠ files file) :
    ∃ m w v, x.process.files file = some (m ++ [lf]) ∧
      target openFile outputDir m = some file ∧ Reading w v (some (.fetch m)) ∧ m <:+: w ∧
      w <:+: receivedBytes (inputsRead es) := by
  have hrun := process_of_run h
  rw [files_of_run hrun] at hfile ⊢
  obtain ⟨messages, hmessages, m, hm, htarget, hholds⟩ := foldl_saved_changed hfile
  obtain ⟨sequenceSet, onlyHeaders, hlog⟩ :=
    fetched_of_savedLists (respects_main o creds server inputs) hrun hmessages
  obtain ⟨w, v, hin, hread⟩ := word_of_taken hqueue h hfit (mem_taken_of_fetched hrun hlog hm)
  exact ⟨m, w, v, hholds, htarget, hread, hread.fetch_infix, hin⟩

/-- A mailbox with one message. -/
theorem files_from_server_batch : ∃ (x : World Bytes ℕ) (file : Bytes),
    run (World.step some (ascii "out")) (.start .new (fun _ => none)
        (main batchOptions (.ok ⟨ascii "user", ascii "word"⟩) (.ok ()) [])) batchSteps = some x ∧
      ∃ m w v, x.process.files file = some (m ++ [lf]) ∧
        target some (ascii "out") m = some file ∧ Reading w v (some (.fetch m)) ∧ m <:+: w ∧
        w <:+: receivedBytes (inputsRead batchSteps) := by
  have hrun : (run (World.step some (ascii "out")) (.start .new (fun _ => none)
      (main batchOptions (.ok ⟨ascii "user", ascii "word"⟩) (.ok ()) [])) batchSteps).map
        (fun x => x.process.files (ascii "out/73b72adcdd9c90f5_x.eml")) =
          some (some (ascii "Date: x\r\n\r\n\n")) := by
    decide +kernel
  obtain ⟨x, hx, hfile⟩ := Option.map_eq_some_iff.mp hrun
  exact ⟨x, _, hx, files_from_server some (ascii "out") .new (fun _ => none) _ _ _ [] batchSteps x
    rfl hx (Receiver.tests_of_received _ _ (by decide +kernel)) _ (by rw [hfile]; simp)⟩

end Imapcl
