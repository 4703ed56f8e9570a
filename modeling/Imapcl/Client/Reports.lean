import Imapcl.Client.Machine
import Imapcl.Response.Decimal

set_option relaxedAutoImplicit false
set_option autoImplicit false

/-!
# Reports

A download reports how many messages it has asked for. The server may answer a FETCH with fewer
responses, if messages are gone since the search, or with more of them, and every FETCH response
that is taken becomes a message. The non-interactive mode reports how many messages it has.

## Main definitions

* `Imapcl.fetchedMessages`, `Imapcl.savedMessages` — what has been fetched and saved.
* `Imapcl.ReportTrue` — a number is that of the messages that have been fetched, and saved.
* `Imapcl.AnswersAll` — every FETCH is answered by as many FETCH responses as it asks for.

## Main results

* `Imapcl.length_fetched` — a fetch returns one message for each FETCH response that it takes.
* `Imapcl.report_true_iff` — the reports of downloads that are true.
* `Imapcl.batch_report_true` — the reports of the non-interactive mode are true.
-/

namespace Imapcl

open Machine Program

/-! ## Counting responses -/

/-- The number of FETCH responses. -/
def fetchCount (taken : List Response) : ℕ := taken.countP fun r => r.getType = .fetch

/-- A fetch that has taken the responses keeps one message for each FETCH response. -/
def Control.Counts (taken : List Response) : Control → Prop
  | .waiting (.fetch found) => found.length = fetchCount taken
  | .returned (.messages messages) => messages.length = fetchCount taken
  | .threw _ => True
  | .undefined => True
  | _ => False

/-- What has been fetched, and what a fetch keeps, is counted. -/
structure FetchCounted {File α : Type} (x : Process File α) : Prop where
  logged : ∀ sequenceSet onlyHeaders messages taken,
    ⟨⟨.call (.fetch sequenceSet onlyHeaders), .ok messages⟩, taken⟩ ∈ x.log →
      messages.length = fetchCount taken
  calling : ∀ sequenceSet onlyHeaders taken k,
    x.place = .calling (.fetch sequenceSet onlyHeaders) taken k → x.system.control.Counts taken

section Counting

variable {File α : Type} [DecidableEq File] {openFile : Bytes → Option File} {outputDir : Bytes}
  {x x' : Process File α} {e : ProcessEvent} {es : List ProcessEvent} {p : Client α} {σ : Session}
  {files : File → Option Bytes} {s s' : System} {taken : List Response}

/-- No pointer in a list is null if all messages are there. -/
lemma length_of_mapM_id {found : List (Option Bytes)} {messages : List Bytes}
    (h : found.mapM id = some messages) : messages.length = found.length := by
  induction found generalizing messages with
  | nil =>
    cases h
    rfl
  | cons d found ih =>
    cases d with
    | none => simp at h
    | some m =>
      simp only [List.mapM_cons, id_eq, Option.pure_def, Option.bind_eq_bind, Option.bind_some,
        Option.bind_eq_some_iff, Option.some.injEq] at h
      obtain ⟨messages', h', rfl⟩ := h
      rw [List.length_cons, List.length_cons, ih h']

/-- The beginning of a fetch. -/
lemma counts_begin (σ : Session) (sequenceSet : List UInt32) (onlyHeaders : Bool) :
    (begin σ (.fetch sequenceSet onlyHeaders)).control.Counts [] := by
  rw [begin]
  split
  · trivial
  · unfold send
    split
    · rfl
    · trivial

/-- A fetch with a response. -/
lemma counts_react (state : ImapState) {found : List (Option Bytes)} (r : Response)
    (h : found.length = fetchCount taken) :
    (react state r (.fetch found)).Counts (taken ++ [r]) := by
  have hcount : fetchCount (taken ++ [r]) = found.length + if r.getType = .fetch then 1 else 0 := by
    simp [fetchCount, h]
  rw [react]
  split
  · next htype =>
    rw [if_pos htype] at hcount
    rw [Control.Counts, hcount, List.length_append]
    rfl
  · next htype =>
    rw [if_neg htype, Nat.add_zero] at hcount
    split
    · exact hcount.symm
    · split
      · cases hmap : found.mapM id with
        | none => trivial
        | some messages => exact (length_of_mapM_id hmap).trans hcount.symm
      · obtain ⟨ex, hex⟩ := failWith_threw "FETCH Failed -> [" r
        rw [hex]
        trivial

/-- A step in the session while a fetch is called.

**Proof sketch.** A response that is taken is counted, and nothing else goes on with the fetch. -/
lemma counts_step {e : Event} (h : s.step e = some s') (hcall : ∀ c, e ≠ .call c)
    (hs : s.control.Counts taken) : s'.control.Counts (taken ++ takenBy s e) := by
  cases e with
  | call c => exact absurd rfl (hcall c)
  | transition =>
    obtain ⟨w, target, hmoving, -⟩ := step_transition_iff.mp h
    rw [hmoving] at hs
    exact absurd hs id
  | take =>
    obtain ⟨w, hw, ⟨-, -, ex, hex⟩ | ⟨r, rs, hlive, hqueue, rfl⟩⟩ := step_take_cases h
    · rw [hex]
      trivial
    · have htaken : takenBy s .take = [r] := by
        rw [ImapState.Terminal, not_or] at hlive
        simp only [takenBy, Session.waitForResponse, if_neg hlive.1, if_neg hlive.2, hqueue]
      rw [hw] at hs
      rw [htaken]
      cases w with
      | fetch found => exact counts_react s.session.state r hs
      | _ => exact absurd hs id
  | timeout =>
    obtain ⟨ex, rfl, -, -⟩ := step_timeout_cases h
    trivial
  | incoming r =>
    have htaken : takenBy s (.incoming r) = [] := rfl
    rw [← Option.some.inj h, htaken, List.append_nil]
    exact hs
  | failed =>
    have htaken : takenBy s .failed = [] := rfl
    rw [← Option.some.inj h, htaken, List.append_nil]
    exact hs

/-- What a fetch returns is counted. -/
lemma counts_answer {sequenceSet : List UInt32} {onlyHeaders : Bool} {control : Control}
    {messages : List Bytes} (hcontrol : control.Counts taken)
    (h : Call.answer (.fetch sequenceSet onlyHeaders) control = some (.ok messages)) :
    messages.length = fetchCount taken := by
  cases control with
  | returned v =>
    cases v with
    | messages m =>
      cases h
      exact hcontrol
    | _ => cases h
  | _ => cases h

/-- A step of the machine counts the FETCH responses. -/
lemma fetchCounted_step (h : x.step openFile outputDir e = some x') (hx : FetchCounted x) :
    FetchCounted x' := by
  rcases process_step_cases h with ⟨c, k, s, -, hplace, hs, rfl⟩ |
    ⟨i, k, r, files, -, hplace, hr, rfl⟩ | ⟨c, taken, k, r, -, hplace, hr, rfl⟩ |
    ⟨e', s, -, hcall, hs, rfl⟩
  · refine ⟨hx.logged, fun sequenceSet onlyHeaders taken k' hplace' => ?_⟩
    obtain ⟨rfl, rfl, -⟩ := Place.calling.inj hplace'
    obtain ⟨-, rfl⟩ := step_call_iff.mp hs
    exact counts_begin _ sequenceSet onlyHeaders
  · refine ⟨fun sequenceSet onlyHeaders messages taken hmem => ?_, nofun⟩
    rcases List.mem_append.mp hmem with hmem | hmem
    · exact hx.logged _ _ _ _ hmem
    · cases List.mem_singleton.mp hmem
      cases hr
  · refine ⟨fun sequenceSet onlyHeaders messages taken' hmem => ?_, nofun⟩
    rcases List.mem_append.mp hmem with hmem | hmem
    · exact hx.logged _ _ _ _ hmem
    · cases List.mem_singleton.mp hmem
      exact counts_answer (hx.calling _ _ _ _ hplace) hr
  · refine ⟨hx.logged, fun sequenceSet onlyHeaders taken k hplace => ?_⟩
    obtain ⟨before, hplace', rfl⟩ := Place.of_after_calling hplace
    exact counts_step hs hcall (hx.calling _ _ _ _ hplace')

/-- **Fetches.** In every run a fetch that has returned has taken one FETCH response for each
message.

**Proof sketch.** Every step counts the responses. -/
theorem length_fetched (h : run (Process.step openFile outputDir) (.start σ files p) es = some x) :
    FetchCounted x := by
  have hstart : FetchCounted (Process.start σ files p) := ⟨nofun, nofun⟩
  have hstep : ∀ (y : Process File α) e y', FetchCounted y → True →
      y.step openFile outputDir e = some y' → FetchCounted y' :=
    fun y e y' hy _ hstep => fetchCounted_step hstep hy
  exact invariant hstep hstart (fun _ _ _ _ _ _ => trivial) h

end Counting

/-! ## The log of a download -/

/-- The messages that an action has fetched. -/
def fetchedIn : Entry Action Action.Answer → List Bytes
  | ⟨.call (.fetch _ _), .ok messages⟩ => messages
  | _ => []

/-- The messages that an action has saved. -/
def savedIn : Entry Action Action.Answer → List Bytes
  | ⟨.saveMessages messages, .ok ()⟩ => messages
  | _ => []

/-- The messages that have been fetched. -/
def fetchedMessages (log : Log) : List Bytes := log.flatMap fetchedIn

/-- The messages that have been saved. -/
def savedMessages (log : Log) : List Bytes := log.flatMap savedIn

/-- A report of `n` messages is true: so many have been fetched, and so many have been saved. -/
structure ReportTrue (log : Log) (n : ℕ) : Prop where
  fetched : n = (fetchedMessages log).length
  saved : n = (savedMessages log).length

/-- Every FETCH has been answered by as many FETCH responses as it has asked for. -/
def AnswersAll (log : List Logged) : Prop :=
  ∀ e ∈ log, ∀ sequenceSet onlyHeaders, e.entry.action = .call (.fetch sequenceSet onlyHeaders) →
    fetchCount e.taken = sequenceSet.length

/-- The log of `selectNamed`, if it returns. -/
def selectedLog (mailbox : Bytes) : Log :=
  if mailbox ≠ [] then [⟨.call (.select mailbox), .ok ()⟩] else []

/-- What a download has done before it reports: it has found nothing, or it has fetched what it has
found and saved what it has fetched. -/
inductive Downloaded (onlyUnseen : Bool) (mailbox : Bytes) :
    Log → List UInt32 → List Bytes → Prop where
  | nothing : Downloaded onlyUnseen mailbox
      (selectedLog mailbox ++ [⟨.call (.search onlyUnseen), .ok []⟩]) [] []
  | messages (seqSet : List UInt32) (messages : List Bytes) (hset : seqSet ≠ []) :
      Downloaded onlyUnseen mailbox
        (selectedLog mailbox ++ [⟨.call (.search onlyUnseen), .ok seqSet⟩,
          ⟨.call (.fetch seqSet false), .ok messages⟩, ⟨.saveMessages messages, .ok ()⟩])
        seqSet messages

/-- Nothing has been printed. -/
def NoPrint (log : Log) : Prop := ∀ e ∈ log, ∀ text, e.action ≠ .print text

/-- If something has been printed, then it is the report of a download, at its end. -/
def ReportsLast (onlyUnseen : Bool) (what : String) (mailbox : Bytes) (log : Log) : Prop :=
  NoPrint log ∨ ∃ pre seqSet messages, Downloaded onlyUnseen mailbox pre seqSet messages ∧
    log = pre ++ [⟨.print (downloadReport what mailbox seqSet.length), ()⟩]

section Downloads

variable {onlyUnseen : Bool} {what : String} {mailbox : Bytes} {log : Log}
  {e : Entry Action Action.Answer} {seqSet : List UInt32} {messages : List Bytes}

/-- An entry that is not printed. -/
lemma NoPrint.concat (h : NoPrint log) (he : ∀ text, e.action ≠ .print text) :
    NoPrint (log ++ [e]) := by
  intro e' he'
  rcases List.mem_append.mp he' with he' | he'
  · exact h e' he'
  · rwa [List.mem_singleton.mp he']

/-- What a download keeps while it has printed nothing. -/
def beforeReport (onlyUnseen : Bool) (what : String) (mailbox : Bytes) :
    Contract Action Action.Answer :=
  .always (ReportsLast onlyUnseen what mailbox)

/-- A download reports at its end, or not at all.

**Proof sketch.** The log is built up along the function; nothing follows what is printed. -/
lemma respects_downloadMailbox_report : Respects (beforeReport onlyUnseen what mailbox)
    (fun log _ => ReportsLast onlyUnseen what mailbox log)
    (downloadMailbox onlyUnseen what mailbox) [] := by
  have hselect : Respects (beforeReport onlyUnseen what mailbox)
      (fun log r => NoPrint log ∧ (r = .ok () → log = selectedLog mailbox))
      (selectNamed mailbox) [] := by
    unfold selectNamed selectedLog
    split
    · refine respects_call.mpr ⟨Or.inl nofun, fun r _ => ⟨NoPrint.concat nofun nofun, ?_⟩⟩
      rintro rfl
      rfl
    · exact ⟨nofun, fun _ => rfl⟩
  refine hselect.bind (fun log _ ⟨hprint, hlog⟩ => ?_) fun _ _ h => Or.inl h.1
  obtain rfl := hlog rfl
  have hsearch : Respects (beforeReport onlyUnseen what mailbox)
      (fun log r => NoPrint log ∧ ∀ seqSet, r = .ok seqSet →
        log = selectedLog mailbox ++ [⟨.call (.search onlyUnseen), .ok seqSet⟩])
      (call (.search onlyUnseen)) (selectedLog mailbox) := by
    refine respects_call.mpr ⟨Or.inl hprint, fun r _ => ⟨hprint.concat nofun, ?_⟩⟩
    rintro seqSet rfl
    rfl
  refine hsearch.bind (fun log seqSet ⟨hprint, hlog⟩ => ?_) fun _ _ h => Or.inl h.1
  obtain rfl := hlog seqSet rfl
  refine Respects.bind (Q := fun log result => NoPrint log ∧ (result = .ok (.ok ()) →
    ∃ messages, Downloaded onlyUnseen mailbox log seqSet messages)) (Respects.attempt ?_)
    (fun log result ⟨hprint, hlog⟩ => ?_) fun _ _ h => Or.inl h.1
  · split
    · next hset =>
      have hfetch : Respects (beforeReport onlyUnseen what mailbox)
          (fun log r => NoPrint log ∧ ∀ messages, r = .ok messages →
            log = selectedLog mailbox ++ [⟨.call (.search onlyUnseen), .ok seqSet⟩,
              ⟨.call (.fetch seqSet false), .ok messages⟩])
          (call (.fetch seqSet false))
          (selectedLog mailbox ++ [⟨.call (.search onlyUnseen), .ok seqSet⟩]) := by
        refine respects_call.mpr ⟨Or.inl hprint, fun r _ => ⟨hprint.concat nofun, ?_⟩⟩
        rintro messages rfl
        rw [List.append_assoc, List.singleton_append]
      refine hfetch.bind (fun log messages ⟨hprint, hlog⟩ => ?_) fun _ _ h => ⟨h.1, nofun⟩
      obtain rfl := hlog messages rfl
      refine respects_save.mpr ⟨Or.inl hprint, fun r _ => ⟨hprint.concat nofun, fun hr => ?_⟩⟩
      cases hr
      rw [List.append_assoc]
      exact ⟨messages, .messages seqSet messages hset⟩
    · next hset =>
      obtain rfl := not_not.mp hset
      exact ⟨hprint, fun _ => ⟨[], .nothing⟩⟩
  · cases result with
    | error ex => exact ⟨Or.inl hprint, fun _ _ => Or.inl (hprint.concat nofun)⟩
    | ok _ =>
      obtain ⟨messages, hdownloaded⟩ := hlog rfl
      exact ⟨Or.inl hprint, fun _ _ => Or.inr ⟨log, seqSet, messages, hdownloaded, rfl⟩⟩

/-- The select prints nothing and fetches nothing. -/
lemma mem_selectedLog (he : e ∈ selectedLog mailbox) :
    e = ⟨.call (.select mailbox), .ok ()⟩ := by
  unfold selectedLog at he
  split at he
  · exact List.mem_singleton.mp he
  · cases he

/-- What has been fetched in two parts of a log. -/
lemma fetchedMessages_append (log log' : Log) :
    fetchedMessages (log ++ log') = fetchedMessages log ++ fetchedMessages log' :=
  List.flatMap_append

/-- What has been saved in two parts of a log. -/
lemma savedMessages_append (log log' : Log) :
    savedMessages (log ++ log') = savedMessages log ++ savedMessages log' :=
  List.flatMap_append

/-- Nothing is fetched or saved by the select. -/
lemma fetched_saved_selectedLog (mailbox : Bytes) : fetchedMessages (selectedLog mailbox) = [] ∧
    savedMessages (selectedLog mailbox) = [] := by
  unfold selectedLog
  split <;> exact ⟨rfl, rfl⟩

/-- A download prints nothing before its report. -/
lemma Downloaded.noPrint (h : Downloaded onlyUnseen mailbox log seqSet messages) :
    NoPrint log := by
  have hselect : NoPrint (selectedLog mailbox) := fun e he => by
    rw [mem_selectedLog he]
    nofun
  cases h with
  | nothing => exact hselect.concat nofun
  | messages =>
    intro e he
    rcases List.mem_append.mp he with he | he
    · exact hselect e he
    · simp only [List.mem_cons, List.not_mem_nil, or_false] at he
      rcases he with rfl | rfl | rfl <;> nofun

/-- A download has saved what it has fetched. -/
lemma Downloaded.fetched_saved (h : Downloaded onlyUnseen mailbox log seqSet messages) :
    fetchedMessages log = messages ∧ savedMessages log = messages := by
  obtain ⟨hfetched, hsaved⟩ := fetched_saved_selectedLog mailbox
  cases h with
  | nothing =>
    rw [fetchedMessages_append, savedMessages_append, hfetched, hsaved]
    exact ⟨rfl, rfl⟩
  | messages =>
    rw [fetchedMessages_append, savedMessages_append, hfetched, hsaved]
    simp [fetchedMessages, savedMessages, fetchedIn, savedIn]

/-- The only FETCH of a download is for what has been found. -/
lemma Downloaded.fetch (h : Downloaded onlyUnseen mailbox log seqSet messages) (he : e ∈ log)
    {sequenceSet : List UInt32} {onlyHeaders : Bool}
    (haction : e.action = .call (.fetch sequenceSet onlyHeaders)) :
    e = ⟨.call (.fetch seqSet false), .ok messages⟩ := by
  have hselect : e ∉ selectedLog mailbox := fun he => by
    rw [mem_selectedLog he] at haction
    cases haction
  cases h with
  | nothing =>
    rcases List.mem_append.mp he with he | he
    · exact absurd he hselect
    · rw [List.mem_singleton.mp he] at haction
      cases haction
  | messages =>
    have he' := (List.mem_append.mp he).resolve_left hselect
    simp only [List.mem_cons, List.not_mem_nil, or_false] at he'
    rcases he' with rfl | rfl | rfl
    · cases haction
    · rfl
    · cases haction

/-- A report determines its number. -/
lemma downloadReport_injective {n m : ℕ}
    (h : downloadReport what mailbox n = downloadReport what mailbox m) : n = m := by
  simp only [downloadReport, List.append_cancel_right_eq] at h
  rw [← numeralValue_decimal n, h, numeralValue_decimal]

end Downloads

/-! ## Reports -/

/-- **Reports.** In every run of a download, from any session and with any responses, the report of
`n` messages is true if and only if every FETCH has been answered by as many FETCH responses as it
has asked for. A download that has found nothing has no FETCH.

**Proof sketch.** The download reports the number of what it has found; a fetch returns one message
for each FETCH response that it takes, and exactly these messages are saved. -/
theorem report_true_iff {File : Type} [DecidableEq File] (openFile : Bytes → Option File)
    (outputDir : Bytes) (σ : Session) (files : File → Option Bytes) (onlyUnseen : Bool)
    (what : String) (mailbox : Bytes) (es : List ProcessEvent) (x : Process File Unit)
    (h : run (Process.step openFile outputDir)
      (.start σ files (downloadMailbox onlyUnseen what mailbox)) es = some x) (n : ℕ)
    (hprint : ⟨.print (downloadReport what mailbox n), ()⟩ ∈ x.entries) :
    ReportTrue x.entries n ↔ AnswersAll x.log := by
  have hlog : ReportsLast onlyUnseen what mailbox x.entries :=
    respects_downloadMailbox_report.invariant (path_of_run h)
  obtain ⟨pre, seqSet, messages, hdownloaded, hentries⟩ :=
    hlog.resolve_left fun hno => hno _ hprint _ rfl
  obtain rfl : n = seqSet.length := by
    rw [hentries] at hprint
    rcases List.mem_append.mp hprint with hpre | hlast
    · exact absurd rfl (hdownloaded.noPrint _ hpre _)
    · have htext := List.mem_singleton.mp hlast
      simp only [Entry.mk.injEq, Action.print.injEq] at htext
      exact downloadReport_injective htext.1
  have hcounts : fetchedMessages x.entries = messages ∧ savedMessages x.entries = messages := by
    obtain ⟨hfetched, hsaved⟩ := hdownloaded.fetched_saved
    rw [hentries, fetchedMessages_append, savedMessages_append, hfetched, hsaved]
    exact ⟨List.append_nil _, List.append_nil _⟩
  have htrue : ReportTrue x.entries seqSet.length ↔ seqSet.length = messages.length := by
    constructor
    · rintro ⟨hfetched, -⟩
      rwa [hcounts.1] at hfetched
    · intro hlen
      exact ⟨by rw [hcounts.1, hlen], by rw [hcounts.2, hlen]⟩
  have hfetch : ∀ e ∈ x.log, ∀ sequenceSet onlyHeaders,
      e.entry.action = .call (.fetch sequenceSet onlyHeaders) →
        e.entry = ⟨.call (.fetch seqSet false), .ok messages⟩ := by
    intro e he sequenceSet onlyHeaders haction
    have hmem : e.entry ∈ x.entries := List.mem_map_of_mem he
    rw [hentries] at hmem
    rcases List.mem_append.mp hmem with hpre | hlast
    · exact hdownloaded.fetch hpre haction
    · rw [List.mem_singleton.mp hlast] at haction
      cases haction
  have hcounted := length_fetched h
  rw [htrue]
  constructor
  · intro hlen e he sequenceSet onlyHeaders haction
    obtain ⟨entry, taken⟩ := e
    obtain rfl := hfetch _ he sequenceSet onlyHeaders haction
    cases haction
    rw [← hcounted.logged _ _ _ _ he, hlen]
  · intro hall
    cases hdownloaded with
    | nothing => rfl
    | messages hset =>
      have hmem : ⟨.call (.fetch seqSet false), .ok messages⟩ ∈ x.entries := by simp [hentries]
      obtain ⟨⟨entry, taken⟩, he, rfl⟩ := List.mem_map.mp hmem
      rw [hcounted.logged _ _ _ _ he, hall _ he seqSet false rfl]

/-- The steps of a download of two messages in a selected mailbox, where the FETCH is answered by
the given responses. -/
def downloadSteps (responses : List Response) : List ProcessEvent :=
  [.act, .session (.incoming (.search [1, 2])), .session (.incoming (.status .ok (ascii "1") [])),
    .session .take, .session .take, .answer, .act] ++
    (responses ++ [Response.status .ok (ascii "2") []]).map (fun r => .session (.incoming r)) ++
    List.replicate (responses.length + 1) (.session .take) ++ [.answer, .act, .act]

/-- Both messages are there. -/
lemma exists_run_download : ∃ x : Process Bytes Unit, run (Process.step some (ascii "mail"))
    (.start selectedSession (fun _ => none) (downloadAll []))
    (downloadSteps [.fetch (ascii "Date: x\r\n"), .fetch (ascii "Date: y\r\n")]) = some x ∧
      ⟨.print (downloadReport " messages " [] 2), ()⟩ ∈ x.entries :=
  ⟨_, rfl, List.mem_of_getElem? (i := 3) rfl⟩

/-- Two messages that are found and fetched. -/
theorem report_true_iff_two : ∃ x, run (Process.step some (ascii "mail"))
      (.start selectedSession (fun _ => none) (downloadMailbox false " messages " []))
      (downloadSteps [.fetch (ascii "Date: x\r\n"), .fetch (ascii "Date: y\r\n")]) = some x ∧
    ⟨.print (downloadReport " messages " [] 2), ()⟩ ∈ x.entries ∧
      (ReportTrue x.entries 2 ↔ AnswersAll x.log) := by
  obtain ⟨x, hx, hprint⟩ := exists_run_download
  exact ⟨x, hx, hprint, report_true_iff some (ascii "mail") selectedSession (fun _ => none) false
    " messages " [] _ x hx 2 hprint⟩

/-- Two messages that are found, of which one is gone when they are fetched: two are reported. -/
theorem not_report_true : ∃ x, run (Process.step some (ascii "mail"))
      (.start selectedSession (fun _ => none) (downloadAll []))
      (downloadSteps [.fetch (ascii "Date: x\r\n")]) = some x ∧
    ⟨.print (downloadReport " messages " [] 2), ()⟩ ∈ x.entries ∧ ¬ ReportTrue x.entries 2 := by
  refine ⟨_, rfl, List.mem_of_getElem? (i := 3) rfl, fun h => ?_⟩
  exact absurd h.fetched (by decide +kernel)

/-! ## The non-interactive mode -/

/-- What has been printed is the report of what has been fetched. -/
def ReportsFetched (o : Options) (log : Log) : Prop :=
  ∀ e ∈ log, ∀ text, e.action = .print text →
    text = fetchedReport o (fetchedMessages log).length ∨ text = noMessagesReport o

section Batch

variable {o : Options} {creds : Credentials} {log : Log} {e : Entry Action Action.Answer}

/-- Before something is printed. -/
lemma NoPrint.reportsFetched (h : NoPrint log) : ReportsFetched o log :=
  fun e he text htext => absurd htext (h e he text)

/-- An action that fetches and prints nothing. -/
lemma ReportsFetched.concat (h : ReportsFetched o log) (he : ∀ text, e.action ≠ .print text)
    (hfetched : fetchedIn e = []) : ReportsFetched o (log ++ [e]) := by
  have hmessages : fetchedMessages (log ++ [e]) = fetchedMessages log := by
    rw [fetchedMessages_append]
    simp [fetchedMessages, hfetched]
  intro e' he' text htext
  rw [hmessages]
  rcases List.mem_append.mp he' with he' | he'
  · exact h e' he' text htext
  · rw [List.mem_singleton.mp he'] at htext
    exact absurd htext (he text)

/-- What is printed after the messages have been fetched. -/
lemma NoPrint.print {text : Bytes} (h : NoPrint log)
    (htext : text = fetchedReport o (fetchedMessages log).length ∨ text = noMessagesReport o) :
    ReportsFetched o (log ++ [⟨.print text, ()⟩]) := by
  have hmessages : fetchedMessages (log ++ [⟨.print text, ()⟩]) = fetchedMessages log := by
    rw [fetchedMessages_append]
    exact List.append_nil _
  intro e he text' htext'
  rw [hmessages]
  rcases List.mem_append.mp he with he | he
  · exact absurd htext' (h e he text')
  · rw [List.mem_singleton.mp he] at htext'
    rwa [← Action.print.inj htext']

/-- The set-up fetches and prints nothing, whether it returns or throws. -/
lemma respects_setUp_report : Respects (.always (ReportsFetched o))
    (fun log _ => NoPrint log ∧ fetchedMessages log = []) (setUp creds o.mailboxName) [] := by
  have hquiet : ∀ e : Entry Action Action.Answer, e.action.OfSetUp →
      (∀ text, e.action ≠ .print text) ∧ fetchedIn e = [] := by
    rintro ⟨i, r⟩ hi
    cases i with
    | call c =>
      cases c with
      | receiveGreeting | login | select => exact ⟨nofun, rfl⟩
      | _ => exact absurd hi id
    | _ => exact absurd hi id
  refine (only_setUp ..).respects (fun log e he ⟨hprint, hfetched⟩ => ?_)
    (fun _ _ _ hlog => hlog.1.reportsFetched) ⟨nofun, rfl⟩
  refine ⟨hprint.concat (hquiet e he).1, ?_⟩
  rw [fetchedMessages_append, hfetched]
  simp [fetchedMessages, (hquiet e he).2]

/-- The non-interactive mode prints the number of what it has fetched.

**Proof sketch.** The set-up and the search fetch nothing, and the messages are those of the only
FETCH, if there is one. -/
lemma respects_mainBatch_report : Respects (.always (ReportsFetched o))
    (fun log _ => ReportsFetched o log) (mainBatch o creds) [] := by
  refine Respects.bind (Q := fun log result => NoPrint log ∧ ∀ messages,
    result = .ok (.ok messages) → fetchedMessages log = messages) (Respects.attempt ?_)
    (fun log result ⟨hprint, hmessages⟩ => ?_) fun _ _ h => h.1.reportsFetched
  · refine respects_setUp_report.bind (fun log _ ⟨hprint, hfetched⟩ => ?_) fun _ _ h => ⟨h.1, nofun⟩
    have hsearch : Respects (.always (ReportsFetched o))
        (fun log _ => NoPrint log ∧ fetchedMessages log = [])
        (call (.search o.onlyUnseen)) log := by
      refine respects_call.mpr ⟨hprint.reportsFetched, fun r _ => ⟨hprint.concat nofun, ?_⟩⟩
      rw [fetchedMessages_append, hfetched]
      rfl
    refine hsearch.bind (fun log seqSet ⟨hprint, hfetched⟩ => ?_) fun _ _ h => ⟨h.1, by nofun⟩
    split
    · refine respects_call.mpr ⟨hprint.reportsFetched, fun r _ => ⟨hprint.concat nofun, ?_⟩⟩
      intro messages hr
      cases hr
      rw [fetchedMessages_append, hfetched]
      exact List.append_nil messages
    · refine ⟨hprint, fun messages hr => ?_⟩
      cases hr
      exact hfetched
  · cases result with
    | error ex =>
      exact ⟨hprint.reportsFetched, fun _ _ => (hprint.concat (by nofun)).reportsFetched⟩
    | ok messages =>
      have hlen : fetchedMessages log = messages := hmessages messages rfl
      change Respects _ _ (if messages.length ≠ 0 then _ else _) log
      split
      · refine ⟨hprint.reportsFetched, fun _ _ => ?_⟩
        have hreport := hprint.print (o := o) (Or.inl (by rw [hlen]))
        have hsave : Respects (.always (ReportsFetched o)) (fun log _ => ReportsFetched o log)
            (attempt (save messages)) (log ++ [⟨.print (fetchedReport o messages.length), ()⟩]) :=
          Respects.attempt (respects_save.mpr ⟨hreport, fun r _ => hreport.concat nofun rfl⟩)
        refine hsave.bind (fun log result hreport => ?_) fun _ _ h => h
        cases result with
        | error ex => exact ⟨hreport, fun _ _ => hreport.concat nofun rfl⟩
        | ok _ => exact hreport
      · exact ⟨hprint.reportsFetched, fun _ _ => hprint.print (Or.inr rfl)⟩

/-- **The non-interactive mode.** A number of messages that is reported is that of the messages that
have been fetched. -/
theorem batch_report_true {q : Client ℕ} (h : Path (mainBatch o creds) log q) {n : ℕ}
    (hprint : ⟨.print (fetchedReport o n), ()⟩ ∈ log) : n = (fetchedMessages log).length := by
  have hlog := respects_mainBatch_report.invariant h
  have hfetched : ∀ m : ℕ, (fetchedReport o m)[2]? = some (byte 'F') := fun m => rfl
  rcases hlog _ hprint _ rfl with htext | htext
  · simp only [fetchedReport, List.append_cancel_right_eq, List.append_cancel_left_eq] at htext
    rw [← numeralValue_decimal n, htext, numeralValue_decimal]
  · have hno : (noMessagesReport o)[2]? = some (byte 'N') := rfl
    rw [← htext, hfetched] at hno
    exact absurd hno (by decide)

end Batch

end Imapcl
