import Imapcl.Client.Dispatch
import Imapcl.Client.Machine

set_option relaxedAutoImplicit false
set_option autoImplicit false

/-!
# Quitting

`QUIT` logs out and returns to the loop, which ends only at the end of the input or in the state
`SERVER_BYED`. A logout that has returned leaves the state `LOGOUT`.

## Main definitions

* `Imapcl.QuitReturned` — a line has been taken for `QUIT`, and the logout has returned.
* `Imapcl.NothingAfter`, `Imapcl.QuitQuits` — no line is read and no operation is called after that.
* `Imapcl.ByedAfterQuit` — the state that is read after that is `SERVER_BYED`.
* `Imapcl.LeavesLogout` — the state after a logout, while nothing else is done.

## Main results

* `Imapcl.state_after_logout` — unless the receiver fails, the state after a logout is `LOGOUT`.
* `Imapcl.quit_quits_iff` — the runs of the loop in which `QUIT` quits.
-/

namespace Imapcl

open Machine Program

/-! ## Logs -/

/-- A line has been taken for `QUIT`, and the logout has returned. -/
def QuitReturned (log : Log) : Prop :=
  ∃ pre line post, QuitLine line ∧
    log = pre ++ ⟨.getline (some line), ()⟩ :: ⟨.call .logout, .ok ()⟩ :: post

/-- There has been no logout. -/
def NoLogout (log : Log) : Prop := ∀ e ∈ log, e.action ≠ .call .logout

/-- What may be done after a log if `QUIT` quits and a logout is the last command. -/
def NothingAfter (log : Log) : Action → Prop
  | .call _ => NoLogout log
  | .getline _ => ¬ QuitReturned log
  | _ => True

/-- After a logout no operation is called, and after one for `QUIT` that has returned no line is
read. -/
structure QuitQuits {File α : Type} (x : Process File α) : Prop where
  logged : ∀ pre e post, x.entries = pre ++ e :: post → NothingAfter pre e.action
  calling : ∀ c taken k, x.place = .calling c taken k → NothingAfter x.entries (.call c)

/-- Whenever the state is read after a logout for `QUIT` has returned, it is `SERVER_BYED`. -/
def ByedAfterQuit (log : Log) : Prop :=
  ∀ pre state post, log = pre ++ ⟨.getState, state⟩ :: post → QuitReturned pre → state = .serverByed

section Logs

variable {log log' : Log} {e : Entry Action Action.Answer}

/-- A log that goes on. -/
lemma QuitReturned.append (h : QuitReturned log) (log' : Log) : QuitReturned (log ++ log') := by
  obtain ⟨pre, line, post, hline, rfl⟩ := h
  refine ⟨pre, line, post ++ log', hline, ?_⟩
  simp

/-- A logout for `QUIT` is a logout. -/
lemma NoLogout.not_quitReturned (h : NoLogout log) : ¬ QuitReturned log := by
  rintro ⟨pre, line, post, -, rfl⟩
  exact h ⟨.call .logout, .ok ()⟩ (by simp) rfl

/-- An entry that is not a logout. -/
lemma NoLogout.concat (h : NoLogout log) (he : e.action ≠ .call .logout) :
    NoLogout (log ++ [e]) := by
  intro e' he'
  rcases List.mem_append.mp he' with he' | he'
  · exact h e' he'
  · rwa [List.mem_singleton.mp he']

end Logs

/-! ## Programs -/

/-- An action of the commands with an optional mailbox: no logout, and nothing that only the loop
does. -/
def Action.Inner : Action → Prop
  | .call .logout => False
  | .getState => False
  | .getline _ => False
  | _ => True

/-- What the functions of the commands ask for. -/
lemma only_action (c : MailboxCommand) (name : Bytes) : Only Action.Inner (c.action name) := by
  have hdownload : ∀ i : Action, i.OfDownload → i.Inner := by
    intro i hi
    cases i with
    | call c => cases c <;> trivial
    | _ => trivial
  cases c with
  | downloadNew => exact (only_downloadMailbox _ _ name).mono hdownload
  | downloadAll => exact (only_downloadMailbox _ _ name).mono hdownload
  | readNew =>
    refine Only.bind ?_ fun _ => Only.bind (only_call trivial) fun seqSet => ?_
    · unfold selectNamed
      split
      · exact only_call trivial
      · trivial
    · refine Only.bind (Only.attempt (only_call trivial)) fun result => ?_
      cases result <;> exact ⟨trivial, fun _ => trivial⟩

/-! ## The contract -/

/-- The contract under which `QUIT` quits. -/
def quitting : Contract Action Action.Answer where
  allows log e := ∀ state, e = ⟨.getState, state⟩ → QuitReturned log → state = .serverByed
  demands := NothingAfter

section Contract

variable {log : Log} {mailbox : Bytes} {input : Bytes}

/-- Without a logout so far, anything may be done. -/
lemma NoLogout.nothingAfter (h : NoLogout log) (i : Action) : NothingAfter log i := by
  cases i with
  | call c => exact h
  | getline line => exact h.not_quitReturned
  | _ => trivial

/-- The function of a command does not log out. -/
lemma respects_action_quitting (c : MailboxCommand) (name : Bytes) (h : NoLogout log) :
    Respects quitting (fun log _ => NoLogout log) (c.action name) log := by
  refine (only_action c name).respects (fun log e he hlog => hlog.concat fun heq => ?_)
    (fun log i _ hlog => hlog.nothingAfter i) h
  rw [heq] at he
  exact he

/-- The prompt does not log out. -/
lemma respects_printPrompt_quitting (h : NoLogout log) :
    Respects quitting (fun log r => NoLogout log ∧ r = .ok ()) printPrompt log := by
  refine respects_printPrompt (fun log e he hlog => hlog.concat fun heq => ?_)
    (fun log i _ hlog => hlog.nothingAfter i) h
  rw [heq] at he
  exact he

/-- After a line has been read and worked off, there has been no logout, or one for `QUIT` has
returned. -/
lemma respects_processCommand_quitting (h : NoLogout log) :
    Respects quitting (fun log r => r = .ok () → NoLogout log ∨ QuitReturned log)
      (processCommand input) (log ++ [⟨.getline (some input), ()⟩]) := by
  have hline : NoLogout (log ++ [⟨.getline (some input), ()⟩]) := h.concat nofun
  rcases processCommand_cases input with hcommand | ⟨hquit, hcommand⟩ | ⟨c, name, -, hcommand⟩ |
    hcommand | hcommand
  · rw [hcommand]
    exact ⟨trivial, fun _ _ _ => Or.inl (hline.concat nofun)⟩
  · rw [hcommand]
    refine Respects.bind (Q := fun log r => r = .ok () → QuitReturned log)
      (respects_call.mpr ⟨hline, fun r _ hr => ?_⟩) (fun log _ hlog => ?_) nofun
    · rw [hr, List.append_assoc]
      exact ⟨log, input, [], hquit, rfl⟩
    · exact ⟨trivial, fun _ _ _ => Or.inr ((hlog rfl).append _)⟩
  · rw [hcommand]
    exact (respects_action_quitting c name hline).mono fun _ _ hlog _ => Or.inl hlog
  · rw [hcommand]
    exact fun _ => Or.inl hline
  · rw [hcommand]
    exact ⟨trivial, fun _ _ _ => Or.inl (hline.concat nofun)⟩

/-- A round of the loop. -/
lemma respects_replRound_quitting {line : Option Bytes} {next : Client Unit}
    (h : NoLogout log ∨ QuitReturned log)
    (hnext : ∀ log, NoLogout log →
      Respects quitting (fun _ _ => True) next (log ++ [⟨.getline line, ()⟩])) :
    Respects quitting (fun _ _ => True) (replRound line next) log := by
  refine Respects.perform_bind_iff.mpr ⟨trivial, fun state hallowed => ?_⟩
  by_cases hbyed : state = .serverByed
  · rw [if_pos hbyed]
    trivial
  · rw [if_neg hbyed]
    have hlog : NoLogout log := h.resolve_right fun hquit => hbyed (hallowed state rfl hquit)
    refine (respects_printPrompt_quitting (hlog.concat (by nofun))).bind
      (fun log _ ⟨hlog, _⟩ => ?_) fun _ _ _ => trivial
    exact Respects.perform_bind_iff.mpr ⟨hlog.not_quitReturned, fun _ _ => hnext log hlog⟩

/-- **The loop.** As long as there has been no logout, or after one for `QUIT`, the loop keeps the
contract.

**Proof sketch.** Induction on the lines. After a logout for `QUIT` the loop ends, because the state
is `SERVER_BYED`; otherwise there has been none, and the line that is read next is worked off. -/
theorem respects_replLoop_quitting (inputs : List Bytes) (h : NoLogout log ∨ QuitReturned log) :
    Respects quitting (fun _ _ => True) (replLoop inputs) log := by
  induction inputs generalizing log with
  | nil =>
    refine respects_replRound_quitting h fun log hlog => ?_
    refine Respects.bind (Q := fun _ _ => True) (respects_call.mpr ⟨?_, fun _ _ => trivial⟩)
      (fun _ _ _ => ?_) fun _ _ _ => trivial
    · exact hlog.concat nofun
    exact ⟨trivial, fun _ _ => ⟨trivial, fun _ _ => trivial⟩⟩
  | cons input inputs ih =>
    refine respects_replRound_quitting h fun log hlog => ?_
    exact (respects_processCommand_quitting hlog).bind (fun log _ hdone => ih (hdone rfl))
      fun _ _ _ => trivial

/-- In a run in which the state read after a logout for `QUIT` is `SERVER_BYED`, the answers are
allowed. -/
lemma ByedAfterQuit.allows (h : ByedAfterQuit log) : quitting.Allows [] log := by
  rintro pre e post hlog state rfl hquit
  exact h pre state post hlog hquit

end Contract

/-! ## The next line -/

/-- The state has been read after a logout for `QUIT` and was not `SERVER_BYED`, and no line has
been read yet. -/
def Prompting (log : Log) : Prop :=
  ∃ pre state post, log = pre ++ ⟨.getState, state⟩ :: post ∧ QuitReturned pre ∧
    state ≠ .serverByed ∧ ∀ e ∈ post, ∀ line, e.action ≠ .getline line

section Prompting

variable {log : Log} {e : Entry Action Action.Answer}

/-- An entry that is added to a log is the last one of its end. -/
lemma exists_concat_of_append_cons {α : Type} {l pre post : List α} {a b : α}
    (h : l ++ [a] = pre ++ b :: post) :
    (l = pre ∧ a = b ∧ post = []) ∨ ∃ post', l = pre ++ b :: post' ∧ post = post' ++ [a] := by
  rcases List.eq_nil_or_concat post with rfl | ⟨post', a', rfl⟩
  · obtain ⟨rfl, hab⟩ := List.append_inj' h rfl
    exact Or.inl ⟨rfl, List.head_eq_of_cons_eq hab, rfl⟩
  · rw [List.concat_eq_append, ← List.cons_append, ← List.append_assoc] at h
    obtain ⟨rfl, ha⟩ := List.append_inj' h rfl
    exact Or.inr ⟨post', rfl, by rw [List.concat_eq_append, List.head_eq_of_cons_eq ha]⟩

/-- Only a state that is read leads to the prompt. -/
lemma not_prompting_concat (h : ¬ Prompting log)
    (he : ∀ state, e = ⟨.getState, state⟩ → state = .serverByed) : ¬ Prompting (log ++ [e]) := by
  rintro ⟨pre, state, post, hlog, hquit, hstate, hpost⟩
  rcases exists_concat_of_append_cons hlog with ⟨-, rfl, -⟩ | ⟨post', rfl, rfl⟩
  · exact hstate (he state rfl)
  · exact h ⟨pre, state, post', rfl, hquit, hstate, fun e' he' => hpost e' (by simp [he'])⟩

/-- When a line has been read, the prompt is over. -/
lemma not_prompting_getline (line : Option Bytes) :
    ¬ Prompting (log ++ [⟨.getline line, ()⟩]) := by
  rintro ⟨pre, state, post, hlog, -, -, hpost⟩
  rcases exists_concat_of_append_cons hlog with ⟨-, he, -⟩ | ⟨post', -, rfl⟩
  · cases he
  · exact hpost ⟨.getline line, ()⟩ (by simp) line rfl

/-- What is done with a line does not read the state. -/
lemma only_processCommand (input : Bytes) :
    Only (fun i => i ≠ .getState) (processCommand input) := by
  rcases processCommand_cases input with hcommand | ⟨-, hcommand⟩ | ⟨c, name, -, hcommand⟩ |
    hcommand | hcommand
  · rw [hcommand]
    exact ⟨nofun, fun _ => trivial⟩
  · rw [hcommand]
    refine Only.bind ⟨nofun, fun r => Only.ofExcept r⟩ fun _ => ⟨nofun, fun _ => trivial⟩
  · rw [hcommand]
    refine (only_action c name).mono fun i hi hstate => ?_
    rw [hstate] at hi
    exact hi
  · rw [hcommand]
    trivial
  · rw [hcommand]
    exact ⟨nofun, fun _ => trivial⟩

/-- The contract that relies on nothing and requires nothing. -/
def trivialContract : Contract Action Action.Answer := ⟨fun _ _ => True, fun _ _ => True⟩

/-- A round of the loop. -/
lemma respects_replRound_trivial {line : Option Bytes} {next : Client Unit} (h : ¬ Prompting log)
    (hnext : ∀ log, ¬ Prompting log →
      Respects trivialContract (fun log _ => ¬ Prompting log) next log) :
    Respects trivialContract (fun log _ => ¬ Prompting log) (replRound line next) log := by
  refine Respects.perform_bind_iff.mpr ⟨trivial, fun state _ => ?_⟩
  by_cases hbyed : state = .serverByed
  · rw [if_pos hbyed]
    refine not_prompting_concat h fun state' heq => ?_
    cases heq
    exact hbyed
  · rw [if_neg hbyed]
    have hprompt : ∀ log, Respects trivialContract (fun _ r => True ∧ r = .ok ()) printPrompt log :=
      fun log => respects_printPrompt (fun _ _ _ _ => trivial) (fun _ _ _ _ => trivial) trivial
    refine (hprompt _).bind (fun log _ _ => ?_) fun _ _ ⟨_, hr⟩ => by cases hr
    exact Respects.perform_bind_iff.mpr ⟨trivial, fun _ _ => hnext _ (not_prompting_getline line)⟩

/-- The loop does not end before the line is read.

**Proof sketch.** Induction on the lines. -/
lemma respects_replLoop_trivial (inputs : List Bytes) (h : ¬ Prompting log) :
    Respects trivialContract (fun log _ => ¬ Prompting log) (replLoop inputs) log := by
  have honly : ∀ {α : Type} {p : Client α} {log : Log}, Only (fun i => i ≠ .getState) p →
      ¬ Prompting log → Respects trivialContract (fun log _ => ¬ Prompting log) p log := by
    intro α p log hp hlog
    refine hp.respects (fun log e he hlog => not_prompting_concat hlog fun state heq => ?_)
      (fun _ _ _ _ => trivial) hlog
    rw [heq] at he
    exact absurd rfl he
  induction inputs generalizing log with
  | nil =>
    refine respects_replRound_trivial h fun log hlog => honly ?_ hlog
    refine Only.bind ⟨nofun, fun r => Only.ofExcept r⟩ fun _ => ?_
    exact ⟨nofun, fun _ => ⟨nofun, fun _ => trivial⟩⟩
  | cons input inputs ih =>
    refine respects_replRound_trivial h fun log hlog => ?_
    exact (honly (only_processCommand input) hlog).bind (fun log _ hlog => ih hlog)
      fun _ _ hlog => hlog

end Prompting

/-! ## The state after a logout -/

/-- Since a logout has returned, nothing has been done but printing. -/
def JustLoggedOut (log : Log) : Prop :=
  ∃ pre post, log = pre ++ ⟨.call .logout, .ok ()⟩ :: post ∧
    ∀ e ∈ post, ∃ text, e.action = .print text

/-- A logout that has made its transition is in the state `LOGOUT`. -/
def InLogout (s : System) : Prop :=
  match s.control with
  | .moving w target => w = .logout ∧ target = .logout
  | .waiting w => w = .logout ∧ s.session.state = .logout
  | .returned _ => s.session.state = .logout
  | .threw _ => True
  | _ => False

/-- A logout leads to the state `LOGOUT`, in which the session still is when the state is read. -/
structure LeavesLogout {File α : Type} (x : Process File α) : Prop where
  calling : ∀ taken k, x.place = .calling .logout taken k → InLogout x.system
  after : ∀ p, x.place = .running p → JustLoggedOut x.entries →
    x.system.control.Free ∧ x.system.session.state = .logout
  read : ∀ pre state post, x.entries = pre ++ ⟨.getState, state⟩ :: post → JustLoggedOut pre →
    state = .logout

section Logout

variable {File α : Type} [DecidableEq File] {openFile : Bytes → Option File} {outputDir : Bytes}
  {x x' : Process File α} {e : ProcessEvent} {es : List ProcessEvent} {p : Client α} {σ : Session}
  {files : File → Option Bytes} {s s' : System} {log : Log}

/-- The last entry after a logout is the logout, or prints. -/
lemma justLoggedOut_concat {e : Entry Action Action.Answer} (h : JustLoggedOut (log ++ [e])) :
    e = ⟨.call .logout, .ok ()⟩ ∨ (∃ text, e.action = .print text) ∧ JustLoggedOut log := by
  obtain ⟨pre, post, hlog, hpost⟩ := h
  rcases exists_concat_of_append_cons hlog with ⟨-, he, -⟩ | ⟨post', rfl, rfl⟩
  · exact Or.inl he
  · exact Or.inr ⟨hpost e (by simp), pre, post', rfl, fun e' he' => hpost e' (by simp [he'])⟩

/-- A response in the state `LOGOUT`. -/
lemma state_incoming_logout (r : Response) (h : σ.state = .logout) :
    (σ.incoming r).state = .logout := by
  rw [incoming_push fun hbye => hbye.2 h]
  exact h

/-- A logout while the receiver does not fail. -/
lemma inLogout_step {e : Event} (h : s.step e = some s') (hcall : ∀ c, e ≠ .call c)
    (hfailed : e ≠ .failed) (hs : InLogout s) : InLogout s' := by
  unfold InLogout at hs
  cases e with
  | call c => exact absurd rfl (hcall c)
  | transition =>
    obtain ⟨w, target, hmoving, rfl⟩ := step_transition_iff.mp h
    rw [hmoving] at hs
    obtain ⟨rfl, rfl⟩ := hs
    exact ⟨rfl, rfl⟩
  | take =>
    obtain ⟨w, hw, ⟨-, -, ex, hex⟩ | ⟨r, rs, -, -, rfl⟩⟩ := step_take_cases h
    · unfold InLogout
      rw [hex]
      trivial
    · rw [hw] at hs
      obtain ⟨rfl, hstate⟩ := hs
      exact hstate
  | timeout =>
    obtain ⟨ex, rfl, -, -⟩ := step_timeout_cases h
    trivial
  | incoming r =>
    obtain rfl := Option.some.inj h
    unfold InLogout
    split at hs
    · next hcontrol => simpa only [hcontrol] using hs
    · next hcontrol => simpa only [hcontrol] using ⟨hs.1, state_incoming_logout r hs.2⟩
    · next hcontrol => simpa only [hcontrol] using state_incoming_logout r hs
    · next hcontrol => simp only [hcontrol]
    · exact absurd hs id
  | failed => exact absurd rfl hfailed

/-- The session outside of an operation, in the state `LOGOUT`. -/
lemma logout_step {e : Event} (h : s.step e = some s') (hcall : ∀ c, e ≠ .call c)
    (hfailed : e ≠ .failed) (hfree : s.control.Free) (hstate : s.session.state = .logout) :
    s'.control.Free ∧ s'.session.state = .logout := by
  cases e with
  | call c => exact absurd rfl (hcall c)
  | transition =>
    obtain ⟨w, target, hmoving, -⟩ := step_transition_iff.mp h
    rw [hmoving] at hfree
    exact absurd hfree id
  | take =>
    obtain ⟨w, hw, -⟩ := step_take_cases h
    rw [hw] at hfree
    exact absurd hfree id
  | timeout =>
    obtain ⟨-, -, ⟨w, hw⟩, -⟩ := step_timeout_cases h
    rw [hw] at hfree
    exact absurd hfree id
  | incoming r =>
    obtain rfl := Option.some.inj h
    exact ⟨hfree, state_incoming_logout r hstate⟩
  | failed => exact absurd rfl hfailed

/-- What a logout returns, it returns in the state `LOGOUT`. -/
lemma state_of_answer (hs : InLogout s) (h : Call.answer .logout s.control = some (.ok ())) :
    s.control.Free ∧ s.session.state = .logout := by
  unfold InLogout at hs
  cases hcontrol : s.control with
  | returned v =>
    rw [hcontrol] at hs
    exact ⟨trivial, hs⟩
  | _ =>
    rw [hcontrol] at h
    cases h

/-- A step while the receiver does not fail. -/
lemma leavesLogout_step (h : x.step openFile outputDir e = some x')
    (hfailed : e ≠ .session .failed) (hx : LeavesLogout x) : LeavesLogout x' := by
  rcases process_step_cases h with ⟨c, k, s, -, hplace, hs, rfl⟩ |
    ⟨i, k, r, files, -, hplace, hr, rfl⟩ | ⟨c, taken, k, r, -, hplace, hr, rfl⟩ |
    ⟨e', s, rfl, hcall, hs, rfl⟩
  · refine ⟨fun taken k' hplace' => ?_, (fun _ hplace' => by cases hplace'), hx.read⟩
    obtain ⟨rfl, -⟩ := Place.calling.inj hplace'
    obtain ⟨-, rfl⟩ := step_call_iff.mp hs
    unfold InLogout
    rcases send_cases x.system.session.getNewTag.2 (.logout x.system.session.getNewTag.1)
      (.moving .logout .logout) with hsend | ⟨ex, hsend⟩
    · rw [begin, hsend]
      exact ⟨rfl, rfl⟩
    · rw [begin, hsend]
      trivial
  · refine ⟨(fun _ _ hplace' => by cases hplace'), fun p _ hlast => ?_,
      fun pre state post hlog hpre => ?_⟩
    · rw [Process.entries_concat] at hlast
      rcases justLoggedOut_concat hlast with he | ⟨-, hlog⟩
      · cases he
        cases hr
      · exact hx.after _ hplace hlog
    · rw [Process.entries_concat] at hlog
      rcases exists_concat_of_append_cons hlog with ⟨rfl, he, -⟩ | ⟨post', hlog, -⟩
      · cases he
        cases hr
        exact (hx.after _ hplace hpre).2
      · exact hx.read _ _ _ hlog hpre
  · refine ⟨(fun _ _ hplace' => by cases hplace'), fun p _ hlast => ?_,
      fun pre state post hlog hpre => ?_⟩
    · rw [Process.entries_concat] at hlast
      rcases justLoggedOut_concat hlast with he | ⟨⟨text, htext⟩, -⟩
      · cases he
        exact state_of_answer (hx.calling _ _ hplace) hr
      · cases htext
    · rw [Process.entries_concat] at hlog
      rcases exists_concat_of_append_cons hlog with ⟨-, he, -⟩ | ⟨post', hlog, -⟩
      · cases he
      · exact hx.read _ _ _ hlog hpre
  · have hfailed' : e' ≠ .failed := fun he => hfailed (by rw [he])
    refine ⟨fun taken k hplace => ?_, fun p hplace hlast => ?_, hx.read⟩
    · obtain ⟨before, hplace', -⟩ := Place.of_after_calling hplace
      exact inLogout_step hs hcall hfailed' (hx.calling _ _ hplace')
    · obtain ⟨hfree, hstate⟩ := hx.after _ (Place.of_after_running hplace) hlast
      exact logout_step hs hcall hfailed' hfree hstate

/-- **The state after a logout.** In a run in which the receiver does not fail, the state that is
read after a logout has returned is `LOGOUT`: the loop goes on.

**Proof sketch.** The logout makes its transition before it waits, and a BYE in the state `LOGOUT`
is queued. -/
theorem state_after_logout
    (h : run (Process.step openFile outputDir) (.start σ files p) es = some x)
    (hfailed : .session .failed ∉ es) {pre post : Log} {state : ImapState}
    (hlog : x.entries = pre ++ ⟨.getState, state⟩ :: post) (hpre : JustLoggedOut pre) :
    state = .logout := by
  have hnil : ∀ {log log' : Log} {e : Entry Action Action.Answer}, [] ≠ log ++ e :: log' := by simp
  have hstart : LeavesLogout (Process.start σ files p) :=
    ⟨nofun, fun _ _ ⟨_, _, hlog, _⟩ => absurd hlog hnil, fun _ _ _ hlog _ => absurd hlog hnil⟩
  have hstep : ∀ (y : Process File α) e y', LeavesLogout y → e ≠ .session .failed →
      y.step openFile outputDir e = some y' → LeavesLogout y' :=
    fun y e y' hy he hstep => leavesLogout_step hstep he hy
  have hmeets : Meets (Process.step openFile outputDir) (fun _ e => e ≠ .session .failed)
      (.start σ files p) es := by
    rintro es₁ e es₂ - rfl - rfl
    exact hfailed (by simp)
  exact (invariant hstep hstart hmeets h).read pre state post hlog hpre

end Logout

/-! ## Runs -/

/-- **Quitting.** In every run of the loop, on any lines, in which the state is `SERVER_BYED`
whenever it is read after a logout for `QUIT` has returned, `QUIT` quits and a logout is the last
command. A run of the loop that has ended and in which `QUIT` quits is such a run.

**Proof sketch.** The loop keeps the contract `quitting`. Conversely, if the state that is read is
another one, then a line is read before the loop ends. -/
theorem quit_quits_iff {File : Type} [DecidableEq File] (openFile : Bytes → Option File)
    (outputDir : Bytes) (σ : Session) (files : File → Option Bytes) (inputs : List Bytes)
    (es : List ProcessEvent) (x : Process File Unit)
    (h : run (Process.step openFile outputDir) (.start σ files (repl inputs)) es = some x) :
    (ByedAfterQuit x.entries → QuitQuits x) ∧
      (x.place.program.Ended → QuitQuits x → ByedAfterQuit x.entries) := by
  have hpath := path_of_run h
  constructor
  · intro hbyed
    have hkeeps : Respects quitting (fun _ _ => True) (repl inputs) [] :=
      Respects.perform_bind_iff.mpr ⟨trivial, fun _ _ =>
        respects_replLoop_quitting inputs (Or.inl fun e he => by
          rw [List.mem_singleton.mp he]
          nofun)⟩
    refine ⟨fun pre e post hlog => hkeeps.demanded hpath hbyed.allows hlog,
      fun c taken k hplace => ?_⟩
    have hplace' := hkeeps.path hpath hbyed.allows
    rw [hplace] at hplace'
    exact hplace'.1
  · intro hended hquits pre state post hlog hquit
    have hnil : ¬ Prompting [] := by
      rintro ⟨pre, state, post, hnil, -⟩
      exact absurd hnil.symm (by simp)
    have hkeeps : Respects trivialContract (fun log _ => ¬ Prompting log) (repl inputs) [] :=
      Respects.perform_bind_iff.mpr ⟨trivial, fun _ _ =>
        respects_replLoop_trivial inputs (not_prompting_concat hnil nofun)⟩
    obtain ⟨-, hover⟩ := (hkeeps.path hpath fun _ _ _ _ => trivial).of_ended hended
    by_contra hstate
    refine hover ⟨pre, state, post, hlog, hquit, hstate, fun e he line hline => ?_⟩
    obtain ⟨post₁, post₂, rfl⟩ := List.append_of_mem he
    have hafter := hquits.logged (pre ++ ⟨.getState, state⟩ :: post₁) e post₂ (by simp [hlog])
    rw [hline] at hafter
    exact hafter (hquit.append _)

/-- The steps of a logout, after its call, that takes one response. -/
def logoutSteps : List ProcessEvent :=
  [.session .transition, .session (.incoming (.status .ok (ascii "1") (ascii "bye"))),
    .session .take, .answer]

/-- A failure of the receiver, which ends the state `LOGOUT`, and a BYE after it. -/
def byeSteps : List ProcessEvent :=
  [.session .failed, .session (.incoming (.status .bye [] (ascii "bye")))]

/-- What is asked for and answered when these steps follow the logout for a line `QUIT`. -/
def byedLog : Log :=
  [⟨.print (ascii "Interactive mode. Type HELP to get help. " ++
      ascii "Exit with ^D or by typing QUIT." ++ [lf]), ()⟩,
    ⟨.getState, .selected⟩, ⟨.getState, .selected⟩, ⟨.getCurrentMailbox, ascii "INBOX"⟩,
    ⟨.print (ascii "[SELECTED INBOX] imapcl> "), ()⟩, ⟨.getline (some (ascii "QUIT")), ()⟩,
    ⟨.call .logout, .ok ()⟩, ⟨.print (ascii "Logout." ++ [lf]), ()⟩, ⟨.getState, .serverByed⟩]

/-- The state that is read last is `SERVER_BYED`, and the states before it are read before the
logout. -/
lemma byedAfterQuit_byedLog : ByedAfterQuit byedLog := by
  intro pre state post hlog hquit
  have hentry : byedLog[pre.length]? = some ⟨.getState, state⟩ := by
    rw [hlog, List.getElem?_append_right (Nat.le_refl _), Nat.sub_self]
    rfl
  have hpre : pre = byedLog.take pre.length := by
    rw [hlog, List.take_left]
  obtain ⟨before, line, after, -, hbefore⟩ := hquit
  have hlogout : ⟨.call .logout, .ok ()⟩ ∈ byedLog.take pre.length := by
    rw [← hpre, hbefore]
    simp
  have hlate : 6 < pre.length := by
    by_contra hearly
    have hprefix := List.take_subset_take_left byedLog (Nat.le_of_not_lt hearly) hlogout
    simp [byedLog] at hprefix
  have hlength : pre.length < 9 := by
    have hlen := congrArg List.length hlog
    simp [byedLog] at hlen
    omega
  obtain hindex | hindex : pre.length = 7 ∨ pre.length = 8 := by omega
  · rw [hindex] at hentry
    cases hentry
  · rw [hindex] at hentry
    cases hentry
    rfl

/-- A run of the loop with these steps. -/
lemma exists_run_byed : ∃ x : Process Unit Unit, run (Process.step noFile [])
      (.start selectedSession (fun _ => none) (repl [ascii "QUIT"]))
      (List.replicate 7 .act ++ logoutSteps ++ .act :: byeSteps ++ [.act]) = some x ∧
    x.place.program.Ended ∧ x.entries = byedLog :=
  ⟨_, rfl, rfl, rfl⟩

/-- A line `QUIT` after whose logout the receiver fails and a BYE comes: the loop ends, and the
logout has been the last command. -/
theorem quit_quits_iff_byed : ∃ x : Process Unit Unit, run (Process.step noFile [])
      (.start selectedSession (fun _ => none) (repl [ascii "QUIT"]))
      (List.replicate 7 .act ++ logoutSteps ++ .act :: byeSteps ++ [.act]) = some x ∧
    x.place.program.Ended ∧ QuitReturned x.entries ∧ QuitQuits x := by
  obtain ⟨x, hx, hended, hentries⟩ := exists_run_byed
  have hquits := (quit_quits_iff noFile [] selectedSession (fun _ => none) [ascii "QUIT"] _ x
    hx).1 (hentries ▸ byedAfterQuit_byedLog)
  have hline : QuitLine (ascii "QUIT") := ⟨by decide +kernel, List.infix_rfl⟩
  refine ⟨x, hx, hended, ?_, hquits⟩
  rw [hentries]
  exact ⟨byedLog.take 5, ascii "QUIT", byedLog.drop 7, hline, rfl⟩

/-- A line `QUIT` and the end of the input: the logout for `QUIT` returns, the prompt is printed
again, and a second logout is sent. -/
theorem not_quit_quits : ∃ x, run (Process.step noFile [])
      (.start selectedSession (fun _ => none) (repl [ascii "QUIT"]))
      (List.replicate 7 .act ++ logoutSteps ++ List.replicate 6 .act) = some x ∧
    ¬ QuitQuits x := by
  refine ⟨_, rfl, fun h => ?_⟩
  have hlogout := h.calling .logout [] _ rfl ⟨.call .logout, .ok ()⟩
  exact hlogout (List.mem_of_getElem? (i := 6) rfl) rfl

end Imapcl
