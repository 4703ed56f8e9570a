import Imapcl.Foundation.Machine
import Imapcl.Session.Basic

set_option relaxedAutoImplicit false
set_option autoImplicit false

/-!
# The two threads

The user's thread and the receiving thread as one machine. Its steps are the calls of operations
(the guard together with the send), the calls of `transition`, the ends of `wait_for_response`
(check and pop, or timeout), and the calls of `notify_incoming` and `receiver_notify_failed`. The
machine interleaves them in every way that the control flow of the user's thread allows.

## Main definitions

* `Imapcl.System`, `Imapcl.Event`, `Imapcl.System.step`.
* `Imapcl.Sends` — a step hands a command to the server.

## Main results

* `Imapcl.step_call_iff`, `Imapcl.step_transition_iff`, `Imapcl.step_take_cases`,
  `Imapcl.incomingIn_cases` — what each kind of step does.
* `Imapcl.begin_frame`, `Imapcl.begin_moving` — what a call does not do.
-/

namespace Imapcl

open Machine

/-- The session and the place of the user's thread. -/
structure System where
  session : Session
  control : Control
  deriving DecidableEq, Repr

/-- A fresh session, before the first operation. -/
def System.new : System := ⟨.new, .idle⟩

/-- The steps of the two threads. -/
inductive Event where
  | call (c : Call)
  | transition
  | take
  | timeout
  | incoming (response : Response)
  | failed
  deriving DecidableEq, Repr

/-- The step belongs to the user's thread. -/
def Event.OfUser : Event → Prop
  | .incoming _ => False
  | .failed => False
  | _ => True

instance (e : Event) : Decidable e.OfUser := by
  cases e <;> unfold Event.OfUser <;> infer_instance

namespace System

/-- One step. A wait can time out only while its condition is false. -/
def step (s : System) : Event → Option System
  | .call c =>
    if s.control.Free then some ⟨(begin s.session c).session, (begin s.session c).control⟩
    else none
  | .transition => match s.control with
    | .moving w target =>
      let session := s.session.transition target
      some ⟨{ session with currentMailbox := mailboxAfter session.currentMailbox w },
        afterTransition w⟩
    | _ => none
  | .take => match s.control with
    | .waiting w => match s.session.waitForResponse with
      | none => none
      | some (.error ex) => some ⟨s.session, .threw ex⟩
      | some (.ok (response, session)) => some ⟨session, react session.state response w⟩
    | _ => none
  | .timeout => match s.control with
    | .waiting _ =>
      if s.session.waitForResponse = none then
        some ⟨s.session, .threw (.runtimeError
          (ascii "Connection established but timed out waiting for response."))⟩
      else none
    | _ => none
  | .incoming response => some ⟨s.session.incoming response, s.control⟩
  | .failed => some ⟨s.session.receiverNotifyFailed, s.control⟩

end System

/-- The step hands `command` to `Server::send`. -/
def Sends (s : System) (e : Event) (command : Command) : Prop :=
  ∃ c, e = .call c ∧ s.control.Free ∧ (begin s.session c).command = some command

/-! ## What a step does -/

section Steps

variable {s s' : System} {e : Event} {c : Call} {r : Response} {w : Wait} {target : ImapState}

/-- A call. -/
lemma step_call_iff : s.step (.call c) = some s' ↔
    s.control.Free ∧ s' = ⟨(begin s.session c).session, (begin s.session c).control⟩ := by
  rw [System.step]
  split
  · next h => rw [Option.some.injEq, and_iff_right h, eq_comm]
  · next h => exact iff_of_false (by simp) fun h' => h h'.1

/-- A transition. -/
lemma step_transition_iff : s.step .transition = some s' ↔
    ∃ w target, s.control = .moving w target ∧
      s' = ⟨⟨target, s.session.tag, mailboxAfter s.session.currentMailbox w,
        s.session.responseQueue⟩, afterTransition w⟩ := by
  rw [System.step]
  split
  · next w target h =>
    rw [Option.some.injEq]
    constructor
    · rintro rfl
      exact ⟨w, target, h, rfl⟩
    · rintro ⟨w', target', h', rfl⟩
      obtain ⟨rfl, rfl⟩ := Control.moving.inj (h.symm.trans h')
      rfl
  · next hnot =>
    refine iff_of_false (by simp) ?_
    rintro ⟨w, target, h, -⟩
    exact hnot w target h

/-- The end of a wait: the connection is lost, or the first response is taken. -/
lemma step_take_cases (h : s.step .take = some s') : ∃ w, s.control = .waiting w ∧
    ((s.session.state.Terminal ∧ s'.session = s.session ∧ ∃ ex, s'.control = .threw ex) ∨
      ∃ r rs, ¬ s.session.state.Terminal ∧ s.session.responseQueue = r :: rs ∧
        s' = ⟨{ s.session with responseQueue := rs }, react s.session.state r w⟩) := by
  rw [System.step] at h
  split at h
  · next w hw =>
    refine ⟨w, hw, ?_⟩
    unfold Session.waitForResponse at h
    by_cases herr : s.session.state = .receiverError
    · rw [if_pos herr] at h
      rw [← Option.some.inj h]
      exact Or.inl ⟨Or.inl herr, rfl, _, rfl⟩
    rw [if_neg herr] at h
    by_cases hbye : s.session.state = .serverByed
    · rw [if_pos hbye] at h
      rw [← Option.some.inj h]
      exact Or.inl ⟨Or.inr hbye, rfl, _, rfl⟩
    rw [if_neg hbye] at h
    cases hq : s.session.responseQueue with
    | nil =>
      rw [hq] at h
      cases h
    | cons r rs =>
      rw [hq] at h
      exact Or.inr ⟨r, rs, not_or.mpr ⟨herr, hbye⟩, rfl, (Option.some.inj h).symm⟩
  · cases h

/-- A response that is there is taken. -/
lemma step_take_of {rs : List Response} (hw : s.control = .waiting w)
    (hs : ¬ s.session.state.Terminal) (hq : s.session.responseQueue = r :: rs) :
    s.step .take =
      some ⟨{ s.session with responseQueue := rs }, react s.session.state r w⟩ := by
  rw [ImapState.Terminal, not_or] at hs
  rw [System.step, hw]
  simp only [Session.waitForResponse, if_neg hs.1, if_neg hs.2, hq]

/-- A wait after the connection is lost throws. -/
lemma step_take_terminal (hw : s.control = .waiting w) (hs : s.session.state.Terminal) :
    ∃ ex, s.step .take = some ⟨s.session, .threw ex⟩ := by
  rw [System.step, hw]
  simp only [Session.waitForResponse]
  rcases hs with hs | hs
  · rw [if_pos hs]
    exact ⟨_, rfl⟩
  · rw [if_neg (by rw [hs]; decide), if_pos hs]
    exact ⟨_, rfl⟩

/-- A timeout. -/
lemma step_timeout_cases (h : s.step .timeout = some s') :
    ∃ ex, s' = ⟨s.session, .threw ex⟩ ∧ (∃ w, s.control = .waiting w) ∧
      s.session.waitForResponse = none := by
  rw [System.step] at h
  split at h
  · next w hw =>
    split at h
    · next hnone => exact ⟨_, (Option.some.inj h).symm, ⟨w, hw⟩, hnone⟩
    · cases h
  · cases h

/-- A response ends the connection, or is queued. -/
lemma incomingIn_cases (σ : Session) (state : ImapState) (r : Response) :
    (r.getType = .bye ∧ state ≠ .logout ∧ (σ.incomingIn state r = σ.transition .serverByed ∨
        σ.incomingIn state r = σ.transition .receiverError)) ∨
      (¬ (r.getType = .bye ∧ state ≠ .logout) ∧
        σ.incomingIn state r = { σ with responseQueue := σ.responseQueue ++ [r] }) := by
  unfold Session.incomingIn Session.notifyIncoming
  by_cases h : r.getType = .bye ∧ state ≠ .logout
  · rw [if_pos h]
    refine Or.inl ⟨h.1, h.2, ?_⟩
    cases r.getText with
    | ok text => exact Or.inl rfl
    | error ex => exact Or.inr rfl
  · rw [if_neg h]
    exact Or.inr ⟨h, rfl⟩

/-- The same for a call that nothing interrupts. -/
lemma incoming_cases (σ : Session) (r : Response) :
    (r.getType = .bye ∧ σ.state ≠ .logout ∧ (σ.incoming r = σ.transition .serverByed ∨
        σ.incoming r = σ.transition .receiverError)) ∨
      (¬ (r.getType = .bye ∧ σ.state ≠ .logout) ∧
        σ.incoming r = { σ with responseQueue := σ.responseQueue ++ [r] }) :=
  incomingIn_cases σ σ.state r

/-- A BYE outside of `LOGOUT` ends the connection. -/
lemma incoming_terminal {σ : Session} (h : r.getType = .bye ∧ σ.state ≠ .logout) :
    (σ.incoming r).state.Terminal := by
  rcases incoming_cases σ r with ⟨-, -, h' | h'⟩ | ⟨hnot, -⟩
  · rw [h']
    exact Or.inr rfl
  · rw [h']
    exact Or.inl rfl
  · exact absurd h hnot

/-- Any other response is queued. -/
lemma incoming_push {σ : Session} (h : ¬ (r.getType = .bye ∧ σ.state ≠ .logout)) :
    σ.incoming r = { σ with responseQueue := σ.responseQueue ++ [r] } := by
  rcases incoming_cases σ r with ⟨hbye, hstate, -⟩ | ⟨-, hpush⟩
  · exact absurd ⟨hbye, hstate⟩ h
  · exact hpush

end Steps

/-! ## The beginning of an operation -/

/-- The guard of an operation lets it send its command. -/
def Call.Guard (state : ImapState) : Call → Prop
  | .receiveGreeting => False
  | .login _ _ => state = .nauth
  | .select _ => state ≠ .nauth
  | .search _ => state = .selected
  | .fetch _ _ => state = .selected
  | .read _ => state = .selected
  | .logout => True

/-- The command of an operation, where `tag` is the next tag. -/
def Call.command (tag : Bytes) : Call → Option Command
  | .receiveGreeting => none
  | .login userName password => some (.login (ascii "a001") userName password)
  | .select mailbox => some (.select tag mailbox)
  | .search onlyUnseen =>
    some (.search tag (if onlyUnseen then ascii "UNSEEN" else ascii "ALL"))
  | .fetch sequenceSet onlyHeaders => some (.fetch tag sequenceSet
      (if onlyHeaders then ascii "(BODY.PEEK[HEADER])" else ascii "BODY[]"))
  | .read sequenceSet => some (.store tag sequenceSet (ascii "+FLAGS") (ascii "\\Seen"))
  | .logout => some (.logout tag)

/-- The place at which an operation waits first. -/
def Call.firstWait : Call → Wait
  | .receiveGreeting => .greeting
  | .login _ _ => .login
  | .select mailbox => .select mailbox
  | .search _ => .search none
  | .fetch _ _ => .fetch []
  | .read _ => .read
  | .logout => .logout

/-- The place of an operation after its send. -/
def Call.afterSend : Call → Control
  | .logout => .moving .logout .logout
  | c => .waiting c.firstWait

/-- A send leaves the session alone, and throws or goes on. -/
lemma send_cases (σ : Session) (command : Command) (next : Control) :
    send σ command next = ⟨σ, some command, next⟩ ∨
      ∃ ex, send σ command next = ⟨σ, some command, .threw ex⟩ := by
  unfold send
  split
  · exact Or.inl rfl
  · exact Or.inr ⟨_, rfl⟩

/-- An operation whose guard is violated sends nothing: it returns or throws at once. The greeting
is awaited without a command. -/
lemma begin_of_not_guard {σ : Session} {c : Call} (h : ¬ c.Guard σ.state) :
    ∃ control, begin σ c = ⟨σ, none, control⟩ ∧
      ((c = .receiveGreeting ∧ control = .waiting .greeting) ∨
        (∃ userName password, c = .login userName password ∧ control = .returned .unit) ∨
        ∃ ex, control = .threw ex) := by
  cases c with
  | receiveGreeting => exact ⟨_, rfl, Or.inl ⟨rfl, rfl⟩⟩
  | login userName password =>
    rw [begin]
    split
    · exact ⟨_, rfl, Or.inr (Or.inl ⟨_, _, rfl, rfl⟩)⟩
    · have hnauth : σ.state ≠ .nauth := h
      rw [if_pos hnauth]
      exact ⟨_, rfl, Or.inr (Or.inr ⟨_, rfl⟩)⟩
  | select mailbox =>
    rw [begin, if_pos (not_not.mp h)]
    exact ⟨_, rfl, Or.inr (Or.inr ⟨_, rfl⟩)⟩
  | logout => exact absurd trivial h
  | _ =>
    have hselected : σ.state ≠ .selected := h
    rw [begin, if_pos hselected]
    exact ⟨_, rfl, Or.inr (Or.inr ⟨_, rfl⟩)⟩

/-- An operation whose guard holds hands its command to the server, and goes on or throws. -/
lemma begin_of_guard {σ : Session} {c : Call} (h : c.Guard σ.state) :
    ∃ τ command control, begin σ c = ⟨τ, some command, control⟩ ∧
      (τ = σ ∨ τ = σ.getNewTag.2) ∧ c.command σ.getNewTag.1 = some command ∧
      (control = c.afterSend ∨ ∃ ex, control = .threw ex) := by
  have hsend : ∀ τ command, (τ = σ ∨ τ = σ.getNewTag.2) →
      c.command σ.getNewTag.1 = some command → begin σ c = send τ command c.afterSend →
      ∃ τ command control, begin σ c = ⟨τ, some command, control⟩ ∧
        (τ = σ ∨ τ = σ.getNewTag.2) ∧ c.command σ.getNewTag.1 = some command ∧
        (control = c.afterSend ∨ ∃ ex, control = .threw ex) := by
    intro τ command hτ hcommand hbegin
    rcases send_cases τ command c.afterSend with hs | ⟨ex, hs⟩
    · exact ⟨τ, command, _, hbegin.trans hs, hτ, hcommand, Or.inl rfl⟩
    · exact ⟨τ, command, _, hbegin.trans hs, hτ, hcommand, Or.inr ⟨ex, rfl⟩⟩
  cases c with
  | receiveGreeting => exact h.elim
  | login userName password =>
    refine hsend _ _ (Or.inl rfl) rfl ?_
    have hnauth : σ.state = .nauth := h
    have hauthd : σ.state ≠ .authd := by
      rw [hnauth]
      decide
    rw [begin, if_neg hauthd, if_neg (not_not_intro hnauth)]
    rfl
  | select mailbox =>
    have hnauth : σ.state ≠ .nauth := h
    refine hsend _ _ (Or.inr rfl) rfl ?_
    rw [begin, if_neg hnauth]
    rfl
  | logout => exact hsend _ _ (Or.inr rfl) rfl rfl
  | _ =>
    have hselected : σ.state = .selected := h
    refine hsend _ _ (Or.inr rfl) rfl ?_
    rw [begin, if_neg (not_not_intro hselected)]
    rfl

/-- An operation changes neither the state nor the queue before its first wait. -/
lemma begin_frame (σ : Session) (c : Call) :
    (begin σ c).session.state = σ.state ∧
      (begin σ c).session.responseQueue = σ.responseQueue := by
  by_cases h : c.Guard σ.state
  · obtain ⟨τ, command, control, hbegin, hτ, -⟩ := begin_of_guard h
    rw [hbegin]
    rcases hτ with rfl | rfl <;> exact ⟨rfl, rfl⟩
  · obtain ⟨control, hbegin, -⟩ := begin_of_not_guard h
    rw [hbegin]
    exact ⟨rfl, rfl⟩

/-- Only `logout` is about to make a transition before it has waited. -/
lemma begin_moving {σ : Session} {c : Call} {w : Wait} {target : ImapState}
    (h : (begin σ c).control = .moving w target) :
    c = .logout ∧ w = .logout ∧ target = .logout := by
  by_cases hguard : c.Guard σ.state
  · obtain ⟨τ, command, control, hbegin, -, -, rfl | ⟨ex, rfl⟩⟩ := begin_of_guard hguard
    · rw [hbegin] at h
      cases c with
      | logout =>
        obtain ⟨rfl, rfl⟩ := Control.moving.inj h
        exact ⟨rfl, rfl, rfl⟩
      | _ => cases h
    · rw [hbegin] at h
      cases h
  · obtain ⟨control, hbegin, ⟨-, rfl⟩ | ⟨userName, password, -, rfl⟩ | ⟨ex, rfl⟩⟩ :=
      begin_of_not_guard hguard
    all_goals
      rw [hbegin] at h
      cases h

/-! ## Reactions -/

/-- The states of an open connection: `NAUTH`, `AUTHD` and `SELECTED`. -/
def ImapState.Open (state : ImapState) : Prop :=
  state = .nauth ∨ state = .authd ∨ state = .selected

instance (state : ImapState) : Decidable state.Open := by
  unfold ImapState.Open
  infer_instance

/-- On an open connection the connection is not lost. -/
lemma ImapState.Open.not_terminal {state : ImapState} (h : state.Open) : ¬ state.Terminal := by
  revert h
  cases state <;> decide

/-- The operation ends with a call of `transition` after its wait. -/
def Wait.Moves : Wait → Prop
  | .greeting => True
  | .login => True
  | .select _ => True
  | .read => True
  | _ => False

/-- Such an operation returns after its transition. -/
lemma Wait.Moves.after {w : Wait} (h : w.Moves) : afterTransition w = .returned .unit := by
  cases w with
  | logout => exact h.elim
  | _ => rfl

/-- The operation may wait again, in the second place, after it has waited in the first. -/
def Wait.Repeats : Wait → Wait → Prop
  | .select mailbox, .select mailbox' => mailbox = mailbox'
  | .search _, .search _ => True
  | .fetch _, .fetch _ => True
  | _, _ => False

/-- A failure throws. -/
lemma failWith_threw (what : String) (r : Response) : ∃ ex, failWith what r = .threw ex := by
  unfold failWith
  split <;> exact ⟨_, rfl⟩

/-- A delivery returns, or goes through a null pointer. -/
lemma deliver_cases (v : Option Value) :
    (∃ v', deliver v = .returned v') ∨ deliver v = .undefined := by
  cases v with
  | none => exact Or.inr rfl
  | some v => exact Or.inl ⟨v, rfl⟩

/-- What an operation does with a response. -/
lemma react_cases (state : ImapState) (r : Response) (w : Wait) :
    (∃ w', react state r w = .waiting w' ∧ w.Repeats w') ∨
      (∃ target, react state r w = .moving w target ∧ w.Moves ∧ target.Open) ∨
      (¬ w.Moves ∧ ((∃ v, react state r w = .returned v) ∨ react state r w = .undefined)) ∨
      ∃ ex, react state r w = .threw ex := by
  cases w with
  | greeting =>
    rw [react]
    split
    · exact Or.inr (Or.inl ⟨_, rfl, trivial, Or.inl rfl⟩)
    · exact Or.inr (Or.inl ⟨_, rfl, trivial, Or.inr (Or.inl rfl)⟩)
    · exact Or.inr (Or.inr (Or.inr ⟨_, rfl⟩))
  | login =>
    rw [react]
    split
    · split
      · exact Or.inr (Or.inr (Or.inr ⟨_, rfl⟩))
      · split
        · exact Or.inr (Or.inl ⟨_, rfl, trivial, Or.inr (Or.inl rfl)⟩)
        · exact Or.inr (Or.inr (Or.inr ⟨_, rfl⟩))
    · exact Or.inr (Or.inr (Or.inr (failWith_threw _ r)))
  | select mailbox =>
    rw [react]
    split
    · exact Or.inl ⟨_, rfl, rfl⟩
    · split
      · exact Or.inr (Or.inl ⟨_, rfl, trivial, Or.inr (Or.inr rfl)⟩)
      · exact Or.inr (Or.inr (Or.inr (failWith_threw _ r)))
  | search found =>
    rw [react]
    split
    · exact Or.inl ⟨_, rfl, trivial⟩
    · split
      · exact Or.inl ⟨_, rfl, trivial⟩
      · split
        · exact Or.inr (Or.inr (Or.inl ⟨id, deliver_cases _⟩))
        · exact Or.inr (Or.inr (Or.inr (failWith_threw _ r)))
  | fetch found =>
    rw [react]
    split
    · exact Or.inl ⟨_, rfl, trivial⟩
    · split
      · exact Or.inl ⟨_, rfl, trivial⟩
      · split
        · exact Or.inr (Or.inr (Or.inl ⟨id, deliver_cases _⟩))
        · exact Or.inr (Or.inr (Or.inr (failWith_threw _ r)))
  | read =>
    rw [react]
    split
    · exact Or.inr (Or.inl ⟨_, rfl, trivial, Or.inr (Or.inr rfl)⟩)
    · exact Or.inr (Or.inr (Or.inr (failWith_threw _ r)))
  | logout => exact Or.inr (Or.inr (Or.inl ⟨id, Or.inl ⟨_, rfl⟩⟩))

section React

variable {state target : ImapState} {r : Response} {w w' : Wait}

/-- An operation that waits again. -/
lemma react_waiting (h : react state r w = .waiting w') : w.Repeats w' := by
  rcases react_cases state r w with ⟨w₁, h₁, hrepeats⟩ | ⟨target, h₁, -⟩ |
    ⟨-, ⟨v, h₁⟩ | h₁⟩ | ⟨ex, h₁⟩
  · rwa [← Control.waiting.inj (h₁.symm.trans h)]
  all_goals cases h₁.symm.trans h

/-- An operation that has waited moves to an open connection only. -/
lemma react_moving (h : react state r w = .moving w' target) :
    w' = w ∧ w.Moves ∧ target.Open := by
  rcases react_cases state r w with ⟨w₁, h₁, -⟩ | ⟨target', h₁, hmoves, hopen⟩ |
    ⟨-, ⟨v, h₁⟩ | h₁⟩ | ⟨ex, h₁⟩
  · cases h₁.symm.trans h
  · obtain ⟨rfl, rfl⟩ := Control.moving.inj (h₁.symm.trans h)
    exact ⟨rfl, hmoves, hopen⟩
  all_goals cases h₁.symm.trans h

end React

end Imapcl
