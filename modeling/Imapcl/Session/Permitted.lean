import Imapcl.Session.System

set_option relaxedAutoImplicit false
set_option autoImplicit false

/-!
# Commands and states

The state diagram allows every command in certain states only. The guards of the operations differ:
`login`, `search`, `fetch` and `read` name the states they accept, `select` names one state it
refuses, and `logout` has no guard. This file gives a condition on the steps of a run under which
every command is sent in a state the diagram allows.

## Main definitions

* `Imapcl.Permitted` — the states in which the diagram allows a command.
* `Imapcl.InProtocol` — the condition on the steps.

## Main results

* `Imapcl.commands_permitted` — in runs of such steps all commands are permitted.
-/

namespace Imapcl

open Machine

/-! ## The state diagram -/

/-- The states in which the diagram allows a command. -/
def Permitted (state : ImapState) : Command → Prop
  | .login _ _ _ => state = .nauth
  | .select _ _ => state = .authd ∨ state = .selected
  | .search _ _ => state = .selected
  | .fetch _ _ _ => state = .selected
  | .store _ _ _ _ => state = .selected
  | .logout _ => state.Open

/-- A permitted command is sent on an open connection. -/
lemma Permitted.open {state : ImapState} {command : Command} (h : Permitted state command) :
    state.Open := by
  cases command with
  | login tag userName password => exact Or.inl h
  | select tag mailboxName => exact Or.inr h
  | search tag searchCriteria => exact Or.inr (Or.inr h)
  | fetch tag sequenceSet dataItem => exact Or.inr (Or.inr h)
  | store tag sequenceSet dataItemName dataItemValue => exact Or.inr (Or.inr h)
  | logout tag => exact h

/-- The condition on a step: `select` and `logout` are called on an open connection only, and no
operation moves the session from `LOGOUT` or from a lost connection back to an open one. -/
structure InProtocol (s : System) (e : Event) : Prop where
  select : ∀ mailbox, e = .call (.select mailbox) → s.session.state.Open
  logout : e = .call .logout → s.session.state.Open
  transition : e = .transition → ∀ w target, s.control = .moving w target → target.Open →
    s.session.state ≠ .logout ∧ ¬ s.session.state.Terminal

/-! ## What a run has done -/

/-- The greeting has been accepted: `receive_greeting` has made its transition. -/
def GreetingAccepted (es : List Event) : Prop :=
  ∃ es₁ es₂ s₁ target, es = es₁ ++ .transition :: es₂ ∧ run System.step .new es₁ = some s₁ ∧
    s₁.control = .moving .greeting target

/-- A LOGOUT has been sent. -/
def LogoutSent (es : List Event) : Prop := .call .logout ∈ es

/-- The connection has been lost. -/
def Lost (es : List Event) : Prop :=
  ∃ es₁ es₂ s₁, es = es₁ ++ es₂ ∧ run System.step .new es₁ = some s₁ ∧ s₁.session.state.Terminal

variable {es : List Event} {s s' : System} {e : Event} {c : Call} {w w' : Wait}
  {target : ImapState} {command : Command}

/-- An accepted greeting stays accepted. -/
lemma GreetingAccepted.append (h : GreetingAccepted es) : GreetingAccepted (es ++ [e]) := by
  obtain ⟨es₁, es₂, s₁, target, rfl, hrun, hmoving⟩ := h
  exact ⟨es₁, es₂ ++ [e], s₁, target, by rw [List.append_assoc]; rfl, hrun, hmoving⟩

/-- A run has lost the connection if it had before its last step or if it is lost now. -/
lemma lost_append (hrun : run System.step .new es = some s) (hstep : s.step e = some s')
    (h : Lost (es ++ [e])) : Lost es ∨ s'.session.state.Terminal := by
  obtain ⟨es₁, es₂, s₁, hes, hrun₁, hterm⟩ := h
  rcases List.eq_nil_or_concat es₂ with rfl | ⟨es₂', e', rfl⟩
  · rw [List.append_nil] at hes
    rw [← hes, run_append_of hrun (run_cons hstep)] at hrun₁
    obtain rfl := Option.some.inj hrun₁
    exact Or.inr hterm
  · rw [List.concat_eq_append, ← List.append_assoc] at hes
    obtain ⟨rfl, -⟩ := List.append_inj' hes rfl
    exact Or.inl ⟨es₁, es₂', s₁, rfl, hrun₁, hterm⟩

/-- Before the greeting an operation waits for nothing but the greeting. -/
lemma begin_greeting {σ : Session} (hs : σ.state = .greeting)
    (hselect : ∀ mailbox, c ≠ .select mailbox) (h : (begin σ c).control = .waiting w) :
    w = .greeting := by
  by_cases hguard : c.Guard σ.state
  · cases c with
    | select mailbox => exact absurd rfl (hselect mailbox)
    | logout => cases h
    | receiveGreeting => exact hguard.elim
    | _ => cases hs.symm.trans hguard
  · obtain ⟨control, hbegin, ⟨-, rfl⟩ | ⟨userName, password, -, rfl⟩ | ⟨ex, rfl⟩⟩ :=
      begin_of_not_guard hguard
    · rw [hbegin] at h
      exact (Control.waiting.inj h).symm
    all_goals
      rw [hbegin] at h
      cases h

/-- What a step under the condition sends is permitted. -/
lemma permitted_of_sends (hC : InProtocol s e) (h : Sends s e command) :
    Permitted s.session.state command := by
  obtain ⟨c, rfl, -, hcommand⟩ := h
  by_cases hguard : c.Guard s.session.state
  · obtain ⟨τ, command', control, hbegin, -, hc, -⟩ := begin_of_guard hguard
    rw [hbegin] at hcommand
    obtain rfl := Option.some.inj hcommand
    cases c with
    | receiveGreeting => exact hguard.elim
    | select mailbox =>
      rw [← Option.some.inj hc]
      exact (hC.select mailbox rfl).resolve_left hguard
    | logout =>
      rw [← Option.some.inj hc]
      exact hC.logout rfl
    | _ =>
      rw [← Option.some.inj hc]
      exact hguard
  · obtain ⟨control, hbegin, -⟩ := begin_of_not_guard hguard
    rw [hbegin] at hcommand
    cases hcommand

/-! ## The invariant of a run -/

/-- What holds after every run under the condition. On an open connection the greeting has been
accepted, the connection has never been lost, and a LOGOUT that has been sent is about to make its
transition; before the greeting, nothing but the greeting is awaited. -/
structure RunInvariant (es : List Event) (s : System) : Prop where
  opened : s.session.state.Open → GreetingAccepted es ∧ ¬ Lost es ∧
    (LogoutSent es → s.control = .moving .logout .logout)
  fresh : s.session.state = .greeting → ¬ Lost es ∧ ¬ LogoutSent es ∧
    (∀ w, s.control = .waiting w → w = .greeting) ∧
    ∀ w target, s.control = .moving w target → w = .greeting
  moving : ∀ w target, s.control = .moving w target →
    target.Open ∨ w = .logout ∧ target = .logout

/-- A step that keeps an open state keeps what is known of it, if it sends no LOGOUT. -/
lemma RunInvariant.opened_append (hI : RunInvariant es s)
    (hrun : run System.step .new es = some s) (hstep : s.step e = some s')
    (hsame : s'.session.state = s.session.state) (he : e ≠ .call .logout)
    (hcontrol : LogoutSent es → s'.control = s.control) (h : s'.session.state.Open) :
    GreetingAccepted (es ++ [e]) ∧ ¬ Lost (es ++ [e]) ∧
      (LogoutSent (es ++ [e]) → s'.control = .moving .logout .logout) := by
  obtain ⟨hgreeted, hlost, hlogout⟩ := hI.opened (hsame ▸ h)
  refine ⟨hgreeted.append, fun hl => ?_, fun hl => ?_⟩
  · rcases lost_append hrun hstep hl with hl | hl
    · exact hlost hl
    · exact h.not_terminal hl
  · rcases List.mem_append.mp hl with hl | hl
    · rw [hcontrol hl, hlogout hl]
    · exact absurd (List.mem_singleton.mp hl).symm he

/-- The same before the greeting. -/
lemma RunInvariant.fresh_append (hI : RunInvariant es s)
    (hrun : run System.step .new es = some s) (hstep : s.step e = some s')
    (hsame : s'.session.state = s.session.state) (he : e ≠ .call .logout)
    (h : s'.session.state = .greeting) : ¬ Lost (es ++ [e]) ∧ ¬ LogoutSent (es ++ [e]) := by
  obtain ⟨hlost, hlogout, -⟩ := hI.fresh (hsame ▸ h)
  refine ⟨fun hl => ?_, fun hl => ?_⟩
  · rcases lost_append hrun hstep hl with hl | hl
    · exact hlost hl
    · rw [h] at hl
      revert hl
      decide
  · rcases List.mem_append.mp hl with hl | hl
    · exact hlogout hl
    · exact he (List.mem_singleton.mp hl).symm

/-- A call under the condition keeps the invariant. -/
lemma runInvariant_call (hI : RunInvariant es s) (hC : InProtocol s (.call c))
    (hrun : run System.step .new es = some s) (hstep : s.step (.call c) = some s') :
    RunInvariant (es ++ [.call c]) s' := by
  obtain ⟨hfree, rfl⟩ := step_call_iff.mp hstep
  have hsame := (begin_frame s.session c).1
  have hgap : LogoutSent es → s.session.state.Open → False := by
    intro hl hopen
    rw [(hI.opened hopen).2.2 hl] at hfree
    exact hfree
  by_cases hc : c = .logout
  · subst hc
    have hopen := hC.logout rfl
    obtain ⟨hgreeted, hlost, -⟩ := hI.opened hopen
    refine ⟨fun _ => ⟨hgreeted.append, fun hl => ?_, fun _ => rfl⟩, fun h => ?_, ?_⟩
    · rcases lost_append hrun hstep hl with hl | hl
      · exact hlost hl
      · exact hopen.not_terminal (hsame ▸ hl)
    · rw [hsame] at h
      rw [h] at hopen
      exact absurd hopen (by decide)
    · intro w target h
      exact Or.inr (begin_moving h).2
  · have he : Event.call c ≠ .call .logout := fun h => hc (Event.call.inj h)
    refine ⟨fun h => ?_, fun h => ?_, fun w target h => absurd (begin_moving h).1 hc⟩
    · exact hI.opened_append hrun hstep hsame he
        (fun hl => (hgap hl (hsame ▸ h)).elim) h
    · obtain ⟨hlost, hlogout⟩ := hI.fresh_append hrun hstep hsame he h
      rw [hsame] at h
      refine ⟨hlost, hlogout, fun w hw => ?_, fun w target hw => absurd (begin_moving hw).1 hc⟩
      refine begin_greeting h (fun mailbox hm => ?_) hw
      have hopen := hC.select mailbox (by rw [hm])
      rw [h] at hopen
      exact absurd hopen (by decide)

/-- A transition under the condition keeps the invariant. -/
lemma runInvariant_transition (hI : RunInvariant es s) (hC : InProtocol s .transition)
    (hrun : run System.step .new es = some s) (hstep : s.step .transition = some s') :
    RunInvariant (es ++ [.transition]) s' := by
  obtain ⟨w, target, hmoving, rfl⟩ := step_transition_iff.mp hstep
  have hstill : ∀ w' target', afterTransition w ≠ .moving w' target' := by
    intro w' target'
    cases w <;> exact nofun
  have hsent : LogoutSent (es ++ [.transition]) → LogoutSent es := by
    intro hl
    rcases List.mem_append.mp hl with hl | hl
    · exact hl
    · cases List.mem_singleton.mp hl
  refine ⟨fun hopen => ?_, fun h => ?_, fun w' target' h => absurd h (hstill w' target')⟩
  · have hopen' : target.Open := hopen
    obtain ⟨hnlogout, hnterm⟩ := hC.transition rfl w target hmoving hopen'
    have hlost' : ¬ Lost es → ¬ Lost (es ++ [.transition]) := by
      intro hlost hl
      rcases lost_append hrun hstep hl with hl | hl
      · exact hlost hl
      · exact hopen'.not_terminal hl
    by_cases hg : s.session.state = .greeting
    · obtain ⟨hlost, hlogout, -, hw⟩ := hI.fresh hg
      obtain rfl := hw w target hmoving
      exact ⟨⟨es, [], s, target, rfl, hrun, hmoving⟩, hlost' hlost,
        fun hl => absurd (hsent hl) hlogout⟩
    · have hs : s.session.state.Open := by
        revert hnlogout hnterm hg
        cases s.session.state <;> decide
      obtain ⟨hgreeted, hlost, hlogout⟩ := hI.opened hs
      refine ⟨hgreeted.append, hlost' hlost, fun hl => ?_⟩
      obtain ⟨-, rfl⟩ := Control.moving.inj (hmoving.symm.trans (hlogout (hsent hl)))
      exact absurd hopen' (by decide)
  · have ht : target = .greeting := h
    rcases hI.moving w target hmoving with hopen | ⟨-, rfl⟩
    · rw [ht] at hopen
      exact absurd hopen (by decide)
    · cases ht

/-- A step of the receiving thread keeps the invariant. -/
lemma runInvariant_receiver (hI : RunInvariant es s) (hrun : run System.step .new es = some s)
    (hstep : s.step e = some s') (he : e ≠ .call .logout) (hcontrol : s'.control = s.control)
    (hstate : s'.session.state.Terminal ∨ s'.session.state = s.session.state) :
    RunInvariant (es ++ [e]) s' := by
  refine ⟨fun h => ?_, fun h => ?_, fun w target h => hI.moving w target (hcontrol ▸ h)⟩
  · rcases hstate with hterm | hsame
    · exact absurd hterm h.not_terminal
    · exact hI.opened_append hrun hstep hsame he (fun _ => hcontrol) h
  · rcases hstate with hterm | hsame
    · rw [h] at hterm
      exact absurd hterm (by decide)
    · obtain ⟨hlost, hlogout⟩ := hI.fresh_append hrun hstep hsame he h
      obtain ⟨-, -, hwaiting, hmoving⟩ := hI.fresh (hsame ▸ h)
      exact ⟨hlost, hlogout, fun w hw => hwaiting w (hcontrol ▸ hw),
        fun w target hw => hmoving w target (hcontrol ▸ hw)⟩

/-- The end of a wait keeps the invariant. -/
lemma runInvariant_wait (hI : RunInvariant es s) (hrun : run System.step .new es = some s)
    (hstep : s.step e = some s') (he : e ≠ .call .logout) (hw : s.control = .waiting w)
    (hsame : s'.session.state = s.session.state)
    (hcontrol : (∃ ex, s'.control = .threw ex) ∨ ∃ state r, s'.control = react state r w) :
    RunInvariant (es ++ [e]) s' := by
  have hmoving : ∀ w' target, s'.control = .moving w' target → w' = w ∧ target.Open := by
    intro w' target h
    rcases hcontrol with ⟨ex, hex⟩ | ⟨state, r, hr⟩
    · rw [hex] at h
      cases h
    · obtain ⟨hsame, -, hopen⟩ := react_moving (hr.symm.trans h)
      exact ⟨hsame, hopen⟩
  refine ⟨fun h => ?_, fun h => ?_, fun w' target h => Or.inl (hmoving w' target h).2⟩
  · refine hI.opened_append hrun hstep hsame he (fun hl => ?_) h
    rw [(hI.opened (hsame ▸ h)).2.2 hl] at hw
    cases hw
  · obtain ⟨hlost, hlogout⟩ := hI.fresh_append hrun hstep hsame he h
    obtain ⟨-, -, hwaiting, -⟩ := hI.fresh (hsame ▸ h)
    refine ⟨hlost, hlogout, fun w' hw' => ?_, fun w' target hw' => ?_⟩
    · obtain rfl := hwaiting w hw
      rcases hcontrol with ⟨ex, hex⟩ | ⟨state, r, hr⟩
      · rw [hex] at hw'
        cases hw'
      · exact (react_waiting (w := .greeting) (hr.symm.trans hw')).elim
    · rw [(hmoving w' target hw').1]
      exact hwaiting w hw

/-- Every step under the condition keeps the invariant. -/
lemma runInvariant_step (es : List Event) (s : System) (e : Event) (s' : System)
    (hrun : run System.step .new es = some s) (hI : RunInvariant es s) (hC : InProtocol s e)
    (hstep : s.step e = some s') : RunInvariant (es ++ [e]) s' := by
  cases e with
  | call c => exact runInvariant_call hI hC hrun hstep
  | transition => exact runInvariant_transition hI hC hrun hstep
  | take =>
    obtain ⟨w, hw, ⟨-, hsame, hex⟩ | ⟨r, rs, -, -, rfl⟩⟩ := step_take_cases hstep
    · exact runInvariant_wait hI hrun hstep nofun hw (by rw [hsame]) (Or.inl hex)
    · exact runInvariant_wait hI hrun hstep nofun hw rfl (Or.inr ⟨_, r, rfl⟩)
  | timeout =>
    obtain ⟨ex, rfl, ⟨w, hw⟩, -⟩ := step_timeout_cases hstep
    exact runInvariant_wait hI hrun hstep nofun hw rfl (Or.inl ⟨ex, rfl⟩)
  | incoming r =>
    obtain rfl := Option.some.inj hstep
    refine runInvariant_receiver hI hrun hstep nofun rfl ?_
    rcases incoming_cases s.session r with ⟨-, -, h | h⟩ | ⟨-, h⟩
    · exact Or.inl (by rw [h]; exact Or.inr rfl)
    · exact Or.inl (by rw [h]; exact Or.inl rfl)
    · exact Or.inr (by rw [h])
  | failed =>
    obtain rfl := Option.some.inj hstep
    exact runInvariant_receiver hI hrun hstep nofun rfl (Or.inl (Or.inl rfl))

/-- The invariant holds of a fresh session. -/
lemma runInvariant_new : RunInvariant [] .new := by
  refine ⟨fun h => absurd h (by decide), fun _ => ⟨?_, nofun, nofun, nofun⟩, nofun⟩
  rintro ⟨es₁, es₂, s₁, hes, hrun, hterm⟩
  obtain ⟨rfl, -⟩ := List.append_eq_nil_iff.mp hes.symm
  rw [← Option.some.inj hrun] at hterm
  exact absurd hterm (by decide)

/-- **Commands only in permitted states.** In a run from a fresh session whose steps meet the
condition, every command is sent in a state in which the diagram allows it, after the greeting has
been accepted, before a LOGOUT has been sent, and before the connection has been lost.

**Proof sketch.** The invariant holds along the run, and the guards and the condition give an open
state at the send. -/
theorem commands_permitted (es : List Event) (e : Event) (s : System) (command : Command)
    (hrun : run System.step .new es = some s)
    (hmeets : Meets System.step InProtocol .new (es ++ [e])) (hsends : Sends s e command) :
    Permitted s.session.state command ∧ GreetingAccepted es ∧ ¬ LogoutSent es ∧ ¬ Lost es := by
  have hI : RunInvariant es s :=
    history_invariant runInvariant_new runInvariant_step hmeets.left hrun
  have hpermitted := permitted_of_sends (hmeets.right hrun).head hsends
  obtain ⟨hgreeted, hlost, hlogout⟩ := hI.opened hpermitted.open
  refine ⟨hpermitted, hgreeted, fun hl => ?_, hlost⟩
  obtain ⟨c, rfl, hfree, -⟩ := hsends
  rw [hlogout hl] at hfree
  exact hfree

/-- A LOGIN after the greeting. -/
theorem commands_permitted_login :
    Permitted .nauth (.login (ascii "a001") (ascii "user") (ascii "password")) ∧
      GreetingAccepted [.call .receiveGreeting, .incoming (.status .ok [] (ascii "hi")), .take,
        .transition] ∧
      ¬ LogoutSent [.call .receiveGreeting, .incoming (.status .ok [] (ascii "hi")), .take,
        .transition] ∧
      ¬ Lost [.call .receiveGreeting, .incoming (.status .ok [] (ascii "hi")), .take,
        .transition] := by
  refine commands_permitted _ (.call (.login (ascii "user") (ascii "password")))
    ⟨⟨.nauth, 1, [], []⟩, .returned .unit⟩ _ rfl ?_ ⟨_, rfl, trivial, rfl⟩
  refine .cons ⟨nofun, nofun, nofun⟩ rfl (.cons ⟨nofun, nofun, nofun⟩ rfl
    (.cons ⟨nofun, nofun, nofun⟩ rfl (.cons ⟨nofun, nofun, ?_⟩ rfl
      (.cons ⟨nofun, nofun, nofun⟩ rfl .nil))))
  exact fun _ w target _ _ => ⟨nofun, by decide⟩

/-- A fresh session sends a SELECT before it has received the greeting. -/
theorem select_before_greeting :
    Sends .new (.call (.select (ascii "INBOX"))) (.select (ascii "1") (ascii "INBOX")) ∧
      ¬ Permitted System.new.session.state (.select (ascii "1") (ascii "INBOX")) :=
  ⟨⟨_, rfl, trivial, by decide +kernel⟩, by unfold Permitted; decide⟩

end Imapcl
