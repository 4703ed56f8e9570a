import Imapcl.Session.Conversation
import Imapcl.Session.Login
import Imapcl.Session.Loop

set_option relaxedAutoImplicit false
set_option autoImplicit false

/-!
# The selected mailbox

The session together with a server that keeps the selected mailbox, as the comment on `select` says:
a SELECT that is answered OK selects its mailbox, one that is answered NO leaves no mailbox
selected, and one that is answered BAD changes nothing. The calls are `receive_greeting`, `login`,
and then any of `select`, `search` and `fetch`.

## Design

* The server answers in time, so that no wait times out.
* An untagged response makes `login` fail, and leaves the session in `NAUTH` with responses in the
  queue. No later call takes them, since none gets past its guard.

## Main definitions

* `Imapcl.Dialogue`, `Imapcl.Dialogue.step` — the machine.
* `Imapcl.Agrees` — the session agrees with the server about the selected mailbox.
* `Imapcl.NoRefusedSelect` — no SELECT is answered NO while the session is in `SELECTED`.

## Main results

* `Imapcl.selected_agrees` — under this condition they agree after each call.
* `Imapcl.selected_disagrees` — a run in which they do not.
-/

namespace Imapcl

open Machine

/-! ## The server -/

/-- The mailbox that is selected after the command of the call is answered with the status. -/
def mailboxSelected (mailbox : Option Bytes) : Call → ResponseType → Option Bytes
  | .select name, .ok => some name
  | .select _, .no => none
  | _, _ => mailbox

/-- The reply is one that a server may give: responses without a tag, none of which is a BYE, and a
status OK, NO or BAD. -/
structure Reply.Conforms (reply : Reply) : Prop where
  untagged : ∀ r ∈ reply.untagged, r.Tagless ∧ r.getType ≠ .bye
  status : ∃ c : Cond, reply.status = c.type

/-- No response of a reply is a BYE. -/
lemma Reply.Conforms.ne_bye {reply : Reply} {tag : Bytes} {r : Response} (h : reply.Conforms)
    (hr : r ∈ reply.responses tag) : r.getType ≠ .bye := by
  rcases List.mem_append.mp hr with hr | hr
  · exact (h.untagged r hr).2
  · rw [List.mem_singleton.mp hr]
    obtain ⟨c, hc⟩ := h.status
    show reply.status ≠ .bye
    rw [hc]
    cases c <;> exact nofun

/-! ## The machine -/

/-- What may be called next: `receive_greeting`, `login`, or an operation on mailboxes. -/
inductive Stage where
  | greeting
  | login
  | mailbox
  deriving DecidableEq, Repr

/-- The stage after a call; `none` means that the call may not be made. -/
def Stage.next : Stage → Call → Option Stage
  | .greeting, .receiveGreeting => some .login
  | .login, .login _ _ => some .mailbox
  | .mailbox, .select _ => some .mailbox
  | .mailbox, .search _ => some .mailbox
  | .mailbox, .fetch _ _ => some .mailbox
  | _, _ => none

/-- The session, the responses that have been sent and not been notified, the mailbox that the
server has selected, and the stage. -/
structure Dialogue where
  system : System
  wire : List Response
  mailbox : Option Bytes
  stage : Stage
  deriving DecidableEq, Repr

/-- The steps: a call, with the reply that the server gives if a command reaches it; those of an
operation; and the notification of the next response. -/
inductive DialogueEvent where
  | call (c : Call) (reply : Reply)
  | transition
  | take
  | deliver
  deriving DecidableEq, Repr

/-- The server conforms. -/
def DialogueEvent.Conforming : DialogueEvent → Prop
  | .call _ reply => reply.Conforms
  | _ => True

namespace Dialogue

/-- A dialogue before the first call: the server has sent its greeting. -/
def start (greeting : Response) : Dialogue := ⟨.new, [greeting], none, .greeting⟩

/-- The dialogue after the beginning `b` of a call. A command that `make_tcp` refuses does not reach
the server. -/
def begun (x : Dialogue) (c : Call) (reply : Reply) (b : Begun) (stage : Stage) : Dialogue :=
  match b.command, b.control with
  | some command, .waiting w =>
    ⟨⟨b.session, .waiting w⟩, x.wire ++ reply.responses command.tag,
      mailboxSelected x.mailbox c reply.status, stage⟩
  | _, control => ⟨⟨b.session, control⟩, x.wire, x.mailbox, stage⟩

/-- One step. -/
def step (x : Dialogue) : DialogueEvent → Option Dialogue
  | .call c reply =>
    if x.system.control.Free then
      (x.stage.next c).map (x.begun c reply (begin x.system.session c))
    else none
  | .transition => (x.system.step .transition).map fun s => { x with system := s }
  | .take => (x.system.step .take).map fun s => { x with system := s }
  | .deliver => match x.wire with
    | [] => none
    | r :: rs =>
      some ⟨⟨x.system.session.incoming r, x.system.control⟩, rs, x.mailbox, x.stage⟩

end Dialogue

/-- The session is in `SELECTED` exactly if the server has selected a mailbox, and this is then its
current mailbox. -/
structure Agrees (state : ImapState) (currentMailbox : Bytes) (mailbox : Option Bytes) : Prop where
  selected : state = .selected ↔ mailbox.isSome
  current : ∀ name, mailbox = some name → currentMailbox = name

/-- No SELECT is answered NO while the session is in `SELECTED`. -/
def NoRefusedSelect (x : Dialogue) (e : DialogueEvent) : Prop :=
  ∀ name reply, e = .call (.select name) reply → x.system.session.state = .selected →
    reply.status ≠ .no

/-! ## Views -/

/-- What the invariant is about: the session without its tag, the responses that the user's thread
has not taken, the mailbox of the server, and the stage. -/
structure View where
  state : ImapState
  currentMailbox : Bytes
  control : Control
  pending : List Response
  mailbox : Option Bytes
  stage : Stage

/-- The view of a dialogue. -/
def Dialogue.view (x : Dialogue) : View :=
  ⟨x.system.session.state, x.system.session.currentMailbox, x.system.control,
    x.system.session.responseQueue ++ x.wire, x.mailbox, x.stage⟩

section Views

variable {x x' : Dialogue} {c : Call} {reply : Reply}

/-- A call is made outside of an operation, in its stage. -/
lemma call_permitted (h : x.step (.call c reply) = some x') :
    x.system.control.Free ∧ ∃ stage, x.stage.next c = some stage := by
  rw [Dialogue.step] at h
  split at h
  · next hfree =>
    obtain ⟨stage, hnext, -⟩ := Option.map_eq_some_iff.mp h
    exact ⟨hfree, stage, hnext⟩
  · cases h

/-- A call that hands a command to the server. -/
lemma view_call_sent {command : Command} {w : Wait}
    (hcommand : (begin x.system.session c).command = some command)
    (hcontrol : (begin x.system.session c).control = .waiting w)
    (h : x.step (.call c reply) = some x') :
    x.system.control.Free ∧ ∃ stage, x.stage.next c = some stage ∧
      x'.view = ⟨x.view.state, (begin x.system.session c).session.currentMailbox, .waiting w,
        x.view.pending ++ reply.responses command.tag,
        mailboxSelected x.mailbox c reply.status, stage⟩ := by
  rw [Dialogue.step] at h
  split at h
  · next hfree =>
    obtain ⟨stage, hstage, rfl⟩ := Option.map_eq_some_iff.mp h
    refine ⟨hfree, stage, hstage, ?_⟩
    obtain ⟨hstate, hqueue⟩ := begin_frame x.system.session c
    simp only [Dialogue.begun, hcommand, hcontrol, Dialogue.view, hstate, hqueue,
      List.append_assoc]
  · cases h

/-- A call that hands no command to the server, or throws at its send. -/
lemma view_call_unsent
    (hunsent : (begin x.system.session c).command = none ∨
      ∀ w, (begin x.system.session c).control ≠ .waiting w)
    (h : x.step (.call c reply) = some x') :
    x.system.control.Free ∧ ∃ stage, x.stage.next c = some stage ∧
      x'.view = ⟨x.view.state, (begin x.system.session c).session.currentMailbox,
        (begin x.system.session c).control, x.view.pending, x.mailbox, stage⟩ := by
  rw [Dialogue.step] at h
  split at h
  · next hfree =>
    obtain ⟨stage, hstage, rfl⟩ := Option.map_eq_some_iff.mp h
    refine ⟨hfree, stage, hstage, ?_⟩
    obtain ⟨hstate, hqueue⟩ := begin_frame x.system.session c
    unfold Dialogue.begun
    split
    · next command w hcommand hcontrol =>
      rcases hunsent with hnone | hne
      · cases hnone.symm.trans hcommand
      · exact absurd hcontrol (hne w)
    · simp only [Dialogue.view, hstate, hqueue]
  · cases h

/-- A transition. -/
lemma view_transition (h : x.step .transition = some x') : ∃ w target,
    x.view.control = .moving w target ∧
      x'.view = { x.view with
        state := target
        currentMailbox := mailboxAfter x.view.currentMailbox w
        control := afterTransition w } := by
  obtain ⟨s, hs, rfl⟩ := Option.map_eq_some_iff.mp h
  obtain ⟨w, target, hmoving, rfl⟩ := step_transition_iff.mp hs
  exact ⟨w, target, hmoving, rfl⟩

/-- The end of a wait on a connection that is alive. -/
lemma view_take (hlive : ¬ x.view.state.Terminal) (h : x.step .take = some x') : ∃ w r rs,
    x.view.control = .waiting w ∧ x.view.pending = r :: rs ∧
      x'.view = { x.view with control := react x.view.state r w, pending := rs } := by
  obtain ⟨s, hs, rfl⟩ := Option.map_eq_some_iff.mp h
  obtain ⟨w, hw, ⟨hterm, -, -⟩ | ⟨r, rs, -, hqueue, rfl⟩⟩ := step_take_cases hs
  · exact absurd hterm hlive
  · refine ⟨w, r, rs ++ x.wire, hw, ?_, rfl⟩
    rw [Dialogue.view, hqueue]
    rfl

/-- The notification of a response is not seen, unless this is a BYE. -/
lemma view_deliver (hbye : ∀ r ∈ x.view.pending, r.getType ≠ .bye)
    (h : x.step .deliver = some x') : x'.view = x.view := by
  rw [Dialogue.step] at h
  split at h
  · cases h
  · next r rs hwire =>
    rw [← Option.some.inj h]
    have hmem : r ∈ x.view.pending := by
      rw [Dialogue.view, hwire]
      simp
    simp only [Dialogue.view, incoming_push fun hb => hbye r hmem hb.1, hwire,
      List.append_assoc, List.singleton_append]

end Views

/-! ## The invariant -/

/-- A call on a mailbox waits in `w`, and the status at the end of its reply is `status`: a SELECT
that is answered OK has selected its mailbox, and any other call leaves what has been agreed. -/
structure Leads (state : ImapState) (currentMailbox : Bytes) (mailbox : Option Bytes) (w : Wait)
    (status : ResponseType) : Prop where
  select : ∀ name, w = .select name → status = .ok → mailbox = some name
  other : (∀ name, w = .select name → status ≠ .ok) → Agrees state currentMailbox mailbox

/-- What holds after every step. -/
inductive InDialogue (v : View) : Prop where
  | greeting (type : ResponseType) (text : Bytes) (htype : type = .ok ∨ type = .preauth)
      (hstate : v.state = .greeting) (hpending : v.pending = [.status type [] text])
      (hmailbox : v.mailbox = none)
      (hplace : v.control = .idle ∧ v.stage = .greeting ∨
        v.control = .waiting .greeting ∧ v.stage = .login)
  | greeted (target : ImapState) (htarget : target = .nauth ∨ target = .authd)
      (hcontrol : v.control = .moving .greeting target) (hpending : v.pending = [])
      (hmailbox : v.mailbox = none) (hstage : v.stage = .login)
  | connected (hstate : v.state = .nauth ∨ v.state = .authd) (hfree : v.control.Free)
      (hpending : v.pending = []) (hmailbox : v.mailbox = none) (hstage : v.stage = .login)
  | loggingIn (reply : Reply) (hreply : reply.Conforms) (hstate : v.state = .nauth)
      (hcontrol : v.control = .waiting .login)
      (hpending : v.pending = reply.responses (ascii "a001")) (hmailbox : v.mailbox = none)
      (hstage : v.stage = .mailbox)
  | loggedIn (hcontrol : v.control = .moving .login .authd) (hpending : v.pending = [])
      (hmailbox : v.mailbox = none) (hstage : v.stage = .mailbox)
  | outside (hstate : v.state = .nauth) (hfree : v.control.Free)
      (hpending : ∀ r ∈ v.pending, r.getType ≠ .bye) (hmailbox : v.mailbox = none)
      (hstage : v.stage = .mailbox)
  | waiting (w : Wait) (reply : Reply) (tag : Bytes) (hloops : w.Loops) (htag : tag ≠ [])
      (hreply : reply.Conforms) (hstate : v.state = .authd ∨ v.state = .selected)
      (hcontrol : v.control = .waiting w) (hpending : v.pending = reply.responses tag)
      (hleads : Leads v.state v.currentMailbox v.mailbox w reply.status)
      (hstage : v.stage = .mailbox)
  | selecting (name : Bytes) (hcontrol : v.control = .moving (.select name) .selected)
      (hpending : v.pending = []) (hmailbox : v.mailbox = some name) (hstage : v.stage = .mailbox)
  | settled (hstate : v.state = .authd ∨ v.state = .selected)
      (hcontrol : v.control.Free ∨ v.control = .undefined) (hpending : v.pending = [])
      (hagrees : Agrees v.state v.currentMailbox v.mailbox) (hstage : v.stage = .mailbox)

section Invariant

variable {v : View} {w : Wait} {r : Response} {rs : List Response}

/-- Without a mailbox they agree outside of `SELECTED`. -/
lemma agrees_none {state : ImapState} {currentMailbox : Bytes} (h : state ≠ .selected) :
    Agrees state currentMailbox none :=
  ⟨iff_of_false h nofun, nofun⟩

/-- After a call they agree. -/
lemma InDialogue.agrees (hx : InDialogue v) (hfree : v.control.Free) :
    Agrees v.state v.currentMailbox v.mailbox := by
  cases hx with
  | greeting type text htype hstate hpending hmailbox hplace =>
    rw [hstate, hmailbox]
    exact agrees_none (by decide)
  | greeted target htarget hcontrol => rw [hcontrol] at hfree; exact hfree.elim
  | connected hstate _ hpending hmailbox =>
    rw [hmailbox]
    exact agrees_none (by rcases hstate with h | h <;> rw [h] <;> decide)
  | loggingIn reply hreply hstate hcontrol => rw [hcontrol] at hfree; exact hfree.elim
  | loggedIn hcontrol => rw [hcontrol] at hfree; exact hfree.elim
  | outside hstate _ hpending hmailbox =>
    rw [hstate, hmailbox]
    exact agrees_none (by decide)
  | waiting w reply tag hloops htag hreply hstate hcontrol =>
    rw [hcontrol] at hfree; exact hfree.elim
  | selecting name hcontrol => rw [hcontrol] at hfree; exact hfree.elim
  | settled _ _ _ hagrees => exact hagrees

/-- No BYE is pending. -/
lemma InDialogue.ne_bye (hx : InDialogue v) : ∀ r ∈ v.pending, r.getType ≠ .bye := by
  cases hx with
  | greeting type text htype hstate hpending =>
    rw [hpending]
    intro r hr
    rw [List.mem_singleton.mp hr]
    rcases htype with rfl | rfl <;> exact nofun
  | loggingIn reply hreply hstate hcontrol hpending =>
    rw [hpending]
    exact fun r hr => hreply.ne_bye hr
  | waiting w reply tag hloops htag hreply hstate hcontrol hpending =>
    rw [hpending]
    exact fun r hr => hreply.ne_bye hr
  | outside _ _ hpending => exact hpending
  | greeted _ _ _ hpending => rw [hpending]; exact nofun
  | connected _ _ hpending => rw [hpending]; exact nofun
  | loggedIn _ hpending => rw [hpending]; exact nofun
  | selecting _ _ hpending => rw [hpending]; exact nofun
  | settled _ _ hpending => rw [hpending]; exact nofun

/-- While a call waits, the connection is alive. -/
lemma InDialogue.live (hx : InDialogue v) (hw : v.control = .waiting w) :
    ¬ v.state.Terminal := by
  have hclash : ∀ {c}, v.control = c → (∀ w, c ≠ .waiting w) → ¬ v.state.Terminal :=
    fun hc hne => absurd (hc.symm.trans hw) (hne w)
  have hfree : ¬ v.control.Free := by
    rw [hw]
    exact id
  cases hx with
  | greeting _ _ _ hstate =>
    rw [hstate]
    decide
  | loggingIn _ _ hstate =>
    rw [hstate]
    decide
  | waiting _ _ _ _ _ _ hstate =>
    rcases hstate with h | h <;> rw [h] <;> decide
  | greeted _ _ hcontrol => exact hclash hcontrol nofun
  | loggedIn hcontrol => exact hclash hcontrol nofun
  | selecting _ hcontrol => exact hclash hcontrol nofun
  | connected _ h => exact absurd h hfree
  | outside _ h => exact absurd h hfree
  | settled _ hcontrol =>
    rcases hcontrol with h | h
    · exact absurd h hfree
    · exact hclash h nofun

/-- A login fails on a response without a tag. -/
lemma react_login_tagless {state : ImapState} (h : r.Tagless) :
    ∃ ex, react state r .login = .threw ex := by
  have htag : r.getTag = [] := by
    cases r with
    | status type tag text => exact h.1
    | _ => rfl
  rw [react]
  split
  · rw [if_pos (by rw [htag]; decide)]
    exact ⟨_, rfl⟩
  · exact failWith_threw _ r

/-- The first response of a reply: an untagged one, or its status. -/
lemma Reply.responses_cons {reply : Reply} {tag : Bytes} (h : reply.responses tag = r :: rs) :
    (∃ us, reply.untagged = r :: us ∧
        rs = Reply.responses ⟨us, reply.status, reply.text⟩ tag) ∨
      (reply.untagged = [] ∧ r = .status reply.status tag reply.text ∧ rs = []) := by
  rw [Reply.responses] at h
  cases hus : reply.untagged with
  | nil =>
    rw [hus] at h
    obtain ⟨rfl, rfl⟩ := List.cons.inj h
    exact Or.inr ⟨rfl, rfl, rfl⟩
  | cons u us =>
    rw [hus] at h
    obtain ⟨rfl, rfl⟩ := List.cons.inj h
    exact Or.inl ⟨us, rfl, rfl⟩

/-- The rest of a reply conforms. -/
lemma Reply.Conforms.tail {reply : Reply} {us : List Response} (h : reply.Conforms)
    (hus : reply.untagged = r :: us) : Reply.Conforms ⟨us, reply.status, reply.text⟩ := by
  refine ⟨fun q hq => h.untagged q ?_, h.status⟩
  rw [hus]
  exact List.mem_cons_of_mem r hq

/-- A loop waits for the same purpose after an untagged response. -/
lemma Leads.after {state : ImapState} {currentMailbox : Bytes} {mailbox : Option Bytes}
    {status : ResponseType} (h : Leads state currentMailbox mailbox w status)
    (hloops : w.Loops) : Leads state currentMailbox mailbox (w.after r) status := by
  have hsame : ∀ name, w.after r = .select name → w = .select name := by
    intro name hname
    cases w with
    | select mailbox => exact hname
    | search found => cases r <;> cases hname
    | fetch found => cases r <;> cases hname
    | _ => exact hloops.elim
  refine ⟨fun name hname => h.select name (hsame name hname), fun hother => h.other ?_⟩
  rintro name rfl
  exact hother name rfl

/-- The end of a login. -/
lemma inDialogue_take_login {reply : Reply} (hreply : reply.Conforms) (hstate : v.state = .nauth)
    (hpending : reply.responses (ascii "a001") = r :: rs) (hmailbox : v.mailbox = none)
    (hstage : v.stage = .mailbox) :
    InDialogue { v with control := react v.state r .login, pending := rs } := by
  have hbye : ∀ q ∈ rs, q.getType ≠ .bye := by
    intro q hq
    have hmem : q ∈ reply.responses (ascii "a001") := by
      rw [hpending]
      exact List.mem_cons_of_mem r hq
    exact hreply.ne_bye hmem
  have houtside : ∀ ex, react v.state r .login = .threw ex →
      InDialogue { v with control := react v.state r .login, pending := rs } := by
    intro ex hex
    exact .outside hstate (by rw [hex]; trivial) hbye hmailbox hstage
  rcases Reply.responses_cons hpending with ⟨us, hus, -⟩ | ⟨-, rfl, rfl⟩
  · obtain ⟨ex, hex⟩ : ∃ ex, react v.state r .login = .threw ex :=
      react_login_tagless (hreply.untagged r (by rw [hus]; exact List.mem_cons_self)).1
    exact houtside ex hex
  · obtain ⟨c, hc⟩ := hreply.status
    by_cases hok : c = .ok
    · refine .loggedIn ?_ rfl hmailbox hstage
      rw [hstate, hc, hok]
      exact react_login_ok reply.text
    · obtain ⟨what, hwhat⟩ := react_login_failed reply.text hok
      rw [← hc] at hwhat
      exact houtside _ (by rw [hstate]; exact hwhat)

/-- The status at the end of a reply ends an operation on mailboxes. -/
lemma inDialogue_take_status {c : Cond} {tag text : Bytes} (hloops : w.Loops) (htag : tag ≠ [])
    (hstate : v.state = .authd ∨ v.state = .selected) (hstage : v.stage = .mailbox)
    (hleads : Leads v.state v.currentMailbox v.mailbox w c.type) :
    InDialogue { v with control := react v.state (.status c.type tag text) w, pending := [] } := by
  have hsettled : ∀ control : Control, control.Free ∨ control = .undefined →
      (∀ name, w = .select name → c.type ≠ .ok) →
      InDialogue { v with control := control, pending := [] } :=
    fun control hcontrol hother => .settled hstate hcontrol rfl (hleads.other hother) hstage
  rcases react_cases v.state (.status c.type tag text) w with ⟨w', hw', -⟩ |
    ⟨target, hmoving, hmoves, -⟩ | ⟨hmoves, hend⟩ | ⟨ex, hex⟩
  · exact absurd hw' (react_status_ends htag w')
  · cases w with
    | select name =>
      by_cases hok : c = .ok
      · subst hok
        rw [show react v.state (.status Cond.ok.type tag text) (.select name) = _ from
          react_select_ok htag]
        exact .selecting name rfl rfl (hleads.select name rfl rfl) hstage
      · obtain ⟨ex, hex⟩ : ∃ ex, react v.state (.status c.type tag text) (.select name) =
            .threw ex := react_refused (Or.inl hloops) htag (c.type_of_ne_ok hok)
        cases hex.symm.trans hmoving
    | search found => exact hmoves.elim
    | fetch found => exact hmoves.elim
    | _ => exact hloops.elim
  · refine hsettled _ ?_ ?_
    · rcases hend with ⟨value, hvalue⟩ | hundefined
      · rw [hvalue]
        exact Or.inl trivial
      · exact Or.inr hundefined
    · rintro name rfl
      exact absurd trivial hmoves
  · rw [hex]
    refine hsettled _ (Or.inl trivial) ?_
    rintro name rfl hok
    rw [hok] at hex
    cases (react_select_ok htag).symm.trans hex

/-- The end of a wait. -/
lemma inDialogue_take (hx : InDialogue v) (hw : v.control = .waiting w)
    (hpending : v.pending = r :: rs) :
    InDialogue { v with control := react v.state r w, pending := rs } := by
  have hclash : ∀ {c}, v.control = c → (∀ w, c ≠ .waiting w) →
      InDialogue { v with control := react v.state r w, pending := rs } :=
    fun hc hne => absurd (hc.symm.trans hw) (hne w)
  have hfree : ¬ v.control.Free := by
    rw [hw]
    exact id
  cases hx with
  | greeting type text htype hstate hgreeting hmailbox hplace =>
    rcases hplace with ⟨hidle, -⟩ | ⟨hwaiting, hstage⟩
    · exact hclash hidle nofun
    · obtain rfl := Control.waiting.inj (hw.symm.trans hwaiting)
      obtain ⟨rfl, rfl⟩ := List.cons.inj (hpending.symm.trans hgreeting)
      rcases htype with rfl | rfl
      · exact .greeted .nauth (Or.inl rfl) rfl rfl hmailbox hstage
      · exact .greeted .authd (Or.inr rfl) rfl rfl hmailbox hstage
  | loggingIn reply hreply hstate hcontrol hreplied hmailbox hstage =>
    obtain rfl := Control.waiting.inj (hw.symm.trans hcontrol)
    exact inDialogue_take_login hreply hstate (hreplied.symm.trans hpending) hmailbox hstage
  | waiting w' reply tag hloops htag hreply hstate hcontrol hreplied hleads hstage =>
    obtain rfl := Control.waiting.inj (hw.symm.trans hcontrol)
    rcases Reply.responses_cons (hreplied.symm.trans hpending) with ⟨us, hus, rfl⟩ | ⟨-, rfl, rfl⟩
    · have htagless := (hreply.untagged r (by rw [hus]; exact List.mem_cons_self)).1
      rw [react_tagless hloops htagless]
      exact .waiting (w.after r) ⟨us, reply.status, reply.text⟩ tag (Wait.loops_after hloops) htag
        (hreply.tail hus) hstate rfl rfl (hleads.after hloops) hstage
    · obtain ⟨c, hc⟩ := hreply.status
      rw [hc] at hleads ⊢
      exact inDialogue_take_status hloops htag hstate hstage hleads
  | greeted _ _ hcontrol => exact hclash hcontrol nofun
  | loggedIn hcontrol => exact hclash hcontrol nofun
  | selecting _ hcontrol => exact hclash hcontrol nofun
  | connected _ h => exact absurd h hfree
  | outside _ h => exact absurd h hfree
  | settled _ hcontrol =>
    rcases hcontrol with h | h
    · exact absurd h hfree
    · exact hclash h nofun

/-- A transition. -/
lemma inDialogue_transition {target : ImapState} (hx : InDialogue v)
    (hmoving : v.control = .moving w target) :
    InDialogue { v with
      state := target
      currentMailbox := mailboxAfter v.currentMailbox w
      control := afterTransition w } := by
  have hclash : ∀ {c}, v.control = c → (∀ w target, c ≠ .moving w target) → False :=
    fun hc hne => hne w target (hc.symm.trans hmoving)
  have hfree : ¬ v.control.Free := by
    rw [hmoving]
    exact id
  cases hx with
  | greeted target' htarget hcontrol hpending hmailbox hstage =>
    obtain ⟨rfl, rfl⟩ := Control.moving.inj (hmoving.symm.trans hcontrol)
    exact .connected htarget trivial hpending hmailbox hstage
  | loggedIn hcontrol hpending hmailbox hstage =>
    obtain ⟨rfl, rfl⟩ := Control.moving.inj (hmoving.symm.trans hcontrol)
    refine .settled (Or.inl rfl) (Or.inl trivial) hpending ?_ hstage
    rw [hmailbox]
    exact agrees_none (show ImapState.authd ≠ .selected by decide)
  | selecting name hcontrol hpending hmailbox hstage =>
    obtain ⟨rfl, rfl⟩ := Control.moving.inj (hmoving.symm.trans hcontrol)
    refine .settled (Or.inr rfl) (Or.inl trivial) hpending ?_ hstage
    rw [hmailbox]
    exact ⟨iff_of_true rfl rfl, fun name' hname => Option.some.inj hname⟩
  | greeting _ _ _ _ _ _ hplace =>
    rcases hplace with ⟨h, -⟩ | ⟨h, -⟩ <;> exact (hclash h nofun).elim
  | loggingIn _ _ _ hcontrol => exact (hclash hcontrol nofun).elim
  | waiting _ _ _ _ _ _ _ hcontrol => exact (hclash hcontrol nofun).elim
  | connected _ h => exact absurd h hfree
  | outside _ h => exact absurd h hfree
  | settled _ hcontrol =>
    rcases hcontrol with h | h
    · exact absurd h hfree
    · exact (hclash h nofun).elim

end Invariant

/-! ## Calls -/

section Calls

variable {x x' : Dialogue} {c : Call} {reply : Reply}

/-- No operation changes the current mailbox before its first wait. -/
lemma begin_currentMailbox (σ : Session) (c : Call) :
    (begin σ c).session.currentMailbox = σ.currentMailbox := by
  by_cases h : c.Guard σ.state
  · obtain ⟨τ, command, control, hbegin, hτ, -⟩ := begin_of_guard h
    rw [hbegin]
    rcases hτ with rfl | rfl <;> rfl
  · obtain ⟨control, hbegin, -⟩ := begin_of_not_guard h
    rw [hbegin]

/-- The calls on mailboxes wait in a loop. -/
lemma Stage.next_mailbox {stage : Stage} (h : Stage.mailbox.next c = some stage) :
    stage = .mailbox ∧ c.firstWait.Loops ∧ c.afterSend = .waiting c.firstWait ∧ c.OnMailbox := by
  cases c with
  | select name => exact ⟨(Option.some.inj h).symm, trivial, rfl, trivial⟩
  | search onlyUnseen => exact ⟨(Option.some.inj h).symm, trivial, rfl, trivial⟩
  | fetch sequenceSet onlyHeaders => exact ⟨(Option.some.inj h).symm, trivial, rfl, trivial⟩
  | _ => cases h

/-- The commands of calls on mailboxes have a tag. -/
lemma Call.OnMailbox.tag_ne_nil {tag : Bytes} {command : Command} (h : c.OnMailbox)
    (hcommand : c.command tag = some command) (htag : tag ≠ []) : command.tag ≠ [] := by
  cases c with
  | receiveGreeting => cases hcommand
  | login userName password => exact h.elim
  | _ =>
    rw [← Option.some.inj hcommand]
    exact htag

/-- A call on mailboxes is answered by the server, or throws at once. -/
lemma view_call_mailbox (hstage : x.view.stage = .mailbox) (h : x.step (.call c reply) = some x') :
    (∃ tag, tag ≠ [] ∧ c.firstWait.Loops ∧ c.Guard x.view.state ∧
        x'.view = ⟨x.view.state, x.view.currentMailbox, .waiting c.firstWait,
          x.view.pending ++ reply.responses tag,
          mailboxSelected x.view.mailbox c reply.status, .mailbox⟩) ∨
      ∃ ex, x'.view = { x.view with control := .threw ex } := by
  obtain ⟨-, stage, hnext⟩ := call_permitted h
  have hmailbox : x.stage = .mailbox := hstage
  rw [hmailbox] at hnext
  obtain ⟨-, hloops, hsend, hc⟩ := Stage.next_mailbox hnext
  have hthrew : ∀ ex, (begin x.system.session c).control = .threw ex →
      x'.view = { x.view with control := .threw ex } := by
    intro ex hex
    obtain ⟨-, stage', hnext', hview⟩ := view_call_unsent (Or.inr (by rw [hex]; exact nofun)) h
    rw [hmailbox] at hnext'
    obtain ⟨rfl, -⟩ := Stage.next_mailbox hnext'
    rw [hview, hex, begin_currentMailbox, ← hmailbox]
    rfl
  by_cases hguard : c.Guard x.system.session.state
  · obtain ⟨τ, command, control, hbegin, -, hcommand, rfl | ⟨ex, rfl⟩⟩ := begin_of_guard hguard
    · have hsent : (begin x.system.session c).command = some command := by rw [hbegin]
      have hwaits : (begin x.system.session c).control = .waiting c.firstWait := by
        rw [hbegin, hsend]
      obtain ⟨-, stage', hnext', hview⟩ := view_call_sent hsent hwaits h
      rw [hmailbox] at hnext'
      obtain ⟨rfl, -⟩ := Stage.next_mailbox hnext'
      rw [begin_currentMailbox] at hview
      exact Or.inl ⟨command.tag, hc.tag_ne_nil hcommand (decimal_ne_nil _), hloops, hguard, hview⟩
    · exact Or.inr ⟨ex, hthrew ex (by rw [hbegin])⟩
  · obtain ⟨control, hbegin, ⟨rfl, -⟩ | ⟨userName, password, rfl, -⟩ | ⟨ex, rfl⟩⟩ :=
      begin_of_not_guard hguard
    · exact hc.elim
    · exact hc.elim
    · exact Or.inr ⟨ex, hthrew ex (by rw [hbegin])⟩

/-- In `NAUTH` no call on mailboxes gets past its guard. -/
lemma not_guard_nauth (hloops : c.firstWait.Loops) : ¬ c.Guard .nauth := by
  cases c with
  | select name => exact fun h => h rfl
  | search onlyUnseen => exact nofun
  | fetch sequenceSet onlyHeaders => exact nofun
  | _ => exact hloops.elim

/-- What the reply to a call on mailboxes leads to. -/
lemma leads_call {state : ImapState} {currentMailbox : Bytes} {mailbox : Option Bytes}
    {c : Call} {status : ResponseType} (hstatus : ∃ cond : Cond, status = cond.type)
    (hagrees : Agrees state currentMailbox mailbox)
    (hno : ∀ name, c = .select name → state = .selected → status ≠ .no)
    (hloops : c.firstWait.Loops) :
    Leads state currentMailbox (mailboxSelected mailbox c status) c.firstWait status := by
  cases c with
  | select name =>
    refine ⟨fun name' hname hok => ?_, fun hother => ?_⟩
    · obtain rfl := Wait.select.inj hname
      rw [hok]
      rfl
    · obtain ⟨cond, rfl⟩ := hstatus
      cases cond with
      | ok => exact absurd rfl (hother name rfl)
      | no => exact agrees_none fun hstate => hno name rfl hstate rfl
      | bad => exact hagrees
  | search onlyUnseen => exact ⟨nofun, fun _ => hagrees⟩
  | fetch sequenceSet onlyHeaders => exact ⟨nofun, fun _ => hagrees⟩
  | _ => exact hloops.elim

/-- The first call. -/
lemma inDialogue_call_greeting {type : ResponseType} {text : Bytes}
    (htype : type = .ok ∨ type = .preauth) (hstate : x.view.state = .greeting)
    (hpending : x.view.pending = [.status type [] text]) (hmailbox : x.view.mailbox = none)
    (hstage : x.view.stage = .greeting) (h : x.step (.call c reply) = some x') :
    InDialogue x'.view := by
  obtain ⟨-, stage, hnext⟩ := call_permitted h
  replace hstage : x.stage = .greeting := hstage
  rw [hstage] at hnext
  cases c with
  | receiveGreeting =>
    obtain ⟨-, stage', hnext', hview⟩ := view_call_unsent (Or.inl rfl) h
    rw [hstage] at hnext'
    obtain rfl := Option.some.inj hnext'
    rw [hview]
    exact .greeting type text htype hstate hpending hmailbox (Or.inr ⟨rfl, rfl⟩)
  | _ => cases hnext

/-- The second call. -/
lemma inDialogue_call_login (hreply : reply.Conforms)
    (hstate : x.view.state = .nauth ∨ x.view.state = .authd) (hpending : x.view.pending = [])
    (hmailbox : x.view.mailbox = none) (hstage : x.view.stage = .login)
    (h : x.step (.call c reply) = some x') : InDialogue x'.view := by
  obtain ⟨-, stage, hnext⟩ := call_permitted h
  replace hstage : x.stage = .login := hstage
  rw [hstage] at hnext
  cases c with
  | login userName password =>
    rcases hstate with hnauth | hauthd
    · have hbegin : begin x.system.session (.login userName password) =
          ⟨x.system.session, some (.login (ascii "a001") userName password), .waiting .login⟩ :=
        begin_login hnauth
      obtain ⟨-, stage', hnext', hview⟩ := view_call_sent (by rw [hbegin]) (by rw [hbegin]) h
      rw [hstage] at hnext'
      obtain rfl := Option.some.inj hnext'
      rw [hview, hpending]
      exact .loggingIn reply hreply hnauth rfl rfl hmailbox rfl
    · have hbegin : begin x.system.session (.login userName password) =
          ⟨x.system.session, none, .returned .unit⟩ := by
        rw [begin, if_pos (show x.system.session.state = .authd from hauthd)]
      obtain ⟨-, stage', hnext', hview⟩ := view_call_unsent (by rw [hbegin]; exact Or.inl rfl) h
      rw [hstage] at hnext'
      obtain rfl := Option.some.inj hnext'
      rw [hview, hbegin, hauthd]
      refine .settled (Or.inl rfl) (Or.inl trivial) hpending ?_ rfl
      rw [show x.mailbox = none from hmailbox]
      exact agrees_none (show ImapState.authd ≠ .selected by decide)
  | _ => cases hnext

/-- Every call keeps the invariant. -/
lemma inDialogue_call (hx : InDialogue x.view) (hreply : reply.Conforms)
    (hno : NoRefusedSelect x (.call c reply)) (h : x.step (.call c reply) = some x') :
    InDialogue x'.view := by
  have hfree : x.view.control.Free := (call_permitted h).1
  have hclash : ∀ {c}, x.view.control = c → ¬ c.Free → InDialogue x'.view :=
    fun hc hnot => absurd (hc ▸ hfree) hnot
  cases hx with
  | greeting type text htype hstate hpending hmailbox hplace =>
    rcases hplace with ⟨-, hstage⟩ | ⟨hcontrol, -⟩
    · exact inDialogue_call_greeting htype hstate hpending hmailbox hstage h
    · exact hclash hcontrol id
  | connected hstate _ hpending hmailbox hstage =>
    exact inDialogue_call_login hreply hstate hpending hmailbox hstage h
  | outside hstate _ hpending hmailbox hstage =>
    rcases view_call_mailbox hstage h with ⟨tag, -, hloops, hguard, -⟩ | ⟨ex, hview⟩
    · rw [hstate] at hguard
      exact absurd hguard (not_guard_nauth hloops)
    · rw [hview]
      exact .outside hstate trivial hpending hmailbox hstage
  | settled hstate _ hpending hagrees hstage =>
    rcases view_call_mailbox hstage h with ⟨tag, htag, hloops, -, hview⟩ | ⟨ex, hview⟩
    · rw [hview, hpending]
      exact .waiting c.firstWait reply tag hloops htag hreply hstate rfl rfl
        (leads_call hreply.status hagrees (fun name hc => hno name reply (by rw [hc])) hloops) rfl
    · rw [hview]
      exact .settled hstate (Or.inl trivial) hpending hagrees hstage
  | greeted _ _ hcontrol => exact hclash hcontrol id
  | loggingIn _ _ _ hcontrol => exact hclash hcontrol id
  | loggedIn hcontrol => exact hclash hcontrol id
  | waiting _ _ _ _ _ _ _ hcontrol => exact hclash hcontrol id
  | selecting _ hcontrol => exact hclash hcontrol id

end Calls

/-! ## The main result -/

/-- Every step under the conditions keeps the invariant. -/
lemma inDialogue_step (x : Dialogue) (e : DialogueEvent) (x' : Dialogue) (hx : InDialogue x.view)
    (he : e.Conforming ∧ NoRefusedSelect x e) (h : x.step e = some x') : InDialogue x'.view := by
  cases e with
  | call c reply => exact inDialogue_call hx he.1 he.2 h
  | transition =>
    obtain ⟨w, target, hmoving, hview⟩ := view_transition h
    rw [hview]
    exact inDialogue_transition hx hmoving
  | take =>
    have hwaits : ∃ w, x.view.control = .waiting w := by
      obtain ⟨s, hs, -⟩ := Option.map_eq_some_iff.mp h
      obtain ⟨w, hw, -⟩ := step_take_cases hs
      exact ⟨w, hw⟩
    obtain ⟨w₀, hw₀⟩ := hwaits
    obtain ⟨w, r, rs, hw, hpending, hview⟩ := view_take (hx.live hw₀) h
    rw [hview]
    exact inDialogue_take hx hw hpending
  | deliver =>
    rw [view_deliver hx.ne_bye h]
    exact hx

/-- **The selected mailbox.** After a greeting OK or PREAUTH, in every run of `receive_greeting`,
`login`, and any calls of `select`, `search` and `fetch`, whose replies conform and in which no
SELECT is answered NO while the session is in `SELECTED`: after each call the session is in
`SELECTED` exactly if the server has selected a mailbox, and this is then its current mailbox.

**Proof sketch.** While a call on a mailbox waits, what is pending ends with the status that the
server has acted on; an OK makes the session select as well, and BAD changes nothing on either side.
A NO leaves the state of the session as it is, which is right in `AUTHD` only. -/
theorem selected_agrees (type : ResponseType) (text : Bytes) (es : List DialogueEvent)
    (x : Dialogue) (htype : type = .ok ∨ type = .preauth) (hserver : ∀ e ∈ es, e.Conforming)
    (hno : Meets Dialogue.step NoRefusedSelect (.start (.status type [] text)) es)
    (hrun : run Dialogue.step (.start (.status type [] text)) es = some x)
    (hfree : x.system.control.Free) :
    Agrees x.system.session.state x.system.session.currentMailbox x.mailbox := by
  have hstart : InDialogue (Dialogue.start (.status type [] text)).view :=
    .greeting type text htype rfl rfl rfl (Or.inl ⟨rfl, rfl⟩)
  have hmeets : Meets Dialogue.step (fun x e => e.Conforming ∧ NoRefusedSelect x e)
      (.start (.status type [] text)) es := by
    intro es₁ e es₂ x₁ hes hrun₁
    have hmem : e ∈ es := by
      rw [hes]
      simp
    exact ⟨hserver e hmem, hno es₁ e es₂ x₁ hes hrun₁⟩
  exact (invariant (I := fun x => InDialogue x.view) inDialogue_step hstart hmeets hrun).agrees
    hfree

/-- A greeting, a login and the SELECT of a mailbox. -/
def selectInbox : List DialogueEvent :=
  [.call .receiveGreeting ⟨[], .ok, []⟩, .deliver, .take, .transition,
    .call (.login (ascii "smith") (ascii "sesame")) ⟨[], .ok, ascii "done"⟩, .deliver, .take,
    .transition, .call (.select (ascii "INBOX")) ⟨[.flags], .ok, ascii "done"⟩, .deliver, .take,
    .deliver, .take, .transition]

/-- The replies in it conform. -/
lemma selectInbox_conforming : ∀ e ∈ selectInbox, e.Conforming := by
  have hok : Reply.Conforms ⟨[], .ok, ascii "done"⟩ := ⟨nofun, .ok, rfl⟩
  have hflags : Reply.Conforms ⟨[.flags], .ok, ascii "done"⟩ := by
    refine ⟨fun r hr => ?_, .ok, rfl⟩
    rw [List.mem_singleton.mp hr]
    exact ⟨trivial, nofun⟩
  have hgreeting : Reply.Conforms ⟨[], .ok, []⟩ := ⟨nofun, .ok, rfl⟩
  simp only [selectInbox, List.forall_mem_cons, DialogueEvent.Conforming, true_and]
  exact ⟨hgreeting, hok, hflags, nofun⟩

/-- A first SELECT. -/
theorem selected_agrees_inbox : Agrees .selected (ascii "INBOX") (some (ascii "INBOX")) := by
  refine selected_agrees .ok (ascii "hello") selectInbox
    ⟨⟨⟨.selected, 2, ascii "INBOX", []⟩, .returned .unit⟩, [], some (ascii "INBOX"), .mailbox⟩
    (Or.inl rfl) selectInbox_conforming ?_ rfl trivial
  intro es₁ e es₂ x₁ hes _ name reply he
  have hmem : e ∈ selectInbox := by
    rw [hes]
    simp
  rw [he] at hmem
  simp only [selectInbox, List.mem_cons, List.not_mem_nil, or_false, DialogueEvent.call.injEq,
    reduceCtorEq, false_and, false_or, or_self] at hmem
  rw [hmem.2]
  exact nofun

/-- A second SELECT that is answered NO: no mailbox is selected any more, and the session is still
in `SELECTED` with the first one. -/
theorem selected_disagrees :
    ∃ x, run Dialogue.step (.start (.status .ok [] (ascii "hello")))
        (selectInbox ++ [.call (.select (ascii "Lost")) ⟨[], .no, ascii "no such mailbox"⟩,
          .deliver, .take]) = some x ∧
      (∀ e ∈ selectInbox ++ [.call (.select (ascii "Lost")) ⟨[], .no, ascii "no such mailbox"⟩,
          .deliver, .take], e.Conforming) ∧
      x.system.control.Free ∧ x.system.session.state = .selected ∧
      x.system.session.currentMailbox = ascii "INBOX" ∧ x.mailbox = none ∧
      ¬ Agrees x.system.session.state x.system.session.currentMailbox x.mailbox := by
  refine ⟨_, rfl, ?_, trivial, rfl, rfl, rfl, fun h => ?_⟩
  · have hno : Reply.Conforms ⟨[], .no, ascii "no such mailbox"⟩ := ⟨nofun, .no, rfl⟩
    rw [List.forall_mem_append]
    refine ⟨selectInbox_conforming, ?_⟩
    simp only [List.forall_mem_cons, DialogueEvent.Conforming, true_and]
    exact ⟨hno, nofun⟩
  · cases h.selected.mp rfl

end Imapcl
