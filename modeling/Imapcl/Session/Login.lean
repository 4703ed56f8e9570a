import Imapcl.Session.Outcome
import Imapcl.Parser.WireForm

set_option relaxedAutoImplicit false
set_option autoImplicit false

/-!
# The reply to LOGIN

`select`, `search` and `fetch` skip untagged responses; `login`, like `receive_greeting` and `read`,
takes one response and ends with it. This file says what such an operation does under every
schedule, and which replies to LOGIN it therefore understands.

## Main definitions

* `Imapcl.AfterFirst` — an operation with one wait, after the responses that have arrived.
* `Imapcl.LoginUnderstands` — the outcome of a login, for a reply to it.

## Main results

* `Imapcl.Schedule.first` — every schedule ends with the reaction to the first response.
* `Imapcl.login_understands_iff` — a login understands the replies without untagged responses.
-/

namespace Imapcl

open Machine

/-! ## One wait -/

/-- The operation waits once: whatever response it takes ends the wait. -/
def Wait.Single (w : Wait) : Prop := ∀ state r w', react state r w ≠ .waiting w'

/-- The system while `a` is the session as the receiving thread alone would have left it: the
operation waits, has reacted to the first response, or has made the transition after it. -/
inductive AfterFirst (w : Wait) (a : Session) : System → Prop where
  | waiting : AfterFirst w a ⟨a, .waiting w⟩
  | reacted {r : Response} {rs : List Response} (hqueue : a.responseQueue = r :: rs) :
      AfterFirst w a ⟨{ a with responseQueue := rs }, react a.state r w⟩
  | moved {r : Response} {rs : List Response} {target : ImapState}
      (hqueue : a.responseQueue = r :: rs) (hreact : react a.state r w = .moving w target) :
      AfterFirst w a ⟨⟨target, a.tag, mailboxAfter a.currentMailbox w, rs⟩, .returned .unit⟩

section Single

variable {w : Wait} {a : Session} {x x' : System} {e : Event}

/-- A step of the user's thread. -/
lemma AfterFirst.step (hw : w.Single) (hlive : ¬ a.state.Terminal) (hx : AfterFirst w a x)
    (he : e = .take ∨ e = .transition) (h : x.step e = some x') : AfterFirst w a x' := by
  rcases he with rfl | rfl
  · obtain ⟨w', hw', hcases⟩ := step_take_cases h
    cases hx with
    | waiting =>
      obtain rfl := Control.waiting.inj hw'
      rcases hcases with ⟨hterm, -, -⟩ | ⟨r, rs, -, hqueue, rfl⟩
      · exact absurd hterm hlive
      · exact .reacted hqueue
    | reacted hqueue => exact absurd hw' (hw _ _ _)
    | moved _ _ => cases hw'
  · obtain ⟨w', target, hmoving, rfl⟩ := step_transition_iff.mp h
    cases hx with
    | waiting => cases hmoving
    | reacted hqueue =>
      obtain ⟨rfl, hmoves, -⟩ := react_moving hmoving
      rw [hmoves.after]
      exact .moved hqueue hmoving
    | moved _ _ => cases hmoving

/-- A response that is queued. -/
lemma AfterFirst.arrive {r : Response} (hx : AfterFirst w a x) (hbye : r.getType ≠ .bye) :
    AfterFirst w (a.incoming r) ⟨x.session.incoming r, x.control⟩ := by
  have hpush : ∀ σ : Session, σ.incoming r = { σ with responseQueue := σ.responseQueue ++ [r] } :=
    fun σ => incoming_push fun h => hbye h.1
  rw [hpush, hpush]
  cases hx with
  | waiting => exact .waiting
  | @reacted q qs hqueue =>
    have hqueue' : a.responseQueue ++ [r] = q :: (qs ++ [r]) := by
      rw [hqueue]
      rfl
    exact .reacted (a := { a with responseQueue := a.responseQueue ++ [r] }) hqueue'
  | @moved q qs target hqueue hreact =>
    have hqueue' : a.responseQueue ++ [r] = q :: (qs ++ [r]) := by
      rw [hqueue]
      rfl
    exact .moved (a := { a with responseQueue := a.responseQueue ++ [r] }) hqueue' hreact

/-- Where the operation ends. -/
lemma AfterFirst.ends (hx : AfterFirst w a x) (hdone : x.control.Free ∨ x.control = .undefined) :
    ∃ r rs, a.responseQueue = r :: rs ∧ x.session.responseQueue = rs ∧
      ((x.control = react a.state r w ∧ x.session.state = a.state ∧
          ∀ target, react a.state r w ≠ .moving w target) ∨
        ∃ target, react a.state r w = .moving w target ∧ x.control = .returned .unit ∧
          x.session.state = target) := by
  cases hx with
  | waiting => exact (hdone.elim id nofun).elim
  | @reacted r rs hqueue =>
    refine ⟨r, rs, hqueue, rfl, Or.inl ⟨rfl, rfl, fun target htarget => ?_⟩⟩
    rw [htarget] at hdone
    exact hdone.elim id nofun
  | @moved r rs target hqueue hreact =>
    exact ⟨r, rs, hqueue, rfl, Or.inr ⟨target, hreact, rfl, rfl⟩⟩

/-- **Operations with one wait.** On a connection that is alive, an operation that waits once has
ended, in every schedule in which no BYE and no failure comes, with its reaction to the first
response. -/
theorem Schedule.first {σ : Session} {c : Call} {rs : List Response} {es : List Event}
    (h : Schedule σ c (rs.map .incoming) es x) (hw : (begin σ c).control = .waiting w)
    (hsingle : w.Single) (hlive : ¬ σ.state.Terminal) (hbye : ∀ r ∈ rs, r.getType ≠ .bye) :
    AfterFirst w { (begin σ c).session with responseQueue := σ.responseQueue ++ rs } x := by
  obtain ⟨hstate, hqueue⟩ := begin_frame σ c
  obtain ⟨x₀, hcall, hrun⟩ := exists_of_run_cons h.run
  obtain ⟨-, rfl⟩ := step_call_iff.mp hcall
  rw [hw] at hrun
  rw [← hqueue, ← arrivals_incoming hbye, ← h.order]
  have hend := run_quiet
    (P := fun a ev y => ¬ a.state.Terminal ∧ AfterFirst w a y ∧
      ∀ e ∈ ev, ∃ r, e = .incoming r ∧ r.getType ≠ .bye) ?_ ?_ h.quiet
    (a := (begin σ c).session) ⟨hstate ▸ hlive, .waiting, ?_⟩ hrun
  · exact hend.2.1
  · rintro a ev y e y' ⟨hlive, hy, hev⟩ he hstep
    exact ⟨hlive, hy.step hsingle hlive he hstep, hev⟩
  · rintro a e ev y ⟨hlive, hy, hev⟩
    obtain ⟨⟨r, rfl, hbye⟩, hrest⟩ := List.forall_mem_cons.mp hev
    refine ⟨?_, hy.arrive hbye, hrest⟩
    rwa [Session.arrive, incoming_push fun h => hbye h.1]
  · rw [h.order]
    intro e he
    obtain ⟨r, hr, rfl⟩ := List.mem_map.mp he
    exact ⟨r, rfl, hbye r hr⟩

end Single

/-! ## Logins -/

/-- An untagged response of a reply to LOGIN: OK, FLAGS, EXISTS or RECENT. -/
def Response.InLogin : Response → Prop
  | .flags => True
  | .singleNumber type _ => type = .exists ∨ type = .recent
  | .status type tag _ => type = .ok ∧ tag = []
  | _ => False

instance : DecidablePred Response.InLogin
  | .flags => isTrue trivial
  | .singleNumber type _ => inferInstanceAs (Decidable (type = .exists ∨ type = .recent))
  | .status type tag _ => inferInstanceAs (Decidable (type = .ok ∧ tag = []))
  | .base _ | .search _ | .fetch _ => isFalse id

/-- The responses of a reply to LOGIN with the status `c`. -/
def loginReply (us : List Response) (c : Cond) (text : Bytes) : List Response :=
  us ++ [.status c.type (ascii "a001") text]

/-- The login has consumed its reply, and it has returned in `AUTHD` if the status is OK, and has
failed in `NAUTH` if it is not. -/
structure LoginOutcome (c : Cond) (x : System) : Prop where
  queue : x.session.responseQueue = []
  ok : c = .ok → x.control = .returned .unit ∧ x.session.state = .authd
  failed : c ≠ .ok → x.session.state = .nauth ∧
    ∃ what, x.control = .threw (.runtimeError (ascii "LOGIN failed -> [" ++ what))

/-- A login to which the server replies so understands the reply under every schedule, of which
there is one. -/
def LoginUnderstands (σ : Session) (userName password : Bytes) (us : List Response) (c : Cond)
    (text : Bytes) : Prop :=
  (∃ es x, Schedule σ (.login userName password) ((loginReply us c text).map .incoming) es x) ∧
    ∀ es x, Schedule σ (.login userName password) ((loginReply us c text).map .incoming) es x →
      LoginOutcome c x

section Login

variable {σ : Session} {userName password : Bytes} {us : List Response} {c : Cond} {text : Bytes}

/-- A login waits once. -/
lemma single_login : Wait.login.Single := by
  intro state r w' h
  exact (react_waiting h).elim

/-- A login in `NAUTH` sends its command and waits. -/
lemma begin_login (hstate : σ.state = .nauth) :
    begin σ (.login userName password) =
      ⟨σ, some (.login (ascii "a001") userName password), .waiting .login⟩ := by
  rw [begin, hstate, if_neg (by decide), if_neg (by decide)]
  rfl

/-- No response of a reply to LOGIN is a BYE. -/
lemma loginReply_ne_bye (hus : ∀ r ∈ us, r.InLogin) :
    ∀ r ∈ loginReply us c text, r.getType ≠ .bye := by
  intro r hr
  rcases List.mem_append.mp hr with hr | hr
  · have hin := hus r hr
    cases r with
    | flags => exact nofun
    | singleNumber type number => rcases hin with rfl | rfl <;> exact nofun
    | status type tag text =>
      obtain ⟨rfl, -⟩ := hin
      exact nofun
    | _ => exact hin.elim
  · rw [List.mem_singleton.mp hr]
    cases c <;> exact nofun

/-- Where a login ends. -/
lemma Schedule.login {es : List Event} {x : System} (hstate : σ.state = .nauth)
    (hqueue : σ.responseQueue = []) (hus : ∀ r ∈ us, r.InLogin)
    (h : Schedule σ (.login userName password) ((loginReply us c text).map .incoming) es x) :
    AfterFirst .login { σ with responseQueue := loginReply us c text } x := by
  have hlive : ¬ σ.state.Terminal := by
    rw [hstate]
    decide
  have hfirst := h.first (w := .login) (by rw [begin_login hstate]) single_login hlive
    (loginReply_ne_bye hus)
  rwa [begin_login hstate, hqueue, List.nil_append] at hfirst

/-- The status OK of a reply to LOGIN is accepted. -/
lemma react_login_ok (text : Bytes) :
    react .nauth (.status Cond.ok.type (ascii "a001") text) .login = .moving .login .authd := rfl

/-- Another status fails. -/
lemma react_login_failed (text : Bytes) (hc : c ≠ .ok) :
    ∃ what, react .nauth (.status c.type (ascii "a001") text) .login =
      .threw (.runtimeError (ascii "LOGIN failed -> [" ++ what)) := by
  refine ⟨responseTypeToString c.type ++ ascii "] Server: " ++ text, ?_⟩
  cases c with
  | ok => exact absurd rfl hc
  | _ => rfl

/-- There is a schedule. -/
lemma exists_schedule_login (hstate : σ.state = .nauth) (hqueue : σ.responseQueue = [])
    (hus : ∀ r ∈ us, r.InLogin) : ∃ es x,
      Schedule σ (.login userName password) ((loginReply us c text).map .incoming) es x := by
  have hbye : ∀ r ∈ loginReply us c text, r.getType ≠ .bye := loginReply_ne_bye hus
  refine exists_schedule (w := .login) not_ofUser_incoming (by rw [begin_login hstate]) ?_ ?_
  · rw [begin_login hstate, arrivals_incoming hbye, hstate]
    decide
  · rw [begin_login hstate, arrivals_incoming hbye, hqueue, List.nil_append]
    cases hreply : loginReply us c text with
    | nil => exact absurd hreply (by simp [loginReply])
    | cons r rs =>
      intro w' hw'
      rw [feed_cons_of_ne (single_login _ _)] at hw'
      exact single_login _ _ _ hw'

/-- **Logins and untagged responses.** A login in `NAUTH` with an empty queue, to which the server
replies with untagged responses OK, FLAGS, EXISTS and RECENT and then a status with the tag `a001`,
understands the reply if and only if there are no untagged responses: `select` skips them, and
`login` takes the first of them for the reply.

**Proof sketch.** Under every schedule the login ends with its reaction to the first response. If
this is not the status, then the status is left in the queue. -/
theorem login_understands_iff (σ : Session) (userName password : Bytes) (us : List Response)
    (c : Cond) (text : Bytes) (hstate : σ.state = .nauth) (hqueue : σ.responseQueue = [])
    (hus : ∀ r ∈ us, r.InLogin) :
    LoginUnderstands σ userName password us c text ↔ us = [] := by
  constructor
  · rintro ⟨⟨es, x, hx⟩, hall⟩
    obtain ⟨r, rs, hreply, hrs, -⟩ := (hx.login hstate hqueue hus).ends hx.done
    obtain rfl : rs = [] := hrs.symm.trans (hall es x hx).queue
    have hlen := congrArg List.length hreply
    simp only [loginReply, List.length_append, List.length_cons, List.length_nil] at hlen
    exact List.length_eq_zero_iff.mp (by omega)
  · rintro rfl
    refine ⟨exists_schedule_login hstate hqueue hus, fun es x hx => ?_⟩
    obtain ⟨r, rs, hreply, hrs, hends⟩ := (hx.login hstate hqueue hus).ends hx.done
    obtain ⟨rfl, rfl⟩ := List.cons.inj hreply
    dsimp only at hends
    rw [hstate] at hends
    by_cases hc : c = .ok
    · subst hc
      rw [react_login_ok] at hends
      obtain ⟨target, htarget, hcontrol, hmoved⟩ := hends.resolve_left fun h => h.2.2 .authd rfl
      obtain ⟨-, rfl⟩ := Control.moving.inj htarget
      exact ⟨hrs, fun _ => ⟨hcontrol, hmoved⟩, fun h => absurd rfl h⟩
    · obtain ⟨what, hwhat⟩ := react_login_failed text hc
      rw [hwhat] at hends
      obtain ⟨hcontrol, hsame, -⟩ := hends.resolve_right fun ⟨_, h, _⟩ => by cases h
      exact ⟨hrs, fun h => absurd h hc, fun _ => ⟨hsame, what, hcontrol⟩⟩

/-- A reply to LOGIN that is refused is understood, and one with an untagged OK before the status is
not. -/
theorem login_understands_iff_refused :
    LoginUnderstands ⟨.nauth, 1, [], []⟩ (ascii "smith") (ascii "sesame") [] .no
        (ascii "failed") ∧
      ¬ LoginUnderstands ⟨.nauth, 1, [], []⟩ (ascii "smith") (ascii "sesame")
        [.status .ok [] (ascii "hello")] .ok (ascii "done") := by
  constructor
  · exact (login_understands_iff ⟨.nauth, 1, [], []⟩ (ascii "smith") (ascii "sesame") [] .no
      (ascii "failed") rfl rfl nofun).mpr rfl
  · intro hunderstands
    have hus : ∀ r ∈ [Response.status .ok [] (ascii "hello")], r.InLogin := by
      intro r hr
      rw [List.mem_singleton.mp hr]
      exact ⟨rfl, rfl⟩
    have hnil := (login_understands_iff ⟨.nauth, 1, [], []⟩ (ascii "smith") (ascii "sesame")
      [.status .ok [] (ascii "hello")] .ok (ascii "done") rfl rfl hus).mp hunderstands
    cases hnil

/-- An untagged OK before the status makes the login throw, although the status is OK. -/
theorem login_untagged :
    (∃ x, Schedule ⟨.nauth, 1, [], []⟩ (.login (ascii "smith") (ascii "sesame"))
        ((loginReply [.status .ok [] (ascii "hello")] .ok (ascii "done")).map .incoming)
        [.incoming (.status .ok [] (ascii "hello")),
          .incoming (.status .ok (ascii "a001") (ascii "done")), .take] x ∧
      x.control = .threw (.runtimeError (ascii "Unexpected tag"))) ∧
    ¬ LoginUnderstands ⟨.nauth, 1, [], []⟩ (ascii "smith") (ascii "sesame")
      [.status .ok [] (ascii "hello")] .ok (ascii "done") := by
  have hschedule : Schedule ⟨.nauth, 1, [], []⟩ (.login (ascii "smith") (ascii "sesame"))
      ((loginReply [.status .ok [] (ascii "hello")] .ok (ascii "done")).map .incoming)
      [.incoming (.status .ok [] (ascii "hello")),
        .incoming (.status .ok (ascii "a001") (ascii "done")), .take]
      ⟨⟨.nauth, 1, [], [.status .ok (ascii "a001") (ascii "done")]⟩,
        .threw (.runtimeError (ascii "Unexpected tag"))⟩ :=
    ⟨rfl, rfl, by simp [Event.Quiet], Or.inl trivial⟩
  refine ⟨⟨_, hschedule, rfl⟩, fun h => ?_⟩
  cases (h.2 _ _ hschedule).queue

end Login

end Imapcl
