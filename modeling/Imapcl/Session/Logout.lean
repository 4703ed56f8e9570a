import Imapcl.Session.Permitted

set_option relaxedAutoImplicit false
set_option autoImplicit false

/-!
# Logging out

`notify_incoming` and `wait_for_response` hold a mutex, `transition` and the sends do not. So while
`notify_incoming` has read the state and not yet acted on it, the user's thread cannot check the
queue, but it can make a transition. This machine cuts `notify_incoming` in two; the main result
says when a logout ends cleanly.

## Main definitions

* `Imapcl.Locking`, `Imapcl.LockEvent`, `Imapcl.Locking.step`.
* `Imapcl.LogoutSchedule` — a complete interleaving of a logout with the reply to it.

## Main results

* `Imapcl.locking_incoming` — the two parts of `notify_incoming` in a row are one step of
  `Imapcl.System`.
* `Imapcl.logout_clean_iff` — the interleavings in which a logout returns in `LOGOUT`.
-/

namespace Imapcl

open Machine

/-! ## The machine -/

/-- The two threads, with the response that `notify_incoming` is at and the state it has read. The
mutex is held while there is one. -/
structure Locking where
  system : System
  pending : Option (Response × ImapState)
  deriving DecidableEq, Repr

/-- The steps: those of the user's thread, the two parts of `notify_incoming`, and
`receiver_notify_failed`. -/
inductive LockEvent where
  | user (e : Event)
  | read (response : Response)
  | act
  | failed
  deriving DecidableEq, Repr

/-- The step holds the mutex. -/
def Event.Locks (e : Event) : Prop := e = .take ∨ e = .timeout

instance (e : Event) : Decidable e.Locks := inferInstanceAs (Decidable (_ ∨ _))

namespace Locking

/-- One step. -/
def step (x : Locking) : LockEvent → Option Locking
  | .user e =>
    if e.OfUser ∧ (e.Locks → x.pending = none) then
      (x.system.step e).map fun s => ⟨s, x.pending⟩
    else none
  | .read response =>
    if x.pending = none then some ⟨x.system, some (response, x.system.session.state)⟩ else none
  | .act => match x.pending with
    | none => none
    | some (response, state) =>
      some ⟨⟨x.system.session.incomingIn state response, x.system.control⟩, none⟩
  | .failed =>
    if x.pending = none then
      some ⟨⟨x.system.session.receiverNotifyFailed, x.system.control⟩, none⟩
    else none

end Locking

/-- The two parts of `notify_incoming` in a row are `notify_incoming`. -/
theorem locking_incoming (s : System) (r : Response) :
    run Locking.step ⟨s, none⟩ [.read r, .act] =
      (s.step (.incoming r)).map fun s' => ⟨s', none⟩ := by
  have hread : Locking.step ⟨s, none⟩ (.read r) = some ⟨s, some (r, s.session.state)⟩ := by
    rw [Locking.step, if_pos rfl]
  rw [run_cons hread]
  rfl

/-! ## Schedules -/

/-- The response that a step reads. -/
def LockEvent.response : LockEvent → Option Response
  | .read r => some r
  | _ => none

/-- A complete interleaving `es` of a logout, called on the session `σ`, with the responses of the
reply, after which both threads have finished: no other operation is called, no wait times out, and
the connection does not fail. -/
structure LogoutSchedule (σ : Session) (reply : List Response) (es : List LockEvent)
    (x : Locking) : Prop where
  run : run Locking.step ⟨⟨σ, .idle⟩, none⟩ (.user (.call .logout) :: es) = some x
  reads : es.filterMap LockEvent.response = reply
  quiet : ∀ e ∈ es, e ≠ .failed ∧ e ≠ .user .timeout ∧ ∀ c, e ≠ .user (.call c)
  done : x.system.control.Free ∧ x.pending = none

/-! ## The steps of a schedule -/

/-- A step that a schedule may contain, where `bye` is the only BYE of the reply. -/
def LockEvent.Replying (bye : Response) (e : LockEvent) : Prop :=
  (e ≠ .failed ∧ e ≠ .user .timeout ∧ ∀ c, e ≠ .user (.call c)) ∧
    ∀ r, e = .read r → r.getType = .bye → r = bye

section Steps

variable {x x' : Locking} {bye : Response} {e : LockEvent} {es : List LockEvent}

/-- The four kinds of steps in a schedule. -/
lemma replying_step_cases (he : e.Replying bye) (h : x.step e = some x') :
    (e = .user .transition ∧ x.system.step .transition = some x'.system ∧
        x'.pending = x.pending) ∨
      (e = .user .take ∧ x.pending = none ∧ x.system.step .take = some x'.system ∧
        x'.pending = none) ∨
      (∃ r, e = .read r ∧ (r.getType = .bye → r = bye) ∧ x.pending = none ∧
        x' = ⟨x.system, some (r, x.system.session.state)⟩) ∨
      (∃ r state, e = .act ∧ x.pending = some (r, state) ∧
        x' = ⟨⟨x.system.session.incomingIn state r, x.system.control⟩, none⟩) := by
  obtain ⟨⟨hfailed, htimeout, hcall⟩, hread⟩ := he
  cases e with
  | user e =>
    rw [Locking.step] at h
    split at h
    · next huser =>
      obtain ⟨s, hs, rfl⟩ := Option.map_eq_some_iff.mp h
      cases e with
      | transition => exact Or.inl ⟨rfl, hs, rfl⟩
      | take => exact Or.inr (Or.inl ⟨rfl, huser.2 (Or.inl rfl), hs, huser.2 (Or.inl rfl)⟩)
      | call c => exact absurd rfl (hcall c)
      | timeout => exact absurd rfl htimeout
      | incoming r => exact huser.1.elim
      | failed => exact huser.1.elim
    · cases h
  | read r =>
    rw [Locking.step] at h
    split at h
    · next hnone =>
      exact Or.inr (Or.inr (Or.inl ⟨r, rfl, hread r rfl, hnone, (Option.some.inj h).symm⟩))
    · cases h
  | act =>
    rw [Locking.step] at h
    split at h
    · cases h
    · next r state hsome =>
      exact Or.inr (Or.inr (Or.inr ⟨r, state, rfl, hsome, (Option.some.inj h).symm⟩))
  | failed => exact absurd rfl hfailed

/-! ## Before the transition -/

/-- The transition to `LOGOUT` has not been made: no state that was read is `LOGOUT`, and the
response that is being notified was read in the last step. -/
structure Leaving (bye : Response) (es : List LockEvent) (x : Locking) : Prop where
  control : x.system.control = .moving .logout .logout
  state : x.system.session.state ≠ .logout
  first : .user .transition ∉ es
  last : ∀ r, es.getLast? = some (.read r) ↔ ∃ state, x.pending = some (r, state)
  pending : ∀ r state, x.pending = some (r, state) →
    state ≠ .logout ∧ (r.getType = .bye → r = bye)

/-- Notifying a response does not lead to `LOGOUT`. -/
lemma incomingIn_state_ne {σ : Session} {state : ImapState} {r : Response}
    (h : σ.state ≠ .logout) : (σ.incomingIn state r).state ≠ .logout := by
  rcases incomingIn_cases σ state r with ⟨-, -, h' | h'⟩ | ⟨-, h'⟩
  · rw [h']
    exact nofun
  · rw [h']
    exact nofun
  · rwa [h']

/-- A step before the transition. -/
lemma leaving_step (hx : Leaving bye es x) (he : e.Replying bye) (hne : e ≠ .user .transition)
    (h : x.step e = some x') : Leaving bye (es ++ [e]) x' := by
  have hfirst : .user .transition ∉ es ++ [e] := by
    rw [List.mem_append, List.mem_singleton, not_or]
    exact ⟨hx.first, hne.symm⟩
  rcases replying_step_cases he h with ⟨rfl, -, -⟩ | ⟨rfl, -, hstep, -⟩ | ⟨r, rfl, hr, -, rfl⟩ |
    ⟨r, state, rfl, -, rfl⟩
  · exact absurd rfl hne
  · obtain ⟨w, hw, -⟩ := step_take_cases hstep
    rw [hx.control] at hw
    cases hw
  · refine ⟨hx.control, hx.state, hfirst, fun r' => ?_, fun r' state' hsome => ?_⟩
    · rw [List.getLast?_concat, Option.some.injEq, LockEvent.read.injEq]
      constructor
      · rintro rfl
        exact ⟨_, rfl⟩
      · rintro ⟨state', hsome⟩
        exact congrArg Prod.fst (Option.some.inj hsome)
    · obtain ⟨rfl, rfl⟩ := Prod.mk.inj (Option.some.inj hsome)
      exact ⟨hx.state, hr⟩
  · refine ⟨hx.control, incomingIn_state_ne hx.state, hfirst, fun r' => ?_, nofun⟩
    rw [List.getLast?_concat]
    exact iff_of_false (by simp) (by simp)

/-! ## After the transition -/

/-- The state is `LOGOUT`, and no BYE is being notified that was read in another state. -/
structure LeftClean (x : Locking) : Prop where
  control : x.system.control = .waiting .logout ∨ x.system.control = .returned .unit
  state : x.system.session.state = .logout
  pending : ∀ r state, x.pending = some (r, state) → ¬ (r.getType = .bye ∧ state ≠ .logout)

/-- The connection is lost, or will be by the BYE that is being notified. -/
structure LeftLost (x : Locking) : Prop where
  control : x.system.control = .waiting .logout ∨ ∃ ex, x.system.control = .threw ex
  pending : x.system.session.state.Terminal ∨ x.system.control = .waiting .logout ∧
    ∃ r state, x.pending = some (r, state) ∧ r.getType = .bye ∧ state ≠ .logout

/-- A clean logout stays clean. -/
lemma leftClean_step (hx : LeftClean x) (he : e.Replying bye) (h : x.step e = some x') :
    LeftClean x' := by
  have hlive : ¬ x.system.session.state.Terminal := by
    rw [hx.state]
    decide
  rcases replying_step_cases he h with ⟨-, hstep, -⟩ | ⟨-, -, hstep, hnone⟩ |
    ⟨r, -, -, -, rfl⟩ | ⟨r, state, -, hsome, rfl⟩
  · obtain ⟨w, target, hmoving, -⟩ := step_transition_iff.mp hstep
    rcases hx.control with hc | hc <;> rw [hc] at hmoving <;> cases hmoving
  · obtain ⟨w, hw, ⟨hterm, -, -⟩ | ⟨r, rs, -, -, hs⟩⟩ := step_take_cases hstep
    · exact absurd hterm hlive
    · have hw' : w = .logout := by
        rcases hx.control with hc | hc <;> rw [hc] at hw <;> cases hw
        rfl
      refine ⟨Or.inr ?_, ?_, ?_⟩
      · rw [hs, hw']
        rfl
      · rw [hs]
        exact hx.state
      · rw [hnone]
        exact nofun
  · refine ⟨hx.control, hx.state, fun r' state' hsome => ?_⟩
    obtain ⟨-, rfl⟩ := Prod.mk.inj (Option.some.inj hsome)
    exact fun hbye => hbye.2 hx.state
  · refine ⟨hx.control, ?_, nofun⟩
    rcases incomingIn_cases x.system.session state r with ⟨hbye, hstate, -⟩ | ⟨-, hpush⟩
    · exact absurd ⟨hbye, hstate⟩ (hx.pending r state hsome)
    · show (x.system.session.incomingIn state r).state = .logout
      rw [hpush]
      exact hx.state

/-- A lost logout stays lost. -/
lemma leftLost_step (hx : LeftLost x) (he : e.Replying bye) (h : x.step e = some x') :
    LeftLost x' := by
  rcases replying_step_cases he h with ⟨-, hstep, -⟩ | ⟨-, hfree, hstep, -⟩ |
    ⟨r, -, -, hfree, rfl⟩ | ⟨r, state, -, hsome, rfl⟩
  · obtain ⟨w, target, hmoving, -⟩ := step_transition_iff.mp hstep
    rcases hx.control with hc | ⟨ex, hc⟩ <;> rw [hc] at hmoving <;> cases hmoving
  · have hterm : x.system.session.state.Terminal := by
      refine hx.pending.resolve_right ?_
      rintro ⟨-, r, state, hsome, -⟩
      rw [hfree] at hsome
      cases hsome
    obtain ⟨w, -, ⟨-, hsame, ex, hex⟩ | ⟨r, rs, hlive, -⟩⟩ := step_take_cases hstep
    · exact ⟨Or.inr ⟨ex, hex⟩, Or.inl (by rwa [hsame])⟩
    · exact absurd hterm hlive
  · refine ⟨hx.control, hx.pending.imp_right ?_⟩
    rintro ⟨-, r', state', hsome, -⟩
    rw [hfree] at hsome
    cases hsome
  · refine ⟨hx.control, Or.inl ?_⟩
    show (x.system.session.incomingIn state r).state.Terminal
    rcases incomingIn_cases x.system.session state r with ⟨-, -, h' | h'⟩ | ⟨hnot, h'⟩
    · rw [h']
      exact Or.inr rfl
    · rw [h']
      exact Or.inl rfl
    · rw [h']
      refine hx.pending.resolve_right ?_
      rintro ⟨-, r', state', hsome', hbye⟩
      obtain ⟨rfl, rfl⟩ := Prod.mk.inj (Option.some.inj (hsome.symm.trans hsome'))
      exact hnot hbye

/-- The transition: the logout is lost if the BYE was read in the step before it. -/
lemma leaving_transition (hbye : bye.getType = .bye) (hx : Leaving bye es x)
    (he : LockEvent.Replying bye (.user .transition))
    (h : x.step (.user .transition) = some x') :
    es.getLast? = some (.read bye) ∧ LeftLost x' ∨
      es.getLast? ≠ some (.read bye) ∧ LeftClean x' := by
  rcases replying_step_cases he h with ⟨-, hstep, hpending⟩ | ⟨heq, -⟩ | ⟨r, heq, -⟩ |
    ⟨r, state, heq, -⟩
  · obtain ⟨w, target, hmoving, hs⟩ := step_transition_iff.mp hstep
    obtain ⟨rfl, rfl⟩ := Control.moving.inj (hx.control.symm.trans hmoving)
    have hcontrol : x'.system.control = .waiting .logout := by
      rw [hs]
      rfl
    by_cases hlast : es.getLast? = some (.read bye)
    · obtain ⟨state, hsome⟩ := (hx.last bye).mp hlast
      refine Or.inl ⟨hlast, Or.inl hcontrol, Or.inr ⟨hcontrol, bye, state, ?_, hbye, ?_⟩⟩
      · rw [hpending, hsome]
      · exact (hx.pending bye state hsome).1
    · refine Or.inr ⟨hlast, Or.inl hcontrol, by rw [hs], ?_⟩
      rintro r state hsome ⟨hr, -⟩
      rw [hpending] at hsome
      rw [(hx.pending r state hsome).2 hr] at hsome
      exact hlast ((hx.last bye).mpr ⟨state, hsome⟩)
  · cases heq
  · cases heq
  · cases heq

end Steps

/-! ## The schedules -/

/-- A pair of neighbours at the end of a list, or before it. -/
lemma infix_pair_concat {α : Type} {a b c : α} {l : List α} :
    [a, b] <:+: l ++ [c] ↔ l.getLast? = some a ∧ c = b ∨ [a, b] <:+: l := by
  rw [List.infix_concat_iff]
  refine or_congr_left ?_
  rw [List.suffix_concat_iff, ← List.singleton_suffix_iff_getLast?_eq_some]
  constructor
  · rintro (hnil | ⟨t, ht, hsuffix⟩)
    · cases hnil
    · obtain ⟨rfl, hcb⟩ := List.append_inj' (show [a] ++ [b] = t ++ [c] from ht) rfl
      exact ⟨hsuffix, (List.cons.inj hcb).1.symm⟩
  · rintro ⟨hsuffix, rfl⟩
    exact Or.inr ⟨[a], rfl, hsuffix⟩

/-- The three phases of a schedule. -/
lemma logout_phases {bye : Response} {es : List LockEvent} {x x' : Locking}
    (hbye : bye.getType = .bye) (hx : Leaving bye [] x) (hes : ∀ e ∈ es, e.Replying bye)
    (h : run Locking.step x es = some x') :
    Leaving bye es x' ∨ ¬ [.read bye, .user .transition] <:+: es ∧ LeftClean x' ∨
      [.read bye, .user .transition] <:+: es ∧ LeftLost x' := by
  refine history_invariant (C := fun _ e => e.Replying bye)
    (I := fun es x => Leaving bye es x ∨ ¬ [.read bye, .user .transition] <:+: es ∧ LeftClean x ∨
      [.read bye, .user .transition] <:+: es ∧ LeftLost x) (Or.inl hx) ?_ ?_ h
  · intro es x₁ e x₂ _ hI he hstep
    rw [infix_pair_concat]
    rcases hI with hleaving | ⟨hpair, hclean⟩ | ⟨hpair, hlost⟩
    · have hpair : ¬ [.read bye, .user .transition] <:+: es := fun hpair =>
        hleaving.first (hpair.subset (by simp))
      by_cases htransition : e = .user .transition
      · subst htransition
        refine Or.inr ?_
        rcases leaving_transition hbye hleaving he hstep with ⟨hlast, hlost⟩ | ⟨hlast, hclean⟩
        · exact Or.inr ⟨Or.inl ⟨hlast, rfl⟩, hlost⟩
        · exact Or.inl ⟨not_or.mpr ⟨fun hpair => hlast hpair.1, hpair⟩, hclean⟩
      · exact Or.inl (leaving_step hleaving he htransition hstep)
    · refine Or.inr (Or.inl ⟨not_or.mpr ⟨?_, hpair⟩, leftClean_step hclean he hstep⟩)
      rintro ⟨-, rfl⟩
      rcases replying_step_cases he hstep with ⟨-, hs, -⟩ | ⟨heq, -⟩ | ⟨r, heq, -⟩ |
        ⟨r, state, heq, -⟩
      · obtain ⟨w, target, hmoving, -⟩ := step_transition_iff.mp hs
        rcases hclean.control with hc | hc <;> rw [hc] at hmoving <;> cases hmoving
      · cases heq
      · cases heq
      · cases heq
    · exact Or.inr (Or.inr ⟨Or.inr hpair, leftLost_step hlost he hstep⟩)
  · intro es₁ e es₂ x₁ hsplit _
    exact hes e (by rw [hsplit]; simp)

/-- **Clean logouts.** A logout in an open state, whose reply is any number of responses that are
no BYE, then a BYE, then the tagged OK, returns in `LOGOUT` under a schedule if and only if the
receiving thread does not read the state for the BYE right before the transition to `LOGOUT`, and
act on it after.

**Proof sketch.** Before the transition no state that is read is `LOGOUT`, and while a response is
being notified no other step than the transition is possible. So at the transition the BYE is being
notified exactly if it was read in the step before; then it sets `SERVER_BYED` although the state
is `LOGOUT`, and the wait throws. Otherwise every further response is queued. -/
theorem logout_clean_iff (σ : Session) (us : List Response) (bye ok : Response)
    (es : List LockEvent) (x : Locking) (hσ : σ.state.Open)
    (hus : ∀ u ∈ us, u.getType ≠ .bye) (hbye : bye.getType = .bye) (hok : ok.getType = .ok)
    (hes : LogoutSchedule σ (us ++ [bye, ok]) es x) :
    (x.system.control = .returned .unit ∧ x.system.session.state = .logout) ↔
      ¬ [.read bye, .user .transition] <:+: es := by
  obtain ⟨x₀, hcall, hrun⟩ := exists_of_run_cons hes.run
  have hx₀ : x₀ = ⟨⟨σ.getNewTag.2, .moving .logout .logout⟩, none⟩ :=
    (Option.some.inj hcall).symm
  have hleaving : Leaving bye [] x₀ := by
    rw [hx₀]
    refine ⟨rfl, ?_, by simp, by simp, nofun⟩
    show σ.state ≠ .logout
    intro hlogout
    rw [hlogout] at hσ
    revert hσ
    decide
  have hreplying : ∀ e ∈ es, e.Replying bye := by
    refine fun e he => ⟨hes.quiet e he, ?_⟩
    rintro r rfl hr
    have hmem : r ∈ us ++ [bye, ok] := by
      rw [← hes.reads]
      exact List.mem_filterMap.mpr ⟨_, he, rfl⟩
    rcases List.mem_append.mp hmem with hmem | hmem
    · exact absurd hr (hus r hmem)
    · rw [List.mem_cons, List.mem_singleton] at hmem
      rcases hmem with rfl | rfl
      · rfl
      · rw [hok] at hr
        cases hr
  have hfree := hes.done.1
  rcases logout_phases hbye hleaving hreplying hrun with hmid | ⟨hpair, hclean⟩ |
    ⟨hpair, hlost⟩
  · rw [hmid.control] at hfree
    exact hfree.elim
  · refine iff_of_true ⟨?_, hclean.state⟩ hpair
    refine hclean.control.resolve_left fun hwaiting => ?_
    rw [hwaiting] at hfree
    exact hfree
  · refine iff_of_false ?_ (not_not_intro hpair)
    rintro ⟨hreturned, -⟩
    rcases hlost.control with hc | ⟨ex, hc⟩ <;> rw [hreturned] at hc <;> cases hc

/-- A reply that comes after the transition. -/
theorem logout_clean_iff_late :
    ∃ x, LogoutSchedule ⟨.nauth, 1, [], []⟩
        [.status .bye [] (ascii "bye"), .status .ok (ascii "1") (ascii "done")]
        [.user .transition, .read (.status .bye [] (ascii "bye")), .act,
          .read (.status .ok (ascii "1") (ascii "done")), .act, .user .take] x ∧
      x.system.control = .returned .unit ∧ x.system.session.state = .logout := by
  have hes : LogoutSchedule ⟨.nauth, 1, [], []⟩
      ([] ++ [.status .bye [] (ascii "bye"), .status .ok (ascii "1") (ascii "done")])
      [.user .transition, .read (.status .bye [] (ascii "bye")), .act,
        .read (.status .ok (ascii "1") (ascii "done")), .act, .user .take]
      ⟨⟨⟨.logout, 2, [], [.status .ok (ascii "1") (ascii "done")]⟩, .returned .unit⟩, none⟩ :=
    ⟨rfl, rfl, by simp, trivial, rfl⟩
  exact ⟨_, hes, (logout_clean_iff _ [] _ _ _ _ (by decide) (by simp) rfl rfl hes).mpr
    (by decide)⟩

/-- The BYE that is read before the transition and acted on after it. -/
theorem logout_lost :
    ∃ x, LogoutSchedule ⟨.nauth, 1, [], []⟩
        [.status .bye [] (ascii "bye"), .status .ok (ascii "1") (ascii "done")]
        [.read (.status .bye [] (ascii "bye")), .user .transition, .act,
          .read (.status .ok (ascii "1") (ascii "done")), .act, .user .take] x ∧
      x.system.session.state = .serverByed ∧
      x.system.control =
        .threw (.runtimeError (ascii "Connection terminated by server.")) := by
  refine ⟨_, ⟨rfl, rfl, ?_, ?_, rfl⟩, rfl, rfl⟩
  · simp
  · trivial

end Imapcl
