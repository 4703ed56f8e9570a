import Imapcl.Session.Reply
import Imapcl.Session.Schedule

set_option relaxedAutoImplicit false
set_option autoImplicit false

/-!
# Schedules and outcomes

`wait_for_response` looks at the connection before it looks at the queue, so that a wait fails as
soon as the connection is lost, also when the reply is there. The main result says for which
sequences of events the outcome of an operation depends on the schedule.

## Main definitions

* `Imapcl.SameOutcome` — what two schedules agree on.
* `Imapcl.LateEnd` — the connection is lost after the responses that complete the operation.
* `Imapcl.NullResult` — the responses lead the operation to a null pointer.

## Main results

* `Imapcl.outcome_iff` — the outcome is the same under all schedules if and only if there is no
  late end.
-/

namespace Imapcl

open Machine

/-! ## Definitions -/

/-- Both return the same value and end in the same state, or both throw. -/
def SameOutcome (x y : System) : Prop :=
  (∃ v, x.control = .returned v ∧ y.control = .returned v ∧
      x.session.state = y.session.state) ∨
    (∃ ex, x.control = .threw ex) ∧ ∃ ex, y.control = .threw ex

/-- A BYE or a failure comes while the connection is alive, and after responses that complete the
operation that waits in `w`. -/
def LateEnd (state : ImapState) (w : Wait) (σ : Session) (ev : List Event) : Prop :=
  ∃ ev₁ e ev₂, ev = ev₁ ++ e :: ev₂ ∧ e.Ends ∧ ¬ (σ.arrivals ev₁).state.Terminal ∧
    (feed state w (σ.arrivals ev₁).responseQueue).Completed

/-- While the connection is alive, the responses lead the operation that waits in `w` to a null
pointer, as those to a search do that is answered OK without a SEARCH response. -/
def NullResult (state : ImapState) (w : Wait) (σ : Session) (ev : List Event) : Prop :=
  ∃ ev₁ ev₂, ev = ev₁ ++ ev₂ ∧ ¬ (σ.arrivals ev₁).state.Terminal ∧
    feed state w (σ.arrivals ev₁).responseQueue = .undefined

/-! ## On course -/

/-- While the connection is alive, the user's thread is on its way to the place `c` to which the
responses so far lead, or has made the transition that `c` is before. -/
inductive OnCourse (state : ImapState) (c : Control) : System → Prop where
  | waiting {σ : Session} {w : Wait} (hstate : σ.state = state)
      (hfeed : feed state w σ.responseQueue = c) : OnCourse state c ⟨σ, .waiting w⟩
  | ended {σ : Session} (hstate : σ.state = state) (hne : ∀ w, c ≠ .waiting w) :
      OnCourse state c ⟨σ, c⟩
  | moved {σ : Session} {w : Wait} {target : ImapState} (hstate : σ.state = target)
      (hc : c = .moving w target) : OnCourse state c ⟨σ, .returned .unit⟩

/-- The user's thread has thrown, or waits on a lost connection. -/
def OffCourse (x : System) : Prop :=
  (∃ w, x.control = .waiting w ∧ x.session.state.Terminal) ∨ ∃ ex, x.control = .threw ex

section Course

variable {state : ImapState} {c : Control} {x x' : System} {σ : Session} {e : Event}

/-- Taking a response keeps the course. -/
lemma OnCourse.take (hx : OnCourse state c x) (hlive : ¬ state.Terminal)
    (h : x.step .take = some x') : OnCourse state c x' := by
  obtain ⟨w, hw, hcases⟩ := step_take_cases h
  cases hx with
  | @waiting σ w₁ hstate hfeed =>
    obtain rfl := Control.waiting.inj hw
    rcases hcases with ⟨hterm, -, -⟩ | ⟨r, rs, -, hqueue, rfl⟩
    · exact absurd (hstate ▸ hterm) hlive
    · dsimp only at hqueue hstate ⊢
      rw [hqueue] at hfeed
      rw [hstate]
      rcases (react state r w₁).waits with ⟨w', hw'⟩ | hne
      · rw [feed_cons hw'] at hfeed
        rw [hw']
        exact .waiting rfl hfeed
      · rw [feed_cons_of_ne hne] at hfeed
        subst hfeed
        exact .ended rfl hne
  | ended _ hne => exact absurd hw (hne w)
  | moved _ _ => cases hw

/-- So does the transition of an operation that ends with it. -/
lemma OnCourse.transition (hx : OnCourse state c x)
    (hmoves : ∀ w target, c = .moving w target → w.Moves)
    (h : x.step .transition = some x') : OnCourse state c x' := by
  obtain ⟨w, target, hmoving, rfl⟩ := step_transition_iff.mp h
  cases hx with
  | waiting _ _ => cases hmoving
  | ended _ _ =>
    rw [(hmoves w target hmoving).after]
    exact .moved rfl hmoving
  | moved _ _ => cases hmoving

/-- A user's thread that is off course stays so. -/
lemma OffCourse.step (hx : OffCourse x) (he : e = .take ∨ e = .transition)
    (h : x.step e = some x') : OffCourse x' := by
  rcases he with rfl | rfl
  · obtain ⟨w, hw, ⟨hterm, hsame, ex, hex⟩ | ⟨r, rs, hlive, -⟩⟩ := step_take_cases h
    · exact Or.inr ⟨ex, hex⟩
    · rcases hx with ⟨w', hw', hterm⟩ | ⟨ex, hex⟩
      · exact absurd hterm hlive
      · rw [hex] at hw
        cases hw
  · obtain ⟨w, target, hmoving, -⟩ := step_transition_iff.mp h
    rcases hx with ⟨w', hw', -⟩ | ⟨ex, hex⟩
    · rw [hw'] at hmoving
      cases hmoving
    · rw [hex] at hmoving
      cases hmoving

/-- The receiving thread does not bring it back on course. -/
lemma OffCourse.arrive (hx : OffCourse x) (e : Event) :
    OffCourse ⟨x.session.arrive e, x.control⟩ := by
  refine hx.imp_left ?_
  rintro ⟨w, hw, hterm⟩
  refine ⟨w, hw, ?_⟩
  exact arrive_terminal hterm

/-- An operation on course that is not completed waits or has thrown. -/
lemma OnCourse.waits {w : Wait} {rs : List Response}
    (hx : OnCourse state (feed state w rs) x) (hc : ¬ (feed state w rs).Completed) :
    (∃ w', x.control = .waiting w' ∧ x.session.state = state) ∨ ∃ ex, x.control = .threw ex := by
  cases hx with
  | waiting hstate _ => exact Or.inl ⟨_, rfl, hstate⟩
  | ended _ hne =>
    rcases feed_cases state w rs with ⟨w', h⟩ | ⟨w', target, h⟩ | ⟨-, ⟨v, h⟩ | h⟩ | h
    · exact absurd h (hne w')
    · exact absurd (by rw [h]; trivial) hc
    · exact absurd (by rw [h]; trivial) hc
    · exact absurd (by rw [h]; trivial) hc
    · exact Or.inr h
  | moved _ hmoving => exact absurd (by rw [hmoving]; trivial) hc

/-- A response that is queued keeps the course. -/
lemma OnCourse.push {w : Wait} {a : Session} {r : Response}
    (hx : OnCourse state (feed state w a.responseQueue) x)
    (hpush : ¬ (r.getType = .bye ∧ state ≠ .logout))
    (hlate : r.getType = .bye → ¬ (feed state w a.responseQueue).Completed) :
    OnCourse state (feed state w (a.responseQueue ++ [r]))
      ⟨x.session.incoming r, x.control⟩ := by
  cases hx with
  | waiting hstate hfeed =>
    subst hstate
    rw [incoming_push hpush]
    exact .waiting rfl (feed_append_congr hfeed)
  | ended hstate hne =>
    subst hstate
    rw [incoming_push hpush, feed_append_of_ne hne]
    exact .ended rfl hne
  | @moved σ w' target hstate hc =>
    have hbye : ¬ (r.getType = .bye ∧ σ.state ≠ .logout) := fun h =>
      hlate h.1 (by rw [hc]; trivial)
    rw [incoming_push hbye, feed_append_of_ne (by rw [hc]; exact nofun)]
    exact .moved hstate hc

/-- The user's thread is on course while the connection is alive, and off course after it has been
lost; `a` is the session as the receiving thread alone would have left it. -/
def Tracks (state : ImapState) (w : Wait) (a : Session) (x : System) : Prop :=
  (¬ a.state.Terminal ∧ a.state = state ∧ OnCourse state (feed state w a.responseQueue) x) ∨
    (a.state.Terminal ∧ OffCourse x)

/-- A step of the receiving thread, without a late end. -/
lemma Tracks.arrive {w : Wait} {a : Session} (hx : Tracks state w a x)
    (hlate : e.Ends → ¬ a.state.Terminal → ¬ (feed state w a.responseQueue).Completed) :
    Tracks state w (a.arrive e) ⟨x.session.arrive e, x.control⟩ := by
  rcases hx with ⟨hlive, rfl, hon⟩ | ⟨hterm, hoff⟩
  · cases e with
    | incoming r =>
      by_cases hbye : r.getType = .bye ∧ a.state ≠ .logout
      · refine Or.inr ⟨incoming_terminal hbye, ?_⟩
        rcases hon.waits (hlate hbye.1 hlive) with ⟨w', hw', hstate⟩ | hthrew
        · exact Or.inl ⟨w', hw', incoming_terminal ⟨hbye.1, hstate ▸ hbye.2⟩⟩
        · exact Or.inr hthrew
      · have harrive := incoming_push hbye
        refine Or.inl ⟨?_, ?_, ?_⟩
        · rwa [Session.arrive, harrive]
        · rw [Session.arrive, harrive]
        · rw [Session.arrive, harrive]
          exact hon.push hbye fun h => hlate h hlive
    | failed =>
      refine Or.inr ⟨Or.inl rfl, ?_⟩
      rcases hon.waits (hlate trivial hlive) with ⟨w', hw', -⟩ | hthrew
      · exact Or.inl ⟨w', hw', Or.inl rfl⟩
      · exact Or.inr hthrew
    | _ => exact Or.inl ⟨hlive, rfl, hon⟩
  · exact Or.inr ⟨arrive_terminal hterm, hoff.arrive e⟩

/-- A step of the user's thread. -/
lemma Tracks.step {w : Wait} {a : Session} (hx : Tracks state w a x)
    (he : e = .take ∨ e = .transition) (h : x.step e = some x') : Tracks state w a x' := by
  rcases hx with ⟨hlive, rfl, hon⟩ | ⟨hterm, hoff⟩
  · refine Or.inl ⟨hlive, rfl, ?_⟩
    rcases he with rfl | rfl
    · exact hon.take hlive h
    · exact hon.transition (fun w' target hc => (feed_moving hc).1) h
  · exact Or.inr ⟨hterm, hoff.step he h⟩

/-- A late end after a step of the receiving thread. -/
lemma LateEnd.cons {w : Wait} {ev : List Event} (h : LateEnd state w (σ.arrive e) ev) :
    LateEnd state w σ (e :: ev) := by
  obtain ⟨ev₁, e', ev₂, rfl, hends, hlive, hcompleted⟩ := h
  exact ⟨e :: ev₁, e', ev₂, rfl, hends, hlive, hcompleted⟩

/-- A run without a late end. -/
lemma Tracks.run {w : Wait} {a : Session} {es : List Event} (hx : Tracks state w a x)
    (hes : ∀ e ∈ es, e.Quiet) (hlate : ¬ LateEnd state w a (received es))
    (h : run System.step x es = some x') : Tracks state w (a.arrivals (received es)) x' := by
  have hend := run_quiet (P := fun a ev y => Tracks state w a y ∧ ¬ LateEnd state w a ev)
    (fun a ev y e y' hy he hstep => ⟨hy.1.step he hstep, hy.2⟩)
    (fun a e ev y hy => ⟨hy.1.arrive fun hends hlive hcompleted =>
      hy.2 ⟨[], e, ev, rfl, hends, hlive, hcompleted⟩, fun h => hy.2 h.cons⟩)
    hes ⟨hx, hlate⟩ h
  exact hend.1

end Course

/-! ## The outcome -/

section Outcome

variable {state : ImapState} {w : Wait} {a : Session} {x y : System}

/-- A call of another operation than `logout` waits, returns or throws; in `LOGOUT` it waits only
if it ends with a transition. -/
lemma begin_cases {σ : Session} {c : Call} (hc : c ≠ .logout) :
    (∃ w, (begin σ c).control = .waiting w ∧ (σ.state = .logout → w.Moves)) ∨
      (∃ v, (begin σ c).control = .returned v) ∨ ∃ ex, (begin σ c).control = .threw ex := by
  by_cases hguard : c.Guard σ.state
  · obtain ⟨τ, command, control, hbegin, -, -, rfl | ⟨ex, rfl⟩⟩ := begin_of_guard hguard
    · rw [hbegin]
      cases c with
      | receiveGreeting => exact hguard.elim
      | login userName password => exact Or.inl ⟨_, rfl, fun _ => trivial⟩
      | select mailbox => exact Or.inl ⟨_, rfl, fun _ => trivial⟩
      | read sequenceSet => exact Or.inl ⟨_, rfl, fun _ => trivial⟩
      | logout => exact absurd rfl hc
      | _ => exact Or.inl ⟨_, rfl, fun hlogout => by cases hlogout.symm.trans hguard⟩
    · rw [hbegin]
      exact Or.inr (Or.inr ⟨ex, rfl⟩)
  · obtain ⟨control, hbegin, ⟨-, rfl⟩ | ⟨userName, password, -, rfl⟩ | ⟨ex, rfl⟩⟩ :=
      begin_of_not_guard hguard
    · rw [hbegin]
      exact Or.inl ⟨_, rfl, fun _ => trivial⟩
    · rw [hbegin]
      exact Or.inr (Or.inl ⟨_, rfl⟩)
    · rw [hbegin]
      exact Or.inr (Or.inr ⟨ex, rfl⟩)

/-- Where an operation on course ends. -/
lemma OnCourse.ends {c : Control} (hx : OnCourse state c x)
    (hdone : x.control.Free ∨ x.control = .undefined) :
    (x.control = c ∧ x.session.state = state ∧ ∀ w target, c ≠ .moving w target) ∨
      ∃ w target, c = .moving w target ∧ x.control = .returned .unit ∧
        x.session.state = target := by
  cases hx with
  | waiting _ _ => exact (hdone.elim id nofun).elim
  | ended hstate _ =>
    refine Or.inl ⟨rfl, hstate, ?_⟩
    rintro w target rfl
    exact hdone.elim id nofun
  | moved hstate hc => exact Or.inr ⟨_, _, hc, rfl, hstate⟩

/-- An operation that is off course ends with an exception. -/
lemma OffCourse.ends (hx : OffCourse x) (hdone : x.control.Free ∨ x.control = .undefined) :
    ∃ ex, x.control = .threw ex := by
  rcases hx with ⟨w, hw, -⟩ | hthrew
  · rw [hw] at hdone
    exact (hdone.elim id nofun).elim
  · exact hthrew

/-- Two schedules that have ended agree, unless the responses lead to a null pointer. -/
lemma sameOutcome_of_tracks (hx : Tracks state w a x) (hy : Tracks state w a y)
    (hnull : ¬ a.state.Terminal → feed state w a.responseQueue ≠ .undefined)
    (hxdone : x.control.Free ∨ x.control = .undefined)
    (hydone : y.control.Free ∨ y.control = .undefined) : SameOutcome x y := by
  rcases hx with ⟨hlive, -, hx⟩ | ⟨hterm, hx⟩
  · replace hy := (hy.resolve_right fun h => hlive h.1).2.2
    rcases hx.ends hxdone with ⟨hxc, hxstate, hne⟩ | ⟨w₁, target, hc, hxc, hxstate⟩
    · obtain ⟨hyc, hystate, -⟩ := (hy.ends hydone).resolve_right
        fun ⟨w₂, target₂, hc₂, _⟩ => hne w₂ target₂ hc₂
      rcases feed_cases state w a.responseQueue with ⟨w₁, h⟩ | ⟨w₁, target, h⟩ |
        ⟨-, ⟨v, h⟩ | h⟩ | ⟨ex, h⟩
      · rw [hxc, h] at hxdone
        exact (hxdone.elim id nofun).elim
      · exact absurd h (hne w₁ target)
      · exact Or.inl ⟨v, hxc.trans h, hyc.trans h, hxstate.trans hystate.symm⟩
      · exact absurd h (hnull hlive)
      · exact Or.inr ⟨⟨ex, hxc.trans h⟩, ex, hyc.trans h⟩
    · obtain ⟨w₂, target₂, hc₂, hyc, hystate⟩ := (hy.ends hydone).resolve_left
        fun h => h.2.2 w₁ target hc
      obtain ⟨-, rfl⟩ := Control.moving.inj (hc.symm.trans hc₂)
      exact Or.inl ⟨.unit, hxc, hyc, hxstate.trans hystate.symm⟩
  · replace hy := (hy.resolve_left fun h => h.1 hterm).2
    exact Or.inr ⟨hx.ends hxdone, hy.ends hydone⟩

/-- A schedule without a late end. -/
lemma Schedule.tracks {σ : Session} {c : Call} {ev es : List Event} (h : Schedule σ c ev es x)
    (hw : (begin σ c).control = .waiting w)
    (hlate : ¬ LateEnd σ.state w (begin σ c).session ev) :
    Tracks σ.state w ((begin σ c).session.arrivals ev) x := by
  obtain ⟨x₀, hcall, hrun⟩ := exists_of_run_cons h.run
  obtain ⟨-, rfl⟩ := step_call_iff.mp hcall
  obtain rfl := h.order
  refine Tracks.run ?_ h.quiet hlate hrun
  have hstate : (begin σ c).session.state = σ.state := (begin_frame σ c).1
  dsimp only
  rw [hw]
  by_cases hterm : (begin σ c).session.state.Terminal
  · exact Or.inr ⟨hterm, Or.inl ⟨w, rfl, hterm⟩⟩
  · exact Or.inl ⟨hterm, hstate, .waiting hstate rfl⟩

/-- A schedule in which the operation takes its responses after all of them have arrived. -/
lemma exists_schedule {σ : Session} {c : Call} {ev : List Event} (hev : ∀ e ∈ ev, ¬ e.OfUser)
    (hw : (begin σ c).control = .waiting w)
    (hlive : ¬ ((begin σ c).session.arrivals ev).state.Terminal)
    (hend : ∀ w', feed σ.state w ((begin σ c).session.arrivals ev).responseQueue ≠ .waiting w') :
    ∃ es x, Schedule σ c ev es x := by
  have hstate : ((begin σ c).session.arrivals ev).state = σ.state :=
    ((arrivals_state _ ev).resolve_left hlive).trans (begin_frame σ c).1
  have hschedule : ∀ {es x}, run System.step ⟨(begin σ c).session.arrivals ev, .waiting w⟩ es =
      some x → (∀ e ∈ es, e = .take ∨ e = .transition) →
      ((∃ v, x.control = .returned v) ∨ x.control = .undefined ∨
        ∃ ex, x.control = .threw ex) → ∃ es x, Schedule σ c ev es x := by
    intro es x hrun hes hdone
    refine ⟨_, _, schedule_of hw (run_append_of (run_arrivals hev) hrun) ?_ ?_ hdone⟩
    · rw [received_append, received_self hev, received_user hes, List.append_nil]
    · intro e he
      rcases List.mem_append.mp he with he | he
      · exact Or.inr (hev e he)
      · exact Or.inl (hes e he)
  rw [← hstate] at hend
  by_cases hcompleted : (feed ((begin σ c).session.arrivals ev).state w
      ((begin σ c).session.arrivals ev).responseQueue).Completed
  · obtain ⟨es, y, hrun, hes, hcontrol, -⟩ := run_completed hlive hcompleted
    exact hschedule hrun hes (hcontrol.imp_right fun h => Or.inl h.2)
  · obtain ⟨n, qs, hrun⟩ := run_feed hlive hend
    refine hschedule hrun (fun e he => Or.inl (List.eq_of_mem_replicate he)) (Or.inr (Or.inr ?_))
    rcases feed_cases ((begin σ c).session.arrivals ev).state w
      ((begin σ c).session.arrivals ev).responseQueue with ⟨w', h⟩ | ⟨w', target, h⟩ |
      ⟨-, ⟨v, h⟩ | h⟩ | h
    · exact absurd h (hend w')
    all_goals first | exact h | exact absurd (by rw [h]; trivial) hcompleted

/-- A schedule in which the operation is completed by the first responses, before the other steps of
the receiving thread. -/
lemma exists_eager {σ : Session} {c : Call} {ev₁ ev₂ : List Event}
    (hev₁ : ∀ e ∈ ev₁, ¬ e.OfUser) (hev₂ : ∀ e ∈ ev₂, ¬ e.OfUser)
    (hw : (begin σ c).control = .waiting w)
    (hlive : ¬ ((begin σ c).session.arrivals ev₁).state.Terminal)
    (hcompleted : (feed σ.state w ((begin σ c).session.arrivals ev₁).responseQueue).Completed) :
    ∃ (es : List Event) (τ : Session) (control : Control),
      Schedule σ c (ev₁ ++ ev₂) es ⟨τ.arrivals ev₂, control⟩ ∧
      ((∃ v, control = .returned v) ∨
        feed σ.state w ((begin σ c).session.arrivals ev₁).responseQueue = .undefined ∧
          control = .undefined) ∧
      ∀ w' target, feed σ.state w ((begin σ c).session.arrivals ev₁).responseQueue =
        .moving w' target → control = .returned .unit ∧ τ.state = target := by
  have hstate : ((begin σ c).session.arrivals ev₁).state = σ.state :=
    ((arrivals_state _ ev₁).resolve_left hlive).trans (begin_frame σ c).1
  rw [← hstate] at hcompleted ⊢
  obtain ⟨es, ⟨τ, control⟩, hrun, hes, hcontrol, hmoved⟩ := run_completed hlive hcompleted
  have hall := run_append_of (run_arrivals hev₁) (run_append_of hrun (run_arrivals hev₂))
  refine ⟨_, τ, control, schedule_of hw hall ?_ ?_ (hcontrol.imp_right fun h => Or.inl h.2),
    hcontrol, hmoved⟩
  · rw [received_append, received_append, received_self hev₁, received_self hev₂,
      received_user hes, List.nil_append]
  · intro e he
    rcases List.mem_append.mp he with he | he
    · exact Or.inr (hev₁ e he)
    · rcases List.mem_append.mp he with he | he
      · exact Or.inl (hes e he)
      · exact Or.inr (hev₂ e he)

/-- A schedule in which the operation waits after the connection is lost. -/
lemma exists_lazy {σ : Session} {c : Call} {ev : List Event} (hev : ∀ e ∈ ev, ¬ e.OfUser)
    (hw : (begin σ c).control = .waiting w)
    (hterm : ((begin σ c).session.arrivals ev).state.Terminal) :
    ∃ es y ex, Schedule σ c ev es y ∧ y.control = .threw ex := by
  obtain ⟨ex, htake⟩ := step_take_terminal
    (s := ⟨(begin σ c).session.arrivals ev, .waiting w⟩) rfl hterm
  have hall := run_append_of (run_arrivals hev) (run_singleton htake)
  refine ⟨_, _, ex, schedule_of hw hall ?_ ?_ (Or.inr (Or.inr ⟨ex, rfl⟩)), rfl⟩
  · rw [received_append, received_self hev, received_user (by simp), List.append_nil]
  · intro e he
    rcases List.mem_append.mp he with he | he
    · exact Or.inr (hev e he)
    · exact Or.inl (Or.inl (List.mem_singleton.mp he))

/-- An end that does not end the connection is a BYE in `LOGOUT`. -/
lemma ends_in_logout {σ : Session} {e : Event} (he : e.Ends)
    (hlive : ¬ (σ.arrive e).state.Terminal) :
    ∃ r, e = .incoming r ∧ r.getType = .bye ∧ σ.state = .logout := by
  cases e with
  | incoming r =>
    refine ⟨r, rfl, he, ?_⟩
    by_contra hstate
    exact hlive (incoming_terminal ⟨he, hstate⟩)
  | failed => exact absurd (Or.inl rfl) hlive
  | _ => exact he.elim

/-- What completes the operation still completes it after further steps of the receiving thread. -/
lemma feed_arrivals {σ : Session} {ev : List Event}
    (h : (feed state w σ.responseQueue).Completed) :
    feed state w (σ.arrivals ev).responseQueue = feed state w σ.responseQueue := by
  obtain ⟨rs, hrs⟩ := arrivals_queue σ ev
  rw [hrs]
  refine feed_append_of_ne fun w' hw' => ?_
  rw [hw'] at h
  exact h

/-- Where a late end does not end the connection, because it is a BYE in `LOGOUT`, the operation
leaves that state before or after it. -/
lemma schedules_in_logout {σ : Session} {c : Call} {ev₁ ev₂ : List Event} {r : Response}
    (hev₁ : ∀ e ∈ ev₁, ¬ e.OfUser) (hev₂ : ∀ e ∈ ev₂, ¬ e.OfUser)
    (hw : (begin σ c).control = .waiting w) (hmoves : w.Moves) (hbye : r.getType = .bye)
    (hlive : ¬ ((begin σ c).session.arrivals ev₁).state.Terminal)
    (hlive' : ¬ ((begin σ c).session.arrivals (ev₁ ++ .incoming r :: ev₂)).state.Terminal)
    (hcompleted : (feed σ.state w ((begin σ c).session.arrivals ev₁).responseQueue).Completed) :
    ∃ es es' x y, Schedule σ c (ev₁ ++ .incoming r :: ev₂) es x ∧
      Schedule σ c (ev₁ ++ .incoming r :: ev₂) es' y ∧ ¬ SameOutcome x y := by
  have hlate : ∀ e ∈ .incoming r :: ev₂, ¬ e.OfUser := by
    intro e he
    rcases List.mem_cons.mp he with rfl | he
    · exact id
    · exact hev₂ e he
  have hall : ∀ e ∈ ev₁ ++ .incoming r :: ev₂, ¬ e.OfUser := by
    intro e he
    rcases List.mem_append.mp he with he | he
    · exact hev₁ e he
    · exact hlate e he
  have hfeed : feed σ.state w
      ((begin σ c).session.arrivals (ev₁ ++ .incoming r :: ev₂)).responseQueue =
        feed σ.state w ((begin σ c).session.arrivals ev₁).responseQueue := by
    rw [arrivals_append]
    exact feed_arrivals hcompleted
  obtain ⟨w', target, hmoving⟩ : ∃ w' target,
      feed σ.state w ((begin σ c).session.arrivals ev₁).responseQueue = .moving w' target := by
    rcases feed_cases σ.state w ((begin σ c).session.arrivals ev₁).responseQueue with
      ⟨w', h⟩ | h | ⟨hnot, -⟩ | ⟨ex, h⟩
    · rw [h] at hcompleted
      exact hcompleted.elim
    · exact h
    · exact absurd hmoves hnot
    · rw [h] at hcompleted
      exact hcompleted.elim
  obtain ⟨es, τ, control, heager, -, hmoved⟩ := exists_eager hev₁ hlate hw hlive hcompleted
  obtain ⟨es', τ', control', hlazy, -, hmoved'⟩ :=
    exists_eager hall (nofun : ∀ e ∈ ([] : List Event), ¬ e.OfUser) hw hlive' (hfeed ▸ hcompleted)
  rw [List.append_nil] at hlazy
  obtain ⟨rfl, htarget⟩ := hmoved w' target hmoving
  obtain ⟨rfl, htarget'⟩ := hmoved' w' target (hfeed.trans hmoving)
  have hopen : target.Open := (feed_moving hmoving).2
  refine ⟨es, es', _, _, heager, hlazy, ?_⟩
  rintro (⟨v, -, -, hsame⟩ | ⟨⟨ex, hex⟩, -⟩)
  · have hterm : (τ.arrivals (.incoming r :: ev₂)).state.Terminal := by
      refine arrivals_terminal (σ := τ.incoming r) (incoming_terminal ⟨hbye, ?_⟩)
      rw [htarget]
      rintro rfl
      exact absurd hopen (by decide)
    refine hopen.not_terminal ?_
    rw [← htarget']
    exact hsame ▸ hterm
  · cases hex

/-- Two schedules that disagree, where there is a late end: one in which the operation is completed
before it, and one in which it starts to wait after everything has arrived. -/
lemma schedules_of_lateEnd {σ : Session} {c : Call} {ev : List Event} (hc : c ≠ .logout)
    (hev : ∀ e ∈ ev, ¬ e.OfUser) (hw : (begin σ c).control = .waiting w)
    (hlate : LateEnd σ.state w (begin σ c).session ev) :
    ∃ es es' x y, Schedule σ c ev es x ∧ Schedule σ c ev es' y ∧ ¬ SameOutcome x y := by
  obtain ⟨ev₁, e, ev₂, rfl, hends, hlive, hcompleted⟩ := hlate
  have hev₁ : ∀ e ∈ ev₁, ¬ e.OfUser := fun e he => hev e (List.mem_append_left _ he)
  have hev₂ : ∀ e' ∈ e :: ev₂, ¬ e'.OfUser := fun e' he' =>
    hev e' (List.mem_append_right ev₁ he')
  by_cases hterm : ((begin σ c).session.arrivals (ev₁ ++ e :: ev₂)).state.Terminal
  · obtain ⟨es, τ, control, heager, hcontrol, -⟩ := exists_eager hev₁ hev₂ hw hlive hcompleted
    obtain ⟨es', y, ex, hlazy, hy⟩ := exists_lazy hev hw hterm
    refine ⟨es, es', _, y, heager, hlazy, ?_⟩
    rintro (⟨v, -, hv, -⟩ | ⟨⟨ex', hex'⟩, -⟩)
    · cases hy.symm.trans hv
    · rcases hcontrol with ⟨v, hv⟩ | ⟨-, hundefined⟩
      · cases hv.symm.trans hex'
      · cases hundefined.symm.trans hex'
  · have hlive' : ¬ (((begin σ c).session.arrivals ev₁).arrive e).state.Terminal := by
      intro h
      refine hterm ?_
      rw [arrivals_append]
      exact arrivals_terminal (σ := ((begin σ c).session.arrivals ev₁).arrive e) h
    obtain ⟨r, rfl, hbye, hlogout⟩ := ends_in_logout hends hlive'
    have hstate : ((begin σ c).session.arrivals ev₁).state = σ.state :=
      ((arrivals_state _ ev₁).resolve_left hlive).trans (begin_frame σ c).1
    have hmoves : w.Moves := by
      rcases begin_cases (σ := σ) hc with ⟨w', hw', hmoves⟩ | ⟨v, hv⟩ | ⟨ex, hex⟩
      · obtain rfl := Control.waiting.inj (hw'.symm.trans hw)
        exact hmoves (hstate.symm.trans hlogout)
      · cases hv.symm.trans hw
      · cases hex.symm.trans hw
    exact schedules_in_logout hev₁ (fun e he => hev₂ e (List.mem_cons_of_mem _ he)) hw hmoves hbye
      hlive hterm hcompleted

/-- An operation that is completed before the connection is lost returns under some schedule. -/
lemma LateEnd.returns {σ : Session} {c : Call} {ev : List Event} (hev : ∀ e ∈ ev, ¬ e.OfUser)
    (hw : (begin σ c).control = .waiting w)
    (hnull : ¬ NullResult σ.state w (begin σ c).session ev)
    (hlate : LateEnd σ.state w (begin σ c).session ev) :
    ∃ es x v, Schedule σ c ev es x ∧ x.control = .returned v := by
  obtain ⟨ev₁, e, ev₂, rfl, -, hlive, hcompleted⟩ := hlate
  obtain ⟨es, τ, control, heager, hcontrol, -⟩ := exists_eager
    (fun e he => hev e (List.mem_append_left _ he))
    (fun e' he' => hev e' (List.mem_append_right ev₁ he')) hw hlive hcompleted
  rcases hcontrol with ⟨v, hv⟩ | ⟨hundefined, -⟩
  · exact ⟨es, _, v, heager, hv⟩
  · exact absurd ⟨ev₁, e :: ev₂, rfl, hlive, hundefined⟩ hnull

/-- **Outcomes and schedules.** Let the responses not lead an operation other than `logout` to a
null pointer. Its outcome is the same under all schedules if and only if no BYE and no failure
comes, on a connection that is alive, after the responses that complete the operation. Where one
does, the operation returns under some schedule.

**Proof sketch.** Without a late end, the user's thread is on course for the place to which the
responses lead, until the connection is lost before the operation is completed; then it is off
course for good. With a late end, the operation succeeds if it takes the responses at once, and it
throws if it starts to wait after the connection is lost. -/
theorem outcome_iff (σ : Session) (c : Call) (ev : List Event) (hc : c ≠ .logout)
    (hev : ∀ e ∈ ev, ¬ e.OfUser)
    (hnull : ∀ w, (begin σ c).control = .waiting w →
      ¬ NullResult σ.state w (begin σ c).session ev) :
    ((∀ es es' x y, Schedule σ c ev es x → Schedule σ c ev es' y → SameOutcome x y) ↔
      ∀ w, (begin σ c).control = .waiting w →
        ¬ LateEnd σ.state w (begin σ c).session ev) ∧
    ∀ w, (begin σ c).control = .waiting w → LateEnd σ.state w (begin σ c).session ev →
      ∃ es x v, Schedule σ c ev es x ∧ x.control = .returned v := by
  refine ⟨⟨?_, ?_⟩, fun w hw hlate => hlate.returns hev hw (hnull w hw)⟩
  · intro hsame w hw hlate
    obtain ⟨es, es', x, y, hx, hy, hdiffer⟩ := schedules_of_lateEnd hc hev hw hlate
    exact hdiffer (hsame es es' x y hx hy)
  · intro hlate es es' x y hx hy
    rcases begin_cases (σ := σ) hc with ⟨w, hw, -⟩ | hover
    · refine sameOutcome_of_tracks (hx.tracks hw (hlate w hw)) (hy.tracks hw (hlate w hw))
        (fun hlive hundefined => hnull w hw ?_) hx.done hy.done
      exact ⟨ev, [], (List.append_nil ev).symm, hlive, hundefined⟩
    · have hends : ∀ es x, Schedule σ c ev es x →
          x = ⟨(begin σ c).session.arrivals ev, (begin σ c).control⟩ := by
        intro es x hx
        obtain ⟨x₀, hcall, hrun⟩ := exists_of_run_cons hx.run
        obtain ⟨-, rfl⟩ := step_call_iff.mp hcall
        rw [run_over hover hx.quiet hrun, hx.order]
      rw [hends es x hx, hends es' y hy]
      rcases hover with ⟨v, hv⟩ | ⟨ex, hex⟩
      · exact Or.inl ⟨v, hv, hv, rfl⟩
      · exact Or.inr ⟨⟨ex, hex⟩, ex, hex⟩

/-- A greeting does not lead to a null pointer. -/
lemma not_nullResult_greeting (state : ImapState) (σ : Session) (ev : List Event) :
    ¬ NullResult state .greeting σ ev := by
  rintro ⟨ev₁, ev₂, -, -, hundefined⟩
  rcases feed_cases state .greeting (σ.arrivals ev₁).responseQueue with ⟨w, h⟩ | ⟨w, target, h⟩ |
    ⟨hmoves, -⟩ | ⟨ex, h⟩
  · cases h.symm.trans hundefined
  · cases h.symm.trans hundefined
  · exact hmoves trivial
  · cases h.symm.trans hundefined

/-- A greeting and a response after it, taken before or after the second arrives; and a greeting and
a BYE, for which there is a schedule under which the greeting is received. -/
theorem outcome_iff_greeting :
    SameOutcome ⟨⟨.nauth, 1, [], [.flags]⟩, .returned .unit⟩
        ⟨⟨.nauth, 1, [], [.flags]⟩, .returned .unit⟩ ∧
      ∃ es x v, Schedule .new .receiveGreeting
        [.incoming (.status .ok [] (ascii "hi")), .incoming (.status .bye [] (ascii "bye"))] es x ∧
        x.control = .returned v := by
  have hwait : ∀ w, (begin .new .receiveGreeting).control = .waiting w → w = .greeting :=
    fun w hw => (Control.waiting.inj hw).symm
  constructor
  · refine (outcome_iff .new .receiveGreeting
      [.incoming (.status .ok [] (ascii "hi")), .incoming .flags] nofun (by decide)
      (fun w hw => hwait w hw ▸ not_nullResult_greeting _ _ _)).1.mpr ?_
      [.incoming (.status .ok [] (ascii "hi")), .take, .transition, .incoming .flags]
      [.incoming (.status .ok [] (ascii "hi")), .incoming .flags, .take, .transition] _ _
      ⟨rfl, rfl, by simp [Event.Quiet], Or.inl trivial⟩
      ⟨rfl, rfl, by simp [Event.Quiet], Or.inl trivial⟩
    rintro w - ⟨ev₁, e, ev₂, hev, hends, -⟩
    have he : e ∈ [.incoming (.status .ok [] (ascii "hi")), .incoming .flags] := by
      rw [hev]
      simp
    rcases List.mem_cons.mp he with rfl | he
    · cases hends
    · rw [List.mem_singleton.mp he] at hends
      cases hends
  · refine (outcome_iff .new .receiveGreeting
      [.incoming (.status .ok [] (ascii "hi")), .incoming (.status .bye [] (ascii "bye"))] nofun
      (by decide) (fun w hw => hwait w hw ▸ not_nullResult_greeting _ _ _)).2 .greeting rfl ?_
    exact ⟨[.incoming (.status .ok [] (ascii "hi"))], .incoming (.status .bye [] (ascii "bye")), [],
      rfl, rfl, by decide, trivial⟩

/-- A greeting and a BYE: the operation returns if it takes the greeting before the BYE arrives, and
throws if it takes it after. -/
theorem outcome_greeting_bye :
    ∃ es es' x y, Schedule .new .receiveGreeting
        [.incoming (.status .ok [] (ascii "hi")), .incoming (.status .bye [] (ascii "bye"))] es x ∧
      Schedule .new .receiveGreeting
        [.incoming (.status .ok [] (ascii "hi")), .incoming (.status .bye [] (ascii "bye"))] es' y ∧
      x.control = .returned .unit ∧
      y.control = .threw (.runtimeError (ascii "Connection terminated by server.")) ∧
      ¬ SameOutcome x y := by
  refine ⟨[.incoming (.status .ok [] (ascii "hi")), .take, .transition,
      .incoming (.status .bye [] (ascii "bye"))],
    [.incoming (.status .ok [] (ascii "hi")), .incoming (.status .bye [] (ascii "bye")), .take],
    _, _, ⟨rfl, rfl, by simp [Event.Quiet], Or.inl trivial⟩,
    ⟨rfl, rfl, by simp [Event.Quiet], Or.inl trivial⟩, rfl, rfl, ?_⟩
  rintro (⟨v, -, hv, -⟩ | ⟨⟨ex, hex⟩, -⟩)
  · cases hv
  · cases hex

end Outcome

end Imapcl
