import Imapcl.Session.Terminal

set_option relaxedAutoImplicit false
set_option autoImplicit false

/-!
# Schedules

An operation interleaved with the receiving thread. What the receiving thread tells the session
comes in one order; when the user's thread takes it from the queue is up to the schedule.

## Main definitions

* `Imapcl.Session.arrivals` — the session after steps of the receiving thread alone.
* `Imapcl.Schedule` — a complete interleaving of an operation with steps of the receiving thread.

## Main results

* `Imapcl.run_quiet` — the induction over the steps of a schedule.
-/

namespace Imapcl

open Machine

/-! ## Definitions -/

/-- A step of the receiving thread on the session. -/
def Session.arrive (σ : Session) : Event → Session
  | .incoming response => σ.incoming response
  | .failed => σ.receiverNotifyFailed
  | _ => σ

/-- The session after the steps of the receiving thread. -/
def Session.arrivals (σ : Session) (ev : List Event) : Session := ev.foldl Session.arrive σ

/-- The steps of the receiving thread in a run. -/
def received (es : List Event) : List Event := es.filter fun e => ¬ e.OfUser

/-- The step may occur in a schedule: it is no timeout, and no other call. -/
def Event.Quiet (e : Event) : Prop := e ≠ .timeout ∧ ∀ c, e ≠ .call c

/-- An interleaving `es` of the call `c`, made in the session `σ`, with the steps `ev` of the
receiving thread, after which both have finished; no wait times out. -/
structure Schedule (σ : Session) (c : Call) (ev es : List Event) (x : System) : Prop where
  run : run System.step ⟨σ, .idle⟩ (.call c :: es) = some x
  order : received es = ev
  quiet : ∀ e ∈ es, e.Quiet
  done : x.control.Free ∨ x.control = .undefined

/-- A BYE or a failure. -/
def Event.Ends : Event → Prop
  | .incoming response => response.getType = .bye
  | .failed => True
  | _ => False

/-! ## The receiving thread -/

section Arrivals

variable {σ : Session} {e : Event} {ev : List Event} {control : Control}

/-- A step of the receiving thread ends the connection, or keeps the state. -/
lemma arrive_state (σ : Session) (e : Event) :
    (σ.arrive e).state.Terminal ∧ e.Ends ∨ (σ.arrive e).state = σ.state := by
  cases e with
  | incoming r => exact (incoming_state σ r).imp_left fun h => ⟨h.1, h.2.1⟩
  | failed => exact Or.inl ⟨Or.inl rfl, trivial⟩
  | _ => exact Or.inr rfl

/-- A step of the receiving thread keeps a lost connection lost. -/
lemma arrive_terminal (h : σ.state.Terminal) : (σ.arrive e).state.Terminal := by
  rcases arrive_state σ e with ⟨hterm, -⟩ | hsame
  · exact hterm
  · rwa [hsame]

/-- So do sequences of them. -/
lemma arrivals_terminal (h : σ.state.Terminal) : (σ.arrivals ev).state.Terminal := by
  induction ev generalizing σ with
  | nil => exact h
  | cons e ev ih => exact ih (arrive_terminal h)

/-- The connection is lost, or the state is as before. -/
lemma arrivals_state (σ : Session) (ev : List Event) :
    (σ.arrivals ev).state.Terminal ∨ (σ.arrivals ev).state = σ.state := by
  induction ev generalizing σ with
  | nil => exact Or.inr rfl
  | cons e ev ih =>
    rcases arrive_state σ e with ⟨hterm, -⟩ | hsame
    · exact Or.inl (arrivals_terminal (σ := σ.arrive e) hterm)
    · exact (ih (σ.arrive e)).imp_right fun h => h.trans hsame

/-- A response that is not refused is queued. -/
lemma arrive_queue (σ : Session) (e : Event) :
    ∃ rs, (σ.arrive e).responseQueue = σ.responseQueue ++ rs := by
  cases e with
  | incoming r =>
    rcases incoming_cases σ r with ⟨-, -, h | h⟩ | ⟨-, h⟩
    · exact ⟨[], by rw [Session.arrive, h, List.append_nil]; rfl⟩
    · exact ⟨[], by rw [Session.arrive, h, List.append_nil]; rfl⟩
    · exact ⟨[r], by rw [Session.arrive, h]⟩
  | _ => exact ⟨[], (List.append_nil _).symm⟩

/-- The receiving thread only adds to the queue. -/
lemma arrivals_queue (σ : Session) (ev : List Event) :
    ∃ rs, (σ.arrivals ev).responseQueue = σ.responseQueue ++ rs := by
  induction ev generalizing σ with
  | nil => exact ⟨[], (List.append_nil _).symm⟩
  | cons e ev ih =>
    obtain ⟨rs, hrs⟩ := arrive_queue σ e
    obtain ⟨rs', hrs'⟩ := ih (σ.arrive e)
    refine ⟨rs ++ rs', ?_⟩
    show ((σ.arrive e).arrivals ev).responseQueue = _
    rw [hrs', hrs, List.append_assoc]

/-- Steps of the receiving thread in two parts. -/
lemma arrivals_append {ev' : List Event} :
    σ.arrivals (ev ++ ev') = (σ.arrivals ev).arrivals ev' := List.foldl_append

/-- Responses that are no BYE are queued. -/
lemma arrivals_incoming {σ : Session} {rs : List Response} (h : ∀ r ∈ rs, r.getType ≠ .bye) :
    σ.arrivals (rs.map .incoming) = { σ with responseQueue := σ.responseQueue ++ rs } := by
  induction rs generalizing σ with
  | nil =>
    rw [List.append_nil]
    rfl
  | cons r rs ih =>
    have hpush := incoming_push (σ := σ) (r := r) fun hbye => h r List.mem_cons_self hbye.1
    show (σ.incoming r).arrivals (rs.map .incoming) = _
    rw [ih fun r' hr' => h r' (List.mem_cons_of_mem r hr'), hpush, List.append_assoc]
    rfl

/-- A step of the receiving thread is always possible. -/
lemma step_arrive (h : ¬ e.OfUser) :
    System.step ⟨σ, control⟩ e = some ⟨σ.arrive e, control⟩ := by
  cases e with
  | incoming r => rfl
  | failed => rfl
  | _ => exact absurd trivial h

/-- So are sequences of them. -/
lemma run_arrivals (h : ∀ e ∈ ev, ¬ e.OfUser) :
    run System.step ⟨σ, control⟩ ev = some ⟨σ.arrivals ev, control⟩ := by
  induction ev generalizing σ with
  | nil => rfl
  | cons e ev ih =>
    rw [run_cons (step_arrive (h e List.mem_cons_self))]
    exact ih fun e' he' => h e' (List.mem_cons_of_mem e he')

end Arrivals

/-! ## Schedules -/

section Schedules

variable {σ : Session} {x x' : System} {e : Event} {ev es : List Event} {c : Call}

/-- The steps of a schedule are waits, transitions, and steps of the receiving thread. -/
lemma Event.Quiet.cases (he : e.Quiet) :
    (e = .take ∨ e = .transition) ∧ e.OfUser ∨ ¬ e.OfUser := by
  cases e with
  | call c => exact absurd rfl (he.2 c)
  | timeout => exact absurd rfl he.1
  | take => exact Or.inl ⟨Or.inl rfl, trivial⟩
  | transition => exact Or.inl ⟨Or.inr rfl, trivial⟩
  | incoming r => exact Or.inr id
  | failed => exact Or.inr id

/-- The steps of the user's thread are not received. -/
lemma received_cons_user (h : e.OfUser) : received (e :: es) = received es := by
  rw [received, List.filter_cons_of_neg (by simpa using h)]
  rfl

/-- Those of the receiving thread are. -/
lemma received_cons (h : ¬ e.OfUser) : received (e :: es) = e :: received es := by
  rw [received, List.filter_cons_of_pos (by simpa using h)]
  rfl

/-- The steps that are received in a run in two parts. -/
lemma received_append : received (es ++ ev) = received es ++ received ev := List.filter_append es ev

/-- Nothing is received in a run of the user's thread. -/
lemma received_user (h : ∀ e ∈ es, e = .take ∨ e = .transition) : received es = [] := by
  rw [received, List.filter_eq_nil_iff]
  intro e he
  rcases h e he with rfl | rfl <;> decide

/-- Responses come from the receiving thread. -/
lemma not_ofUser_incoming {rs : List Response} : ∀ e ∈ rs.map Event.incoming, ¬ e.OfUser := by
  intro e he
  obtain ⟨r, -, rfl⟩ := List.mem_map.mp he
  exact id

/-- Everything is received in a run of the receiving thread. -/
lemma received_self (h : ∀ e ∈ ev, ¬ e.OfUser) : received ev = ev := by
  rw [received, List.filter_eq_self]
  exact fun e he => decide_eq_true (h e he)

/-- **The induction over a schedule.** A relation between the session as the receiving thread alone
would have left it, the steps that are still to be received, and the system, which every step of
the two threads keeps, holds at the end of every schedule.

**Proof sketch.** Induction on the schedule. -/
theorem run_quiet {P : Session → List Event → System → Prop}
    (huser : ∀ a ev x e x', P a ev x → (e = .take ∨ e = .transition) → x.step e = some x' →
      P a ev x')
    (harrive : ∀ a e ev x, P a (e :: ev) x →
      P (a.arrive e) ev ⟨x.session.arrive e, x.control⟩) :
    ∀ {es : List Event} {a : Session} {x x' : System}, (∀ e ∈ es, e.Quiet) →
      P a (received es) x → run System.step x es = some x' →
        P (a.arrivals (received es)) [] x' := by
  intro es
  induction es with
  | nil =>
    intro a x x' _ hP hrun
    rwa [← Option.some.inj hrun]
  | cons e es ih =>
    intro a x x' hes hP hrun
    obtain ⟨he, hes'⟩ := List.forall_mem_cons.mp hes
    obtain ⟨x₁, hstep, hrest⟩ := exists_of_run_cons hrun
    rcases he.cases with ⟨htake, hthread⟩ | hthread
    · rw [received_cons_user hthread] at hP ⊢
      exact ih hes' (huser a _ x e x₁ hP htake hstep) hrest
    · rw [received_cons hthread] at hP ⊢
      rw [step_arrive hthread] at hstep
      rw [← Option.some.inj hstep] at hrest
      exact ih hes' (harrive a e _ x hP) hrest

/-- An operation that has ended is not affected by the receiving thread. -/
lemma run_over (hx : (∃ v, x.control = .returned v) ∨ ∃ ex, x.control = .threw ex)
    (hes : ∀ e ∈ es, e.Quiet) (h : run System.step x es = some x') :
    x' = ⟨x.session.arrivals (received es), x.control⟩ := by
  refine run_quiet (P := fun a _ y => y = ⟨a, x.control⟩) ?_ ?_ hes rfl h
  · rintro a ev y e y' rfl (rfl | rfl) hstep
    · obtain ⟨w, hw, -⟩ := step_take_cases hstep
      rcases hx with ⟨v, hv⟩ | ⟨ex, hex⟩
      · cases hv.symm.trans hw
      · cases hex.symm.trans hw
    · obtain ⟨w, target, hmoving, -⟩ := step_transition_iff.mp hstep
      rcases hx with ⟨v, hv⟩ | ⟨ex, hex⟩
      · cases hv.symm.trans hmoving
      · cases hex.symm.trans hmoving
  · rintro a e ev y rfl
    rfl

/-- A run of waits, transitions and steps of the receiving thread is a schedule. -/
lemma schedule_of {control : Control} (hc : (begin σ c).control = control)
    (hrun : run System.step ⟨(begin σ c).session, control⟩ es = some x) (horder : received es = ev)
    (hes : ∀ e ∈ es, (e = .take ∨ e = .transition) ∨ ¬ e.OfUser)
    (hdone : (∃ v, x.control = .returned v) ∨ x.control = .undefined ∨
      ∃ ex, x.control = .threw ex) : Schedule σ c ev es x := by
  refine ⟨?_, horder, fun e he => ?_, ?_⟩
  · have hcall : System.step ⟨σ, .idle⟩ (.call c) =
        some ⟨(begin σ c).session, (begin σ c).control⟩ := step_call_iff.mpr ⟨trivial, rfl⟩
    rw [run_cons hcall, hc, hrun]
  · rcases hes e he with (rfl | rfl) | huser
    · exact ⟨nofun, nofun⟩
    · exact ⟨nofun, nofun⟩
    · refine ⟨?_, ?_⟩
      · rintro rfl
        exact huser trivial
      · rintro c rfl
        exact huser trivial
  · rcases hdone with ⟨v, hv⟩ | hundefined | ⟨ex, hex⟩
    · rw [hv]
      exact Or.inl trivial
    · exact Or.inr hundefined
    · rw [hex]
      exact Or.inl trivial

end Schedules

end Imapcl
