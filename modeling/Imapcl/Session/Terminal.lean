import Imapcl.Session.System

set_option relaxedAutoImplicit false
set_option autoImplicit false

/-!
# Lost connections

Once the receiving thread has set `SERVER_BYED` or `RECEIVER_ERROR`, the connection is lost. The
call of `transition` at the end of an operation does not look at the state, so it overwrites these
two states if they are set in the gap before it; and `logout` has no guard.

## Main definitions

* `Imapcl.EndsConnection` — the steps that set one of the two states.
* `Imapcl.OutsideGap` — no such step in the gap of an operation, and no logout after one.

## Main results

* `Imapcl.terminal_stays` — in runs of such steps a lost connection stays lost.
-/

namespace Imapcl

open Machine

variable {s s' : System} {e : Event}

/-! ## The gap -/

/-- The step sets `SERVER_BYED` or `RECEIVER_ERROR`: a failure, or a BYE outside of `LOGOUT`. -/
def EndsConnection (σ : Session) : Event → Prop
  | .incoming response => response.getType = .bye ∧ σ.state ≠ .logout
  | .failed => True
  | _ => False

/-- The connection does not end in the gap of an operation, between its last wait, or the send of a
logout, and its call of `transition`; and no logout is called after it has ended. -/
def OutsideGap (s : System) (e : Event) : Prop :=
  (EndsConnection s.session e → ∀ w target, s.control ≠ .moving w target) ∧
    (e = .call .logout → ¬ s.session.state.Terminal)

/-- After the connection is lost, no operation is before a call of `transition`. -/
def GapClosed (s : System) : Prop :=
  s.session.state.Terminal → ∀ w target, s.control ≠ .moving w target

/-- A step that ends the connection sets one of the two states; any other step of the receiving
thread keeps the state. -/
lemma incoming_state (σ : Session) (r : Response) :
    (σ.incoming r).state.Terminal ∧ EndsConnection σ (.incoming r) ∨
      (σ.incoming r).state = σ.state := by
  rcases incoming_cases σ r with ⟨hbye, hlogout, h | h⟩ | ⟨-, h⟩
  · rw [h]
    exact Or.inl ⟨Or.inr rfl, hbye, hlogout⟩
  · rw [h]
    exact Or.inl ⟨Or.inl rfl, hbye, hlogout⟩
  · rw [h]
    exact Or.inr rfl

/-- The gap stays closed.

**Proof sketch.** A call or a wait leads to a gap only in a state that is not terminal: a wait in a
terminal state throws. The connection does not end during a gap. -/
lemma gapClosed_step (s : System) (e : Event) (s' : System) (hI : GapClosed s)
    (hC : OutsideGap s e) (h : s.step e = some s') : GapClosed s' := by
  cases e with
  | call c =>
    obtain ⟨-, rfl⟩ := step_call_iff.mp h
    intro hterm w target hmoving
    obtain ⟨rfl, -, -⟩ := begin_moving hmoving
    exact hC.2 rfl (by rwa [← (begin_frame s.session .logout).1])
  | transition =>
    obtain ⟨w, target, -, rfl⟩ := step_transition_iff.mp h
    intro _ w' target' hmoving
    cases w <;> cases hmoving
  | take =>
    obtain ⟨w, -, ⟨-, -, ex, hex⟩ | ⟨r, rs, hlive, -, rfl⟩⟩ := step_take_cases h
    · intro _ w' target' hmoving
      rw [hex] at hmoving
      cases hmoving
    · exact fun hterm => absurd hterm hlive
  | timeout =>
    obtain ⟨ex, rfl, -, -⟩ := step_timeout_cases h
    intro _ w' target' hmoving
    cases hmoving
  | incoming r =>
    obtain rfl := Option.some.inj h
    intro hterm w target
    rcases incoming_state s.session r with ⟨-, hends⟩ | hsame
    · exact hC.1 hends w target
    · exact hI (hsame ▸ hterm) w target
  | failed =>
    obtain rfl := Option.some.inj h
    exact fun _ => hC.1 trivial

/-- With the gap closed, a lost connection stays lost in every step. -/
lemma terminal_step (s : System) (e : Event) (s' : System) (hI : GapClosed s)
    (hterm : s.session.state.Terminal) (h : s.step e = some s') : s'.session.state.Terminal := by
  cases e with
  | call c =>
    obtain ⟨-, rfl⟩ := step_call_iff.mp h
    rwa [(begin_frame s.session c).1]
  | transition =>
    obtain ⟨w, target, hmoving, -⟩ := step_transition_iff.mp h
    exact absurd hmoving (hI hterm w target)
  | take =>
    obtain ⟨w, -, ⟨-, hsame, -⟩ | ⟨r, rs, hlive, -, -⟩⟩ := step_take_cases h
    · rwa [hsame]
    · exact absurd hterm hlive
  | timeout =>
    obtain ⟨ex, rfl, -, -⟩ := step_timeout_cases h
    exact hterm
  | incoming r =>
    obtain rfl := Option.some.inj h
    rcases incoming_state s.session r with ⟨hterm', -⟩ | hsame
    · exact hterm'
    · show (s.session.incoming r).state.Terminal
      rwa [hsame]
  | failed =>
    obtain rfl := Option.some.inj h
    exact Or.inl rfl

/-- **Terminal states stay terminal.** In a run in which the connection never ends in the gap of an
operation, and no logout is called after it has ended, a lost connection is lost for the rest of the
run.

**Proof sketch.** The gap is closed along the whole run, and then every further step keeps the
state terminal. -/
theorem terminal_stays (es₁ es₂ : List Event) (s₁ s₂ : System)
    (h₁ : run System.step .new es₁ = some s₁) (h₂ : run System.step s₁ es₂ = some s₂)
    (hmeets : Meets System.step OutsideGap .new (es₁ ++ es₂))
    (hterm : s₁.session.state.Terminal) : s₂.session.state.Terminal := by
  have hnew : GapClosed .new := fun hterm => absurd hterm (by decide)
  have hclosed : GapClosed s₁ := invariant gapClosed_step hnew hmeets.left h₁
  have hboth := invariant (I := fun s => GapClosed s ∧ s.session.state.Terminal)
    (fun s e s' hI hC h => ⟨gapClosed_step s e s' hI.1 hC h, terminal_step s e s' hI.1 hI.2 h⟩)
    ⟨hclosed, hterm⟩ (hmeets.right h₁) h₂
  exact hboth.2

/-- A failure during the wait for the greeting. -/
theorem terminal_stays_failed :
    (⟨⟨.receiverError, 1, [], []⟩, .threw (.runtimeError
      (ascii "Connection error: std::exception"))⟩ : System).session.state.Terminal := by
  refine terminal_stays [.call .receiveGreeting, .failed] [.take]
    ⟨⟨.receiverError, 1, [], []⟩, .waiting .greeting⟩ _ rfl rfl ?_ (Or.inl rfl)
  refine .cons ⟨fun h => h.elim, by simp⟩ rfl ?_
  refine .cons ⟨fun _ w target => by simp [begin], by simp⟩ rfl ?_
  exact .cons ⟨fun h => h.elim, by simp⟩ rfl .nil

/-- A BYE between the pop of the greeting and the transition after it is overwritten. -/
theorem terminal_overwritten :
    ∃ s₁ s₂, run System.step .new [.call .receiveGreeting, .incoming (.status .ok [] (ascii "hi")),
        .take, .incoming (.status .bye [] (ascii "bye"))] = some s₁ ∧
      s₁.session.state = .serverByed ∧
      run System.step s₁ [.transition] = some s₂ ∧ s₂.session.state = .nauth :=
  ⟨_, _, rfl, rfl, rfl, rfl⟩

end Imapcl
