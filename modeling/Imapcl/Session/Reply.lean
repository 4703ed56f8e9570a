import Imapcl.Session.System

set_option relaxedAutoImplicit false
set_option autoImplicit false

/-!
# Reply loops

What an operation that waits does with the responses it takes one after the other, as a fold over
the queue. Runs of `Imapcl.System` are compared with this fold.

## Main definitions

* `Imapcl.feed` — the place after the responses up to the first that ends the operation.

## Main results

* `Imapcl.run_take` and `Imapcl.run_feed` — taking responses from the queue computes the fold.
-/

namespace Imapcl

open Machine

/-! ## The fold -/

/-- The place of an operation that waits, after it has taken the responses up to the first one that
ends the wait for good. -/
def feed (state : ImapState) (w : Wait) : List Response → Control
  | [] => .waiting w
  | r :: rs => match react state r w with
    | .waiting w' => feed state w' rs
    | c => c

variable {state : ImapState} {w w' : Wait} {r : Response} {rs qs : List Response}

/-- The operation has come to its end without an exception, up to its call of `transition`. -/
def Control.Completed : Control → Prop
  | .moving _ _ => True
  | .returned _ => True
  | .undefined => True
  | _ => False

/-- The operation waits, or it does not. -/
lemma Control.waits (c : Control) : (∃ w, c = .waiting w) ∨ ∀ w, c ≠ .waiting w := by
  by_cases h : ∃ w, c = .waiting w
  · exact Or.inl h
  · exact Or.inr fun w hw => h ⟨w, hw⟩

/-- A response after which the operation waits again. -/
lemma feed_cons (h : react state r w = .waiting w') :
    feed state w (r :: rs) = feed state w' rs := by
  rw [feed, h]

/-- A response that ends the wait. -/
lemma feed_cons_of_ne (h : ∀ w', react state r w ≠ .waiting w') :
    feed state w (r :: rs) = react state r w := by
  rw [feed]
  split
  · next w' hw' => exact absurd hw' (h w')
  · rfl

/-- Responses after which the operation waits again are followed by the others. -/
lemma feed_append (h : feed state w rs = .waiting w') :
    feed state w (rs ++ qs) = feed state w' qs := by
  induction rs generalizing w with
  | nil =>
    rw [feed, Control.waiting.injEq] at h
    rw [List.nil_append, h]
  | cons r rs ih =>
    rcases (react state r w).waits with ⟨w₁, hw₁⟩ | hne
    · rw [feed_cons hw₁] at h
      rw [List.cons_append, feed_cons hw₁, ih h]
    · rw [feed_cons_of_ne hne] at h
      exact absurd h (hne w')

/-- Responses after the end are not taken. -/
lemma feed_append_of_ne (h : ∀ w', feed state w rs ≠ .waiting w') :
    feed state w (rs ++ qs) = feed state w rs := by
  induction rs generalizing w with
  | nil => exact absurd rfl (h w)
  | cons r rs ih =>
    rw [List.cons_append]
    rcases (react state r w).waits with ⟨w₁, hw₁⟩ | hne
    · rw [feed_cons hw₁] at h ⊢
      rw [feed_cons hw₁, ih h]
    · rw [feed_cons_of_ne hne, feed_cons_of_ne hne]

/-- Two folds that agree so far agree on what follows. -/
lemma feed_append_congr {rs' : List Response} (h : feed state w rs = feed state w' rs') :
    feed state w (rs ++ qs) = feed state w' (rs' ++ qs) := by
  rcases (feed state w rs).waits with ⟨w₁, hw₁⟩ | hne
  · rw [feed_append hw₁, feed_append (h ▸ hw₁)]
  · rw [feed_append_of_ne hne, feed_append_of_ne (h ▸ hne), h]

/-- A reply moves the session to an open connection, and only operations that do so are completed
by a transition. -/
lemma feed_moving {target : ImapState} (h : feed state w rs = .moving w' target) :
    w'.Moves ∧ target.Open := by
  induction rs generalizing w with
  | nil => cases h
  | cons r rs ih =>
    rcases (react state r w).waits with ⟨w₁, hw₁⟩ | hne
    · rw [feed_cons hw₁] at h
      exact ih h
    · rw [feed_cons_of_ne hne] at h
      obtain ⟨rfl, hmoves⟩ := react_moving h
      exact hmoves

/-- What the responses of a reply lead to. -/
lemma feed_cases (state : ImapState) (w : Wait) (rs : List Response) :
    (∃ w', feed state w rs = .waiting w') ∨
      (∃ w' target, feed state w rs = .moving w' target) ∨
      (¬ w.Moves ∧ ((∃ v, feed state w rs = .returned v) ∨ feed state w rs = .undefined)) ∨
      ∃ ex, feed state w rs = .threw ex := by
  induction rs generalizing w with
  | nil => exact Or.inl ⟨w, rfl⟩
  | cons r rs ih =>
    rcases react_cases state r w with ⟨w', hw', hrepeats⟩ | ⟨target, h, -⟩ | ⟨hmoves, h⟩ | ⟨ex, h⟩
    · rw [feed_cons hw']
      rcases ih w' with h | h | ⟨hmoves, h⟩ | h
      · exact Or.inl h
      · exact Or.inr (Or.inl h)
      · refine Or.inr (Or.inr (Or.inl ⟨?_, h⟩))
        cases w <;> cases w' <;> first | exact hrepeats.elim | exact hmoves
      · exact Or.inr (Or.inr (Or.inr h))
    · rw [feed_cons_of_ne (by rw [h]; exact nofun), h]
      exact Or.inr (Or.inl ⟨w, target, rfl⟩)
    · refine Or.inr (Or.inr (Or.inl ⟨hmoves, ?_⟩))
      rwa [feed_cons_of_ne]
      intro w' hw'
      rw [hw'] at h
      rcases h with ⟨v, h⟩ | h <;> cases h
    · rw [feed_cons_of_ne (by rw [h]; exact nofun), h]
      exact Or.inr (Or.inr (Or.inr ⟨ex, rfl⟩))

/-! ## Runs -/

/-- Taking responses after which the operation waits again. -/
lemma run_take {σ : Session} (hlive : ¬ σ.state.Terminal)
    (h : feed σ.state w rs = .waiting w') :
    run System.step ⟨{ σ with responseQueue := rs ++ qs }, .waiting w⟩
        (List.replicate rs.length .take) =
      some ⟨{ σ with responseQueue := qs }, .waiting w'⟩ := by
  induction rs generalizing w with
  | nil =>
    rw [feed, Control.waiting.injEq] at h
    rw [h]
    rfl
  | cons r rs ih =>
    rcases (react σ.state r w).waits with ⟨w₁, hw₁⟩ | hne
    · rw [feed_cons hw₁] at h
      rw [List.length_cons, List.replicate_succ, List.cons_append,
        run_cons (step_take_of (w := w) rfl hlive rfl)]
      show run System.step ⟨_, react σ.state r w⟩ _ = _
      rw [hw₁]
      exact ih h
    · rw [feed_cons_of_ne hne] at h
      exact absurd h (hne w')

/-- Taking a whole reply. -/
lemma run_reply {σ : Session} (hlive : ¬ σ.state.Terminal)
    (hqueue : σ.responseQueue = rs ++ [r]) (h : feed σ.state w rs = .waiting w') :
    run System.step ⟨σ, .waiting w⟩ (List.replicate (rs.length + 1) .take) =
      some ⟨{ σ with responseQueue := [] }, react σ.state r w'⟩ := by
  obtain ⟨state, tag, mailbox, queue⟩ := σ
  obtain rfl : queue = rs ++ [r] := hqueue
  have hrun : run System.step ⟨⟨state, tag, mailbox, rs ++ [r]⟩, .waiting w⟩
      (List.replicate rs.length .take) = some ⟨⟨state, tag, mailbox, [r]⟩, .waiting w'⟩ :=
    run_take (σ := ⟨state, tag, mailbox, []⟩) hlive h
  have hlast := step_take_of (s := ⟨⟨state, tag, mailbox, [r]⟩, .waiting w'⟩) (w := w') rfl
    hlive rfl
  rw [List.replicate_succ']
  exact run_append_of hrun (run_singleton hlast)

/-- Taking responses up to the end of the operation. -/
lemma run_feed {σ : Session} (hlive : ¬ σ.state.Terminal)
    (h : ∀ w', feed σ.state w σ.responseQueue ≠ .waiting w') :
    ∃ n qs, run System.step ⟨σ, .waiting w⟩ (List.replicate n .take) =
      some ⟨{ σ with responseQueue := qs }, feed σ.state w σ.responseQueue⟩ := by
  obtain ⟨state, tag, mailbox, rs⟩ := σ
  show ∃ n qs, run System.step ⟨⟨state, tag, mailbox, rs⟩, .waiting w⟩
      (List.replicate n .take) = some ⟨⟨state, tag, mailbox, qs⟩, feed state w rs⟩
  replace h : ∀ w', feed state w rs ≠ .waiting w' := h
  induction rs generalizing w with
  | nil => exact absurd rfl (h w)
  | cons r rs ih =>
    have hstep := step_take_of (s := ⟨⟨state, tag, mailbox, r :: rs⟩, .waiting w⟩) (w := w) rfl
      hlive rfl
    rcases (react state r w).waits with ⟨w₁, hw₁⟩ | hne
    · rw [feed_cons hw₁] at h
      obtain ⟨n, qs, hrun⟩ := ih hlive h
      refine ⟨n + 1, qs, ?_⟩
      rw [List.replicate_succ, run_cons hstep, feed_cons hw₁, ← hrun, ← hw₁]
    · refine ⟨1, rs, ?_⟩
      rw [List.replicate_one, run_cons hstep, feed_cons_of_ne hne]
      rfl

/-- An operation whose responses are there can be brought to its end: it returns, unless they lead
it to a null pointer. -/
lemma run_completed {σ : Session} (hlive : ¬ σ.state.Terminal)
    (hc : (feed σ.state w σ.responseQueue).Completed) :
    ∃ es y, run System.step ⟨σ, .waiting w⟩ es = some y ∧
      (∀ e ∈ es, e = .take ∨ e = .transition) ∧
      ((∃ v, y.control = .returned v) ∨
        feed σ.state w σ.responseQueue = .undefined ∧ y.control = .undefined) ∧
      ∀ w' target, feed σ.state w σ.responseQueue = .moving w' target →
        y.control = .returned .unit ∧ y.session.state = target := by
  have hne : ∀ w', feed σ.state w σ.responseQueue ≠ .waiting w' := by
    intro w' hw'
    rw [hw'] at hc
    exact hc
  obtain ⟨n, qs, hrun⟩ := run_feed hlive hne
  have htakes : ∀ e ∈ List.replicate n Event.take, e = .take ∨ e = .transition := fun e he =>
    Or.inl (List.eq_of_mem_replicate he)
  rcases feed_cases σ.state w σ.responseQueue with ⟨w', h⟩ | ⟨w', target, h⟩ | ⟨-, h⟩ | ⟨ex, h⟩
  · exact absurd h (hne w')
  · rw [h] at hrun ⊢
    have hstep : run System.step ⟨{ σ with responseQueue := qs }, .moving w' target⟩
        [.transition] = some ⟨⟨target, σ.tag, mailboxAfter σ.currentMailbox w', qs⟩,
          .returned .unit⟩ := by
      rw [run_cons (step_transition_iff.mpr ⟨w', target, rfl, rfl⟩), (feed_moving h).1.after]
      rfl
    refine ⟨_, _, run_append_of hrun hstep, ?_, Or.inl ⟨_, rfl⟩, ?_⟩
    · intro e he
      rcases List.mem_append.mp he with he | he
      · exact htakes e he
      · exact Or.inr (List.mem_singleton.mp he)
    · intro w₁ target₁ heq
      exact ⟨rfl, (Control.moving.inj heq).2⟩
  · refine ⟨_, _, hrun, htakes, h.imp_right fun h => ⟨h, h⟩, fun w' target hmoving => ?_⟩
    rcases h with ⟨v, h⟩ | h <;> cases h.symm.trans hmoving
  · rw [h] at hc
    exact hc.elim

/-! ## Untagged responses -/

/-- An untagged response of a reply: FLAGS, EXISTS, RECENT, OK, SEARCH or FETCH. -/
def Response.Untagged : Response → Prop
  | .flags => True
  | .singleNumber type _ => type = .exists ∨ type = .recent
  | .status type tag _ => type = .ok ∧ tag = []
  | .search _ => True
  | .fetch _ => True
  | .base _ => False

instance (r : Response) : Decidable r.Untagged := by
  cases r <;> unfold Response.Untagged <;> infer_instance

/-- An untagged response is no BYE. -/
lemma Response.Untagged.ne_bye {r : Response} (h : r.Untagged) : r.getType ≠ .bye := by
  cases r with
  | status type tag text =>
    obtain ⟨rfl, -⟩ := h
    exact nofun
  | singleNumber type number => rcases h with rfl | rfl <;> exact nofun
  | base type => exact h.elim
  | _ => exact nofun

/-- The operation takes responses up to the first that is tagged. -/
def Wait.Loops : Wait → Prop
  | .select _ => True
  | .search _ => True
  | .fetch _ => True
  | _ => False

/-- The local variables of an operation after an untagged response. -/
def Wait.after : Wait → Response → Wait
  | .search _, .search seqNumbers => .search (some seqNumbers)
  | .fetch found, .fetch messageData => .fetch (found ++ [some messageData])
  | w, _ => w

/-- A response without a tag, as the parser stores it. -/
def Response.Tagless : Response → Prop
  | .status type tag _ => tag = [] ∧
    (type = .ok ∨ type = .no ∨ type = .bad ∨ type = .preauth ∨ type = .bye)
  | .singleNumber type _ => type = .exists ∨ type = .recent
  | .base _ => False
  | _ => True

instance (r : Response) : Decidable r.Tagless := by
  cases r <;> unfold Response.Tagless <;> infer_instance

/-- An untagged response of a reply has no tag. -/
lemma Response.Untagged.tagless {r : Response} (h : r.Untagged) : r.Tagless := by
  cases r with
  | status type tag text => exact ⟨h.2, Or.inl h.1⟩
  | singleNumber type number => exact h
  | base type => exact h.elim
  | _ => exact trivial

/-- A response without a tag does not end a loop. -/
lemma react_tagless (hw : w.Loops) (hr : r.Tagless) :
    react state r w = .waiting (w.after r) := by
  have htag : r.getTag = [] := by
    cases r with
    | status type tag text => exact hr.1
    | _ => rfl
  cases w with
  | select mailbox =>
    rw [react, if_pos htag]
    rfl
  | search found =>
    rw [react]
    cases r with
    | search seqNumbers => rfl
    | base type => exact hr.elim
    | status type tag text =>
      obtain ⟨rfl, rfl | rfl | rfl | rfl | rfl⟩ := hr <;> rfl
    | singleNumber type number => rcases hr with rfl | rfl <;> rfl
    | _ => rfl
  | fetch found =>
    rw [react]
    cases r with
    | fetch messageData => rfl
    | base type => exact hr.elim
    | status type tag text =>
      obtain ⟨rfl, rfl | rfl | rfl | rfl | rfl⟩ := hr <;> rfl
    | singleNumber type number => rcases hr with rfl | rfl <;> rfl
    | _ => rfl
  | _ => exact hw.elim

/-- An untagged response does not end a loop. -/
lemma react_untagged (hw : w.Loops) (hr : r.Untagged) :
    react state r w = .waiting (w.after r) :=
  react_tagless hw hr.tagless

/-- An untagged response keeps the operation in its loop. -/
lemma Wait.loops_after (hw : w.Loops) : (w.after r).Loops := by
  cases w with
  | select mailbox => exact trivial
  | search found => cases r <;> exact trivial
  | fetch found => cases r <;> exact trivial
  | _ => exact hw.elim

/-- So do untagged responses. -/
lemma Wait.loops_foldl (hw : w.Loops) : (rs.foldl Wait.after w).Loops := by
  induction rs generalizing w with
  | nil => exact hw
  | cons r rs ih => exact ih (Wait.loops_after hw)

/-- Responses without a tag do not end a loop. -/
lemma feed_tagless (hw : w.Loops) (hrs : ∀ r ∈ rs, r.Tagless) :
    feed state w rs = .waiting (rs.foldl Wait.after w) := by
  induction rs generalizing w with
  | nil => rfl
  | cons r rs ih =>
    rw [feed_cons (react_tagless hw (hrs r List.mem_cons_self)), List.foldl_cons]
    exact ih (Wait.loops_after hw) fun r' hr' => hrs r' (List.mem_cons_of_mem r hr')

/-- Untagged responses do not end a loop. -/
lemma feed_untagged (hw : w.Loops) (hrs : ∀ r ∈ rs, r.Untagged) :
    feed state w rs = .waiting (rs.foldl Wait.after w) :=
  feed_tagless hw fun r hr => (hrs r hr).tagless

/-- A SELECT keeps nothing. -/
lemma foldl_after_select (mailbox : Bytes) :
    rs.foldl Wait.after (.select mailbox) = .select mailbox := by
  induction rs with
  | nil => rfl
  | cons r rs ih => exact ih

/-- A SEARCH keeps the last result. -/
lemma foldl_after_search (found : Option (List UInt32)) :
    rs.foldl Wait.after (.search found) = .search ((rs.filterMap asSearch).getLast?.or found) := by
  induction rs generalizing found with
  | nil => rfl
  | cons r rs ih =>
    rw [List.foldl_cons]
    cases r with
    | search seqNumbers =>
      have hfilter : (.search seqNumbers :: rs).filterMap asSearch =
          seqNumbers :: rs.filterMap asSearch := rfl
      rw [Wait.after, ih, hfilter, List.getLast?_cons]
      cases (rs.filterMap asSearch).getLast? <;> rfl
    | _ => exact ih found

/-- A FETCH keeps all messages. -/
lemma foldl_after_fetch (found : List (Option Bytes)) :
    rs.foldl Wait.after (.fetch found) = .fetch (found ++ (rs.filterMap asFetch).map some) := by
  induction rs generalizing found with
  | nil => exact congrArg Wait.fetch (List.append_nil found).symm
  | cons r rs ih =>
    rw [List.foldl_cons]
    cases r with
    | fetch messageData =>
      have hfilter : (.fetch messageData :: rs).filterMap asFetch =
          messageData :: rs.filterMap asFetch := rfl
      rw [Wait.after, ih, hfilter, List.append_assoc]
      rfl
    | _ => exact ih found

/-! ## Tagged responses -/

/-- The end of a search. -/
lemma react_search_ok {tag text : Bytes} {seqNumbers : List UInt32} (htag : tag ≠ []) :
    react state (.status .ok tag text) (.search (some seqNumbers)) =
      .returned (.numbers seqNumbers) := by
  have htype : (Response.status .ok tag text).getType ≠ .search := by
    show ResponseType.ok ≠ .search
    decide
  have htag' : (Response.status .ok tag text).getTag ≠ [] := htag
  rw [react, if_neg htype, if_neg htag', if_pos (by rfl)]
  rfl

/-- The end of a fetch. -/
lemma react_fetch_ok {tag text : Bytes} {messageData : List Bytes} (htag : tag ≠ []) :
    react state (.status .ok tag text) (.fetch (messageData.map some)) =
      .returned (.messages messageData) := by
  have hall : (messageData.map some).mapM id = some messageData := by
    induction messageData with
    | nil => rfl
    | cons d ds ih => simp [ih]
  have htype : (Response.status .ok tag text).getType ≠ .fetch := by
    show ResponseType.ok ≠ .fetch
    decide
  have htag' : (Response.status .ok tag text).getTag ≠ [] := htag
  rw [react, if_neg htype, if_neg htag', if_pos (by rfl), hall]
  rfl

/-- The end of a select. -/
lemma react_select_ok {tag text mailbox : Bytes} (htag : tag ≠ []) :
    react state (.status .ok tag text) (.select mailbox) =
      .moving (.select mailbox) .selected := by
  have htag' : (Response.status .ok tag text).getTag ≠ [] := htag
  rw [react, if_neg htag', if_pos (by rfl)]

/-- A tagged NO or BAD makes a loop throw. -/
lemma react_refused {type : ResponseType} {tag text : Bytes} (hw : w.Loops ∨ w = .read)
    (htag : tag ≠ []) (htype : type = .no ∨ type = .bad) :
    ∃ ex, react state (.status type tag text) w = .threw ex := by
  have htag' : (Response.status type tag text).getTag ≠ [] := htag
  have hok : (Response.status type tag text).getType ≠ .ok := by
    rintro rfl
    rcases htype with h | h <;> cases h
  have hsearch : (Response.status type tag text).getType ≠ .search := by
    rintro rfl
    rcases htype with h | h <;> cases h
  have hfetch : (Response.status type tag text).getType ≠ .fetch := by
    rintro rfl
    rcases htype with h | h <;> cases h
  rcases hw with hw | rfl
  · cases w with
    | select mailbox =>
      rw [react, if_neg htag', if_neg hok]
      exact failWith_threw _ _
    | search found =>
      rw [react, if_neg hsearch, if_neg htag', if_neg hok]
      exact failWith_threw _ _
    | fetch found =>
      rw [react, if_neg hfetch, if_neg htag', if_neg hok]
      exact failWith_threw _ _
    | _ => exact hw.elim
  · rw [react, if_neg hok]
    exact failWith_threw _ _

end Imapcl
