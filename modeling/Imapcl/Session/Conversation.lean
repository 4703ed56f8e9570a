import Imapcl.Response.Decimal
import Imapcl.Session.Reply

set_option relaxedAutoImplicit false
set_option autoImplicit false

/-!
# Commands and replies

The session together with a server that answers every command in order: with untagged responses and
then a status that carries the tag of the command. The operations do not compare the tags; each one
has its own idea of where its reply ends. `select`, `search` and `fetch` take responses up to the
first tagged one, `read` takes one response.

## Main definitions

* `Imapcl.Reply`, `Imapcl.Conversation`, `Imapcl.Conversation.step`.
* `Imapcl.Conversation.Settled` — the last call has consumed exactly its own reply.

## Main results

* `Imapcl.replies_settled` — every call does so, if the replies to `read` are plain and no wait
  times out.
-/

namespace Imapcl

open Machine

/-! ## The server -/

/-- What the server sends in answer to a command, without the tag. -/
structure Reply where
  untagged : List Response
  status : ResponseType
  text : Bytes
  deriving DecidableEq, Repr

/-- The responses of a reply to the command with the tag. -/
def Reply.responses (reply : Reply) (tag : Bytes) : List Response :=
  reply.untagged ++ [.status reply.status tag reply.text]

/-- The reply is one that a server may give to the command of the call. -/
structure Reply.Answers (reply : Reply) (c : Call) : Prop where
  untagged : ∀ r ∈ reply.untagged, r.Untagged
  status : reply.status = .ok ∨ reply.status = .no ∨ reply.status = .bad
  search : ∀ onlyUnseen, c = .search onlyUnseen → reply.status = .ok →
    ∃ seqNumbers, .search seqNumbers ∈ reply.untagged

/-- No response of a reply is a BYE. -/
lemma Reply.Answers.ne_bye {reply : Reply} {c : Call} {tag : Bytes} {r : Response}
    (h : reply.Answers c) (hr : r ∈ reply.responses tag) : r.getType ≠ .bye := by
  rcases List.mem_append.mp hr with hr | hr
  · exact (h.untagged r hr).ne_bye
  · rw [List.mem_singleton.mp hr]
    show reply.status ≠ .bye
    rcases h.status with hs | hs | hs <;> rw [hs] <;> exact nofun

/-- The call is one of `select`, `search`, `fetch` and `read`. -/
def Call.OnMailbox : Call → Prop
  | .select _ => True
  | .search _ => True
  | .fetch _ _ => True
  | .read _ => True
  | _ => False

instance (c : Call) : Decidable c.OnMailbox := by
  cases c <;> unfold Call.OnMailbox <;> infer_instance

/-! ## The machine -/

/-- The session; the responses that have been sent and not been notified; the tag of the command
that the last call has sent, with the reply to it; and the responses this call has taken. -/
structure Conversation where
  system : System
  wire : List Response
  current : Option (Bytes × Reply)
  taken : List Response
  deriving DecidableEq, Repr

/-- The steps: a call, with the reply that the server gives if a command reaches it; those of an
operation; and the notification of the next response. -/
inductive ConversationEvent where
  | call (c : Call) (reply : Reply)
  | transition
  | take
  | timeout
  | deliver
  deriving DecidableEq, Repr

namespace Conversation

/-- A conversation before the first call. -/
def start (σ : Session) : Conversation := ⟨⟨σ, .idle⟩, [], none, []⟩

/-- One step. A command that `make_tcp` refuses does not reach the server. -/
def step (x : Conversation) : ConversationEvent → Option Conversation
  | .call c reply =>
    if c.OnMailbox ∧ x.system.control.Free then
      let b := begin x.system.session c
      match b.command, b.control with
      | some command, .waiting w =>
        some ⟨⟨b.session, .waiting w⟩, x.wire ++ reply.responses command.tag,
          some (command.tag, reply), []⟩
      | _, control => some ⟨⟨b.session, control⟩, x.wire, none, []⟩
    else none
  | .transition => (x.system.step .transition).map fun s => { x with system := s }
  | .take =>
    (x.system.step .take).map fun s =>
      let n := x.system.session.responseQueue.length - s.session.responseQueue.length
      ⟨s, x.wire, x.current, x.taken ++ x.system.session.responseQueue.take n⟩
  | .timeout => (x.system.step .timeout).map fun s => { x with system := s }
  | .deliver => match x.wire with
    | [] => none
    | r :: rs => some ⟨⟨x.system.session.incoming r, x.system.control⟩, rs, x.current, x.taken⟩

/-- No response of the reply is left. If the last call has sent a command, it has taken exactly the
reply to it, with the tag it sent in the status it acted on, and it has returned if and only if this
status is OK. -/
structure Settled (x : Conversation) : Prop where
  queue : x.system.session.responseQueue = []
  wire : x.wire = []
  reply : ∀ tag reply, x.current = some (tag, reply) → x.taken = reply.responses tag ∧
    x.taken.getLast? = some (.status reply.status tag reply.text) ∧
    ((∃ v, x.system.control = .returned v) ↔ reply.status = .ok)

end Conversation

namespace ConversationEvent

/-- The server conforms. -/
def Conforming : ConversationEvent → Prop
  | .call c reply => reply.Answers c
  | _ => True

/-- The server sends nothing before the status in a reply to the command of `read`, and no wait
times out. -/
def Orderly : ConversationEvent → Prop
  | .call (.read _) reply => reply.untagged = []
  | .timeout => False
  | _ => True

end ConversationEvent

/-! ## The end of a reply -/

/-- Where an operation on the mailbox begins, in `SELECTED`. -/
lemma begin_mailbox {σ : Session} {c : Call} (hc : c.OnMailbox) (hσ : σ.state = .selected) :
    (∃ command, (begin σ c).command = some command ∧ command.tag = decimal σ.tag.toNat ∧
        (begin σ c).control = .waiting c.firstWait) ∨
      ∃ ex, (begin σ c).control = .threw ex := by
  have hguard : c.Guard σ.state := by
    cases c with
    | select mailbox =>
      show σ.state ≠ .nauth
      rw [hσ]
      decide
    | search onlyUnseen => exact hσ
    | fetch sequenceSet onlyHeaders => exact hσ
    | read sequenceSet => exact hσ
    | _ => exact hc.elim
  obtain ⟨τ, command, control, hbegin, -, hcommand, rfl | ⟨ex, rfl⟩⟩ := begin_of_guard hguard
  · rw [hbegin]
    refine Or.inl ⟨command, rfl, ?_, ?_⟩
    · cases c with
      | receiveGreeting => exact hc.elim
      | login userName password => exact hc.elim
      | _ =>
        rw [← Option.some.inj hcommand]
        rfl
    · cases c with
      | logout => exact hc.elim
      | _ => rfl
  · rw [hbegin]
    exact Or.inr ⟨ex, rfl⟩

/-- An operation on the mailbox other than `read` takes responses in a loop. -/
lemma Call.OnMailbox.loops {c : Call} (hc : c.OnMailbox) :
    (∃ set, c = .read set) ∨ c.firstWait.Loops := by
  cases c with
  | select mailbox => exact Or.inr trivial
  | search onlyUnseen => exact Or.inr trivial
  | fetch sequenceSet onlyHeaders => exact Or.inr trivial
  | read sequenceSet => exact Or.inl ⟨_, rfl⟩
  | _ => exact hc.elim

/-- The status at the end of a reply ends the operation: with success exactly if it is OK. -/
lemma react_status {c : Call} {reply : Reply} {tag : Bytes} {w : Wait} (hc : c.OnMailbox)
    (hanswers : reply.Answers c) (hplain : ∀ set, c = .read set → reply.untagged = [])
    (htag : tag ≠ []) (hw : w = reply.untagged.foldl Wait.after c.firstWait) :
    (reply.status = .ok ∧
        ((∃ v, react .selected (.status reply.status tag reply.text) w = .returned v) ∨
          w.Moves ∧
            react .selected (.status reply.status tag reply.text) w = .moving w .selected)) ∨
      (reply.status ≠ .ok ∧
        ∃ ex, react .selected (.status reply.status tag reply.text) w = .threw ex) := by
  by_cases hok : reply.status = .ok
  · refine Or.inl ⟨hok, ?_⟩
    rw [hok]
    cases c with
    | select mailbox =>
      obtain rfl : w = .select mailbox := hw.trans (foldl_after_select mailbox)
      exact Or.inr ⟨trivial, react_select_ok htag⟩
    | search onlyUnseen =>
      obtain ⟨seqNumbers, hmem⟩ := hanswers.search onlyUnseen rfl hok
      have hne : reply.untagged.filterMap asSearch ≠ [] :=
        List.ne_nil_of_mem (List.mem_filterMap.mpr ⟨_, hmem, rfl⟩)
      rw [Call.firstWait, foldl_after_search, List.getLast?_eq_some_getLast hne] at hw
      rw [hw]
      exact Or.inl ⟨_, react_search_ok htag⟩
    | fetch sequenceSet onlyHeaders =>
      rw [Call.firstWait, foldl_after_fetch, List.nil_append] at hw
      rw [hw]
      exact Or.inl ⟨_, react_fetch_ok htag⟩
    | read sequenceSet =>
      rw [hplain sequenceSet rfl] at hw
      obtain rfl : w = .read := hw
      exact Or.inr ⟨trivial, by rw [react, if_pos (by rfl)]⟩
    | _ => exact hc.elim
  · refine Or.inr ⟨hok, react_refused ?_ htag (hanswers.status.resolve_left hok)⟩
    rcases hc.loops with ⟨set, rfl⟩ | hloops
    · rw [hplain set rfl] at hw
      exact Or.inr hw
    · rw [hw]
      exact Or.inl (Wait.loops_foldl hloops)

/-! ## The invariant -/

/-- The call waits for the rest of its own reply. -/
structure InReply (x : Conversation) (w : Wait) (c : Call) (tag : Bytes) (reply : Reply) :
    Prop where
  current : x.current = some (tag, reply)
  mailbox : c.OnMailbox
  answers : reply.Answers c
  plain : ∀ set, c = .read set → reply.untagged = []
  tagged : tag ≠ []
  rest : x.taken ++ (x.system.session.responseQueue ++ x.wire) = reply.responses tag
  more : x.system.session.responseQueue ++ x.wire ≠ []
  wait : w = x.taken.foldl Wait.after c.firstWait

/-- The call has taken its reply with an OK, and is about to make its transition. -/
structure Accepted (x : Conversation) (w : Wait) (target : ImapState) (tag : Bytes)
    (reply : Reply) : Prop where
  current : x.current = some (tag, reply)
  queue : x.system.session.responseQueue = []
  wire : x.wire = []
  taken : x.taken = reply.responses tag
  status : reply.status = .ok
  moves : w.Moves
  target : target = .selected

/-- What holds after every step. -/
structure InStep (x : Conversation) : Prop where
  state : x.system.session.state = .selected
  waiting : ∀ w, x.system.control = .waiting w → ∃ c tag reply, InReply x w c tag reply
  moving : ∀ w target, x.system.control = .moving w target →
    ∃ tag reply, Accepted x w target tag reply
  defined : x.system.control ≠ .undefined
  settled : x.system.control.Free → x.Settled

variable {x x' : Conversation}

/-- A response that is taken is an untagged response of the reply, or the status at its end. -/
lemma InReply.take {w : Wait} {c : Call} {tag : Bytes} {reply : Reply} {r : Response}
    {rs : List Response} (h : InReply x w c tag reply)
    (hqueue : x.system.session.responseQueue = r :: rs) :
    (rs ++ x.wire ≠ [] ∧ r ∈ reply.untagged) ∨
      (rs = [] ∧ x.wire = [] ∧ x.taken = reply.untagged ∧
        r = .status reply.status tag reply.text) := by
  have hrest := h.rest
  rw [hqueue, List.cons_append, Reply.responses] at hrest
  rcases List.eq_nil_or_concat (rs ++ x.wire) with hnil | ⟨qs, q, hqs⟩
  · rw [hnil] at hrest
    obtain ⟨htaken, hr⟩ := List.append_inj' hrest rfl
    obtain ⟨hrs, hwire⟩ := List.append_eq_nil_iff.mp hnil
    exact Or.inr ⟨hrs, hwire, htaken, (List.cons.inj hr).1⟩
  · refine Or.inl ⟨?_, ?_⟩
    · rw [hqs]
      simp
    · rw [hqs, List.concat_eq_append, ← List.cons_append, ← List.append_assoc] at hrest
      rw [← (List.append_inj' hrest rfl).1]
      simp

/-- A call. -/
lemma inStep_call {c : Call} {reply : Reply} (hx : InStep x) (hanswers : reply.Answers c)
    (hplain : ∀ set, c = .read set → reply.untagged = [])
    (h : x.step (.call c reply) = some x') : InStep x' := by
  rw [Conversation.step] at h
  split at h
  · next hcall =>
    obtain ⟨hc, hfree⟩ := hcall
    have hsettled := hx.settled hfree
    have hqueue : (begin x.system.session c).session.responseQueue = [] :=
      (begin_frame x.system.session c).2.trans hsettled.queue
    have hstate : (begin x.system.session c).session.state = .selected :=
      (begin_frame x.system.session c).1.trans hx.state
    rcases begin_mailbox hc hx.state with ⟨command, hcommand, htag, hcontrol⟩ | ⟨ex, hcontrol⟩
    · simp only [hcommand, hcontrol, Option.some.injEq] at h
      rw [← h]
      refine ⟨hstate, fun w hw => ?_, nofun, nofun, fun hfree => hfree.elim⟩
      obtain rfl := Control.waiting.inj hw
      refine ⟨c, command.tag, reply, rfl, hc, hanswers, hplain, ?_, ?_, ?_, rfl⟩
      · rw [htag]
        exact decimal_ne_nil _
      · show [] ++ ((begin x.system.session c).session.responseQueue ++
          (x.wire ++ reply.responses command.tag)) = reply.responses command.tag
        rw [hqueue, hsettled.wire]
        rfl
      · show (begin x.system.session c).session.responseQueue ++
          (x.wire ++ reply.responses command.tag) ≠ []
        rw [hqueue, hsettled.wire]
        simp [Reply.responses]
    · simp only [hcontrol] at h
      split at h
      · next heq => cases heq
      · rw [← Option.some.inj h]
        exact ⟨hstate, nofun, nofun, nofun, fun _ => ⟨hqueue, hsettled.wire, nofun⟩⟩
  · cases h

/-- A transition. -/
lemma inStep_transition (hx : InStep x) (h : x.step .transition = some x') : InStep x' := by
  obtain ⟨s, hs, rfl⟩ := Option.map_eq_some_iff.mp h
  obtain ⟨w, target, hmoving, rfl⟩ := step_transition_iff.mp hs
  obtain ⟨tag, reply, hacc⟩ := hx.moving w target hmoving
  rw [hacc.moves.after]
  refine ⟨hacc.target, nofun, nofun, nofun, fun _ => ⟨hacc.queue, hacc.wire, ?_⟩⟩
  intro tag' reply' hcurrent
  obtain ⟨rfl, rfl⟩ := Prod.mk.inj (Option.some.inj (hacc.current.symm.trans hcurrent))
  refine ⟨hacc.taken, ?_, iff_of_true ⟨.unit, rfl⟩ hacc.status⟩
  show x.taken.getLast? = _
  rw [hacc.taken, Reply.responses, List.getLast?_concat]

/-- The end of a wait. -/
lemma inStep_take (hx : InStep x) (h : x.step .take = some x') : InStep x' := by
  obtain ⟨s, hs, rfl⟩ := Option.map_eq_some_iff.mp h
  obtain ⟨w, hw, ⟨hterm, -, -⟩ | ⟨r, rs, -, hqueue, rfl⟩⟩ := step_take_cases hs
  · rw [hx.state] at hterm
    exact absurd hterm (by decide)
  obtain ⟨c, tag, reply, hreply⟩ := hx.waiting w hw
  have htaken : x.system.session.responseQueue.take
      (x.system.session.responseQueue.length - rs.length) = [r] := by
    rw [hqueue, List.length_cons, Nat.add_sub_cancel_left]
    rfl
  simp only [htaken, hx.state]
  rcases hreply.take hqueue with ⟨hmore, hmem⟩ | ⟨rfl, hwire, huntagged, rfl⟩
  · have hloops : c.firstWait.Loops := by
      refine hreply.mailbox.loops.resolve_left ?_
      rintro ⟨set, rfl⟩
      rw [hreply.plain set rfl] at hmem
      cases hmem
    have hloop : w.Loops := by
      rw [hreply.wait]
      exact Wait.loops_foldl hloops
    rw [react_untagged hloop (hreply.answers.untagged r hmem)]
    refine ⟨rfl, fun w' hw' => ?_, nofun, nofun, fun hfree => hfree.elim⟩
    obtain rfl := Control.waiting.inj hw'
    refine ⟨c, tag, reply, hreply.current, hreply.mailbox, hreply.answers, hreply.plain,
      hreply.tagged, ?_, hmore, ?_⟩
    · rw [List.append_assoc, ← hreply.rest, hqueue]
      rfl
    · rw [List.foldl_append, ← hreply.wait]
      rfl
  · have hall : x.taken ++ [.status reply.status tag reply.text] = reply.responses tag := by
      rw [huntagged]
      rfl
    have hwait := hreply.wait
    rw [huntagged] at hwait
    have hlast : ∀ control : Control, ((∃ v, control = .returned v) ↔ reply.status = .ok) →
        (⟨⟨⟨.selected, x.system.session.tag, x.system.session.currentMailbox, []⟩, control⟩,
          x.wire, x.current, x.taken ++ [.status reply.status tag reply.text]⟩ :
            Conversation).Settled := by
      intro control hiff
      refine ⟨rfl, hwire, fun tag' reply' hcurrent => ?_⟩
      obtain ⟨rfl, rfl⟩ :=
        Prod.mk.inj (Option.some.inj (hreply.current.symm.trans hcurrent))
      exact ⟨hall, List.getLast?_concat, hiff⟩
    rcases react_status hreply.mailbox hreply.answers hreply.plain hreply.tagged hwait with
      ⟨hok, ⟨v, hv⟩ | ⟨hmoves, hv⟩⟩ | ⟨hnot, ex, hex⟩
    · rw [hv]
      exact ⟨rfl, nofun, nofun, nofun, fun _ => hlast _ (iff_of_true ⟨v, rfl⟩ hok)⟩
    · rw [hv]
      refine ⟨rfl, nofun, fun w' target hmoving => ?_, nofun, fun hfree => hfree.elim⟩
      obtain ⟨rfl, rfl⟩ := Control.moving.inj hmoving
      exact ⟨tag, reply, hreply.current, rfl, hwire, hall, hok, hmoves, rfl⟩
    · rw [hex]
      exact ⟨rfl, nofun, nofun, nofun, fun _ => hlast _ (iff_of_false nofun hnot)⟩

/-- A notification. -/
lemma inStep_deliver (hx : InStep x) (h : x.step .deliver = some x') : InStep x' := by
  rw [Conversation.step] at h
  split at h
  · cases h
  · next r rs hwire =>
    rw [← Option.some.inj h]
    have hwaits : ∃ w, x.system.control = .waiting w := by
      cases hcontrol : x.system.control with
      | waiting w => exact ⟨w, rfl⟩
      | moving w target =>
        obtain ⟨tag, reply, hacc⟩ := hx.moving w target hcontrol
        cases hwire.symm.trans hacc.wire
      | undefined => exact absurd hcontrol hx.defined
      | _ => cases hwire.symm.trans (hx.settled (by rw [hcontrol]; trivial)).wire
    obtain ⟨w, hw⟩ := hwaits
    obtain ⟨c, tag, reply, hreply⟩ := hx.waiting w hw
    have hmem : r ∈ reply.responses tag := by
      rw [← hreply.rest, hwire]
      simp
    have hpush := incoming_push (σ := x.system.session) (r := r) fun hbye =>
      hreply.answers.ne_bye hmem hbye.1
    rw [hpush, hw]
    refine ⟨hx.state, fun w' hw' => ?_, nofun, nofun, fun hfree => hfree.elim⟩
    obtain rfl := Control.waiting.inj hw'
    refine ⟨c, tag, reply, hreply.current, hreply.mailbox, hreply.answers, hreply.plain,
      hreply.tagged, ?_, ?_, hreply.wait⟩
    · rw [← hreply.rest, hwire, List.append_assoc]
      rfl
    · simp

/-- Every step under the conditions keeps the invariant. -/
lemma inStep_step (x : Conversation) (e : ConversationEvent) (x' : Conversation) (hx : InStep x)
    (he : e.Conforming ∧ e.Orderly) (h : x.step e = some x') : InStep x' := by
  cases e with
  | call c reply =>
    refine inStep_call hx he.1 ?_ h
    rintro set rfl
    exact he.2
  | transition => exact inStep_transition hx h
  | take => exact inStep_take hx h
  | timeout => exact he.2.elim
  | deliver => exact inStep_deliver hx h

/-- **Commands and replies stay in step.** In every conversation of `select`, `search`, `fetch` and
`read` with a server that conforms, which begins in `SELECTED` with an empty queue, in which the
replies to `read` are a status only, and in which no wait times out, every call that has returned or
thrown has consumed exactly its own reply, and has returned if and only if the status of this reply
is OK.

**Proof sketch.** While a call waits, what it has taken, the queue, and what is not yet notified
make up its reply, and the call has not taken the status. An untagged response keeps a loop waiting,
the status ends it, and the first response is the status for `read`. -/
theorem replies_settled (σ : Session) (es : List ConversationEvent) (x : Conversation)
    (hstate : σ.state = .selected) (hqueue : σ.responseQueue = [])
    (hserver : ∀ e ∈ es, e.Conforming) (horderly : ∀ e ∈ es, e.Orderly)
    (hrun : run Conversation.step (.start σ) es = some x) :
    x.system.control ≠ .undefined ∧ (x.system.control.Free → x.Settled) := by
  have hstart : InStep (.start σ) :=
    ⟨hstate, nofun, nofun, nofun, fun _ => ⟨hqueue, rfl, nofun⟩⟩
  have hmeets : Meets Conversation.step (fun _ e => e.Conforming ∧ e.Orderly) (.start σ) es := by
    intro es₁ e es₂ x₁ hes _
    have hmem : e ∈ es := by
      rw [hes]
      simp
    exact ⟨hserver e hmem, horderly e hmem⟩
  have hx : InStep x := invariant inStep_step hstart hmeets hrun
  exact ⟨hx.defined, hx.settled⟩

/-- A search and a read, each followed by its reply. -/
theorem replies_settled_search :
    (⟨⟨⟨.selected, 3, [], []⟩, .returned .unit⟩, [],
        some (ascii "2", ⟨[], .ok, ascii "done"⟩), [.status .ok (ascii "2") (ascii "done")]⟩ :
      Conversation).Settled := by
  refine (replies_settled ⟨.selected, 1, [], []⟩
    [.call (.search true) ⟨[.flags, .search [3]], .ok, ascii "done"⟩, .deliver, .take, .deliver,
      .deliver, .take, .take, .call (.read [3]) ⟨[], .ok, ascii "done"⟩, .deliver, .take,
      .transition] _ rfl rfl ?_ ?_ rfl).2 trivial
  · intro e he
    simp only [List.mem_cons, List.not_mem_nil, or_false] at he
    rcases he with rfl | rfl | rfl | rfl | rfl | rfl | rfl | rfl | rfl | rfl | rfl
    · exact ⟨by decide, Or.inl rfl, fun _ _ _ => ⟨[3], by simp⟩⟩
    all_goals first | exact trivial | exact ⟨nofun, Or.inl rfl, nofun⟩
  · intro e he
    simp only [List.mem_cons, List.not_mem_nil, or_false] at he
    rcases he with rfl | rfl | rfl | rfl | rfl | rfl | rfl | rfl | rfl | rfl | rfl <;>
      first | exact trivial | exact rfl

/-- The server reports a new message in its reply to a STORE, before the status: `read` takes the
EXISTS response for the reply, throws, and leaves the status in the queue. -/
theorem read_unsettled :
    ∃ es x, run Conversation.step (.start ⟨.selected, 1, [], []⟩) es = some x ∧
      (∀ e ∈ es, e.Conforming) ∧
      x.system.control = .threw (.logicError (ascii "get_text virtual method called!")) ∧
      x.system.session.responseQueue = [.status .ok (ascii "1") (ascii "done")] ∧
      ¬ x.Settled := by
  refine ⟨[.call (.read [3]) ⟨[.singleNumber .exists 4], .ok, ascii "done"⟩, .deliver,
    .deliver, .take], _, rfl, ?_, rfl, rfl, fun h => ?_⟩
  · intro e he
    simp only [List.mem_cons, List.not_mem_nil, or_false] at he
    rcases he with rfl | rfl | rfl | rfl
    · exact ⟨by decide, Or.inl rfl, nofun⟩
    all_goals exact trivial
  · cases h.queue

end Imapcl
