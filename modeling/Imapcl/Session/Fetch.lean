import Imapcl.Session.Download
import Imapcl.Session.Loop

set_option relaxedAutoImplicit false
set_option autoImplicit false

/-!
# Messages and flag updates

A FETCH response need not carry a body: a server may send one with the flags of a message only, at
any time. The parser reduces every FETCH response to the contents of its last body, or to the empty
string, and the loop of `fetch` keeps all of them.

## Main definitions

* `Imapcl.WireResponse.message` — the message in a response.
* `Imapcl.FetchSound` — the outcome of a fetch, for the responses that it takes.

## Main results

* `Imapcl.fetch_sound_iff` — a fetch is sound unless a FETCH response has no body or a BYE arrives.
-/

namespace Imapcl

open Machine

/-! ## Messages -/

namespace WireResponse

/-- The message in a response: the contents of the last body of a FETCH that carries one. -/
def message : WireResponse → Option Bytes
  | fetch _ first rest => ((first :: rest).filterMap Attribute.bodyContent).getLast?
  | _ => none

/-- If the response is a FETCH, it carries a body. -/
def HasBody : WireResponse → Prop
  | fetch _ first rest => (first :: rest).filterMap Attribute.bodyContent ≠ []
  | _ => True

instance : DecidablePred HasBody
  | fetch _ first rest =>
    inferInstanceAs (Decidable ((first :: rest).filterMap Attribute.bodyContent ≠ []))
  | tagged _ _ _ | untagged _ _ | bye _ | flags _ | «exists» _ | recent _ | search _ =>
    isTrue trivial

end WireResponse

/-- A fetch that takes the responses `us` and then a tagged OK, of which the parser hands over `rs`
after the call, returns the messages in `us` under every schedule, of which there is one. -/
def FetchSound (σ : Session) (sequenceSet : List UInt32) (onlyHeaders : Bool)
    (us rs : List WireResponse) : Prop :=
  (∃ es x, Schedule σ (.fetch sequenceSet onlyHeaders)
      ((rs.map WireResponse.value).map .incoming) es x) ∧
    ∀ es x, Schedule σ (.fetch sequenceSet onlyHeaders)
        ((rs.map WireResponse.value).map .incoming) es x →
      x.control = .returned (.messages (us.filterMap WireResponse.message))

variable {us : List WireResponse} {u : WireResponse}

/-- The last body of a FETCH, or the empty string, is what the parser stores. -/
lemma asFetch_fetch (n : Number) (first : Attribute) (rest : List Attribute) :
    asFetch (WireResponse.fetch n first rest).value =
      some ((WireResponse.fetch n first rest).message.getD []) := by
  rw [WireResponse.value, asFetch, messageContents, foldl_contents, WireResponse.message]

/-- What the parser stores of a response with a message is the message. -/
lemma asFetch_of_hasBody (h : u.HasBody) : asFetch u.value = u.message := by
  cases u with
  | fetch n first rest =>
    have hlast := List.getLast?_eq_some_getLast (show _ ≠ [] from h)
    rw [asFetch_fetch, WireResponse.message, hlast, Option.getD_some]
  | _ => rfl

/-- There are at most as many messages as FETCH responses. -/
lemma length_messages_le : (us.filterMap WireResponse.message).length ≤
    ((us.map WireResponse.value).filterMap asFetch).length := by
  induction us with
  | nil => exact Nat.le_refl 0
  | cons u us ih =>
    rw [List.map_cons, List.filterMap_cons, List.filterMap_cons]
    by_cases h : u.HasBody
    · rw [asFetch_of_hasBody h]
      cases u.message with
      | none => exact ih
      | some content => exact Nat.succ_le_succ ih
    · cases u with
      | fetch n first rest =>
        have hnil := not_not.mp h
        rw [asFetch_fetch, WireResponse.message, hnil]
        exact Nat.le_succ_of_le ih
      | _ => exact absurd trivial h

/-- The fetch keeps exactly the messages if and only if every FETCH response carries a body. -/
lemma messages_eq_iff : (us.map WireResponse.value).filterMap asFetch =
    us.filterMap WireResponse.message ↔ ∀ u ∈ us, u.HasBody := by
  induction us with
  | nil => exact iff_of_true rfl nofun
  | cons u us ih =>
    rw [List.forall_mem_cons, ← ih, List.map_cons, List.filterMap_cons, List.filterMap_cons]
    by_cases h : u.HasBody
    · rw [asFetch_of_hasBody h, and_iff_right h]
      cases u.message with
      | none => exact Iff.rfl
      | some content => exact ⟨fun heq => (List.cons.inj heq).2, congrArg (content :: ·)⟩
    · refine iff_of_false (fun heq => ?_) fun h' => h h'.1
      cases u with
      | fetch n first rest =>
        have hnil := not_not.mp h
        rw [asFetch_fetch, WireResponse.message, hnil] at heq
        have hlen := congrArg List.length heq
        have hle : (us.filterMap WireResponse.message).length ≤
            ((us.map WireResponse.value).filterMap asFetch).length := length_messages_le
        simp only [List.getLast?_nil, List.length_cons] at hlen
        omega
      | _ => exact absurd trivial h

/-! ## Fetches -/

/-- What the parser stores of a response without a tag. -/
lemma WireResponse.tagless (h : u.value.getTag = []) : u.value.Tagless := by
  cases u with
  | tagged tag cond text => exact absurd h tag.nonempty
  | untagged cond text => exact ⟨rfl, by cases cond <;> decide⟩
  | bye text => exact ⟨rfl, by decide⟩
  | «exists» n => exact Or.inl rfl
  | recent n => exact Or.inr rfl
  | _ => exact trivial

section Fetch

variable {σ : Session} {sequenceSet : List UInt32} {onlyHeaders : Bool} {rs : List WireResponse}
  {es : List Event} {x : System} {tag : Tag} {text : StatusText}

/-- A fetch of some messages in `SELECTED` waits. -/
lemma begin_fetch_waiting (hstate : σ.state = .selected) (hset : sequenceSet ≠ []) :
    (begin σ (.fetch sequenceSet onlyHeaders)).control = .waiting (.fetch []) :=
  (System.mk.inj (begin_fetch hstate hset)).2.symm

/-- The responses without a tag leave the data of the FETCH responses, and the tagged OK ends the
fetch with them. -/
lemma feed_fetch : feed σ.state ((us.map WireResponse.value).foldl Wait.after (.fetch []))
      [.status .ok tag.bytes text.bytes] =
    .returned (.messages ((us.map WireResponse.value).filterMap asFetch)) := by
  have hreact : react σ.state (.status .ok tag.bytes text.bytes)
      (.fetch (((us.map WireResponse.value).filterMap asFetch).map some)) =
      .returned (.messages ((us.map WireResponse.value).filterMap asFetch)) :=
    react_fetch_ok tag.nonempty
  rw [foldl_after_fetch, List.nil_append, feed_cons_of_ne, hreact]
  rw [hreact]
  exact nofun

/-- What the parser stores of responses without a tag. -/
lemma tagless_values (hus : ∀ u ∈ us, u.value.getTag = []) :
    ∀ r ∈ us.map WireResponse.value, r.Tagless := by
  intro r hr
  obtain ⟨u, hu, rfl⟩ := List.mem_map.mp hr
  exact WireResponse.tagless (hus u hu)

/-- Where a fetch ends. -/
lemma Schedule.fetch (hstate : σ.state = .selected) (hset : sequenceSet ≠ [])
    (hus : ∀ u ∈ us, u.value.getTag = [])
    (hqueue : σ.responseQueue ++ rs.map WireResponse.value =
      us.map WireResponse.value ++ [.status .ok tag.bytes text.bytes])
    (h : Schedule σ (.fetch sequenceSet onlyHeaders)
      ((rs.map WireResponse.value).map .incoming) es x) :
    ((∃ r ∈ rs.map WireResponse.value, r.getType = .bye) ∧ ∃ ex, x.control = .threw ex) ∨
      ((∀ r ∈ rs.map WireResponse.value, r.getType ≠ .bye) ∧ x.control =
        .returned (.messages ((us.map WireResponse.value).filterMap asFetch))) := by
  have hloops : (Wait.fetch []).Loops := trivial
  refine (h.loop (begin_fetch_waiting hstate hset) hloops (by rw [hstate]; decide)
    (by rw [hstate]; decide) (tagless_values hus) hqueue).imp_right
    fun ⟨hbye, hon⟩ => ⟨hbye, ?_⟩
  rw [feed_fetch] at hon
  rcases hon.ends h.done with ⟨hcontrol, -⟩ | ⟨w', target, hmoving, -⟩
  · exact hcontrol
  · cases hmoving

/-- There is a schedule. -/
lemma exists_schedule_fetch (hstate : σ.state = .selected) (hset : sequenceSet ≠ [])
    (hus : ∀ u ∈ us, u.value.getTag = [])
    (hqueue : σ.responseQueue ++ rs.map WireResponse.value =
      us.map WireResponse.value ++ [.status .ok tag.bytes text.bytes]) :
    ∃ es x, Schedule σ (.fetch sequenceSet onlyHeaders)
      ((rs.map WireResponse.value).map .incoming) es x := by
  have hloops : (Wait.fetch []).Loops := trivial
  refine exists_schedule_loop (begin_fetch_waiting hstate hset) hloops (by rw [hstate]; decide)
    (by rw [hstate]; decide) (tagless_values hus) hqueue fun w' h => ?_
  rw [feed_fetch] at h
  cases h

end Fetch

/-- **Fetches and flag updates.** On a session in `SELECTED`, for any responses without a tag and
then a tagged OK, of which the first ones may be in the queue already: a fetch is sound if and only
if every FETCH response among them carries a body and no BYE arrives. A fetch returns a message
without any data for each FETCH response that carries no body, and throws after a BYE.

**Proof sketch.** The loop keeps what the parser has stored of every FETCH response, under every
schedule, unless a BYE ends the connection. These are the messages if every response carries one,
and are more otherwise. -/
theorem fetch_sound_iff (σ : Session) (sequenceSet : List UInt32) (onlyHeaders : Bool)
    (us rs : List WireResponse) (tag : Tag) (text : StatusText) (hstate : σ.state = .selected)
    (hset : sequenceSet ≠ []) (hus : ∀ u ∈ us, u.value.getTag = [])
    (hqueue : σ.responseQueue ++ rs.map WireResponse.value =
      us.map WireResponse.value ++ [.status .ok tag.bytes text.bytes]) :
    FetchSound σ sequenceSet onlyHeaders us rs ↔
      (∀ u ∈ us, u.HasBody) ∧ ∀ r ∈ rs, r.value.getType ≠ .bye := by
  constructor
  · rintro ⟨⟨es, x, hx⟩, hall⟩
    have hreturned := hall es x hx
    rcases hx.fetch hstate hset hus hqueue with ⟨-, ex, hthrew⟩ | ⟨hbye, hcontrol⟩
    · cases hthrew.symm.trans hreturned
    · rw [hcontrol] at hreturned
      exact ⟨messages_eq_iff.mp (Value.messages.inj (Control.returned.inj hreturned)),
        fun r hr => hbye r.value (List.mem_map_of_mem hr)⟩
  · rintro ⟨hbodies, hbye⟩
    refine ⟨exists_schedule_fetch hstate hset hus hqueue, fun es x hx => ?_⟩
    rcases hx.fetch hstate hset hus hqueue with ⟨⟨r, hr, h⟩, -⟩ | ⟨-, hcontrol⟩
    · obtain ⟨u, hu, rfl⟩ := List.mem_map.mp hr
      exact absurd h (hbye u hu)
    · rw [hcontrol, messages_eq_iff.mpr hbodies]

/-- The responses `us`, and the OK of the first command of a session. -/
def granted (us : List WireResponse) : List WireResponse :=
  us ++ [.tagged (.number 1) .ok StatusText.done]

/-- A message with flags, after a response that says how many messages there are. -/
theorem fetch_sound_iff_flags : ∃ us : List WireResponse,
    Stream.wire us = ascii "* 2 EXISTS\r\n" ++
      ascii "* 2 FETCH (FLAGS (\\Seen) BODY[] \x7b2\x7d\r\nhi)\r\n" ∧
    FetchSound ⟨.selected, 1, [], []⟩ [2] false us (granted us) := by
  refine ⟨[.exists ⟨2, by decide⟩, .fetch ⟨2, by decide⟩
    (.flags ⟨ascii "\\Seen", by decide⟩) [.body ⟨[], by decide⟩ (ascii "hi") (by decide)]],
    by decide +kernel, ?_⟩
  exact (fetch_sound_iff ⟨.selected, 1, [], []⟩ [2] false _ _ (.number 1) StatusText.done rfl
    (by decide) (by decide) rfl).mpr ⟨by decide, by decide⟩

/-- The flags of another message before the message that is asked for: the fetch returns an empty
message besides the message itself. -/
theorem fetch_flag_update : ∃ us : List WireResponse,
    Stream.wire (granted us) =
      ascii "* 1 FETCH (FLAGS (\\Seen))\r\n" ++
        ascii "* 2 FETCH (FLAGS (\\Seen) BODY[] \x7b2\x7d\r\nhi)\r\n" ++
        ascii "1 OK done\r\n" ∧
    bufferEvents (Stream.wire (granted us)) = ((granted us).map WireResponse.value).map .incoming ∧
    us.filterMap WireResponse.message = [ascii "hi"] ∧
    (∃ es x, Schedule ⟨.selected, 1, [], []⟩ (.fetch [2] false)
        (((granted us).map WireResponse.value).map .incoming) es x ∧
      x.control = .returned (.messages [[], ascii "hi"])) ∧
    ¬ FetchSound ⟨.selected, 1, [], []⟩ [2] false us (granted us) := by
  obtain ⟨us, hus⟩ : ∃ us : List WireResponse, us =
      [.fetch ⟨1, by decide⟩ (.flags ⟨ascii "\\Seen", by decide⟩) [],
        .fetch ⟨2, by decide⟩ (.flags ⟨ascii "\\Seen", by decide⟩)
          [.body ⟨[], by decide⟩ (ascii "hi") (by decide)]] := ⟨_, rfl⟩
  have hschedule : Schedule ⟨.selected, 1, [], []⟩ (.fetch [2] false)
      (((granted us).map WireResponse.value).map .incoming)
      (((granted us).map WireResponse.value).map .incoming ++ [.take, .take, .take])
      ⟨⟨.selected, 2, [], []⟩, .returned (.messages [[], ascii "hi"])⟩ := by
    subst hus
    exact ⟨rfl, rfl, by simp [granted, Event.Quiet], Or.inl trivial⟩
  have hmessages : us.filterMap WireResponse.message = [ascii "hi"] := by
    rw [hus]
    rfl
  refine ⟨us, by rw [hus]; decide +kernel,
    bufferEvents_wire (by simp [granted]) (by rw [hus]; decide +kernel), hmessages,
    ⟨_, _, hschedule, rfl⟩, fun h => ?_⟩
  have hreturned := h.2 _ _ hschedule
  rw [hmessages] at hreturned
  exact absurd hreturned (by decide)

end Imapcl
