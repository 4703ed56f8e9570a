import Imapcl.Parser.StatusLine
import Imapcl.Receiver.Chunks
import Imapcl.Session.Loop

set_option relaxedAutoImplicit false
set_option autoImplicit false

/-!
# Downloads

From the bytes of a reply to the result of the operation: the receiving thread parses the buffer and
notifies the session of each response, and the loop of the operation takes the responses from the
queue. The bodies of messages are arbitrary bytes.

## Main definitions

* `Imapcl.WireResponse.InDownload` — the untagged responses of such a reply.
* `Imapcl.WireResponse.bodies`, `Imapcl.WireResponse.found` — what the reply carries.
* `Imapcl.Downloads` — the reply is read to its end, and its result is returned.

## Main results

* `Imapcl.download` — `fetch` returns the bodies of all messages, `search` the last numbers.
* `Imapcl.download_iff` — the replies for which they do.
-/

namespace Imapcl

open Machine

/-! ## What a reply carries -/

/-- The body of an attribute. -/
def Attribute.bodyContent : Attribute → Option Bytes
  | .body _ content _ => some content
  | _ => none

namespace WireResponse

/-- The response is an untagged one of a download: a status OK, FLAGS, EXISTS, RECENT, SEARCH, or a
FETCH with exactly one body. -/
def InDownload : WireResponse → Prop
  | tagged _ _ _ => False
  | untagged cond _ => cond = .ok
  | bye _ => False
  | flags _ => True
  | «exists» _ => True
  | recent _ => True
  | search _ => True
  | fetch _ first rest => ((first :: rest).filterMap Attribute.bodyContent).length = 1

instance (x : WireResponse) : Decidable x.InDownload := by
  cases x <;> unfold InDownload <;> infer_instance

/-- The bodies in a response. -/
def bodies : WireResponse → List Bytes
  | fetch _ first rest => (first :: rest).filterMap Attribute.bodyContent
  | _ => []

/-- The result of a search in a response. -/
def found : WireResponse → Option (List UInt32)
  | search ns => some (ns.map fun n => UInt32.ofNat n.1)
  | _ => none

end WireResponse

/-- The responses of a reply: untagged ones, and an OK with the tag of the next command. -/
def downloadReply (σ : Session) (us : List WireResponse) (text : StatusText) : List WireResponse :=
  us ++ [.tagged (.number σ.tag.toNat) .ok text]

/-- What a notice does to the session. -/
def Notice.event : Notice → Event
  | .incoming response => .incoming response
  | .failed _ => .failed

/-- The steps of the receiving thread on a buffer that one call of `recv` has returned. -/
def bufferEvents (data : Bytes) : List Event := (receiveChunks [data]).1.map Notice.event

/-- The contents of a message are those of its last body. -/
lemma foldl_contents (as : List Attribute) (m : Bytes) :
    as.foldl Attribute.contents m =
      ((as.filterMap Attribute.bodyContent).getLast?).getD m := by
  induction as generalizing m with
  | nil => rfl
  | cons a as ih =>
    rw [List.foldl_cons, ih]
    cases a with
    | body sec content h =>
      have hfilter : (.body sec content h :: as).filterMap Attribute.bodyContent =
          content :: as.filterMap Attribute.bodyContent := rfl
      rw [hfilter, List.getLast?_cons]
      rfl
    | _ => rfl

/-- What an untagged response of a download stands for is untagged. -/
lemma WireResponse.InDownload.untagged {x : WireResponse} (h : x.InDownload) :
    x.value.Untagged := by
  cases x with
  | tagged tag cond text => exact h.elim
  | untagged cond text =>
    obtain rfl : cond = .ok := h
    exact ⟨rfl, rfl⟩
  | bye text => exact h.elim
  | flags s => exact trivial
  | «exists» n => exact Or.inl rfl
  | recent n => exact Or.inr rfl
  | search ns => exact trivial
  | fetch n first rest => exact trivial

/-- A FETCH with one body stands for this body. -/
lemma WireResponse.InDownload.asFetch {x : WireResponse} (h : x.InDownload) :
    (asFetch x.value).toList = x.bodies := by
  cases x with
  | fetch n first rest =>
    obtain ⟨content, hcontent⟩ := List.length_eq_one_iff.mp h
    have hmessage : messageContents (first :: rest) = content := by
      rw [messageContents, foldl_contents, hcontent]
      rfl
    rw [WireResponse.bodies, hcontent, WireResponse.value, hmessage]
    rfl
  | _ => rfl

variable {us : List WireResponse}

/-- The FETCH responses of a reply stand for its bodies. -/
lemma filterMap_asFetch (hus : ∀ u ∈ us, u.InDownload) :
    (us.map WireResponse.value).filterMap asFetch = us.flatMap WireResponse.bodies := by
  induction us with
  | nil => rfl
  | cons u us ih =>
    rw [List.flatMap_cons, ← ih fun u' hu' => hus u' (List.mem_cons_of_mem u hu'),
      ← (hus u List.mem_cons_self).asFetch, List.map_cons, List.filterMap_cons]
    cases asFetch u.value <;> rfl

/-- The SEARCH responses of a reply stand for its results. -/
lemma filterMap_asSearch :
    (us.map WireResponse.value).filterMap asSearch = us.filterMap WireResponse.found := by
  rw [List.filterMap_map]
  refine congrArg (fun f => us.filterMap f) (funext fun u => ?_)
  cases u <;> rfl

/-! ## Bytes to the queue -/

/-- The steps of the receiving thread on a buffer of well-formed responses. -/
lemma bufferEvents_wire {xs : List WireResponse} (hne : xs ≠ [])
    (hlen : (Stream.wire xs).length < 2 ^ 31 + 2) :
    bufferEvents (Stream.wire xs) = (xs.map WireResponse.value).map .incoming := by
  rw [bufferEvents, receiveChunks_singleton hne hlen, noticesOf, List.map_map, List.map_map]
  rfl

/-- A reply that is received while an operation waits is taken to its end. -/
lemma run_buffer {σ : Session} {w w' : Wait} {tag : Tag} {text : StatusText}
    (hstate : ¬ σ.state.Terminal) (hqueue : σ.responseQueue = [])
    (hus : ∀ u ∈ us, u.InDownload)
    (hlen : (Stream.wire (us ++ [.tagged tag .ok text])).length < 2 ^ 31 + 2)
    (hfeed : feed σ.state w (us.map WireResponse.value) = .waiting w') :
    run System.step ⟨σ, .waiting w⟩
        (bufferEvents (Stream.wire (us ++ [.tagged tag .ok text])) ++
          List.replicate (us.length + 1) .take) =
      some ⟨σ, react σ.state (.status .ok tag.bytes text.bytes) w'⟩ := by
  have hevents : bufferEvents (Stream.wire (us ++ [.tagged tag .ok text])) =
      (us.map WireResponse.value ++ [Response.status .ok tag.bytes text.bytes]).map .incoming := by
    rw [bufferEvents_wire (by simp) hlen, List.map_append]
    rfl
  have hbye : ∀ r ∈ us.map WireResponse.value ++ [Response.status .ok tag.bytes text.bytes],
      r.getType ≠ .bye := by
    intro r hr
    rcases List.mem_append.mp hr with hr | hr
    · obtain ⟨u, hu, rfl⟩ := List.mem_map.mp hr
      exact (hus u hu).untagged.ne_bye
    · rw [List.mem_singleton.mp hr]
      exact nofun
  have hreceived : run System.step ⟨σ, .waiting w⟩
      (bufferEvents (Stream.wire (us ++ [.tagged tag .ok text]))) =
        some ⟨{ σ with responseQueue := us.map WireResponse.value ++
          [.status .ok tag.bytes text.bytes] }, .waiting w⟩ := by
    rw [hevents, run_arrivals not_ofUser_incoming, arrivals_incoming hbye, hqueue,
      List.nil_append]
  have htaken := run_reply (σ := { σ with responseQueue := us.map WireResponse.value ++
    [.status .ok tag.bytes text.bytes] }) hstate rfl hfeed
  rw [List.length_map] at htaken
  rw [run_append_of hreceived htaken, ← hqueue]

/-- A fetch of some messages waits, after it has sent its command. -/
lemma begin_fetch {σ : Session} {sequenceSet : List UInt32} {onlyHeaders : Bool}
    (hstate : σ.state = .selected) (hset : sequenceSet ≠ []) :
    (⟨{ σ with tag := σ.tag + 1 }, .waiting (.fetch [])⟩ : System) =
      ⟨(begin σ (.fetch sequenceSet onlyHeaders)).session,
        (begin σ (.fetch sequenceSet onlyHeaders)).control⟩ := by
  rw [begin, if_neg (not_not_intro hstate)]
  cases sequenceSet with
  | nil => exact absurd rfl hset
  | cons n ns => rfl

/-- So does a search. -/
lemma begin_search {σ : Session} {onlyUnseen : Bool} (hstate : σ.state = .selected) :
    (⟨{ σ with tag := σ.tag + 1 }, .waiting (.search none)⟩ : System) =
      ⟨(begin σ (.search onlyUnseen)).session, (begin σ (.search onlyUnseen)).control⟩ := by
  rw [begin, if_neg (not_not_intro hstate)]
  rfl

/-! ## Downloads -/

/-- On a session in `SELECTED` with an empty queue, whose next command has the tag `t`, and for a
reply of untagged responses and an OK with the tag `t`, whose last line ends before `2 ^ 31`:
`fetch` returns the bodies of the messages in the order in which they arrive, and `search` returns
the numbers of the last SEARCH response, if there is one. Both leave the queue empty.

**Proof sketch.** The receiving thread queues the values of all responses, by the round trip. The
loop keeps the values that matter, and ends at the only tagged response; the bodies are arbitrary,
but they are inside of values. -/
theorem download (σ : Session) (us : List WireResponse) (text : StatusText)
    (hstate : σ.state = .selected) (hqueue : σ.responseQueue = [])
    (hus : ∀ u ∈ us, u.InDownload)
    (hlen : (Stream.wire (us ++ [.tagged (.number σ.tag.toNat) .ok text])).length < 2 ^ 31 + 2) :
    (∀ sequenceSet onlyHeaders, sequenceSet ≠ [] →
        run System.step ⟨σ, .idle⟩ (.call (.fetch sequenceSet onlyHeaders) ::
            (bufferEvents (Stream.wire (us ++ [.tagged (.number σ.tag.toNat) .ok text])) ++
              List.replicate (us.length + 1) .take)) =
          some ⟨{ σ with tag := σ.tag + 1 },
            .returned (.messages (us.flatMap WireResponse.bodies))⟩) ∧
      ∀ onlyUnseen seqNumbers, (us.filterMap WireResponse.found).getLast? = some seqNumbers →
        run System.step ⟨σ, .idle⟩ (.call (.search onlyUnseen) ::
            (bufferEvents (Stream.wire (us ++ [.tagged (.number σ.tag.toNat) .ok text])) ++
              List.replicate (us.length + 1) .take)) =
          some ⟨{ σ with tag := σ.tag + 1 }, .returned (.numbers seqNumbers)⟩ := by
  have hlive : ¬ σ.state.Terminal := by
    rw [hstate]
    decide
  have hvalues : ∀ r ∈ us.map WireResponse.value, r.Untagged := by
    intro r hr
    obtain ⟨u, hu, rfl⟩ := List.mem_map.mp hr
    exact (hus u hu).untagged
  have htag := (Tag.number σ.tag.toNat).nonempty
  constructor
  · intro sequenceSet onlyHeaders hset
    have hcall : System.step ⟨σ, .idle⟩ (.call (.fetch sequenceSet onlyHeaders)) =
        some ⟨{ σ with tag := σ.tag + 1 }, .waiting (.fetch [])⟩ :=
      step_call_iff.mpr ⟨trivial, begin_fetch hstate hset⟩
    have hloop : (Wait.fetch []).Loops := trivial
    have hfeed : feed σ.state (.fetch []) (us.map WireResponse.value) =
        .waiting (.fetch ((us.flatMap WireResponse.bodies).map some)) := by
      rw [feed_untagged hloop hvalues, foldl_after_fetch, filterMap_asFetch hus,
        List.nil_append]
    rw [run_cons hcall, run_buffer (σ := { σ with tag := σ.tag + 1 }) hlive hqueue hus hlen hfeed,
      react_fetch_ok htag]
  · intro onlyUnseen seqNumbers hfound
    have hcall : System.step ⟨σ, .idle⟩ (.call (.search onlyUnseen)) =
        some ⟨{ σ with tag := σ.tag + 1 }, .waiting (.search none)⟩ :=
      step_call_iff.mpr ⟨trivial, begin_search hstate⟩
    have hloop : (Wait.search none).Loops := trivial
    have hfeed : feed σ.state (.search none) (us.map WireResponse.value) =
        .waiting (.search (some seqNumbers)) := by
      rw [feed_untagged hloop hvalues, foldl_after_search, filterMap_asSearch, hfound]
      rfl
    rw [run_cons hcall, run_buffer (σ := { σ with tag := σ.tag + 1 }) hlive hqueue hus hlen hfeed,
      react_search_ok htag]

/-- An end-to-end download: the receiving thread reads the whole reply and goes on, `fetch` returns
the bodies of the messages in the order in which they arrive, and `search` returns the numbers of
the last SEARCH response, if there is one. Both leave the queue empty. -/
structure Downloads (σ : Session) (us : List WireResponse) (text : StatusText) : Prop where
  parsed : ∃ s, (parseBuffer (Stream.wire (downloadReply σ us text))).2 = .ok s ∧
    s.currPos = (Stream.wire (downloadReply σ us text)).length
  received : (receiveChunks [Stream.wire (downloadReply σ us text)]).2 = .running ⟨[], false⟩
  fetch : ∀ sequenceSet onlyHeaders, sequenceSet ≠ [] →
    run System.step ⟨σ, .idle⟩ (.call (.fetch sequenceSet onlyHeaders) ::
        (bufferEvents (Stream.wire (downloadReply σ us text)) ++
          List.replicate (us.length + 1) .take)) =
      some ⟨{ σ with tag := σ.tag + 1 },
        .returned (.messages (us.flatMap WireResponse.bodies))⟩
  search : ∀ onlyUnseen seqNumbers,
    (us.filterMap WireResponse.found).getLast? = some seqNumbers →
      run System.step ⟨σ, .idle⟩ (.call (.search onlyUnseen) ::
          (bufferEvents (Stream.wire (downloadReply σ us text)) ++
            List.replicate (us.length + 1) .take)) =
        some ⟨{ σ with tag := σ.tag + 1 }, .returned (.numbers seqNumbers)⟩

/-- The events of a buffer that the receiving thread has read to its end. -/
lemma bufferEvents_of_parsed {data : Bytes} {s : ResponseParser} (hcomplete : bufferComplete data)
    (hparse : (parseBuffer data).2 = .ok s)
    (hrunning : (receiveChunks [data]).2 = .running ⟨[], false⟩) :
    ∃ rs : List Response, parseBuffer data = (rs.map some, .ok s) ∧
      bufferEvents data = rs.map .incoming := by
  have happend : Receiver.append ⟨[], false⟩ data = notify false (.ok s) (parseBuffer data).1 := by
    rw [Receiver.append, List.nil_append, if_pos hcomplete, hparse]
  rw [receiveChunks_one, happend] at hrunning
  obtain ⟨rs, hrs⟩ := exists_of_notify_running false _ hrunning
  refine ⟨rs, Prod.ext hrs hparse, ?_⟩
  rw [hrs, notify_ok] at happend
  rw [bufferEvents, receiveChunks_one, happend, List.map_map]
  rfl

/-- Only a wait can take a response. -/
lemma run_takes_still {s s' : System} {n : ℕ} (hwait : ∀ w, s.control ≠ .waiting w)
    (h : run System.step s (List.replicate n .take) = some s') : s' = s := by
  cases n with
  | zero => exact (Option.some.inj h).symm
  | succ n =>
    obtain ⟨s₁, hstep, -⟩ := exists_of_run_cons h
    obtain ⟨w, hw, -⟩ := step_take_cases hstep
    exact absurd hw (hwait w)

/-- A fetch that returns and leaves the queue empty has taken a response with a tag last.

**Proof sketch.** Induction on the responses that are taken: one without a tag does not end the
loop. -/
lemma run_takes_fetch {σ : Session} {found : List (Option Bytes)} {x : System} {n : ℕ}
    {v : Value} (h : run System.step ⟨σ, .waiting (.fetch found)⟩ (List.replicate n .take) = some x)
    (hreturned : x.control = .returned v) (hqueue : x.session.responseQueue = []) :
    ¬ σ.state.Terminal ∧ ∃ rs r, σ.responseQueue = rs ++ [r] ∧ r.getTag ≠ [] := by
  induction n generalizing σ found with
  | zero =>
    obtain rfl := Option.some.inj h
    cases hreturned
  | succ n ih =>
    obtain ⟨x₁, hstep, hrest⟩ := exists_of_run_cons h
    obtain ⟨w, hw, hcases⟩ := step_take_cases hstep
    obtain rfl := Control.waiting.inj hw
    rcases hcases with ⟨-, -, ex, hex⟩ | ⟨r, rs, hlive, hq, rfl⟩
    · rw [run_takes_still (by rw [hex]; exact nofun) hrest, hex] at hreturned
      cases hreturned
    refine ⟨hlive, ?_⟩
    by_cases hends : r.getType ≠ .fetch ∧ r.getTag ≠ []
    · have hwait : ∀ w, react σ.state r (.fetch found) ≠ .waiting w := by
        intro w hw
        rw [react, if_neg hends.1, if_neg hends.2] at hw
        split at hw
        · cases hfound : (found.mapM id).map Value.messages <;> rw [hfound] at hw <;> cases hw
        · obtain ⟨ex, hex⟩ := failWith_threw "FETCH Failed -> [" r
          cases hex.symm.trans hw
      rw [run_takes_still hwait hrest] at hqueue
      obtain rfl : rs = [] := hqueue
      exact ⟨[], r, hq, hends.2⟩
    · have hloop : ∃ found', react σ.state r (.fetch found) = .waiting (.fetch found') := by
        rw [react]
        by_cases hfetch : r.getType = .fetch
        · exact ⟨_, if_pos hfetch⟩
        · rw [if_neg hfetch, if_pos (not_not.mp fun htag => hends ⟨hfetch, htag⟩)]
          exact ⟨found, rfl⟩
      obtain ⟨found', hfound⟩ := hloop
      rw [hfound] at hrest
      obtain ⟨-, rs', r', hq', htag⟩ := ih hrest
      exact ⟨r :: rs', r', hq.trans (congrArg (r :: ·) hq'), htag⟩

/-- **End-to-end downloads.** On a session in `SELECTED` with an empty queue, whose next command
has the tag `t`, the reply of untagged responses and an OK with the tag `t` is downloaded if and only
if its last line ends before `2 ^ 31`, without its CRLF.

**Proof sketch.** If the download succeeds, the last response that the parser has handed on has a
tag, so that the parser has read it behind the end of a text. This is a position that has been
restored from an `int`. -/
theorem download_iff (σ : Session) (us : List WireResponse) (text : StatusText)
    (hstate : σ.state = .selected) (hqueue : σ.responseQueue = [])
    (hus : ∀ u ∈ us, u.InDownload)
    (hsize : (Stream.wire (downloadReply σ us text)).length < 2 ^ 63) :
    Downloads σ us text ↔ (Stream.wire (downloadReply σ us text)).length < 2 ^ 31 + 2 := by
  have hne : downloadReply σ us text ≠ [] := by simp [downloadReply]
  constructor
  · intro h
    have hcrlf := crlf_suffix_wire hne
    have hcomplete := (bufferComplete_iff hcrlf.length_le).mpr hcrlf
    obtain ⟨s, hparse, hend⟩ := h.parsed
    obtain ⟨rs, hpointers, hevents⟩ := bufferEvents_of_parsed hcomplete hparse h.received
    obtain ⟨x₀, hcall, hrun⟩ := exists_of_run_cons (h.fetch [1] false (by decide))
    obtain ⟨-, rfl⟩ := step_call_iff.mp hcall
    rw [← begin_fetch hstate (by decide)] at hrun
    obtain ⟨x₁, harrived, htakes⟩ := exists_of_run_append hrun
    rw [hevents, run_arrivals not_ofUser_incoming] at harrived
    obtain rfl := Option.some.inj harrived
    obtain ⟨hlive, pre, r, hq, htag⟩ := run_takes_fetch htakes rfl hqueue
    have hbye : ∀ r ∈ rs, r.getType ≠ .bye := by
      intro r hr hbye
      refine hlive ((arrivals_terminal_iff ?_ ?_).mpr ⟨r, hr, hbye⟩)
      · rw [hstate]
        decide
      · rw [hstate]
        decide
    rw [arrivals_incoming hbye] at hq
    obtain rfl : rs = pre ++ [r] := by simpa [hqueue] using hq
    rw [List.map_append, List.map_singleton] at hpointers
    have hpos := parseAll_tagged hpointers htag
    omega
  · intro hlen
    obtain ⟨m, hparse⟩ := parseBuffer_end _ hlen
    obtain ⟨hfetch, hsearch⟩ := download σ us text hstate hqueue hus hlen
    exact ⟨⟨_, congrArg Prod.snd hparse, rfl⟩,
      congrArg Prod.snd (receiveChunks_singleton hne hlen), hfetch, hsearch⟩

/-- A body that contains what looks like the end of its response and a tagged OK. -/
theorem download_literal :
    run System.step ⟨⟨.selected, 7, [], []⟩, .idle⟩ (.call (.fetch [4] false) ::
        (bufferEvents (Stream.wire ([.exists ⟨4, by decide⟩, .fetch ⟨4, by decide⟩
            (.uid ⟨9, by decide⟩)
            [.body ⟨[], by decide⟩ (ascii ")\r\n7 OK done\r\n") (by decide)]] ++
          [.tagged (.number (7 : UInt32).toNat) .ok StatusText.done])) ++
            List.replicate 3 .take)) =
      some ⟨⟨.selected, 8, [], []⟩, .returned (.messages [ascii ")\r\n7 OK done\r\n"])⟩ :=
  ((download_iff ⟨.selected, 7, [], []⟩ [.exists ⟨4, by decide⟩, .fetch ⟨4, by decide⟩
      (.uid ⟨9, by decide⟩) [.body ⟨[], by decide⟩ (ascii ")\r\n7 OK done\r\n") (by decide)]]
    StatusText.done rfl rfl (by decide) (by decide +kernel)).mpr
    (by decide +kernel)).fetch [4] false (by decide)

/-! ## Buffers that are too long -/

/-- The responses of a reply that fills the buffer up to a position out of the range of a signed
integer are notified, and the status after them makes the parser throw. -/
lemma bufferEvents_beyond (hlen : (Stream.wire us).length = 2 ^ 31) :
    bufferEvents (Stream.wire (us ++ [.tagged (.number 1) .ok StatusText.done])) =
      (us.map WireResponse.value).map .incoming ++ [.failed] := by
  set v := Stream.wire [.tagged (.number 1) .ok StatusText.done] with hv
  have hvlen : v.length = 11 := by decide +kernel
  have hwire : Stream.wire (us ++ [.tagged (.number 1) .ok StatusText.done]) =
      Stream.wire us ++ v := wire_append
  obtain ⟨fuel, r, m, hfuel, hparse⟩ := parseBuffer_append us v (by omega)
  obtain ⟨k, rfl⟩ : ∃ k, fuel = k + 1 := ⟨fuel - 1, by omega⟩
  have hbeyond : ∀ s', parseNext.run ⟨Stream.wire us ++ v, (Stream.wire us).length, [], s', m⟩ =
      .error (.thrown .outOfRange) := by
    intro s'
    refine parseNext_beyond (Cursor.At.append_left _ _) (Nat.le_of_eq hlen.symm) ?_ ?_ ?_ ?_
    · rw [hlen]
      decide
    · rw [List.length_append, hlen, hvlen]
      decide
    · exact List.ne_nil_of_length_pos (by rw [hvlen]; decide)
    · decide +kernel
  rw [parseAll_error (hbeyond none), List.append_nil, ← hwire] at hparse
  have htwo : 2 ≤ (Stream.wire (us ++ [.tagged (.number 1) .ok StatusText.done])).length := by
    rw [hwire, List.length_append, hlen]
    omega
  have hcomplete : bufferComplete
      (Stream.wire (us ++ [.tagged (.number 1) .ok StatusText.done])) :=
    (bufferComplete_iff htwo).mpr (crlf_suffix_wire (by simp))
  have hnotify := notify_append false (.error (.thrown .outOfRange))
    (us.map WireResponse.value) []
  rw [List.append_nil, List.map_map] at hnotify
  have hstep : Receiver.append ⟨[], false⟩
      (Stream.wire (us ++ [.tagged (.number 1) .ok StatusText.done])) =
        ((us.map WireResponse.value).map .incoming ++ [.failed .outOfRange],
          .running ⟨[], false⟩) := by
    rw [Receiver.append, List.nil_append, if_pos hcomplete, hparse]
    exact hnotify
  rw [bufferEvents, receiveChunks_one, hstep, List.map_append, List.map_map]
  rfl

/-- Responses of any number, with a wire form of sixteen bytes each. -/
lemma exists_wire_length (n : ℕ) :
    ∃ us : List WireResponse, (∀ u ∈ us, u.InDownload) ∧ (Stream.wire us).length = n * 16 := by
  induction n with
  | zero => exact ⟨[], nofun, rfl⟩
  | succ n ih =>
    obtain ⟨us, hus, hlen⟩ := ih
    refine ⟨.exists ⟨10000, by decide⟩ :: us, ?_, ?_⟩
    · intro u hu
      rcases List.mem_cons.mp hu with rfl | hu
      · exact trivial
      · exact hus u hu
    · have hx : (WireResponse.exists ⟨10000, by decide⟩).wire.length = 16 := by decide +kernel
      rw [Stream.wire, List.flatMap_cons, List.length_append, hx, ← Stream.wire, hlen]
      omega

/-- A reply whose status stands at the position `2 ^ 31` makes the fetch throw. -/
theorem download_too_long :
    ∃ (us : List WireResponse) (x : System) (ex : StdException), (∀ u ∈ us, u.InDownload) ∧
      (Stream.wire us).length = 2 ^ 31 ∧
      run System.step ⟨⟨.selected, 1, [], []⟩, .idle⟩ (.call (.fetch [1] false) ::
        (bufferEvents (Stream.wire (us ++ [.tagged (.number 1) .ok StatusText.done])) ++
          [.take])) = some x ∧ x.control = .threw ex := by
  obtain ⟨us, hus, hlen⟩ := exists_wire_length (2 ^ 27)
  have hlen' : (Stream.wire us).length = 2 ^ 31 := by omega
  have hcall : System.step ⟨⟨.selected, 1, [], []⟩, .idle⟩ (.call (.fetch [1] false)) =
      some ⟨⟨.selected, 2, [], []⟩, .waiting (.fetch [])⟩ :=
    step_call_iff.mpr ⟨trivial, rfl⟩
  have hbye : ∀ r ∈ us.map WireResponse.value, r.getType ≠ .bye := by
    intro r hr
    obtain ⟨u, hu, rfl⟩ := List.mem_map.mp hr
    exact (hus u hu).untagged.ne_bye
  have hevents : run System.step ⟨⟨.selected, 2, [], []⟩, .waiting (.fetch [])⟩
      (bufferEvents (Stream.wire (us ++ [.tagged (.number 1) .ok StatusText.done]))) =
        some ⟨⟨.receiverError, 2, [], us.map WireResponse.value⟩, .waiting (.fetch [])⟩ := by
    rw [bufferEvents_beyond hlen', run_arrivals]
    · rw [arrivals_append, arrivals_incoming hbye]
      rfl
    · intro e he
      rcases List.mem_append.mp he with he | he
      · exact not_ofUser_incoming e he
      · rw [List.mem_singleton.mp he]
        exact id
  obtain ⟨ex, htake⟩ := step_take_terminal
    (s := ⟨⟨.receiverError, 2, [], us.map WireResponse.value⟩, .waiting (.fetch [])⟩) rfl
    (Or.inl rfl)
  have hlast : run System.step
      ⟨⟨.receiverError, 2, [], us.map WireResponse.value⟩, .waiting (.fetch [])⟩ [.take] =
        some ⟨⟨.receiverError, 2, [], us.map WireResponse.value⟩, .threw ex⟩ := by
    rw [run_cons htake]
    rfl
  exact ⟨us, _, ex, hus, hlen', (run_cons hcall).trans (run_append_of hevents hlast), rfl⟩

end Imapcl
