import Imapcl.Session.Outcome
import Imapcl.Parser.WireForm

set_option relaxedAutoImplicit false
set_option autoImplicit false

/-!
# Loops over a reply

`select`, `search` and `fetch` take responses up to the first one with a tag. Here the responses
without a tag are any that the parser stores, and what is left in the queue by an earlier operation
may be among them. A BYE is not queued: it ends the connection.

## Main definitions

* `Imapcl.SearchSound` — the outcome of a search, for the responses that it takes.

## Main results

* `Imapcl.Schedule.loop` — every schedule ends with the reaction to the response with the tag.
* `Imapcl.search_sound_iff` — a search is sound unless its result is missing or a BYE arrives.
-/

namespace Imapcl

open Machine

variable {σ : Session} {c : Call} {w : Wait} {us rs : List Response} {r : Response}
  {es : List Event} {x : System}

/-! ## Arrivals and BYEs -/

/-- Outside of `LOGOUT` the connection is lost exactly if a BYE arrives. -/
lemma arrivals_terminal_iff (hlive : ¬ σ.state.Terminal) (hlogout : σ.state ≠ .logout) :
    (σ.arrivals (rs.map .incoming)).state.Terminal ↔ ∃ r ∈ rs, r.getType = .bye := by
  constructor
  · intro hterm
    by_contra hbye
    push Not at hbye
    rw [arrivals_incoming hbye] at hterm
    exact hlive hterm
  · rintro ⟨r, hr, hbye⟩
    obtain ⟨rs₁, rs₂, rfl⟩ := List.append_of_mem hr
    rw [List.map_append, List.map_cons, arrivals_append]
    refine arrivals_terminal (σ := (σ.arrivals _).incoming r) ?_
    rcases arrivals_state σ (rs₁.map .incoming) with hterm | hsame
    · exact arrive_terminal (e := .incoming r) hterm
    · exact incoming_terminal ⟨hbye, hsame ▸ hlogout⟩

/-- No BYE comes after the response that ends a loop, if this is the last response. -/
lemma not_lateEnd_loop (hloops : w.Loops) (hlogout : σ.state ≠ .logout)
    (hus : ∀ r ∈ us, r.Tagless) (hqueue : σ.responseQueue ++ rs = us ++ [r]) :
    ¬ LateEnd σ.state w σ (rs.map .incoming) := by
  rintro ⟨ev₁, e, ev₂, hev, -, hlive, hcompleted⟩
  obtain ⟨rs₁, rs', rfl, rfl, hrs'⟩ := List.map_eq_append_iff.mp hev
  obtain ⟨q, rs₂, rfl, -, -⟩ := List.map_eq_cons_iff.mp hrs'
  have halive : ¬ σ.state.Terminal := fun h => hlive (arrivals_terminal h)
  have hbye : ∀ r ∈ rs₁, r.getType ≠ .bye := by
    intro r hr hbye
    exact hlive ((arrivals_terminal_iff halive hlogout).mpr ⟨r, hr, hbye⟩)
  have htaken : σ.responseQueue ++ rs₁ <+: us := by
    rcases List.eq_nil_or_concat rs₂ with rfl | ⟨rs₃, q', rfl⟩
    · rw [← List.append_assoc] at hqueue
      exact (List.append_inj' hqueue rfl).1 ▸ List.prefix_rfl
    · rw [List.concat_eq_append, ← List.cons_append, ← List.append_assoc, ← List.append_assoc]
        at hqueue
      rw [← (List.append_inj' hqueue rfl).1]
      exact List.prefix_append _ _
  rw [arrivals_incoming hbye, feed_tagless hloops fun r hr => hus r (htaken.subset hr)]
    at hcompleted
  exact hcompleted

/-! ## The loop -/

/-- **Loops.** Let the queue and the responses that arrive make up responses without a tag and then
the response `r`. In every schedule outside of `LOGOUT`, a loop throws if a BYE is among those that
arrive, and otherwise it comes to its reaction to `r`, with what it has kept of the others. -/
theorem Schedule.loop (h : Schedule σ c (rs.map .incoming) es x)
    (hw : (begin σ c).control = .waiting w) (hloops : w.Loops) (hlive : ¬ σ.state.Terminal)
    (hlogout : σ.state ≠ .logout) (hus : ∀ r ∈ us, r.Tagless)
    (hqueue : σ.responseQueue ++ rs = us ++ [r]) :
    ((∃ r ∈ rs, r.getType = .bye) ∧ ∃ ex, x.control = .threw ex) ∨
      ((∀ r ∈ rs, r.getType ≠ .bye) ∧
        OnCourse σ.state (feed σ.state (us.foldl Wait.after w) [r]) x) := by
  obtain ⟨hstate, hsame⟩ := begin_frame σ c
  rw [← hsame] at hqueue
  have hlate := not_lateEnd_loop hloops (hstate ▸ hlogout) hus hqueue
  rw [hstate] at hlate
  rcases h.tracks hw hlate with ⟨halive, -, hon⟩ | ⟨hterm, hoff⟩
  · have hbye : ∀ r ∈ rs, r.getType ≠ .bye := by
      intro r hr hbye
      exact halive ((arrivals_terminal_iff (hstate ▸ hlive) (hstate ▸ hlogout)).mpr
        ⟨r, hr, hbye⟩)
    refine Or.inr ⟨hbye, ?_⟩
    rwa [arrivals_incoming hbye, hqueue, feed_append (feed_tagless hloops hus)] at hon
  · exact Or.inl ⟨(arrivals_terminal_iff (hstate ▸ hlive) (hstate ▸ hlogout)).mp hterm,
      hoff.ends h.done⟩

/-- There is a schedule, if `r` ends the loop. -/
lemma exists_schedule_loop (hw : (begin σ c).control = .waiting w) (hloops : w.Loops)
    (hlive : ¬ σ.state.Terminal) (hlogout : σ.state ≠ .logout) (hus : ∀ r ∈ us, r.Tagless)
    (hqueue : σ.responseQueue ++ rs = us ++ [r])
    (hend : ∀ w', feed σ.state (us.foldl Wait.after w) [r] ≠ .waiting w') :
    ∃ es x, Schedule σ c (rs.map .incoming) es x := by
  obtain ⟨hstate, hsame⟩ := begin_frame σ c
  by_cases hterm : ((begin σ c).session.arrivals (rs.map .incoming)).state.Terminal
  · obtain ⟨es, x, ex, h, -⟩ := exists_lazy not_ofUser_incoming hw hterm
    exact ⟨es, x, h⟩
  · refine exists_schedule not_ofUser_incoming hw hterm ?_
    rw [arrivals_terminal_iff (hstate ▸ hlive) (hstate ▸ hlogout)] at hterm
    push Not at hterm
    rwa [arrivals_incoming hterm, hsame, hqueue, feed_append (feed_tagless hloops hus)]

/-- A status with a tag ends every operation. -/
lemma react_status_ends {state : ImapState} {cond : Cond} {tag text : Bytes} (htag : tag ≠ [])
    (w' : Wait) : react state (.status cond.type tag text) w ≠ .waiting w' := by
  intro h
  have htag' : (Response.status cond.type tag text).getTag ≠ [] := htag
  have hsearch : (Response.status cond.type tag text).getType ≠ .search := by
    cases cond <;> exact nofun
  have hfetch : (Response.status cond.type tag text).getType ≠ .fetch := by
    cases cond <;> exact nofun
  have hfail : ∀ what, failWith what (.status cond.type tag text) ≠ .waiting w' := by
    intro what hw'
    obtain ⟨ex, hex⟩ := failWith_threw what (.status cond.type tag text)
    cases hex.symm.trans hw'
  have hdeliver : ∀ v, deliver v ≠ .waiting w' := by
    intro v hw'
    rcases deliver_cases v with ⟨v', hv'⟩ | hundefined
    · cases hv'.symm.trans hw'
    · cases hundefined.symm.trans hw'
  have hrepeats := react_waiting h
  cases w with
  | select mailbox =>
    rw [react, if_neg htag'] at h
    split at h
    · cases h
    · exact hfail _ h
  | search found =>
    rw [react, if_neg hsearch, if_neg htag'] at h
    split at h
    · exact hdeliver _ h
    · exact hfail _ h
  | fetch found =>
    rw [react, if_neg hfetch, if_neg htag'] at h
    split at h
    · exact hdeliver _ h
    · exact hfail _ h
  | _ => exact hrepeats

/-- A status other than OK is NO or BAD. -/
lemma Cond.type_of_ne_ok {c : Cond} (h : c ≠ .ok) : c.type = .no ∨ c.type = .bad := by
  cases c with
  | ok => exact absurd rfl h
  | no => exact Or.inl rfl
  | bad => exact Or.inr rfl

/-! ## Searches -/

/-- A search returns the numbers of the last SEARCH response, or none if there is no such response;
it throws if the status `c` is not OK. -/
def SearchOutcome (us : List Response) (c : Cond) (x : System) : Prop :=
  (c = .ok → x.control =
      .returned (.numbers ((us.filterMap asSearch).getLast?.getD []))) ∧
    (c ≠ .ok → ∃ ex, x.control = .threw ex)

/-- A search that takes the responses `us` and then a response with the status `c`, of which `rs`
arrive after its call, has its outcome under every schedule, of which there is one. -/
def SearchSound (σ : Session) (onlyUnseen : Bool) (us rs : List Response) (c : Cond) : Prop :=
  (∃ es x, Schedule σ (.search onlyUnseen) (rs.map .incoming) es x) ∧
    ∀ es x, Schedule σ (.search onlyUnseen) (rs.map .incoming) es x → SearchOutcome us c x

/-- A search in `SELECTED` waits. -/
lemma begin_search_waiting {onlyUnseen : Bool} (hstate : σ.state = .selected) :
    (begin σ (.search onlyUnseen)).control = .waiting (.search none) := by
  rw [begin, if_neg (not_not_intro hstate)]
  rfl

/-- The last result, if there is one. -/
lemma getLast?_asSearch (h : ∃ seqNumbers, Response.search seqNumbers ∈ us) :
    ∃ seqNumbers, (us.filterMap asSearch).getLast? = some seqNumbers := by
  obtain ⟨seqNumbers, hmem⟩ := h
  have hne : us.filterMap asSearch ≠ [] :=
    List.ne_nil_of_mem (List.mem_filterMap.mpr ⟨_, hmem, rfl⟩)
  exact ⟨_, List.getLast?_eq_some_getLast hne⟩

/-- Without a SEARCH response there is no result. -/
lemma filterMap_asSearch_eq_nil (h : ¬ ∃ seqNumbers, Response.search seqNumbers ∈ us) :
    us.filterMap asSearch = [] := by
  rw [List.filterMap_eq_nil_iff]
  intro r hr
  cases r with
  | search seqNumbers => exact absurd ⟨seqNumbers, hr⟩ h
  | _ => rfl

/-- The end of a search whose result is missing. -/
lemma react_search_missing {state : ImapState} {tag text : Bytes} (htag : tag ≠ []) :
    react state (.status .ok tag text) (.search none) = .undefined := by
  have htype : (Response.status .ok tag text).getType ≠ .search := by
    show ResponseType.ok ≠ .search
    decide
  have htag' : (Response.status .ok tag text).getTag ≠ [] := htag
  rw [react, if_neg htype, if_neg htag', if_pos (by rfl)]
  rfl

/-- A status other than OK makes a search throw. -/
lemma react_search_refused {state : ImapState} {found : Option (List UInt32)} {c : Cond}
    {tag text : Bytes} (htag : tag ≠ []) (hc : c ≠ .ok) :
    ∃ ex, react state (.status c.type tag text) (.search found) = .threw ex :=
  react_refused (Or.inl trivial) htag (Cond.type_of_ne_ok hc)

section Search

variable {onlyUnseen : Bool} {cond : Cond} {tag text : Bytes}

/-- The responses without a tag leave the last result. -/
lemma feed_search : feed σ.state (us.foldl Wait.after (.search none))
      [.status cond.type tag text] =
    feed σ.state (.search (us.filterMap asSearch).getLast?) [.status cond.type tag text] := by
  rw [foldl_after_search, Option.or_none]

/-- Where a search ends. -/
lemma Schedule.search (hstate : σ.state = .selected) (hus : ∀ r ∈ us, r.Tagless) (htag : tag ≠ [])
    (hqueue : σ.responseQueue ++ rs = us ++ [.status cond.type tag text])
    (h : Schedule σ (.search onlyUnseen) (rs.map .incoming) es x) :
    ((∃ r ∈ rs, r.getType = .bye) ∧ ∃ ex, x.control = .threw ex) ∨
      ((∀ r ∈ rs, r.getType ≠ .bye) ∧ x.control =
        react σ.state (.status cond.type tag text) (.search (us.filterMap asSearch).getLast?)) := by
  have hloops : (Wait.search none).Loops := trivial
  refine (h.loop (begin_search_waiting hstate) hloops (by rw [hstate]; decide)
    (by rw [hstate]; decide) hus hqueue).imp_right fun ⟨hbye, hon⟩ => ⟨hbye, ?_⟩
  rw [feed_search, feed_cons_of_ne (react_status_ends htag)] at hon
  rcases hon.ends h.done with ⟨hcontrol, -⟩ | ⟨w', target, hmoving, -⟩
  · exact hcontrol
  · exact (react_moving hmoving).2.1.elim

/-- There is a schedule. -/
lemma exists_schedule_search (hstate : σ.state = .selected) (hus : ∀ r ∈ us, r.Tagless)
    (htag : tag ≠ []) (hqueue : σ.responseQueue ++ rs = us ++ [.status cond.type tag text]) :
    ∃ es x, Schedule σ (.search onlyUnseen) (rs.map .incoming) es x := by
  have hloops : (Wait.search none).Loops := trivial
  refine exists_schedule_loop (begin_search_waiting hstate) hloops (by rw [hstate]; decide)
    (by rw [hstate]; decide) hus hqueue fun w' => ?_
  rw [feed_search, feed_cons_of_ne (react_status_ends htag)]
  exact react_status_ends htag w'

/-- **Searches and missing results.** On a session in `SELECTED`, for any responses without a tag
and then one with the status `c` and a tag, of which the first ones may be in the queue already: a
search is sound if and only if `c` is not OK, or a SEARCH response is among the others and no BYE
arrives. Without a SEARCH response a search that is answered OK dereferences a null pointer, and
after a BYE it throws.

**Proof sketch.** The loop keeps the last result and ends with the status, under every schedule,
unless a BYE ends the connection. -/
theorem search_sound_iff (σ : Session) (onlyUnseen : Bool) (us rs : List Response) (c : Cond)
    (tag text : Bytes) (hstate : σ.state = .selected) (hus : ∀ r ∈ us, r.Tagless)
    (htag : tag ≠ []) (hqueue : σ.responseQueue ++ rs = us ++ [.status c.type tag text]) :
    SearchSound σ onlyUnseen us rs c ↔
      (c = .ok → (∃ seqNumbers, .search seqNumbers ∈ us) ∧ ∀ r ∈ rs, r.getType ≠ .bye) := by
  constructor
  · rintro ⟨⟨es, x, hx⟩, hall⟩ rfl
    have hreturned := (hall es x hx).1 rfl
    rcases hx.search hstate hus htag hqueue with ⟨-, ex, hthrew⟩ | ⟨hbye, hcontrol⟩
    · cases hthrew.symm.trans hreturned
    · refine ⟨?_, hbye⟩
      by_contra hmissing
      rw [filterMap_asSearch_eq_nil hmissing, List.getLast?_nil, Cond.type,
        react_search_missing htag] at hcontrol
      cases hcontrol.symm.trans hreturned
  · intro hfound
    refine ⟨exists_schedule_search hstate hus htag hqueue, fun es x hx => ?_⟩
    rcases hx.search hstate hus htag hqueue with ⟨⟨r, hr, hbye⟩, hthrew⟩ | ⟨-, hcontrol⟩
    · exact ⟨fun hc => absurd hbye ((hfound hc).2 r hr), fun _ => hthrew⟩
    · refine ⟨?_, fun hc => ?_⟩
      · rintro rfl
        obtain ⟨seqNumbers, hlast⟩ := getLast?_asSearch (hfound rfl).1
        rw [hcontrol, hlast]
        exact react_search_ok htag
      · rw [hcontrol]
        exact react_search_refused htag hc

/-- A search without a result that the server refuses. -/
theorem search_sound_iff_refused :
    SearchSound ⟨.selected, 1, [], []⟩ true [.flags]
      [.flags, .status .no (ascii "1") (ascii "failed")] .no :=
  (search_sound_iff ⟨.selected, 1, [], []⟩ true [.flags] _ .no (ascii "1") (ascii "failed") rfl
    (by decide) (by decide) rfl).mpr nofun

/-- An OK without a SEARCH response, as the server may send it to a search that finds nothing. -/
theorem search_missing :
    (∃ x, Schedule ⟨.selected, 1, [], []⟩ (.search true)
        ([Response.status .ok (ascii "1") (ascii "done")].map .incoming)
        [.incoming (.status .ok (ascii "1") (ascii "done")), .take] x ∧
      x.control = .undefined) ∧
    ¬ SearchSound ⟨.selected, 1, [], []⟩ true []
      [.status .ok (ascii "1") (ascii "done")] .ok := by
  have hschedule : Schedule ⟨.selected, 1, [], []⟩ (.search true)
      ([Response.status .ok (ascii "1") (ascii "done")].map .incoming)
      [.incoming (.status .ok (ascii "1") (ascii "done")), .take]
      ⟨⟨.selected, 2, [], []⟩, .undefined⟩ :=
    ⟨rfl, rfl, by simp [Event.Quiet], Or.inr rfl⟩
  refine ⟨⟨_, hschedule, rfl⟩, fun h => ?_⟩
  cases (h.2 _ _ hschedule).1 rfl

end Search

end Imapcl
