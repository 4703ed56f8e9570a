import Imapcl.Parser.Inversion

set_option relaxedAutoImplicit false
set_option autoImplicit false

/-!
# Successes and responses

The caller of `parse_next` takes the response out of `parsed_response` and hands it on without
looking whether there is one. This file determines when a success has stored a response. The only
alternative that stores none is the continuation request.

## Main definitions

* `Imapcl.SuccessStores` — a success from this state has stored a response.

## Main results

* `Imapcl.continues_iff` — where a continuation request is read.
* `Imapcl.success_stores_iff` — a success stores a response except after a continuation request.
-/

namespace Imapcl

open StateExcept Cursor

variable {d v w : Bytes} {p : ℕ} {κ : List ℤ} {r : Option Response} {m : Bytes}

/-- If `parse_next` answers `true`, it has stored a response. -/
def SuccessStores (s : ResponseParser) : Prop :=
  ∀ s', parseNext.run s = .ok (true, s') → s'.parsedResponse ≠ none

/-! ## Successes -/

/-- A success of `parse_next` comes from a continuation request or has stored a response. -/
lemma stored_or_continues {s s' : ResponseParser} (h : parseNext.run s = .ok (true, s')) :
    Stored s' ∨ Continues s :=
  (parseNext_success (fun _ _ hs => hs) (succeeds_parseResponseTagged.mono fun _ hs => hs.1)
    (fun _ hs => hs.stored) h).imp_right And.left

/-- A continuation request is a success that stores nothing. -/
lemma Continues.exists_run {s : ResponseParser} (h : Continues s) :
    ∃ s', parseNext.run s = .ok (true, s') ∧ s'.parsedResponse = s.parsedResponse := by
  obtain ⟨hp, s', hrun⟩ := h
  have hframe : Frames (savePos >>= fun _ => expect parseContinueReq parseSuccess) :=
    frames_savePos.bind fun _ =>
      frames_expect frames_parseContinueReq (frames_parseSuccessWith true)
  refine ⟨s', ?_, hframe s true s' hrun⟩
  obtain ⟨_, s₀, hsave, hrest⟩ := run_bind_eq_ok_iff.mp hrun
  have hresponse : parseResponse.run s = .ok (true, s') := by
    rcases ifM_run_eq_ok hrest with ⟨s₂, hcontinue, hrest⟩ | ⟨s₂, -, hrest⟩
    · rw [parseResponse, run_bind_of_ok hsave, ifM_run_true hcontinue]
      exact hrest
    · exact absurd hrest parseFail_ne_true
  rw [parseNext, run_bind_of_ok (StateT.run_get _), if_neg (Nat.not_le.mpr hp),
    ifM_run_true hresponse]
  rfl

/-! ## Continuation requests -/

/-- `parse_continue_req` on a continuation request. -/
lemma parseContinueReq_at (ht : RespText w) (h : At d p (ascii "+ " ++ w ++ crlf ++ v))
    (hp : p + (ascii "+ " ++ w).length < 2 ^ 31) :
    parseContinueReq.run ⟨d, p, κ, r, m⟩ =
      .ok (true, ⟨d, p + (ascii "+ " ++ w ++ crlf).length, κ, r, m⟩) := by
  have hat : At d p (ascii "+" ++ (ascii " " ++ (w ++ (crlf ++ v)))) := by
    simp only [List.append_assoc] at h
    exact h
  have htext := hat.skip.skip
  have hend := htext.skip.skip.unique h.skip
  rw [List.length_append, show (ascii "+ ").length = (ascii "+").length + (ascii " ").length
    from rfl, ← Nat.add_assoc, ← Nat.add_assoc] at hp
  rw [parseContinueReq, run_bind_of_ok savePos_run, expectMatch_at hat, expectMatch_at hat.skip,
    expect, ifM_run_true (parseRespText_at ht (lineEnd_crlf v) htext hp),
    expectCrlf_at htext.skip, ← hend]
  rfl

/-- On data shorter than `2 ^ 31`, a continuation request is read where one stands. -/
lemma continues_iff {s : ResponseParser} (hd : s.data.length < 2 ^ 31) :
    Continues s ↔ ∃ t v, RespText t ∧ s.data.drop s.currPos = ascii "+ " ++ t ++ crlf ++ v := by
  constructor
  · rintro ⟨hp, s', hrun⟩
    have hreads : Reads id (savePos >>= fun _ => expect parseContinueReq parseSuccess) _ :=
      ReadsUnless.saved (ReadsUnless.last reads_parseContinueReq)
    obtain ⟨w, v, hat, -, -, t, ht, rfl⟩ :=
      (hreads s ⟨Nat.le_of_lt hp, hd⟩ true s' hrun rfl).resolve_left id
    exact ⟨t, v, ht, hat.2⟩
  · rintro ⟨t, v, ht, hdrop⟩
    obtain ⟨d, p, κ, r, m⟩ := s
    simp only at hd hdrop
    have hlt : p < d.length := by
      by_contra hle
      rw [List.drop_eq_nil_of_le (Nat.not_lt.mp hle)] at hdrop
      cases hdrop
    have hat : At d p (ascii "+ " ++ t ++ crlf ++ v) := ⟨Nat.le_of_lt hlt, hdrop⟩
    have hlen := hat.length_eq
    rw [List.length_append, List.length_append] at hlen
    refine ⟨hlt, ⟨d, p + (ascii "+ " ++ t ++ crlf).length, κ, r, m⟩, ?_⟩
    rw [run_bind_of_ok savePos_run, expect, ifM_run_true (parseContinueReq_at ht hat (by omega))]
    rfl

/-! ## The main result -/

/-- A success stores a response except after a continuation request. -/
lemma successStores_iff {s : ResponseParser} (hnull : s.parsedResponse = none) :
    SuccessStores s ↔ ¬ Continues s := by
  constructor
  · intro h hcontinues
    obtain ⟨s', hrun, hr⟩ := hcontinues.exists_run
    exact h s' hrun (hr.trans hnull)
  · intro h s' hrun
    exact (stored_or_continues hrun).resolve_right h

/-- **Successes and responses.** Called with a null pointer, `parse_next` answers `true` only with a
response if and only if its first alternative, the continuation request, does not succeed; on data
shorter than `2 ^ 31` this means that no continuation request stands at the position.

**Proof sketch.** Every other alternative ends in a success exit right behind an assignment to
`parsed_response`; the continuation request leaves the pointer alone. -/
theorem success_stores_iff (s : ResponseParser) (hnull : s.parsedResponse = none) :
    (SuccessStores s ↔ ¬ Continues s) ∧
      (s.data.length < 2 ^ 31 → (SuccessStores s ↔
        ¬ ∃ t v, RespText t ∧ s.data.drop s.currPos = ascii "+ " ++ t ++ crlf ++ v)) := by
  refine ⟨successStores_iff hnull, fun hd => ?_⟩
  rw [successStores_iff hnull, continues_iff hd]

/-- The line `* 1 EXISTS` is no continuation request. -/
theorem success_stores_iff_exists :
    (ResponseParser.ofData (ascii "* 1 EXISTS\r\n")).parsedResponse = none ∧
      SuccessStores (.ofData (ascii "* 1 EXISTS\r\n")) := by
  refine ⟨rfl, ((success_stores_iff (.ofData (ascii "* 1 EXISTS\r\n")) rfl).2 (by decide)).mpr ?_⟩
  rintro ⟨t, v, -, h⟩
  cases h

/-- A continuation request is a success without a response. -/
theorem success_without_response :
    ¬ SuccessStores (.ofData (ascii "+ idling\r\n")) := by
  intro h
  refine h ⟨ascii "+ idling\r\n", 10, [], none, []⟩ ?_ rfl
  decide +kernel

end Imapcl
