import Imapcl.World.Saved
import Imapcl.World.Sent

set_option relaxedAutoImplicit false
set_option autoImplicit false

/-!
# What is requested has been announced

The way back of the sequence numbers: a SEARCH response is read off the bytes, taken by `search`,
returned to the program, and handed over in a FETCH or a STORE.

## Main definitions

* `Imapcl.Control.Found` — where a `search` has its numbers from.

## Main results

* `Imapcl.requests_announced` — the numbers in a request come from the server.
-/

namespace Imapcl

open Machine

/-- The place of a `search` that has taken the responses: the numbers that it keeps or returns are
those of one of them. -/
def Control.Found (taken : List Response) : Control → Prop
  | .waiting (.search found) => ∀ numbers ∈ found, .search numbers ∈ taken
  | .returned (.numbers numbers) => .search numbers ∈ taken
  | .threw _ => True
  | .undefined => True
  | _ => False

section Search

variable {taken : List Response} {found : Option (List UInt32)} {numbers : List UInt32}
  {r : Response}

/-- The beginning of a search. -/
lemma found_begin (σ : Session) (onlyUnseen : Bool) :
    (begin σ (.search onlyUnseen)).control.Found [] := by
  rw [begin]
  split
  · trivial
  · unfold send
    split
    · simp [Control.Found]
    · trivial

/-- The numbers of a response. -/
lemma eq_search_of_asSearch (h : asSearch r = some numbers) : r = .search numbers := by
  cases r with
  | search ns => rw [Option.some.inj h]
  | _ => cases h

/-- A search with a response. -/
lemma found_react (state : ImapState) (h : ∀ numbers ∈ found, .search numbers ∈ taken) :
    (react state r (.search found)).Found (taken ++ [r]) := by
  have hbefore : ∀ numbers ∈ found, .search numbers ∈ taken ++ [r] :=
    fun numbers hmem => List.mem_append_left _ (h numbers hmem)
  rw [react]
  split
  · intro numbers hmem
    rw [eq_search_of_asSearch hmem]
    simp
  · split
    · exact hbefore
    · split
      · cases found with
        | none => trivial
        | some numbers => exact hbefore numbers rfl
      · obtain ⟨ex, hex⟩ := failWith_threw "SEARCH Failed -> [" r
        rw [hex]
        trivial

/-- A step in the session while a search is called. -/
lemma found_step {s s' : System} {e : Event} (h : s.step e = some s')
    (hcall : ∀ c, e ≠ .call c) (hs : s.control.Found taken) :
    s'.control.Found (taken ++ takenBy s e) := by
  rcases session_step_cases h hcall with ⟨w, target, -, hmoving, -⟩ |
    ⟨w, ex, -, -, -, rfl⟩ | ⟨w, r, rs, -, hw, -, -, htaken, rfl⟩ | ⟨r, rfl, rfl⟩ | ⟨rfl, rfl⟩
  · rw [hmoving] at hs
    exact hs.elim
  · trivial
  · rw [hw] at hs
    rw [htaken]
    cases w with
    | search found => exact found_react s.session.state hs
    | _ => exact hs.elim
  · rw [show takenBy s (.incoming r) = [] from rfl, List.append_nil]
    exact hs
  · rw [show takenBy s .failed = [] from rfl, List.append_nil]
    exact hs

variable {File α : Type} [DecidableEq File] {openFile : Bytes → Option File} {outputDir : Bytes}
  {x : Process File α} {es : List ProcessEvent} {p : Client α} {σ : Session}
  {files : File → Option Bytes}

/-- **Searches.** In every run a `search` that has returned has returned the numbers of a response
that it has taken. -/
theorem found_of_run (h : run (Process.step openFile outputDir) (.start σ files p) es = some x)
    {onlyUnseen : Bool} (hlog : ⟨⟨.call (.search onlyUnseen), .ok numbers⟩, taken⟩ ∈ x.log) :
    .search numbers ∈ taken := by
  have hall : Operations (fun c taken control => ∀ onlyUnseen, c = .search onlyUnseen →
      control.Found taken) x := by
    refine operations_of_run ?_ ?_ h
    · rintro σ c onlyUnseen rfl
      exact found_begin σ onlyUnseen
    · intro c taken s e s' hc hs hcall onlyUnseen heq
      exact found_step hs hcall (hc onlyUnseen heq)
  obtain ⟨control, hcontrol, hanswer⟩ := hall.logged _ _ _ hlog
  have hfound := hcontrol _ rfl
  cases control with
  | returned v =>
    cases v with
    | numbers ns =>
      cases hanswer
      exact hfound
    | _ => cases hanswer
  | _ => cases hanswer

end Search

/-- **Requests.** In every run of the program, in either mode, with any server and any interleaving:
the sequence set of every FETCH and STORE that is handed over is that of a SEARCH response whose
word stands in the bytes that have been received.

**Proof sketch.** The sequence set is what a `search` of this run has returned. This is that of a
response that the user's thread has taken, which comes from the queue and is read off the bytes. -/
theorem requests_announced {File : Type} [DecidableEq File] (openFile : Bytes → Option File)
    (outputDir : Bytes) (files : File → Option Bytes) (o : Options) (creds : Credentials)
    (inputs : List Bytes) (es : List WorldEvent) (x : World File ℕ)
    (h : run (World.step openFile outputDir)
      (.start .new files (main o (.ok creds) (.ok ()) inputs)) es = some x)
    (hfit : Receiver.Tests ⟨[], false⟩ (inputsRead es) fun d => d.length < 2 ^ 31) :
    ∀ command ∈ Process.commands openFile outputDir
        (.start .new files (main o (.ok creds) (.ok ()) inputs)) (processEvents es),
      ∀ numbers, command.numbers? = some numbers →
        ∃ w v, w <:+: receivedBytes (inputsRead es) ∧ Reading w v (some (.search numbers)) := by
  intro command hmem numbers hnumbers
  have hrun := process_of_run h
  obtain ⟨onlyUnseen, hlog⟩ := numbers_found openFile outputDir files o creds inputs _ _ hrun
    command hmem numbers hnumbers
  obtain ⟨⟨entry, taken⟩, hlogged, rfl⟩ := List.mem_map.mp hlog
  apply word_of_taken rfl h hfit
  apply List.mem_append_left
  exact List.mem_flatMap.mpr ⟨_, hlogged, found_of_run hrun hlogged⟩

/-- The FETCH for one message. -/
theorem requests_announced_one : ∃ x : World Bytes ℕ,
    run (World.step some (ascii "out")) (.start .new (fun _ => none)
        (main batchOptions (.ok ⟨ascii "user", ascii "word"⟩) (.ok ()) [])) batchSteps = some x ∧
      ∃ w v, w <:+: receivedBytes (inputsRead batchSteps) ∧ Reading w v (some (.search [1])) := by
  obtain ⟨x, hrun⟩ : ∃ x : World Bytes ℕ, run (World.step some (ascii "out"))
      (.start .new (fun _ => none)
        (main batchOptions (.ok ⟨ascii "user", ascii "word"⟩) (.ok ()) [])) batchSteps = some x :=
    Option.isSome_iff_exists.mp (by decide +kernel)
  refine ⟨x, hrun, requests_announced some (ascii "out") (fun _ => none) batchOptions _ []
    batchSteps x hrun (Receiver.tests_of_received _ _ (by decide +kernel))
    (.fetch (ascii "3") [1] (ascii "BODY[]")) ?_ [1] rfl⟩
  decide +kernel

end Imapcl
