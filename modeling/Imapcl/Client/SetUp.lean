import Imapcl.Client.Machine

set_option relaxedAutoImplicit false
set_option autoImplicit false

/-!
# Failures of the set-up

The greeting, the login and the select may throw: the server may refuse them or say BYE, the
receiver may fail, and a wait may time out. The non-interactive mode makes the three calls inside of
a `try`, the interactive mode before it.

## Main definitions

* `Imapcl.SetUpThrows` — the set-up has thrown an exception.
* `Imapcl.HandlesSetUp` — an exception of the set-up is reported, and `main` returns `1`.

## Main results

* `Imapcl.path_mainInteractive_raise_iff`, `Imapcl.not_path_mainBatch_raise` — the exceptions that
  escape in the two modes.
* `Imapcl.handles_set_up_iff` — the runs in which failures of the set-up are handled.
-/

namespace Imapcl

open Machine Program

/-! ## Exceptions -/

section Exceptions

variable {o : Options} {creds : Credentials} {inputs : List Bytes} {log : Log} {ex : StdException}

/-- Reporting an exception does not throw. -/
lemma not_path_fail_raise {ex' : StdException} : ¬ Path (fail ex) log (.raise ex') := by
  intro h
  rcases path_ask_iff.mp h with ⟨-, hraise⟩ | ⟨r, log', -, hdone⟩
  · cases hraise
  · cases (hdone.of_ended rfl).2

/-- The exceptions that escape in the interactive mode are those of the set-up. -/
theorem path_mainInteractive_raise_iff : Path (mainInteractive o creds inputs) log (.raise ex) ↔
    Path (setUp creds o.mailboxName) log (.raise ex) := by
  refine path_bind_raise_iff.trans (or_iff_left ?_)
  rintro ⟨-, log₁, log₂, -, -, hrepl⟩
  rcases path_bind_raise_iff.mp hrepl with hattempt | ⟨result, -, log₃, -, -, hlast⟩
  · exact not_path_attempt_raise hattempt
  · cases result with
    | error ex' => exact not_path_fail_raise hlast
    | ok _ => cases (hlast.of_ended rfl).2

/-- No exception escapes in the non-interactive mode. -/
theorem not_path_mainBatch_raise : ¬ Path (mainBatch o creds) log (.raise ex) := by
  intro h
  rcases path_bind_raise_iff.mp h with hattempt | ⟨result, -, log₁, -, -, hlast⟩
  · exact not_path_attempt_raise hattempt
  cases result with
  | error ex' => exact not_path_fail_raise hlast
  | ok messages =>
    change Path (if messages.length ≠ 0 then _ else _) log₁ _ at hlast
    split at hlast
    · rcases path_ask_iff.mp hlast with ⟨-, hraise⟩ | ⟨r, log₂, -, hsave⟩
      · cases hraise
      · change Path (attempt (save messages) >>= _) log₂ _ at hsave
        rcases path_bind_raise_iff.mp hsave with hattempt | ⟨result, -, log₃, -, -, hlast⟩
        · exact not_path_attempt_raise hattempt
        · cases result with
          | error ex' => exact not_path_fail_raise hlast
          | ok _ => cases (hlast.of_ended rfl).2
    · rcases path_ask_iff.mp hlast with ⟨-, hraise⟩ | ⟨r, log₂, -, hdone⟩
      · cases hraise
      · cases (hdone.of_ended rfl).2

/-- When the set-up has thrown, the non-interactive mode reports it. -/
lemma path_mainBatch_fail (h : Path (setUp creds o.mailboxName) log (.raise ex)) :
    Path (mainBatch o creds) log (fail ex) :=
  h.bind.attempt.bind

end Exceptions

/-! ## Runs -/

/-- The set-up has thrown an exception. -/
def SetUpThrows (o : Options) (creds : Credentials) (log : Log) (ex : StdException) : Prop :=
  ∃ log', log' <+: log ∧ Path (setUp creds o.mailboxName) log' (.raise ex)

/-- If the set-up has thrown an exception, then it has been reported and `1` has been returned, or
this is done with the next step. No exception escapes. -/
structure HandlesSetUp {File : Type} [DecidableEq File] (openFile : Bytes → Option File)
    (outputDir : Bytes) (o : Options) (creds : Credentials) (x : Process File ℕ) : Prop where
  returns : ∀ ex, SetUpThrows o creds x.entries ex → ∃ x',
    (x' = x ∨ x.step openFile outputDir .act = some x') ∧ x'.place = .running (.done 1) ∧
      ⟨.errorLog ex, ()⟩ ∈ x'.entries
  contained : ∀ ex, x.place ≠ .running (.raise ex)

section Runs

variable {File : Type} [DecidableEq File] {openFile : Bytes → Option File} {outputDir : Bytes}
  {o : Options} {creds : Credentials} {x : Process File ℕ} {ex : StdException}

omit [DecidableEq File] in
/-- A program that is left, and is not in an operation. -/
lemma place_eq_running {p : Client ℕ} (hp : ∀ c k, p ≠ .ask (.call c) k)
    (h : x.place.program = p) : x.place = .running p := by
  cases hplace : x.place with
  | running p' =>
    rw [hplace] at h
    rw [← h]
    rfl
  | calling c taken k =>
    rw [hplace] at h
    exact absurd h.symm (hp c k)

/-- After a failure of the set-up, the non-interactive mode reports it and returns `1`. -/
lemma returns_of_batch (hpath : Path (mainBatch o creds) x.entries x.place.program)
    (hthrows : SetUpThrows o creds x.entries ex) : ∃ x',
      (x' = x ∨ x.step openFile outputDir .act = some x') ∧ x'.place = .running (.done 1) ∧
        ⟨.errorLog ex, ()⟩ ∈ x'.entries := by
  obtain ⟨log, ⟨rest, hentries⟩, hsetUp⟩ := hthrows
  rw [← hentries] at hpath
  have hrest := hpath.rest (path_mainBatch_fail hsetUp)
  rcases path_ask_iff.mp hrest with ⟨-, hfail⟩ | ⟨r, rest', rfl, hdone⟩
  · have hplace : x.place = .running (fail ex) := place_eq_running (fun _ _ h => by cases h) hfail
    refine ⟨⟨x.system, x.files, .running (.done 1), x.log ++ [⟨⟨.errorLog ex, ()⟩, []⟩]⟩,
      Or.inr ?_, rfl, ?_⟩
    · rw [Process.step, hplace]
      rfl
    · simp [Process.entries]
  · obtain ⟨-, hdone⟩ := hdone.of_ended rfl
    refine ⟨x, Or.inl rfl, place_eq_running (fun _ _ h => by cases h) hdone, ?_⟩
    rw [← hentries]
    simp

end Runs

/-- **Failures of the set-up.** In every run of the program after the connection has been made, with
any responses, failures of the receiver and timeouts, failures of the set-up are handled if and only
if the mode is not the interactive one or the set-up has not thrown.

**Proof sketch.** In the non-interactive mode the set-up is inside of a `try`. In the interactive
mode it is not, and what it throws is what escapes. -/
theorem handles_set_up_iff {File : Type} [DecidableEq File] (openFile : Bytes → Option File)
    (outputDir : Bytes) (σ : Session) (files : File → Option Bytes) (o : Options)
    (creds : Credentials) (inputs : List Bytes) (es : List ProcessEvent) (x : Process File ℕ)
    (h : run (Process.step openFile outputDir)
      (.start σ files (main o (.ok creds) (.ok ()) inputs)) es = some x) :
    HandlesSetUp openFile outputDir o creds x ↔
      (o.interactive = true → ∀ ex, ¬ SetUpThrows o creds x.entries ex) := by
  have hpath := path_of_run h
  cases hmode : o.interactive with
  | false =>
    have hbatch : Path (mainBatch o creds) x.entries x.place.program := by
      simpa [main, hmode] using hpath
    refine iff_of_true ⟨fun ex hthrows => ?_, fun ex hplace => ?_⟩ nofun
    · exact returns_of_batch hbatch hthrows
    · rw [hplace] at hbatch
      exact not_path_mainBatch_raise hbatch
  | true =>
    have hinteractive : Path (mainInteractive o creds inputs) x.entries x.place.program := by
      simpa [main, hmode] using hpath
    constructor
    · rintro hhandles - ex ⟨log, ⟨rest, hentries⟩, hsetUp⟩
      rw [← hentries] at hinteractive
      have hrest := hinteractive.rest (path_mainInteractive_raise_iff.mpr hsetUp)
      obtain ⟨-, hraise⟩ := hrest.of_ended rfl
      exact hhandles.contained ex (place_eq_running (fun _ _ h => by cases h) hraise)
    · intro hnot
      refine ⟨fun ex hthrows => absurd hthrows (hnot rfl ex), fun ex hplace => ?_⟩
      rw [hplace] at hinteractive
      exact hnot rfl ex ⟨x.entries, List.prefix_rfl, path_mainInteractive_raise_iff.mp hinteractive⟩

/-- The options for `INBOX`, in one of the modes. -/
def inboxOptions (interactive : Bool) : Options := ⟨interactive, false, false, ascii "INBOX"⟩

/-- A wrong password. -/
def wrongCredentials : Credentials := ⟨ascii "user", ascii "guess"⟩

/-- The steps of a set-up in which the password is refused, up to the return of the login. -/
def refusedSteps : List ProcessEvent :=
  .act :: replySteps (.status .ok [] (ascii "hello")) ++
    [.act, .session (.incoming (.status .no (ascii "a001") (ascii "no"))), .session .take, .answer]

/-- A run of the non-interactive mode in which the password is refused. -/
lemma exists_run_refused : ∃ x, run (Process.step noFile []) (.start .new (fun _ => none)
    (main (inboxOptions false) (.ok wrongCredentials) (.ok ()) [])) (refusedSteps ++ [.act]) =
      some x :=
  ⟨_, rfl⟩

/-- The password is refused in the non-interactive mode. -/
theorem handles_set_up_iff_refused : ∃ x, run (Process.step noFile []) (.start .new (fun _ => none)
      (main (inboxOptions false) (.ok wrongCredentials) (.ok ()) [])) (refusedSteps ++ [.act]) =
        some x ∧
    (HandlesSetUp noFile [] (inboxOptions false) wrongCredentials x ↔
      ((inboxOptions false).interactive = true →
        ∀ ex, ¬ SetUpThrows (inboxOptions false) wrongCredentials x.entries ex)) := by
  obtain ⟨x, hx⟩ := exists_run_refused
  exact ⟨x, hx, handles_set_up_iff noFile [] .new (fun _ => none) _ _ [] _ x hx⟩

/-- The password is refused in the interactive mode: the exception of the login escapes. -/
theorem not_handles_set_up : ∃ x, run (Process.step noFile []) (.start .new (fun _ => none)
      (main (inboxOptions true) (.ok wrongCredentials) (.ok ()) [])) refusedSteps = some x ∧
    ¬ HandlesSetUp noFile [] (inboxOptions true) wrongCredentials x :=
  ⟨_, rfl, fun h => h.contained _ rfl⟩

end Imapcl
