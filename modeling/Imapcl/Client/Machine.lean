import Imapcl.Client.Basic
import Imapcl.Message.Directory
import Imapcl.Session.System

set_option relaxedAutoImplicit false
set_option autoImplicit false

/-!
# The client at work

The user's thread as a machine: a program, carried out on the session and on the files. An operation
of the session is called and returns in two steps, between which the threads of the session make
theirs. Everything else that a program asks for is one step.

## Main definitions

* `Imapcl.Process`, `Imapcl.ProcessEvent`, `Imapcl.Process.step` — the machine.
* `Imapcl.Process.entries` — what has been asked for and answered so far.
* `Imapcl.Logged` — an entry with the responses that the operation has taken off the queue.

## Main results

* `Imapcl.path_of_run` — the log of a run is a path through the program.
* `Imapcl.respects_of_run` — a contract is kept in every run with allowed answers.
-/

namespace Imapcl

open Machine Program

/-! ## The machine -/

/-- What an operation has returned or thrown, when it has. -/
def Call.answer : (c : Call) → Control → Option (Except StdException c.Result)
  | _, .threw ex => some (.error ex)
  | .search _, .returned (.numbers seqNumbers) => some (.ok seqNumbers)
  | .fetch _ _, .returned (.messages messages) => some (.ok messages)
  | .receiveGreeting, .returned .unit => some (.ok ())
  | .login _ _, .returned .unit => some (.ok ())
  | .select _, .returned .unit => some (.ok ())
  | .read _, .returned .unit => some (.ok ())
  | .logout, .returned .unit => some (.ok ())
  | _, _ => none

/-- An operation that has thrown is answered by its exception. -/
lemma answer_threw (c : Call) (ex : StdException) : c.answer (.threw ex) = some (.error ex) := by
  cases c <;> rfl

/-- Where the user's thread is: before the next action of a program, or in an operation, which has
taken the given responses off the queue. -/
inductive Place (α : Type) where
  | running (p : Client α)
  | calling (c : Call) (taken : List Response) (k : Except StdException c.Result → Client α)

/-- What is left of the program. -/
def Place.program {α : Type} : Place α → Client α
  | running p => p
  | calling c _ k => .ask (.call c) k

/-- An action with its answer, and the responses that it has taken off the queue. -/
structure Logged where
  entry : Entry Action Action.Answer
  taken : List Response

/-- The session with the place in it, the contents of the files, the place in the program, and what
has been done so far. -/
structure Process (File α : Type) where
  system : System
  files : File → Option Bytes
  place : Place α
  log : List Logged

/-- The steps: one of the user's thread outside of the session, the return of an operation, and a
step in the session. -/
inductive ProcessEvent where
  | act
  | answer
  | session (e : Event)
  deriving DecidableEq, Repr

/-- The responses that a step in the session takes off the queue. -/
def takenBy (s : System) : Event → List Response
  | .take => match s.session.waitForResponse with
    | some (.ok (response, _)) => [response]
    | _ => []
  | _ => []

/-- The place in the program after a step in the session. -/
def Place.after {α : Type} (place : Place α) (taken : List Response) : Place α :=
  match place with
  | running p => running p
  | calling c taken' k => calling c (taken' ++ taken) k

namespace Process

variable {File α : Type}

/-- A program before its first action. -/
def start (σ : Session) (files : File → Option Bytes) (p : Client α) : Process File α :=
  ⟨⟨σ, .idle⟩, files, .running p, []⟩

/-- What has been asked for and answered. -/
def entries (x : Process File α) : Log := x.log.map Logged.entry

/-- A log with one more entry. -/
lemma entries_concat (x : Process File α) (system : System) (files : File → Option Bytes)
    (place : Place α) (e : Logged) :
    entries ⟨system, files, place, x.log ++ [e]⟩ = x.entries ++ [e.entry] := by
  rw [entries, List.map_append]
  rfl

variable [DecidableEq File] (openFile : Bytes → Option File) (outputDir : Bytes)

/-- The answer to an action that is not an operation of the session, and the files after it. -/
def immediate (session : Session) (files : File → Option Bytes) :
    (i : Action) → Option (i.Answer × (File → Option Bytes))
  | .call _ => none
  | .getState => some (session.state, files)
  | .getCurrentMailbox => some (session.currentMailbox, files)
  | .saveMessages messages => some (saveMessages openFile outputDir messages files)
  | .print _ => some ((), files)
  | .errorLog _ => some ((), files)
  | .getline _ => some ((), files)

/-- One step. Operations are called by the program only. -/
def step (x : Process File α) : ProcessEvent → Option (Process File α)
  | .act => match x.place with
    | .running (.ask (.call c) k) =>
      (x.system.step (.call c)).map fun s => { x with system := s, place := .calling c [] k }
    | .running (.ask i k) =>
      (immediate openFile outputDir x.system.session x.files i).map fun (r, files) =>
        ⟨x.system, files, .running (k r), x.log ++ [⟨⟨i, r⟩, []⟩]⟩
    | _ => none
  | .answer => match x.place with
    | .calling c taken k => (c.answer x.system.control).map fun r =>
      ⟨x.system, x.files, .running (k r), x.log ++ [⟨⟨.call c, r⟩, taken⟩]⟩
    | _ => none
  | .session (.call _) => none
  | .session e => (x.system.step e).map fun s =>
    { x with system := s, place := x.place.after (takenBy x.system e) }

end Process

/-! ## Steps -/

section Steps

variable {File α : Type} [DecidableEq File] {openFile : Bytes → Option File} {outputDir : Bytes}
  {x x' : Process File α} {e : ProcessEvent} {es : List ProcessEvent} {p : Client α} {σ : Session}
  {files : File → Option Bytes}

/-- The kinds of steps: an operation is called, another action is done, an operation returns, or the
threads of the session make a step. -/
lemma process_step_cases (h : x.step openFile outputDir e = some x') :
    (∃ c k s, e = .act ∧ x.place = .running (.ask (.call c) k) ∧
        x.system.step (.call c) = some s ∧ x' = ⟨s, x.files, .calling c [] k, x.log⟩) ∨
      (∃ (i : Action) (k : i.Answer → Client α) (r : i.Answer) (files : File → Option Bytes),
        e = .act ∧ x.place = .running (.ask i k) ∧
        Process.immediate openFile outputDir x.system.session x.files i = some (r, files) ∧
        x' = ⟨x.system, files, .running (k r), x.log ++ [⟨⟨i, r⟩, []⟩]⟩) ∨
      (∃ c taken k r, e = .answer ∧ x.place = .calling c taken k ∧
        c.answer x.system.control = some r ∧
        x' = ⟨x.system, x.files, .running (k r), x.log ++ [⟨⟨.call c, r⟩, taken⟩]⟩) ∨
      ∃ e' s, e = .session e' ∧ (∀ c, e' ≠ .call c) ∧ x.system.step e' = some s ∧
        x' = ⟨s, x.files, x.place.after (takenBy x.system e'), x.log⟩ := by
  unfold Process.step at h
  split at h
  · split at h
    · next c k hplace =>
      obtain ⟨s, hs, rfl⟩ := Option.map_eq_some_iff.mp h
      exact Or.inl ⟨c, k, s, rfl, hplace, hs, rfl⟩
    · next i k _ hplace =>
      obtain ⟨⟨r, files⟩, hr, rfl⟩ := Option.map_eq_some_iff.mp h
      exact Or.inr (Or.inl ⟨i, k, r, files, rfl, hplace, hr, rfl⟩)
    · cases h
  · split at h
    · next c taken k hplace =>
      obtain ⟨r, hr, rfl⟩ := Option.map_eq_some_iff.mp h
      exact Or.inr (Or.inr (Or.inl ⟨c, taken, k, r, rfl, hplace, hr, rfl⟩))
    · cases h
  · cases h
  · next e' hcall =>
    obtain ⟨s, hs, rfl⟩ := Option.map_eq_some_iff.mp h
    exact Or.inr (Or.inr (Or.inr ⟨e', s, rfl, fun c hc => hcall c hc, hs, rfl⟩))

/-- The place after a step in the session is in the same program. -/
@[simp] lemma Place.program_after (place : Place α) (taken : List Response) :
    (place.after taken).program = place.program := by
  cases place <;> rfl

/-- An operation that is called after a step in the session was called before it. -/
lemma Place.of_after_calling {place : Place α} {taken taken' : List Response} {c : Call}
    {k : Except StdException c.Result → Client α} (h : place.after taken = .calling c taken' k) :
    ∃ before, place = .calling c before k ∧ taken' = before ++ taken := by
  cases place with
  | running p => cases h
  | calling c' before k' =>
    cases h
    exact ⟨before, rfl, rfl⟩

/-- A program that runs after a step in the session ran before it. -/
lemma Place.of_after_running {place : Place α} {taken : List Response}
    (h : place.after taken = .running p) : place = .running p := by
  cases place with
  | running p' => exact h
  | calling c' before k' => cases h

/-- A step extends the path through the program, or leaves it alone. -/
lemma path_of_step (h : x.step openFile outputDir e = some x')
    (hp : Path p x.entries x.place.program) : Path p x'.entries x'.place.program := by
  rcases process_step_cases h with ⟨c, k, s, -, hplace, -, rfl⟩ |
    ⟨i, k, r, files, -, hplace, -, rfl⟩ | ⟨c, taken, k, r, -, hplace, -, rfl⟩ |
    ⟨e', s, -, -, -, rfl⟩
  · rw [hplace] at hp
    exact hp
  · rw [hplace] at hp
    rw [Process.entries_concat]
    exact hp.concat r
  · rw [hplace] at hp
    rw [Process.entries_concat]
    exact hp.concat r
  · rw [Place.program_after]
    exact hp

/-- **Logs.** The log of a run is a path from the program to what is left of it.

**Proof sketch.** Every step extends the path by the entry it logs. -/
theorem path_of_run (h : run (Process.step openFile outputDir) (.start σ files p) es = some x) :
    Path p x.entries x.place.program := by
  have hstep : ∀ (y : Process File α) e y', Path p y.entries y.place.program → True →
      y.step openFile outputDir e = some y' → Path p y'.entries y'.place.program :=
    fun y e y' hp _ hstep => path_of_step hstep hp
  have hstart : Path p (Process.start σ files p).entries (Process.start σ files p).place.program :=
    .nil p
  exact invariant hstep hstart (fun _ _ _ _ _ _ => trivial) h

variable {C : Contract Action Action.Answer}
  {Q : Log → Except StdException α → Prop}

/-- **Contracts.** In a run whose answers are allowed, what is left of the program keeps the
contract. -/
theorem respects_of_run (h : run (Process.step openFile outputDir) (.start σ files p) es = some x)
    (hp : Respects C Q p []) (hC : C.Allows [] x.entries) :
    Respects C Q x.place.program x.entries :=
  hp.path (path_of_run h) hC

end Steps

/-! ## Parts of runs -/

/-- A session in which a mailbox is selected. -/
def selectedSession : Session := ⟨.selected, 1, ascii "INBOX", []⟩

/-- Nothing can be opened for writing. -/
def noFile (_ : Bytes) : Option Unit := none

/-- The steps of an operation with a transition, after its call, that takes one response. -/
def replySteps (response : Response) : List ProcessEvent :=
  [.session (.incoming response), .session .take, .session .transition, .answer]

end Imapcl
