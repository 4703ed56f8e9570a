import Imapcl.Client.Machine
import Imapcl.Receiver.Provenance
import Imapcl.Session.Download

set_option relaxedAutoImplicit false
set_option autoImplicit false

/-!
# The program at work

The user's thread with the session and the files, and the receiving thread with its buffer, as one
machine. A round of the receiving thread reads an input and leaves the calls it makes on the
session; these are then made one by one, with steps of the user's thread between them. The machine
is the composition of `Imapcl.Process` and `Imapcl.Receiver`: what a run does to either of them is a
run of that one alone.

## Design

* `stop` may be called at any time; it only sets the flag.
* An exception that leaves the thread function ends the program, and so does undefined behaviour, on
  either side. Nothing happens after it. A parser that does not return leaves the user's thread
  alone.

## Main definitions

* `Imapcl.World`, `Imapcl.WorldEvent`, `Imapcl.World.step` — the machine.
* `Imapcl.processEvents`, `Imapcl.inputsRead`, `Imapcl.noticesMade` — the parts of a run.

## Main results

* `Imapcl.process_of_run` — a run of the machine is a run of the user's thread.
* `Imapcl.receiver_of_run` — a run of the machine is a run of the receiving thread.
-/

namespace Imapcl

open Machine

/-! ## The machine -/

/-- An end that ends the program: the exception of a thread that nothing catches, or undefined
behaviour. -/
def Outcome.Fatal : Outcome → Prop
  | .escaped _ => True
  | .fault f => f ≠ .diverges
  | _ => False

instance (o : Outcome) : Decidable o.Fatal := by
  cases o <;> unfold Outcome.Fatal <;> infer_instance

/-- The program: the user's thread with the session and the files, where the receiving thread is
after its round, and the calls that it has yet to make in the round. -/
structure World (File α : Type) where
  process : Process File α
  thread : Outcome
  pending : List Notice

/-- The steps: one of the user's thread, the reading of an input, and a call on the session. -/
inductive WorldEvent where
  | user (e : ProcessEvent)
  | receive (i : Input)
  | notify (n : Notice)
  deriving DecidableEq, Repr

/-- The step belongs to the user's thread. -/
def ProcessEvent.OfUser : ProcessEvent → Prop
  | .session e => e.OfUser
  | _ => True

instance (e : ProcessEvent) : Decidable e.OfUser := by
  cases e <;> unfold ProcessEvent.OfUser <;> infer_instance

namespace World

variable {File α : Type}

/-- The program before its first action, with a receiving thread that has just been started. -/
def start (σ : Session) (files : File → Option Bytes) (p : Client α) : World File α :=
  ⟨.start σ files p, .running ⟨[], false⟩, []⟩

/-- The program has been ended by a fault. -/
def Dead (x : World File α) : Prop :=
  x.process.system.control = .undefined ∨ (x.pending = [] ∧ x.thread.Fatal)

instance (x : World File α) : Decidable x.Dead := by
  unfold Dead
  infer_instance

variable [DecidableEq File] (openFile : Bytes → Option File) (outputDir : Bytes)

/-- One step. -/
def step (x : World File α) : WorldEvent → Option (World File α)
  | .user e =>
    if x.Dead ∨ ¬ e.OfUser then none
    else (x.process.step openFile outputDir e).map fun process => { x with process := process }
  | .receive i => match x.thread with
    | .running s =>
      if x.Dead ∨ (x.pending ≠ [] ∧ i ≠ .stop) then none
      else some { x with thread := (s.step i).2, pending := x.pending ++ (s.step i).1 }
    | _ => none
  | .notify n => match x.pending with
    | n' :: ns =>
      if x.Dead ∨ n ≠ n' then none
      else (x.process.step openFile outputDir (.session n.event)).map fun process =>
        ⟨process, x.thread, ns⟩
    | [] => none

end World

/-! ## Steps -/

section Steps

variable {File α : Type} [DecidableEq File] {openFile : Bytes → Option File} {outputDir : Bytes}
  {x x' : World File α} {e : WorldEvent} {es : List WorldEvent} {p : Client α} {σ : Session}
  {files : File → Option Bytes}

/-- The kinds of steps. -/
lemma world_step_cases (h : x.step openFile outputDir e = some x') : ¬ x.Dead ∧
    ((∃ e' process, e = .user e' ∧ e'.OfUser ∧
        x.process.step openFile outputDir e' = some process ∧
        x' = ⟨process, x.thread, x.pending⟩) ∨
      (∃ i s, e = .receive i ∧ x.thread = .running s ∧ (x.pending ≠ [] → i = .stop) ∧
        x' = ⟨x.process, (s.step i).2, x.pending ++ (s.step i).1⟩) ∨
      ∃ n ns process, e = .notify n ∧ x.pending = n :: ns ∧
        x.process.step openFile outputDir (.session n.event) = some process ∧
        x' = ⟨process, x.thread, ns⟩) := by
  cases e with
  | user e' =>
    rw [World.step] at h
    split at h
    · cases h
    · next hnot =>
      rw [not_or, not_not] at hnot
      obtain ⟨process, hstep, rfl⟩ := Option.map_eq_some_iff.mp h
      exact ⟨hnot.1, Or.inl ⟨e', process, rfl, hnot.2, hstep, rfl⟩⟩
  | receive i =>
    rw [World.step] at h
    split at h
    · next s hs =>
      split at h
      · cases h
      · next hnot =>
        rw [not_or, not_and, not_not] at hnot
        exact ⟨hnot.1, Or.inr (Or.inl ⟨i, s, rfl, hs, hnot.2, (Option.some.inj h).symm⟩)⟩
    · cases h
  | notify n =>
    rw [World.step] at h
    split at h
    · next n' ns hpending =>
      split at h
      · cases h
      · next hnot =>
        rw [not_or, not_not] at hnot
        obtain ⟨process, hstep, rfl⟩ := Option.map_eq_some_iff.mp h
        exact ⟨hnot.1, Or.inr (Or.inr ⟨n, ns, process, rfl, by rw [hpending, hnot.2], hstep, rfl⟩)⟩
    · cases h

/-! ## The user's thread -/

/-- What a step is for the user's thread with the session. -/
def WorldEvent.processEvent : WorldEvent → Option ProcessEvent
  | .user e => some e
  | .receive _ => none
  | .notify n => some (.session n.event)

/-- The part of a run that is on the user's thread and on the session. -/
def processEvents (es : List WorldEvent) : List ProcessEvent :=
  es.filterMap WorldEvent.processEvent

/-- **The user's thread.** The part of a run that is on the user's thread and on the session is a
run of them.

**Proof sketch.** Induction on the run; the reading of an input changes nothing there. -/
theorem process_of_run (h : run (World.step openFile outputDir) x es = some x') :
    run (Process.step openFile outputDir) x.process (processEvents es) = some x'.process := by
  induction es generalizing x with
  | nil =>
    cases h
    rfl
  | cons e es ih =>
    obtain ⟨x₁, hstep, hrun⟩ := exists_of_run_cons h
    obtain ⟨-, ⟨e', process, rfl, -, hprocess, rfl⟩ | ⟨i, s, rfl, -, -, rfl⟩ |
      ⟨n, ns, process, rfl, -, hprocess, rfl⟩⟩ := world_step_cases hstep
    · exact (run_cons hprocess).trans (ih hrun)
    · have hrest := ih hrun
      exact hrest
    · exact (run_cons hprocess).trans (ih hrun)

/-! ## The receiving thread -/

/-- The input that a step reads. -/
def WorldEvent.input : WorldEvent → Option Input
  | .receive i => some i
  | _ => none

/-- The call that a step makes on the session. -/
def WorldEvent.notice : WorldEvent → Option Notice
  | .notify n => some n
  | _ => none

/-- The inputs that are read in a run. -/
def inputsRead (es : List WorldEvent) : List Input := es.filterMap WorldEvent.input

/-- The calls that are made on the session in a run. -/
def noticesMade (es : List WorldEvent) : List Notice := es.filterMap WorldEvent.notice

/-- **The receiving thread.** The inputs of a run lead the thread where it is, and to the calls that
have been made, followed by those that are pending.

**Proof sketch.** Induction on the run from its last step. -/
theorem receiver_of_run
    (h : run (World.step openFile outputDir) (.start σ files p) es = some x) :
    Receiver.run ⟨[], false⟩ (inputsRead es) = (noticesMade es ++ x.pending, x.thread) := by
  refine history_invariant (I := fun es (x : World File α) =>
    Receiver.run ⟨[], false⟩ (inputsRead es) = (noticesMade es ++ x.pending, x.thread))
    (C := fun _ _ => True) rfl ?_ (fun _ _ _ _ _ _ => trivial) h
  intro es y e y' _ hy _ hstep
  rw [inputsRead, noticesMade, List.filterMap_append, List.filterMap_append, ← inputsRead,
    ← noticesMade]
  obtain ⟨-, ⟨e', process, rfl, -, -, rfl⟩ | ⟨i, s, rfl, hs, -, rfl⟩ |
    ⟨n, ns, process, rfl, hpending, -, rfl⟩⟩ := world_step_cases hstep
  · exact (congrArg _ (List.append_nil _)).trans (hy.trans (by simp [WorldEvent.notice]))
  · rw [hs] at hy
    exact (Receiver.run_concat hy i).trans (by simp [WorldEvent.notice])
  · rw [hpending] at hy
    exact (congrArg _ (List.append_nil _)).trans (hy.trans (by simp [WorldEvent.notice]))

end Steps

/-! ## Runs -/

/-- Arguments of a download of a whole mailbox. -/
def batchOptions : Options := ⟨false, false, false, ascii "INBOX"⟩

/-- The download of a mailbox with one message, after everything has come in. -/
def batchSteps : List WorldEvent :=
  [.receive (.recv (.bytes (ascii "* OK done\r\na001 OK done\r\n1 OK done\r\n* SEARCH 1\r\n" ++
      ascii "2 OK done\r\n* 1 FETCH (BODY[] \x7b11\x7d\r\nDate: x\r\n\r\n)\r\n" ++
      ascii "3 OK done\r\n"))),
    .notify (.incoming (.status .ok [] (ascii "done"))),
    .notify (.incoming (.status .ok (ascii "a001") (ascii "done"))),
    .notify (.incoming (.status .ok (ascii "1") (ascii "done"))),
    .notify (.incoming (.search [1])),
    .notify (.incoming (.status .ok (ascii "2") (ascii "done"))),
    .notify (.incoming (.fetch (ascii "Date: x\r\n\r\n"))),
    .notify (.incoming (.status .ok (ascii "3") (ascii "done")))] ++
  ([.act, .session .take, .session .transition, .answer,
    .act, .session .take, .session .transition, .answer,
    .act, .session .take, .session .transition, .answer,
    .act, .session .take, .session .take, .answer,
    .act, .session .take, .session .take, .answer, .act, .act] : List ProcessEvent).map .user

end Imapcl
