import Imapcl.Session.Tags
import Imapcl.World.Queue

set_option relaxedAutoImplicit false
set_option autoImplicit false

/-!
# The commands of a run

The commands that a run of a program hands to `Server::send`, and the operations that hand them
over. An operation hands over its command, or it throws, but for two of them: `receive_greeting` has
no command, and `login` returns without one if the greeting was a PREAUTH.

## Main definitions

* `Imapcl.Process.commands` — the commands that a run hands over.
* `Imapcl.Spoken` — the commands that the operations of a log may have handed over.

## Main results

* `Imapcl.system_of_run` — the commands are those of a run of the session.
* `Imapcl.spoken_of_run` — the commands of a run are those of its operations.
-/

namespace Imapcl

open Machine Program

/-! ## Commands of a run -/

section Commands

variable {File α : Type}

/-- What a step of the process hands to `Server::send`. -/
def Process.handed (x : Process File α) : ProcessEvent → Option Command
  | .act => match x.place with
    | .running (.ask (.call c) _) => Imapcl.handed x.system (.call c)
    | _ => none
  | _ => none

/-- The return of an operation hands nothing to the server. -/
@[simp] lemma handed_answer (x : Process File α) : x.handed .answer = none := rfl

/-- A step in the session hands nothing to the server. -/
@[simp] lemma handed_session (x : Process File α) (e : Event) : x.handed (.session e) = none := rfl

variable [DecidableEq File] (openFile : Bytes → Option File) (outputDir : Bytes)

/-- The commands that the steps of a run hand to `Server::send`. -/
def Process.commands : Process File α → List ProcessEvent → List Command
  | _, [] => []
  | x, e :: es => match x.step openFile outputDir e with
    | none => []
    | some x' => (x.handed e).toList ++ x'.commands es

end Commands

section Projection

variable {File α : Type} [DecidableEq File] {openFile : Bytes → Option File} {outputDir : Bytes}
  {x x' : Process File α} {e : ProcessEvent} {es : List ProcessEvent}

/-- The commands of a run with a first step. -/
lemma process_commands_cons (h : x.step openFile outputDir e = some x') :
    x.commands openFile outputDir (e :: es) =
      (x.handed e).toList ++ x'.commands openFile outputDir es := by
  rw [Process.commands, h]

/-- A step of the process is a step of the session, which hands over the same, or none. -/
lemma system_of_step (h : x.step openFile outputDir e = some x') :
    (∃ e', x.system.step e' = some x'.system ∧ handed x.system e' = x.handed e) ∨
      (x'.system = x.system ∧ x.handed e = none) := by
  rcases process_step_cases h with ⟨c, k, s, rfl, hplace, hs, rfl⟩ |
    ⟨i, k, r, files, rfl, hplace, hr, rfl⟩ | ⟨c, taken, k, r, rfl, hplace, hr, rfl⟩ |
      ⟨e', s, rfl, hcall, hs, rfl⟩
  · refine Or.inl ⟨_, hs, ?_⟩
    simp only [Process.handed, hplace]
  · refine Or.inr ⟨rfl, ?_⟩
    cases i with
    | call c => cases hr
    | _ => simp only [Process.handed, hplace]
  · exact Or.inr ⟨rfl, rfl⟩
  · refine Or.inl ⟨e', hs, ?_⟩
    cases e' with
    | call c => exact absurd rfl (hcall c)
    | _ => rfl

/-- A run of the process is a run of the session that hands over the same commands. -/
lemma system_of_run (h : run (Process.step openFile outputDir) x es = some x') :
    ∃ events, run System.step x.system events = some x'.system ∧
      commands x.system events = x.commands openFile outputDir es := by
  induction es generalizing x with
  | nil =>
    obtain rfl := Option.some.inj h
    exact ⟨[], rfl, rfl⟩
  | cons e es ih =>
    obtain ⟨y, hstep, hrest⟩ := exists_of_run_cons h
    obtain ⟨events, hrun, hcommands⟩ := ih hrest
    rw [process_commands_cons hstep]
    rcases system_of_step hstep with ⟨e', hs, hhanded⟩ | ⟨hsystem, hnone⟩
    · refine ⟨e' :: events, ?_, ?_⟩
      · rw [run_cons hs]
        exact hrun
      · rw [commands_cons hs, hhanded, hcommands]
    · rw [hsystem] at hrun hcommands
      exact ⟨events, hrun, by rw [hcommands, hnone]; rfl⟩

/-- What is known of the commands of a run and of its end, and is kept by steps. -/
lemma commands_invariant {I : List Command → Process File α → Prop} {x₀ x : Process File α}
    {said : List Command} (hstart : I said x₀)
    (hstep : ∀ said x e x', I said x → x.step openFile outputDir e = some x' →
      I (said ++ (x.handed e).toList) x')
    (h : run (Process.step openFile outputDir) x₀ es = some x) :
    I (said ++ x₀.commands openFile outputDir es) x := by
  induction es generalizing x₀ said with
  | nil =>
    obtain rfl := Option.some.inj h
    rwa [Process.commands, List.append_nil]
  | cons e es ih =>
    obtain ⟨y, hfirst, hrest⟩ := exists_of_run_cons h
    rw [process_commands_cons hfirst, ← List.append_assoc]
    exact ih (hstep _ _ _ _ hstart hfirst) hrest

end Projection

/-! ## Commands of a log -/

/-- The operation may return without a command. -/
def Call.Silent : Call → Prop
  | .receiveGreeting | .login _ _ => True
  | _ => False

/-- The operations of a log have handed over the commands, in their order: each has handed over its
own, but for those that may return without one and those that have thrown. -/
inductive Spoken : Log → List Command → Prop where
  | nil : Spoken [] []
  | said {c : Call} {r : Except StdException c.Result} {tag : Bytes} {command : Command} {log : Log}
    {commands : List Command} (h : c.command tag = some command) (hs : Spoken log commands) :
    Spoken (⟨.call c, r⟩ :: log) (command :: commands)
  | silent {c : Call} {r : Except StdException c.Result} {log : Log} {commands : List Command}
    (h : c.Silent ∨ ∃ ex, r = .error ex) (hs : Spoken log commands) :
    Spoken (⟨.call c, r⟩ :: log) commands
  | other {e : Entry Action Action.Answer} {log : Log} {commands : List Command}
    (h : ∀ c, e.action ≠ .call c) (hs : Spoken log commands) : Spoken (e :: log) commands

namespace Spoken

variable {log log' : Log} {said said' : List Command} {c : Call}
  {r : Except StdException c.Result}

/-- Two logs. -/
lemma append (h : Spoken log said) (h' : Spoken log' said') :
    Spoken (log ++ log') (said ++ said') := by
  induction h with
  | nil => exact h'
  | said hcommand _ ih => exact .said hcommand ih
  | silent hsilent _ ih => exact .silent hsilent ih
  | other hother _ ih => exact .other hother ih

/-- A log that begins with an operation. -/
lemma of_call (h : Spoken (⟨.call c, r⟩ :: log) said) :
    (∃ tag command rest, said = command :: rest ∧ c.command tag = some command ∧
        Spoken log rest) ∨
      ((c.Silent ∨ ∃ ex, r = .error ex) ∧ Spoken log said) := by
  cases h with
  | said hcommand hs => exact Or.inl ⟨_, _, _, rfl, hcommand, hs⟩
  | silent hsilent hs => exact Or.inr ⟨hsilent, hs⟩
  | other hother hs => exact absurd rfl (hother c)

/-- Every command is that of an operation in the log. -/
lemma exists_of_mem (h : Spoken log said) {command : Command} (hmem : command ∈ said) :
    ∃ c r tag, ⟨.call c, r⟩ ∈ log ∧ c.command tag = some command := by
  induction h with
  | nil => cases hmem
  | said hcommand _ ih =>
    rcases List.mem_cons.mp hmem with rfl | hmem
    · exact ⟨_, _, _, List.mem_cons_self, hcommand⟩
    · obtain ⟨c, r, tag, hlog, hc⟩ := ih hmem
      exact ⟨c, r, tag, List.mem_cons_of_mem _ hlog, hc⟩
  | silent _ _ ih | other _ _ ih =>
    obtain ⟨c, r, tag, hlog, hc⟩ := ih hmem
    exact ⟨c, r, tag, List.mem_cons_of_mem _ hlog, hc⟩

/-- Without operations nothing is handed over. -/
lemma eq_nil (h : Spoken log said) (hlog : ∀ e ∈ log, ∀ c, e.action ≠ .call c) : said = [] := by
  rw [List.eq_nil_iff_forall_not_mem]
  intro command hmem
  obtain ⟨c, r, tag, hcall, -⟩ := h.exists_of_mem hmem
  exact hlog _ hcall c rfl

end Spoken

/-- What has been handed over is what the log has, and the command of the operation that is going
on, unless this operation returns without one or throws. -/
structure SpokenBy {File α : Type} (said : List Command) (x : Process File α) : Prop where
  running : ∀ p, x.place = .running p → Spoken x.entries said
  calling : ∀ c taken k, x.place = .calling c taken k →
    (∃ before tag command, said = before ++ [command] ∧ c.command tag = some command ∧
        Spoken x.entries before) ∨
      ((c.Silent ∨ ∃ ex, x.system.control = .threw ex) ∧ Spoken x.entries said)

section Spoken

variable {File α : Type} [DecidableEq File] {openFile : Bytes → Option File} {outputDir : Bytes}
  {x x' : Process File α} {e : ProcessEvent} {es : List ProcessEvent} {p : Client α} {σ : Session}
  {files : File → Option Bytes} {said : List Command}

/-- An operation hands over its command, or it may return without one, or it throws. -/
lemma begin_command (σ : Session) (c : Call) :
    (∃ tag command, (begin σ c).command = some command ∧ c.command tag = some command) ∨
      ((begin σ c).command = none ∧ (c.Silent ∨ ∃ ex, (begin σ c).control = .threw ex)) := by
  by_cases hguard : c.Guard σ.state
  · obtain ⟨τ, command, control, hbegin, -, hcommand, -⟩ := begin_of_guard hguard
    exact Or.inl ⟨_, command, by rw [hbegin], hcommand⟩
  · obtain ⟨control, hbegin, ⟨rfl, rfl⟩ | ⟨userName, password, rfl, rfl⟩ | ⟨ex, rfl⟩⟩ :=
      begin_of_not_guard hguard
    · exact Or.inr ⟨rfl, Or.inl trivial⟩
    · exact Or.inr ⟨by rw [hbegin], Or.inl trivial⟩
    · exact Or.inr ⟨by rw [hbegin], Or.inr ⟨ex, by rw [hbegin]⟩⟩

/-- Every step of the process keeps the account of its commands. -/
lemma SpokenBy.step (hx : SpokenBy said x) (h : x.step openFile outputDir e = some x') :
    SpokenBy (said ++ (x.handed e).toList) x' := by
  rcases process_step_cases h with ⟨c, k, s, rfl, hplace, hs, rfl⟩ |
    ⟨i, k, r, files, rfl, hplace, hr, rfl⟩ | ⟨c, taken, k, r, rfl, hplace, hr, rfl⟩ |
      ⟨e', s, rfl, hcall, hs, rfl⟩
  · have hsaid := hx.running _ hplace
    obtain ⟨hfree, rfl⟩ := step_call_iff.mp hs
    have hhanded : x.handed .act = (begin x.system.session c).command := by
      simp only [Process.handed, hplace, handed, if_pos hfree]
    rw [hhanded]
    refine ⟨fun p hp => ?_, fun c' taken k' hcalling => ?_⟩
    · cases hp
    · cases hcalling
      rcases begin_command x.system.session c with ⟨tag, command, hcommand, hc⟩ |
        ⟨hnone, hsilent⟩
      · rw [hcommand]
        exact Or.inl ⟨said, tag, command, rfl, hc, hsaid⟩
      · rw [hnone, Option.toList_none, List.append_nil]
        exact Or.inr ⟨hsilent, hsaid⟩
  · have hother : ∀ c, i ≠ .call c := by
      rintro c rfl
      cases hr
    have hnone : x.handed .act = none := by
      cases i with
      | call c => exact absurd rfl (hother c)
      | _ => simp only [Process.handed, hplace]
    refine ⟨fun p _ => ?_, fun c taken k' hcalling => by cases hcalling⟩
    rw [hnone, Process.entries_concat]
    exact (hx.running _ hplace).append (.other hother .nil)
  · refine ⟨fun p _ => ?_, fun c' taken' k' hcalling => by cases hcalling⟩
    rw [Process.entries_concat, handed_answer, Option.toList_none, List.append_nil]
    rcases hx.calling _ _ _ hplace with ⟨before, tag, command, rfl, hc, hsaid⟩ | ⟨hsilent, hsaid⟩
    · exact hsaid.append (.said hc .nil)
    · rw [← List.append_nil said]
      refine hsaid.append (.silent (hsilent.imp_right ?_) .nil)
      rintro ⟨ex, hthrew⟩
      rw [hthrew, answer_threw] at hr
      exact ⟨ex, (Option.some.inj hr).symm⟩
  · rw [handed_session, Option.toList_none, List.append_nil]
    refine ⟨fun p hp => hx.running p (Place.of_after_running hp), fun c taken k hcalling => ?_⟩
    obtain ⟨before, hbefore, -⟩ := Place.of_after_calling hcalling
    rcases hx.calling _ _ _ hbefore with hsaid | ⟨hsilent, hsaid⟩
    · exact Or.inl hsaid
    · refine Or.inr ⟨hsilent.imp_right ?_, hsaid⟩
      rintro ⟨ex, hthrew⟩
      have hfree : x.system.control.Free := by
        rw [hthrew]
        trivial
      exact ⟨ex, (hfree.step hs hcall).2.1.trans hthrew⟩

/-- **Commands and operations.** The commands of a run are those of its log, which may be followed
by the operation that is going on.

**Proof sketch.** Induction on the run. An operation that is going on is entered in the log with an
exception, so that it need not have a command. -/
theorem spoken_of_run (h : run (Process.step openFile outputDir) (.start σ files p) es = some x) :
    ∃ log q, Path p log q ∧
      Spoken log ((Process.start σ files p).commands openFile outputDir es) ∧
      (log = x.entries ∨ ∃ c r, log = x.entries ++ [⟨.call c, r⟩]) := by
  have hstart : SpokenBy [] (Process.start σ files p) :=
    ⟨fun _ _ => .nil, fun c taken k hcalling => by cases hcalling⟩
  have hx := commands_invariant hstart (fun _ _ _ _ hx hstep => hx.step hstep) h
  rw [List.nil_append] at hx
  have hpath := path_of_run h
  cases hplace : x.place with
  | running q =>
    rw [hplace] at hpath
    exact ⟨_, q, hpath, hx.running q hplace, Or.inl rfl⟩
  | calling c taken k =>
    rw [hplace] at hpath
    have hlonger := hpath.concat (.error .outOfRange)
    refine ⟨_, _, hlonger, ?_, Or.inr ⟨c, _, rfl⟩⟩
    rcases hx.calling _ _ _ hplace with ⟨before, tag, command, hsaid, hc, hspoken⟩ |
      ⟨-, hspoken⟩
    · rw [hsaid]
      exact hspoken.append (.said hc .nil)
    · have hboth := hspoken.append
        (.silent (Or.inr ⟨.outOfRange, rfl⟩) .nil : Spoken [⟨.call c, _⟩] [])
      rwa [List.append_nil] at hboth

end Spoken

end Imapcl
