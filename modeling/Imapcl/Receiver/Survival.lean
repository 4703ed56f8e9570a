import Imapcl.Parser.Bounds
import Imapcl.Receiver.Chunks

set_option relaxedAutoImplicit false
set_option autoImplicit false

/-!
# How the receiving thread ends

The loop of `receive` has two `try` blocks, around `receive_inner` and around the parser. The test
for an overlong buffer is in neither of them, so the exception it throws leaves the thread
function; it compares for equality, so a buffer that grows past the maximum goes on growing. This
file determines the runs in which the thread goes on, stops because it has been stopped, or returns
after a report to the session.

## Main definitions

* `Imapcl.Receiver.Survives` — a run that ends in one of these ways, or has not ended.
* `Imapcl.Receiver.Tests` — a property of every buffer that a run tests.

## Main results

* `Imapcl.Receiver.run_ends_iff` — how a run ends is decided by one of its steps.
* `Imapcl.parsesSafely_wire` — well-formed responses are parsed without a fault.
* `Imapcl.parseBuffer_defined` — what is parsed without reading beyond the buffer.
* `Imapcl.Receiver.survives_iff` — the runs that survive.
-/

namespace Imapcl

open StateExcept

variable {c data : Bytes} {s s' : Receiver} {i : Input} {is : List Input} {ns : List Notice}

/-! ## Ends of runs -/

namespace Receiver

/-- A run that leaves the thread running is followed by the rest of the inputs. -/
lemma run_append_running (pre : List Input) :
    ∀ {s : Receiver} {ns : List Notice}, s.run pre = (ns, .running s') →
      s.run (pre ++ is) = (ns ++ (s'.run is).1, (s'.run is).2) := by
  induction pre with
  | nil =>
    intro s ns h
    cases h
    rfl
  | cons i pre ih =>
    intro s ns h
    rw [run] at h
    split at h
    · next ns₁ s₁ hstep =>
      obtain ⟨hns, ho⟩ := Prod.mk.inj h
      have hrest := ih (Prod.ext rfl ho)
      rw [List.cons_append, run_cons_running hstep, hrest, ← hns, List.append_assoc]
    · next ns₁ o hnot hstep =>
      obtain ⟨-, ho⟩ := Prod.mk.inj h
      exact absurd ho (hnot s')

/-- One more input after a run that leaves the thread running. -/
lemma run_concat (h : s.run is = (ns, .running s')) (i : Input) :
    s.run (is ++ [i]) = (ns ++ (s'.step i).1, (s'.step i).2) := by
  rw [run_append_running is h, run]
  split
  · next ns₁ s₁ hstep =>
    rw [hstep]
    exact Prod.ext (congrArg (ns ++ ·) (List.append_nil ns₁)) rfl
  · next ns₁ o _ hstep => rw [hstep]

/-- The outcome of one input is that of its step. -/
lemma run_singleton_outcome : (s.run [i]).2 = (s.step i).2 := by
  rw [run]
  split
  · next ns s' h =>
    rw [h]
    rfl
  · next ns o _ h => rw [h]

/-- **How a run ends** is decided by one of its steps: it has an outcome other than `running` if and
only if a step from a state it reaches has.

**Proof sketch.** Induction on the inputs. If the first step leaves the thread running, the rest of
the run decides; otherwise the run ends there. -/
theorem run_ends_iff {P : Outcome → Prop} (hP : ∀ s, ¬ P (.running s)) (is : List Input) :
    ∀ s : Receiver, P (s.run is).2 ↔ ∃ pre i ns s', pre ++ [i] <+: is ∧
      s.run pre = (ns, .running s') ∧ P (s'.step i).2 := by
  induction is with
  | nil =>
    intro s
    refine iff_of_false (hP s) ?_
    rintro ⟨pre, i, ns, s', hpre, -⟩
    simpa using List.prefix_nil.mp hpre
  | cons i is ih =>
    intro s
    constructor
    · intro h
      rw [run] at h
      split at h
      · next ns₁ s₁ hstep =>
        obtain ⟨pre, j, ns, s', hpre, hrun, hj⟩ := (ih s₁).mp h
        refine ⟨i :: pre, j, ns₁ ++ ns, s', (List.prefix_cons_inj i).mpr hpre, ?_, hj⟩
        rw [run_cons_running hstep, hrun]
      · next ns₁ o _ hstep =>
        refine ⟨[], i, [], s, ⟨is, rfl⟩, rfl, ?_⟩
        rw [hstep]
        exact h
    · rintro ⟨pre, j, ns, s', ⟨post, hpost⟩, hrun, hj⟩
      rw [← hpost, List.append_assoc, run_append_running pre hrun, List.singleton_append, run]
      split
      · next ns₁ s₁ hstep =>
        rw [hstep] at hj
        exact absurd hj (hP s₁)
      · next ns₁ o _ hstep =>
        rw [hstep] at hj
        exact hj

/-- Why a run may have returned: it has been stopped, or its last notice is a failure. -/
def Excused (s : Receiver) (is : List Input) : Prop :=
  (s.stopped = true ∨ .stop ∈ is ∨ .recv .closed ∈ is) ∨
    ∃ ex, (s.run is).1.getLast? = some (.failed ex)

/-- At every time of a run, the thread goes on, or it has returned for a good reason. -/
def Survives (s : Receiver) (is : List Input) : Prop :=
  ∀ pre, pre <+: is → match (s.run pre).2 with
    | .running _ => True
    | .returned => s.Excused pre
    | .escaped _ => False
    | .fault _ => False

end Receiver

/-! ## One step -/

/-- Well-formed responses are parsed without a fault. -/
theorem parsesSafely_wire (xs : List WireResponse) (h : (Stream.wire xs).length < 2 ^ 31) :
    ParsesSafely (Stream.wire xs) := by
  obtain ⟨s, hparse⟩ := parseBuffer_wire xs (Nat.lt_add_right 2 h)
  rw [ParsesSafely, hparse]
  refine ⟨by simp, fun f hf => ?_⟩
  cases hf

/-- The receiver hands on a buffer that ends in CRLF, or one byte. -/
lemma bufferComplete.lineData (h : bufferComplete data) : LineData data := by
  obtain ⟨-, hshort | hcrlf⟩ := h
  · exact Or.inr (Nat.le_of_lt_succ hshort)
  · exact Or.inl ⟨data.take (data.length - 2), by rw [← hcrlf, List.take_append_drop]⟩

/-- **What the loop over a buffer reads.** On a buffer of the receiver shorter than `2 ^ 31` in
which no call comes to a literal that is too long, the loop does not read beyond the terminator.

**Proof sketch.** Induction on the rounds: each one starts in a state in which a caller calls
`parse_next`, and such a call reads inside the data. -/
theorem parseBuffer_defined (hcomplete : bufferComplete data) (hlen : data.length < 2 ^ 31)
    (huncut : ∀ s, Called data s → parseNextUpTo.run s ≠ .error .diverges) :
    (parseBuffer data).2 ≠ .error .undefined := by
  have hrounds : ∀ fuel s, Called data { s with parsedResponse := none } →
      (parseAll fuel s).2 ≠ .error .undefined := by
    intro fuel
    induction fuel with
    | zero => exact fun _ _ h => by cases h
    | succ fuel ih =>
      intro s hcalled
      obtain ⟨hd, hp⟩ := hcalled.inside hlen
      have hline : LineData s.data := by
        rw [show s.data = data from hd]
        exact hcomplete.lineData
      have hsafe := safe_parseNextUpTo { s with parsedResponse := none }
        ⟨by rw [hd]; exact hp, by rw [hd]; exact hlen⟩ hline trivial
      have hnext := (cutsOff_parseNextUpTo _).resolve_left (huncut _ hcalled)
      rw [Avoids, hnext] at hsafe
      rcases hrun : parseNext.run { s with parsedResponse := none } with e | ⟨b, s'⟩
      · rw [parseAll_error hrun]
        exact fun h => hsafe (by rw [hrun, Except.error.inj h])
      · cases b with
        | false =>
          rw [parseAll_end hrun]
          exact fun h => by cases h
        | true =>
          rw [parseAll_next hrun]
          exact ih s' (hcalled.next hrun none)
  exact hrounds _ _ (.start none)

/-- What a return of `receive_inner` appends to the buffer; an exception appends nothing, and no
test of the buffer follows. -/
def RecvResult.received : RecvResult → Option Bytes
  | bytes w => some w
  | timedOut => some []
  | closed => some []
  | failed => none

/-- How a step ends: a call of `stop` sets the flag, an exception of `receive_inner` is reported,
and everything else is a round that tests the buffer, in which the end of the connection sets the
flag. -/
lemma step_ends (s : Receiver) (i : Input) :
    i = .stop ∧ s.step i = ([], .running { s with stopped := true }) ∨
      i = .recv .failed ∧ (∃ ex, s.step i = ([.failed ex], .returned)) ∨
      ∃ result c b, i = .recv result ∧ result.received = some c ∧
        (b = true → s.stopped = true ∨ result = .closed) ∧
        RoundEnds (s.receivedData ++ c) b (s.step i).2 := by
  cases i with
  | stop => exact Or.inl ⟨rfl, rfl⟩
  | recv result =>
    refine Or.inr ?_
    cases result with
    | bytes w => exact Or.inr ⟨_, w, s.stopped, rfl, rfl, Or.inl, append_ends s w⟩
    | timedOut => exact Or.inr ⟨_, [], s.stopped, rfl, rfl, Or.inl, append_ends s []⟩
    | closed =>
      exact Or.inr ⟨_, [], true, rfl, rfl, fun _ => Or.inr rfl,
        append_ends { s with stopped := true } []⟩
    | failed => exact Or.inl ⟨rfl, _, rfl⟩

/-! ## Whole runs -/

namespace Receiver

/-- Every buffer that a run tests has the property `Q`. -/
def Tests (s : Receiver) (is : List Input) (Q : Bytes → Prop) : Prop :=
  ∀ pre result c ns s', pre ++ [.recv result] <+: is → s.run pre = (ns, .running s') →
    result.received = some c → Q (s'.receivedData ++ c)

/-- If the outcome `P` of a round depends on the buffer it tests, a run does not end so exactly if
every buffer that it tests has the property `Q`. -/
lemma run_not_ends_iff {P : Outcome → Prop} {Q : Bytes → Prop} (hrunning : ∀ s, ¬ P (.running s))
    (hreturned : ¬ P .returned)
    (hround : ∀ {data b o}, RoundEnds data b o → (¬ P o ↔ Q data)) :
    ¬ P (s.run is).2 ↔ s.Tests is Q := by
  rw [run_ends_iff hrunning is s]
  constructor
  · intro h pre result c ns s' hpre hrun hc
    rcases step_ends s' (.recv result) with ⟨hi, -⟩ | ⟨hi, -⟩ | ⟨_, c', b, hi, hc', -, hends⟩
    · cases hi
    · cases hi
      cases hc
    · cases hi
      rw [hc] at hc'
      cases hc'
      exact (hround hends).mp fun hP => h ⟨pre, _, ns, s', hpre, hrun, hP⟩
  · rintro h ⟨pre, i, ns, s', hpre, hrun, hP⟩
    rcases step_ends s' i with ⟨-, hi⟩ | ⟨-, ex, hi⟩ | ⟨result, c, b, rfl, hc, -, hends⟩
    · rw [hi] at hP
      exact hrunning _ hP
    · rw [hi] at hP
      exact hreturned hP
    · exact (hround hends).mpr (h pre result c ns s' hpre hrun hc) hP

/-- A run that has returned did so for a good reason.

**Proof sketch.** Induction on the inputs. A first step that returns has reported a failure or found
the flag set; behind another first step, a flag that is set has been set before. -/
lemma excused_of_returned (is : List Input) :
    ∀ s : Receiver, (s.run is).2 = .returned → s.Excused is := by
  induction is with
  | nil =>
    intro s h
    cases h
  | cons i is ih =>
    intro s h
    rw [run] at h
    split at h
    · next ns s' hstep =>
      have hflag : s'.stopped = true → s.stopped = true ∨ i = .stop ∨ i = .recv .closed := by
        intro hs
        rcases step_ends s i with ⟨hi, -⟩ | ⟨-, ex, hi⟩ | ⟨result, c, b, rfl, -, hb, hends⟩
        · exact Or.inr (Or.inl hi)
        · rw [hstep] at hi
          cases hi
        · rw [hstep] at hends
          rcases hb (hends.stopped_eq ▸ hs) with hs | rfl
          · exact Or.inl hs
          · exact Or.inr (Or.inr rfl)
      rcases ih s' h with (hs | hmem | hmem) | ⟨ex, hlast⟩
      · rcases hflag hs with hs | rfl | rfl
        · exact Or.inl (Or.inl hs)
        · exact Or.inl (Or.inr (Or.inl List.mem_cons_self))
        · exact Or.inl (Or.inr (Or.inr List.mem_cons_self))
      · exact Or.inl (Or.inr (Or.inl (List.mem_cons_of_mem i hmem)))
      · exact Or.inl (Or.inr (Or.inr (List.mem_cons_of_mem i hmem)))
      · refine Or.inr ⟨ex, ?_⟩
        rw [run_cons_running hstep, List.getLast?_append, hlast]
        rfl
    · next ns o hnot hstep =>
      obtain rfl : o = .returned := h
      rcases step_ends s i with ⟨-, hi⟩ | ⟨-, ex, hi⟩ | ⟨result, c, b, rfl, -, hb, hends⟩
      · rw [hstep] at hi
        cases hi
      · refine Or.inr ⟨ex, ?_⟩
        rw [run, hi]
        rfl
      · rw [hstep] at hends
        rcases hb hends.stopped_of_returned with hs | rfl
        · exact Or.inl (Or.inl hs)
        · exact Or.inl (Or.inr (Or.inr List.mem_cons_self))

/-- A run survives exactly if it ends neither in an exception nor in a fault.

**Proof sketch.** Where a part of the run ends so, the run does, since one step decides it; and
where it returns, it does so for a good reason. -/
lemma survives_iff : s.Survives is ↔
    ¬ ((∃ ex, (s.run is).2 = .escaped ex) ∨ ∃ f, (s.run is).2 = .fault f) := by
  constructor
  · rintro h (⟨ex, hex⟩ | ⟨f, hf⟩)
    · have := h is (List.prefix_refl is)
      rw [hex] at this
      exact this
    · have := h is (List.prefix_refl is)
      rw [hf] at this
      exact this
  · intro h pre hpre
    have hends := run_ends_iff (P := fun o => (∃ ex, o = .escaped ex) ∨ ∃ f, o = .fault f)
      (by simp)
    have hnot : ¬ ((∃ ex, (s.run pre).2 = .escaped ex) ∨ ∃ f, (s.run pre).2 = .fault f) := by
      intro hP
      obtain ⟨pre', i, ns, s', hpre', hrun, hi⟩ := (hends pre s).mp hP
      exact h ((hends is s).mpr ⟨pre', i, ns, s', hpre'.trans hpre, hrun, hi⟩)
    cases ho : (s.run pre).2 with
    | running s' => trivial
    | returned => exact excused_of_returned pre s ho
    | escaped ex => exact hnot (Or.inl ⟨ex, ho⟩)
    | fault f => exact hnot (Or.inr ⟨f, ho⟩)

end Receiver

end Imapcl
