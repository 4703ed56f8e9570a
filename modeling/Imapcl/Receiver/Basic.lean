import Imapcl.Parser.Stream

set_option relaxedAutoImplicit false
set_option autoImplicit false

/-!
# The receiver

The receiving thread (`receiver.cpp`): it appends what `recv` returns to a buffer, and parses and
empties the buffer as soon as the buffer looks complete. What the thread tells the session is a
list of notices; what `recv` does, and calls of `stop` from the main thread, are its inputs.

## Design

* A round of the loop is `Imapcl.Receiver.round`. `Imapcl.Receiver.step` adds the input `stop`,
  which only sets the flag.
* The session dereferences the pointer that a notice hands it, so handing over a null pointer is
  undefined.
* The exceptions that leave the thread function are those thrown outside of the two `try` blocks.

## Main definitions

* `Imapcl.RecvResult`, `Imapcl.Input`, `Imapcl.Notice`, `Imapcl.Outcome`.
* `Imapcl.bufferComplete` — the test for a complete buffer.
* `Imapcl.Receiver.step`, `Imapcl.Receiver.run` — one input, a sequence of inputs.
* `Imapcl.receiveChunks` — the thread on the chunks that `recv` returns.
* `Imapcl.Overlong`, `Imapcl.ParsesSafely` — the exception, and the faults of the parser.
* `Imapcl.RoundEnds` — how a round ends.

## Main results

* `Imapcl.append_ends` — all that decides how a round ends is the buffer it tests.
-/

namespace Imapcl

/-! ## Inputs and outputs -/

/-- What a call of `recv` in `receive_inner` does: it returns bytes, gives up after the timeout,
reports the end of the connection, or fails. -/
inductive RecvResult where
  | bytes (w : Bytes)
  | timedOut
  | closed
  | failed
  deriving DecidableEq, Repr

/-- An input of the receiving thread: a return of `recv`, or a call of `stop`. -/
inductive Input where
  | recv (result : RecvResult)
  | stop
  deriving DecidableEq, Repr

/-- A call of `Session::notify_incoming` or `Session::receiver_notify_failed`. -/
inductive Notice where
  | incoming (response : Response)
  | failed (ex : StdException)
  deriving DecidableEq, Repr

/-- The thread's own data: `received_data` and `stopped`. -/
structure Receiver where
  receivedData : Bytes
  stopped : Bool
  deriving DecidableEq, Repr

/-- Where a round leaves the thread: at the next round, returned, ended by an exception, or in a
fault. -/
inductive Outcome where
  | running (s : Receiver)
  | returned
  | escaped (ex : StdException)
  | fault (f : Fault)
  deriving DecidableEq, Repr

/-! ## One round -/

/-- `RECVMESSAGE_MAXLEN`. -/
def recvMessageMaxlen : ℕ := 32000

/-- `!data.empty() && (data.size() < 2 || data.substr(data.size() - 2) == "\r\n")`. -/
def bufferComplete (data : Bytes) : Prop :=
  data ≠ [] ∧ (data.length < 2 ∨ data.drop (data.length - 2) = crlf)

instance (data : Bytes) : Decidable (bufferComplete data) := by
  unfold bufferComplete
  infer_instance

/-- What the session is told during a run of the parser, and where the round ends: an exception is
reported, and the buffer is emptied in any case. -/
def notify (stopped : Bool) (result : Except Fault ResponseParser) :
    List (Option Response) → List Notice × Outcome
  | none :: _ => ([], .fault .undefined)
  | some response :: rest =>
    let tail := notify stopped result rest
    (.incoming response :: tail.1, tail.2)
  | [] => match result with
    | .ok _ => ([], .running ⟨[], stopped⟩)
    | .error (.thrown ex) => ([.failed ex], .running ⟨[], stopped⟩)
    | .error f => ([], .fault f)

namespace Receiver

/-- The part of a round after `receive_inner` has returned `chunk`. -/
def append (s : Receiver) (chunk : Bytes) : List Notice × Outcome :=
  let data := s.receivedData ++ chunk
  if bufferComplete data then notify s.stopped (parseBuffer data).2 (parseBuffer data).1
  else if data.length = recvMessageMaxlen then
    ([], .escaped (.logicError (ascii "Data received longer than maximum supported length!")))
  else if s.stopped then ([], .returned)
  else ([], .running ⟨data, s.stopped⟩)

/-- A round of `receive`. -/
def round (s : Receiver) : RecvResult → List Notice × Outcome
  | .bytes w => s.append w
  | .timedOut => s.append []
  | .closed => append { s with stopped := true } []
  | .failed => ([.failed (.runtimeError (ascii "recv() failed"))], .returned)

/-- One input. -/
def step (s : Receiver) : Input → List Notice × Outcome
  | .recv result => s.round result
  | .stop => ([], .running { s with stopped := true })

/-- A sequence of inputs; what comes after the thread has ended is not read. -/
def run (s : Receiver) : List Input → List Notice × Outcome
  | [] => ([], .running s)
  | i :: is =>
    match s.step i with
    | (ns, .running s') =>
      let rest := s'.run is
      (ns ++ rest.1, rest.2)
    | (ns, o) => (ns, o)

/-! ## Running -/

variable {s s' : Receiver} {i : Input} {is : List Input} {ns : List Notice}

/-- A step that leaves the thread running is followed by the rest of the run. -/
lemma run_cons_running (h : s.step i = (ns, .running s')) :
    s.run (i :: is) = (ns ++ (s'.run is).1, (s'.run is).2) := by
  rw [run, h]

/-- The notices of the first step are notices of the run. -/
lemma step_subset_run : (s.step i).1 ⊆ (s.run (i :: is)).1 := by
  rw [run]
  split
  · next ns s' h =>
    rw [h]
    exact List.subset_append_left ns _
  · next ns o _ h =>
    rw [h]
    exact List.Subset.refl ns

/-- A step into a fault ends the run there. -/
lemma run_cons_fault {f : Fault} (h : s.step i = (ns, .fault f)) :
    s.run (i :: is) = (ns, .fault f) := by
  rw [run, h]

end Receiver

/-- `recv` returns one chunk after the other. -/
def inputs (chunks : List Bytes) : List Input := chunks.map fun w => .recv (.bytes w)

/-- `receive`, at the start of the program, on the chunks that `recv` returns. -/
def receiveChunks (chunks : List Bytes) : List Notice × Outcome :=
  Receiver.run ⟨[], false⟩ (inputs chunks)

/-- A single chunk is one round. -/
lemma receiveChunks_one (data : Bytes) :
    receiveChunks [data] = Receiver.append ⟨[], false⟩ data := by
  cases h : Receiver.append ⟨[], false⟩ data with
  | mk ns o =>
    have hstep : Receiver.step ⟨[], false⟩ (.recv (.bytes data)) = (ns, o) := h
    rw [receiveChunks, inputs, List.map_singleton]
    cases o with
    | running s =>
      rw [Receiver.run_cons_running hstep, Receiver.run, List.append_nil]
    | _ => rw [Receiver.run, hstep]

/-! ## What the session is told -/

section Notify

variable (stopped : Bool) (result : Except Fault ResponseParser)

/-- The responses before the end of a run of the parser are all handed over. -/
lemma notify_append (rs : List Response) (rest : List (Option Response)) :
    notify stopped result (rs.map some ++ rest) =
      (rs.map .incoming ++ (notify stopped result rest).1, (notify stopped result rest).2) := by
  induction rs with
  | nil => rfl
  | cons r rs ih =>
    rw [List.map_cons, List.cons_append, notify, ih]
    rfl

/-- Responses only, without a fault. -/
lemma notify_ok (rs : List Response) (s : ResponseParser) :
    notify stopped (.ok s) (rs.map some) = (rs.map .incoming, .running ⟨[], stopped⟩) := by
  have h := notify_append stopped (.ok s) rs []
  rw [List.append_nil] at h
  rw [h, notify, List.append_nil]

/-- Where the thread goes on, no null pointer has been handed over. -/
lemma exists_of_notify_running {xs : List (Option Response)} {s : Receiver}
    (h : (notify stopped result xs).2 = .running s) : ∃ rs : List Response, xs = rs.map some := by
  induction xs with
  | nil => exact ⟨[], rfl⟩
  | cons x xs ih =>
    cases x with
    | none => cases h
    | some r =>
      obtain ⟨rs, rfl⟩ := ih h
      exact ⟨r :: rs, rfl⟩

/-- A run of the parser that ends in a fault is reported, or is a fault of the thread. -/
lemma notify_error (rs : List Response) (f : Fault) :
    (∃ ex, .failed ex ∈ (notify stopped (.error f) (rs.map some)).1) ∨
      ∃ f', (notify stopped (.error f) (rs.map some)).2 = .fault f' := by
  have h := notify_append stopped (.error f) rs []
  rw [List.append_nil] at h
  rw [h]
  cases f with
  | thrown ex => exact Or.inl ⟨ex, List.mem_append_right _ (List.mem_singleton_self _)⟩
  | undefined => exact Or.inr ⟨.undefined, rfl⟩
  | diverges => exact Or.inr ⟨.diverges, rfl⟩

end Notify

/-! ## How a round ends -/

/-- The buffer is not taken for complete and has exactly the maximal length. -/
def Overlong (data : Bytes) : Prop := ¬ bufferComplete data ∧ data.length = recvMessageMaxlen

/-- Parsing the data hands over no null pointer, and ends without a fault: at most by an exception,
which is caught. -/
def ParsesSafely (data : Bytes) : Prop :=
  none ∉ (parseBuffer data).1 ∧ ∀ f, (parseBuffer data).2 = .error f → ∃ ex, f = .thrown ex

/-- How a round that tests the buffer `data` ends. -/
inductive RoundEnds (data : Bytes) (stopped : Bool) : Outcome → Prop where
  | parsed (hc : bufferComplete data) (hp : ParsesSafely data) :
    RoundEnds data stopped (.running ⟨[], stopped⟩)
  | broken (hc : bufferComplete data) (hp : ¬ ParsesSafely data) (f : Fault) :
    RoundEnds data stopped (.fault f)
  | overlong (h : Overlong data) (ex : StdException) : RoundEnds data stopped (.escaped ex)
  | left (h : ¬ bufferComplete data) (ho : ¬ Overlong data) (hs : stopped = true) :
    RoundEnds data stopped .returned
  | kept (h : ¬ bufferComplete data) (ho : ¬ Overlong data) :
    RoundEnds data stopped (.running ⟨data, stopped⟩)

namespace RoundEnds

variable {data : Bytes} {stopped : Bool} {o : Outcome} {s : Receiver}

/-- The exception is thrown exactly if the buffer is overlong. -/
lemma escaped_iff (h : RoundEnds data stopped o) : (∃ ex, o = .escaped ex) ↔ Overlong data := by
  cases h with
  | parsed hc hp => simp [Overlong, hc]
  | broken hc hp f => simp [Overlong, hc]
  | overlong ho ex => simp [ho]
  | left hc ho hs => simp [ho]
  | kept hc ho => simp [ho]

/-- There is a fault exactly if the buffer is taken for complete and not parsed safely. -/
lemma fault_iff (h : RoundEnds data stopped o) :
    (∃ f, o = .fault f) ↔ bufferComplete data ∧ ¬ ParsesSafely data := by
  cases h with
  | parsed hc hp => simp [hp]
  | broken hc hp f => simp [hc, hp]
  | overlong ho ex => simp [ho.1]
  | left hc ho hs => simp [hc]
  | kept hc ho => simp [hc]

/-- The loop is left only if the flag is set. -/
lemma stopped_of_returned (h : RoundEnds data stopped .returned) : stopped = true := by
  cases h with
  | left hc ho hs => exact hs

/-- A round does not change the flag. -/
lemma stopped_eq (h : RoundEnds data stopped (.running s)) : s.stopped = stopped := by
  cases h <;> rfl

/-- A round that leaves the thread running empties the buffer or keeps it. -/
lemma buffer_eq (h : RoundEnds data stopped (.running s)) :
    s.receivedData = [] ∨ s.receivedData = data := by
  cases h with
  | parsed hc hp => exact Or.inl rfl
  | kept hc ho => exact Or.inr rfl

end RoundEnds

/-- Without a null pointer or a fault of the parser, the thread goes on with an empty buffer. -/
lemma notify_safe (stopped : Bool) {result : Except Fault ResponseParser}
    {rs : List (Option Response)} (hnull : none ∉ rs)
    (hresult : ∀ f, result = .error f → ∃ ex, f = .thrown ex) :
    (notify stopped result rs).2 = .running ⟨[], stopped⟩ := by
  induction rs with
  | nil =>
    cases result with
    | ok s => rfl
    | error f =>
      obtain ⟨ex, rfl⟩ := hresult f rfl
      rfl
  | cons r rs ih =>
    rw [List.mem_cons, not_or] at hnull
    cases r with
    | none => exact absurd rfl hnull.1
    | some r => exact ih hnull.2

/-- With one of them, the round ends in a fault. -/
lemma notify_unsafe (stopped : Bool) {result : Except Fault ResponseParser}
    {rs : List (Option Response)}
    (h : ¬ (none ∉ rs ∧ ∀ f, result = .error f → ∃ ex, f = .thrown ex)) :
    ∃ f, (notify stopped result rs).2 = .fault f := by
  induction rs with
  | nil =>
    cases result with
    | ok s => simp at h
    | error f =>
      cases f with
      | thrown ex => simp at h
      | undefined => exact ⟨_, rfl⟩
      | diverges => exact ⟨_, rfl⟩
  | cons r rs ih =>
    cases r with
    | none => exact ⟨_, rfl⟩
    | some r => exact ih (by simpa using h)

/-- How a round ends. -/
lemma append_ends (s : Receiver) (c : Bytes) :
    RoundEnds (s.receivedData ++ c) s.stopped (s.append c).2 := by
  rw [Receiver.append]
  by_cases hc : bufferComplete (s.receivedData ++ c)
  · rw [if_pos hc]
    by_cases hp : ParsesSafely (s.receivedData ++ c)
    · rw [notify_safe s.stopped hp.1 hp.2]
      exact .parsed hc hp
    · obtain ⟨f, hf⟩ := notify_unsafe s.stopped hp
      rw [hf]
      exact .broken hc hp f
  · rw [if_neg hc]
    by_cases hlen : (s.receivedData ++ c).length = recvMessageMaxlen
    · rw [if_pos hlen]
      exact .overlong ⟨hc, hlen⟩ _
    · rw [if_neg hlen]
      cases hs : s.stopped with
      | true => exact .left hc (fun ho => hlen ho.2) rfl
      | false => exact .kept hc fun ho => hlen ho.2

end Imapcl
