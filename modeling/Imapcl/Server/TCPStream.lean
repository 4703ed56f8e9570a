import Imapcl.Foundation.StateExcept
import Imapcl.Response.Basic

set_option relaxedAutoImplicit false
set_option autoImplicit false

/-!
# The stream of a socket

`tcp_stream_buffer.cpp` and `tcp_stream.hpp`: a stream buffer whose characters come from `recv`, and
the input stream on it. Of the standard library, the members of `std::streambuf` and `std::istream`
that read one character are modelled.

## Main definitions

* `Imapcl.SocketResult` — what a call of `recv` returns.
* `Imapcl.TCPStreamBuf.underflow` — `TCPStreamBuf::underflow`.
* `Imapcl.TCPStreamBuf.uflow`, `Imapcl.TCPStreamBuf.sgetc`, `Imapcl.TCPStreamBuf.sbumpc` — the
  members of `std::streambuf` that call it.
* `Imapcl.TCPStreamBuf.contents` — the loop over a pair of `std::istreambuf_iterator`.
* `Imapcl.TCPIStream.run` — a sequence of calls of `get` and `peek`.
* `Imapcl.TCPStreamBuf.Unread` — the characters that a stream buffer has not handed out.

## Main results

* `Imapcl.TCPStreamBuf.sgetc_run`, `Imapcl.TCPStreamBuf.sbumpc_run` — what one call answers.
* `Imapcl.TCPIStream.run_eq` — a stream is read like the list of its characters.
* `Imapcl.tcpIStream_faithful` — the characters are those that `recv` has returned.

## Design

A stream buffer carries the results that the calls of `recv` on its socket will have. If there are
none left, the call blocks. The pointers `gptr()` and `egptr()` are offsets in the array `buffer`;
its contents are arbitrary before the first call.
-/

namespace Imapcl

open StateExcept

/-! ## Characters -/

/-- `traits_type::eof()`. -/
def eof : Int := -1

/-- `traits_type::to_int_type`: the conversion goes through `unsigned char`. -/
def toIntType (c : UInt8) : Int := c.toNat

/-- `traits_type::to_char_type`. -/
def toCharType (c : Int) : UInt8 := UInt8.ofInt c

/-- No character is the end of the file. -/
lemma toIntType_ne_eof (c : UInt8) : toIntType c ≠ eof := by
  unfold toIntType eof
  omega

/-- A character is got back from its number. -/
@[simp] lemma toCharType_toIntType (c : UInt8) : toCharType (toIntType c) = c := by
  unfold toCharType toIntType UInt8.ofInt
  have hlt : c.toNat < 2 ^ 8 := c.toNat_lt
  have hmod : ((c.toNat : Int) % 2 ^ 8).toNat = c.toNat := by omega
  rw [hmod]
  exact UInt8.ofNat_toNat

/-! ## The stream buffer -/

/-- `TCPStreamBuf::buffer_size`. -/
def bufferSize : ℕ := 1024

/-- The bytes that a call of `recv` puts into the buffer. -/
structure Chunk where
  bytes : Bytes
  length_pos : 0 < bytes.length
  length_le : bytes.length ≤ bufferSize

/-- What a call of `recv` returns: the number of bytes it has put into the buffer, or a number that
is not positive. -/
inductive SocketResult where
  | received (chunk : Chunk)
  | ended (r : Int) (h : r ≤ 0)

/-- The stream buffer, with the calls of `recv` to come. -/
structure TCPStreamBuf where
  socket : List SocketResult
  buffer : Bytes
  gptr : ℕ
  egptr : ℕ
  length_buffer : buffer.length = bufferSize
  gptr_le : gptr ≤ egptr
  egptr_le : egptr ≤ bufferSize

/-- Why a call does not return: `recv` blocks, or a pointer is out of its range. -/
inductive StreamFault where
  | blocked
  | undefined
  deriving DecidableEq, Repr

namespace TCPStreamBuf

/-- `setg(buffer, buffer, buffer + n)`. -/
def setg (b : TCPStreamBuf) (n : ℕ) (h : n ≤ bufferSize) : TCPStreamBuf :=
  { b with gptr := 0, egptr := n, gptr_le := Nat.zero_le n, egptr_le := h }

/-- The bytes of `chunk` are put into the buffer, and `rest` are the calls of `recv` to come. -/
def store (b : TCPStreamBuf) (chunk : Chunk) (rest : List SocketResult) : TCPStreamBuf :=
  { b with
    socket := rest
    buffer := chunk.bytes ++ b.buffer.drop chunk.bytes.length
    length_buffer := by
      have := chunk.length_le
      have := b.length_buffer
      simp
      omega }

/-- `recv(socket_fd, buffer, buffer_size, 0)`. -/
def recv : StateT TCPStreamBuf (Except StreamFault) SocketResult := fun b =>
  match b.socket with
  | [] => .error .blocked
  | .ended r h :: rest => .ok (.ended r h, { b with socket := rest })
  | .received chunk :: rest => .ok (.received chunk, b.store chunk rest)

/-- `*gptr()`. -/
def current : StateT TCPStreamBuf (Except StreamFault) UInt8 := fun b =>
  match b.buffer[b.gptr]? with
  | none => .error .undefined
  | some c => .ok (c, b)

/-- `gbump(1)`. -/
def gbump : StateT TCPStreamBuf (Except StreamFault) Unit := fun b =>
  if h : b.gptr < b.egptr then .ok ((), { b with gptr := b.gptr + 1, gptr_le := h })
  else .error .undefined

/-- `if (gptr() == egptr()) { ... }` in `underflow`. The answer is `false` if the end of the file is
returned from there. -/
def refill : StateT TCPStreamBuf (Except StreamFault) Bool := do
  let b ← get
  if b.gptr = b.egptr then
    match ← recv with
    | .ended _ _ => return false
    | .received chunk =>
      modify fun b => b.setg chunk.bytes.length chunk.length_le
      return true
  else return true

/-- `TCPStreamBuf::underflow`. -/
def underflow : StateT TCPStreamBuf (Except StreamFault) Int :=
  ifM refill (toIntType <$> current) (pure eof)

/-- `*gptr()++`. -/
def next : StateT TCPStreamBuf (Except StreamFault) Int := do
  let c ← current
  gbump
  return toIntType c

/-- `std::streambuf::uflow`. -/
def uflow : StateT TCPStreamBuf (Except StreamFault) Int := do
  let c ← underflow
  if c = eof then return eof else next

/-- `std::streambuf::sgetc`. -/
def sgetc : StateT TCPStreamBuf (Except StreamFault) Int := do
  let b ← get
  if b.gptr < b.egptr then toIntType <$> current else underflow

/-- `std::streambuf::sbumpc`. -/
def sbumpc : StateT TCPStreamBuf (Except StreamFault) Int := do
  let b ← get
  if b.gptr < b.egptr then next else uflow

/-- `std::string(begin, end)` for a pair of `std::istreambuf_iterator`: as long as the iterator is
not at the end, its character is appended and it is advanced. The fuel bounds the number of
rounds. -/
def contents : ℕ → StateT TCPStreamBuf (Except StreamFault) Bytes
  | 0 => throw .blocked
  | fuel + 1 => do
    let c ← sgetc
    if c = eof then return []
    else
      let _ ← sbumpc
      let rest ← contents fuel
      return toCharType c :: rest

/-! ### Characters not handed out -/

/-- The characters between `gptr()` and `egptr()`. -/
def pending (b : TCPStreamBuf) : Bytes := (b.buffer.take b.egptr).drop b.gptr

/-- The calls of `recv` return the characters of `w`, and then a number that is not positive. -/
inductive Waiting : List SocketResult → Bytes → Prop where
  | ended (r : Int) (h : r ≤ 0) (rest : List SocketResult) : Waiting (.ended r h :: rest) []
  | received (chunk : Chunk) {rest : List SocketResult} {w : Bytes} (h : Waiting rest w) :
      Waiting (.received chunk :: rest) (chunk.bytes ++ w)

/-- The characters that have not been handed out are those of `w`. -/
def Unread (b : TCPStreamBuf) (w : Bytes) : Prop :=
  ∃ v, Waiting b.socket v ∧ w = b.pending ++ v

variable {b : TCPStreamBuf} {c : UInt8} {w : Bytes}

/-- The number of characters between the pointers. -/
@[simp] lemma length_pending (b : TCPStreamBuf) : b.pending.length = b.egptr - b.gptr := by
  have := b.length_buffer
  have := b.egptr_le
  simp only [pending, List.length_drop, List.length_take]
  omega

/-- There is a character before `egptr()` exactly if the pointers differ. -/
lemma pending_ne_nil_iff : b.pending ≠ [] ↔ b.gptr < b.egptr := by
  rw [← List.length_pos_iff, length_pending]
  omega

/-- The character at `gptr()` is the first one between the pointers. -/
lemma current_run (h : b.pending = c :: w) : current.run b = .ok (c, b) := by
  have hlt : b.gptr < b.egptr := pending_ne_nil_iff.mp (by simp [h])
  have hc : b.buffer[b.gptr]? = some c := by
    have := congrArg List.head? h
    simpa [pending, hlt] using this
  simp [current, StateT.run, hc]

/-- The characters of a chunk are between the pointers after `recv` and `setg`. -/
lemma pending_store (b : TCPStreamBuf) (chunk : Chunk) (rest : List SocketResult) :
    ((b.store chunk rest).setg chunk.bytes.length chunk.length_le).pending = chunk.bytes := by
  simp [pending, setg, store]

/-- Nothing is refilled while there are characters between the pointers. -/
lemma refill_run_of_lt (h : b.gptr < b.egptr) : refill.run b = .ok (true, b) := by
  have hne : b.gptr ≠ b.egptr := Nat.ne_of_lt h
  rw [refill, run_bind_of_ok (StateT.run_get _), if_neg hne]
  rfl

/-- A refill with the bytes of a chunk. -/
lemma refill_run_of_received {chunk : Chunk} {rest : List SocketResult} (h : b.gptr = b.egptr)
    (hsocket : b.socket = .received chunk :: rest) :
    refill.run b =
      .ok (true, (b.store chunk rest).setg chunk.bytes.length chunk.length_le) := by
  have hrecv : recv.run b = .ok (.received chunk, b.store chunk rest) := by
    simp [recv, StateT.run, hsocket]
  rw [refill, run_bind_of_ok (StateT.run_get _), if_pos h,
    run_bind_of_ok hrecv]
  rfl

/-- A refill at the end of the file. -/
lemma refill_run_of_ended {r : Int} {hr : r ≤ 0} {rest : List SocketResult} (h : b.gptr = b.egptr)
    (hsocket : b.socket = .ended r hr :: rest) :
    refill.run b = .ok (false, { b with socket := rest }) := by
  have hrecv : recv.run b = .ok (.ended r hr, { b with socket := rest }) := by
    simp [recv, StateT.run, hsocket]
  rw [refill, run_bind_of_ok (StateT.run_get _), if_pos h,
    run_bind_of_ok hrecv]
  rfl

/-- If the pointers are equal, all characters are still to be received. -/
lemma Unread.waiting (h : Unread b w) (hptr : b.gptr = b.egptr) : Waiting b.socket w := by
  obtain ⟨v, hv, rfl⟩ := h
  have hnil : b.pending = [] := List.eq_nil_of_length_eq_zero (by simp [hptr])
  rwa [hnil, List.nil_append]

/-- The pointers are equal if there are no characters left. -/
lemma Unread.not_lt (h : Unread b []) : ¬ b.gptr < b.egptr := by
  obtain ⟨v, -, hv⟩ := h
  intro hlt
  exact pending_ne_nil_iff.mpr hlt (List.append_eq_nil_iff.mp hv.symm).1

/-- A refill leaves the characters as they are, and the first one is between the pointers then. -/
lemma refill_run_true (h : Unread b (c :: w)) :
    ∃ b', refill.run b = .ok (true, b') ∧ Unread b' (c :: w) ∧ b'.gptr < b'.egptr := by
  by_cases hlt : b.gptr < b.egptr
  · exact ⟨b, refill_run_of_lt hlt, h, hlt⟩
  · have hptr : b.gptr = b.egptr := Nat.le_antisymm b.gptr_le (Nat.le_of_not_lt hlt)
    have hwaiting := h.waiting hptr
    generalize hsocket : b.socket = socket at hwaiting
    generalize hcw : c :: w = cw at hwaiting
    cases hwaiting with
    | ended r hr rest => cases hcw
    | received chunk hv =>
      exact ⟨_, refill_run_of_received hptr hsocket,
        ⟨_, hv, by rw [pending_store]⟩, chunk.length_pos⟩

/-- A refill without any characters left ends in the end of the file. -/
lemma refill_run_false (h : Unread b []) : ∃ b', refill.run b = .ok (false, b') := by
  have hptr : b.gptr = b.egptr := Nat.le_antisymm b.gptr_le (Nat.le_of_not_lt h.not_lt)
  have hwaiting := h.waiting hptr
  generalize hsocket : b.socket = socket at hwaiting
  generalize hnil : ([] : Bytes) = v at hwaiting
  cases hwaiting with
  | ended r hr rest => exact ⟨_, refill_run_of_ended hptr hsocket⟩
  | received chunk hv =>
    have := chunk.length_pos
    simp [(List.append_eq_nil_iff.mp hnil.symm).1] at this

/-! ### Calls -/

/-- The first of the characters is at `gptr()` if the pointers differ. -/
lemma Unread.pending_eq (h : Unread b (c :: w)) (hlt : b.gptr < b.egptr) :
    ∃ p, b.pending = c :: p ∧ ∃ v, Waiting b.socket v ∧ w = p ++ v := by
  obtain ⟨v, hv, heq⟩ := h
  cases hp : b.pending with
  | nil => exact absurd hp (pending_ne_nil_iff.mpr hlt)
  | cons d p =>
    rw [hp, List.cons_append] at heq
    obtain ⟨rfl, rfl⟩ := List.cons.inj heq
    exact ⟨p, rfl, v, hv, rfl⟩

/-- The character at `gptr()` is looked at. -/
lemma peek_run (h : Unread b (c :: w)) (hlt : b.gptr < b.egptr) :
    (toIntType <$> current : StateT TCPStreamBuf (Except StreamFault) Int).run b =
      .ok (toIntType c, b) := by
  obtain ⟨p, hp, -⟩ := h.pending_eq hlt
  rw [StateT.run_map, current_run hp]
  rfl

/-- The character at `gptr()` is handed out. -/
lemma next_run (h : Unread b (c :: w)) (hlt : b.gptr < b.egptr) :
    ∃ b', next.run b = .ok (toIntType c, b') ∧ Unread b' w := by
  obtain ⟨p, hp, v, hv, rfl⟩ := h.pending_eq hlt
  have hbump : gbump.run b = .ok ((), { b with gptr := b.gptr + 1, gptr_le := hlt }) := dif_pos hlt
  refine ⟨{ b with gptr := b.gptr + 1, gptr_le := hlt }, ?_, v, hv, ?_⟩
  · rw [next, run_bind_of_ok (current_run hp), run_bind_of_ok hbump]
    rfl
  · have htail := congrArg List.tail hp
    simp only [pending, List.tail_drop, List.tail_cons] at htail
    rw [pending, htail]

/-- `underflow` answers the first character and leaves it to be handed out. -/
lemma underflow_run (h : Unread b (c :: w)) :
    ∃ b', underflow.run b = .ok (toIntType c, b') ∧ Unread b' (c :: w) ∧ b'.gptr < b'.egptr := by
  obtain ⟨b', hrefill, hb', hlt⟩ := refill_run_true h
  exact ⟨b', by rw [underflow, ifM_run_true hrefill, peek_run hb' hlt], hb', hlt⟩

/-- `underflow` answers the end of the file if there are no characters left. -/
lemma underflow_run_eof (h : Unread b []) : ∃ b', underflow.run b = .ok (eof, b') := by
  obtain ⟨b', hrefill⟩ := refill_run_false h
  exact ⟨b', by rw [underflow, ifM_run_false hrefill]; rfl⟩

/-- `sgetc` answers the first character and leaves it to be handed out. -/
lemma sgetc_run (h : Unread b (c :: w)) :
    ∃ b', sgetc.run b = .ok (toIntType c, b') ∧ Unread b' (c :: w) := by
  rw [sgetc, run_bind_of_ok (StateT.run_get _)]
  split
  · next hlt => exact ⟨b, peek_run h hlt, h⟩
  · obtain ⟨b', hrun, hb', -⟩ := underflow_run h
    exact ⟨b', hrun, hb'⟩

/-- `sbumpc` answers the first character and hands it out. -/
lemma sbumpc_run (h : Unread b (c :: w)) :
    ∃ b', sbumpc.run b = .ok (toIntType c, b') ∧ Unread b' w := by
  rw [sbumpc, run_bind_of_ok (StateT.run_get _)]
  split
  · next hlt => exact next_run h hlt
  · obtain ⟨b₁, hrun, hb₁, hlt⟩ := underflow_run h
    obtain ⟨b', hnext, hb'⟩ := next_run hb₁ hlt
    refine ⟨b', ?_, hb'⟩
    rw [uflow, run_bind_of_ok hrun, if_neg (toIntType_ne_eof c), hnext]

/-- `sgetc` answers the end of the file if there are no characters left. -/
lemma sgetc_run_eof (h : Unread b []) : ∃ b', sgetc.run b = .ok (eof, b') := by
  rw [sgetc, run_bind_of_ok (StateT.run_get _), if_neg h.not_lt]
  exact underflow_run_eof h

/-- `sbumpc` answers the end of the file if there are no characters left. -/
lemma sbumpc_run_eof (h : Unread b []) : ∃ b', sbumpc.run b = .ok (eof, b') := by
  obtain ⟨b', hrun⟩ := underflow_run_eof h
  rw [sbumpc, run_bind_of_ok (StateT.run_get _), if_neg h.not_lt]
  exact ⟨b', by rw [uflow, run_bind_of_ok hrun]; rfl⟩

/-- The loop over the iterators reads all characters. -/
lemma contents_run (h : Unread b w) {fuel : ℕ} (hfuel : w.length < fuel) :
    ∃ b', (contents fuel).run b = .ok (w, b') := by
  induction w generalizing b fuel with
  | nil =>
    obtain ⟨fuel, rfl⟩ := Nat.exists_eq_succ_of_ne_zero (Nat.ne_zero_of_lt hfuel)
    obtain ⟨b', hrun⟩ := sgetc_run_eof h
    exact ⟨b', by rw [contents, run_bind_of_ok hrun]; rfl⟩
  | cons c w ih =>
    obtain ⟨fuel, rfl⟩ := Nat.exists_eq_succ_of_ne_zero (Nat.ne_zero_of_lt hfuel)
    obtain ⟨b₁, hget, hb₁⟩ := sgetc_run h
    obtain ⟨b₂, hbump, hb₂⟩ := sbumpc_run hb₁
    obtain ⟨b', hrest⟩ := ih hb₂ (Nat.lt_of_succ_lt_succ hfuel)
    refine ⟨b', ?_⟩
    rw [contents, run_bind_of_ok hget, if_neg (toIntType_ne_eof c),
      run_bind_of_ok hbump, run_bind_of_ok hrest, toCharType_toIntType]
    rfl

end TCPStreamBuf

/-! ## The input stream -/

/-- The input stream: its buffer, and whether it is `good()`. -/
structure TCPIStream where
  buf : TCPStreamBuf
  good : Bool

/-- A call that reads one character: `get` hands it out, and `peek` only looks at it. -/
inductive ReadCall where
  | get
  | peek
  deriving DecidableEq, Repr

/-- The member of the stream buffer that a call rests on. -/
def ReadCall.member : ReadCall → StateT TCPStreamBuf (Except StreamFault) Int
  | .get => TCPStreamBuf.sbumpc
  | .peek => TCPStreamBuf.sgetc

namespace TCPIStream

/-- `TCPIStream::TCPIStream`: the buffer is empty, and its array is not initialized. -/
def opened (array : {w : Bytes // w.length = bufferSize}) (socket : List SocketResult) :
    TCPIStream where
  buf :=
    { socket := socket
      buffer := array.1
      gptr := 0
      egptr := 0
      length_buffer := array.2
      gptr_le := Nat.le_refl 0
      egptr_le := Nat.zero_le bufferSize }
  good := true

/-- A member of the stream buffer, called through the stream. -/
def rdbuf {α : Type} (p : StateT TCPStreamBuf (Except StreamFault) α) :
    StateT TCPIStream (Except StreamFault) α := fun s =>
  match p.run s.buf with
  | .error e => .error e
  | .ok (a, b) => .ok (a, { s with buf := b })

/-- `std::istream::get` and `std::istream::peek`: a stream that is not good answers the end of the
file, and a stream that comes to the end of the file is not good from there on. -/
def call (op : ReadCall) : StateT TCPIStream (Except StreamFault) Int := do
  if (← get).good then
    let c ← rdbuf op.member
    if c = eof then
      modify fun s => { s with good := false }
      return eof
    else return c
  else return eof

/-- A sequence of calls, with their answers. -/
def run : List ReadCall → StateT TCPIStream (Except StreamFault) (List Int)
  | [] => return []
  | op :: ops => do
    let c ← call op
    let cs ← run ops
    return c :: cs

/-- What a call answers on a list of characters, and the list it leaves. -/
def answer : ReadCall → Bytes → Int × Bytes
  | _, [] => (eof, [])
  | .get, c :: w => (toIntType c, w)
  | .peek, c :: w => (toIntType c, c :: w)

/-- What a sequence of calls answers on a list of characters. -/
def answers : List ReadCall → Bytes → List Int
  | [], _ => []
  | op :: ops, w => (answer op w).1 :: answers ops (answer op w).2

/-- The characters that are left in a stream. -/
def Left (s : TCPIStream) (w : Bytes) : Prop := if s.good then s.buf.Unread w else w = []

variable {s : TCPIStream} {w : Bytes}

/-- A member of the stream buffer that returns. -/
lemma rdbuf_run {α : Type} {p : StateT TCPStreamBuf (Except StreamFault) α} {a : α}
    {b : TCPStreamBuf} (h : p.run s.buf = .ok (a, b)) :
    (rdbuf p).run s = .ok (a, { s with buf := b }) := by
  simp only [rdbuf, StateT.run] at h ⊢
  rw [h]

/-- A call that gets a character from the stream buffer. -/
lemma call_run {op : ReadCall} {c : UInt8} {b : TCPStreamBuf} (hgood : s.good = true)
    (h : (op.member).run s.buf = .ok (toIntType c, b)) :
    (call op).run s = .ok (toIntType c, { s with buf := b }) := by
  rw [call, run_bind_of_ok (StateT.run_get _), if_pos hgood,
    run_bind_of_ok (rdbuf_run h), if_neg (toIntType_ne_eof c)]
  rfl

/-- A call that comes to the end of the file. -/
lemma call_run_eof {op : ReadCall} {b : TCPStreamBuf} (hgood : s.good = true)
    (h : (op.member).run s.buf = .ok (eof, b)) :
    (call op).run s = .ok (eof, { buf := b, good := false }) := by
  rw [call, run_bind_of_ok (StateT.run_get _), if_pos hgood,
    run_bind_of_ok (rdbuf_run h), if_pos rfl]
  rfl

/-- A call answers as it does on the list of the characters that are left. -/
lemma call_eq (h : s.Left w) (op : ReadCall) :
    ∃ s', (call op).run s = .ok ((answer op w).1, s') ∧ s'.Left (answer op w).2 := by
  cases hgood : s.good with
  | false =>
    obtain rfl : w = [] := by simpa [Left, hgood] using h
    refine ⟨s, ?_, ?_⟩
    · rw [call, run_bind_of_ok (StateT.run_get _), if_neg (by simp [hgood]), answer]
      rfl
    · simpa only [answer] using h
  | true =>
    have hunread : s.buf.Unread w := by simpa [Left, hgood] using h
    cases w with
    | nil =>
      have hrun : ∃ b, op.member.run s.buf = .ok (eof, b) := by
        cases op with
        | get => exact TCPStreamBuf.sbumpc_run_eof hunread
        | peek => exact TCPStreamBuf.sgetc_run_eof hunread
      obtain ⟨b, hb⟩ := hrun
      refine ⟨{ buf := b, good := false }, ?_, ?_⟩
      · rw [call_run_eof hgood hb, answer]
      · simp [Left, answer]
    | cons c w =>
      cases op with
      | get =>
        obtain ⟨b, hrun, hb⟩ := TCPStreamBuf.sbumpc_run hunread
        exact ⟨_, call_run hgood hrun, by simpa [Left, hgood, answer] using hb⟩
      | peek =>
        obtain ⟨b, hrun, hb⟩ := TCPStreamBuf.sgetc_run hunread
        exact ⟨_, call_run hgood hrun, by simpa [Left, hgood, answer] using hb⟩

/-- A sequence of calls answers as it does on the list of the characters that are left. -/
lemma run_eq (h : s.Left w) (ops : List ReadCall) :
    ∃ s', (run ops).run s = .ok (answers ops w, s') := by
  induction ops generalizing s w with
  | nil => exact ⟨s, rfl⟩
  | cons op ops ih =>
    obtain ⟨s₁, hcall, hs₁⟩ := call_eq h op
    obtain ⟨s', hrest⟩ := ih hs₁
    refine ⟨s', ?_⟩
    rw [run, run_bind_of_ok hcall, run_bind_of_ok hrest]
    rfl

/-- Getting characters one at a time from a list. -/
lemma answers_get (k : ℕ) : answers (.replicate k .get) w =
    (w.take k).map toIntType ++ .replicate (k - w.length) eof := by
  induction k generalizing w with
  | zero => simp [answers]
  | succ k ih =>
    cases w with
    | nil => simp [answers, answer, ih, List.replicate_succ]
    | cons c w => simp [answers, answer, ih, List.replicate_succ]

/-- Reading the stream one character at a time yields `w`, and then the end of the file. -/
structure Yields (s : TCPIStream) (w : Bytes) : Prop where
  /-- `k` calls of `get`. -/
  gets : ∀ k, ∃ s', (run (.replicate k .get)).run s =
    .ok ((w.take k).map toIntType ++ .replicate (k - w.length) eof, s')
  /-- Any calls of `get` and `peek`. -/
  calls : ∀ ops, ∃ s', (run ops).run s = .ok (answers ops w, s')
  /-- The loop over the iterators. -/
  contents : ∀ k, ∃ s', (rdbuf (TCPStreamBuf.contents (w.length + 1 + k))).run s = .ok (w, s')

end TCPIStream

/-- The characters of the chunks are waited for. -/
lemma TCPStreamBuf.waiting_map (chunks : List Chunk) (r : {r : Int // r ≤ 0})
    (rest : List SocketResult) :
    Waiting (chunks.map .received ++ .ended r.1 r.2 :: rest) (chunks.flatMap Chunk.bytes) := by
  induction chunks with
  | nil => exact .ended r.1 r.2 rest
  | cons chunk chunks ih => exact .received chunk ih

/-- **The stream of a socket.** If the calls of `recv` return some chunks and then a number that is
not positive, reading the stream one character at a time yields the bytes of the chunks, and the end
of the file after the last one of them; and no byte is taken for the end of the file.

**Proof sketch.** The characters that have not been handed out are those between the pointers and
those that `recv` has not returned yet (`TCPStreamBuf.Unread`). A refill moves a chunk from the
latter to the former, and a call hands out the first one, so that every call answers as on the list
of the characters (`TCPIStream.call_eq`). -/
theorem tcpIStream_faithful (array : {w : Bytes // w.length = bufferSize}) (chunks : List Chunk)
    (r : {r : Int // r ≤ 0}) (rest : List SocketResult) :
    (TCPIStream.opened array (chunks.map .received ++ .ended r.1 r.2 :: rest)).Yields
      (chunks.flatMap Chunk.bytes) ∧ ∀ c, toIntType c ≠ eof := by
  have hunread : (TCPIStream.opened array
      (chunks.map .received ++ .ended r.1 r.2 :: rest)).buf.Unread (chunks.flatMap Chunk.bytes) :=
    ⟨_, TCPStreamBuf.waiting_map chunks r rest, by simp [TCPIStream.opened, TCPStreamBuf.pending]⟩
  have hleft : (TCPIStream.opened array
      (chunks.map .received ++ .ended r.1 r.2 :: rest)).Left (chunks.flatMap Chunk.bytes) :=
    (if_pos rfl).mpr hunread
  refine ⟨⟨fun k => ?_, TCPIStream.run_eq hleft, fun k => ?_⟩, toIntType_ne_eof⟩
  · rw [← TCPIStream.answers_get]
    exact TCPIStream.run_eq hleft _
  · have hfuel : (chunks.flatMap Chunk.bytes).length <
        (chunks.flatMap Chunk.bytes).length + 1 + k := by omega
    obtain ⟨b, hrun⟩ := TCPStreamBuf.contents_run hunread hfuel
    exact ⟨_, TCPIStream.rdbuf_run hrun⟩

end Imapcl
