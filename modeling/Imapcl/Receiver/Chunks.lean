import Imapcl.Parser.Truncated
import Imapcl.Receiver.Basic

set_option relaxedAutoImplicit false
set_option autoImplicit false

/-!
# Receiving a stream in chunks

`recv` may return the bytes of a stream in any portions. The receiver takes its buffer for
complete when the buffer is one byte long or ends in CRLF; this file characterises the chunkings
for which it hands the session exactly the responses of the stream.

## Main definitions

* `Imapcl.Stream.Boundary` — the ends of the responses of a stream.
* `Imapcl.Stream.CutOk` — a chunk that the receiver does not take for the end of a response.

## Main results

* `Imapcl.run_chunks_iff` — the chunkings that are received correctly.
* `Imapcl.chunking_fetch_iff` — chunks of at least two bytes of a stream of FETCH responses.
* `Imapcl.chunking_line_iff` — arbitrary chunks of a stream of line responses.
-/

namespace Imapcl

open Cursor

variable {a b c d t u v w : Bytes} {xs ys zs : List WireResponse}

/-! ## Streams and their boundaries -/

/-- The position after `w` is the start or the end of a response of the stream. -/
def Stream.Boundary (xs : List WireResponse) (w : Bytes) : Prop :=
  ∃ ys, ys <+: xs ∧ w = Stream.wire ys

/-- The chunk `c` after the bytes `a` of the stream: at the start of a response it is not a single
byte, and if it ends in CRLF, a response ends there. -/
def Stream.CutOk (xs : List WireResponse) (a c : Bytes) : Prop :=
  (Stream.Boundary xs a → c.length ≠ 1) ∧ (crlf <:+ a ++ c → Stream.Boundary xs (a ++ c))

/-- The wire form of a concatenation. -/
lemma wire_append : Stream.wire (ys ++ zs) = Stream.wire ys ++ Stream.wire zs :=
  List.flatMap_append

/-- The wire form of a prefix is a prefix. -/
lemma wire_isPrefix (h : ys <+: xs) : Stream.wire ys <+: Stream.wire xs := by
  obtain ⟨zs, rfl⟩ := h
  rw [wire_append]
  exact List.prefix_append _ _

/-- A response begins with a star or with an alphanumeric character, and has more bytes. -/
lemma exists_wire_eq_cons (x : WireResponse) :
    ∃ c w, x.wire = c :: w ∧ (c = byte '*' ∨ isAlnum c = true) ∧ w ≠ [] := by
  cases x with
  | tagged tag c t =>
    cases hb : tag.bytes with
    | nil => exact absurd hb tag.nonempty
    | cons c₀ w =>
      have hc := tag.alnum c₀ (by rw [hb]; exact List.mem_cons_self)
      refine ⟨c₀, w ++ (ascii " " ++ (c.word ++ (ascii " " ++ (t.bytes ++ crlf)))), ?_,
        Or.inr hc, by simp [crlf]⟩
      simp only [WireResponse.wire, WireResponse.line, hb, List.append_assoc, List.cons_append]
  | _ => exact ⟨byte '*', _, rfl, Or.inl rfl, List.cons_ne_nil _ _⟩

/-- A non-empty stream ends in CRLF. -/
lemma crlf_suffix_wire (h : ys ≠ []) : crlf <:+ Stream.wire ys := by
  rw [← List.dropLast_append_getLast h, wire_append, Stream.wire, Stream.wire,
    List.flatMap_singleton, WireResponse.wire, ← List.append_assoc]
  exact List.suffix_append _ _

/-- Whether a word of two or more bytes ends in CRLF does not depend on what precedes it. -/
lemma crlf_suffix_append (h : 2 ≤ b.length) : crlf <:+ a ++ b ↔ crlf <:+ b := by
  constructor
  · exact fun hs => List.suffix_of_suffix_length_le hs (List.suffix_append a b) h
  · exact fun hs => hs.trans (List.suffix_append a b)

/-- Boundaries behind the first responses of a stream. -/
lemma boundary_append :
    Stream.Boundary (ys ++ zs) (Stream.wire ys ++ w) ↔ Stream.Boundary zs w := by
  constructor
  · rintro ⟨ys₁, hys₁, hw⟩
    rcases Cut.prefix_append_cases hys₁ with h | ⟨ys', -, h, rfl⟩
    · have hle := (wire_isPrefix h).length_le
      rw [← hw, List.length_append] at hle
      obtain rfl : w = [] := List.eq_nil_of_length_eq_zero (by omega)
      exact ⟨[], List.nil_prefix, rfl⟩
    · rw [wire_append, List.append_cancel_left_eq] at hw
      exact ⟨ys', h, hw⟩
  · rintro ⟨ys', hys', rfl⟩
    exact ⟨ys ++ ys', (List.prefix_append_right_inj ys).mpr hys', wire_append.symm⟩

/-- A prefix of a stream ends at a boundary or inside a response. -/
lemma prefix_wire_cases (h : w <+: Stream.wire zs) :
    Stream.Boundary zs w ∨ ∃ ys x u, ys ++ [x] <+: zs ∧ w = Stream.wire ys ++ u ∧ u ≠ [] ∧
      u <+: x.wire ∧ u ≠ x.wire := by
  induction zs generalizing w with
  | nil => exact Or.inl ⟨[], List.nil_prefix, List.prefix_nil.mp h⟩
  | cons x zs ih =>
    rcases Cut.prefix_append_cases h with hx | ⟨w', -, hw', rfl⟩
    · by_cases hne : w = []
      · exact Or.inl ⟨[], List.nil_prefix, hne⟩
      by_cases hwx : w = x.wire
      · exact Or.inl ⟨[x], ⟨zs, rfl⟩, by rw [hwx]; exact (List.append_nil _).symm⟩
      · exact Or.inr ⟨[], x, w, ⟨zs, rfl⟩, rfl, hne, hx, hwx⟩
    · rcases ih hw' with ⟨ys, hys, rfl⟩ | ⟨ys, y, u, hys, rfl, hu⟩
      · exact Or.inl ⟨x :: ys, (List.prefix_cons_inj x).mpr hys, rfl⟩
      · refine Or.inr ⟨x :: ys, y, u, (List.prefix_cons_inj x).mpr hys, ?_, hu⟩
        rw [← List.append_assoc]
        rfl

/-! ## One complete buffer -/

/-- A buffer of two or more bytes is taken for complete if it ends in CRLF. -/
lemma bufferComplete_iff (h : 2 ≤ b.length) : bufferComplete b ↔ crlf <:+ b := by
  rw [bufferComplete, List.suffix_iff_eq_drop, show crlf.length = 2 from rfl]
  constructor
  · rintro ⟨-, hshort | hcrlf⟩
    · omega
    · exact hcrlf.symm
  · intro hcrlf
    refine ⟨?_, Or.inr hcrlf.symm⟩
    rintro rfl
    simp at h

/-- A buffer that is taken for complete and is: its responses are handed over. -/
lemma append_boundary {s : Receiver} (hb : s.receivedData ++ c = Stream.wire ys)
    (hcomplete : bufferComplete (s.receivedData ++ c))
    (hlen : (Stream.wire ys).length < 2 ^ 31 + 2) :
    s.append c = (ys.map fun x => .incoming x.value, .running ⟨[], s.stopped⟩) := by
  obtain ⟨s', hparse⟩ := parseBuffer_wire ys hlen
  rw [Receiver.append, if_pos hcomplete, hb, hparse]
  have hnotify := notify_ok s.stopped (ys.map WireResponse.value) s'
  rw [List.map_map, List.map_map] at hnotify
  exact hnotify

/-- A buffer that is taken for complete inside a response is not parsed to its end. -/
lemma parseBuffer_incomplete (hb : b <+: Stream.wire zs) (hnot : ¬ Stream.Boundary zs b)
    (hcomplete : bufferComplete b) (hlen : b.length < 2 ^ 31) :
    ∃ (rs : List Response) (e : Fault), parseBuffer b = (rs.map some, .error e) := by
  rcases prefix_wire_cases hb with h | ⟨ys, x, u, -, rfl, hne, hu, hux⟩
  · exact absurd h hnot
  rw [List.length_append] at hlen
  obtain ⟨fuel, r, m, hfuel, hrun⟩ := parseBuffer_append ys u (by omega)
  obtain ⟨k, rfl⟩ : ∃ k, fuel = k + 1 := ⟨fuel - 1, by omega⟩
  have hat := At.append_left (Stream.wire ys) u
  have herror : ∃ e, parseNext.run ⟨Stream.wire ys ++ u, (Stream.wire ys).length, [], none, m⟩ =
      .error e := by
    rcases Nat.lt_or_ge u.length 2 with hl | hl
    · obtain ⟨c, w, hx, hc, -⟩ := exists_wire_eq_cons x
      obtain rfl : u = [c] := by
        rw [hx] at hu
        rcases List.prefix_cons_iff.mp hu with rfl | ⟨u', rfl, -⟩
        · exact absurd rfl hne
        · rw [List.length_cons] at hl
          rw [List.eq_nil_of_length_eq_zero (show u'.length = 0 by omega)]
      exact parseNext_first hat (by omega) hc
    · have hb2 : 2 ≤ (Stream.wire ys ++ u).length := by
        rw [List.length_append]
        omega
      have hcrlf := (crlf_suffix_append hl).mp ((bufferComplete_iff hb2).mp hcomplete)
      have hlast : u.getLast? = some lf := by
        obtain ⟨u', rfl⟩ := hcrlf
        rw [List.getLast?_append_of_ne_nil u' (by decide)]
        rfl
      exact parseNext_cut x ⟨hu, hux, hlast⟩ hat (by rw [List.length_append]; omega)
  obtain ⟨e, he⟩ := herror
  refine ⟨ys.map WireResponse.value, e, ?_⟩
  rw [hrun, parseAll_error he, List.append_nil, List.map_map]
  rfl

/-- Such a buffer is reported as a failure, or ends the thread in a fault. -/
lemma append_incomplete {s : Receiver} (hb : s.receivedData ++ c <+: Stream.wire zs)
    (hnot : ¬ Stream.Boundary zs (s.receivedData ++ c))
    (hcomplete : bufferComplete (s.receivedData ++ c))
    (hlen : (s.receivedData ++ c).length < 2 ^ 31) :
    (∃ ex, .failed ex ∈ (s.append c).1) ∨ ∃ f, (s.append c).2 = .fault f := by
  obtain ⟨rs, e, hparse⟩ := parseBuffer_incomplete hb hnot hcomplete hlen
  rw [Receiver.append, if_pos hcomplete, hparse]
  exact notify_error s.stopped rs e

/-- A buffer that is not taken for complete is kept. -/
lemma append_keep (hcomplete : ¬ bufferComplete (b ++ c))
    (hlen : (b ++ c).length < recvMessageMaxlen) :
    Receiver.append ⟨b, false⟩ c = ([], .running ⟨b ++ c, false⟩) := by
  rw [Receiver.append, if_neg hcomplete, if_neg (Nat.ne_of_lt hlen)]
  rfl

/-! ## Runs over chunks -/

/-- A buffer that the receiver keeps: empty, or of two or more bytes that do not end in CRLF. -/
def Pending (b : Bytes) : Prop := b = [] ∨ 2 ≤ b.length ∧ ¬ crlf <:+ b

/-- A buffer that is not taken for complete is kept. -/
lemma pending_of_not_complete (h : ¬ bufferComplete b) : Pending b := by
  by_cases hb : b = []
  · exact Or.inl hb
  rcases Nat.lt_or_ge b.length 2 with hl | hl
  · exact absurd ⟨hb, Or.inl hl⟩ h
  · exact Or.inr ⟨hl, fun hcrlf => h ((bufferComplete_iff hl).mpr hcrlf)⟩

/-- A single byte is no sequence of responses. -/
lemma not_boundary_singleton {c : UInt8} : ¬ Stream.Boundary zs [c] := by
  rintro ⟨ys, -, hw⟩
  by_cases hys : ys = []
  · rw [hys] at hw
    cases hw
  · have hle := (crlf_suffix_wire hys).length_le
    rw [← hw] at hle
    exact absurd hle (show ¬ 2 ≤ 1 by decide)

/-- A kept buffer that ends at a boundary is empty. -/
lemma Pending.eq_nil (h : Pending b) (hb : Stream.Boundary zs b) : b = [] := by
  rcases h with h | ⟨hlen, hcrlf⟩
  · exact h
  · obtain ⟨ys, -, rfl⟩ := hb
    by_cases hys : ys = []
    · rw [hys]
      rfl
    · exact absurd (crlf_suffix_wire hys) hcrlf

/-- The condition on a chunk, seen from the receiver: where the buffer is taken for complete, the
responses in it are.

**Proof sketch.** With two or more bytes in the buffer its last two bytes are those of the stream,
and the first part of the condition holds because a kept buffer at a boundary is empty. A single
byte in the buffer is a chunk of one byte at the start of a response. -/
lemma cutOk_iff (hb : Pending b) (hc : c ≠ []) :
    Stream.CutOk (ys ++ zs) (Stream.wire ys ++ b) c ↔
      (bufferComplete (b ++ c) → Stream.Boundary zs (b ++ c)) := by
  have hpos := List.length_pos_iff.mpr hc
  rw [Stream.CutOk, List.append_assoc, boundary_append, boundary_append]
  rcases Nat.lt_or_ge (b ++ c).length 2 with hl | hl
  · rw [List.length_append] at hl
    obtain rfl : b = [] := List.eq_nil_of_length_eq_zero (by omega)
    obtain ⟨x, rfl⟩ := List.length_eq_one_iff.mp (show c.length = 1 by simpa using (by omega))
    constructor
    · exact fun h => absurd rfl (h.1 ⟨[], List.nil_prefix, rfl⟩)
    · exact fun h => absurd (h ⟨List.cons_ne_nil x [], Or.inl (show 1 < 2 by decide)⟩)
        not_boundary_singleton
  · rw [bufferComplete_iff hl, crlf_suffix_append hl]
    refine and_iff_right fun hbound hone => ?_
    rw [hb.eq_nil hbound, List.nil_append] at hl
    omega

/-- What is said of every chunk and the chunks before it, one chunk at a time. -/
lemma forall_chunk_cons {P : Bytes → Bytes → Prop} {chunks : List Bytes} :
    (∀ pre c' post, c :: chunks = pre ++ c' :: post → P pre.flatten c') ↔
      P [] c ∧ ∀ pre c' post, chunks = pre ++ c' :: post → P (c ++ pre.flatten) c' := by
  constructor
  · intro h
    refine ⟨h [] c chunks rfl, fun pre c' post hp => ?_⟩
    have := h (c :: pre) c' post (by rw [hp]; rfl)
    rwa [List.flatten_cons] at this
  · rintro ⟨hc, h⟩ pre c' post hp
    cases pre with
    | nil =>
      obtain ⟨rfl, -⟩ := List.cons.inj hp
      exact hc
    | cons c₁ pre =>
      obtain ⟨rfl, hp'⟩ := List.cons.inj hp
      rw [List.flatten_cons]
      exact h pre c' post hp'

/-- Every buffer of the run is shorter than the maximum. -/
def BuffersFit (s : Receiver) (chunks : List Bytes) : Prop :=
  ∀ pre c post ns s', chunks = pre ++ c :: post → s.run (inputs pre) = (ns, .running s') →
    (s'.receivedData ++ c).length < recvMessageMaxlen

/-- The first buffer. -/
lemma BuffersFit.head {s : Receiver} {chunks : List Bytes} (h : BuffersFit s (c :: chunks)) :
    (s.receivedData ++ c).length < recvMessageMaxlen :=
  h [] c chunks [] s rfl rfl

/-- The other buffers. -/
lemma BuffersFit.tail {s s' : Receiver} {ns : List Notice} {chunks : List Bytes}
    (h : BuffersFit s (c :: chunks)) (hs : s.append c = (ns, .running s')) :
    BuffersFit s' chunks := by
  intro pre c' post ns' s'' hp hrun
  refine h (c :: pre) c' post (ns ++ ns') s'' (by rw [hp]; rfl) ?_
  rw [inputs, List.map_cons, Receiver.run_cons_running (i := .recv (.bytes c)) hs]
  show (ns ++ (s'.run (inputs pre)).1, (s'.run (inputs pre)).2) = _
  rw [hrun]

/-- The notices of a list of responses. -/
def noticesOf (xs : List WireResponse) : List Notice := xs.map fun x => .incoming x.value

/-- The notices of a concatenation. -/
lemma noticesOf_append : noticesOf (ys ++ zs) = noticesOf ys ++ noticesOf zs := List.map_append

/-- None of them is a failure. -/
lemma failed_not_mem {ex : StdException} : .failed ex ∉ noticesOf xs := by
  simp [noticesOf]

/-- **The chunkings that are received correctly.** A run that starts with the bytes `b` of the
responses `zs` in the buffer hands over exactly these responses if and only if every chunk meets
the condition.

**Proof sketch.** Induction on the chunks. If the buffer is not taken for complete, the chunk meets
the condition and the buffer grows. If it is, either its responses are complete, they are handed
over and the buffer is empty again, or the parser stops inside a response, which is reported or ends
the thread, and the chunk violates the condition. -/
theorem run_chunks_iff (chunks : List Bytes) :
    ∀ (b : Bytes) (ys zs : List WireResponse),
      Stream.wire zs = b ++ chunks.flatten → Pending b → (∀ c ∈ chunks, c ≠ []) →
      BuffersFit ⟨b, false⟩ chunks →
      (Receiver.run ⟨b, false⟩ (inputs chunks) = (noticesOf zs, .running ⟨[], false⟩) ↔
        ∀ pre c post, chunks = pre ++ c :: post →
          Stream.CutOk (ys ++ zs) (Stream.wire ys ++ b ++ pre.flatten) c) := by
  induction chunks with
  | nil =>
    intro b ys zs hzs hb _ _
    rw [List.flatten_nil, List.append_nil] at hzs
    obtain rfl := hb.eq_nil ⟨zs, List.prefix_refl zs, hzs.symm⟩
    have hnil : zs = [] := by
      by_contra hne
      have := (crlf_suffix_wire hne).length_le
      rw [hzs] at this
      exact absurd this (by decide)
    rw [hnil]
    refine iff_of_true rfl fun pre c post h => ?_
    cases pre <;> cases h
  | cons c chunks ih =>
    intro b ys zs hzs hb hne hfit
    rw [List.flatten_cons, ← List.append_assoc] at hzs
    have hc : c ≠ [] := hne c List.mem_cons_self
    have hne' : ∀ c' ∈ chunks, c' ≠ [] := fun c' hc' => hne c' (List.mem_cons_of_mem c hc')
    have hprefix : b ++ c <+: Stream.wire zs := ⟨chunks.flatten, hzs.symm⟩
    have hlen : (b ++ c).length < 2 ^ 31 := Nat.lt_trans hfit.head (by decide)
    rw [forall_chunk_cons (P := fun w c' => Stream.CutOk (ys ++ zs) (Stream.wire ys ++ b ++ w) c'),
      List.append_nil, cutOk_iff hb hc]
    by_cases hcomplete : bufferComplete (b ++ c)
    · by_cases hbound : Stream.Boundary zs (b ++ c)
      · obtain ⟨ys', ⟨zs', rfl⟩, hw⟩ := hbound
        have hstep : Receiver.append ⟨b, false⟩ c =
            (noticesOf ys', .running ⟨[], false⟩) :=
          append_boundary hw hcomplete (by rw [← hw]; exact Nat.lt_add_right 2 hlen)
        have hzs' : Stream.wire zs' = [] ++ chunks.flatten := by
          rw [wire_append, hw, List.append_cancel_left_eq] at hzs
          exact hzs
        have hih := ih [] (ys ++ ys') zs' hzs' (Or.inl rfl) hne' (hfit.tail hstep)
        rw [inputs, List.map_cons, Receiver.run_cons_running (i := .recv (.bytes c)) hstep,
          noticesOf_append, Prod.mk.injEq, List.append_cancel_left_eq, ← Prod.mk.injEq]
        refine hih.trans ?_
        rw [and_iff_right (fun _ => ⟨ys', List.prefix_append _ _, hw⟩), List.append_assoc ys,
          wire_append, ← hw]
        simp only [List.append_assoc, List.append_nil]
      · refine iff_of_false (fun hrun => ?_) fun h => hbound (h.1 hcomplete)
        rcases append_incomplete (s := ⟨b, false⟩) hprefix hbound hcomplete hlen with
          ⟨ex, hex⟩ | ⟨f, hf⟩
        · have hmem : .failed ex ∈ (Receiver.run ⟨b, false⟩ (inputs (c :: chunks))).1 :=
            Receiver.step_subset_run (i := .recv (.bytes c)) hex
          rw [hrun] at hmem
          exact failed_not_mem hmem
        · have hfault : Receiver.run ⟨b, false⟩ (inputs (c :: chunks)) =
              ((Receiver.append ⟨b, false⟩ c).1, .fault f) :=
            Receiver.run_cons_fault (i := .recv (.bytes c)) (by rw [← hf]; rfl)
          cases (Prod.mk.inj (hrun.symm.trans hfault)).2
    · have hstep := append_keep hcomplete hfit.head
      have hih := ih (b ++ c) ys zs hzs (pending_of_not_complete hcomplete) hne' (hfit.tail hstep)
      rw [inputs, List.map_cons, Receiver.run_cons_running (i := .recv (.bytes c)) hstep,
        List.nil_append]
      refine hih.trans ?_
      rw [and_iff_right (fun h => absurd h hcomplete)]
      simp only [List.append_assoc]

/-! ## Buffers of a short stream -/

/-- The buffer never holds more than what has been received. -/
lemma run_buffer_le (chunks : List Bytes) :
    ∀ {s s' : Receiver} {ns : List Notice}, s.run (inputs chunks) = (ns, .running s') →
      s'.receivedData.length ≤ s.receivedData.length + chunks.flatten.length := by
  induction chunks with
  | nil =>
    intro s s' ns h
    cases h
    exact Nat.le_add_right _ _
  | cons c chunks ih =>
    intro s s' ns h
    rw [inputs, List.map_cons, Receiver.run] at h
    split at h
    · next ns₁ s₁ hstep =>
      have htail := ih (Prod.ext rfl (Prod.mk.inj h).2)
      have hbuf : s₁.receivedData.length ≤ (s.receivedData ++ c).length := by
        have hends := append_ends s c
        rw [show s.append c = (ns₁, .running s₁) from hstep] at hends
        rcases hends.buffer_eq with hnil | hkeep
        · rw [hnil]
          exact Nat.zero_le _
        · rw [hkeep]
      rw [List.flatten_cons, List.length_append]
      rw [List.length_append] at hbuf
      omega
    · next ns₁ o hnot hstep =>
      obtain ⟨-, ho⟩ := Prod.mk.inj h
      exact absurd ho (hnot s')

/-- In a stream that is shorter than the maximum all buffers are. -/
lemma buffersFit_of_length {chunks : List Bytes}
    (h : chunks.flatten.length < recvMessageMaxlen) : BuffersFit ⟨[], false⟩ chunks := by
  intro pre c post ns s hp hrun
  have hle := run_buffer_le pre hrun
  rw [hp, List.flatten_append, List.flatten_cons, List.length_append, List.length_append] at h
  rw [List.length_append]
  simp only [List.length_nil] at hle
  omega

/-! ## Chunking invariance -/

/-- FETCH responses, each with a first attribute and others, and a tagged OK. -/
def fetchStream (fetches : List (Number × Attribute × List Attribute)) (tag : Tag)
    (text : StatusText) : List WireResponse :=
  (fetches.map fun f => .fetch f.1 f.2.1 f.2.2) ++ [.tagged tag .ok text]

/-- The chunks lead to the same notices, and leave the thread in the same state, as one chunk with
all their bytes, and no failure is reported. -/
def ReceivedAsOne (chunks : List Bytes) : Prop :=
  receiveChunks chunks = receiveChunks [chunks.flatten] ∧
    ∀ ex, .failed ex ∉ (receiveChunks chunks).1

/-- A stream that arrives as one chunk. -/
lemma receiveChunks_singleton (hne : xs ≠ []) (hlen : (Stream.wire xs).length < 2 ^ 31 + 2) :
    receiveChunks [Stream.wire xs] = (noticesOf xs, .running ⟨[], false⟩) := by
  have htwo : 2 ≤ (Stream.wire xs).length := (crlf_suffix_wire hne).length_le
  rw [receiveChunks_one]
  exact append_boundary rfl ((bufferComplete_iff htwo).mpr (crlf_suffix_wire hne)) hlen

/-- **Chunking invariance for literals.** A stream of FETCH responses and a tagged OK that arrives
in chunks of two or more bytes, with all buffers below the maximum, is received like a single chunk
if and only if whatever part of it has arrived when it ends in CRLF ends at the end of a response.

**Proof sketch.** `run_chunks_iff` from the empty buffer; the condition on single bytes is void. -/
theorem chunking_fetch_iff (fetches : List (Number × Attribute × List Attribute)) (tag : Tag)
    (text : StatusText) (chunks : List Bytes)
    (hwire : chunks.flatten = Stream.wire (fetchStream fetches tag text))
    (htwo : ∀ c ∈ chunks, 2 ≤ c.length) (hfit : BuffersFit ⟨[], false⟩ chunks)
    (hlen : chunks.flatten.length < 2 ^ 31) :
    ReceivedAsOne chunks ↔ ∀ pre, pre <+: chunks → crlf <:+ pre.flatten →
      Stream.Boundary (fetchStream fetches tag text) pre.flatten := by
  have hone : receiveChunks [chunks.flatten] =
      (noticesOf (fetchStream fetches tag text), .running ⟨[], false⟩) := by
    rw [hwire] at hlen ⊢
    exact receiveChunks_singleton (by simp [fetchStream]) (Nat.lt_add_right 2 hlen)
  have hne : ∀ c ∈ chunks, c ≠ [] := fun c hc => List.length_pos_iff.mp
    (Nat.lt_of_lt_of_le (by decide) (htwo c hc))
  have hiff := run_chunks_iff chunks [] [] (fetchStream fetches tag text) hwire.symm (Or.inl rfl)
    hne hfit
  rw [ReceivedAsOne, hone]
  constructor
  · rintro ⟨hrun, -⟩ pre ⟨post, rfl⟩ hcrlf
    have hpre : pre ≠ [] := by
      rintro rfl
      exact absurd hcrlf (by decide)
    have hlast := List.dropLast_append_getLast hpre
    have hcut := hiff.mp hrun pre.dropLast (pre.getLast hpre) post (by
      rw [List.append_cons, hlast])
    rw [← hlast, List.flatten_append, List.flatten_singleton] at hcrlf ⊢
    exact hcut.2 hcrlf
  · intro hcond
    have hrun := hiff.mpr fun pre c post hp => by
      refine ⟨fun _ => ?_, fun hcrlf => ?_⟩
      · have := htwo c (by rw [hp]; simp)
        omega
      · have hbound := hcond (pre ++ [c]) ⟨post, by rw [hp]; simp⟩
        rw [List.flatten_append, List.flatten_singleton] at hbound
        exact hbound hcrlf
    refine ⟨hrun, fun ex hex => ?_⟩
    rw [receiveChunks, hrun] at hex
    exact failed_not_mem hex

/-- A body of one empty line that arrives in two chunks. -/
def emptyLineFetch : List (Number × Attribute × List Attribute) :=
  [(⟨1, by decide⟩, .body ⟨[], by decide⟩ crlf (by decide), [])]

/-- The chunks may be cut in the middle of the numeral that announces a literal. -/
theorem chunking_fetch_iff_numeral :
    ReceivedAsOne [ascii "* 1 FETCH (BODY[] \x7b", ascii "2\x7d\r\n\r\n)\r\n1 OK done\r\n"] ↔
      ∀ pre, pre <+: [ascii "* 1 FETCH (BODY[] \x7b", ascii "2\x7d\r\n\r\n)\r\n1 OK done\r\n"] →
        crlf <:+ pre.flatten →
        Stream.Boundary (fetchStream emptyLineFetch (Tag.number 1) StatusText.done) pre.flatten :=
  chunking_fetch_iff emptyLineFetch (Tag.number 1) StatusText.done _ (by decide +kernel)
    (by decide) (buffersFit_of_length (by decide +kernel)) (by decide +kernel)

/-- A chunk that ends with the body is taken for complete, and the missing parenthesis is reported
as a failure. -/
theorem chunking_fetch_cut_after_body :
    [ascii "* 1 FETCH (BODY[] \x7b2\x7d\r\n\r\n", ascii ")\r\n1 OK done\r\n"].flatten =
        Stream.wire (fetchStream emptyLineFetch (Tag.number 1) StatusText.done) ∧
      (∀ c ∈ [ascii "* 1 FETCH (BODY[] \x7b2\x7d\r\n\r\n", ascii ")\r\n1 OK done\r\n"],
        2 ≤ c.length) ∧
      BuffersFit ⟨[], false⟩
        [ascii "* 1 FETCH (BODY[] \x7b2\x7d\r\n\r\n", ascii ")\r\n1 OK done\r\n"] ∧
      ¬ ReceivedAsOne
        [ascii "* 1 FETCH (BODY[] \x7b2\x7d\r\n\r\n", ascii ")\r\n1 OK done\r\n"] := by
  refine ⟨by decide +kernel, by decide, buffersFit_of_length (by decide +kernel), ?_⟩
  rintro ⟨-, hfailed⟩
  exact hfailed (.runtimeError (ascii "Didn't understand the server's response!"))
    (by decide +kernel)

/-- **Chunking invariance for line responses.** A stream below the maximum that arrives in
non-empty chunks is handed over as it is, without a failure, if and only if no chunk that begins
at the start of a response is a single byte, and no chunk that ends in CRLF ends inside a
response. -/
theorem chunking_line_iff (xs : List WireResponse) (chunks : List Bytes)
    (hwire : chunks.flatten = Stream.wire xs) (hne : ∀ c ∈ chunks, c ≠ [])
    (hlen : (Stream.wire xs).length < recvMessageMaxlen) :
    receiveChunks chunks = (noticesOf xs, .running ⟨[], false⟩) ↔
      ∀ pre c post, chunks = pre ++ c :: post →
        (Stream.Boundary xs pre.flatten → c.length ≠ 1) ∧
          (crlf <:+ pre.flatten ++ c → Stream.Boundary xs (pre.flatten ++ c)) :=
  run_chunks_iff chunks [] [] xs hwire.symm (Or.inl rfl) hne
    (buffersFit_of_length (by rw [hwire]; exact hlen))

/-- A line that arrives in two chunks. -/
theorem chunking_line_iff_exists :
    receiveChunks [ascii "* 3 EX", ascii "ISTS\r\n"] =
        (noticesOf [.exists ⟨3, by decide⟩], .running ⟨[], false⟩) ↔
      ∀ pre c post, [ascii "* 3 EX", ascii "ISTS\r\n"] = pre ++ c :: post →
        (Stream.Boundary [.exists ⟨3, by decide⟩] pre.flatten → c.length ≠ 1) ∧
          (crlf <:+ pre.flatten ++ c →
            Stream.Boundary [.exists ⟨3, by decide⟩] (pre.flatten ++ c)) :=
  chunking_line_iff [.exists ⟨3, by decide⟩] _ (by decide +kernel) (by decide) (by decide +kernel)

/-- The first byte of a line alone is parsed at once, and reported as a failure. -/
theorem chunking_line_first_byte :
    [ascii "*", ascii " 3 EXISTS\r\n"].flatten = Stream.wire [.exists ⟨3, by decide⟩] ∧
      (∀ c ∈ [ascii "*", ascii " 3 EXISTS\r\n"], c ≠ []) ∧
      (Stream.wire [.exists ⟨3, by decide⟩]).length < recvMessageMaxlen ∧
      receiveChunks [ascii "*", ascii " 3 EXISTS\r\n"] ≠
        (noticesOf [.exists ⟨3, by decide⟩], .running ⟨[], false⟩) ∧
      ∃ ex, .failed ex ∈ (receiveChunks [ascii "*", ascii " 3 EXISTS\r\n"]).1 := by
  refine ⟨by decide +kernel, by decide, by decide +kernel, by decide +kernel, ?_⟩
  exact ⟨.runtimeError (ascii "Didn't understand the server's response!"), by decide +kernel⟩

end Imapcl
