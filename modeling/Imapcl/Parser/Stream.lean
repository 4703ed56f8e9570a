import Imapcl.Parser.Consumption

set_option relaxedAutoImplicit false
set_option autoImplicit false

/-!
# Parsing a stream of responses

The loop `while (parser.parse_next(response))` over one buffer, with what it hands on and how it
ends. The caller moves every response out of the pointer, which is null again before the next
call; a response that `parse_next` does not store is handed on as a null pointer.

## Main definitions

* `Imapcl.parseAll`, `Imapcl.parseBuffer` — the loop, from a parser state and on a buffer.

## Main results

* `Imapcl.parseAll_append` — the loop over responses that other data follow.
* `Imapcl.stream_round_trip` — the loop over the wire forms of any sequence of responses.
-/

namespace Imapcl

open StateExcept Cursor

/-- The pointers that a loop hands on, and the parser state or fault it ends in. -/
abbrev ParseRun := List (Option Response) × Except Fault ResponseParser

/-- `while (parse_next(response)) …`, with fuel for the number of rounds. -/
def parseAll : ℕ → ResponseParser → ParseRun
  | 0, _ => ([], .error .diverges)
  | fuel + 1, s =>
    match parseNext.run { s with parsedResponse := none } with
    | .error e => ([], .error e)
    | .ok (false, s') => ([], .ok s')
    | .ok (true, s') =>
      let rest := parseAll fuel s'
      (s'.parsedResponse :: rest.1, rest.2)

/-- The loop over a buffer, with a round for each of its bytes and one more. -/
def parseBuffer (data : Bytes) : ParseRun := parseAll (data.length + 1) (.ofData data)

variable {d v : Bytes} {p : ℕ} {κ : List ℤ} {r : Option Response} {m : Bytes}

/-- `parse_next` answers `false` at the end of the data only, and does nothing then. -/
lemma parseNext_false {s s' : ResponseParser} (h : parseNext.run s = .ok (false, s')) :
    s.data.length ≤ s.currPos ∧ s' = s := by
  rw [parseNext, run_bind_of_ok (StateT.run_get _)] at h
  split at h
  · next hend =>
    cases h
    exact ⟨hend, rfl⟩
  · rcases ifM_run_eq_ok h with ⟨s₁, -, h₁⟩ | ⟨s₁, -, h₁⟩
    · cases h₁
    · rcases ifM_run_eq_ok h₁ with ⟨s₂, -, h₂⟩ | ⟨s₂, -, h₂⟩ <;> cases h₂

/-- A round of the loop that reads a response. -/
lemma parseAll_next {fuel : ℕ} {s s' : ResponseParser}
    (h : parseNext.run { s with parsedResponse := none } = .ok (true, s')) :
    parseAll (fuel + 1) s =
      (s'.parsedResponse :: (parseAll fuel s').1, (parseAll fuel s').2) := by
  rw [parseAll, h]

/-- The round that ends the loop. -/
lemma parseAll_end {fuel : ℕ} {s s' : ResponseParser}
    (h : parseNext.run { s with parsedResponse := none } = .ok (false, s')) :
    parseAll (fuel + 1) s = ([], .ok s') := by
  rw [parseAll, h]

/-- The round that aborts the loop. -/
lemma parseAll_error {fuel : ℕ} {s : ResponseParser} {e : Fault}
    (h : parseNext.run { s with parsedResponse := none } = .error e) :
    parseAll (fuel + 1) s = ([], .error e) := by
  rw [parseAll, h]

/-- A loop that hands on nothing and ends well does not move. -/
lemma parseAll_still {fuel : ℕ} {s s' : ResponseParser} (h : parseAll fuel s = ([], .ok s')) :
    s'.currPos = s.currPos := by
  cases fuel with
  | zero => cases congrArg Prod.snd h
  | succ fuel =>
    cases hrun : parseNext.run { s with parsedResponse := none } with
    | error e =>
      rw [parseAll_error hrun] at h
      cases congrArg Prod.snd h
    | ok x =>
      obtain ⟨b, s₁⟩ := x
      cases b with
      | true =>
        rw [parseAll_next hrun] at h
        cases congrArg Prod.fst h
      | false =>
        rw [parseAll_end hrun] at h
        cases h
        rw [(parseNext_false hrun).2]

/-- The loop over the wire forms of responses hands on exactly these and continues with what
follows them. The last line has to end before `2 ^ 31`, without its CRLF.

**Proof sketch.** Induction on the responses: a round reads the wire form of the first one and
hands on its value, and the rest stands at the position it leaves. -/
lemma parseAll_append (xs : List WireResponse) (fuel : ℕ) :
    ∀ p r m, At d p (Stream.wire xs ++ v) → p + (Stream.wire xs).length < 2 ^ 31 + 2 →
      ∃ r' m', parseAll (xs.length + fuel) ⟨d, p, κ, r, m⟩ =
        ((xs.map fun x => some x.value) ++
            (parseAll fuel ⟨d, p + (Stream.wire xs).length, κ, r', m'⟩).1,
          (parseAll fuel ⟨d, p + (Stream.wire xs).length, κ, r', m'⟩).2) := by
  induction xs with
  | nil =>
    intro p r m _ _
    refine ⟨r, m, ?_⟩
    rw [List.length_nil, Nat.zero_add]
    rfl
  | cons x xs ih =>
    intro p r m h hp
    rw [Stream.wire, List.flatMap_cons] at h hp ⊢
    rw [List.length_append, ← Nat.add_assoc] at hp ⊢
    have hx := h.assoc
    have hline : p + x.line.length < 2 ^ 31 := by
      rw [WireResponse.wire, List.length_append, show crlf.length = 2 from rfl] at hp
      omega
    obtain ⟨m₁, hnext⟩ := parseNext_at (κ := κ) (r := none) (m := m) x hx hline
    obtain ⟨r', m', hrest⟩ := ih (p + x.wire.length) (some x.value) m₁ hx.skip hp
    refine ⟨r', m', ?_⟩
    rw [List.length_cons, Nat.add_right_comm, parseAll_next hnext, hrest]
    rfl

/-- A sequence of responses is no longer than its wire form. -/
lemma length_le_wire (xs : List WireResponse) : xs.length ≤ (Stream.wire xs).length :=
  length_le_flatMap fun x => by
    rw [WireResponse.wire, List.length_append]
    exact Nat.add_pos_right _ (by decide)

/-- Parsing a buffer that starts with the wire forms of responses hands on these and continues
with what follows them, with more fuel than there are bytes left. -/
lemma parseBuffer_append (xs : List WireResponse) (v : Bytes)
    (h : (Stream.wire xs).length < 2 ^ 31 + 2) :
    ∃ fuel r m, v.length < fuel ∧ parseBuffer (Stream.wire xs ++ v) =
      ((xs.map fun x => some x.value) ++
          (parseAll fuel ⟨Stream.wire xs ++ v, (Stream.wire xs).length, [], r, m⟩).1,
        (parseAll fuel ⟨Stream.wire xs ++ v, (Stream.wire xs).length, [], r, m⟩).2) := by
  obtain ⟨k, hk⟩ := Nat.exists_eq_add_of_le (length_le_wire xs)
  obtain ⟨r, m, hrun⟩ := parseAll_append (κ := []) xs (k + v.length + 1) 0 none []
    (At.start (Stream.wire xs ++ v)) (by omega)
  rw [Nat.zero_add] at hrun
  refine ⟨k + v.length + 1, r, m, by omega, ?_⟩
  rw [parseBuffer, ResponseParser.ofData, List.length_append,
    show (Stream.wire xs).length + v.length + 1 = xs.length + (k + v.length + 1) by omega]
  exact hrun

/-- The loop over the wire forms of responses hands on these, and ends at the end of the data with
an empty stack of positions. -/
lemma parseBuffer_end (xs : List WireResponse) (h : (Stream.wire xs).length < 2 ^ 31 + 2) :
    ∃ m, parseBuffer (Stream.wire xs) = (xs.map fun x => some x.value,
      .ok ⟨Stream.wire xs, (Stream.wire xs).length, [], none, m⟩) := by
  obtain ⟨fuel, r, m, hfuel, hrun⟩ := parseBuffer_append xs [] h
  obtain ⟨k, rfl⟩ := Nat.exists_eq_add_of_lt hfuel
  have hend : At (Stream.wire xs ++ []) (Stream.wire xs).length [] := At.append_left _ _
  rw [parseAll_end (parseNext_end hend), List.append_nil, List.append_nil] at hrun
  exact ⟨m, hrun⟩

/-- It ends without a fault. -/
lemma parseBuffer_wire (xs : List WireResponse) (h : (Stream.wire xs).length < 2 ^ 31 + 2) :
    ∃ s, parseBuffer (Stream.wire xs) = (xs.map fun x => some x.value, .ok s) := by
  obtain ⟨m, hrun⟩ := parseBuffer_end xs h
  exact ⟨_, hrun⟩

/-- **Stream round trip.** Parsing the wire forms of a sequence of well-formed responses yields
exactly the responses, does not throw, and ends at the end of the data with an empty stack of
positions. -/
theorem stream_round_trip (xs : List WireResponse) (h : (Stream.wire xs).length < 2 ^ 31) :
    ∃ s, parseBuffer (Stream.wire xs) = (xs.map fun x => some x.value, .ok s) ∧
      s.currPos = (Stream.wire xs).length ∧ s.posStack = [] := by
  obtain ⟨m, hrun⟩ := parseBuffer_end xs (Nat.lt_add_right 2 h)
  exact ⟨_, hrun, rfl, rfl⟩

/-- A literal may contain what looks like the end of its response and another one. -/
theorem stream_round_trip_literal :
    ∃ s, parseBuffer (Stream.wire [.fetch ⟨7, by decide⟩
          (.body ⟨ascii "TEXT", by decide⟩ (ascii ")\r\n1 OK done\r\n") (by decide)) [],
        .tagged (Tag.number 2) .ok StatusText.done]) =
          ([some (.fetch (ascii ")\r\n1 OK done\r\n")),
            some (.status .ok (ascii "2") (ascii "done"))], .ok s) ∧
      s.currPos = (Stream.wire [.fetch ⟨7, by decide⟩
          (.body ⟨ascii "TEXT", by decide⟩ (ascii ")\r\n1 OK done\r\n") (by decide)) [],
        .tagged (Tag.number 2) .ok StatusText.done]).length ∧ s.posStack = [] :=
  stream_round_trip _ (by decide +kernel)

/-! ## Positions from `2 ^ 31` on -/

/-- A position that does not fit into a signed integer is restored beyond all data. -/
lemma le_toSizeT_wrap32 {n : ℕ} (h : 2 ^ 31 ≤ n) (h' : n < 2 ^ 32) :
    2 ^ 63 ≤ toSizeT (wrap32 n) := by
  have hwrap : wrap32 n = (n : ℤ) - 2 ^ 32 := by
    unfold wrap32
    rw [Int.bmod_def]
    omega
  rw [hwrap, toSizeT]
  omega

/-- `parse_next` at such a position, before anything but a continuation request: the attempt to
read a continuation request restores the position, and the next one is out of range. -/
lemma parseNext_beyond (h : At d p v) (hp : 2 ^ 31 ≤ p) (hp' : p < 2 ^ 32)
    (hlen : d.length < 2 ^ 63) (hne : v ≠ []) (hv : ¬ ascii "+" <+: v) :
    parseNext.run ⟨d, p, κ, r, m⟩ = .error (.thrown .outOfRange) := by
  have hbeyond : d.length < toSizeT (wrap32 p) :=
    Nat.lt_of_lt_of_le hlen (le_toSizeT_wrap32 hp hp')
  have hcontinue : ∀ κ, parseContinueReq.run ⟨d, p, κ, r, m⟩ =
      .ok (false, ⟨d, toSizeT (wrap32 p), κ, r, m⟩) := by
    intro κ
    rw [parseContinueReq, run_bind_of_ok savePos_run, expectMatch, expect,
      ifM_run_false (matchStr_run_false h.1 (by rwa [h.2]))]
    rfl
  have hdata : ∀ κ, parseResponseData.run ⟨d, toSizeT (wrap32 p), κ, r, m⟩ =
      .error (.thrown .outOfRange) := by
    intro κ
    rw [parseResponseData, run_bind_of_ok savePos_run, expectMatch, expect,
      ifM_run_error (matchStr_run_beyond hbeyond)]
  have hpos : ¬ d.length ≤ p := by
    have := h.length_eq
    have := List.length_pos_iff.mpr hne
    omega
  rw [parseNext, run_bind_of_ok (StateT.run_get _), if_neg hpos, ifM_run_error]
  rw [parseResponse, run_bind_of_ok savePos_run, ifM_run_false (hcontinue _),
    ifM_run_error (hdata _)]

end Imapcl
