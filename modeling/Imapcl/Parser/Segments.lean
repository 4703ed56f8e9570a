import Imapcl.Parser.Exact

set_option relaxedAutoImplicit false
set_option autoImplicit false

/-!
# Buffers in terms of the language

The loop `while (parser.parse_next(response))` over a buffer cuts the buffer into words of the
language until it comes to bytes that begin with none. This file states that without the loop, and
draws a conclusion for buffers that are read to their end: what comes after such a buffer is read as
if it stood alone, and the other way round.

## Main definitions

* `Imapcl.Chain` — bytes that begin with the words of some responses.
* `Imapcl.Stuck` — bytes that begin with no word of the language.
* `Imapcl.Whole` — bytes that are words with their CRLF.

## Main results

* `Imapcl.Chain.unique` — the responses at the head of a buffer are determined.
* `Imapcl.parseBuffer_exact` — the loop over a buffer, in terms of the language.
* `Imapcl.parseBuffer_frame` — the loop over two buffers, one behind the other.
* `Imapcl.Reading.prefix_free`, `Imapcl.Whole.unique` — words with their CRLF are a prefix code.
-/

namespace Imapcl

open StateExcept Cursor

variable {d u v w : Bytes} {p : ℕ} {κ : List ℤ} {r x : Option Response} {m : Bytes}
  {xs ys : List (Option Response)}

/-- The bytes begin with the words of the responses `xs`, one after the other, and `v` is left. -/
inductive Chain : Bytes → List (Option Response) → Bytes → Prop where
  | nil (v : Bytes) : Chain v [] v
  | cons {w u v : Bytes} {x : Option Response} {xs : List (Option Response)} (hw : Reading w u x)
      (h : Chain u xs v) : Chain (w ++ u) (x :: xs) v

/-- The bytes begin with no word of the language. -/
def Stuck (v : Bytes) : Prop := ∀ w u, v = w ++ u → ¬ Readable w u

/-! ## Words -/

/-- A word of the language does not begin with a line end. -/
lemma Reading.not_lineEnd (hw : Reading w v x) : ¬ LineEnd (w ++ v) := by
  have hstar : ∀ a : Bytes, ¬ LineEnd (byte '*' :: a) := by
    rintro a ⟨c, v', he, hc⟩
    rw [← (List.cons.inj he).1] at hc
    exact absurd hc (by decide)
  cases hw with
  | continueReq t v ht =>
    rintro ⟨c, v', he, hc⟩
    rw [← (List.cons.inj he).1] at hc
    exact absurd hc (by decide)
  | tagged tag c t v ht =>
    rintro ⟨a, v', he, ha⟩
    have hmem : a ∈ tag.bytes := by
      cases hb : tag.bytes with
      | nil => exact absurd hb tag.nonempty
      | cons b bs =>
        rw [statusLine, hb] at he
        rw [← (List.cons.inj he).1]
        exact List.mem_cons_self
    have halnum := tag.alnum a hmem
    rcases ha with rfl | rfl
    · exact absurd halnum (by decide)
    · exact absurd halnum (by decide)
  | _ => exact hstar _

/-- A word of the language is not empty. -/
lemma Reading.ne_nil (hw : Reading w v x) : w ≠ [] := by
  cases hw with
  | tagged tag c t v ht => simp [crlf]
  | fetch ds v hds first rest e he => simp [crlf]
  | _ => simp [ascii]

/-- What follows a word that ends in its CRLF is of no importance. -/
lemma Reading.extend (hw : Reading w u x) (hu : ¬ LineEnd u) (v : Bytes) : Reading w v x := by
  cases hw with
  | continueReq t u ht => exact .continueReq t v ht
  | tagged tag c t u ht => exact .tagged tag c t v ht
  | untagged c t u ht => exact .untagged c t v ht
  | bye t u ht => exact .bye t v ht
  | flags s u => exact .flags s v
  | «exists» ds u hds => exact .exists ds v hds
  | recent ds u hds => exact .recent ds v hds
  | search dss u hdss => exact .search dss v hdss
  | fetch ds u hds first rest e he => exact .fetch ds v hds first rest e he
  | fatal t u ht hend => exact absurd hend hu
  | greeting t u ht hend => exact absurd hend hu
  | preauth t u ht hend => exact absurd hend hu

/-! ## Chains -/

namespace Chain

/-- A chain that leaves nothing does not begin with a line end. -/
lemma not_lineEnd (h : Chain d xs []) : ¬ LineEnd d := by
  cases h with
  | nil v =>
    rintro ⟨c, v', he, -⟩
    cases he
  | cons hw h => exact hw.not_lineEnd

/-- Two chains, one behind the other, the first of which leaves nothing. -/
lemma append (h : Chain d xs []) (h' : Chain v ys u) : Chain (d ++ v) (xs ++ ys) u := by
  generalize hv : ([] : Bytes) = v₀ at h
  induction h with
  | nil v₁ =>
    subst hv
    exact h'
  | @cons w u₁ v₁ x xs hw h ih =>
    subst hv
    rw [List.append_assoc]
    exact .cons (hw.extend h.not_lineEnd _) (ih rfl)

/-- The responses at the head of a buffer, as far as it can be read, are determined.

**Proof sketch.** Induction on the first chain. Its first word is the only one at the head of the
buffer, so the second chain begins with it too. -/
lemma unique (h : Chain d xs u) (hu : Stuck u) (h' : Chain d ys v) (hv : Stuck v)
    (hd : d.length < 2 ^ 31) : xs = ys ∧ u = v := by
  induction h generalizing ys with
  | nil u =>
    cases h' with
    | nil => exact ⟨rfl, rfl⟩
    | cons hw h' => exact absurd ⟨_, hw⟩ (hu _ _ rfl)
  | @cons w u₁ u x xs hw h ih =>
    generalize he : w ++ u₁ = d at h' hd
    cases h' with
    | nil => exact absurd ⟨_, hw⟩ (hv _ _ he.symm)
    | @cons w' u' v' y ys hw' h' =>
      obtain ⟨rfl, rfl, rfl⟩ := hw.unique hw' he (by rw [he]; exact hd)
      rw [List.length_append] at hd
      obtain ⟨rfl, rfl⟩ := ih hu h' (by omega)
      exact ⟨rfl, rfl⟩

end Chain

/-! ## The loop -/

/-- Nothing is left to read at the end of the data. -/
lemma stuck_nil : Stuck [] := by
  rintro w u h ⟨x, hw⟩
  exact hw.ne_nil (List.append_eq_nil_iff.mp h.symm).1

/-- The loop over what stands ahead hands on the responses of a chain, and stops where no word
begins; it has ended well exactly if nothing is left.

**Proof sketch.** Induction on the fuel, which stays above the number of bytes ahead. A round that
succeeds has passed over a word of the language; a round that fails stands before no such word,
since it would have read it. -/
lemma parseAll_chain (hd : d.length < 2 ^ 31) (fuel : ℕ) :
    ∀ p κ r m u, At d p u → u.length < fuel →
      ∃ v, Chain u (parseAll fuel ⟨d, p, κ, r, m⟩).1 v ∧ Stuck v ∧
        ((∃ s, (parseAll fuel ⟨d, p, κ, r, m⟩).2 = .ok s) ↔ v = []) := by
  induction fuel with
  | zero => exact fun _ _ _ _ _ _ h => absurd h (Nat.not_lt_zero _)
  | succ fuel ih =>
    intro p κ r m u hat hfuel
    have hlen := hat.length_eq
    cases hrun : parseNext.run ⟨d, p, κ, none, m⟩ with
    | error e =>
      rw [parseAll_error (s := ⟨d, p, κ, r, m⟩) hrun]
      refine ⟨u, .nil u, ?_, ?_⟩
      · rintro w v rfl ⟨x, hw⟩
        obtain ⟨m', hok⟩ := hw.run (κ := κ) (m := m) hat hd
        rw [hrun] at hok
        cases hok
      · refine iff_of_false (fun ⟨s, hs⟩ => by cases hs) ?_
        rintro rfl
        rw [parseNext_end hat] at hrun
        cases hrun
    | ok result =>
      obtain ⟨b, s'⟩ := result
      cases b with
      | false =>
        rw [parseAll_end (s := ⟨d, p, κ, r, m⟩) hrun]
        have hp : d.length ≤ p := (parseNext_false hrun).1
        obtain rfl : u = [] := List.eq_nil_of_length_eq_zero (by omega)
        exact ⟨[], .nil [], stuck_nil, iff_of_true ⟨s', rfl⟩ rfl⟩
      | true =>
        rw [parseAll_next (s := ⟨d, p, κ, r, m⟩) hrun]
        obtain ⟨w, v, hat', -, -, x, hw⟩ := parseNext_readable hat.1 hd hrun
        obtain rfl : u = w ++ v := hat.2.symm.trans hat'.2
        obtain ⟨m', hok⟩ := hw.run (κ := κ) (m := m) hat hd
        obtain rfl : s' = ⟨d, p + w.length, κ, x, m'⟩ :=
          (Prod.mk.inj (Except.ok.inj (hrun.symm.trans hok))).2
        have hpos := List.length_pos_iff.mpr hw.ne_nil
        rw [List.length_append] at hfuel
        obtain ⟨v', hchain, hstuck, hend⟩ := ih (p + w.length) κ x m' v hat.skip (by omega)
        exact ⟨v', .cons hw hchain, hstuck, hend⟩

/-- The loop over a buffer. -/
lemma parseBuffer_chain (hd : d.length < 2 ^ 31) :
    ∃ v, Chain d (parseBuffer d).1 v ∧ Stuck v ∧ ((∃ s, (parseBuffer d).2 = .ok s) ↔ v = []) :=
  parseAll_chain hd (d.length + 1) 0 [] none [] d (At.start d) (Nat.lt_succ_self _)

/-- **Buffers.** The loop over a buffer shorter than `2 ^ 31` hands on the pointers `xs` exactly if
the buffer begins with words of these and then with no word of the language; and it ends without a
fault exactly if the whole buffer consists of such words.

**Proof sketch.** The loop finds a chain up to bytes with which no word begins
(`parseAll_chain`), and there is only one (`Chain.unique`). -/
theorem parseBuffer_exact (d : Bytes) (xs : List (Option Response)) (hd : d.length < 2 ^ 31) :
    ((parseBuffer d).1 = xs ↔ ∃ v, Chain d xs v ∧ Stuck v) ∧
      ((∃ s, (parseBuffer d).2 = .ok s) ↔ ∃ ys, Chain d ys []) := by
  obtain ⟨v, hchain, hstuck, hend⟩ := parseBuffer_chain hd
  refine ⟨⟨?_, ?_⟩, hend.trans ⟨?_, ?_⟩⟩
  · rintro rfl
    exact ⟨v, hchain, hstuck⟩
  · rintro ⟨v', hchain', hstuck'⟩
    exact (hchain.unique hstuck hchain' hstuck' hd).1
  · rintro rfl
    exact ⟨_, hchain⟩
  · rintro ⟨ys, hys⟩
    exact (hchain.unique hstuck hys stuck_nil hd).2

/-- A line end begins no word. -/
lemma stuck_of_lineEnd (hv : LineEnd v) : Stuck v := by
  rintro w u rfl ⟨x, hw⟩
  exact hw.not_lineEnd hv

/-- An empty line after a response, which ends the loop. -/
theorem parseBuffer_exact_blank :
    (parseBuffer (ascii "* 4294967297 EXISTS\r\n\r\n")).1 =
      [some (.singleNumber .exists (storedNumber (ascii "4294967297")))] := by
  have hds : Digits (ascii "4294967297") := ⟨by decide, by decide +kernel⟩
  exact (parseBuffer_exact _ _ (by decide +kernel)).1.mpr
    ⟨crlf, .cons (.exists _ crlf hds) (.nil crlf), stuck_of_lineEnd (lineEnd_crlf [])⟩

/-- **Frames.** Where the loop over a buffer ends without a fault, what follows the buffer is read
as if it stood alone: the responses of both are handed on, and the loop over both ends as the one
over the second.

**Proof sketch.** A chain that leaves nothing can be followed by another one (`Chain.append`): its
words end in their CRLF, since none of them is followed by the end of a line. -/
theorem parseBuffer_frame (d v : Bytes) (s : ResponseParser) (hlen : (d ++ v).length < 2 ^ 31)
    (h : (parseBuffer d).2 = .ok s) :
    (parseBuffer (d ++ v)).1 = (parseBuffer d).1 ++ (parseBuffer v).1 ∧
      ((∃ s', (parseBuffer (d ++ v)).2 = .ok s') ↔ ∃ s', (parseBuffer v).2 = .ok s') := by
  have hlen' := hlen
  rw [List.length_append] at hlen'
  obtain ⟨u, hfirst, -, hu⟩ := parseBuffer_chain (d := d) (by omega)
  obtain rfl := hu.mp ⟨s, h⟩
  obtain ⟨w, hsecond, hw, hend⟩ := parseBuffer_chain (d := v) (by omega)
  obtain ⟨w', hboth, hw', hend'⟩ := parseBuffer_chain hlen
  obtain ⟨hxs, rfl⟩ := hboth.unique hw' (hfirst.append hsecond) hw hlen
  exact ⟨hxs, hend'.trans hend.symm⟩

/-- A response whose flag list goes over the end of its line, and one behind it. -/
theorem parseBuffer_frame_flags :
    (parseBuffer (ascii "* FLAGS (a\r\nb)\r\n" ++ ascii "* 2 RECENT\r\n")).1 =
        (parseBuffer (ascii "* FLAGS (a\r\nb)\r\n")).1 ++
          (parseBuffer (ascii "* 2 RECENT\r\n")).1 ∧
      ((∃ s', (parseBuffer (ascii "* FLAGS (a\r\nb)\r\n" ++ ascii "* 2 RECENT\r\n")).2 =
        .ok s') ↔ ∃ s', (parseBuffer (ascii "* 2 RECENT\r\n")).2 = .ok s') :=
  parseBuffer_frame _ _
    ⟨ascii "* FLAGS (a\r\nb)\r\n", 16, [], none, []⟩ (by decide +kernel) (by decide +kernel)

/-! ## Whole words -/

/-- The words that end in their CRLF are a prefix code: a word that begins with another one is that
word.

**Proof sketch.** On the longer word, `parse_next` reads both. -/
lemma Reading.prefix_free {y : Option Response} (hw : Reading w [] x) (hw' : Reading (w ++ v) [] y)
    (hlen : (w ++ v).length < 2 ^ 31) : v = [] ∧ x = y := by
  have hnil : ¬ LineEnd [] := by
    rintro ⟨c, v', he, -⟩
    cases he
  obtain ⟨-, rfl, hx⟩ := (hw.extend hnil v).unique hw' (List.append_nil _).symm hlen
  exact ⟨rfl, hx⟩

/-- The bytes are words of the responses `xs`, each of which ends in its CRLF. -/
inductive Whole : Bytes → List (Option Response) → Prop where
  | nil : Whole [] []
  | cons {w d : Bytes} {x : Option Response} {xs : List (Option Response)} (hw : Reading w [] x)
      (hlen : w.length < 2 ^ 31) (h : Whole d xs) : Whole (w ++ d) (x :: xs)

/-- A chain that leaves nothing is made of such words. -/
lemma Chain.whole (h : Chain d xs []) (hd : d.length < 2 ^ 31) : Whole d xs := by
  generalize hv : ([] : Bytes) = v at h
  induction h with
  | nil v =>
    subst hv
    exact .nil
  | @cons w u v x xs hw h ih =>
    subst hv
    rw [List.length_append] at hd
    exact .cons (hw.extend h.not_lineEnd []) (by omega) (ih (by omega) rfl)

namespace Whole

/-- One behind the other. -/
lemma append (h : Whole d xs) (h' : Whole v ys) : Whole (d ++ v) (xs ++ ys) := by
  induction h with
  | nil => exact h'
  | cons hw hlen h ih =>
    rw [List.append_assoc]
    exact .cons hw hlen ih

/-- The responses are determined by the bytes.

**Proof sketch.** Induction on the first sequence of words. Of the two words at the head of the same
bytes, one begins with the other, so they are the same. -/
lemma unique (h : Whole d xs) (h' : Whole d ys) : xs = ys := by
  induction h generalizing ys with
  | nil =>
    generalize he : ([] : Bytes) = d at h'
    cases h' with
    | nil => rfl
    | cons hw' _ h' => exact absurd (List.append_eq_nil_iff.mp he.symm).1 hw'.ne_nil
  | @cons w u x xs hw hlen h ih =>
    generalize he : w ++ u = d at h'
    cases h' with
    | nil => exact absurd (List.append_eq_nil_iff.mp he).1 hw.ne_nil
    | @cons w' u' y ys hw' hlen' h' =>
      rcases List.append_eq_append_iff.mp he with ⟨z, rfl, rfl⟩ | ⟨z, rfl, rfl⟩
      · obtain ⟨rfl, rfl⟩ := hw.prefix_free hw' hlen'
        rw [ih h']
      · obtain ⟨rfl, rfl⟩ := hw'.prefix_free hw hlen
        rw [ih h']

/-- The wire forms of responses are whole words. -/
lemma wire (xs : List WireResponse) (hlen : (Stream.wire xs).length < 2 ^ 31) :
    Whole (Stream.wire xs) (xs.map fun x => some x.value) := by
  obtain ⟨s, hrun⟩ := parseBuffer_wire xs (Nat.lt_add_right 2 hlen)
  obtain ⟨v, hchain, -, hend⟩ := parseBuffer_chain hlen
  obtain rfl : v = [] := hend.mp ⟨s, by rw [hrun]⟩
  rw [hrun] at hchain
  exact hchain.whole hlen

end Whole

/-- The wire form of a response is its word. -/
lemma Reading.wire (x : WireResponse) (hlen : x.wire.length < 2 ^ 31) :
    Reading x.wire [] (some x.value) := by
  have hone : Stream.wire [x] = x.wire := List.append_nil _
  have hwhole := Whole.wire [x] (by rwa [hone])
  rw [hone] at hwhole
  generalize hd : x.wire = d at hwhole
  cases hwhole with
  | cons hw _ h =>
    cases h with
    | nil => rwa [List.append_nil]

namespace Whole

/-- Whole words at the head of bytes that also begin with the wire forms of responses: the words go
on behind these, or they end before the last of them. -/
lemma wire_cases {b : Bytes} {ys : List WireResponse} (h : Whole w xs)
    (hys : ∀ y ∈ ys, y.wire.length < 2 ^ 31) (he : w ++ b = Stream.wire ys ++ v) :
    (∃ xs', xs = (ys.map fun y => some y.value) ++ xs') ∨
      ∃ ys₁ ys₂, ys = ys₁ ++ ys₂ ∧ ys₂ ≠ [] ∧ b = Stream.wire ys₂ ++ v := by
  induction ys generalizing w xs with
  | nil => exact Or.inl ⟨xs, rfl⟩
  | cons y ys ih =>
    rw [List.forall_mem_cons] at hys
    have hy := Reading.wire y hys.1
    cases h with
    | nil => exact Or.inr ⟨[], y :: ys, rfl, List.cons_ne_nil _ _, he⟩
    | @cons w d x xs hw hlen h =>
      rw [Stream.wire, List.flatMap_cons, List.append_assoc, List.append_assoc,
        ← Stream.wire] at he
      -- of the two words at the head, one begins with the other
      have hsame : w = y.wire ∧ x = some y.value ∧ d ++ b = Stream.wire ys ++ v := by
        rcases List.append_eq_append_iff.mp he with ⟨z, hz, hrest⟩ | ⟨z, hz, hrest⟩
        · rw [hz] at hy hys
          obtain ⟨rfl, rfl⟩ := hw.prefix_free hy hys.1
          exact ⟨by rw [hz, List.append_nil], rfl, hrest⟩
        · rw [hz] at hw hlen
          obtain ⟨rfl, rfl⟩ := hy.prefix_free hw hlen
          exact ⟨by rw [hz, List.append_nil], rfl, hrest.symm⟩
      obtain ⟨-, rfl, hrest⟩ := hsame
      rcases ih h hys.2 hrest with ⟨xs', rfl⟩ | ⟨ys₁, ys₂, rfl, hne, hb⟩
      · exact Or.inl ⟨xs', rfl⟩
      · exact Or.inr ⟨y :: ys₁, ys₂, rfl, hne, hb⟩

end Whole

end Imapcl
