import Mathlib.Algebra.Group.Nat.Defs
import Mathlib.Algebra.Ring.Int.Defs
import Imapcl.Foundation.StateExcept
import Imapcl.Response.Basic

set_option relaxedAutoImplicit false
set_option autoImplicit false

/-!
# The parser object

The state of a `ResponseParser` (`response_parser.hpp`) and the small operations that every
nonterminal is made of: the stack of saved positions, the literal match and the character reads.
The parser is a recursive-descent parser that backtracks by hand: a nonterminal saves its start
position, and every exit either restores it or pops it.

## Design

* The out-parameters `parsed_response` and `message_contents`, of which one object at a time is
  passed down by reference, are fields of the state.
* `curr_pos` is a `size_t` and never wraps here, but the position stack is a `std::stack<int>`: a
  position is narrowed to 32 bits when it is saved and sign-extended when it is restored.
* A fault is an exception or an access the language leaves undefined: a character beyond the
  terminator of `data`, or the top of an empty stack.
* The log calls are left out: the parser's logger prints nothing below the level `ERROR`, and
  printing changes no state.

## Main definitions

* `Imapcl.ResponseParser`, `Imapcl.Fault`, `Imapcl.Parser` — states, faults, computations.
* `Imapcl.savePos`, `Imapcl.restorePos`, `Imapcl.popPos`, `Imapcl.matchStr`.
* `Imapcl.expect`, `Imapcl.parseFail`, `Imapcl.parseSuccess` — the macros of the source.
-/

namespace Imapcl

open StateExcept

/-! ## States and faults -/

/-- The parser object, with the out-parameters of the call in progress. -/
structure ResponseParser where
  data : Bytes
  currPos : ℕ
  posStack : List ℤ
  parsedResponse : Option Response
  messageContents : Bytes
  deriving DecidableEq, Repr

/-- The constructor of `ResponseParser`, called with a null `parsed_response`. -/
def ResponseParser.ofData (data : Bytes) : ResponseParser := ⟨data, 0, [], none, []⟩

/-- Why a call does not return: a thrown exception, undefined behaviour, or a loop that does not
end. -/
inductive Fault where
  | thrown (ex : StdException)
  | undefined
  | diverges
  deriving DecidableEq, Repr

/-- A method of the parser. -/
abbrev Parser := StateT ResponseParser (Except Fault)

/-- `throw std::runtime_error(what)`. -/
def throwRuntime {α : Type} (what : String) : Parser α :=
  throw (.thrown (.runtimeError (ascii what)))

/-- `throw std::logic_error(what)`. -/
def throwLogic {α : Type} (what : String) : Parser α :=
  throw (.thrown (.logicError (ascii what)))

/-! ## Integers of the target -/

/-- The value of a signed 32-bit integer after arithmetic that leaves its range: it wraps. -/
def wrap32 (x : ℤ) : ℤ := x.bmod (2 ^ 32)

/-- The conversion of a signed 32-bit integer to `size_t`: sign extension. -/
def toSizeT (x : ℤ) : ℕ := (x % 2 ^ 64).toNat

/-- A value in the range of a signed 32-bit integer is unchanged. -/
lemma wrap32_of_lt {n : ℕ} (h : n < 2 ^ 31) : wrap32 n = n := by
  unfold wrap32
  rw [Int.bmod_eq_of_le] <;> omega

/-- Saving and restoring a position below `2 ^ 31` gives it back. -/
lemma toSizeT_wrap32 {n : ℕ} (h : n < 2 ^ 31) : toSizeT (wrap32 n) = n := by
  rw [wrap32_of_lt h, toSizeT]
  omega

/-! ## The position stack -/

/-- `save_pos`. -/
def savePos : Parser Unit :=
  modify fun s => { s with posStack := wrap32 s.currPos :: s.posStack }

/-- `restore_pos`. -/
def restorePos : Parser Unit := do
  let s ← get
  match s.posStack with
  | [] => throw .undefined
  | p :: stack => set { s with currPos := toSizeT p, posStack := stack }

/-- `pop_pos`. -/
def popPos : Parser Unit := do
  let s ← get
  match s.posStack with
  | [] => throw .undefined
  | _ :: stack => set { s with posStack := stack }

/-! ## Reading the data -/

/-- `data.substr(pos, n)`. -/
def substr (pos n : ℕ) : Parser Bytes := do
  let s ← get
  if s.data.length < pos then throw (.thrown .outOfRange)
  else pure ((s.data.drop pos).take n)

/-- `a - b` on `size_t`. -/
def subSizeT (a b : ℕ) : ℕ := if b ≤ a then a - b else a + 2 ^ 64 - b

/-- `match(expected)`: advance over `expected` if the data continues with it. -/
def matchStr (expected : Bytes) : Parser Bool := do
  let s ← get
  if (← substr s.currPos expected.length) = expected then do
    set { s with currPos := s.currPos + expected.length }
    pure true
  else pure false

/-- The bytes that the reads `data[curr_pos]`, `data[curr_pos + 1]`, … of a scanning loop see
before the terminator. The first of these reads is already undefined beyond the terminator. -/
def ahead : Parser Bytes := do
  let s ← get
  if s.data.length < s.currPos then throw .undefined
  else pure (s.data.drop s.currPos)

/-- `data[curr_pos]`, the terminator being `'\0'`. -/
def charAt : Parser UInt8 := do
  pure ((← ahead).headD 0)

/-- `curr_pos += n`. -/
def advance (n : ℕ) : Parser Unit := modify fun s => { s with currPos := s.currPos + n }

/-- `parsed_response = r`. -/
def setResponse (r : Response) : Parser Unit := modify fun s => { s with parsedResponse := some r }

/-- `parsed_response->set_tag(tag)`; the pointer must not be null. -/
def setResponseTag (tag : Bytes) : Parser Unit := do
  let s ← get
  match s.parsedResponse with
  | none => throw .undefined
  | some r => match r.setTag tag with
    | .error ex => throw (.thrown ex)
    | .ok r' => set { s with parsedResponse := some r' }

/-- `message_contents = contents`. -/
def setContents (contents : Bytes) : Parser Unit :=
  modify fun s => { s with messageContents := contents }

/-! ## The macros -/

/-- `PARSE_FAIL`, for a function with result `a` on failure. -/
def parseFailWith {α : Type} (a : α) : Parser α := do
  restorePos
  pure a

/-- `PARSE_SUCCESS`, for a function with result `a` on success. -/
def parseSuccessWith {α : Type} (a : α) : Parser α := do
  popPos
  pure a

/-- `PARSE_FAIL`. -/
def parseFail : Parser Bool := parseFailWith false

/-- `PARSE_SUCCESS`. -/
def parseSuccess : Parser Bool := parseSuccessWith true

/-- `if (!p()) PARSE_FAIL`, followed by `rest`. -/
def expect (p rest : Parser Bool) : Parser Bool := ifM p rest parseFail

/-- `EXPECT_MATCH(s)`, followed by `rest`. -/
def expectMatch (s : String) (rest : Parser Bool) : Parser Bool := expect (matchStr (ascii s)) rest

/-! ## Running the operations -/

section Running

variable {d : Bytes} {p : ℕ} {κ : List ℤ} {r : Option Response} {m : Bytes}

/-- Saving pushes the position. -/
@[simp] lemma savePos_run :
    savePos.run ⟨d, p, κ, r, m⟩ = .ok ((), ⟨d, p, wrap32 p :: κ, r, m⟩) := rfl

/-- `message_contents = contents`. -/
@[simp] lemma setContents_run {contents : Bytes} :
    (setContents contents).run ⟨d, p, κ, r, m⟩ = .ok ((), ⟨d, p, κ, r, contents⟩) := rfl

/-- Success keeps the position and pops the saved one. -/
lemma parseSuccessWith_run {α : Type} {a : α} {x : ℤ} :
    (parseSuccessWith a).run ⟨d, p, x :: κ, r, m⟩ = .ok (a, ⟨d, p, κ, r, m⟩) := rfl

/-- Failure goes back to a position saved below `2 ^ 31`. -/
lemma parseFailWith_run {α : Type} {a : α} {q : ℕ} (h : q < 2 ^ 31) :
    (parseFailWith a).run ⟨d, p, wrap32 q :: κ, r, m⟩ = .ok (a, ⟨d, q, κ, r, m⟩) := by
  conv_rhs => rw [← toSizeT_wrap32 h]
  rfl

/-- `PARSE_FAIL` answers `false` at the saved position. -/
lemma parseFail_run {q : ℕ} (h : q < 2 ^ 31) :
    parseFail.run ⟨d, p, wrap32 q :: κ, r, m⟩ = .ok (false, ⟨d, q, κ, r, m⟩) :=
  parseFailWith_run h

/-- Taking a substring inside the data. -/
lemma substr_run {q n : ℕ} (h : q ≤ d.length) :
    (substr q n).run ⟨d, p, κ, r, m⟩ = .ok ((d.drop q).take n, ⟨d, p, κ, r, m⟩) := by
  simp only [substr]
  rw [run_bind_of_ok (StateT.run_get _), if_neg (Nat.not_lt.mpr h)]
  rfl

/-- A substring that starts beyond the end throws. -/
lemma substr_run_beyond {q n : ℕ} (h : d.length < q) :
    (substr q n).run ⟨d, p, κ, r, m⟩ = .error (.thrown .outOfRange) := by
  simp only [substr]
  rw [run_bind_of_ok (StateT.run_get _), if_pos h]
  rfl

/-- A match advances over the literal. -/
lemma matchStr_run_true {w : Bytes} (hp : p ≤ d.length) (h : w <+: d.drop p) :
    (matchStr w).run ⟨d, p, κ, r, m⟩ = .ok (true, ⟨d, p + w.length, κ, r, m⟩) := by
  simp only [matchStr]
  rw [run_bind_of_ok (StateT.run_get _), run_bind_of_ok (substr_run hp),
    if_pos (List.prefix_iff_eq_take.mp h).symm]
  rfl

/-- A failed match changes nothing. -/
lemma matchStr_run_false {w : Bytes} (hp : p ≤ d.length) (h : ¬ w <+: d.drop p) :
    (matchStr w).run ⟨d, p, κ, r, m⟩ = .ok (false, ⟨d, p, κ, r, m⟩) := by
  simp only [matchStr]
  rw [run_bind_of_ok (StateT.run_get _), run_bind_of_ok (substr_run hp),
    if_neg fun he => h (List.prefix_iff_eq_take.mpr he.symm)]
  rfl

/-- A match beyond the end of the data throws. -/
lemma matchStr_run_beyond {w : Bytes} (hp : d.length < p) :
    (matchStr w).run ⟨d, p, κ, r, m⟩ = .error (.thrown .outOfRange) := by
  simp only [matchStr]
  rw [run_bind_of_ok (StateT.run_get _), run_bind_of_error (substr_run_beyond hp)]

/-- The bytes ahead of a position inside the data. -/
lemma ahead_run (hp : p ≤ d.length) :
    ahead.run ⟨d, p, κ, r, m⟩ = .ok (d.drop p, ⟨d, p, κ, r, m⟩) := by
  simp only [ahead]
  rw [run_bind_of_ok (StateT.run_get _), if_neg (Nat.not_lt.mpr hp)]
  rfl

/-- Reading beyond the terminator is undefined. -/
lemma ahead_run_beyond (hp : d.length < p) :
    ahead.run ⟨d, p, κ, r, m⟩ = .error .undefined := by
  simp only [ahead]
  rw [run_bind_of_ok (StateT.run_get _), if_pos hp]
  rfl

/-- The character at a position inside the data, or its terminator. -/
lemma charAt_run (hp : p ≤ d.length) :
    charAt.run ⟨d, p, κ, r, m⟩ = .ok ((d.drop p).headD 0, ⟨d, p, κ, r, m⟩) := by
  simp only [charAt]
  rw [run_bind_of_ok (ahead_run hp)]
  rfl

/-- Reading a character beyond the terminator is undefined. -/
lemma charAt_run_beyond (hp : d.length < p) :
    charAt.run ⟨d, p, κ, r, m⟩ = .error .undefined := by
  simp only [charAt]
  rw [run_bind_of_error (ahead_run_beyond hp)]

end Running

end Imapcl
