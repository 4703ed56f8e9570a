import Imapcl.Response.Decimal

set_option relaxedAutoImplicit false
set_option autoImplicit false

/-!
# Well-formed responses and their wire forms

What a server may send, stated without reference to the parser: a type whose values are the
well-formed responses of the supported kinds, the bytes each of them is sent as, and the response
object it stands for. The side conditions on the parts (a tag is alphanumeric, a flag list has no
`)`, …) are fields, so a value that violates one cannot be written down.

## Main definitions

* `Imapcl.StatusText` — the text of a status response, with its optional code in brackets.
* `Imapcl.Attribute` — a message attribute of a FETCH response.
* `Imapcl.WireResponse`, `Imapcl.WireResponse.wire`, `Imapcl.WireResponse.value`.
* `Imapcl.Stream.wire` — the bytes of a sequence of responses.
-/

namespace Imapcl

/-! ## Parts -/

/-- A number below `2 ^ 31`. -/
abbrev Number := { n : ℕ // n < 2 ^ 31 }

/-- A word without the byte `c`. -/
abbrev Free (c : UInt8) := { w : Bytes // c ∉ w }

/-- A command tag: a non-empty alphanumeric word. -/
structure Tag where
  bytes : Bytes
  nonempty : bytes ≠ []
  alnum : ∀ c ∈ bytes, isAlnum c = true

/-- A digit is alphanumeric. -/
lemma isAlnum_of_isDigit {c : UInt8} (h : isDigit c = true) : isAlnum c = true := by
  rw [isAlnum, h]
  rfl

/-- The tag that is the numeral of `n`. -/
def Tag.number (n : ℕ) : Tag where
  bytes := decimal n
  nonempty := by
    obtain ⟨c, w, hc, -⟩ := exists_decimal_eq_cons n
    rw [hc]
    exact List.cons_ne_nil c w
  alnum := fun c hc => isAlnum_of_isDigit (isDigit_of_mem_decimal n c hc)

/-- The code in the brackets of a status text. It has no `]`, and where it begins with one of the
codes that are recognised it is that code and nothing more. -/
structure RespTextCode (code : Bytes) : Prop where
  free : byte ']' ∉ code
  alert : ascii "ALERT" <+: code → code = ascii "ALERT"
  unseen : ascii "UNSEEN" <+: code →
    ∃ digits, digits ≠ [] ∧ (∀ c ∈ digits, isDigit c = true) ∧ code = ascii "UNSEEN " ++ digits
  readOnly : ascii "READ-ONLY" <+: code → code = ascii "READ-ONLY"
  readWrite : ascii "READ-WRITE" <+: code → code = ascii "READ-WRITE"

/-- A word of one or more characters that fits on a line. -/
structure LineText (w : Bytes) : Prop where
  nonempty : w ≠ []
  line : ∀ c ∈ w, c ≠ cr ∧ c ≠ lf

/-- A text that is plain, or has a code in brackets and a rest. -/
inductive TextForm (w : Bytes) : Prop where
  | plain (h : w.head? ≠ some (byte '['))
  | coded (code rest : Bytes) (hw : w = ascii "[" ++ code ++ ascii "] " ++ rest)
      (hcode : RespTextCode code) (hrest : rest ≠ [])

/-- The text of a status response. -/
structure StatusText where
  bytes : Bytes
  text : LineText bytes
  form : TextForm bytes

/-- What is read as the text of a status response: a text that fits on a line and is plain, or a
code in brackets and a text that fits on a line. The code may go over the end of the line. -/
inductive RespText (w : Bytes) : Prop where
  | plain (h : w.head? ≠ some (byte '[')) (hw : LineText w)
  | coded (code rest : Bytes) (hw : w = ascii "[" ++ code ++ ascii "] " ++ rest)
      (hcode : RespTextCode code) (hrest : LineText rest)

/-- The text of a status response is read as one. -/
lemma StatusText.respText (t : StatusText) : RespText t.bytes := by
  obtain ⟨w, htext, hform⟩ := t
  cases hform with
  | plain h => exact .plain h htext
  | coded code rest hw hcode hrest =>
    exact .coded code rest hw hcode ⟨hrest, fun c hc => htext.line c (by simp [hw, hc])⟩

/-- The word `done` fits on a line. -/
lemma lineText_done : LineText (ascii "done") := by
  refine ⟨by decide, fun c hc => ?_⟩
  have hc' : c ∈ [byte 'd', byte 'o', byte 'n', byte 'e'] := hc
  simp only [List.mem_cons, List.not_mem_nil, or_false] at hc'
  rcases hc' with rfl | rfl | rfl | rfl <;> decide

/-- The text `done`. -/
def StatusText.done : StatusText := ⟨ascii "done", lineText_done, .plain (by decide)⟩

/-- The condition of a status response. -/
inductive Cond where
  | ok
  | no
  | bad
  deriving DecidableEq, Repr

namespace Cond

/-- The status word. -/
def word : Cond → Bytes
  | ok => ascii "OK"
  | no => ascii "NO"
  | bad => ascii "BAD"

/-- The response type. -/
def type : Cond → ResponseType
  | ok => .ok
  | no => .no
  | bad => .bad

end Cond

/-! ## Message attributes -/

/-- A message attribute: flags, a unique identifier, or a body section as a literal. -/
inductive Attribute where
  | flags (s : Free (byte ')'))
  | uid (n : Number)
  | body (section_ : Free (byte ']')) (content : Bytes) (h : content.length < 2 ^ 31)

namespace Attribute

/-- The bytes of an attribute. -/
def wire : Attribute → Bytes
  | flags s => ascii "FLAGS (" ++ s.1 ++ ascii ")"
  | uid n => ascii "UID " ++ decimal n.1
  | body sec content _ =>
    ascii "BODY[" ++ sec.1 ++ ascii "] \x7b" ++ decimal content.length ++ ascii "\x7d" ++ crlf ++
      content

/-- The message contents after an attribute, `m` being those before it. -/
def contents (m : Bytes) : Attribute → Bytes
  | body _ content _ => content
  | _ => m

end Attribute

/-- The contents of a message: those of its last body, or none. -/
def messageContents (as : List Attribute) : Bytes := as.foldl Attribute.contents []

/-! ## Responses -/

/-- The well-formed responses of the supported kinds. -/
inductive WireResponse where
  | tagged (tag : Tag) (cond : Cond) (text : StatusText)
  | untagged (cond : Cond) (text : StatusText)
  | bye (text : StatusText)
  | flags (s : Free (byte ')'))
  | exists (n : Number)
  | recent (n : Number)
  | search (ns : List Number)
  | fetch (n : Number) (first : Attribute) (rest : List Attribute)

namespace WireResponse

/-- The bytes of a response before its CRLF. -/
def line : WireResponse → Bytes
  | tagged tag cond text => tag.bytes ++ ascii " " ++ cond.word ++ ascii " " ++ text.bytes
  | untagged cond text => ascii "* " ++ cond.word ++ ascii " " ++ text.bytes
  | bye text => ascii "* BYE " ++ text.bytes
  | flags s => ascii "* FLAGS (" ++ s.1 ++ ascii ")"
  | «exists» n => ascii "* " ++ decimal n.1 ++ ascii " EXISTS"
  | recent n => ascii "* " ++ decimal n.1 ++ ascii " RECENT"
  | search ns => ascii "* SEARCH" ++ ns.flatMap fun n => ascii " " ++ decimal n.1
  | fetch n first rest =>
    ascii "* " ++ decimal n.1 ++ ascii " FETCH (" ++ first.wire ++
      (rest.flatMap fun a => ascii " " ++ a.wire) ++ ascii ")"

/-- The wire form of a response. -/
def wire (x : WireResponse) : Bytes := x.line ++ crlf

/-- The response object that a response stands for. -/
def value : WireResponse → Response
  | tagged tag cond text => .status cond.type tag.bytes text.bytes
  | untagged cond text => .status cond.type [] text.bytes
  | bye text => .status .bye [] text.bytes
  | flags _ => .flags
  | «exists» n => .singleNumber .exists (UInt32.ofNat n.1)
  | recent n => .singleNumber .recent (UInt32.ofNat n.1)
  | search ns => .search (ns.map fun n => UInt32.ofNat n.1)
  | fetch _ first rest => .fetch (messageContents (first :: rest))

end WireResponse

/-- The bytes of a sequence of responses. -/
def Stream.wire (xs : List WireResponse) : Bytes := xs.flatMap WireResponse.wire

end Imapcl
