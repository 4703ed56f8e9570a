import Mathlib.Tactic.Common

set_option relaxedAutoImplicit false
set_option autoImplicit false

/-!
# Bytes, exceptions and server responses

The data that passes between the server, the receiver thread and the session. A `std::string` is
a list of bytes; a `char` is signed on the target, so the bytes from `128` on are the negative
characters. The class hierarchy below `Response` (`response.hpp`) is one inductive type with a
constructor for each class.

## Main definitions

* `Imapcl.Bytes`, `Imapcl.ascii` — strings, and the string literals of the source.
* `Imapcl.StdException` — the exceptions the program throws or lets the library throw.
* `Imapcl.ResponseType`, `Imapcl.Response` — server responses and their virtual methods.
-/

namespace Imapcl

/-! ## Strings -/

/-- A `std::string`: any sequence of bytes. -/
abbrev Bytes := List UInt8

/-- The bytes of an ASCII string literal. -/
def ascii (s : String) : Bytes := s.toList.map fun c => UInt8.ofNat c.toNat

/-- The byte of an ASCII character literal. -/
def byte (c : Char) : UInt8 := UInt8.ofNat c.toNat

/-- `'\r'`. -/
def cr : UInt8 := 13

/-- `'\n'`. -/
def lf : UInt8 := 10

/-- `"\r\n"`. -/
def crlf : Bytes := [cr, lf]

/-- `std::isdigit` in the C locale; a negative character is not a digit. -/
def isDigit (c : UInt8) : Bool := 48 ≤ c && c ≤ 57

/-- `std::isalnum` in the C locale; a negative character is not alphanumeric. -/
def isAlnum (c : UInt8) : Bool := isDigit c || (65 ≤ c && c ≤ 90) || (97 ≤ c && c ≤ 122)

/-- `TEXT-CHAR` of the grammar: a 7-bit character other than NUL, CR and LF. -/
def isTextChar (c : UInt8) : Bool := c ≠ 0 && c < 128 && c ≠ cr && c ≠ lf

/-! ## Exceptions -/

/-- An exception derived from `std::exception`, with its text where the source gives one. The
last two come from the standard library: `std::string::substr` beyond the end of the string, and
the construction of a string that is too long. -/
inductive StdException where
  | runtimeError (what : Bytes)
  | logicError (what : Bytes)
  | outOfRange
  | lengthError
  deriving DecidableEq, Repr

/-! ## Responses -/

/-- `enum class ResponseType`. -/
inductive ResponseType where
  | ok
  | no
  | bad
  | preauth
  | bye
  | search
  | fetch
  | exists
  | recent
  | flags
  deriving DecidableEq, Repr

/-- `responseTypeToString`, and the text `operator<<` prints. -/
def responseTypeToString : ResponseType → Bytes
  | .ok => ascii "OK"
  | .no => ascii "NO"
  | .bad => ascii "BAD"
  | .preauth => ascii "PREAUTH"
  | .bye => ascii "BYE"
  | .search => ascii "SEARCH"
  | .fetch => ascii "FETCH"
  | .exists => ascii "EXISTS"
  | .recent => ascii "RECENT"
  | .flags => ascii "FLAGS"

/-- A server response: the base class `Response` itself, which the reply loops of the session
put in the place of a response they keep, and its five subclasses. -/
inductive Response where
  | base (type : ResponseType)
  | status (type : ResponseType) (tag text : Bytes)
  | search (seqNumbers : List UInt32)
  | fetch (messageData : Bytes)
  | singleNumber (type : ResponseType) (number : UInt32)
  | flags
  deriving DecidableEq, Repr

namespace Response

/-- `get_type`. -/
def getType : Response → ResponseType
  | base type => type
  | status type _ _ => type
  | search _ => .search
  | fetch _ => .fetch
  | singleNumber type _ => type
  | flags => .flags

/-- `get_tag`: empty except for a status response. -/
def getTag : Response → Bytes
  | status _ tag _ => tag
  | _ => []

/-- `get_text`: only a status response overrides the throwing method of the base class. -/
def getText : Response → Except StdException Bytes
  | status _ _ text => .ok text
  | _ => .error (.logicError (ascii "get_text virtual method called!"))

/-- `set_tag`: only a status response overrides the throwing method of the base class. -/
def setTag (tag : Bytes) : Response → Except StdException Response
  | status type _ text => .ok (status type tag text)
  | _ => .error (.logicError (ascii "set_tag virtual method called!"))

end Response

end Imapcl
