import Imapcl.Response.Decimal

set_option relaxedAutoImplicit false
set_option autoImplicit false

/-!
# Commands

The commands a session sends (`command.hpp`), with the bytes they are sent as. The class hierarchy
below `Command` is one inductive type with a constructor for each class.

## Main definitions

* `Imapcl.Command`, `Imapcl.Command.makeTcp`.
-/

namespace Imapcl

/-- A command. The class `Command` itself, whose `make_tcp` throws, is not sent. -/
inductive Command where
  | login (tag userName password : Bytes)
  | select (tag mailboxName : Bytes)
  | search (tag searchCriteria : Bytes)
  | fetch (tag : Bytes) (sequenceSet : List UInt32) (dataItem : Bytes)
  | store (tag : Bytes) (sequenceSet : List UInt32) (dataItemName dataItemValue : Bytes)
  | logout (tag : Bytes)
  deriving DecidableEq, Repr

namespace Command

/-- The tag of a command. -/
def tag : Command → Bytes
  | login tag _ _ => tag
  | select tag _ => tag
  | search tag _ => tag
  | fetch tag _ _ => tag
  | store tag _ _ _ => tag
  | logout tag => tag

/-- The numbers of a sequence set, separated by commas; an empty set throws. -/
def sequenceSetText : List UInt32 → Except StdException Bytes
  | [] => .error (.logicError (ascii "Sequence set empty!"))
  | n :: ns =>
    .ok (ascii " " ++ decimal n.toNat ++ ns.flatMap fun n => ascii "," ++ decimal n.toNat)

/-- `make_tcp`. -/
def makeTcp : Command → Except StdException Bytes
  | login tag userName password =>
    .ok (tag ++ ascii " LOGIN " ++ userName ++ ascii " " ++ password ++ crlf)
  | select tag mailboxName => .ok (tag ++ ascii " SELECT " ++ mailboxName ++ crlf)
  | search tag searchCriteria => .ok (tag ++ ascii " SEARCH " ++ searchCriteria ++ crlf)
  | fetch tag sequenceSet dataItem => do
    let numbers ← sequenceSetText sequenceSet
    pure (tag ++ ascii " FETCH" ++ numbers ++ ascii " " ++ dataItem ++ crlf)
  | store tag sequenceSet dataItemName dataItemValue => do
    let numbers ← sequenceSetText sequenceSet
    pure (tag ++ ascii " STORE" ++ numbers ++ ascii " " ++ dataItemName ++ ascii " " ++
      dataItemValue ++ crlf)
  | logout tag => .ok (tag ++ ascii " LOGOUT" ++ crlf)

end Command

end Imapcl
