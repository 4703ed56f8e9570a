import Imapcl.Session.Command

set_option relaxedAutoImplicit false
set_option autoImplicit false

/-!
# The session

The object that the user's thread and the receiving thread share (`session.cpp`). The receiving
thread calls `notify_incoming` and `receiver_notify_failed`; the user's thread calls one operation
after the other, and an operation alternates between waiting for a response and reacting to it.

## Design

* An operation is cut at its calls of `wait_for_response` and `transition`. `Imapcl.begin` is the
  part before the first of them, with the guard and the send; `Imapcl.react` is what the operation
  does with a response; `Imapcl.Control` is the place it has reached.
* `receiver_ex` is a `std::exception` by value, so the exception assigned to it is sliced and its
  text is lost.
* The log calls are left out, except that the arguments of a call are evaluated and may throw.

## Main definitions

* `Imapcl.ImapState`, `Imapcl.Session`, `Imapcl.Call`, `Imapcl.Wait`, `Imapcl.Control`.
* `Imapcl.Session.incoming`, `Imapcl.Session.waitForResponse`.
* `Imapcl.begin`, `Imapcl.react` — the operations.
-/

namespace Imapcl

/-! ## Data -/

/-- `enum class ImapState`. -/
inductive ImapState where
  | greeting
  | nauth
  | authd
  | selected
  | logout
  | receiverError
  | serverByed
  deriving DecidableEq, Repr

/-- The text `operator<<` prints. -/
def imapStateToString : ImapState → Bytes
  | .greeting => ascii "GREETING"
  | .nauth => ascii "NAUTH"
  | .authd => ascii "AUTHD"
  | .selected => ascii "SELECTED"
  | .logout => ascii "LOGOUT"
  | .receiverError => ascii "RECEIVER_ERROR"
  | .serverByed => ascii "SERVER_BYED"

/-- The states in which the connection is lost: `RECEIVER_ERROR` and `SERVER_BYED`. -/
def ImapState.Terminal (state : ImapState) : Prop := state = .receiverError ∨ state = .serverByed

instance (state : ImapState) : Decidable state.Terminal := by
  unfold ImapState.Terminal
  infer_instance

/-- The session. -/
structure Session where
  state : ImapState
  tag : UInt32
  currentMailbox : Bytes
  responseQueue : List Response
  deriving DecidableEq, Repr

namespace Session

/-- The constructor of `Session`; the queue is static and starts empty. -/
def new : Session := ⟨.greeting, 1, [], []⟩

/-- `get_new_tag`: the tag, and the session after it. -/
def getNewTag (σ : Session) : Bytes × Session :=
  (decimal σ.tag.toNat, { σ with tag := σ.tag + 1 })

/-- `transition`. -/
def transition (σ : Session) (state : ImapState) : Session := { σ with state := state }

/-! ## The receiving thread -/

/-- What `notify_incoming` does after it has read the state. -/
def notifyIncoming (σ : Session) (state : ImapState) (response : Response) :
    Except StdException Session :=
  if response.getType = .bye ∧ state ≠ .logout then do
    let _ ← response.getText
    pure (σ.transition .serverByed)
  else pure { σ with responseQueue := σ.responseQueue ++ [response] }

/-- `receiver_notify_failed`. -/
def receiverNotifyFailed (σ : Session) : Session := σ.transition .receiverError

/-- The rest of `notify_incoming` as the receiver calls it: an exception is caught and reported. -/
def incomingIn (σ : Session) (state : ImapState) (response : Response) : Session :=
  match σ.notifyIncoming state response with
  | .ok σ' => σ'
  | .error _ => σ.receiverNotifyFailed

/-- A call of `notify_incoming` that nothing interrupts. -/
def incoming (σ : Session) (response : Response) : Session := σ.incomingIn σ.state response

/-! ## Waiting -/

/-- `wait_for_response`, after the wait: `none` while the condition of the wait is false. -/
def waitForResponse (σ : Session) : Option (Except StdException (Response × Session)) :=
  if σ.state = .receiverError then
    some (.error (.runtimeError (ascii "Connection error: std::exception")))
  else if σ.state = .serverByed then
    some (.error (.runtimeError (ascii "Connection terminated by server.")))
  else match σ.responseQueue with
    | [] => none
    | response :: queue => some (.ok (response, { σ with responseQueue := queue }))

end Session

/-! ## Operations -/

/-- A call of an operation. -/
inductive Call where
  | receiveGreeting
  | login (userName password : Bytes)
  | select (mailbox : Bytes)
  | search (onlyUnseen : Bool)
  | fetch (sequenceSet : List UInt32) (onlyHeaders : Bool)
  | read (sequenceSet : List UInt32)
  | logout
  deriving DecidableEq, Repr

/-- What an operation returns; an `IMFMessage` is the data it is made from. -/
inductive Value where
  | unit
  | numbers (seqNumbers : List UInt32)
  | messages (messageData : List Bytes)
  deriving DecidableEq, Repr

/-- The operation that waits, with its local variables: the last search result, and the FETCH
responses kept so far, of which each is null where the cast failed. -/
inductive Wait where
  | greeting
  | login
  | select (mailbox : Bytes)
  | search (found : Option (List UInt32))
  | fetch (found : List (Option Bytes))
  | read
  | logout
  deriving DecidableEq, Repr

/-- Where the user's thread is: outside of an operation, before the first one or after one that
returned or threw; in `wait_for_response`; before a call of `transition`; or in undefined
behaviour. -/
inductive Control where
  | idle
  | waiting (w : Wait)
  | moving (w : Wait) (target : ImapState)
  | returned (v : Value)
  | threw (ex : StdException)
  | undefined
  deriving DecidableEq, Repr

/-- The thread may call an operation. -/
def Control.Free : Control → Prop
  | .idle => True
  | .returned _ => True
  | .threw _ => True
  | _ => False

instance (c : Control) : Decidable c.Free := by
  cases c <;> unfold Control.Free <;> infer_instance

/-- The session and the place after a part of an operation, with the command it sent. -/
structure Begun where
  session : Session
  command : Option Command
  control : Control
  deriving DecidableEq, Repr

/-- `server->send(command)`, followed by `next`. -/
def send (σ : Session) (command : Command) (next : Control) : Begun :=
  match command.makeTcp with
  | .ok _ => ⟨σ, some command, next⟩
  | .error ex => ⟨σ, some command, .threw ex⟩

/-- A guard that is violated. -/
def refuse (σ : Session) (what : String) : Begun := ⟨σ, none, .threw (.logicError (ascii what))⟩

/-- An operation up to its first call of `wait_for_response` or `transition`. -/
def begin (σ : Session) : Call → Begun
  | .receiveGreeting => ⟨σ, none, .waiting .greeting⟩
  | .login userName password =>
    if σ.state = .authd then ⟨σ, none, .returned .unit⟩
    else if σ.state ≠ .nauth then refuse σ "Cannot issue this command in current state."
    else send σ (.login (ascii "a001") userName password) (.waiting .login)
  | .select mailbox =>
    if σ.state = .nauth then refuse σ "Cannot issue this command in current state."
    else send σ.getNewTag.2 (.select σ.getNewTag.1 mailbox) (.waiting (.select mailbox))
  | .search onlyUnseen =>
    if σ.state ≠ .selected then refuse σ "Cannot issue this command in current state."
    else send σ.getNewTag.2
      (.search σ.getNewTag.1 (if onlyUnseen then ascii "UNSEEN" else ascii "ALL"))
      (.waiting (.search none))
  | .fetch sequenceSet onlyHeaders =>
    if σ.state ≠ .selected then refuse σ "Cannot issue this command in current state."
    else send σ.getNewTag.2
      (.fetch σ.getNewTag.1 sequenceSet
        (if onlyHeaders then ascii "(BODY.PEEK[HEADER])" else ascii "BODY[]"))
      (.waiting (.fetch []))
  | .read sequenceSet =>
    if σ.state ≠ .selected then refuse σ "Can only issue this command in SELECTED state."
    else send σ.getNewTag.2
      (.store σ.getNewTag.1 sequenceSet (ascii "+FLAGS") (ascii "\\Seen")) (.waiting .read)
  | .logout =>
    send σ.getNewTag.2 (.logout σ.getNewTag.1) (.moving .logout .logout)

/-- `throw std::runtime_error(what + responseTypeToString(type) + "] Server: " + get_text())`. -/
def failWith (what : String) (response : Response) : Control :=
  match response.getText with
  | .ok text => .threw (.runtimeError (ascii what ++ responseTypeToString response.getType ++
      ascii "] Server: " ++ text))
  | .error ex => .threw ex

/-- `dynamic_cast<SearchResponse *>`, and the numbers of the response. -/
def asSearch : Response → Option (List UInt32)
  | .search seqNumbers => some seqNumbers
  | _ => none

/-- `dynamic_cast<FetchResponse *>`, and the data of the response. -/
def asFetch : Response → Option Bytes
  | .fetch messageData => some messageData
  | _ => none

/-- `unexpected_response`. -/
def unexpectedResponse (state : ImapState) (response : Response) : Control :=
  .threw (.runtimeError (ascii "Unexpected response in state " ++ imapStateToString state ++
    ascii ": " ++ responseTypeToString response.getType))

/-- The end of an operation that reads its result through a pointer, which must not be null. -/
def deliver : Option Value → Control
  | none => .undefined
  | some v => .returned v

/-- What an operation does with a response, up to its next call of `wait_for_response` or
`transition`, or to its end. -/
def react (state : ImapState) (response : Response) : Wait → Control
  | .greeting => match response.getType with
    | .ok => .moving .greeting .nauth
    | .preauth => .moving .greeting .authd
    | _ => unexpectedResponse state response
  | .login =>
    if response.getType = .ok then
      if response.getTag ≠ ascii "a001" then .threw (.runtimeError (ascii "Unexpected tag"))
      else match response.getText with
        | .ok _ => .moving .login .authd
        | .error ex => .threw ex
    else failWith "LOGIN failed -> [" response
  | .select mailbox =>
    if response.getTag = [] then .waiting (.select mailbox)
    else if response.getType = .ok then .moving (.select mailbox) .selected
    else failWith "SELECT Failed -> [" response
  | .search found =>
    if response.getType = .search then .waiting (.search (asSearch response))
    else if response.getTag = [] then .waiting (.search found)
    else if response.getType = .ok then deliver (found.map .numbers)
    else failWith "SEARCH Failed -> [" response
  | .fetch found =>
    if response.getType = .fetch then .waiting (.fetch (found ++ [asFetch response]))
    else if response.getTag = [] then .waiting (.fetch found)
    else if response.getType = .ok then deliver ((found.mapM id).map .messages)
    else failWith "FETCH Failed -> [" response
  | .read =>
    if response.getType = .ok then .moving .read .selected
    else failWith "STORE Failed -> [" response
  | .logout => .returned .unit

/-- The place of an operation after its call of `transition`. -/
def afterTransition : Wait → Control
  | .logout => .waiting .logout
  | _ => .returned .unit

/-- The current mailbox after the call of `transition`. -/
def mailboxAfter (currentMailbox : Bytes) : Wait → Bytes
  | .select mailbox => mailbox
  | _ => currentMailbox

end Imapcl
