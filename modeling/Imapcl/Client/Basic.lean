import Imapcl.Client.Credentials
import Imapcl.Foundation.Program
import Imapcl.Session.Basic

set_option relaxedAutoImplicit false
set_option autoImplicit false

/-!
# The client

`client.cpp`, and `main.cpp` from the point at which the arguments have been read: the functions of
the user's thread above the session, as programs that ask for the operations of the session and for
what they read, print and save.

## Design

* The action `getline` names the line that is read. The programs have the lines of the standard
  input as an argument, and the end of the input is the end of the list; what follows the last
  newline is not a line, since reading it sets the flag of the end.
* What one statement prints is one action, and the log of errors has the exception that is caught.

## Main definitions

* `Imapcl.Action`, `Imapcl.Client` — what the user's thread asks for.
* `Imapcl.downloadMailbox`, `Imapcl.readNew`, `Imapcl.processCommand`, `Imapcl.repl` — the class
  `Client`.
* `Imapcl.mainInteractive`, `Imapcl.mainBatch`, `Imapcl.main` — the two modes.
-/

namespace Imapcl

open Program

/-! ## Actions -/

/-- What an operation of the session returns. -/
abbrev Call.Result : Call → Type
  | .search _ => List UInt32
  | .fetch _ _ => List Bytes
  | _ => Unit

/-- What the user's thread does outside of its own computations. -/
inductive Action where
  | call (c : Call)
  | getState
  | getCurrentMailbox
  | saveMessages (messages : List Bytes)
  | print (text : Bytes)
  | errorLog (ex : StdException)
  | getline (line : Option Bytes)
  deriving DecidableEq, Repr

/-- The result of an action. An operation of the session, and the directory writer, may throw. -/
abbrev Action.Answer : Action → Type
  | .call c => Except StdException c.Result
  | .getState => ImapState
  | .getCurrentMailbox => Bytes
  | .saveMessages _ => Except StdException Unit
  | _ => Unit

/-- A function of the user's thread. -/
abbrev Client (α : Type) := Program Action Action.Answer StdException α

/-- What has been asked for and answered. -/
abbrev Log := List (Entry Action Action.Answer)

/-- An operation of the session. -/
def call (c : Call) : Client c.Result := perform (Action.call c) >>= Program.ofExcept

/-- `directoryWriter.save_messages(messages)`. -/
def save (messages : List Bytes) : Client Unit :=
  perform (Action.saveMessages messages) >>= Program.ofExcept

/-- `std::cout << text`. -/
def print (text : Bytes) : Client Unit := perform (Action.print text)

/-- `logger.error_log(ex.what())`. -/
def errorLog (ex : StdException) : Client Unit := perform (Action.errorLog ex)

section Rules

variable {C : Contract Action Action.Answer} {log : Log} {c : Call}

/-- The rule for an operation of the session. -/
lemma respects_call {Q : Log → Except StdException c.Result → Prop} :
    Respects C Q (call c) log ↔ C.demands log (.call c) ∧
      ∀ r, C.allows log ⟨.call c, r⟩ → Q (log ++ [⟨.call c, r⟩]) r := by
  rw [call, perform_bind]
  exact and_congr_right' (forall₂_congr fun r _ => Respects.ofExcept_iff)

/-- The rule for the directory writer. -/
lemma respects_save {messages : List Bytes}
    {Q : Log → Except StdException Unit → Prop} :
    Respects C Q (save messages) log ↔ C.demands log (.saveMessages messages) ∧
      ∀ r, C.allows log ⟨.saveMessages messages, r⟩ →
        Q (log ++ [⟨.saveMessages messages, r⟩]) r := by
  rw [save, perform_bind]
  exact and_congr_right' (forall₂_congr fun r _ => Respects.ofExcept_iff)

/-- A program that calls one operation. -/
lemma only_call {P : Action → Prop} (hc : P (.call c)) : Only P (call c) :=
  ⟨hc, fun r => Only.ofExcept r⟩

end Rules

/-! ## The class `Client` -/

/-- `HELP`. -/
def helpText : Bytes :=
  ascii "DOWNLOADALL [mailbox]\tDownload all mail in mailbox\n" ++
    ascii "DOWNLOADNEW [mailbox]\tDownload all new mail in mailbox\n" ++
    ascii "READNEW [mailbox]\tMark all mail as read in mailbox\n" ++
    ascii "QUIT\tLogout and quit the program.\n" ++ ascii "HELP\tShow this message\n"

/-- The pattern of a command with an optional mailbox: `command( ([a-zA-Z0-9-_]{1,128}))?`. -/
def commandPattern (command : Bytes) : Pattern UInt8 :=
  .seq (.lit command) (.opt (.group (.seq (.lit (ascii " "))
    (.group (.many isMailboxChar 1 (some 128))))))

/-- `Commands::DOWNLOADNEW`. -/
def downloadNewPattern : Pattern UInt8 := commandPattern (ascii "DOWNLOADNEW")

/-- `Commands::DOWNLOADALL`. -/
def downloadAllPattern : Pattern UInt8 := commandPattern (ascii "DOWNLOADALL")

/-- `Commands::READNEW`. -/
def readNewPattern : Pattern UInt8 := commandPattern (ascii "READNEW")

/-- `match[2]`. -/
def mailboxName (m : Pattern.Match UInt8) : Bytes := m.groups.getD 1 []

/-- `print_prompt`. -/
def printPrompt : Client Unit := do
  let state ← perform Action.getState
  if state = .selected then do
    let mailbox ← perform Action.getCurrentMailbox
    print (ascii "[" ++ imapStateToString state ++ ascii " " ++ mailbox ++ ascii "] " ++
      ascii "imapcl> ")
  else print (ascii "[" ++ imapStateToString state ++ ascii "] " ++ ascii "imapcl> ")

/-- The actions of the prompt. -/
def Action.OfPrompt : Action → Prop
  | .getState | .getCurrentMailbox | .print _ => True
  | _ => False

/-- The rule for the prompt: it returns, and what its actions leave true holds after it. -/
lemma respects_printPrompt {C : Contract Action Action.Answer} {I : Log → Prop} {log : Log}
    (hstep : ∀ log e, e.action.OfPrompt → I log → I (log ++ [e]))
    (hdemands : ∀ log i, i.OfPrompt → I log → C.demands log i) (h : I log) :
    Respects C (fun log r => I log ∧ r = .ok ()) printPrompt log := by
  refine Respects.perform_bind_iff.mpr ⟨hdemands _ _ trivial h, fun state _ => ?_⟩
  have hstate := hstep log ⟨.getState, state⟩ trivial h
  by_cases hselected : state = .selected
  · rw [if_pos hselected]
    refine ⟨hdemands _ _ trivial hstate, fun mailbox _ => ?_⟩
    have hmailbox := hstep _ ⟨.getCurrentMailbox, mailbox⟩ trivial hstate
    exact ⟨hdemands _ _ trivial hmailbox, fun _ _ => ⟨hstep _ _ trivial hmailbox, rfl⟩⟩
  · rw [if_neg hselected]
    exact ⟨hdemands _ _ trivial hstate, fun _ _ => ⟨hstep _ _ trivial hstate, rfl⟩⟩

/-- `if (!mailbox_name.empty()) session->select(mailbox_name);`. -/
def selectNamed (mailbox : Bytes) : Client Unit :=
  if mailbox ≠ [] then call (.select mailbox) else pure ()

/-- The text in which a function names the mailbox, if it has been given one. -/
def naming (preposition : String) (mailbox : Bytes) : Bytes :=
  if mailbox = [] then [] else ascii preposition ++ mailbox ++ ascii " "

/-- The report of a download of `n` messages. -/
def downloadReport (what : String) (mailbox : Bytes) (n : ℕ) : Bytes :=
  decimal n ++ ascii what ++ naming "from " mailbox ++ ascii "downloaded." ++ [lf]

/-- `download_new` and `download_all`, where `mailbox` is `match[2]`. -/
def downloadMailbox (onlyUnseen : Bool) (what : String) (mailbox : Bytes) : Client Unit := do
  selectNamed mailbox
  let seqSet ← call (.search onlyUnseen)
  let result ← attempt (if seqSet ≠ [] then do
      let messages ← call (.fetch seqSet false)
      save messages
    else pure ())
  match result with
  | .error ex => errorLog ex
  | .ok () => print (downloadReport what mailbox seqSet.length)

/-- The actions of a download: only what has been found is fetched. -/
def Action.OfDownload : Action → Prop
  | .call (.select _) | .call (.search _) => True
  | .call (.fetch sequenceSet _) => sequenceSet ≠ []
  | .saveMessages _ | .print _ | .errorLog _ => True
  | _ => False

/-- What a download asks for. -/
lemma only_downloadMailbox (onlyUnseen : Bool) (what : String) (mailbox : Bytes) :
    Only Action.OfDownload (downloadMailbox onlyUnseen what mailbox) := by
  refine Only.bind ?_ fun _ => ?_
  · unfold selectNamed
    split
    · exact only_call trivial
    · trivial
  refine Only.bind (only_call trivial) fun seqSet => Only.bind (Only.attempt ?_) fun result => ?_
  · split
    · next hset => exact (only_call hset).bind fun messages => ⟨trivial, fun r => Only.ofExcept r⟩
    · trivial
  · cases result <;> exact ⟨trivial, fun _ => trivial⟩

/-- `download_new`. -/
def downloadNew (mailbox : Bytes) : Client Unit := downloadMailbox true " new messages " mailbox

/-- `download_all`. -/
def downloadAll (mailbox : Bytes) : Client Unit := downloadMailbox false " messages " mailbox

/-- `read_new`, where `mailbox` is `match[2]`. -/
def readNew (mailbox : Bytes) : Client Unit := do
  selectNamed mailbox
  let seqSet ← call (.search false)
  let result ← attempt (call (.read seqSet))
  match result with
  | .error ex => errorLog ex
  | .ok () =>
    print (ascii "All messages " ++ naming "in " mailbox ++ ascii "marked as read." ++ [lf])

/-- `process_command`. -/
def processCommand (input : Bytes) : Client Unit :=
  match (Pattern.lit (ascii "HELP")).search none input with
  | some _ => print helpText
  | none => match (Pattern.lit (ascii "QUIT")).search none input with
    | some _ => do
      call .logout
      print (ascii "Logout." ++ [lf])
    | none => match downloadNewPattern.search none input with
      | some m => downloadNew (mailboxName m)
      | none => match downloadAllPattern.search none input with
        | some m => downloadAll (mailboxName m)
        | none => match readNewPattern.search none input with
          | some m => readNew (mailboxName m)
          | none =>
            if input = [] then pure ()
            else print (ascii "Please use one of the commands: \n" ++ helpText)

/-- One round of the loop of `repl`: unless the state is `SERVER_BYED`, the line is read and `next`
is done. -/
def replRound (line : Option Bytes) (next : Client Unit) : Client Unit := do
  let state ← perform Action.getState
  if state = .serverByed then pure ()
  else do
    printPrompt
    perform (Action.getline line)
    next

/-- The loop of `repl`, on the lines of the standard input that are left. -/
def replLoop : List Bytes → Client Unit
  | [] => replRound none do
    call .logout
    print (ascii "Closing session: Bye!" ++ [lf])
    print [lf]
  | input :: inputs => replRound (some input) do
    processCommand input
    replLoop inputs

/-- `repl`. -/
def repl (inputs : List Bytes) : Client Unit := do
  print (ascii "Interactive mode. Type HELP to get help. " ++
    ascii "Exit with ^D or by typing QUIT." ++ [lf])
  replLoop inputs

/-! ## The function `main` -/

/-- The arguments of the program that are used after the connection is made. -/
structure Options where
  interactive : Bool
  onlyUnseen : Bool
  onlyHeaders : Bool
  mailboxName : Bytes
  deriving DecidableEq, Repr

/-- The set-up of the connection, which the two modes share. -/
def setUp (creds : Credentials) (mailbox : Bytes) : Client Unit := do
  call .receiveGreeting
  call (.login creds.getUsername creds.getPassword)
  call (.select mailbox)

/-- The actions of the set-up. -/
def Action.OfSetUp : Action → Prop
  | .call .receiveGreeting | .call (.login _ _) | .call (.select _) => True
  | _ => False

/-- What the set-up asks for. -/
lemma only_setUp (creds : Credentials) (mailbox : Bytes) :
    Only Action.OfSetUp (setUp creds mailbox) :=
  (only_call trivial).bind fun _ => (only_call trivial).bind fun _ => only_call trivial

/-- Report an exception and return `1`. -/
def fail (ex : StdException) : Client ℕ := do
  errorLog ex
  pure 1

/-- The interactive mode. -/
def mainInteractive (o : Options) (creds : Credentials) (inputs : List Bytes) : Client ℕ := do
  setUp creds o.mailboxName
  let result ← attempt (repl inputs)
  match result with
  | .error ex => fail ex
  | .ok () => pure 0

/-- The report of the messages that have been fetched. -/
def fetchedReport (o : Options) (n : ℕ) : Bytes :=
  ascii "* Fetched " ++ decimal n ++ ascii " " ++
    (if o.onlyUnseen then ascii "unseen messages" else ascii "messages") ++
    (if o.onlyHeaders then ascii " (headers)" else []) ++ ascii "." ++ [lf]

/-- The report that there are no messages. -/
def noMessagesReport (o : Options) : Bytes :=
  ascii "* " ++ ascii "No" ++ (if o.onlyUnseen then ascii " unseen" else []) ++
    ascii " messages " ++ ascii "in mailbox \"" ++ o.mailboxName ++ ascii "\"" ++ [lf]

/-- The non-interactive mode. -/
def mainBatch (o : Options) (creds : Credentials) : Client ℕ := do
  let result ← attempt (do
    setUp creds o.mailboxName
    let seqSet ← call (.search o.onlyUnseen)
    if 0 < seqSet.length then call (.fetch seqSet o.onlyHeaders) else pure [])
  match result with
  | .error ex => fail ex
  | .ok messages =>
    if messages.length ≠ 0 then do
      print (fetchedReport o messages.length)
      let result ← attempt (save messages)
      match result with
      | .error ex => fail ex
      | .ok () => pure 0
    else do
      print (noMessagesReport o)
      pure 0

/-- `main`, where `creds` and `server` are what the constructors of `Credentials` and of the server
return or throw. -/
def main (o : Options) (creds : Except StdException Credentials)
    (server : Except StdException Unit) (inputs : List Bytes) : Client ℕ :=
  match creds with
  | .error (.runtimeError what) => fail (.runtimeError what)
  | .error ex => raise ex
  | .ok creds => match server with
    | .error ex => fail ex
    | .ok () => if o.interactive then mainInteractive o creds inputs else mainBatch o creds

end Imapcl
