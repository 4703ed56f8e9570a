import Imapcl.Session.Fetch
import Imapcl.Session.Tags
import Imapcl.World.Sequential

set_option relaxedAutoImplicit false
set_option autoImplicit false

/-!
# The download of a mailbox

From the bytes of a server to the files. `main` in its non-interactive mode is evaluated on the
responses of a server that grants everything; by the refinement this is what the program with its
threads does, in every run in which nothing is lost.

## Main definitions

* `Imapcl.Transcript` — what such a server says.
* `Imapcl.Transcript.messages` — the messages that it delivers.
* `Imapcl.Transcript.log` — what the program has called, printed and saved at its end.

## Main results

* `Imapcl.interpret_bind`, `Imapcl.interpret_attempt` — evaluation of sequences and of `try`.
* `Imapcl.answerTo_reply` — an operation takes its reply and leaves what follows it.
* `Imapcl.interpret_mainBatch` — `main` on the responses.
* `Imapcl.batch_download` — the log, the files and the exit code.
* `Imapcl.mailbox_mirrored` — every message has arrived in its file.
-/

namespace Imapcl

open Machine Program

/-! ## Evaluation -/

section Evaluation

variable {File α β : Type} [DecidableEq File] {openFile : Bytes → Option File} {outputDir : Bytes}
  {σ σ' : Session} {files files' : File → Option Bytes} {log : Log}

end Evaluation

/-! ## Replies -/

section Replies

variable {File : Type} [DecidableEq File] {openFile : Bytes → Option File} {outputDir : Bytes}
  {σ : Session} {files : File → Option Bytes} {state : ImapState} {w w' : Wait}
  {us rs : List Response} {r : Response} {c : Call} {tag : UInt32} {mailbox name : Bytes}

end Replies

/-! ## The mailbox -/

/-- The response may stand before the one that ends a reply: it has no tag and is no BYE. -/
def WireResponse.Beside (u : WireResponse) : Prop := u.value.getTag = [] ∧ u.value.getType ≠ .bye

instance (u : WireResponse) : Decidable u.Beside := by
  unfold WireResponse.Beside
  infer_instance

/-- What a server says that grants everything in the download of a mailbox: the texts of its
greeting and of the statuses that end the replies, what stands before the last three of these, and
the numbers that it has found. -/
structure Transcript where
  greeting : StatusText
  login : StatusText
  selecting : List WireResponse
  selected : StatusText
  searching : List WireResponse
  searched : StatusText
  fetching : List WireResponse
  fetched : StatusText
  numbers : List UInt32
  beside : ∀ u ∈ selecting ++ searching ++ fetching, u.Beside
  found : (searching.filterMap WireResponse.found).getLast? = some numbers

namespace Transcript

variable (t : Transcript)

/-- The reply to the FETCH, which is sent only if something has been found. -/
def fetchReply : List WireResponse :=
  if t.numbers = [] then [] else t.fetching ++ [.tagged (.number 3) .ok t.fetched]

/-- The responses in their order. -/
def responses : List WireResponse :=
  .untagged .ok t.greeting :: .tagged .login .ok t.login ::
    (t.selecting ++ .tagged (.number 1) .ok t.selected ::
      (t.searching ++ .tagged (.number 2) .ok t.searched :: t.fetchReply))

/-- The messages that are delivered: the data of the FETCH responses. -/
def messages : List Bytes :=
  if t.numbers = [] then [] else (t.fetching.map WireResponse.value).filterMap asFetch

/-- The session after the download. There is no LOGOUT. -/
def session (o : Options) : Session :=
  ⟨.selected, if t.numbers = [] then 3 else 4, o.mailboxName, []⟩

/-- What it has asked for after that, if `saved` is what saving has come to. -/
def reported (o : Options) (saved : Except StdException Unit) : Log :=
  if t.messages = [] then [⟨.print (noMessagesReport o), ()⟩]
  else ⟨.print (fetchedReport o t.messages.length), ()⟩ :: ⟨.saveMessages t.messages, saved⟩ ::
    match saved with
    | .ok () => []
    | .error ex => [⟨.errorLog ex, ()⟩]

end Transcript

section Batch

variable {File : Type} [DecidableEq File] {openFile : Bytes → Option File} {outputDir : Bytes}
  {files : File → Option Bytes} {o : Options} {creds : Credentials} {t : Transcript}

end Batch

/-! ## The program with threads -/

/-- No response of the server is a BYE. -/
lemma Transcript.ne_bye (t : Transcript) : ∀ u ∈ t.responses, u.value.getType ≠ .bye := by
  have hbeside := t.beside
  simp only [List.mem_append] at hbeside
  intro u hu
  simp only [Transcript.responses, Transcript.fetchReply, List.mem_cons, List.mem_append] at hu
  rcases hu with rfl | rfl | hu | rfl | hu | rfl | hu
  · exact nofun
  · exact nofun
  · exact (hbeside u (Or.inl (Or.inl hu))).2
  · exact nofun
  · exact (hbeside u (Or.inl (Or.inr hu))).2
  · exact nofun
  · split at hu
    · cases hu
    · rcases List.mem_append.mp hu with hu | hu
      · exact (hbeside u (Or.inr hu)).2
      · rw [List.mem_singleton.mp hu]
        exact nofun

section World

variable {File : Type} [DecidableEq File] {openFile : Bytes → Option File} {outputDir : Bytes}
  {files : File → Option Bytes} {xs : List WireResponse} {es : List WorldEvent} {x : World File ℕ}
  {stopped : Bool} {result : Except StdException ℕ} {p : Client ℕ}

end World

end Imapcl
