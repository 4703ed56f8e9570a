import Imapcl.Parser.Delivered
import Imapcl.Parser.Lines
import Imapcl.Parser.StatusLine

set_option relaxedAutoImplicit false
set_option autoImplicit false

/-!
# The language of responses

What `parse_next` accepts, as a relation between the word it passes over, the bytes that follow
the word and the pointer it leaves behind. The relation names no position and no state of the
parser: a derivation of it is a response as the parser understands the grammar, with its numbers
of any size, its codes and flag lists that go over the end of a line, and the three forms that
end before their CRLF. This file has the relation and the direction from a derivation to a run.

## Main definitions

* `Imapcl.ReadAttribute` — a message attribute as it is accepted.
* `Imapcl.Reading` — the relation.

## Main results

* `Imapcl.Reading.run` — `parse_next` reads every word of the language.
-/

namespace Imapcl

open StateExcept Cursor

variable {d u v w : Bytes} {p : ℕ} {κ : List ℤ} {r x : Option Response} {m : Bytes}

/-! ## Attributes -/

/-- A message attribute as `parse_msg_att` accepts it: flags, a unique identifier of any size, or a
body section whose literal is as long as its header announces. -/
inductive ReadAttribute where
  | flags (s : Free (byte ')'))
  | uid (ds : Bytes) (h : Digits ds)
  | body (section_ : Free (byte ']')) (ds content : Bytes) (h : Announces ds content.length)

namespace ReadAttribute

/-- The bytes of an attribute. -/
def wire : ReadAttribute → Bytes
  | flags s => ascii "FLAGS (" ++ s.1 ++ ascii ")"
  | uid ds _ => ascii "UID " ++ ds
  | body sec ds content _ =>
    ascii "BODY[" ++ sec.1 ++ ascii "] \x7b" ++ ds ++ ascii "\x7d" ++ crlf ++ content

/-- The message contents after an attribute, `m` being those before it. -/
def contents (m : Bytes) : ReadAttribute → Bytes
  | body _ _ content _ => content
  | _ => m

/-- Each attribute is read. -/
lemma readsItem (a : ReadAttribute) : ReadsItem d a.wire fun m => a.contents m := by
  cases a with
  | flags s => exact readsItem_flags s
  | uid ds h => exact readsItem_uid h
  | body sec ds content h => exact readsItem_body sec fun _ => h

end ReadAttribute

/-- The line of a FETCH response: `ds` is its number and `e` closes its attributes. -/
def fetchWord (ds : Bytes) (first : ReadAttribute) (rest : List ReadAttribute) (e : Bytes) :
    Bytes :=
  ascii "* " ++ ds ++ ascii " FETCH (" ++ first.wire ++
    (rest.flatMap fun a => ascii " " ++ a.wire) ++ e

/-! ## Responses -/

/-- `Reading w v x`: the word `w` before the bytes `v` is read as one response, which leaves the
pointer `x`. A continuation request stores nothing, and a greeting keeps no text. -/
inductive Reading : Bytes → Bytes → Option Response → Prop where
  | continueReq (t v : Bytes) (ht : RespText t) : Reading (ascii "+ " ++ t ++ crlf) v none
  | tagged (tag : Tag) (c : Cond) (t v : Bytes) (ht : RespText t) :
      Reading (statusLine tag c t ++ crlf) v (some (.status c.type tag.bytes t))
  | untagged (c : Cond) (t v : Bytes) (ht : RespText t) :
      Reading (ascii "* " ++ c.word ++ ascii " " ++ t ++ crlf) v (some (.status c.type [] t))
  | bye (t v : Bytes) (ht : RespText t) :
      Reading (ascii "* BYE " ++ t ++ crlf) v (some (.status .bye [] t))
  | flags (s : Free (byte ')')) (v : Bytes) :
      Reading (ascii "* " ++ (ascii "FLAGS (" ++ s.1 ++ ascii ")") ++ crlf) v (some .flags)
  | exists (ds v : Bytes) (hds : Digits ds) :
      Reading (ascii "* " ++ (ds ++ ascii " EXISTS") ++ crlf) v
        (some (.singleNumber .exists (storedNumber ds)))
  | recent (ds v : Bytes) (hds : Digits ds) :
      Reading (ascii "* " ++ (ds ++ ascii " RECENT") ++ crlf) v
        (some (.singleNumber .recent (storedNumber ds)))
  | search (dss : List Bytes) (v : Bytes) (hdss : ∀ ds ∈ dss, Digits ds) :
      Reading (ascii "* " ++ (ascii "SEARCH" ++ dss.flatMap fun ds => ascii " " ++ ds) ++ crlf) v
        (some (.search (dss.map storedNumber)))
  | fetch (ds v : Bytes) (hds : Digits ds) (first : ReadAttribute) (rest : List ReadAttribute)
      (e : Bytes) (he : Closes e) :
      Reading (fetchWord ds first rest e ++ crlf) v
        (some (.fetch ((first :: rest).foldl ReadAttribute.contents [])))
  | fatal (t v : Bytes) (ht : RespText t) (hv : LineEnd v) (hcrlf : ¬ crlf <+: v) :
      Reading (ascii "* BYE " ++ t) v (some (.status .bye [] t))
  | greeting (t v : Bytes) (ht : RespText t) (hv : LineEnd v) (hcrlf : ¬ crlf <+: v) :
      Reading (ascii "* OK " ++ t) v (some (.status .ok [] []))
  | preauth (t v : Bytes) (ht : RespText t) (hv : LineEnd v) :
      Reading (ascii "* PREAUTH " ++ t) v (some (.status .preauth [] []))

/-! ## From derivations to runs -/

/-- A response that `parse_response_data` reads, up to the end of its line. -/
lemma parseNext_data (h : At d p (ascii "* " ++ u ++ crlf ++ v)) (hd : d.length < 2 ^ 31)
    {x : Response} {m' : Bytes}
    (hrun : ∀ κ, parseResponseData.run ⟨d, p, κ, r, m⟩ =
      .ok (true, ⟨d, p + (ascii "* " ++ u ++ crlf).length, κ, some x, m'⟩)) :
    parseNext.run ⟨d, p, κ, r, m⟩ =
      .ok (true, ⟨d, p + (ascii "* " ++ u ++ crlf).length, κ, some x, m'⟩) := by
  have hlen := h.length_eq
  have hbound := Nat.lt_of_le_of_lt h.skip.1 hd
  simp only [List.length_append, show crlf.length = 2 from rfl] at hlen hbound
  have hstar : At d p (ascii "*" ++ (ascii " " ++ u ++ crlf ++ v)) := h
  exact parseNext_response (by omega) (parseResponse_data hstar (by omega) (hrun _))

/-- A line of mailbox data. -/
lemma parseNext_mailbox {x : Response} (h : At d p (ascii "* " ++ w ++ crlf ++ v))
    (hd : d.length < 2 ^ 31) (hw : ∀ c, (w ++ (crlf ++ v)).head? = some c → isCondStart c = false)
    (hrun : ∀ κ, At d (p + (ascii "* ").length) (w ++ (crlf ++ v)) →
      parseMailboxData.run ⟨d, p + (ascii "* ").length, κ, r, m⟩ =
        .ok (true, ⟨d, p + (ascii "* ").length + w.length, κ, some x, m⟩)) :
    parseNext.run ⟨d, p, κ, r, m⟩ =
      .ok (true, ⟨d, p + (ascii "* " ++ w ++ crlf).length, κ, some x, m⟩) := by
  have hbound := Nat.lt_of_le_of_lt h.assoc.assoc.skip.1 hd
  exact parseNext_data h hd fun κ => parseResponseData_mailbox h hbound hw hrun

/-- **From the language to the parser.** `parse_next` reads every word of the language where the
bytes after it are those of the derivation, and leaves the pointer of the derivation.

**Proof sketch.** By cases on the derivation; each form has its own run. The forms without a CRLF
are read by `parse_response_fatal` and `parse_greeting`, after `parse_response_data` has failed at
the missing CRLF. -/
lemma Reading.run (hw : Reading w v x) (h : At d p (w ++ v)) (hd : d.length < 2 ^ 31) :
    ∃ m', parseNext.run ⟨d, p, κ, none, m⟩ = .ok (true, ⟨d, p + w.length, κ, x, m'⟩) := by
  have hlen := h.length_eq
  have hbound := Nat.lt_of_le_of_lt h.skip.1 hd
  rw [List.length_append] at hlen
  cases hw with
  | continueReq t v ht =>
    have hpos : 0 < crlf.length := by decide
    rw [List.length_append] at hlen hbound
    refine ⟨m, parseNext_response (by omega) ?_⟩
    rw [parseResponse, run_bind_of_ok savePos_run,
      ifM_run_true (parseContinueReq_at ht h (by omega))]
    rfl
  | tagged tag c t v ht =>
    rw [List.length_append] at hlen hbound
    have hpos : 0 < crlf.length := by decide
    exact ⟨m, parseNext_response (by omega) (parseResponse_tagged tag c ht h (by
      rw [← statusLine]
      omega))⟩
  | untagged c t v ht =>
    have hat : At d p (ascii "* " ++ c.word ++ ascii " " ++ t ++ (crlf ++ v)) := h.assoc
    have hword : ascii "* " ++ c.word ++ ascii " " ++ t ++ crlf =
        ascii "* " ++ (c.word ++ ascii " " ++ t) ++ crlf := by
      simp only [List.append_assoc]
    rw [hword] at h ⊢
    refine ⟨m, parseNext_data h hd fun κ => ?_⟩
    rw [parseResponseData_cond c ht (lineEnd_crlf v) hat (Nat.lt_of_le_of_lt hat.skip.1 hd),
      expectCrlf_at hat.skip, ← hat.skip.skip.unique h.skip]
    rfl
  | bye t v ht =>
    have hat : At d p (ascii "* BYE " ++ t ++ (crlf ++ v)) := h.assoc
    have hword : At d p (ascii "* " ++ (ascii "BYE " ++ t) ++ crlf ++ v) := h
    refine ⟨m, parseNext_data hword hd fun κ => ?_⟩
    rw [parseResponseData_bye ht (lineEnd_crlf v) hat (Nat.lt_of_le_of_lt hat.skip.1 hd),
      expectCrlf_at hat.skip, ← hat.skip.skip.unique hword.skip]
    rfl
  | flags s v =>
    exact ⟨m, parseNext_mailbox h hd (head_cons _ rfl) fun κ hat =>
      parseMailboxData_flags s hat⟩
  | «exists» ds v hds =>
    exact ⟨m, parseNext_mailbox h hd (by rw [List.append_assoc]; exact digits_head hds)
      fun κ hat => parseMailboxData_exists hds hat⟩
  | recent ds v hds =>
    exact ⟨m, parseNext_mailbox h hd (by rw [List.append_assoc]; exact digits_head hds)
      fun κ hat => parseMailboxData_recent hds hat⟩
  | search dss v hdss =>
    exact ⟨m, parseNext_mailbox h hd (head_cons _ rfl) fun κ hat =>
      parseMailboxData_search dss hdss hat⟩
  | fetch ds v hds first rest e he =>
    rw [List.length_append] at hlen hbound
    have hstar : At d p (ascii "*" ++ (ascii " " ++ _)) := h
    have hpos : 0 < crlf.length := by decide
    exact ⟨_, parseNext_response (by omega) (parseResponse_data hstar (by omega)
      (parseResponseData_fetch hds first rest he (fun a _ => a.readsItem) h (by
        rw [← fetchWord]
        omega)))⟩
  | fatal t v ht hv hcrlf => exact ⟨m, parseNext_fatal ht hv hcrlf h hd⟩
  | greeting t v ht hv hcrlf =>
    exact ⟨m, parseNext_greeting .ok ht hv h hd fun κ => parseResponseData_okOpen ht hv hcrlf h hd⟩
  | preauth t v ht hv =>
    have hat : At d p (ascii "* " ++ (ascii "PREAUTH" ++ (ascii " " ++ t ++ v))) := by
      simp only [List.append_assoc] at h ⊢
      exact h
    exact ⟨m, parseNext_greeting .preauth ht hv h hd fun κ => parseResponseData_preauth hat hd⟩

end Imapcl
