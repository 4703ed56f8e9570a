import Mathlib.Data.List.Perm.Basic
import Imapcl.Parser.Echo
import Imapcl.Session.System

set_option relaxedAutoImplicit false
set_option autoImplicit false

/-!
# The tags of a run

Every command but LOGIN takes its tag from a counter of 32 bits, which wraps; LOGIN has a tag of its
own. A tag is taken by every command that is handed to the server, also by one that cannot be
encoded and is never sent.

## Main definitions

* `Imapcl.handed`, `Imapcl.commands` — the commands that a step and a run hand to the server.
* `Imapcl.counter` — the tags that the counter gives out.
* `Imapcl.TagsReadBack` — no tag occurs twice, and the tags are read back.

## Main results

* `Imapcl.begin_tag` — how an operation takes its tag.
* `Imapcl.tags_of_run` — the tags of a run.
* `Imapcl.tags_read_back_iff` — the tags are distinct, and the lines from which they are read back.
* `Imapcl.tags_not_read_back` — a line that is too long, and a counter that wraps.
-/

namespace Imapcl

open Machine

/-! ## Commands of a run -/

/-- The command that a step hands to `Server::send`. -/
def handed (s : System) : Event → Option Command
  | .call c => if s.control.Free then (begin s.session c).command else none
  | _ => none

/-- The commands that the steps of a run hand to `Server::send`. -/
def commands (s : System) : List Event → List Command
  | [] => []
  | e :: es => match s.step e with
    | none => []
    | some s' => (handed s e).toList ++ commands s' es

/-- The command is a LOGIN. -/
def Command.isLogin : Command → Bool
  | .login _ _ _ => true
  | _ => false

/-- The command can be encoded, so that it is sent. -/
def Command.encodes (command : Command) : Bool := command.makeTcp.isOk

section Steps

variable {s s' : System} {e : Event} {es : List Event} {command : Command}

/-- A step hands over the command that it sends. -/
lemma handed_eq_some_iff : handed s e = some command ↔ Sends s e command := by
  cases e with
  | call c =>
    rw [handed]
    constructor
    · intro h
      split at h
      · next hfree => exact ⟨c, rfl, hfree, h⟩
      · cases h
    · rintro ⟨c', hc, hfree, h⟩
      obtain rfl := Event.call.inj hc
      rw [if_pos hfree, h]
  | _ =>
    constructor
    · intro h
      cases h
    · rintro ⟨c, hc, -⟩
      cases hc

/-- A send leaves the session alone. -/
@[simp] lemma send_session (σ : Session) (command : Command) (next : Control) :
    (send σ command next).session = σ := by
  unfold send
  split <;> rfl

/-- A send hands its command over. -/
@[simp] lemma send_command (σ : Session) (command : Command) (next : Control) :
    (send σ command next).command = some command := by
  unfold send
  split <;> rfl

/-- What an operation does with the counter: it hands over nothing, or a LOGIN with its own tag, or
another command with the tag of the counter, which goes on by one. -/
lemma begin_tag (σ : Session) (c : Call) :
    ((begin σ c).command = none ∧ (begin σ c).session = σ) ∨
    (∃ userName password,
      (begin σ c).command = some (.login (ascii "a001") userName password) ∧
        (begin σ c).session = σ) ∨
    ∃ command, (begin σ c).command = some command ∧ command.isLogin = false ∧
      command.tag = decimal σ.tag.toNat ∧ (begin σ c).session = { σ with tag := σ.tag + 1 } := by
  cases c with
  | receiveGreeting => exact Or.inl ⟨rfl, rfl⟩
  | login userName password =>
    rw [begin]
    split
    · exact Or.inl ⟨rfl, rfl⟩
    · split
      · exact Or.inl ⟨rfl, rfl⟩
      · exact Or.inr (Or.inl ⟨userName, password, by simp, by simp⟩)
  | logout => exact Or.inr (Or.inr ⟨_, send_command _ _ _, rfl, rfl, send_session _ _ _⟩)
  | _ =>
    rw [begin]
    split
    · exact Or.inl ⟨rfl, rfl⟩
    · exact Or.inr (Or.inr ⟨_, send_command _ _ _, rfl, rfl, send_session _ _ _⟩)

/-- A step that is no call leaves the counter alone. -/
lemma step_tag (h : s.step e = some s') (he : ∀ c, e ≠ .call c) :
    s'.session.tag = s.session.tag := by
  cases e with
  | call c => exact absurd rfl (he c)
  | transition =>
    obtain ⟨w, target, -, rfl⟩ := step_transition_iff.mp h
    rfl
  | take =>
    obtain ⟨w, -, ⟨-, hsession, -⟩ | ⟨r, rs, -, -, rfl⟩⟩ := step_take_cases h
    · rw [hsession]
    · rfl
  | timeout =>
    obtain ⟨ex, rfl, -⟩ := step_timeout_cases h
    rfl
  | incoming r =>
    rw [← Option.some.inj h]
    rcases incoming_cases s.session r with ⟨-, -, hs | hs⟩ | ⟨-, hs⟩ <;> simp only [hs] <;> rfl
  | failed =>
    rw [← Option.some.inj h]
    rfl

/-- What a step does with the counter. -/
lemma handed_tag (h : s.step e = some s') :
    (handed s e = none ∧ s'.session.tag = s.session.tag) ∨
    (∃ userName password, handed s e = some (.login (ascii "a001") userName password) ∧
      s'.session.tag = s.session.tag) ∨
    ∃ command, handed s e = some command ∧ command.isLogin = false ∧
      command.tag = decimal s.session.tag.toNat ∧ s'.session.tag = s.session.tag + 1 := by
  cases e with
  | call c =>
    obtain ⟨hfree, rfl⟩ := step_call_iff.mp h
    rw [handed, if_pos hfree]
    rcases begin_tag s.session c with ⟨hnone, hs⟩ | ⟨u, v, hsome, hs⟩ | ⟨x, hsome, hx, htag, hs⟩
    · exact Or.inl ⟨hnone, by rw [hs]⟩
    · exact Or.inr (Or.inl ⟨u, v, hsome, by rw [hs]⟩)
    · exact Or.inr (Or.inr ⟨x, hsome, hx, htag, by rw [hs]⟩)
  | _ => exact Or.inl ⟨rfl, step_tag h nofun⟩

end Steps

/-! ## The counter -/

/-- The tags that a counter gives to the next `n` commands. -/
def counter : UInt32 → ℕ → List Bytes
  | _, 0 => []
  | k, n + 1 => decimal k.toNat :: counter (k + 1) n

/-- A tag of the counter. -/
lemma mem_counter {tag : Bytes} {k : UInt32} {n : ℕ} (h : tag ∈ counter k n) :
    ∃ i < n, tag = decimal ((k.toNat + i) % 2 ^ 32) := by
  induction n generalizing k with
  | zero => cases h
  | succ n ih =>
    rcases List.mem_cons.mp h with rfl | h
    · exact ⟨0, Nat.zero_lt_succ n, by rw [Nat.add_zero, Nat.mod_eq_of_lt k.toNat_lt]⟩
    · obtain ⟨i, hi, rfl⟩ := ih h
      refine ⟨i + 1, Nat.succ_lt_succ hi, congrArg decimal ?_⟩
      rw [UInt32.toNat_add]
      simp only [UInt32.reduceToNat]
      omega

/-- A numeral is not the tag of a LOGIN. -/
lemma decimal_ne_login (n : ℕ) : decimal n ≠ ascii "a001" := by
  intro h
  have hmem : byte 'a' ∈ decimal n := by
    rw [h]
    exact List.mem_cons_self
  exact absurd (isDigit_of_mem_decimal n _ hmem) (by decide)

/-- The counter does not come back to a tag before it has wrapped.

**Proof sketch.** Induction on the number of commands. The first tag does not occur among the later
ones, since a numeral has one value, and less than `2 ^ 32` is added to it. -/
lemma nodup_counter {k : UInt32} {n : ℕ} (h : n ≤ 2 ^ 32) : (counter k n).Nodup := by
  induction n generalizing k with
  | zero => exact List.nodup_nil
  | succ n ih =>
    refine List.nodup_cons.mpr ⟨fun hmem => ?_, ih (by omega)⟩
    obtain ⟨i, hi, heq⟩ := mem_counter hmem
    have hvalue := congrArg numeralValue heq
    rw [numeralValue_decimal, numeralValue_decimal, UInt32.toNat_add] at hvalue
    simp only [UInt32.reduceToNat] at hvalue
    have := k.toNat_lt
    omega

/-! ## Runs -/

section Runs

variable {s s' : System} {es es' : List Event}

/-- The first step of a run. -/
lemma commands_cons {e : Event} (h : s.step e = some s') :
    commands s (e :: es) = (handed s e).toList ++ commands s' es := by
  rw [commands, h]

/-- A run in two parts. -/
lemma commands_append (h : run System.step s es = some s') :
    commands s (es ++ es') = commands s es ++ commands s' es' := by
  induction es generalizing s with
  | nil =>
    obtain rfl := Option.some.inj h
    rfl
  | cons e es ih =>
    obtain ⟨s₁, hs, hrest⟩ := exists_of_run_cons h
    rw [List.cons_append, commands_cons hs, commands_cons hs, ih hrest, List.append_assoc]

/-- The tags of a run: a LOGIN has its own, and the other commands have those of the counter.

**Proof sketch.** Induction on the steps. A call takes a tag as `begin_tag` says, and the other
steps leave the counter alone. -/
lemma tags_of_run (h : run System.step s es = some s') :
    ((commands s es).filter fun command => !command.isLogin).map Command.tag =
        counter s.session.tag ((commands s es).countP fun command => !command.isLogin) ∧
      ∀ command ∈ commands s es, command.isLogin = true → command.tag = ascii "a001" := by
  induction es generalizing s with
  | nil => exact ⟨rfl, nofun⟩
  | cons e es ih =>
    obtain ⟨s₁, hs, hrest⟩ := exists_of_run_cons h
    obtain ⟨htags, hlogin⟩ := ih hrest
    rw [commands_cons hs]
    rcases handed_tag hs with ⟨hnone, htag⟩ | ⟨u, v, hsome, htag⟩ | ⟨x, hsome, hx, hxtag, htag⟩
    · rw [hnone, Option.toList_none, List.nil_append, ← htag]
      exact ⟨htags, hlogin⟩
    · rw [hsome, Option.toList_some, List.singleton_append, ← htag]
      refine ⟨by simpa [Command.isLogin] using htags, ?_⟩
      rintro command (_ | ⟨_, hmem⟩) hc
      · rfl
      · exact hlogin command hmem hc
    · rw [hsome, Option.toList_some, List.singleton_append]
      rw [htag] at htags
      refine ⟨by simp [hx, hxtag, counter, htags], ?_⟩
      rintro command (_ | ⟨_, hmem⟩) hc
      · cases hx.symm.trans hc
      · exact hlogin command hmem hc

/-- The tag of a LOGIN. -/
def Tag.login : Tag := ⟨ascii "a001", by decide, by decide +kernel⟩

/-- Every tag is alphanumeric. -/
lemma exists_tag (h : run System.step s es = some s') {command : Command}
    (hmem : command ∈ commands s es) : ∃ tag : Tag, command.tag = tag.bytes := by
  obtain ⟨htags, hlogin⟩ := tags_of_run h
  cases hc : command.isLogin with
  | true =>
    rw [hlogin command hmem hc]
    exact ⟨Tag.login, rfl⟩
  | false =>
    have htag : command.tag ∈ counter s.session.tag
        ((commands s es).countP fun command => !command.isLogin) := by
      rw [← htags]
      exact List.mem_map_of_mem (List.mem_filter.mpr ⟨hmem, by simp [hc]⟩)
    obtain ⟨i, -, heq⟩ := mem_counter htag
    exact ⟨Tag.number _, heq⟩

/-- The tags of a run with at most one LOGIN are distinct, unless the counter wraps.

**Proof sketch.** The tags of the other commands are those of the counter, and that of the LOGIN is
no numeral. -/
lemma nodup_tags (h : run System.step s es = some s')
    (hone : (commands s es).countP Command.isLogin ≤ 1)
    (hfew : ((commands s es).countP fun command => !command.isLogin) < 2 ^ 32) :
    ((commands s es).map Command.tag).Nodup := by
  obtain ⟨htags, hlogin⟩ := tags_of_run h
  have hperm := (List.filter_append_perm Command.isLogin (commands s es)).map Command.tag
  rw [← hperm.nodup_iff, List.map_append, htags, List.nodup_append]
  refine ⟨?_, nodup_counter (Nat.le_of_lt hfew), ?_⟩
  · rw [List.countP_eq_length_filter] at hone
    generalize (commands s es).filter Command.isLogin = logins at hone
    rcases logins with _ | ⟨x, _ | ⟨y, logins⟩⟩
    · exact List.nodup_nil
    · exact List.pairwise_singleton _ _
    · simp at hone
  · intro tag hmem tag' hmem' heq
    obtain ⟨command, hc, rfl⟩ := List.mem_map.mp hmem
    obtain ⟨hc, his⟩ := List.mem_filter.mp hc
    obtain ⟨i, -, rfl⟩ := mem_counter hmem'
    rw [hlogin command hc his] at heq
    exact decimal_ne_login _ heq.symm

end Runs

/-! ## The main result -/

/-- The tags of the commands are distinct, and a status line that echoes one of them is parsed into
a status response with this tag. -/
structure TagsReadBack (commands : List Command) : Prop where
  unique : (commands.map Command.tag).Nodup
  read : ∀ command ∈ commands, ∀ c text, EchoText text → EchoRead command.tag c text

/-- **Tags.** In every run that hands at most one LOGIN and fewer than `2 ^ 32` other commands to
the server, the tags are distinct; and a status line that echoes one of them is parsed into a status
response with this tag if and only if its text ends at a position that fits into an `int`.

**Proof sketch.** The counter does not wrap (`nodup_tags`). Every tag is alphanumeric, so that
`echoRead_iff` applies. -/
theorem tags_read_back_iff (es : List Event) (s : System)
    (hrun : run System.step .new es = some s)
    (hone : (commands .new es).countP Command.isLogin ≤ 1)
    (hfew : ((commands .new es).countP fun command => !command.isLogin) < 2 ^ 32) :
    ((commands .new es).map Command.tag).Nodup ∧
      ∀ command ∈ commands .new es, ∀ c text, EchoText text →
        (echoLine command.tag c text ++ crlf).length < 2 ^ 63 →
          (EchoRead command.tag c text ↔ (echoLine command.tag c text).length < 2 ^ 31) := by
  refine ⟨nodup_tags hrun hone hfew, fun command hmem c text ht hsize => ?_⟩
  obtain ⟨tag, htag⟩ := exists_tag hrun hmem
  rw [htag] at hsize ⊢
  exact echoRead_iff tag c ht hsize

/-- The steps of a login, after the greeting. -/
def loginSteps : List Event :=
  [.call .receiveGreeting, .incoming (.status .ok [] (ascii "ready")), .take, .transition,
    .call (.login (ascii "me") (ascii "pw"))]

/-- The steps from there to a selected mailbox. -/
def selectSteps : List Event :=
  [.incoming (.status .ok (ascii "a001") (ascii "done")), .take, .transition,
    .call (.select (ascii "INBOX")), .incoming (.status .ok (ascii "1") (ascii "done")), .take,
    .transition]

/-- The two tags of a login and a selection, and the line that completes the selection. -/
theorem tags_read_back_iff_select :
    ((commands .new (loginSteps ++ selectSteps)).map Command.tag).Nodup ∧
      EchoRead (ascii "1") .ok (ascii "done") := by
  obtain ⟨hnodup, hread⟩ := tags_read_back_iff (loginSteps ++ selectSteps)
    ⟨⟨.selected, 2, ascii "INBOX", []⟩, .returned .unit⟩ rfl (by decide +kernel)
    (by decide +kernel)
  have hmem : Command.select (ascii "1") (ascii "INBOX") ∈
      commands .new (loginSteps ++ selectSteps) := by
    decide +kernel
  exact ⟨hnodup, (hread _ hmem .ok (ascii "done") ⟨by decide, by decide +kernel⟩
    (by decide +kernel)).mpr (by decide +kernel)⟩

/-! ## Counterexamples -/

/-- A text of `2 ^ 31` letters. -/
def longText : Bytes := List.replicate (2 ^ 31) (byte 'a')

/-- A line with a text of this length is not read. -/
lemma not_tagsReadBack {commands : List Command} {command : Command} (hmem : command ∈ commands)
    (htag : command.tag = Tag.login.bytes) : ¬ TagsReadBack commands := by
  intro h
  have hlen : longText.length = 2 ^ 31 := List.length_replicate
  have htext : EchoText longText := by
    refine ⟨List.ne_nil_of_length_pos (by rw [hlen]; decide), fun a ha => ?_⟩
    rw [List.eq_of_mem_replicate ha]
    decide
  -- the text is not to be written out
  generalize longText = text at hlen htext
  have hread := h.read command hmem .ok text htext
  have hline : (echoLine Tag.login.bytes .ok text).length = 8 + 2 ^ 31 := by
    rw [echoLine, List.length_append, hlen]
    rfl
  have hsize : (echoLine Tag.login.bytes .ok text ++ crlf).length < 2 ^ 63 := by
    rw [List.length_append, hline]
    decide
  rw [htag] at hread
  have hlt := (echoRead_iff Tag.login .ok htext hsize).mp hread
  omega

/-- Calls of FETCH with an empty sequence set, in a selected mailbox. -/
def emptyFetches (k : ℕ) : List Event := List.replicate k (.call (.fetch [] false))

/-- Each of these calls takes a tag, and sends nothing.

**Proof sketch.** Induction on the number of calls. Each one throws, and leaves the thread free to
make the next one. -/
lemma run_emptyFetches (k : ℕ) {s : System} (hstate : s.session.state = .selected)
    (hfree : s.control.Free) :
    ∃ control : Control, control.Free ∧ run System.step s (emptyFetches k) =
        some ⟨{ s.session with tag := s.session.tag + UInt32.ofNat k }, control⟩ ∧
      (commands s (emptyFetches k)).filter Command.encodes = [] := by
  induction k generalizing s with
  | zero =>
    refine ⟨s.control, hfree, ?_, rfl⟩
    obtain ⟨⟨state, tag, mailbox, queue⟩, control⟩ := s
    simp [emptyFetches, run]
  | succ k ih =>
    have hstep : s.step (.call (.fetch [] false)) = some
        ⟨{ s.session with tag := s.session.tag + 1 },
          .threw (.logicError (ascii "Sequence set empty!"))⟩ := by
      refine step_call_iff.mpr ⟨hfree, ?_⟩
      rw [begin, if_neg (not_not_intro hstate)]
      rfl
    have hhanded : handed s (.call (.fetch [] false)) = some (.fetch (decimal s.session.tag.toNat)
        [] (ascii "BODY[]")) := by
      rw [handed, if_pos hfree, begin, if_neg (not_not_intro hstate)]
      rfl
    obtain ⟨control, hcontrol, hrun, hnone⟩ := ih (s := ⟨{ s.session with
      tag := s.session.tag + 1 }, .threw (.logicError (ascii "Sequence set empty!"))⟩) hstate
      trivial
    refine ⟨control, hcontrol, ?_, ?_⟩
    · rw [emptyFetches, List.replicate_succ, run_cons hstep, ← emptyFetches, hrun]
      simp only [UInt32.ofNat_add, UInt32.add_assoc, UInt32.add_comm (UInt32.ofNat k)]
      rfl
    · rw [emptyFetches, List.replicate_succ, commands_cons hstep, ← emptyFetches, hhanded,
        List.filter_append, hnone]
      rfl

/-- The steps of a login and a selection, so many calls of FETCH with an empty sequence set that the
counter wraps, and a search. -/
def wrapSteps : List Event :=
  loginSteps ++ selectSteps ++ emptyFetches (2 ^ 32 - 1) ++ [.call (.search false)]

/-- The commands that are sent in this run.

**Proof sketch.** The calls of FETCH send nothing, and the counter is back at the tag of the SELECT
after them. -/
lemma sent_wrapSteps : (∃ s, run System.step .new wrapSteps = some s) ∧
    (commands .new wrapSteps).filter Command.encodes =
      [.login (ascii "a001") (ascii "me") (ascii "pw"), .select (ascii "1") (ascii "INBOX"),
        .search (ascii "1") (ascii "ALL")] := by
  have hfirst : run System.step .new (loginSteps ++ selectSteps) =
      some ⟨⟨.selected, 2, ascii "INBOX", []⟩, .returned .unit⟩ := rfl
  obtain ⟨control, hfree, hrun, hnone⟩ := run_emptyFetches (2 ^ 32 - 1)
    (s := ⟨⟨.selected, 2, ascii "INBOX", []⟩, .returned .unit⟩) rfl trivial
  have hwrap : (2 : UInt32) + UInt32.ofNat (2 ^ 32 - 1) = 1 := by decide
  simp only [hwrap] at hrun
  have hsearch : System.step ⟨⟨.selected, 1, ascii "INBOX", []⟩, control⟩ (.call (.search false)) =
      some ⟨⟨.selected, 2, ascii "INBOX", []⟩, .waiting (.search none)⟩ :=
    step_call_iff.mpr ⟨hfree, rfl⟩
  have hhanded : handed ⟨⟨.selected, 1, ascii "INBOX", []⟩, control⟩ (.call (.search false)) =
      some (.search (ascii "1") (ascii "ALL")) := by
    rw [handed, if_pos hfree]
    show (begin ⟨.selected, 1, ascii "INBOX", []⟩ (.search false)).command = _
    decide +kernel
  -- the calls are not to be written out
  rw [wrapSteps]
  generalize emptyFetches (2 ^ 32 - 1) = es at hrun hnone
  have hmiddle := run_append_of hfirst hrun
  refine ⟨⟨_, run_append_of hmiddle (run_singleton hsearch)⟩, ?_⟩
  rw [commands_append hmiddle, commands_append hfirst, commands_cons hsearch, hhanded,
    List.filter_append, List.filter_append, hnone]
  decide +kernel

/-- **Tags are not read back, and repeat.** A long text keeps the line with the tag of a LOGIN from
being read. If the commands that are not sent are not counted, the tag of a SELECT comes back in a
run that sends one LOGIN and two other commands. -/
theorem tags_not_read_back :
    ((∃ s, run System.step .new loginSteps = some s) ∧
      (commands .new loginSteps).countP Command.isLogin = 1 ∧
      ((commands .new loginSteps).countP fun command => !command.isLogin) < 2 ^ 32 ∧
      ¬ TagsReadBack (commands .new loginSteps)) ∧
    (∃ s, run System.step .new wrapSteps = some s) ∧
      ((commands .new wrapSteps).filter Command.encodes).countP Command.isLogin = 1 ∧
      (((commands .new wrapSteps).filter Command.encodes).countP
        fun command => !command.isLogin) = 2 ∧
      ¬ (((commands .new wrapSteps).filter Command.encodes).map Command.tag).Nodup := by
  obtain ⟨hrun, hsent⟩ := sent_wrapSteps
  rw [hsent]
  refine ⟨⟨⟨_, rfl⟩, by decide +kernel, by decide +kernel, ?_⟩, hrun, by decide +kernel,
    by decide +kernel, by decide +kernel⟩
  have hmem : Command.login (ascii "a001") (ascii "me") (ascii "pw") ∈
      commands .new loginSteps := by
    decide +kernel
  exact not_tagsReadBack hmem rfl

end Imapcl
