import Mathlib.Logic.Function.Basic
import Imapcl.Foundation.Overwrite
import Imapcl.Message.Date
import Imapcl.Message.Fnv

set_option relaxedAutoImplicit false
set_option autoImplicit false

/-!
# Saving messages

`directory_writer.cpp`. Each message is written to a file whose name is made of the hash of the
message and of its date. The list is worked off from the front until a message fails: one without a
date, or one whose path cannot be opened.

## Main definitions

* `Imapcl.path` — the path of a message's file.
* `Imapcl.saveMessages` — `DirectoryWriter::save_messages`, on the contents of all files.
* `Imapcl.target` — the file of a message, if the message can be saved.
* `Imapcl.InDirectory` — the paths of the plain file names of a directory.

## Main results

* `Imapcl.saveMessages_frame`, `Imapcl.saveMessages_append` — what a run does to the files.
* `Imapcl.saveMessages_twice` — saving a list a second time changes nothing.
* `Imapcl.saved_inside_iff` — when all paths are those of files in the output directory.
* `Imapcl.saved_before_failure` — which messages of a list are saved.

## Design

Which file a path opens for writing, if any, is a parameter `openFile`; two paths may open the same
file.
-/

namespace Imapcl

/-! ## The writer -/

/-- The path of a message's file:
`output_dir + "/" + fnv.hash(get_data()) + get_datetime_formatted() + ".eml"`. -/
def path (outputDir data : Bytes) : Except StdException Bytes :=
  (getDatetimeFormatted data).map fun date =>
    outputDir ++ ascii "/" ++ (FNV.hash data ++ date ++ ascii ".eml")

section Writer

variable {File : Type} [DecidableEq File] (openFile : Bytes → Option File) (outputDir : Bytes)

/-- `DirectoryWriter::save_messages`, on a list of message data and the contents of the files.
Opening a file truncates it, and `std::endl` writes a newline after the data. -/
def saveMessages : List Bytes → (File → Option Bytes) →
    Except StdException Unit × (File → Option Bytes)
  | [], files => (.ok (), files)
  | data :: messages, files =>
    match path outputDir data with
    | .error e => (.error e, files)
    | .ok p =>
      match openFile p with
      | none =>
        (.error (.runtimeError (ascii "Could not open " ++ p ++ ascii " for writing.")), files)
      | some file => saveMessages messages (Function.update files file (some (data ++ [lf])))

/-- The file of a message that has a date and whose path can be opened. -/
def target (data : Bytes) : Option File := (path outputDir data).toOption.bind openFile

end Writer

section Runs

variable {File : Type} [DecidableEq File] {openFile : Bytes → Option File} {outputDir : Bytes}
  {files : File → Option Bytes} {messages pre post : List Bytes} {m : Bytes} {file : File}

/-- A message that can be saved is written. -/
lemma saveMessages_cons_of_some (h : target openFile outputDir m = some file) :
    saveMessages openFile outputDir (m :: messages) files =
      saveMessages openFile outputDir messages (Function.update files file (some (m ++ [lf]))) := by
  rw [target] at h
  rw [saveMessages]
  cases hpath : path outputDir m with
  | error e =>
    rw [hpath] at h
    cases h
  | ok p =>
    rw [hpath] at h
    simp only [show openFile p = some file from h]

/-- A message that cannot be saved ends the run. -/
lemma saveMessages_cons_of_none (h : target openFile outputDir m = none) :
    ∃ e, ∀ messages files,
      saveMessages openFile outputDir (m :: messages) files = (.error e, files) := by
  rw [target] at h
  cases hpath : path outputDir m with
  | error e => exact ⟨e, fun messages files => by rw [saveMessages, hpath]⟩
  | ok p =>
    rw [hpath] at h
    refine ⟨.runtimeError (ascii "Could not open " ++ p ++ ascii " for writing."),
      fun messages files => ?_⟩
    rw [saveMessages, hpath]
    simp only [show openFile p = none from h]

/-- A file of no message is left alone. -/
lemma saveMessages_frame (h : ∀ m ∈ messages, target openFile outputDir m ≠ some file) :
    (saveMessages openFile outputDir messages files).2 file = files file := by
  induction messages generalizing files with
  | nil => rfl
  | cons m messages ih =>
    rw [List.forall_mem_cons] at h
    cases htarget : target openFile outputDir m with
    | none =>
      obtain ⟨e, he⟩ := saveMessages_cons_of_none htarget
      rw [he]
    | some f =>
      rw [saveMessages_cons_of_some htarget, ih h.2]
      refine Function.update_of_ne (fun hf => h.1 ?_) _ _
      rw [htarget, hf]

/-- A list whose messages can all be saved is worked off, and what follows it goes on from there. -/
lemma saveMessages_append (h : ∀ m ∈ pre, target openFile outputDir m ≠ none) :
    saveMessages openFile outputDir (pre ++ post) files =
      saveMessages openFile outputDir post (saveMessages openFile outputDir pre files).2 := by
  induction pre generalizing files with
  | nil => rfl
  | cons m pre ih =>
    rw [List.forall_mem_cons] at h
    obtain ⟨f, hf⟩ := Option.ne_none_iff_exists'.mp h.1
    rw [List.cons_append, saveMessages_cons_of_some hf, saveMessages_cons_of_some hf, ih h.2]

/-- A list with a message that cannot be saved is not worked off to its end. -/
lemma saveMessages_append_of_none (h : ∃ m ∈ pre, target openFile outputDir m = none) :
    saveMessages openFile outputDir (pre ++ post) files =
      saveMessages openFile outputDir pre files := by
  induction pre generalizing files with
  | nil =>
    obtain ⟨m, hm, -⟩ := h
    cases hm
  | cons m pre ih =>
    rw [List.cons_append]
    cases htarget : target openFile outputDir m with
    | none =>
      obtain ⟨e, he⟩ := saveMessages_cons_of_none htarget
      rw [he, he]
    | some f =>
      rw [saveMessages_cons_of_some htarget, saveMessages_cons_of_some htarget]
      refine ih ?_
      obtain ⟨x, hx, hnone⟩ := h
      rcases List.mem_cons.mp hx with rfl | hx
      · rw [htarget] at hnone
        cases hnone
      · exact ⟨x, hx, hnone⟩

/-- A run returns if all messages can be saved, and throws otherwise. -/
lemma saveMessages_throws_iff :
    (∃ e, (saveMessages openFile outputDir messages files).1 = .error e) ↔
      ∃ m ∈ messages, target openFile outputDir m = none := by
  induction messages generalizing files with
  | nil =>
    constructor
    · rintro ⟨e, he⟩
      cases he
    · rintro ⟨m, hm, -⟩
      cases hm
  | cons m messages ih =>
    rw [List.exists_mem_cons_iff]
    cases htarget : target openFile outputDir m with
    | none =>
      obtain ⟨e, he⟩ := saveMessages_cons_of_none htarget
      rw [he]
      exact ⟨fun _ => Or.inl rfl, fun _ => ⟨e, rfl⟩⟩
    | some f =>
      rw [saveMessages_cons_of_some htarget, ih]
      exact ⟨Or.inr, fun h => h.resolve_left nofun⟩

/-- Whether a run returns or throws, and what, does not depend on the files. -/
lemma saveMessages_result (files' : File → Option Bytes) :
    (saveMessages openFile outputDir messages files).1 =
      (saveMessages openFile outputDir messages files').1 := by
  induction messages generalizing files files' with
  | nil => rfl
  | cons m messages ih =>
    cases htarget : target openFile outputDir m with
    | none =>
      obtain ⟨e, he⟩ := saveMessages_cons_of_none htarget
      rw [he, he]
    | some f =>
      rw [saveMessages_cons_of_some htarget, saveMessages_cons_of_some htarget]
      exact ih _

/-- A run overwrites the files of the messages it comes to. -/
lemma saveMessages_overwrites :
    Overwrites fun files => (saveMessages openFile outputDir messages files).2 := by
  induction messages with
  | nil => exact Overwrites.id
  | cons m messages ih =>
    cases htarget : target openFile outputDir m with
    | none =>
      obtain ⟨e, he⟩ := saveMessages_cons_of_none htarget
      simp only [he]
      exact Overwrites.id
    | some f =>
      simp only [saveMessages_cons_of_some htarget]
      exact ih.comp (Overwrites.update f _)

end Runs

/-- **Saving twice.** A second run on the same list leaves all files as the first one has left them,
and it returns or throws as the first one did.

**Proof sketch.** How far a run gets is decided by the messages and their paths alone
(`saveMessages_result`). In a file it does not write, a run leaves what is there, and in a file it
writes, the last message of the file that the run comes to decides (`saveMessages_overwrites`). -/
theorem saveMessages_twice {File : Type} [DecidableEq File] (openFile : Bytes → Option File)
    (outputDir : Bytes) (messages : List Bytes) (files : File → Option Bytes) :
    saveMessages openFile outputDir messages (saveMessages openFile outputDir messages files).2 =
      saveMessages openFile outputDir messages files := by
  have hwrites : Overwrites fun files => (saveMessages openFile outputDir messages files).2 :=
    saveMessages_overwrites
  exact Prod.ext (saveMessages_result files) (hwrites.idem files)

/-! ## Paths -/

/-- A file name without `/` and NUL. -/
def PlainName (name : Bytes) : Prop := byte '/' ∉ name ∧ 0 ∉ name

/-- The path of a plain file name in the output directory. -/
def InDirectory (outputDir p : Bytes) : Prop :=
  ∃ name, PlainName name ∧ p = outputDir ++ ascii "/" ++ name

/-- Every plain file name in the output directory can be opened. -/
def OpensPlain {File : Type} (openFile : Bytes → Option File) (outputDir : Bytes) : Prop :=
  ∀ name, PlainName name → openFile (outputDir ++ ascii "/" ++ name) ≠ none

/-- The paths of all messages are inside the output directory, and no run changes any other file. -/
def SavedInside (outputDir : Bytes) (messages : List Bytes) : Prop :=
  (∀ m ∈ messages, ∀ p, path outputDir m = .ok p → InDirectory outputDir p) ∧
    ∀ (File : Type) [DecidableEq File] (openFile : Bytes → Option File)
      (files : File → Option Bytes) (file : File),
      (saveMessages openFile outputDir messages files).2 file ≠ files file →
        ∃ p, InDirectory outputDir p ∧ openFile p = some file

section Paths

variable {outputDir m v w : Bytes} {c : UInt8} {messages : List Bytes}

/-- Other characters than those that are replaced, and what they are replaced by, stay. -/
lemma mem_underscored (hc : c ∉ ascii ", :_") : c ∈ underscored v ↔ c ∈ v := by
  have hreplaced : ∀ d, (if d = byte ',' ∨ d = byte ' ' ∨ d = byte ':' then byte '_' else d) = c ↔
      d = c := by
    intro d
    split
    · next hd =>
      constructor
      · rintro rfl
        exact absurd (by decide) hc
      · rintro rfl
        exact absurd (by rcases hd with rfl | rfl | rfl <;> decide) hc
    · rfl
  rw [underscored, List.mem_map]
  simp only [hreplaced, exists_eq_right]

/-- Of the parts of a file name, only the date can have other characters than these. -/
lemma mem_fileName {data : Bytes} (halnum : isAlnum c = false) (hc : c ∉ ascii ", :_.") :
    c ∈ FNV.hash data ++ underscored v ++ ascii ".eml" ↔ c ∈ v := by
  have hhash : c ∉ FNV.hash data := fun h =>
    Bool.false_ne_true (halnum.symm.trans (FNV.isAlnum_of_mem_hash h))
  have hsuffix : c ∉ ascii ".eml" := by
    intro h
    rcases List.mem_cons.mp h with rfl | h
    · exact hc (by decide)
    · have hall : ∀ d ∈ ascii "eml", isAlnum d = true := by decide +kernel
      exact Bool.false_ne_true (halnum.symm.trans (hall c h))
  have hreplaced : c ∉ ascii ", :_" := fun h => hc (List.mem_append_left (ascii ".") h)
  rw [List.mem_append, List.mem_append, mem_underscored hreplaced]
  exact ⟨fun h => (h.resolve_right hsuffix).resolve_left hhash, fun h => Or.inl (Or.inr h)⟩

/-- The name of a file is plain exactly if the date of the message is. -/
lemma plainName_iff {data : Bytes} :
    PlainName (FNV.hash data ++ underscored v ++ ascii ".eml") ↔ PlainName v := by
  rw [PlainName, PlainName, mem_fileName (by decide) (by decide),
    mem_fileName (by decide) (by decide)]

/-- The paths of messages with a date. -/
lemma path_eq_ok_iff {p : Bytes} : path outputDir m = .ok p ↔
    ∃ v, FirstDate m v ∧
      p = outputDir ++ ascii "/" ++ (FNV.hash m ++ underscored v ++ ascii ".eml") := by
  rw [path]
  constructor
  · intro h
    cases hdate : getDatetimeFormatted m with
    | error e =>
      rw [hdate] at h
      cases h
    | ok d =>
      obtain ⟨v, hv, rfl⟩ := getDatetimeFormatted_eq_ok_iff.mp hdate
      rw [hdate] at h
      exact ⟨v, hv, (Except.ok.inj h).symm⟩
  · rintro ⟨v, hv, rfl⟩
    rw [getDatetimeFormatted_eq_ok_iff.mpr ⟨v, hv, rfl⟩]
    rfl

/-- The path of a message with a date is inside the output directory exactly if the date is
plain. -/
lemma inDirectory_iff : InDirectory outputDir
    (outputDir ++ ascii "/" ++ (FNV.hash m ++ underscored v ++ ascii ".eml")) ↔ PlainName v := by
  constructor
  · rintro ⟨name, hname, hp⟩
    rw [← List.append_cancel_left hp] at hname
    exact plainName_iff.mp hname
  · exact fun h => ⟨_, plainName_iff.mpr h, rfl⟩

/-- The file of a message is that of its path. -/
lemma target_eq_some_iff {File : Type} {openFile : Bytes → Option File} {file : File} :
    target openFile outputDir m = some file ↔
      ∃ p, path outputDir m = .ok p ∧ openFile p = some file := by
  rw [target]
  cases path outputDir m with
  | error e => simp [Except.toOption]
  | ok p => simp [Except.toOption]

/-- A message with a plain date can be saved where plain file names can be opened. -/
lemma target_ne_none {File : Type} {openFile : Bytes → Option File}
    (hplain : OpensPlain openFile outputDir) (hdate : FirstDate m v) (hv : PlainName v) :
    target openFile outputDir m ≠ none := by
  obtain ⟨file, hfile⟩ := Option.ne_none_iff_exists'.mp (hplain _ (plainName_iff.mpr hv))
  rw [target_eq_some_iff.mpr ⟨_, path_eq_ok_iff.mpr ⟨v, hdate, rfl⟩, hfile⟩]
  exact nofun

/-- **Files in the output directory.** All messages are saved there exactly if the dates of all of
them are free of `/` and NUL.

**Proof sketch.** Of the parts of a file name, only the date can have these characters, and the
replacement leaves them in place. A run changes only the files of its messages
(`saveMessages_frame`). -/
theorem saved_inside_iff : SavedInside outputDir messages ↔
    ∀ m ∈ messages, ∀ v, FirstDate m v → PlainName v := by
  constructor
  · rintro ⟨hpaths, -⟩ m hm v hv
    exact inDirectory_iff.mp (hpaths m hm _ (path_eq_ok_iff.mpr ⟨v, hv, rfl⟩))
  · intro hplain
    have hpaths : ∀ m ∈ messages, ∀ p, path outputDir m = .ok p → InDirectory outputDir p := by
      intro m hm p hp
      obtain ⟨v, hv, rfl⟩ := path_eq_ok_iff.mp hp
      exact inDirectory_iff.mpr (hplain m hm v hv)
    refine ⟨hpaths, fun File _ openFile files file hchanged => ?_⟩
    by_contra hnone
    refine hchanged (saveMessages_frame fun m hm htarget => hnone ?_)
    obtain ⟨p, hp, hopen⟩ := target_eq_some_iff.mp htarget
    exact ⟨p, hpaths m hm p hp, hopen⟩

/-- A date with a `/` leads out of the output directory. -/
theorem saved_outside : ¬ SavedInside (ascii "out") [ascii "Date:/../x\r\n"] := by
  rintro ⟨hpaths, -⟩
  obtain ⟨name, hname, hp⟩ := hpaths _ (List.mem_singleton_self _) _ rfl
  refine hname.1 ?_
  rw [← List.append_cancel_left hp]
  exact List.mem_append_left _ (List.mem_append_right _ (by decide))

end Paths

/-! ## Failures -/

section Failures

variable {File : Type} [DecidableEq File] {openFile : Bytes → Option File} {outputDir m : Bytes}
  {pre post : List Bytes} {file : File} {files : File → Option Bytes}

/-- A message that cannot be saved does not keep the others from being saved: every message with a
date, whose path no other message has, is written. -/
def SavesOthers (openFile : Bytes → Option File) (outputDir : Bytes) (messages : List Bytes) :
    Prop :=
  ∀ pre m post, messages = pre ++ m :: post → (∃ v, FirstDate m v) →
    (∀ x ∈ pre ++ post, path outputDir x ≠ path outputDir m) →
      ∀ files, ∃ p file, path outputDir m = .ok p ∧ openFile p = some file ∧
        (saveMessages openFile outputDir messages files).2 file = some (m ++ [lf])

/-- The file of a message that can be saved is written if this is true of the messages before, and
left alone otherwise. -/
lemma saveMessages_file (htarget : target openFile outputDir m = some file)
    (hother : ∀ x ∈ pre ++ post, target openFile outputDir x ≠ some file) :
    (saveMessages openFile outputDir (pre ++ m :: post) files).2 file =
      if ∀ x ∈ pre, target openFile outputDir x ≠ none then some (m ++ [lf]) else files file := by
  split
  · next hpre =>
    rw [saveMessages_append hpre, saveMessages_cons_of_some htarget,
      saveMessages_frame fun x hx => hother x (List.mem_append_right pre hx),
      Function.update_self]
  · next hpre =>
    simp only [not_forall, not_not, exists_prop] at hpre
    rw [saveMessages_append_of_none hpre,
      saveMessages_frame fun x hx => hother x (List.mem_append_left post hx)]

/-- **Saving up to the first failure.** Let every plain file name in the output directory be such
that it can be opened. Then a message with a plain date can be saved. A message that can be saved,
and whose file is that of no other message, is written if all messages before it can be saved, and
its file is left alone otherwise; and the run throws exactly if some message cannot be saved.

**Proof sketch.** The messages before are worked off (`saveMessages_append`), and those after do not
touch the file; if one of those before fails, the run ends there
(`saveMessages_append_of_none`). -/
theorem saved_before_failure (hplain : OpensPlain openFile outputDir) :
    (∀ m v, FirstDate m v → PlainName v → target openFile outputDir m ≠ none) ∧
    (∀ pre m post file files, target openFile outputDir m = some file →
      (∀ x ∈ pre ++ post, target openFile outputDir x ≠ some file) →
        (saveMessages openFile outputDir (pre ++ m :: post) files).2 file =
          if ∀ x ∈ pre, target openFile outputDir x ≠ none then some (m ++ [lf])
          else files file) ∧
    ∀ messages files, (∃ e, (saveMessages openFile outputDir messages files).1 = .error e) ↔
      ∃ m ∈ messages, target openFile outputDir m = none :=
  ⟨fun _ _ => target_ne_none hplain, fun _ _ _ _ _ => saveMessages_file,
    fun _ _ => saveMessages_throws_iff⟩

/-- Where every path can be opened, a message before one without a date is saved. -/
theorem saved_before_failure_open : ∃ p,
    (saveMessages some (ascii "out") [ascii "Date: x\r\n", ascii "y"] fun _ => none).2 p =
      some (ascii "Date: x\r\n" ++ [lf]) := by
  have hplain : OpensPlain some (ascii "out") := fun _ _ => nofun
  obtain ⟨-, hwritten, -⟩ := saved_before_failure hplain
  refine ⟨_, (hwritten [] _ [ascii "y"] _ (fun _ => none) rfl fun x hx => ?_).trans (if_pos nofun)⟩
  rw [List.mem_singleton.mp hx]
  exact nofun

/-- Where every path can be opened, a message after one without a date is lost. -/
theorem unsaved_after_failure : OpensPlain some (ascii "out") ∧
    ¬ SavesOthers some (ascii "out") [ascii "y", ascii "Date: x\r\n"] := by
  refine ⟨fun _ _ => nofun, fun hsaves => ?_⟩
  have hdate : getDatetimeFormatted (ascii "Date: x\r\n") = .ok (ascii "_x") := by rfl
  obtain ⟨v, hv, -⟩ := getDatetimeFormatted_eq_ok_iff.mp hdate
  have hother : ∀ x ∈ [ascii "y"] ++ [],
      path (ascii "out") x ≠ path (ascii "out") (ascii "Date: x\r\n") := by
    intro x hx
    rw [List.mem_singleton.mp hx]
    exact nofun
  obtain ⟨p, file, -, -, hwritten⟩ := hsaves [ascii "y"] _ [] rfl ⟨v, hv⟩ hother fun _ => none
  cases hwritten

end Failures

end Imapcl
