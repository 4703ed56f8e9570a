import Imapcl.Foundation.Pattern
import Imapcl.Session.CommandLine

set_option relaxedAutoImplicit false
set_option autoImplicit false

/-!
# The credential file

`credential.cpp`. The user name and the password are searched for in the first two lines of a file.
The patterns are not anchored: they are content with a part of a line and with a part of a value.

## Main definitions

* `Imapcl.getline` — `std::getline` on a file stream.
* `Imapcl.assignment` — the pattern of the two lines, with a key, a class and a bound.
* `Imapcl.Credentials.ofFile` — the constructor `Credentials::Credentials`.
* `Imapcl.IsAssignment`, `Imapcl.TakenWhole` — lines of the documented form, and files whose values
  are taken whole.

## Main results

* `Imapcl.exists_search_assignment` — the lines in which a pattern finds something.
* `Imapcl.search_assignment` — in a line of the documented form the value is found whole.
* `Imapcl.credentials_whole_iff` — when the values of a file are taken whole.
-/

namespace Imapcl

open Pattern

/-! ## Reading the file -/

/-- A file stream: what has not been read, and whether no error flag is set. -/
structure FileStream where
  rest : Bytes
  good : Bool

/-- `std::getline(fs, line)`. Without a newline, reading up to the end sets a flag; once a flag is
set, the line is left as it is. -/
def getline (fs : FileStream) (line : Bytes) : Bytes × FileStream :=
  if fs.good then
    let taken := fs.rest.takeWhile (· ≠ lf)
    (taken, ⟨fs.rest.drop (taken.length + 1), lf ∈ fs.rest⟩)
  else (line, fs)

/-- `key *= *([f]{1,hi})`, where `f` is a class of characters. -/
def assignment (key : Bytes) (f : UInt8 → Bool) (hi : ℕ) : Pattern UInt8 :=
  .seq (.lit key) (.seq (.many (· = byte ' ') 0 none) (.seq (.lit (ascii "="))
    (.seq (.many (· = byte ' ') 0 none) (.group (.many f 1 (some hi))))))

/-- `cred_file_username_regex`: `username *= *([a-zA-Z0-9@.-]{1,256})`. -/
def credFileUsernameRegex : Pattern UInt8 := assignment (ascii "username") isUserNameChar 256

/-- `cred_file_password_regex`: `password *= *([a-zA-Z0-9]{1,20})`. -/
def credFilePasswordRegex : Pattern UInt8 := assignment (ascii "password") isAlnum 20

/-- `class Credentials`. -/
structure Credentials where
  username : Bytes
  password : Bytes
  deriving DecidableEq, Repr

/-- `get_username`. -/
def Credentials.getUsername (c : Credentials) : Bytes := c.username

/-- `get_password`. -/
def Credentials.getPassword (c : Credentials) : Bytes := c.password

/-- The constructor `Credentials::Credentials`, where `content` is what the file contains, or `none`
if it cannot be opened. -/
def Credentials.ofFile (credFile : Bytes) (content : Option Bytes) :
    Except StdException Credentials :=
  match content with
  | none => .error (.runtimeError (ascii "Could not open credential file " ++ credFile))
  | some bytes =>
    let (line, fs) := getline ⟨bytes, true⟩ []
    match credFileUsernameRegex.search none line with
    | none => .error (.runtimeError (ascii "Credential file invalid: " ++ credFile))
    | some username =>
      let (line, _) := getline fs line
      match credFilePasswordRegex.search none line with
      | none => .error (.runtimeError (ascii "Credential file invalid: " ++ credFile))
      | some password => .ok ⟨username.groups.headD [], password.groups.headD []⟩

/-! ## The pattern of a line -/

/-- `std::isspace` in the C locale. -/
def isSpace (c : UInt8) : Bool := c = byte ' ' || (9 ≤ c && c ≤ 13)

/-- A word of spaces. -/
def Spaces (w : Bytes) : Prop := ∀ c ∈ w, c = byte ' '

/-- A line assigns the value to the key, up to white space at its start and end. -/
def IsAssignment (key value line : Bytes) : Prop :=
  ∃ ws sp₁ sp₂ ws', line = ws ++ (key ++ (sp₁ ++ (ascii "=" ++ (sp₂ ++ (value ++ ws'))))) ∧
    Spaces sp₁ ∧ Spaces sp₂ ∧ (∀ c ∈ ws, isSpace c = true) ∧ ∀ c ∈ ws', isSpace c = true

/-- Somewhere in a line, a value that begins with a character of the class is assigned to the
key. -/
def Assigns (key : Bytes) (f : UInt8 → Bool) (line : Bytes) : Prop :=
  ∃ u sp₁ sp₂ c s, line = u ++ (key ++ (sp₁ ++ (ascii "=" ++ (sp₂ ++ c :: s)))) ∧
    Spaces sp₁ ∧ Spaces sp₂ ∧ f c = true

section Lines

variable {key line s sp₁ sp₂ v w : Bytes} {f : UInt8 → Bool} {hi n : ℕ} {c : UInt8}
  {prev : Option UInt8} {m : Match UInt8}

/-- Every match of the pattern is an assignment. -/
lemma mem_all_assignment (h : m ∈ (assignment key f hi).all prev s) :
    ∃ sp₁ sp₂ v, s = key ++ (sp₁ ++ (ascii "=" ++ (sp₂ ++ (v ++ m.rest)))) ∧
      Spaces sp₁ ∧ Spaces sp₂ ∧ WordOver f v ∧ v.length ≤ hi ∧ m.groups = [v] := by
  obtain ⟨m₁, h₁, r₁, hr₁, rfl⟩ := mem_all_seq h
  obtain ⟨hs₁, -, hg₁⟩ := mem_all_lit h₁
  obtain ⟨m₂, h₂, r₂, hr₂, rfl⟩ := mem_all_seq hr₁
  obtain ⟨hs₂, hsp₁, -, -, hg₂⟩ := mem_all_many h₂
  obtain ⟨m₃, h₃, r₃, hr₃, rfl⟩ := mem_all_seq hr₂
  obtain ⟨hs₃, -, hg₃⟩ := mem_all_lit h₃
  obtain ⟨m₄, h₄, m₅, h₅, rfl⟩ := mem_all_seq hr₃
  obtain ⟨hs₄, hsp₂, -, -, hg₄⟩ := mem_all_many h₄
  obtain ⟨n, hn, rfl⟩ := mem_all_group h₅
  obtain ⟨hs₅, hclass, hlo, hbound, hg₅⟩ := mem_all_many hn
  refine ⟨m₂.word, m₄.word, n.word, ?_, fun c hc => of_decide_eq_true (hsp₁ c hc),
    fun c hc => of_decide_eq_true (hsp₂ c hc), ⟨List.length_pos_iff.mp hlo, hclass⟩,
    hbound hi rfl, ?_⟩
  · rw [hs₁, hs₂, hs₃, hs₄, hs₅]
    rfl
  · simp [hg₁, hg₂, hg₃, hg₄, hg₅]

/-- An assignment is matched, and the value is cut at the bound. -/
lemma first_assignment (key : Bytes) (prev : Option UInt8) (hsp₁ : Spaces sp₁)
    (hsp₂ : Spaces sp₂) (hc : f c = true) (hspace : f (byte ' ') = false) (hhi : 0 < hi) (s : Bytes)
    (hn : min ((c :: s).takeWhile f).length hi = n) : ∃ m,
      (assignment key f hi).first prev (key ++ (sp₁ ++ (ascii "=" ++ (sp₂ ++ c :: s)))) = some m ∧
        m.groups = [(c :: s).take n] := by
  have hpos : 1 ≤ n := by
    rw [List.takeWhile_cons_of_pos hc, List.length_cons] at hn
    omega
  refine ⟨_, first_seq first_lit (first_seq (first_many (w := sp₁) ?_ (Nat.zero_le _) ?_ nofun)
    (first_seq first_lit (first_seq (first_many (w := sp₂) ?_ (Nat.zero_le _) ?_ nofun)
      (first_group (first_many_take hpos ?_))))), rfl⟩
  · exact fun c hc => decide_eq_true (hsp₁ c hc)
  · intro c hc
    rw [← Option.some.inj hc]
    rfl
  · exact fun c hc => decide_eq_true (hsp₂ c hc)
  · intro d hd
    rw [← Option.some.inj hd]
    exact decide_eq_false fun h => Bool.false_ne_true (hspace.symm.trans (h ▸ hc))
  · exact hn

/-- A search finds something exactly in the lines with an assignment. -/
lemma exists_search_assignment (hspace : f (byte ' ') = false) (hhi : 0 < hi) :
    (∃ m, (assignment key f hi).search none line = some m) ↔ Assigns key f line := by
  constructor
  · rintro ⟨m, hm⟩
    obtain ⟨u, t, rfl, hfirst, -⟩ := search_eq_some_iff.mp hm
    obtain ⟨sp₁, sp₂, v, rfl, hsp₁, hsp₂, hv, -⟩ := mem_all_assignment (mem_all_of_first hfirst)
    obtain ⟨c, v, rfl⟩ := List.exists_cons_of_ne_nil hv.nonempty
    exact ⟨u, sp₁, sp₂, c, v ++ m.rest, rfl, hsp₁, hsp₂, hv.chars c List.mem_cons_self⟩
  · rintro ⟨u, sp₁, sp₂, c, s, hline, hsp₁, hsp₂, hc⟩
    obtain ⟨m, hm, -⟩ := first_assignment key (before none u) hsp₁ hsp₂ hc hspace hhi s rfl
    refine Option.ne_none_iff_exists'.mp fun hnone => ?_
    rw [search_eq_none_iff.mp hnone u _ hline] at hm
    cases hm

/-- **Whole values.** In a line that assigns a value of the class to the key, and one that is not
too long, the search finds this value.

**Proof sketch.** The search passes over the white space at the start, since the key does not begin
with any. The spaces end where the value begins, and the value ends at the white space after it. -/
lemma search_assignment (hkey : ∀ c ∈ key.head?, isSpace c = false) (hnil : key ≠ [])
    (hclass : ∀ c, isSpace c = true → f c = false) (hv : WordOver f v) (hlen : v.length ≤ hi)
    (h : IsAssignment key v line) :
    ∃ m, (assignment key f hi).search none line = some m ∧ m.groups = [v] := by
  obtain ⟨ws, sp₁, sp₂, ws', rfl, hsp₁, hsp₂, hws, hws'⟩ := h
  obtain ⟨k, key, rfl⟩ := List.exists_cons_of_ne_nil hnil
  have hvalue : ((v ++ ws').takeWhile f).length = v.length := by
    rw [takeWhile_append hv.chars fun c hc => hclass c (hws' c (List.mem_of_mem_head? hc))]
  obtain ⟨c, v, rfl⟩ := List.exists_cons_of_ne_nil hv.nonempty
  obtain ⟨m, hm, hg⟩ := first_assignment (k :: key) (before none ws) hsp₁ hsp₂
    (hv.chars c List.mem_cons_self) (hclass _ rfl) (Nat.lt_of_lt_of_le (Nat.succ_pos _) hlen)
    (v ++ ws') ((congrArg (min · hi) hvalue).trans (Nat.min_eq_left hlen))
  refine ⟨m, ?_, hg.trans ?_⟩
  · rw [List.cons_append, search_skip fun u w huw hw => ?_, List.cons_append]
    · exact search_of_first hm
    · -- at a white space, the key does not begin
      refine first_eq_none_iff.mpr fun m hm => ?_
      obtain ⟨d, w, rfl⟩ := List.exists_cons_of_ne_nil hw
      obtain ⟨sp₁, sp₂, v, hs, -⟩ := mem_all_assignment hm
      obtain rfl : d = k := (List.cons.inj hs).1
      have hd := hws d (huw ▸ List.mem_append_right u List.mem_cons_self)
      exact Bool.false_ne_true ((hkey d rfl).symm.trans hd)
  · rw [← List.cons_append, List.take_left]

end Lines

/-! ## The lines of a file -/

/-- The first line of a file. -/
def firstLine (bytes : Bytes) : Bytes := bytes.takeWhile (· ≠ lf)

/-- The second line of a file, if there is a newline before it. -/
def secondLine (bytes : Bytes) : Option Bytes :=
  if lf ∈ bytes then some ((bytes.drop ((firstLine bytes).length + 1)).takeWhile (· ≠ lf)) else none

/-- The line of the second `getline`: without a second line, the first one is still there. -/
def secondRead (bytes : Bytes) : Bytes := (secondLine bytes).getD (firstLine bytes)

/-- If the file is accepted, its first two lines are of the documented form, and their values are
the user name and the password. -/
def TakenWhole (credFile : Bytes) (content : Option Bytes) : Prop :=
  ∀ c, Credentials.ofFile credFile content = .ok c → ∃ bytes line,
    content = some bytes ∧ secondLine bytes = some line ∧
      IsAssignment (ascii "username") c.getUsername (firstLine bytes) ∧
      IsAssignment (ascii "password") c.getPassword line

section Files

variable {credFile bytes key v line : Bytes} {content : Option Bytes} {c : Credentials}

/-- What the two calls of `getline` read. -/
lemma getline_lines (bytes : Bytes) : ∃ fs fs', getline ⟨bytes, true⟩ [] = (firstLine bytes, fs) ∧
    getline fs (firstLine bytes) = (secondRead bytes, fs') := by
  refine ⟨⟨bytes.drop ((firstLine bytes).length + 1), lf ∈ bytes⟩,
    (getline ⟨bytes.drop ((firstLine bytes).length + 1), lf ∈ bytes⟩ (firstLine bytes)).2, rfl, ?_⟩
  by_cases h : lf ∈ bytes
  · simp [getline, secondRead, secondLine, h]
  · simp [getline, secondRead, secondLine, h]

/-- A file is accepted if both patterns find something. -/
lemma ofFile_eq_ok_iff : Credentials.ofFile credFile (some bytes) = .ok c ↔
    ∃ m m', credFileUsernameRegex.search none (firstLine bytes) = some m ∧
      credFilePasswordRegex.search none (secondRead bytes) = some m' ∧
        c = ⟨m.groups.headD [], m'.groups.headD []⟩ := by
  obtain ⟨fs, fs', hfirst, hsecond⟩ := getline_lines bytes
  simp only [Credentials.ofFile, hfirst]
  cases hm : credFileUsernameRegex.search none (firstLine bytes) with
  | none => exact ⟨nofun, fun ⟨_, _, h, _⟩ => by cases h⟩
  | some m =>
    simp only [hsecond]
    cases hm' : credFilePasswordRegex.search none (secondRead bytes) with
    | none => exact ⟨nofun, fun ⟨_, _, _, h, _⟩ => by cases h⟩
    | some m' =>
      constructor
      · intro h
        exact ⟨m, m', rfl, rfl, (Except.ok.inj h).symm⟩
      · rintro ⟨n, n', hn, hn', rfl⟩
        rw [Option.some.inj hn, Option.some.inj hn']

/-- The value that a search finds. -/
lemma search_assignment_value {f : UInt8 → Bool} {hi : ℕ} {m : Match UInt8}
    (h : (assignment key f hi).search none line = some m) :
    WordOver f (m.groups.headD []) ∧ (m.groups.headD []).length ≤ hi := by
  obtain ⟨u, t, -, hm, -⟩ := search_eq_some_iff.mp h
  obtain ⟨-, -, v, -, -, -, hv, hlen, hg⟩ := mem_all_assignment (mem_all_of_first hm)
  rw [hg]
  exact ⟨hv, hlen⟩

/-- White space is not graphic. -/
lemma not_lt_of_isSpace {c : UInt8} (h : isSpace c = true) : ¬ byte ' ' < c := by
  simp only [isSpace, Bool.or_eq_true, Bool.and_eq_true, decide_eq_true_eq] at h
  rw [UInt8.not_lt]
  rcases h with rfl | h
  · exact UInt8.le_refl _
  · exact UInt8.le_trans h.2 (by decide)

/-- White space is in neither of the classes. -/
lemma isSpace_classes {c : UInt8} (h : isSpace c = true) :
    isUserNameChar c = false ∧ isAlnum c = false := by
  constructor
  · refine Bool.eq_false_iff.mpr fun hc => not_lt_of_isSpace h ?_
    have hword : WordOver isUserNameChar [c] := ⟨nofun, by simpa using hc⟩
    exact hword.graphic_userName c List.mem_cons_self
  · exact Bool.eq_false_iff.mpr fun hc => not_lt_of_isSpace h (space_lt_of_isAlnum hc)

/-- A user name that fits is found whole. -/
lemma search_username (hv : WordOver isUserNameChar v) (hlen : v.length ≤ 256)
    (h : IsAssignment (ascii "username") v line) :
    ∃ m, credFileUsernameRegex.search none line = some m ∧ m.groups = [v] :=
  search_assignment (by decide +kernel) (by decide) (fun _ hc => (isSpace_classes hc).1) hv hlen h

/-- A password that fits is found whole. -/
lemma search_password (hv : WordOver isAlnum v) (hlen : v.length ≤ 20)
    (h : IsAssignment (ascii "password") v line) :
    ∃ m, credFilePasswordRegex.search none line = some m ∧ m.groups = [v] :=
  search_assignment (by decide +kernel) (by decide) (fun _ hc => (isSpace_classes hc).2) hv hlen h

/-- In a line without white space, nothing stands beside the assignment. -/
lemma IsAssignment.eq_of_graphic (h : IsAssignment key v line) (hline : Graphic line) :
    line = key ++ ascii "=" ++ v := by
  obtain ⟨ws, sp₁, sp₂, ws', rfl, hsp₁, hsp₂, hws, hws'⟩ := h
  have hempty : ∀ w : Bytes, (∀ c ∈ w, ¬ byte ' ' < c) → (∀ c ∈ w, byte ' ' < c) → w = [] :=
    fun w hno hyes => List.eq_nil_iff_forall_not_mem.mpr fun c hc => hno c hc (hyes c hc)
  have hspaces : ∀ {w : Bytes}, Spaces w → ∀ c ∈ w, ¬ byte ' ' < c := by
    intro w hw c hc
    rw [hw c hc]
    decide
  rw [hempty ws (fun c hc => not_lt_of_isSpace (hws c hc)) fun c hc => hline c (by simp [hc]),
    hempty sp₁ (hspaces hsp₁) fun c hc => hline c (by simp [hc]),
    hempty sp₂ (hspaces hsp₂) fun c hc => hline c (by simp [hc]),
    hempty ws' (fun c hc => not_lt_of_isSpace (hws' c hc)) fun c hc => hline c (by simp [hc])]
  simp only [List.nil_append, List.append_nil, List.append_assoc]

/-- **Whole credentials.** The values of a file are taken whole exactly if one of the patterns finds
nothing, and the file is refused, or the first line assigns a user name and the second line a
password, both over their class and not too long.

**Proof sketch.** The value that a search finds is over the class and within the bound
(`search_assignment_value`), and in a line of the documented form it is the whole one
(`search_assignment`). -/
theorem credentials_whole_iff : TakenWhole credFile content ↔
    ∀ bytes, content = some bytes →
      Assigns (ascii "username") isUserNameChar (firstLine bytes) →
        Assigns (ascii "password") isAlnum (secondRead bytes) →
          (∃ u, IsAssignment (ascii "username") u (firstLine bytes) ∧
            WordOver isUserNameChar u ∧ u.length ≤ 256) ∧
          ∃ line p, secondLine bytes = some line ∧ IsAssignment (ascii "password") p line ∧
            WordOver isAlnum p ∧ p.length ≤ 20 := by
  constructor
  · rintro hwhole bytes rfl huser hpass
    obtain ⟨m, hm⟩ := (exists_search_assignment (by decide) (Nat.succ_pos 255)).mpr huser
    obtain ⟨m', hm'⟩ := (exists_search_assignment (by decide) (Nat.succ_pos 19)).mpr hpass
    obtain ⟨bytes', line, hbytes, hline, hu, hp⟩ :=
      hwhole _ (ofFile_eq_ok_iff.mpr ⟨m, m', hm, hm', rfl⟩)
    obtain rfl := Option.some.inj hbytes
    exact ⟨⟨_, hu, search_assignment_value hm⟩, line, _, hline, hp, search_assignment_value hm'⟩
  · intro hlines c hc
    cases content with
    | none => cases hc
    | some bytes =>
      obtain ⟨m, m', hm, hm', rfl⟩ := ofFile_eq_ok_iff.mp hc
      have huser := (exists_search_assignment (by decide) (Nat.succ_pos 255)).mp ⟨m, hm⟩
      have hpass := (exists_search_assignment (by decide) (Nat.succ_pos 19)).mp ⟨m', hm'⟩
      obtain ⟨⟨u, hu, huchars, hulen⟩, line, p, hline, hp, hpchars, hplen⟩ :=
        hlines bytes rfl huser hpass
      obtain ⟨n, hn, hgn⟩ := search_username huchars hulen hu
      rw [secondRead, hline] at hm'
      obtain ⟨n', hn', hgn'⟩ := search_password hpchars hplen hp
      obtain rfl := Option.some.inj (hm.symm.trans hn)
      obtain rfl := Option.some.inj (hm'.symm.trans hn')
      refine ⟨bytes, line, rfl, hline, ?_, ?_⟩
      · rw [Credentials.getUsername, hgn]
        exact hu
      · rw [Credentials.getPassword, hgn']
        exact hp

/-- A password is cut at the first character outside its class. -/
theorem credentials_truncated :
    ¬ TakenWhole (ascii "auth") (some (ascii "username=alex\npassword=secret!x\n")) := by
  intro hwhole
  have hfile : Credentials.ofFile (ascii "auth")
      (some (ascii "username=alex\npassword=secret!x\n")) =
        .ok ⟨ascii "alex", ascii "secret"⟩ := by rfl
  obtain ⟨bytes, line, hbytes, hline, -, hpass⟩ := hwhole _ hfile
  obtain rfl := Option.some.inj hbytes
  obtain rfl : ascii "password=secret!x" = line := Option.some.inj hline
  have hgraphic : Graphic (ascii "password=secret!x") := by
    rw [Graphic]
    decide +kernel
  exact absurd (hpass.eq_of_graphic hgraphic) (by decide)

end Files

end Imapcl
