import Imapcl.Client.Basic
import Imapcl.Foundation.Getopt
import Mathlib.Data.FinEnum

set_option relaxedAutoImplicit false
set_option autoImplicit false

/-!
# The command line

The beginning of `main`: the options, their checks, and the ports that are used if none is given.
The arguments are those after the name of the program; what the directory for the messages is, is a
parameter.

## Main definitions

* `Imapcl.takesArgument`, `Imapcl.getopt` — `getopt` with the string of options of the program.
* `Imapcl.strtol` — the number at the beginning of a string.
* `Imapcl.Settings.set` — the `switch` over the options.
* `Imapcl.arguments` — what the command line says, or why it is refused.

## Main results

* `Imapcl.arguments_ok_iff` — the command lines that are accepted, and what they say.
* `Imapcl.arguments_order` — the order of different options does not matter.
-/

namespace Imapcl

open Getopt

/-! ## The options -/

/-- The string of options. -/
def optstring : Bytes := ascii "p:Tc:C:nha:b:o:i"

/-- Whether an option takes an argument, which a colon after it says. -/
def takesArgument (c : UInt8) : Option Bool :=
  if c = byte ':' ∨ c = byte ';' then none
  else match optstring.dropWhile (· ≠ c) with
    | [] => none
    | _ :: rest => some (rest.head? = some (byte ':'))

/-- `getopt` on the arguments: the options up to the end, and the operands. -/
def getopt (args : List Bytes) : List (Item UInt8) × List Bytes :=
  scan (byte '-') takesArgument none args

/-- `strtol(s, nullptr, 10)`, where `long` has 64 bits. -/
def strtol (s : Bytes) : ℤ :=
  match s.dropWhile isSpace with
  | [] => 0
  | c :: rest =>
    if c = byte '-' then max (-(numeralValue (rest.takeWhile isDigit) : ℤ)) (-2 ^ 63)
    else if c = byte '+' then min (numeralValue (rest.takeWhile isDigit) : ℤ) (2 ^ 63 - 1)
    else min (numeralValue ((c :: rest).takeWhile isDigit) : ℤ) (2 ^ 63 - 1)

/-- The variables of `main` that the options set. -/
structure Settings where
  portNumber : Bytes
  useTls : Bool
  onlyUnseen : Bool
  onlyHeaders : Bool
  interactive : Bool
  mailboxName : Bytes
  certDir : Bytes
  certFile : Bytes
  outputDir : Bytes
  authFile : Bytes
  deriving DecidableEq, Repr

/-- The variables at first. -/
def Settings.initial : Settings where
  portNumber := []
  useTls := false
  onlyUnseen := false
  onlyHeaders := false
  interactive := false
  mailboxName := ascii "INBOX"
  certDir := ascii "/etc/ssl/certs"
  certFile := []
  outputDir := []
  authFile := []

/-- A command line that is refused: the error, and whether the usage is printed. The exit code
is `1`. -/
structure Refusal where
  error : Bytes
  usage : Bool
  deriving DecidableEq, Repr

/-- The refusal of a port. -/
def portRefusal : Refusal := ⟨ascii "-s: PORT must be in range <1, 65535>!", false⟩

/-- The refusal of an option. -/
def optionRefusal : Refusal := ⟨ascii "Invalid usage.", true⟩

/-- The `switch` over the options. -/
def Settings.set (s : Settings) : Item UInt8 → Except Refusal Settings
  | .withArg c optarg =>
    if c = byte 'p' then
      if strtol optarg > 65535 ∨ strtol optarg < 1 then .error portRefusal
      else .ok { s with portNumber := optarg }
    else if c = byte 'a' then .ok { s with authFile := optarg }
    else if c = byte 'b' then .ok { s with mailboxName := optarg }
    else if c = byte 'o' then .ok { s with outputDir := optarg }
    else if c = byte 'C' then .ok { s with certDir := optarg }
    else if c = byte 'c' then .ok { s with certFile := optarg }
    else .error optionRefusal
  | .flag c =>
    if c = byte 'T' then .ok { s with useTls := true }
    else if c = byte 'i' then .ok { s with interactive := true }
    else if c = byte 'n' then .ok { s with onlyUnseen := true }
    else if c = byte 'h' then .ok { s with onlyHeaders := true }
    else .error optionRefusal
  | .invalid => .error optionRefusal

/-! ## The checks -/

/-- What `std::filesystem` says about a path. -/
inductive FileStatus where
  | missing
  | directory
  | other
  deriving DecidableEq, Repr

section Checks

variable (status : Bytes → FileStatus)

/-- The checks after the options, which return the name of the host. -/
def Settings.check (s : Settings) (operands : List Bytes) : Except Refusal Bytes :=
  if operands = [] then .error ⟨ascii "Hostname must be supplied.", true⟩
  else if s.outputDir = [] then .error ⟨ascii "Output directory must be specified.", true⟩
  else if status s.outputDir = .missing then
    .error ⟨ascii "Output directory does not exist.", false⟩
  else if status s.outputDir ≠ .directory then
    .error ⟨ascii "Output directory is not a directory!", false⟩
  else if s.authFile = [] then .error ⟨ascii "Credentials file must be specified.", true⟩
  else if operands.length ≠ 1 then .error ⟨ascii "Invalid usage: Too many arguments", true⟩
  else .ok (operands.headD [])

/-- What the rest of `main` uses. -/
structure Configuration where
  serverHostname : Bytes
  portNumber : Bytes
  useTls : Bool
  certDir : Bytes
  certFile : Bytes
  outputDir : Bytes
  authFile : Bytes
  options : Options
  deriving DecidableEq, Repr

/-- The configuration, with the default ports. -/
def Settings.configuration (s : Settings) (serverHostname : Bytes) : Configuration where
  serverHostname := serverHostname
  portNumber :=
    if s.portNumber = [] then if s.useTls then ascii "993" else ascii "143" else s.portNumber
  useTls := s.useTls
  certDir := s.certDir
  certFile := s.certFile
  outputDir := s.outputDir
  authFile := s.authFile
  options := ⟨s.interactive, s.onlyUnseen, s.onlyHeaders, s.mailboxName⟩

/-- `main`, up to the credentials. -/
def arguments (args : List Bytes) : Except Refusal Configuration := do
  let s ← (getopt args).1.foldlM Settings.set .initial
  let serverHostname ← s.check status (getopt args).2
  pure (s.configuration serverHostname)

end Checks

/-- A command line with clusters of options, an operand between them and an option given twice. -/
example : arguments (fun _ => .directory) [ascii "-Tno", ascii "out", ascii "host", ascii "-p993",
    ascii "-a", ascii "auth", ascii "-oin"] =
    .ok ⟨ascii "host", ascii "993", true, ascii "/etc/ssl/certs", [], ascii "in", ascii "auth",
      ⟨false, true, false, ascii "INBOX"⟩⟩ := by
  decide +kernel

/-! ## What the options set -/

/-- The options without an argument. -/
lemma takesArgument_false : ∀ c, takesArgument c = some false →
    c = byte 'T' ∨ c = byte 'i' ∨ c = byte 'n' ∨ c = byte 'h' := by
  decide +kernel

/-- The options with an argument. -/
lemma takesArgument_true : ∀ c, takesArgument c = some true →
    c = byte 'p' ∨ c = byte 'a' ∨ c = byte 'b' ∨ c = byte 'o' ∨ c = byte 'C' ∨ c = byte 'c' := by
  decide +kernel

/-- The port is in the range. -/
def InRange (port : Bytes) : Prop := 1 ≤ strtol port ∧ strtol port ≤ 65535

instance (port : Bytes) : Decidable (InRange port) := by
  unfold InRange
  infer_instance

/-- Every port that is given is in the range. -/
def PortsInRange (items : List (Item UInt8)) : Prop :=
  ∀ port, .withArg (byte 'p') port ∈ items → InRange port

/-- What options do to the variables: the last argument counts. -/
def Settings.overlay (s : Settings) (items : List (Item UInt8)) : Settings where
  portNumber := (lastArg (byte 'p') items).getD s.portNumber
  useTls := s.useTls || .flag (byte 'T') ∈ items
  onlyUnseen := s.onlyUnseen || .flag (byte 'n') ∈ items
  onlyHeaders := s.onlyHeaders || .flag (byte 'h') ∈ items
  interactive := s.interactive || .flag (byte 'i') ∈ items
  mailboxName := (lastArg (byte 'b') items).getD s.mailboxName
  certDir := (lastArg (byte 'C') items).getD s.certDir
  certFile := (lastArg (byte 'c') items).getD s.certFile
  outputDir := (lastArg (byte 'o') items).getD s.outputDir
  authFile := (lastArg (byte 'a') items).getD s.authFile

section Set

variable {s s' : Settings} {item : Item UInt8} {items : List (Item UInt8)} {port : Bytes}

/-- One option. -/
lemma set_known (hknown : item.Known takesArgument) :
    (PortsInRange [item] ∧ s.set item = .ok (s.overlay [item])) ∨
      (¬ PortsInRange [item] ∧ s.set item = .error portRefusal) := by
  cases item with
  | invalid => exact hknown.elim
  | flag c =>
    refine Or.inl ⟨by simp [PortsInRange], ?_⟩
    rcases takesArgument_false c hknown with rfl | rfl | rfl | rfl <;>
      simp [Settings.set, Settings.overlay, lastArg, Item.arg?, byte]
  | withArg c optarg =>
    have hport : PortsInRange [.withArg (byte 'p') optarg] ↔ InRange optarg := by
      simp [PortsInRange]
    rcases takesArgument_true c hknown with rfl | hother
    · by_cases hrange : InRange optarg
      · have haccept : ¬ (strtol optarg > 65535 ∨ strtol optarg < 1) := by
          unfold InRange at hrange
          omega
        refine Or.inl ⟨hport.mpr hrange, ?_⟩
        simp [Settings.set, if_neg haccept, Settings.overlay, lastArg, Item.arg?, byte]
      · have hrefuse : strtol optarg > 65535 ∨ strtol optarg < 1 := by
          unfold InRange at hrange
          omega
        refine Or.inr ⟨hport.not.mpr hrange, ?_⟩
        simp [Settings.set, if_pos hrefuse]
    · refine Or.inl ?_
      rcases hother with rfl | rfl | rfl | rfl | rfl <;>
        simp [PortsInRange, Settings.set, Settings.overlay, lastArg, Item.arg?, byte]

/-- One option, and the others. -/
lemma overlay_cons : s.overlay (item :: items) = (s.overlay [item]).overlay items := by
  simp only [Settings.overlay, lastArg, Option.none_or, List.mem_cons, List.not_mem_nil, or_false]
  have hlast : ∀ c (default : Bytes), ((lastArg c items).or (item.arg? c)).getD default =
      (lastArg c items).getD ((item.arg? c).getD default) := by
    intro c default
    cases lastArg c items <;> rfl
  simp [hlast, Bool.or_assoc]

/-- One option, and the others. -/
lemma portsInRange_cons :
    PortsInRange (item :: items) ↔ PortsInRange [item] ∧ PortsInRange items := by
  simp only [PortsInRange, List.mem_cons, List.not_mem_nil, or_false]
  exact ⟨fun h => ⟨fun port hp => h port (Or.inl hp), fun port hp => h port (Or.inr hp)⟩,
    fun h port hp => hp.elim (h.1 port) (h.2 port)⟩

/-- The loop over options that are known: a port that is out of the range is refused, and nothing
else is.

**Proof sketch.** Induction on the options. -/
lemma foldlM_set (hknown : ∀ item ∈ items, item.Known takesArgument) :
    (PortsInRange items ∧ items.foldlM Settings.set s = .ok (s.overlay items)) ∨
      (¬ PortsInRange items ∧ items.foldlM Settings.set s = .error portRefusal) := by
  induction items generalizing s with
  | nil =>
    have hnothing : s.overlay [] = s := by simp [Settings.overlay, lastArg]
    refine Or.inl ⟨by simp [PortsInRange], ?_⟩
    rw [hnothing]
    rfl
  | cons item items ih =>
    rw [List.forall_mem_cons] at hknown
    rw [portsInRange_cons, List.foldlM_cons, overlay_cons]
    rcases set_known (s := s) hknown.1 with ⟨hfirst, hset⟩ | ⟨hfirst, hset⟩
    · rw [hset]
      rcases ih (s := s.overlay [item]) hknown.2 with ⟨hrest, hfold⟩ | ⟨hrest, hfold⟩
      · exact Or.inl ⟨⟨hfirst, hrest⟩, hfold⟩
      · exact Or.inr ⟨fun h => hrest h.2, hfold⟩
    · rw [hset]
      exact Or.inr ⟨fun h => hfirst h.1, rfl⟩

end Set

/-! ## Accepted command lines -/

section Accepted

variable {s s' : Settings} {operands : List Bytes} {items : List (Item UInt8)} {host : Bytes}
  {status : Bytes → FileStatus}

/-- The checks succeed if there is one operand, and a directory and a file for the credentials. -/
lemma check_ok_iff : s.check status operands = .ok host ↔
    operands = [host] ∧ s.outputDir ≠ [] ∧ status s.outputDir = .directory ∧ s.authFile ≠ [] := by
  unfold Settings.check
  constructor
  · intro h
    split at h
    · cases h
    split at h
    · cases h
    · next hdir =>
      split at h
      · cases h
      split at h
      · cases h
      · next hstatus =>
        split at h
        · cases h
        · next hauth =>
          split at h
          · cases h
          · next hlen =>
            obtain ⟨a, rfl⟩ := List.length_eq_one_iff.mp (not_not.mp hlen)
            obtain rfl : a = host := Except.ok.inj h
            exact ⟨rfl, hdir, not_not.mp hstatus, hauth⟩
  · rintro ⟨rfl, hdir, hstatus, hauth⟩
    simp [hdir, hstatus, hauth]

/-- A port that is in the range is not empty, so that the default port is not used instead. -/
lemma InRange.ne_nil {port : Bytes} (h : InRange port) : port ≠ [] := by
  rintro rfl
  exact absurd h (by decide)

/-- An option that is not valid is refused. -/
lemma foldlM_invalid (h : .invalid ∈ items) : items.foldlM Settings.set s ≠ .ok s' := by
  induction items generalizing s with
  | nil => cases h
  | cons item items ih =>
    rw [List.foldlM_cons]
    rcases List.mem_cons.mp h with rfl | h
    · exact fun hok => by cases hok
    · cases hset : s.set item with
      | error r => exact fun hok => by cases hok
      | ok s₁ => exact ih h

end Accepted

/-- What the options of a command line say of a configuration: the last argument of each of them
counts. -/
structure Says (items : List (Item UInt8)) (cfg : Configuration) : Prop where
  port : cfg.portNumber =
    (lastArg (byte 'p') items).getD (if cfg.useTls then ascii "993" else ascii "143")
  tls : cfg.useTls = true ↔ .flag (byte 'T') ∈ items
  certDir : cfg.certDir = (lastArg (byte 'C') items).getD (ascii "/etc/ssl/certs")
  certFile : cfg.certFile = (lastArg (byte 'c') items).getD []
  outputDir : lastArg (byte 'o') items = some cfg.outputDir
  authFile : lastArg (byte 'a') items = some cfg.authFile
  interactive : cfg.options.interactive = true ↔ .flag (byte 'i') ∈ items
  onlyUnseen : cfg.options.onlyUnseen = true ↔ .flag (byte 'n') ∈ items
  onlyHeaders : cfg.options.onlyHeaders = true ↔ .flag (byte 'h') ∈ items
  mailboxName : cfg.options.mailboxName = (lastArg (byte 'b') items).getD (ascii "INBOX")

section Says

variable {items : List (Item UInt8)} {cfg : Configuration} {host : Bytes}

/-- The port of a configuration, where a default is used for an empty one. -/
lemma port_configuration (hports : PortsInRange items) (tls : Bool) :
    (if (lastArg (byte 'p') items).getD [] = [] then
      if tls then ascii "993" else ascii "143" else (lastArg (byte 'p') items).getD []) =
      (lastArg (byte 'p') items).getD (if tls then ascii "993" else ascii "143") := by
  cases hport : lastArg (byte 'p') items with
  | none => rfl
  | some port => exact if_neg (hports port (mem_of_lastArg hport)).ne_nil

/-- The options say what the loop over them and the defaults have left. -/
lemma says_iff (hports : PortsInRange items) (hdir : cfg.outputDir ≠ [])
    (hauth : cfg.authFile ≠ []) :
    Says items cfg ↔ (Settings.initial.overlay items).configuration cfg.serverHostname = cfg := by
  obtain ⟨hostname, port, tls, certDir, certFile, outputDir, authFile, interactive, onlyUnseen,
    onlyHeaders, mailbox⟩ := cfg
  simp only [Settings.configuration, Settings.overlay, Settings.initial, Bool.false_or,
    Configuration.mk.injEq, Options.mk.injEq, port_configuration hports, true_and]
  have hflag : ∀ {c : UInt8} {b : Bool}, decide (.flag c ∈ items) = b ↔
      (b = true ↔ .flag c ∈ items) := by
    intro c b
    rw [Bool.eq_iff_iff, decide_eq_true_iff]
    exact Iff.comm
  have hfound : ∀ {c : UInt8} {value : Bytes}, value ≠ [] →
      ((lastArg c items).getD [] = value ↔ lastArg c items = some value) := by
    intro c value hvalue
    cases lastArg c items with
    | none => simpa using hvalue.symm
    | some _ => simp
  constructor
  · rintro ⟨hport, htls, hcertDir, hcertFile, houtput, hfile, hinteractive, hunseen, hheaders,
      hmailbox⟩
    refine ⟨?_, hflag.mpr htls, hcertDir.symm, hcertFile.symm, (hfound hdir).mpr houtput,
      (hfound hauth).mpr hfile, hflag.mpr hinteractive, hflag.mpr hunseen, hflag.mpr hheaders,
      hmailbox.symm⟩
    rw [hflag.mpr htls]
    exact hport.symm
  · rintro ⟨hport, htls, hcertDir, hcertFile, houtput, hfile, hinteractive, hunseen, hheaders,
      hmailbox⟩
    rw [htls] at hport
    exact ⟨hport.symm, hflag.mp htls, hcertDir.symm, hcertFile.symm, (hfound hdir).mp houtput,
      (hfound hauth).mp hfile, hflag.mp hinteractive, hflag.mp hunseen, hflag.mp hheaders,
      hmailbox.symm⟩

end Says

/-- A sequence that returns has returned in both of its parts. -/
lemma exists_of_except_bind {ε α β : Type} {p : Except ε α} {f : α → Except ε β} {b : β}
    (h : (p >>= f) = .ok b) : ∃ a, p = .ok a ∧ f a = .ok b := by
  cases p with
  | error e => cases h
  | ok a => exact ⟨a, rfl, h⟩

/-- **The command line.** The program accepts a command line if and only if it consists, in the
grammar of `getopt`, of known options and of the name of the host as the only operand, with ports in
the range, a directory that exists and a file for the credentials; and then the last argument of
each option counts, and the defaults are used for the others.

**Proof sketch.** The loop over valid options fails only for a port out of the range, and no port in
it is empty, so that a default port is used only if none is given. -/
theorem arguments_ok_iff (status : Bytes → FileStatus) (args : List Bytes) (cfg : Configuration) :
    arguments status args = .ok cfg ↔ ∃ items,
      CommandLine (byte '-') takesArgument args items [cfg.serverHostname] ∧ PortsInRange items ∧
        Says items cfg ∧ cfg.outputDir ≠ [] ∧ status cfg.outputDir = .directory ∧
          cfg.authFile ≠ [] := by
  constructor
  · intro h
    obtain ⟨s, hfold, h⟩ := exists_of_except_bind h
    obtain ⟨host, hcheck, h⟩ := exists_of_except_bind h
    obtain rfl := Except.ok.inj h
    have hvalid : .invalid ∉ (getopt args).1 := fun hinvalid => foldlM_invalid hinvalid hfold
    have hline : CommandLine (byte '-') takesArgument args (getopt args).1 (getopt args).2 :=
      commandLine_iff.mpr ⟨rfl, hvalid⟩
    rcases foldlM_set (s := .initial) hline.known with ⟨hports, hset⟩ | ⟨-, hset⟩
    · obtain rfl : _ = s := Except.ok.inj (hset.symm.trans hfold)
      obtain ⟨hhost, hdir, hstatus, hauth⟩ := check_ok_iff.mp hcheck
      rw [hhost] at hline
      exact ⟨_, hline, hports, (says_iff hports hdir hauth).mpr rfl, hdir, hstatus, hauth⟩
    · cases hset.symm.trans hfold
  · rintro ⟨items, hline, hports, hsays, hdir, hstatus, hauth⟩
    have hcfg := (says_iff hports hdir hauth).mp hsays
    have hscan : getopt args = (items, [cfg.serverHostname]) := (commandLine_iff.mp hline).1
    rcases foldlM_set (s := .initial) hline.known with ⟨-, hset⟩ | ⟨hnot, -⟩
    · have hcheck : (Settings.initial.overlay items).check status [cfg.serverHostname] =
          .ok cfg.serverHostname := by
        rw [check_ok_iff]
        rw [← hcfg] at hdir hstatus hauth
        exact ⟨rfl, hdir, hstatus, hauth⟩
      rw [arguments, hscan, hset]
      change (Settings.check _ _ _ >>= fun host => pure (Settings.configuration _ host)) = _
      rw [hcheck]
      exact congrArg Except.ok hcfg
    · exact absurd hports hnot

/-- **The order of options.** Two command lines with the same operands, on which each option occurs
with the same arguments in the same order, are accepted alike or refused alike: how the options are
clustered, how they are mixed with each other and where the operands stand does not matter.

**Proof sketch.** The outcome of the loop depends on the ports, the last arguments and the flags
only. -/
theorem arguments_order (status : Bytes → FileStatus) (args args' operands : List Bytes)
    (items items' : List (Item UInt8))
    (h : CommandLine (byte '-') takesArgument args items operands)
    (h' : CommandLine (byte '-') takesArgument args' items' operands)
    (hsame : SameOptions items items') : arguments status args = arguments status args' := by
  have hscan : getopt args = (items, operands) := (commandLine_iff.mp h).1
  have hscan' : getopt args' = (items', operands) := (commandLine_iff.mp h').1
  have hports : PortsInRange items ↔ PortsInRange items' := by
    unfold PortsInRange
    refine forall_congr' fun port => ?_
    rw [hsame.mem_iff rfl]
  have hflag : ∀ c : UInt8, .flag c ∈ items ↔ .flag c ∈ items' := fun _ => hsame.mem_iff rfl
  have hoverlay : Settings.initial.overlay items = Settings.initial.overlay items' := by
    simp only [Settings.overlay, hsame.lastArg_eq, hflag]
  have hfold : items.foldlM Settings.set .initial = items'.foldlM Settings.set .initial := by
    rcases foldlM_set (s := .initial) h.known with ⟨hin, hset⟩ | ⟨hnot, hset⟩
    · rcases foldlM_set (s := .initial) h'.known with ⟨-, hset'⟩ | ⟨hnot', -⟩
      · rw [hset, hset', hoverlay]
      · exact absurd (hports.mp hin) hnot'
    · rcases foldlM_set (s := .initial) h'.known with ⟨hin', -⟩ | ⟨-, hset'⟩
      · exact absurd (hports.mpr hin') hnot
      · rw [hset, hset']
  rw [arguments, arguments, hscan, hscan', hfold]

/-- A cluster of options before the host, and the options one by one after it. -/
theorem arguments_order_cluster :
    arguments (fun _ => .directory) [ascii "-nTa", ascii "auth", ascii "-oout", ascii "host"] =
      arguments (fun _ => .directory)
        [ascii "host", ascii "-o", ascii "out", ascii "-aauth", ascii "-T", ascii "-n"] := by
  refine arguments_order _ _ _ [ascii "host"]
    [.flag (byte 'n'), .flag (byte 'T'), .withArg (byte 'a') (ascii "auth"),
      .withArg (byte 'o') (ascii "out")]
    [.withArg (byte 'o') (ascii "out"), .withArg (byte 'a') (ascii "auth"), .flag (byte 'T'),
      .flag (byte 'n')] ?_ ?_ ?_
  · exact commandLine_iff.mpr (by decide +kernel)
  · exact commandLine_iff.mpr (by decide +kernel)
  · unfold SameOptions
    decide +kernel

end Imapcl
