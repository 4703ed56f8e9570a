import Mathlib.Data.List.Basic
import Mathlib.Tactic.Common

set_option relaxedAutoImplicit false
set_option autoImplicit false

/-!
# Options on a command line

The conventions of `getopt` with the permutation of the GNU library, over any alphabet. An argument
that begins with a dash holds options, one for each of its characters, up to an option that takes an
argument: this is the rest of the characters or, if there are none, the next argument. Arguments of
another form are operands wherever they stand, and so is everything after a double dash.

## Main definitions

* `Getopt.Item`, `Getopt.scan` — what `getopt` returns, and the operands it leaves.
* `Getopt.Cluster`, `Getopt.CommandLine` — the grammar of command lines.
* `Getopt.lastArg` — the last argument of an option.
* `Getopt.SameOptions` — lists that have the same options.

## Main results

* `Getopt.commandLine_iff` — the scan accepts the command lines of the grammar, and no others.
-/

namespace Getopt

variable {α : Type}

/-! ## The scan -/

/-- What `getopt` returns: an option without or with an argument, or that it is not valid. -/
inductive Item (α : Type) where
  | flag (c : α)
  | withArg (c : α) (optarg : List α)
  | invalid
  deriving DecidableEq, Repr

section Scan

variable (dash : α) (takes : α → Option Bool)

/-- The options in an argument, after the dash. The last one of them may still need its own. -/
def cluster : List α → List (Item α) × Option α
  | [] => ([], none)
  | c :: cs => match takes c with
    | none => ([.invalid], none)
    | some false => (.flag c :: (cluster cs).1, (cluster cs).2)
    | some true => if cs = [] then ([], some c) else ([.withArg c cs], none)

/-- The argument has options: there is more than a dash. -/
def HasOptions (arg : List α) : Prop := ∃ c cs, arg = dash :: c :: cs

/-- The options and the operands, where the option in the first argument needs its own. -/
def scan [DecidableEq α] : Option α → List (List α) → List (Item α) × List (List α)
  | none, [] => ([], [])
  | some _, [] => ([.invalid], [])
  | some c, optarg :: args => (.withArg c optarg :: (scan none args).1, (scan none args).2)
  | none, (d :: c :: cs) :: args =>
    if d = dash then
      if c = dash ∧ cs = [] then ([], args)
      else
        ((cluster takes (c :: cs)).1 ++ (scan (cluster takes (c :: cs)).2 args).1,
          (scan (cluster takes (c :: cs)).2 args).2)
    else ((scan none args).1, (d :: c :: cs) :: (scan none args).2)
  | none, arg :: args => ((scan none args).1, arg :: (scan none args).2)

/-- The option is of the table. -/
def Item.Known : Item α → Prop
  | .flag c => takes c = some false
  | .withArg c _ => takes c = some true
  | .invalid => False

/-! ## The grammar -/

/-- The options in an argument. -/
inductive Cluster : List α → List (Item α) → Option α → Prop where
  | nil : Cluster [] [] none
  | flag {c : α} {cs : List α} {items : List (Item α)} {pending : Option α}
    (hc : takes c = some false) (h : Cluster cs items pending) :
    Cluster (c :: cs) (.flag c :: items) pending
  | attached {c : α} {cs : List α} (hc : takes c = some true) (hcs : cs ≠ []) :
    Cluster (c :: cs) [.withArg c cs] none
  | open {c : α} (hc : takes c = some true) : Cluster [c] [] (some c)

/-- A command line with its options and its operands. -/
inductive CommandLine : List (List α) → List (Item α) → List (List α) → Prop where
  | nil : CommandLine [] [] []
  | stop (args : List (List α)) : CommandLine ([dash, dash] :: args) [] args
  | operand {arg : List α} {args operands : List (List α)} {items : List (Item α)}
    (harg : ¬ HasOptions dash arg) (h : CommandLine args items operands) :
    CommandLine (arg :: args) items (arg :: operands)
  | options {cs : List α} {args operands : List (List α)} {items items' : List (Item α)}
    (hcs : cs ≠ [] ∧ cs ≠ [dash]) (hcluster : Cluster takes cs items none)
    (h : CommandLine args items' operands) :
    CommandLine ((dash :: cs) :: args) (items ++ items') operands
  | separate {cs optarg : List α} {args operands : List (List α)} {items items' : List (Item α)}
    {c : α} (hcs : cs ≠ [] ∧ cs ≠ [dash]) (hcluster : Cluster takes cs items (some c))
    (h : CommandLine args items' operands) :
    CommandLine ((dash :: cs) :: optarg :: args) (items ++ .withArg c optarg :: items') operands

end Scan

/-! ## Correctness -/

section Correctness

variable {dash : α} {takes : α → Option Bool} {arg cs : List α} {args operands : List (List α)}
  {items : List (Item α)} {pending : Option α}

/-- The options in an argument are valid if and only if they are of the grammar. -/
lemma cluster_iff : Cluster takes cs items pending ↔
    cluster takes cs = (items, pending) ∧ .invalid ∉ items := by
  constructor
  · intro h
    induction h with
    | nil => simp [cluster]
    | flag hc _ ih => simp [cluster, hc, ih.1, ih.2]
    | attached hc hcs => simp [cluster, hc, hcs]
    | «open» hc => simp [cluster, hc]
  · intro ⟨h, hvalid⟩
    induction cs generalizing items with
    | nil =>
      cases h
      exact .nil
    | cons c cs ih =>
      rw [cluster] at h
      split at h
      · cases h
        simp at hvalid
      · next hc =>
        obtain ⟨rfl, rfl⟩ := Prod.mk.inj h
        exact .flag hc (ih rfl (List.not_mem_of_not_mem_cons hvalid))
      · next hc =>
        split at h
        · next hcs =>
          cases h
          rw [hcs]
          exact .open hc
        · next hcs =>
          cases h
          exact .attached hc hcs

/-- The options of a cluster are of the table. -/
lemma Cluster.known (h : Cluster takes cs items pending) :
    (∀ item ∈ items, item.Known takes) ∧ ∀ c ∈ pending, takes c = some true := by
  induction h with
  | nil => simp
  | flag hc _ ih => exact ⟨List.forall_mem_cons.mpr ⟨hc, ih.1⟩, ih.2⟩
  | attached hc _ => simp [Item.Known, hc]
  | «open» hc => simp [hc]

/-- The options of a command line are of the table. -/
lemma CommandLine.known (h : CommandLine dash takes args items operands) :
    ∀ item ∈ items, item.Known takes := by
  induction h with
  | nil => simp
  | stop args => simp
  | operand _ _ ih => exact ih
  | options _ hcluster _ ih =>
    simp only [List.mem_append]
    rintro item (h | h)
    · exact hcluster.known.1 item h
    · exact ih item h
  | separate _ hcluster _ ih =>
    simp only [List.mem_append, List.mem_cons]
    rintro item (h | rfl | h)
    · exact hcluster.known.1 item h
    · exact hcluster.known.2 _ rfl
    · exact ih item h

variable [DecidableEq α]

/-- An argument without options is left. -/
lemma scan_operand (harg : ¬ HasOptions dash arg) : scan dash takes none (arg :: args) =
    ((scan dash takes none args).1, arg :: (scan dash takes none args).2) := by
  rcases arg with - | ⟨d, - | ⟨c, cs⟩⟩
  · rfl
  · rfl
  · rw [scan, if_neg]
    rintro rfl
    exact harg ⟨c, cs, rfl⟩

/-- An argument with options. -/
lemma scan_options (hcs : cs ≠ [] ∧ cs ≠ [dash]) : scan dash takes none ((dash :: cs) :: args) =
    ((cluster takes cs).1 ++ (scan dash takes (cluster takes cs).2 args).1,
      (scan dash takes (cluster takes cs).2 args).2) := by
  rcases cs with - | ⟨c, cs⟩
  · exact absurd rfl hcs.1
  · rw [scan, if_pos rfl, if_neg]
    rintro ⟨rfl, rfl⟩
    exact hcs.2 rfl

/-- **Command lines.** The scan finds options that are valid, and operands, if and only if they are
those of the grammar.

**Proof sketch.** Induction on the derivation, and on the arguments. -/
theorem commandLine_iff : CommandLine dash takes args items operands ↔
    scan dash takes none args = (items, operands) ∧ .invalid ∉ items := by
  constructor
  · intro h
    induction h with
    | nil => simp [scan]
    | stop args => simp [scan]
    | operand harg _ ih => simp [scan_operand harg, ih.1, ih.2]
    | options hcs hcluster _ ih =>
      obtain ⟨hitems, hvalid⟩ := cluster_iff.mp hcluster
      simp [scan_options hcs, hitems, ih.1, ih.2, hvalid]
    | separate hcs hcluster _ ih =>
      obtain ⟨hitems, hvalid⟩ := cluster_iff.mp hcluster
      simp [scan_options hcs, hitems, scan, ih.1, ih.2, hvalid]
  · intro ⟨h, hvalid⟩
    induction hn : args.length using Nat.strongRecOn generalizing args items operands with
    | _ n ih =>
      rcases args with - | ⟨arg, args⟩
      · cases h
        exact .nil
      have hlen : args.length < n := by
        rw [← hn, List.length_cons]
        omega
      by_cases harg : HasOptions dash arg
      · obtain ⟨c, cs, rfl⟩ := harg
        by_cases hstop : c = dash ∧ cs = []
        · obtain ⟨rfl, rfl⟩ := hstop
          rw [scan, if_pos rfl, if_pos ⟨rfl, rfl⟩] at h
          cases h
          exact .stop _
        · have hcs : c :: cs ≠ [] ∧ c :: cs ≠ [dash] :=
            ⟨List.cons_ne_nil _ _, fun heq => hstop (List.cons_eq_cons.mp heq)⟩
          rw [scan_options hcs] at h
          rcases hcluster : cluster takes (c :: cs) with ⟨first, pending⟩
          rw [hcluster] at h
          obtain ⟨rfl, rfl⟩ := Prod.mk.inj h
          rw [List.mem_append, not_or] at hvalid
          have hfirst := cluster_iff.mpr ⟨hcluster, hvalid.1⟩
          cases pending with
          | none => exact .options hcs hfirst (ih _ hlen rfl hvalid.2 rfl)
          | some p =>
            rcases args with - | ⟨optarg, args⟩
            · exact absurd hvalid.2 (by simp [scan])
            · have hrest : args.length < n := by
                rw [List.length_cons] at hlen
                omega
              have hlater := List.not_mem_of_not_mem_cons hvalid.2
              exact .separate hcs hfirst (ih _ hrest rfl hlater rfl)
      · rw [scan_operand harg] at h
        obtain ⟨rfl, rfl⟩ := Prod.mk.inj h
        exact .operand harg (ih _ hlen rfl hvalid rfl)

end Correctness

/-! ## Single options -/

section Single

variable [DecidableEq α] {c : α} {optarg : List α} {items items' : List (Item α)}

/-- The option that an item is. -/
def Item.letter? : Item α → Option α
  | .flag c | .withArg c _ => some c
  | .invalid => none

/-- The argument of an option. -/
def Item.arg? (c : α) : Item α → Option (List α)
  | .withArg c' optarg => if c' = c then some optarg else none
  | _ => none

/-- The last argument of an option. -/
def lastArg (c : α) : List (Item α) → Option (List α)
  | [] => none
  | item :: items => (lastArg c items).or (item.arg? c)

/-- Each option occurs with the same arguments and in the same order. -/
def SameOptions (items items' : List (Item α)) : Prop :=
  ∀ c, items.filter (fun item => item.letter? = some c) =
    items'.filter fun item => item.letter? = some c

/-- The last argument is one of them. -/
lemma mem_of_lastArg (h : lastArg c items = some optarg) : .withArg c optarg ∈ items := by
  induction items with
  | nil => cases h
  | cons item items ih =>
    rw [lastArg, Option.or_eq_some_iff] at h
    rcases h with h | ⟨-, h⟩
    · exact List.mem_cons_of_mem _ (ih h)
    · cases item with
      | withArg c' optarg' =>
        rw [Item.arg?] at h
        split at h
        · next hc =>
          rw [hc, Option.some.inj h]
          exact List.mem_cons_self
        · cases h
      | _ => cases h

/-- The last argument of an option does not depend on the other options. -/
lemma lastArg_filter :
    lastArg c (items.filter fun item => item.letter? = some c) = lastArg c items := by
  induction items with
  | nil => rfl
  | cons item items ih =>
    by_cases hc : item.letter? = some c
    · rw [List.filter_cons_of_pos (by simpa using hc), lastArg, lastArg, ih]
    · have hnone : item.arg? c = none := by
        cases item with
        | withArg c' optarg => exact if_neg fun heq => hc (congrArg some heq)
        | _ => rfl
      rw [List.filter_cons_of_neg (by simpa using hc), lastArg, hnone, Option.or_none, ih]

/-- The same options have the same last arguments. -/
lemma SameOptions.lastArg_eq (h : SameOptions items items') :
    lastArg c items = lastArg c items' := by
  rw [← lastArg_filter, h c, lastArg_filter]

/-- The same options are given. -/
lemma SameOptions.mem_iff (h : SameOptions items items') {item : Item α}
    (hc : item.letter? = some c) : item ∈ items ↔ item ∈ items' := by
  have hmem := congrArg (item ∈ ·) (h c)
  simpa [hc] using hmem

end Single

end Getopt
