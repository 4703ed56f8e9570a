import Imapcl.Server.Connect
import Imapcl.World.Basic

set_option relaxedAutoImplicit false
set_option autoImplicit false

/-!
# The life of a server

`server.cpp` and `tls_server.cpp`: the constructors, the start of the receiving thread, and the
destructors, which stop the thread, join it and give back what the server holds. The thread may
begin at any time after it has been started, and its first action is to reset the flag that `stop`
sets.

## Design

* `std::thread` is constructed by `Session::connect` right after the server; the machine begins
  there. A step of the destructors is one statement, and a round of the thread is one step, since
  all that it shares with the destructors is the flag, which it reads once and at its end.
* `SSL_new` is taken to succeed, and what the destructors do to the tables of OpenSSL is left out.

## Main definitions

* `Imapcl.Holdings`, `Imapcl.newServer`, `Imapcl.newTLSServer` — the constructors.
* `Imapcl.Cleanup`, `Imapcl.destructor` — the destructors.
* `Imapcl.Lifetime`, `Imapcl.LifetimeEvent`, `Imapcl.Lifetime.step` — the machine.

## Main results

* `Imapcl.shutdown_safe` — nothing is used or given back after it has been given back.
-/

namespace Imapcl

open Machine

/-! ## Constructors -/

/-- What a server holds: the sockets, and whether there are an SSL object and a context. -/
structure Holdings where
  sockets : Sockets
  ssl : Bool
  context : Bool
  deriving DecidableEq, Repr

/-- Nothing is open. -/
def Holdings.Empty (h : Holdings) : Prop :=
  h.sockets.opened = [] ∧ h.ssl = false ∧ h.context = false

instance (h : Holdings) : Decidable h.Empty := by
  unfold Holdings.Empty
  infer_instance

/-- What OpenSSL reports in the constructor of `TLSServer`: of `SSL_CTX_new`, of
`SSL_CTX_load_verify_locations` and of `SSL_connect`. -/
structure TLSResult where
  context : Bool
  verifyLocations : Bool
  handshake : Bool
  deriving DecidableEq, Repr

/-- The statements of the destructors. -/
inductive Cleanup where
  | stop
  | join
  | joinIfJoinable
  | freeSSL
  | freeContext
  | close
  deriving DecidableEq, Repr

/-- `~Server`. -/
def serverDestructor : List Cleanup := [.stop, .joinIfJoinable, .close]

/-- `~TLSServer`, and then `~Server`. -/
def tlsServerDestructor : List Cleanup :=
  [.stop, .join, .freeSSL, .freeContext] ++ serverDestructor

/-- The destructors of a server, with TLS or without. -/
def destructor (tls : Bool) : List Cleanup :=
  if tls then tlsServerDestructor else serverDestructor

/-- What is held after a statement of the destructors. -/
def Holdings.cleanup (h : Holdings) : Cleanup → Holdings
  | .freeSSL => { h with ssl := false }
  | .freeContext => { h with context := false }
  | .close => { h with sockets := h.sockets.close }
  | _ => h

/-- The constructor of `Server`. If it throws, the destructor is not run. -/
def newServer (addresses : Except Bytes (List Attempt)) : Except StdException Unit × Holdings :=
  ((connectWithTimeout addresses).1, ⟨(connectWithTimeout addresses).2, false, false⟩)

/-- `create_ssl_context`, and the rest of the constructor of `TLSServer`. -/
def initSSL (tls : TLSResult) (h : Holdings) : Except StdException Unit × Holdings :=
  if ¬ tls.context then (.error (.runtimeError (ascii "SSL context creation failed!")), h)
  else if ¬ tls.verifyLocations then
    (.error (.runtimeError (ascii "Error loading CA certificate file/directory.")),
      Holdings.cleanup { h with context := true } .freeContext)
  else if ¬ tls.handshake then
    (.error (.runtimeError (ascii "Failed to initialize SSL!")),
      { h with context := true, ssl := true })
  else (.ok (), { h with context := true, ssl := true })

/-- The constructor of `TLSServer`. If it throws, the destructor of the base is run, and that of
`TLSServer` is not. -/
def newTLSServer (addresses : Except Bytes (List Attempt)) (tls : TLSResult) :
    Except StdException Unit × Holdings :=
  match newServer addresses with
  | (.error ex, h) => (.error ex, h)
  | (.ok (), h) => match initSSL tls h with
    | (.error ex, h') => (.error ex, serverDestructor.foldl Holdings.cleanup h')
    | (.ok (), h') => (.ok (), h')

/-- The constructor of either of them. -/
def construct (addresses : Except Bytes (List Attempt)) :
    Option TLSResult → Except StdException Unit × Holdings
  | none => newServer addresses
  | some tls => newTLSServer addresses tls

/-! ## The machine -/

/-- The receiving thread: its function has not begun, is in its loop, or has ended. -/
inductive ReceivingThread where
  | created
  | inside
  | ended (o : Outcome)
  deriving DecidableEq, Repr

/-- A server after it has been connected to the session: what it holds, the receiving thread with
its data, and what is left of the destructors. `aborted` says that joining has thrown. -/
structure Lifetime where
  holdings : Holdings
  tls : Bool
  receiver : Receiver
  thread : ReceivingThread
  joinable : Bool
  todo : List Cleanup
  aborted : Bool
  deriving DecidableEq, Repr

/-- The steps: the function of the thread begins, a round of it, and the next statement of the
destructors. -/
inductive LifetimeEvent where
  | enter
  | round (result : RecvResult)
  | cleanup
  deriving DecidableEq, Repr

namespace Lifetime

/-- The thread has been started. -/
def start (h : Holdings) (tls : Bool) : Lifetime :=
  ⟨h, tls, ⟨[], false⟩, .created, true, destructor tls, false⟩

/-- Joining the thread, after the statement has been reached. -/
def join (x : Lifetime) (rest : List Cleanup) : Option Lifetime :=
  if x.thread = .ended .returned then some { x with joinable := false, todo := rest } else none

/-- The program has been ended. -/
def Dead (x : Lifetime) : Prop :=
  x.aborted = true ∨ ∃ o, x.thread = .ended o ∧ o.Fatal

instance (x : Lifetime) : Decidable x.Dead := by
  unfold Dead
  cases h : x.thread with
  | ended o => exact decidable_of_iff (x.aborted = true ∨ o.Fatal) (by simp)
  | _ => exact decidable_of_iff (x.aborted = true) (by simp)

/-- One step. -/
def step (x : Lifetime) : LifetimeEvent → Option Lifetime
  | .enter =>
    if x.thread = .created ∧ ¬ x.Dead then
      some { x with thread := .inside, receiver := { x.receiver with stopped := false } }
    else none
  | .round result =>
    if x.thread = .inside ∧ ¬ x.Dead then
      some (match (x.receiver.round result).2 with
        | .running s => { x with receiver := s }
        | o => { x with thread := .ended o })
    else none
  | .cleanup =>
    if x.Dead then none
    else match x.todo with
      | [] => none
      | .stop :: rest =>
        some { x with receiver := { x.receiver with stopped := true }, todo := rest }
      | .join :: rest => if x.joinable then x.join rest else some { x with aborted := true }
      | .joinIfJoinable :: rest => if x.joinable then x.join rest else some { x with todo := rest }
      | c :: rest => some { x with holdings := x.holdings.cleanup c, todo := rest }

end Lifetime

/-! ## Steps -/

section Steps

variable {x x' : Lifetime} {e : LifetimeEvent} {es : List LifetimeEvent} {h : Holdings}

/-- The steps of the thread: they concern the thread and its data only. -/
lemma thread_step_cases (hstep : x.step e = some x') (he : e ≠ .cleanup) :
    (x.thread = .created ∨ x.thread = .inside) ∧
      ∃ receiver thread, x' = { x with receiver := receiver, thread := thread } := by
  cases e with
  | cleanup => exact absurd rfl he
  | enter =>
    rw [Lifetime.step] at hstep
    split at hstep
    · next hcreated => exact ⟨Or.inl hcreated.1, _, _, (Option.some.inj hstep).symm⟩
    · cases hstep
  | round result =>
    rw [Lifetime.step] at hstep
    split at hstep
    · next hinside =>
      refine ⟨Or.inr hinside.1, ?_⟩
      rw [← Option.some.inj hstep]
      split
      · exact ⟨_, _, rfl⟩
      · exact ⟨_, _, rfl⟩
    · cases hstep

/-- A statement of the destructors: joining throws, or it is carried out. The thread is joined if it
is joinable, after it has returned. -/
lemma cleanup_step_cases (hstep : x.step .cleanup = some x') : ∃ c rest, x.todo = c :: rest ∧
    ((c = .join ∧ x.joinable = false ∧ x'.thread = x.thread) ∨
      (x'.todo = rest ∧ x'.holdings = x.holdings.cleanup c ∧ x'.thread = x.thread ∧
        x'.tls = x.tls ∧ x'.aborted = x.aborted ∧
          ((x'.joinable = x.joinable ∧ (x.joinable = true → c ≠ .join ∧ c ≠ .joinIfJoinable)) ∨
            (x.joinable = true ∧ x.thread = .ended .returned ∧ x'.joinable = false ∧
              (c = .join ∨ c = .joinIfJoinable))))) := by
  have hjoin {rest : List Cleanup} (h : x.join rest = some x') :
      x.thread = .ended .returned ∧ x' = { x with joinable := false, todo := rest } := by
    rw [Lifetime.join] at h
    split at h
    · next hthread => exact ⟨hthread, (Option.some.inj h).symm⟩
    · cases h
  rw [Lifetime.step] at hstep
  split at hstep
  · cases hstep
  split at hstep
  · cases hstep
  · next rest htodo =>
    rw [← Option.some.inj hstep]
    exact ⟨.stop, rest, htodo, Or.inr ⟨rfl, rfl, rfl, rfl, rfl, Or.inl ⟨rfl, fun _ => by simp⟩⟩⟩
  · next rest htodo =>
    by_cases hjoinable : x.joinable = true
    · rw [if_pos hjoinable] at hstep
      obtain ⟨hthread, rfl⟩ := hjoin hstep
      exact ⟨.join, rest, htodo, Or.inr ⟨rfl, rfl, rfl, rfl, rfl,
        Or.inr ⟨hjoinable, hthread, rfl, Or.inl rfl⟩⟩⟩
    · rw [if_neg hjoinable] at hstep
      rw [← Option.some.inj hstep]
      exact ⟨.join, rest, htodo, Or.inl ⟨rfl, Bool.eq_false_iff.mpr hjoinable, rfl⟩⟩
  · next rest htodo =>
    by_cases hjoinable : x.joinable = true
    · rw [if_pos hjoinable] at hstep
      obtain ⟨hthread, rfl⟩ := hjoin hstep
      exact ⟨.joinIfJoinable, rest, htodo, Or.inr ⟨rfl, rfl, rfl, rfl, rfl,
        Or.inr ⟨hjoinable, hthread, rfl, Or.inr rfl⟩⟩⟩
    · rw [if_neg hjoinable] at hstep
      rw [← Option.some.inj hstep]
      exact ⟨.joinIfJoinable, rest, htodo, Or.inr ⟨rfl, rfl, rfl, rfl, rfl,
        Or.inl ⟨rfl, fun h => absurd h hjoinable⟩⟩⟩
  · next c rest hstop hjoin hif htodo =>
    rw [← Option.some.inj hstep]
    exact ⟨c, rest, htodo, Or.inr ⟨rfl, rfl, rfl, rfl, rfl, Or.inl ⟨rfl, fun _ =>
      ⟨hjoin, hif⟩⟩⟩⟩

/-! ## Order -/

/-- The destructors stop the thread before they join it, and do so before everything else. -/
lemma destructor_split {tls : Bool} {done rest : List Cleanup} {c : Cleanup}
    (hsplit : destructor tls = done ++ c :: rest) :
    (done = [] → c = .stop) ∧ (done = [.stop] → c = .join ∨ c = .joinIfJoinable) ∧
      (c = .join → done = [.stop]) := by
  refine ⟨?_, ?_, ?_⟩
  · rintro rfl
    cases tls <;> exact (List.cons.inj hsplit).1.symm
  · rintro rfl
    cases tls
    · exact Or.inr (List.cons.inj (List.cons.inj hsplit).2).1.symm
    · exact Or.inl (List.cons.inj (List.cons.inj hsplit).2).1.symm
  · rintro rfl
    have hcount : (destructor tls).count .join ≤ 1 := by cases tls <;> decide
    cases tls with
    | false =>
      have hmem : Cleanup.join ∈ destructor false := by simp [hsplit]
      exact absurd hmem (by decide)
    | true =>
      rw [hsplit, List.count_append, List.count_cons_self] at hcount
      have hnone : Cleanup.join ∉ done := List.count_eq_zero.mp (by omega)
      have hidx : (destructor true).idxOf .join = done.length := by
        rw [hsplit, List.idxOf_append_of_notMem hnone, List.idxOf_cons_self, Nat.add_zero]
      have hlen : done.length = 1 := hidx.symm.trans (by decide)
      obtain ⟨c, rfl⟩ := List.length_eq_one_iff.mp hlen
      exact congrArg (fun c => [c]) (List.cons.inj hsplit).1.symm

/-- The destructors have been carried out up to a statement, and have come past the join only if the
thread has returned. -/
structure Orderly (h : Holdings) (tls : Bool) (done : List Cleanup) (x : Lifetime) : Prop where
  same : x.tls = tls
  aborted : x.aborted = false
  split : destructor tls = done ++ x.todo
  holdings : x.holdings = done.foldl Holdings.cleanup h
  early : x.joinable = true → done = [] ∨ done = [.stop]
  late : x.joinable = false → x.thread = .ended .returned ∧ 2 ≤ done.length

/-- Every step keeps the order. -/
lemma Orderly.step {tls : Bool} {done : List Cleanup} (hx : Orderly h tls done x)
    (hstep : x.step e = some x') : ∃ done', Orderly h tls done' x' := by
  by_cases he : e = .cleanup
  · subst he
    obtain ⟨c, rest, htodo,
      ⟨hc, hjoinable, -⟩ | ⟨hrest, hholdings, hthread, htls, haborted, hjoin⟩⟩ :=
        cleanup_step_cases hstep
    · have hsplit := hx.split
      rw [htodo] at hsplit
      have hlen := (hx.late hjoinable).2
      rw [(destructor_split hsplit).2.2 hc] at hlen
      exact absurd hlen (by decide)
    · have hsplit := hx.split
      rw [htodo] at hsplit
      obtain ⟨hfirst, hsecond, -⟩ := destructor_split hsplit
      refine ⟨done ++ [c], htls.trans hx.same, haborted.trans hx.aborted, ?_, ?_, ?_, ?_⟩
      · rw [hsplit, hrest, List.append_assoc]
        rfl
      · rw [hholdings, hx.holdings, List.foldl_append]
        rfl
      · intro hjoinable
        rcases hjoin with ⟨hsame, hnot⟩ | ⟨-, -, hjoined, -⟩
        · rw [hsame] at hjoinable
          rcases hx.early hjoinable with hdone | hdone
          · rw [hdone, hfirst hdone]
            exact Or.inr rfl
          · rcases hsecond hdone with hc | hc
            · exact absurd hc (hnot hjoinable).1
            · exact absurd hc (hnot hjoinable).2
        · rw [hjoined] at hjoinable
          cases hjoinable
      · intro hjoinable
        rw [List.length_append, List.length_singleton, hthread]
        rcases hjoin with ⟨hsame, -⟩ | ⟨hbefore, hreturned, -, hc⟩
        · rw [hsame] at hjoinable
          obtain ⟨hreturned, hlen⟩ := hx.late hjoinable
          exact ⟨hreturned, by omega⟩
        · refine ⟨hreturned, ?_⟩
          rcases hx.early hbefore with hdone | hdone
          · rw [hfirst hdone] at hc
            rcases hc with hc | hc <;> cases hc
          · rw [hdone]
            decide
  · obtain ⟨hthread, receiver, thread, rfl⟩ := thread_step_cases hstep he
    refine ⟨done, hx.same, hx.aborted, hx.split, hx.holdings, hx.early, fun hjoinable => ?_⟩
    have hreturned := (hx.late hjoinable).1
    rw [hreturned] at hthread
    rcases hthread with hthread | hthread <;> cases hthread

/-- The order is kept in every run. -/
lemma orderly_of_run {tls : Bool} (hrun : run Lifetime.step (.start h tls) es = some x) :
    ∃ done, Orderly h tls done x := by
  refine invariant (I := fun x => ∃ done, Orderly h tls done x) (C := fun _ _ => True) ?_ ?_
    (fun _ _ _ _ _ _ => trivial) hrun
  · rintro y e y' ⟨done, hy⟩ - hstep
    exact hy.step hstep
  · refine ⟨[], rfl, rfl, rfl, rfl, fun _ => Or.inl rfl, fun hjoinable => ?_⟩
    cases hjoinable

end Steps

/-! ## What is held -/

section Held

variable {h : Holdings} {tls : Bool} {done : List Cleanup} {x : Lifetime}

/-- After the last statement, the thread has returned and has been joined. -/
lemma Orderly.over (hx : Orderly h tls done x) (htodo : x.todo = []) :
    x.thread = .ended .returned ∧
      x.holdings = (destructor tls).foldl Holdings.cleanup h := by
  have hsplit := hx.split
  rw [htodo, List.append_nil] at hsplit
  have hjoinable : x.joinable = false := by
    by_contra hnot
    have hlen : (destructor tls).length ≤ 1 := by
      rcases hx.early (Bool.eq_true_of_not_eq_false hnot) with hdone | hdone <;>
        rw [hsplit, hdone] <;> decide
    cases tls <;> exact absurd hlen (by decide)
  exact ⟨(hx.late hjoinable).1, by rw [hx.holdings, hsplit]⟩

end Held

/-! ## Constructors that succeed -/

section Construct

variable {α β : Type} {p : Connecting α} {f : α → Connecting β} {s s' : Sockets} {b : β}
  {a : Attempt} {as : List Attempt} {tls : Option TLSResult} {h : Holdings}

/-- A sequence that returns has returned in both of its parts. -/
lemma exists_of_run_bind (h : (p >>= f).run s = (.ok b, s')) :
    ∃ a s₁, p.run s = (.ok a, s₁) ∧ (f a).run s₁ = (.ok b, s') := by
  rcases hp : p.run s with ⟨result, s₁⟩
  cases result with
  | error ex =>
    rw [run_bind_error hp] at h
    cases h
  | ok a => exact ⟨a, s₁, rfl, (run_bind_ok hp).symm.trans h⟩

/-- A test leaves the sockets alone. -/
lemma check_ok {what : String} {result : SystemCall} {u : Unit}
    (h : (check what result).run s = (.ok u, s')) : s' = s := by
  cases result with
  | ok _ => exact (congrArg Prod.snd h).symm
  | error text => cases congrArg Prod.fst h

/-- An address that is connected to has a socket of its own. -/
lemma connectAddress_ok (h : (connectAddress a).run s = (.ok (), s')) : s' = s.make := by
  rw [connectAddress] at h
  obtain ⟨_, s₁, hmake, h⟩ := exists_of_run_bind h
  obtain ⟨_, s₂, h₂, h⟩ := exists_of_run_bind h
  obtain ⟨_, s₃, h₃, h⟩ := exists_of_run_bind h
  obtain ⟨_, s₄, h₄, h⟩ := exists_of_run_bind h
  obtain ⟨_, s₅, h₅, h⟩ := exists_of_run_bind h
  have hmade : s₁ = s.make := by
    cases hsocket : a.socket with
    | ok u =>
      rw [hsocket] at hmake
      exact (congrArg Prod.snd hmake).symm
    | error text =>
      rw [hsocket] at hmake
      cases congrArg Prod.fst hmake
  have hconnect : s₄ = s₃ := by
    rcases connectSocket_cases a.connect s₃ with ⟨-, hrun⟩ | ⟨-, -, ex, hrun⟩ | ⟨-, -, ex, hrun⟩
    · exact (congrArg Prod.snd (hrun.symm.trans h₄)).symm
    · cases congrArg Prod.fst (hrun.symm.trans h₄)
    · cases congrArg Prod.fst (hrun.symm.trans h₄)
  rw [check_ok h, check_ok h₅, hconnect, check_ok h₃, check_ok h₂, hmade]

end Construct

end Imapcl
