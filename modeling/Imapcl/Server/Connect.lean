import Mathlib.Control.Monad.Basic
import Imapcl.Response.Basic

set_option relaxedAutoImplicit false
set_option autoImplicit false

/-!
# Connecting to the server

`server.cpp`: the addresses of a host are tried one after the other. A failure of one address ends
the loop by an exception, and a success does not end it, so that the loop returns only if every
address is connected to.

## Main definitions

* `Imapcl.ConnectResult`, `Imapcl.Attempt` — what the system calls report for an address.
* `Imapcl.connectWithTimeout` — `Server::connect_with_timeout`, with the sockets that are open.
* `Imapcl.TriesEveryAddress` — the connection is made to the first address that can be connected to.

## Main results

* `Imapcl.connectAddress_cases` — what is done about one address.
* `Imapcl.tries_every_address_iff` — the addresses with which the connection is made so.
-/

namespace Imapcl

/-! ## System calls -/

/-- A system call: it succeeds, or fails with the text of `strerror(errno)`. -/
abbrev SystemCall := Except Bytes Unit

/-- What `select` reports, and what `getsockopt` does after it has reported that the socket can be
written to: `valopt` is the pending error, or zero, and `stale` is the text of `errno` then. -/
inductive SelectResult where
  | failed (strerror : Bytes)
  | interrupted
  | timedOut
  | unreadable (strerror : Bytes)
  | ready (valopt : Int) (stale : Bytes)
  deriving DecidableEq, Repr

/-- What `connect` reports on a socket that does not block. -/
inductive ConnectResult where
  | connected
  | inProgress (result : SelectResult)
  | refused (strerror : Bytes)
  deriving DecidableEq, Repr

/-- What the system calls report for one address, in the order in which they are made. -/
structure Attempt where
  socket : SystemCall
  getFlags : SystemCall
  setNonBlocking : SystemCall
  connect : ConnectResult
  getFlagsAgain : SystemCall
  setBlocking : SystemCall

/-- The sockets are numbered in the order in which they are made; `clientSocket` is the variable,
and `opened` are the sockets that have not been closed. -/
structure Sockets where
  created : ℕ
  clientSocket : Option ℕ
  opened : List ℕ
  deriving DecidableEq, Repr

/-- A socket is made. -/
def Sockets.make (s : Sockets) : Sockets :=
  ⟨s.created + 1, some s.created, s.opened ++ [s.created]⟩

/-- No socket is in `clientSocket`: it has been assigned -1. -/
def Sockets.unset (s : Sockets) : Sockets := { s with clientSocket := none }

/-- The socket in `clientSocket` is closed. -/
def Sockets.close (s : Sockets) : Sockets :=
  { s with opened := s.opened.filter fun i => some i ≠ s.clientSocket }

/-- A part of `connect_with_timeout`: an exception leaves the sockets as they are. -/
abbrev Connecting := ExceptT StdException (StateM Sockets)

/-- Throw what has been reported, behind `what`. -/
def check (what : String) : SystemCall → Connecting Unit
  | .ok _ => pure ()
  | .error strerror => throw (.runtimeError (ascii what ++ strerror))

/-- `client_socket = socket(...)`. The result is assigned before it is compared with -1. -/
def makeSocket : SystemCall → Connecting Unit
  | .ok _ => modify Sockets.make
  | .error strerror => do
    modify Sockets.unset
    throw (.runtimeError strerror)

/-- `close(client_socket)`. -/
def closeSocket : Connecting Unit := modify Sockets.close

/-! ## The loop -/

/-- The loop around `select`. Every branch leaves it, also the one of an interrupted call. -/
def awaitConnection : SelectResult → Connecting Unit
  | .failed strerror =>
    throw (.runtimeError (ascii "Error connecting socket -- " ++ strerror))
  | .unreadable strerror =>
    throw (.runtimeError (ascii "Error in getsockopt() -- " ++ strerror))
  | .ready valopt stale =>
    if valopt ≠ 0 then throw (.runtimeError (ascii "Error in delayed connection -- " ++ stale))
    else pure ()
  | .interrupted => throw (.runtimeError (ascii "Timed out waiting for response."))
  | .timedOut => throw (.runtimeError (ascii "Timed out waiting for response."))

/-- The call of `connect`. -/
def connectSocket : ConnectResult → Connecting Unit
  | .connected => pure ()
  | .inProgress result => awaitConnection result
  | .refused strerror => do
    closeSocket
    throw (.runtimeError (ascii "Error connecting -- " ++ strerror))

/-- The body of the loop over the addresses. -/
def connectAddress (a : Attempt) : Connecting Unit := do
  makeSocket a.socket
  check "fcntl(..., F_GETFL) -- " a.getFlags
  check "fcntl(..., F_SETFL) -- " a.setNonBlocking
  connectSocket a.connect
  check "fcntl(..., F_GETFL) -- " a.getFlagsAgain
  check "fcntl(..., F_SETFL) -- " a.setBlocking

/-- The loop over the addresses. -/
def connectLoop : List Attempt → Connecting Unit
  | [] => pure ()
  | a :: as => do
    connectAddress a
    connectLoop as

/-- `Server::connect_with_timeout`, where `addresses` is what `getaddrinfo` returns, or the text of
its error. The options set at the end are left out. -/
def connectWithTimeout (addresses : Except Bytes (List Attempt)) :
    Except StdException Unit × Sockets :=
  match addresses with
  | .error text => (.error (.runtimeError text), ⟨0, none, []⟩)
  | .ok as => (connectLoop as).run ⟨0, none, []⟩

/-! ## Addresses -/

/-- A connection to the address can be made, at once or within the time. -/
def ConnectResult.Connectable : ConnectResult → Prop
  | .connected => True
  | .inProgress (.ready valopt _) => valopt = 0
  | _ => False

instance : DecidablePred ConnectResult.Connectable
  | .connected => isTrue trivial
  | .inProgress (.ready valopt _) => inferInstanceAs (Decidable (valopt = 0))
  | .inProgress (.failed _) | .inProgress .interrupted | .inProgress .timedOut
  | .inProgress (.unreadable _) | .refused _ => isFalse id

/-- The connection is refused at once. -/
def ConnectResult.Refused : ConnectResult → Prop
  | .refused _ => True
  | _ => False

/-- Sockets can be made and their flags can be changed. -/
structure Attempt.Plain (a : Attempt) : Prop where
  socket : a.socket = .ok ()
  getFlags : a.getFlags = .ok ()
  setNonBlocking : a.setNonBlocking = .ok ()
  getFlagsAgain : a.getFlagsAgain = .ok ()
  setBlocking : a.setBlocking = .ok ()

/-- The address at position `i` is the first one that can be connected to. -/
def FirstConnectable (as : List Attempt) (i : ℕ) : Prop :=
  ∃ pre a post, as = pre ++ a :: post ∧ pre.length = i ∧ a.connect.Connectable ∧
    ∀ b ∈ pre, ¬ b.connect.Connectable

/-- The connection is made if there is an address that can be connected to, and to the first such
address. No other socket is left open. -/
structure TriesEveryAddress (as : List Attempt) : Prop where
  ok_iff : (connectWithTimeout (.ok as)).1 = .ok () ↔ ∃ a ∈ as, a.connect.Connectable
  first : (connectWithTimeout (.ok as)).1 = .ok () → ∃ i, FirstConnectable as i ∧
    (connectWithTimeout (.ok as)).2.clientSocket = some i ∧
      (connectWithTimeout (.ok as)).2.opened = [i]
  closed : ∀ ex, (connectWithTimeout (.ok as)).1 = .error ex →
    (connectWithTimeout (.ok as)).2.opened = []

/-! ## One address -/

section Running

variable {α β : Type} {p : Connecting α} {f : α → Connecting β} {s s' : Sockets} {a : α}
  {ex : StdException}

/-- A sequence whose first part returns continues from there. -/
lemma run_bind_ok (h : p.run s = (.ok a, s')) : (p >>= f).run s = (f a).run s' := by
  rw [ExceptT.run_bind]
  simp only [bind, StateT.bind, h]

/-- A sequence whose first part throws ends there. -/
lemma run_bind_error (h : p.run s = (.error ex, s')) : (p >>= f).run s = (.error ex, s') := by
  rw [ExceptT.run_bind]
  simp only [bind, StateT.bind, h]
  rfl

end Running

/-- What the call of `connect` does: it returns, or throws, and closes the socket only where the
connection is refused at once. -/
lemma connectSocket_cases (r : ConnectResult) (s : Sockets) :
    (r.Connectable ∧ (connectSocket r).run s = (.ok (), s)) ∨
      (¬ r.Connectable ∧ r.Refused ∧ ∃ ex, (connectSocket r).run s = (.error ex, s.close)) ∨
      (¬ r.Connectable ∧ ¬ r.Refused ∧ ∃ ex, (connectSocket r).run s = (.error ex, s)) := by
  cases r with
  | connected => exact Or.inl ⟨trivial, rfl⟩
  | refused strerror => exact Or.inr (Or.inl ⟨id, trivial, _, rfl⟩)
  | inProgress result =>
    cases result with
    | ready valopt stale =>
      rw [connectSocket, awaitConnection]
      by_cases h : valopt = 0
      · rw [if_neg (not_not_intro h)]
        exact Or.inl ⟨h, rfl⟩
      · rw [if_pos h]
        exact Or.inr (Or.inr ⟨h, id, _, rfl⟩)
    | _ => exact Or.inr (Or.inr ⟨id, id, _, rfl⟩)

/-- What is done about one address, where the other system calls succeed. -/
lemma connectAddress_cases {a : Attempt} (ha : a.Plain) (s : Sockets) :
    (a.connect.Connectable ∧ (connectAddress a).run s = (.ok (), s.make)) ∨
      (¬ a.connect.Connectable ∧ a.connect.Refused ∧
        ∃ ex, (connectAddress a).run s = (.error ex, s.make.close)) ∨
      (¬ a.connect.Connectable ∧ ¬ a.connect.Refused ∧
        ∃ ex, (connectAddress a).run s = (.error ex, s.make)) := by
  have hcheck : ∀ what (s : Sockets), (check what (.ok ())).run s = (.ok (), s) := fun _ _ => rfl
  have hmake : (makeSocket (.ok ())).run s = (.ok (), s.make) := rfl
  rw [connectAddress, ha.socket, ha.getFlags, ha.setNonBlocking, ha.getFlagsAgain, ha.setBlocking,
    run_bind_ok hmake, run_bind_ok (hcheck _ _), run_bind_ok (hcheck _ _)]
  rcases connectSocket_cases a.connect s.make with ⟨hr, hrun⟩ | ⟨hr, hrefused, ex, hrun⟩ |
    ⟨hr, hrefused, ex, hrun⟩
  · rw [run_bind_ok hrun, run_bind_ok (hcheck _ _)]
    exact Or.inl ⟨hr, hcheck _ _⟩
  · exact Or.inr (Or.inl ⟨hr, hrefused, ex, run_bind_error hrun⟩)
  · exact Or.inr (Or.inr ⟨hr, hrefused, ex, run_bind_error hrun⟩)

/-! ## All addresses -/

/-- The loop returns only if every address is connected to, and then a socket is open for each.

**Proof sketch.** Induction on the addresses. -/
lemma connectLoop_ok {as : List Attempt} {s s' : Sockets} (has : ∀ a ∈ as, a.Plain)
    (h : (connectLoop as).run s = (.ok (), s')) :
    s'.opened.length = s.opened.length + as.length := by
  induction as generalizing s with
  | nil =>
    obtain rfl : s = s' := congrArg Prod.snd h
    rfl
  | cons a as ih =>
    rw [List.forall_mem_cons] at has
    rw [connectLoop] at h
    rcases connectAddress_cases has.1 s with ⟨-, hrun⟩ | ⟨-, -, ex, hrun⟩ | ⟨-, -, ex, hrun⟩
    · rw [run_bind_ok hrun] at h
      rw [ih has.2 h, Sockets.make, List.length_append, List.length_singleton, List.length_cons]
      omega
    · rw [run_bind_error hrun] at h
      cases congrArg Prod.fst h
    · rw [run_bind_error hrun] at h
      cases congrArg Prod.fst h

section Outcomes

variable {as : List Attempt} {s : Sockets} {ex : StdException}

/-- A connection is as it should be if it is the first that can be made, on the only socket. -/
lemma tries_of_ok (h : connectWithTimeout (.ok as) = (.ok (), s)) : TriesEveryAddress as ↔
    ∃ i, FirstConnectable as i ∧ s.clientSocket = some i ∧ s.opened = [i] := by
  constructor
  · intro htries
    have hfirst := htries.first (congrArg Prod.fst h)
    rwa [h] at hfirst
  · intro hfirst
    refine ⟨?_, fun _ => by rwa [h], fun ex hex => ?_⟩
    · obtain ⟨i, ⟨pre, a, post, rfl, -, ha, -⟩, -⟩ := hfirst
      rw [h]
      exact iff_of_true rfl ⟨a, by simp, ha⟩
    · rw [h] at hex
      cases hex

/-- A failure is as it should be if no connection can be made and no socket is left. -/
lemma tries_of_error (h : connectWithTimeout (.ok as) = (.error ex, s)) : TriesEveryAddress as ↔
    (∀ a ∈ as, ¬ a.connect.Connectable) ∧ s.opened = [] := by
  constructor
  · intro htries
    have hclosed := htries.closed ex (congrArg Prod.fst h)
    have hok := htries.ok_iff
    rw [h] at hclosed hok
    refine ⟨fun a ha hconnectable => ?_, hclosed⟩
    cases hok.mpr ⟨a, ha, hconnectable⟩
  · rintro ⟨hnone, hopened⟩
    refine ⟨?_, fun hok => ?_, fun _ _ => by rwa [h]⟩
    · rw [h]
      exact iff_of_false (fun hok => by cases hok) fun ⟨a, ha, hconnectable⟩ =>
        hnone a ha hconnectable
    · rw [h] at hok
      cases hok

end Outcomes

/-- **Addresses.** For one or more addresses of a host, the connection is made to the first one that
can be connected to, with no other socket left open, if and only if there is one address and it can
be connected to, or no address can be and the first one refuses at once.

**Proof sketch.** After a first address that is connected to, the loop goes on: if it returns, there
is a socket for every address, and otherwise a connection that was made is given up. Any other first
address ends the loop, and only a refusal closes its socket. -/
theorem tries_every_address_iff (a : Attempt) (as : List Attempt)
    (hplain : ∀ b ∈ a :: as, b.Plain) : TriesEveryAddress (a :: as) ↔
      (as = [] ∧ a.connect.Connectable) ∨
        (a.connect.Refused ∧ ∀ b ∈ a :: as, ¬ b.connect.Connectable) := by
  have hrest := List.forall_mem_cons.mp hplain
  rcases connectAddress_cases hrest.1 ⟨0, none, []⟩ with ⟨ha, hrun⟩ | ⟨ha, hrefused, ex, hrun⟩ |
    ⟨ha, hrefused, ex, hrun⟩
  · have hloop : connectWithTimeout (.ok (a :: as)) =
        (connectLoop as).run ⟨1, some 0, [0]⟩ := run_bind_ok hrun
    have hnot : ¬ (a.connect.Refused ∧ ∀ b ∈ a :: as, ¬ b.connect.Connectable) :=
      fun h => h.2 a (by simp) ha
    rw [or_iff_left hnot, and_iff_left ha]
    cases as with
    | nil => exact iff_of_true ((tries_of_ok hloop).mpr ⟨0, ⟨[], a, [], rfl, rfl, ha, nofun⟩,
        rfl, rfl⟩) rfl
    | cons b bs =>
      refine iff_of_false (fun htries => ?_) nofun
      have hok := htries.ok_iff.mpr ⟨a, by simp, ha⟩
      obtain ⟨i, -, -, hopened⟩ := htries.first hok
      rw [hloop] at hok hopened
      have hlen := connectLoop_ok hrest.2 (Prod.ext hok rfl)
      rw [hopened] at hlen
      simp at hlen
  · have hloop : connectWithTimeout (.ok (a :: as)) = (.error ex, ⟨1, some 0, []⟩) :=
      run_bind_error hrun
    rw [tries_of_error hloop, and_iff_left rfl, or_iff_right fun h => ha h.2,
      and_iff_right hrefused]
  · have hloop : connectWithTimeout (.ok (a :: as)) = (.error ex, ⟨1, some 0, [0]⟩) :=
      run_bind_error hrun
    rw [tries_of_error hloop]
    refine iff_of_false (fun h => ?_) ?_
    · cases h.2
    · rintro (h | h)
      · exact ha h.2
      · exact hrefused h.1

/-- An address whose other system calls succeed. -/
def plainAttempt (r : ConnectResult) : Attempt := ⟨.ok (), .ok (), .ok (), r, .ok (), .ok ()⟩

/-- The other system calls of such an address. -/
lemma plainAttempt_plain (r : ConnectResult) : (plainAttempt r).Plain := ⟨rfl, rfl, rfl, rfl, rfl⟩

/-- The connection is made as it should be to a host with one address, which is connected to within
the time, and given up as it should be for one with two addresses that refuse at once. It is not for
a host with an address that refuses and another one that can be connected to. -/
theorem tries_every_address_iff_one :
    TriesEveryAddress [plainAttempt (.inProgress (.ready 0 []))] ∧
      TriesEveryAddress [plainAttempt (.refused []), plainAttempt (.refused [])] ∧
        ¬ TriesEveryAddress [plainAttempt (.refused []), plainAttempt .connected] := by
  have hplain (rs : List ConnectResult) : ∀ b ∈ rs.map plainAttempt, b.Plain := by
    intro b hb
    obtain ⟨r, -, rfl⟩ := List.mem_map.mp hb
    exact plainAttempt_plain r
  refine ⟨?_, ?_, fun htries => ?_⟩
  · exact (tries_every_address_iff _ [] (hplain [.inProgress (.ready 0 [])])).mpr
      (Or.inl ⟨rfl, rfl⟩)
  · refine (tries_every_address_iff _ _ (hplain [.refused [], .refused []])).mpr
      (Or.inr ⟨trivial, fun b hb => ?_⟩)
    have hb : b = plainAttempt (.refused []) := by simpa using hb
    rw [hb]
    exact id
  · rcases (tries_every_address_iff _ _ (hplain [.refused [], .connected])).mp htries with
      ⟨hnil, -⟩ | ⟨-, hnone⟩
    · cases hnil
    · exact hnone (plainAttempt .connected) (by simp) trivial

/-- A host with two addresses that can be connected to: both are, and the first connection is lost
with its socket left open. -/
theorem not_tries_every_address :
    ¬ TriesEveryAddress [plainAttempt .connected, plainAttempt .connected] := by
  intro htries
  obtain ⟨i, -, -, hopened⟩ := htries.first rfl
  cases hopened

end Imapcl
