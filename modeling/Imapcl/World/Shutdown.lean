import Imapcl.World.Lifetime

set_option relaxedAutoImplicit false
set_option autoImplicit false

/-!
# The end of a server

Whether the destructors of a server come to their end, and what they leave behind. `stop` sets a
flag that the receiving thread resets when its function begins, so that a `stop` before this is
lost. An exception of the constructor leaves behind what only the destructor would give back.

## Main definitions

* `Imapcl.Awaited` — the invariant of the destructors before the join.
* `Imapcl.LeavesBehind` — what a server leaves behind at its end.

## Main results

* `Imapcl.shutdown_returns_iff` — when the destructors get past the join.
* `Imapcl.leaves_nothing_iff` — when nothing is left behind.
-/

namespace Imapcl

open Machine

/-! ## The join -/

section Join

variable {todo : List Cleanup} {flag tls : Bool} {x x' : Lifetime} {e : LifetimeEvent}
  {es : List LifetimeEvent} {h : Holdings}

/-- The loop keeps the buffer between two rounds: it is not complete, and not too long. -/
def Quiet (data : Bytes) : Prop := ¬ bufferComplete data ∧ data.length ≠ recvMessageMaxlen

/-- The buffer is empty at first. -/
lemma quiet_nil : Quiet [] := ⟨by decide, by decide⟩

/-- The connection stays open: `recv` neither reports its end nor fails. -/
def LifetimeEvent.Open (e : LifetimeEvent) : Prop := e ≠ .round .closed ∧ e ≠ .round .failed

/-- The destructors have come to `todo`, at most, while the thread has not returned; the flag is
`flag` when the thread looks at it, and the thread returns only if it is set. -/
structure Awaited (todo : List Cleanup) (flag : Bool) (x : Lifetime) : Prop where
  waits : x.thread ≠ .ended .returned → x.joinable = true ∧ x.todo = todo
  created : x.thread = .created → flag = false
  inside : x.thread = .inside → x.receiver.stopped = flag
  returned : x.thread = .ended .returned → flag = true
  quiet : x.thread = .created ∨ x.thread = .inside → Quiet x.receiver.receivedData

/-- The thread ends. -/
lemma Awaited.ended {o : Outcome} (hx : x.joinable = true ∧ x.todo = todo)
    (ho : o = .returned → flag = true) : Awaited todo flag { x with thread := .ended o } where
  waits _ := hx
  created h := by cases h
  inside h := by cases h
  returned h := by
    cases h
    exact ho rfl
  quiet h := by rcases h with h | h <;> cases h

/-- A round on an open connection. -/
lemma Awaited.append (hx : Awaited todo flag x) (hthread : x.thread = .inside) (c : Bytes) :
    Awaited todo flag (match (x.receiver.append c).2 with
      | .running s => { x with receiver := s }
      | o => { x with thread := .ended o }) := by
  have hwaits := hx.waits (by rw [hthread]; decide)
  have hflag := hx.inside hthread
  have hends := append_ends x.receiver c
  generalize (x.receiver.append c).2 = o at hends
  cases hends with
  | parsed hc hp =>
    refine ⟨fun _ => hwaits, fun h => ?_, fun _ => hflag, fun h => ?_, fun _ => ?_⟩
    · cases hthread.symm.trans h
    · cases hthread.symm.trans h
    · exact quiet_nil
  | broken hc hp f => exact .ended hwaits fun h => by cases h
  | overlong ho ex => exact .ended hwaits fun h => by cases h
  | left hc ho hs => exact .ended hwaits fun _ => hflag.symm.trans hs
  | kept hc ho =>
    refine ⟨fun _ => hwaits, fun h => ?_, fun _ => hflag, fun h => ?_, fun _ => ?_⟩
    · cases hthread.symm.trans h
    · cases hthread.symm.trans h
    · exact ⟨hc, fun hlen => ho ⟨hc, hlen⟩⟩

/-- A step of the thread on an open connection. -/
lemma Awaited.thread_step (hx : Awaited todo flag x) (hstep : x.step e = some x')
    (he : e ≠ .cleanup) (hopen : e.Open) : Awaited todo flag x' := by
  cases e with
  | cleanup => exact absurd rfl he
  | enter =>
    rw [Lifetime.step] at hstep
    split at hstep
    · next hcreated =>
      rw [← Option.some.inj hstep]
      have hwaits := hx.waits (by rw [hcreated.1]; decide)
      refine ⟨fun _ => hwaits, fun h => ?_, fun _ => (hx.created hcreated.1).symm, fun h => ?_,
        fun _ => hx.quiet (Or.inl hcreated.1)⟩
      · cases h
      · cases h
    · cases hstep
  | round result =>
    rw [Lifetime.step] at hstep
    split at hstep
    · next hinside =>
      rw [← Option.some.inj hstep]
      cases result with
      | bytes w => exact hx.append hinside.1 w
      | timedOut => exact hx.append hinside.1 []
      | closed => exact absurd rfl hopen.1
      | failed => exact absurd rfl hopen.2
    · cases hstep

/-- The destructors get past the join only after the thread has returned. -/
lemma Awaited.returned_of_cleanup (hx : Awaited (destructor tls).tail flag x)
    (hstep : x.step .cleanup = some x') : x.thread = .ended .returned := by
  obtain ⟨c, rest, htail, hc⟩ :
      ∃ c rest, (destructor tls).tail = c :: rest ∧ (c = .join ∨ c = .joinIfJoinable) := by
    cases tls
    · exact ⟨_, _, rfl, Or.inr rfl⟩
    · exact ⟨_, _, rfl, Or.inl rfl⟩
  obtain ⟨c', rest', htodo, hcases⟩ := cleanup_step_cases hstep
  by_contra hnot
  obtain ⟨hjoinable, heq⟩ := hx.waits hnot
  rw [htodo, htail] at heq
  obtain rfl : c' = c := (List.cons.inj heq).1
  rcases hcases with ⟨-, hfalse, -⟩ | ⟨-, -, -, -, -, ⟨-, hne⟩ | ⟨-, hreturned, -⟩⟩
  · rw [hjoinable] at hfalse
    cases hfalse
  · rcases hc with hc | hc
    · exact (hne hjoinable).1 hc
    · exact (hne hjoinable).2 hc
  · exact hnot hreturned

/-- Before the join, the destructors wait for the thread. -/
lemma Awaited.step (hx : Awaited (destructor tls).tail flag x) (hstep : x.step e = some x')
    (hopen : e.Open) : Awaited (destructor tls).tail flag x' := by
  by_cases he : e = .cleanup
  · subst he
    have hreturned := hx.returned_of_cleanup hstep
    have hthread : x'.thread = .ended .returned := by
      obtain ⟨c, rest, -, ⟨-, -, hsame⟩ | ⟨-, -, hsame, -⟩⟩ := cleanup_step_cases hstep
      · exact hsame.trans hreturned
      · exact hsame.trans hreturned
    refine ⟨fun h => absurd hthread h, fun h => ?_, fun h => ?_, fun _ => hx.returned hreturned,
      fun h => ?_⟩
    · cases hthread.symm.trans h
    · cases hthread.symm.trans h
    · rcases h with h | h <;> cases hthread.symm.trans h
  · exact hx.thread_step hstep he hopen

/-- If the flag is set, the thread returns when `recv` times out, and can be joined. -/
lemma Awaited.timedOut (hx : Awaited (destructor tls).tail true x)
    (hstep : x.step (.round .timedOut) = some x') : ∃ x'', x'.step .cleanup = some x'' := by
  rw [Lifetime.step] at hstep
  split at hstep
  · next hinside =>
    obtain ⟨hthread, hdead⟩ := hinside
    obtain ⟨hjoinable, htodo⟩ := hx.waits (by rw [hthread]; decide)
    obtain ⟨hcomplete, hlen⟩ := hx.quiet (Or.inr hthread)
    have hround : (x.receiver.round .timedOut).2 = .returned := by
      rw [Receiver.round, Receiver.append, List.append_nil, if_neg hcomplete, if_neg hlen,
        if_pos (hx.inside hthread)]
    rw [hround] at hstep
    rw [← Option.some.inj hstep]
    have halive : ¬ Lifetime.Dead { x with thread := .ended .returned } := by
      rintro (haborted | ⟨o, ho, hfatal⟩)
      · exact hdead (Or.inl haborted)
      · cases ho
        exact hfatal
    rw [Lifetime.step, if_neg halive]
    cases tls
    · simp only [htodo, destructor, serverDestructor, Bool.false_eq_true, if_false, List.tail_cons,
        hjoinable, if_true, Lifetime.join]
      exact ⟨_, rfl⟩
    · simp only [htodo, destructor, tlsServerDestructor, if_true, List.cons_append, List.tail_cons,
        hjoinable, Lifetime.join]
      exact ⟨_, rfl⟩
  · cases hstep

/-- The thread has begun if and only if it has been seen to begin. -/
lemma created_iff_of_run (hrun : run Lifetime.step (.start h tls) es = some x) :
    x.thread = .created ↔ .enter ∉ es := by
  refine history_invariant (I := fun es (x : Lifetime) => x.thread = .created ↔ .enter ∉ es)
    (C := fun _ _ => True) (by simp [Lifetime.start]) ?_ (fun _ _ _ _ _ _ => trivial) hrun
  intro es y e y' _ hy _ hstep
  cases e with
  | enter =>
    rw [Lifetime.step] at hstep
    split at hstep
    · rw [← Option.some.inj hstep]
      simp
    · cases hstep
  | round result =>
    rw [Lifetime.step] at hstep
    split at hstep
    · next hinside =>
      have hentered := hy.not.mp (by rw [hinside.1]; decide)
      rw [← Option.some.inj hstep]
      refine iff_of_false ?_ (by simpa using hentered)
      split
      · rw [hinside.1]
        decide
      · exact fun h => by cases h
    · cases hstep
  | cleanup =>
    obtain ⟨c, rest, -, hcases⟩ := cleanup_step_cases hstep
    have hthread : y'.thread = y.thread := by
      rcases hcases with ⟨-, -, hsame⟩ | ⟨-, -, hsame, -⟩
      · exact hsame
      · exact hsame
    rw [hthread, hy]
    simp

end Join

/-- **The join.** Let the destructors of a server begin, let the connection stay open, and let
`recv` time out at last in the thread. The destructors get past the join then if and only if the
function of the thread had begun before they did. Otherwise the flag has been reset after they had
set it, and they wait.

**Proof sketch.** The buffer between two rounds is neither complete nor too long, so that the round
of the timeout looks at the flag. After `stop` this is set for a thread in its loop, and stays so;
a thread that begins later resets it, and nothing sets it again. -/
theorem shutdown_returns_iff (h : Holdings) (tls : Bool) (es₁ es₂ : List LifetimeEvent)
    (x : Lifetime) (hrun : run Lifetime.step (.start h tls)
      (es₁ ++ .cleanup :: (es₂ ++ [.round .timedOut])) = some x)
    (hfirst : .cleanup ∉ es₁) (hopen : ∀ e ∈ es₁ ++ es₂, e.Open) :
    (∃ x', x.step .cleanup = some x') ↔ .enter ∈ es₁ := by
  obtain ⟨y, hrun₁, hrest⟩ := exists_of_run_append hrun
  obtain ⟨y', hstop, hrest⟩ := exists_of_run_cons hrest
  obtain ⟨z, hrun₂, hlast⟩ := exists_of_run_append hrest
  obtain ⟨x', hlast, hnil⟩ := exists_of_run_cons hlast
  cases hnil
  have hstart : Awaited (destructor tls) false (.start h tls) := by
    refine ⟨fun _ => ⟨rfl, rfl⟩, fun _ => rfl, fun h => ?_, fun h => ?_, fun _ => quiet_nil⟩
    · cases h
    · cases h
  have hy : Awaited (destructor tls) false y := by
    refine invariant (C := fun _ e => e ≠ .cleanup ∧ e.Open)
      (fun x e x' hx he hstep => hx.thread_step hstep he.1 he.2) hstart ?_ hrun₁
    rintro pre e post - rfl -
    have hmem : e ∈ pre ++ e :: post := List.mem_append_right _ List.mem_cons_self
    exact ⟨fun he => hfirst (he ▸ hmem), hopen e (List.mem_append_left _ hmem)⟩
  have hrunning : y.thread ≠ .ended .returned := fun hreturned => by cases hy.returned hreturned
  obtain ⟨hjoinable, htodo⟩ := hy.waits hrunning
  have hy' : y' = ⟨y.holdings, y.tls, ⟨y.receiver.receivedData, true⟩, y.thread, y.joinable,
      (destructor tls).tail, y.aborted⟩ := by
    have hcons : y.todo = .stop :: (destructor tls).tail := by
      rw [htodo]
      cases tls <;> rfl
    rw [Lifetime.step] at hstop
    split at hstop
    · cases hstop
    · rw [hcons] at hstop
      exact (Option.some.inj hstop).symm
  have hcreated := created_iff_of_run hrun₁
  have hstopped : Awaited (destructor tls).tail (decide (.enter ∈ es₁)) y' := by
    rw [hy']
    refine ⟨fun _ => ⟨hjoinable, rfl⟩, fun hthread => ?_, fun hthread => ?_,
      fun hthread => absurd hthread hrunning, hy.quiet⟩
    · exact decide_eq_false (hcreated.mp hthread)
    · have hentered : ¬ .enter ∉ es₁ := hcreated.not.mp fun hnot => by cases hnot.symm.trans hthread
      exact (decide_eq_true (not_not.mp hentered)).symm
  have hz : Awaited (destructor tls).tail (decide (.enter ∈ es₁)) z := by
    refine invariant (C := fun _ e => e.Open) (fun x e x' hx he hstep => hx.step hstep he)
      hstopped ?_ hrun₂
    rintro pre e post - rfl -
    exact hopen e (by simp)
  have hx := hz.step hlast (by simp [LifetimeEvent.Open])
  constructor
  · rintro ⟨x', hstep⟩
    exact of_decide_eq_true (hx.returned (hx.returned_of_cleanup hstep))
  · intro hentered
    rw [decide_eq_true hentered] at hz
    exact hz.timedOut hlast

/-- A thread that has begun is joined. -/
theorem shutdown_returns_iff_begun : ∃ x : Lifetime,
    run Lifetime.step (.start ⟨⟨1, some 0, [0]⟩, true, true⟩ true)
        ([.enter] ++ .cleanup :: ([] ++ [.round .timedOut])) = some x ∧
      ((∃ x', x.step .cleanup = some x') ↔ LifetimeEvent.enter ∈ [LifetimeEvent.enter]) := by
  obtain ⟨x, hrun⟩ : ∃ x : Lifetime,
      run Lifetime.step (.start ⟨⟨1, some 0, [0]⟩, true, true⟩ true)
        ([.enter] ++ .cleanup :: ([] ++ [.round .timedOut])) = some x := ⟨_, rfl⟩
  refine ⟨x, hrun, shutdown_returns_iff _ true [.enter] [] x hrun (by decide) fun e he => ?_⟩
  rw [List.append_nil, List.mem_singleton] at he
  simp [he, LifetimeEvent.Open]

/-! ## What is left behind -/

/-- What a server leaves behind: what is held when its constructor throws, or after the last
statement of the destructors. -/
inductive LeavesBehind (addresses : Except Bytes (List Attempt)) (tls : Option TLSResult) :
    Holdings → Prop where
  | threw {ex : StdException} {h : Holdings} (hnew : construct addresses tls = (.error ex, h)) :
    LeavesBehind addresses tls h
  | destroyed {h : Holdings} {es : List LifetimeEvent} {x : Lifetime}
    (hnew : construct addresses tls = (.ok (), h))
    (hrun : run Lifetime.step (.start h tls.isSome) es = some x) (htodo : x.todo = []) :
    LeavesBehind addresses tls x.holdings

section Left

variable {addresses : Except Bytes (List Attempt)} {tls : Option TLSResult} {h : Holdings}
  {a : Attempt} {as : List Attempt} {s s' : Sockets} {i : ℕ}

/-- The handshake does not fail after the context has been set up. -/
def HandshakeHolds (tls : Option TLSResult) : Prop :=
  ∀ t ∈ tls, t.context = true → t.verifyLocations = true → t.handshake = true

/-- If the connection cannot be made, its sockets are left as they are. Otherwise the socket in the
variable is closed, and the SSL object and the context are left if the handshake fails. -/
lemma LeavesBehind.cases (hleaves : LeavesBehind addresses tls h) :
    (∃ ex, connectWithTimeout addresses = (.error ex, h.sockets) ∧ h.ssl = false ∧
        h.context = false) ∨
      ∃ s, connectWithTimeout addresses = (.ok (), s) ∧ h.sockets = s.close ∧
        (h.ssl = false ∧ h.context = false ↔ HandshakeHolds tls) := by
  rcases hconnect : connectWithTimeout addresses with ⟨result, s⟩
  have hserver : newServer addresses = (result, ⟨s, false, false⟩) := by
    rw [newServer, hconnect]
  cases tls with
  | none =>
    have htrue : HandshakeHolds none := fun t ht => by cases ht
    cases hleaves with
    | threw hnew =>
      rw [construct, hserver] at hnew
      cases hnew
      exact Or.inl ⟨_, rfl, rfl, rfl⟩
    | destroyed hnew hrun htodo =>
      rw [construct, hserver] at hnew
      cases hnew
      obtain ⟨done, hx⟩ := orderly_of_run hrun
      rw [(hx.over htodo).2]
      exact Or.inr ⟨s, rfl, rfl, iff_of_true ⟨rfl, rfl⟩ htrue⟩
  | some t =>
    cases result with
    | error ex =>
      have hnew' : construct addresses (some t) = (.error ex, ⟨s, false, false⟩) := by
        rw [construct, newTLSServer, hserver]
      cases hleaves with
      | threw hnew =>
        rw [hnew'] at hnew
        cases hnew
        exact Or.inl ⟨_, rfl, rfl, rfl⟩
      | destroyed hnew hrun htodo =>
        rw [hnew'] at hnew
        cases hnew
    | ok u =>
      refine Or.inr ⟨s, rfl, ?_⟩
      obtain ⟨context, verifyLocations, handshake⟩ := t
      cases hleaves with
      | threw hnew =>
        rw [construct, newTLSServer, hserver] at hnew
        cases context <;> cases verifyLocations <;> cases handshake <;> cases hnew <;>
          refine ⟨rfl, ?_⟩ <;> simp [HandshakeHolds, serverDestructor, Holdings.cleanup]
      | destroyed hnew hrun htodo =>
        rw [construct, newTLSServer, hserver] at hnew
        obtain ⟨done, hx⟩ := orderly_of_run hrun
        rw [(hx.over htodo).2]
        cases context <;> cases verifyLocations <;> cases handshake <;> cases hnew
        exact ⟨rfl, iff_of_true ⟨rfl, rfl⟩ fun t ht _ _ => by cases ht; rfl⟩

/-- The loop leaves the sockets open that have been open before. -/
lemma mem_opened_connectLoop (has : ∀ b ∈ as, b.Plain) (hi : i ∈ s.opened) (hlt : i < s.created) :
    i ∈ ((connectLoop as).run s).2.opened := by
  induction as generalizing s with
  | nil => exact hi
  | cons b as ih =>
    rw [List.forall_mem_cons] at has
    have hmade : i ∈ s.make.opened := List.mem_append_left _ hi
    rw [connectLoop]
    rcases connectAddress_cases has.1 s with ⟨-, hrun⟩ | ⟨-, -, ex, hrun⟩ | ⟨-, -, ex, hrun⟩
    · rw [run_bind_ok hrun]
      exact ih has.2 hmade (Nat.lt_succ_of_lt hlt)
    · rw [run_bind_error hrun]
      refine List.mem_filter.mpr ⟨hmade, ?_⟩
      have hne : i ≠ s.created := Nat.ne_of_lt hlt
      simpa [Sockets.make] using hne
    · rw [run_bind_error hrun]
      exact hmade

/-- The socket in the variable is the one that has been made last. -/
lemma clientSocket_connectLoop (h : (connectLoop (a :: as)).run s = (.ok (), s')) :
    ∃ k, s.created ≤ k ∧ s'.clientSocket = some k := by
  induction as generalizing a s with
  | nil =>
    obtain ⟨_, s₁, haddress, hrest⟩ := exists_of_run_bind h
    obtain rfl : s₁ = s' := congrArg Prod.snd hrest
    rw [connectAddress_ok haddress]
    exact ⟨s.created, le_rfl, rfl⟩
  | cons b as ih =>
    obtain ⟨_, s₁, haddress, hrest⟩ := exists_of_run_bind h
    rw [connectAddress_ok haddress] at hrest
    obtain ⟨k, hk, hclient⟩ := ih hrest
    exact ⟨k, Nat.le_of_succ_le hk, hclient⟩

end Left

/-- **What is left behind.** Let the system calls on sockets other than `connect` succeed. A server
that comes to its end, by an exception of its constructor or through its destructors, leaves no
socket, SSL object and context open if and only if the first address refuses at once, or it is the
only one and is connected to, and no TLS handshake fails.

**Proof sketch.** The socket of a first address that is connected to, or that fails otherwise, stays
open unless it is the last one in the variable. The destructor of `TLSServer` is not run if its
constructor throws. -/
theorem leaves_nothing_iff (a : Attempt) (as : List Attempt) (hplain : ∀ b ∈ a :: as, b.Plain)
    (tls : Option TLSResult) (h : Holdings) (hleaves : LeavesBehind (.ok (a :: as)) tls h) :
    h.Empty ↔ (as = [] ∧ a.connect.Connectable ∧ HandshakeHolds tls) ∨ a.connect.Refused := by
  have hrest := List.forall_mem_cons.mp hplain
  have hcases := hleaves.cases
  rcases connectAddress_cases hrest.1 ⟨0, none, []⟩ with ⟨ha, hrun⟩ | ⟨ha, hrefused, ex, hrun⟩ |
    ⟨ha, hrefused, ex, hrun⟩
  · have hloop : connectWithTimeout (.ok (a :: as)) = (connectLoop as).run ⟨1, some 0, [0]⟩ :=
      run_bind_ok hrun
    have hnot : ¬ a.connect.Refused := by
      intro hrefused
      cases hconnect : a.connect with
      | refused text =>
        rw [hconnect] at ha
        exact ha
      | _ =>
        rw [hconnect] at hrefused
        exact hrefused
    rw [or_iff_left hnot]
    rw [hloop] at hcases
    cases as with
    | nil =>
      rcases hcases with ⟨ex, hthrew, -⟩ | ⟨s, hok, hsockets, hheld⟩
      · cases congrArg Prod.fst hthrew
      · obtain rfl : _ = s := congrArg Prod.snd hok
        have hopened : h.sockets.opened = [] := by
          rw [hsockets]
          rfl
        rw [Holdings.Empty, hheld]
        exact ⟨fun h => ⟨rfl, ha, h.2⟩, fun h => ⟨hopened, h.2.2⟩⟩
    | cons b bs =>
      have hmem := mem_opened_connectLoop (s := ⟨1, some 0, [0]⟩) hrest.2
        (List.mem_singleton_self 0) Nat.one_pos
      refine iff_of_false (fun hempty => ?_) fun h => by cases h.1
      have hopened := hempty.1
      rcases hcases with ⟨ex, hthrew, -⟩ | ⟨s, hok, hsockets, -⟩
      · rw [hthrew, hopened] at hmem
        cases hmem
      · obtain ⟨k, hk, hclient⟩ := clientSocket_connectLoop hok
        rw [hok] at hmem
        have hclosed : 0 ∈ s.close.opened := by
          refine List.mem_filter.mpr ⟨hmem, ?_⟩
          have hne : 0 ≠ k := Nat.ne_of_lt hk
          simpa [hclient] using hne
        rw [← hsockets, hopened] at hclosed
        cases hclosed
  · have hloop : connectWithTimeout (.ok (a :: as)) = (.error ex, ⟨1, some 0, []⟩) :=
      run_bind_error hrun
    refine iff_of_true ?_ (Or.inr hrefused)
    rw [hloop] at hcases
    rcases hcases with ⟨ex, hthrew, hssl, hcontext⟩ | ⟨s, hok, -⟩
    · have hsockets : ⟨1, some 0, []⟩ = h.sockets := congrArg Prod.snd hthrew
      exact ⟨by rw [← hsockets], hssl, hcontext⟩
    · cases congrArg Prod.fst hok
  · have hloop : connectWithTimeout (.ok (a :: as)) = (.error ex, ⟨1, some 0, [0]⟩) :=
      run_bind_error hrun
    refine iff_of_false (fun hempty => ?_) (not_or.mpr ⟨fun h => ha h.2.1, hrefused⟩)
    rw [hloop] at hcases
    have hopened := hempty.1
    rcases hcases with ⟨ex, hthrew, -⟩ | ⟨s, hok, -⟩
    · have hsockets : ⟨1, some 0, [0]⟩ = h.sockets := congrArg Prod.snd hthrew
      rw [← hsockets] at hopened
      cases hopened
    · cases congrArg Prod.fst hok

/-- A handshake that fails. -/
theorem leaves_nothing_iff_handshake :
    ∃ h, LeavesBehind (.ok [plainAttempt .connected]) (some ⟨true, true, false⟩) h ∧
      (h.Empty ↔
        ([] = ([] : List Attempt) ∧ (plainAttempt .connected).connect.Connectable ∧
          HandshakeHolds (some ⟨true, true, false⟩)) ∨
        (plainAttempt .connected).connect.Refused) := by
  have hleaves : LeavesBehind (.ok [plainAttempt .connected]) (some ⟨true, true, false⟩)
      ⟨⟨1, some 0, []⟩, true, true⟩ := .threw rfl
  refine ⟨_, hleaves, leaves_nothing_iff _ [] (fun b hb => ?_) _ _ hleaves⟩
  rw [List.mem_singleton.mp hb]
  exact plainAttempt_plain _

end Imapcl
