import Imapcl.Parser.Segments
import Imapcl.Receiver.Survival

set_option relaxedAutoImplicit false
set_option autoImplicit false

/-!
# Where the responses come from

What the receiving thread tells the session, in terms of the bytes it has received. For any sequence
of inputs, each response it hands over has a word of its own among these bytes, and the words stand
there in the order of the responses; the bytes between them have been skipped, and their loss has
been reported. Where nothing is reported, the responses do not depend on how the bytes came in.

## Main definitions

* `Imapcl.receivedBytes` — the bytes that a sequence of inputs brings.
* `Imapcl.Delivered` — notices, read off bytes.

## Main results

* `Imapcl.Receiver.run_delivered` — the responses of any run are read off the bytes received.
* `Imapcl.receive_confluent` — two runs on the same bytes that report no failure.
-/

namespace Imapcl

variable {b c d t u v w : Bytes} {s s' : Receiver} {i : Input} {is : List Input} {ns : List Notice}

/-! ## Bytes and notices -/

/-- The bytes that an input brings. -/
def Input.bytes : Input → Bytes
  | .recv (.bytes w) => w
  | _ => []

/-- The bytes that a sequence of inputs brings. -/
def receivedBytes (is : List Input) : Bytes := is.flatMap Input.bytes

/-- The notices are read off the bytes, of which `t` is left: each response is the word at its
place, before bytes `u` that stand there, and with a failure some bytes are skipped. -/
inductive Delivered : Bytes → List Notice → Bytes → Prop where
  | nil (t : Bytes) : Delivered t [] t
  | incoming {w u v t : Bytes} {x : Response} {ns : List Notice} (hw : Reading w u (some x))
      (hu : u <+: v) (h : Delivered v ns t) : Delivered (w ++ v) (.incoming x :: ns) t
  | failed {v t : Bytes} {ns : List Notice} (skipped : Bytes) (ex : StdException)
      (h : Delivered v ns t) : Delivered (skipped ++ v) (.failed ex :: ns) t

namespace Delivered

/-- More bytes behind. -/
lemma append_right (h : Delivered d ns t) (v : Bytes) : Delivered (d ++ v) ns (t ++ v) := by
  induction h with
  | nil t => exact .nil _
  | incoming hw hu h ih =>
    rw [List.append_assoc]
    exact .incoming hw (hu.trans (List.prefix_append _ _)) ih
  | failed skipped ex h ih =>
    rw [List.append_assoc]
    exact .failed skipped ex ih

/-- Notices one after the other. -/
lemma trans {ns' : List Notice} (h : Delivered d ns t) (h' : Delivered t ns' v) :
    Delivered d (ns ++ ns') v := by
  induction h with
  | nil t => exact h'
  | incoming hw hu h ih => exact .incoming hw hu (ih h')
  | failed skipped ex h ih => exact .failed skipped ex (ih h')

end Delivered

/-! ## One buffer -/

/-- What the session is told of a buffer is read off the buffer. A round that leaves the thread
running has used it up.

**Proof sketch.** Induction on the chain of its words; what no word begins is skipped with the
report of the exception. -/
lemma notify_delivered {xs : List (Option Response)} {result : Except Fault ResponseParser}
    {stopped : Bool} (h : Chain d xs v) (hv : (∃ s, result = .ok s) ↔ v = []) :
    ∃ t, Delivered d (notify stopped result xs).1 t ∧
      ∀ s', (notify stopped result xs).2 = .running s' → s'.receivedData = t := by
  induction h with
  | nil v =>
    cases result with
    | ok s =>
      obtain rfl := hv.mp ⟨s, rfl⟩
      exact ⟨[], .nil [], fun s' hs => by cases hs; rfl⟩
    | error f =>
      cases f with
      | thrown ex =>
        have hskip := Delivered.failed v ex (.nil [])
        rw [List.append_nil] at hskip
        exact ⟨[], hskip, fun s' hs => by cases hs; rfl⟩
      | undefined => exact ⟨v, .nil v, fun s' hs => by cases hs⟩
      | diverges => exact ⟨v, .nil v, fun s' hs => by cases hs⟩
  | @cons w u v x xs hw h ih =>
    cases x with
    | none => exact ⟨w ++ u, .nil _, fun s' hs => by cases hs⟩
    | some x =>
      obtain ⟨t, ht, hrun⟩ := ih hv
      exact ⟨t, .incoming hw (List.prefix_refl u) ht, hrun⟩

namespace Receiver

/-- What a round tells the session is read off its buffer, and the rest of that is kept. -/
lemma append_delivered (hd : (s.receivedData ++ c).length < 2 ^ 31) :
    ∃ t, Delivered (s.receivedData ++ c) (s.append c).1 t ∧
      ∀ s', (s.append c).2 = .running s' → s'.receivedData = t := by
  rw [append]
  by_cases hcomplete : bufferComplete (s.receivedData ++ c)
  · rw [if_pos hcomplete]
    obtain ⟨v, hchain, -, hend⟩ := parseBuffer_chain hd
    exact notify_delivered hchain hend
  · refine ⟨s.receivedData ++ c, ?_⟩
    rw [if_neg hcomplete]
    split
    · exact ⟨.nil _, fun s' hs => by cases hs⟩
    · split
      · exact ⟨.nil _, fun s' hs => by cases hs⟩
      · exact ⟨.nil _, fun s' hs => by cases hs; rfl⟩

/-- So is what a step tells it. -/
lemma step_delivered (hd : ∀ result, i = .recv result → result ≠ .failed →
      (s.receivedData ++ i.bytes).length < 2 ^ 31) :
    ∃ t, Delivered (s.receivedData ++ i.bytes) (s.step i).1 t ∧
      ∀ s', (s.step i).2 = .running s' → s'.receivedData = t := by
  cases i with
  | stop =>
    refine ⟨_, .nil _, fun s' hs => ?_⟩
    cases hs
    exact (List.append_nil _).symm
  | recv result =>
    cases result with
    | bytes w => exact append_delivered (hd _ rfl nofun)
    | timedOut => exact append_delivered (hd _ rfl nofun)
    | closed => exact append_delivered (s := { s with stopped := true }) (hd _ rfl nofun)
    | failed =>
      exact ⟨_, .failed [] _ (.nil _), fun s' hs => by cases hs⟩

/-! ## Whole runs -/

/-- The first buffer that a run tests. -/
lemma Tests.head {Q : Bytes → Prop} (h : s.Tests (i :: is) Q) {result : RecvResult}
    (hi : i = .recv result) (hne : result ≠ .failed) : Q (s.receivedData ++ i.bytes) := by
  subst hi
  have hc : result.received = some (Input.recv result).bytes := by
    cases result with
    | failed => exact absurd rfl hne
    | _ => rfl
  exact h [] result _ [] s ⟨is, rfl⟩ rfl hc

/-- The buffers that the rest of a run tests. -/
lemma Tests.tail {Q : Bytes → Prop} (h : s.Tests (i :: is) Q)
    (hstep : s.step i = (ns, .running s')) : s'.Tests is Q := by
  intro pre result c ns' s'' hpre hrun hc
  refine h (i :: pre) result c (ns ++ ns') s'' ((List.prefix_cons_inj i).mpr hpre) ?_ hc
  rw [run_cons_running hstep, hrun]

/-- A step makes the buffer no longer than the bytes it has. -/
lemma step_buffer_le (h : s.step i = (ns, .running s')) :
    s'.receivedData.length ≤ (s.receivedData ++ i.bytes).length := by
  rcases step_ends s i with ⟨rfl, hi⟩ | ⟨rfl, ex, hi⟩ | ⟨result, c, b, rfl, hc, -, hends⟩
  · rw [h] at hi
    cases hi
    simp [Input.bytes]
  · rw [h] at hi
    cases hi
  · rw [h] at hends
    have hbytes : (Input.recv result).bytes = c := by
      cases result with
      | failed => cases hc
      | _ => exact Option.some.inj hc
    rw [hbytes]
    rcases hends.buffer_eq with hs | hs
    · rw [hs]
      exact Nat.zero_le _
    · rw [hs]

/-- The buffers of a run are no longer than all that it receives.

**Proof sketch.** Induction on the inputs before the test. -/
lemma tests_of_received {n : ℕ} (is : List Input) :
    ∀ s : Receiver, (s.receivedData ++ receivedBytes is).length < n →
      s.Tests is fun data => data.length < n := by
  intro s hlen pre
  induction pre generalizing s is with
  | nil =>
    rintro result c ns s' ⟨post, rfl⟩ hrun hc
    obtain rfl : s = s' := Outcome.running.inj (Prod.mk.inj hrun).2
    have hbytes : (Input.recv result).bytes = c := by
      cases result with
      | failed => cases hc
      | _ => exact Option.some.inj hc
    rw [List.nil_append, List.singleton_append, receivedBytes, List.flatMap_cons, hbytes,
      ← List.append_assoc, List.length_append] at hlen
    omega
  | cons i pre ih =>
    rintro result c ns s' ⟨post, rfl⟩ hrun hc
    rw [run] at hrun
    split at hrun
    · next ns₁ s₁ hstep =>
      refine ih (pre ++ [.recv result] ++ post) s₁ ?_ result c _ s' (List.prefix_append _ _)
        (Prod.ext rfl (Prod.mk.inj hrun).2) hc
      have hle := step_buffer_le hstep
      rw [List.cons_append, List.cons_append, receivedBytes, List.flatMap_cons, ← List.append_assoc,
        List.length_append, ← receivedBytes] at hlen
      rw [List.length_append]
      omega
    · next ns₁ o hnot hstep => exact absurd (Prod.mk.inj hrun).2 (hnot s')

/-- **Provenance.** Whatever the inputs of the thread are, the responses that it hands over are
words of the bytes it has received, disjoint from each other and in this order; while it runs, what
is left behind the last of them is its buffer.

**Proof sketch.** Induction on the inputs. A step reads its notices off the buffer and the bytes it
receives, and leaves the rest to the next step. -/
lemma run_delivered (is : List Input) :
    ∀ s : Receiver, (s.Tests is fun data => data.length < 2 ^ 31) →
      ∃ t, Delivered (s.receivedData ++ receivedBytes is) (s.run is).1 t ∧
        ∀ s', (s.run is).2 = .running s' → s'.receivedData = t := by
  induction is with
  | nil =>
    intro s _
    refine ⟨_, .nil _, fun s' hs => ?_⟩
    cases hs
    exact (List.append_nil _).symm
  | cons i is ih =>
    intro s hfit
    obtain ⟨t, ht, hrest⟩ := step_delivered (s := s) (i := i) fun result hi hne => hfit.head hi hne
    rw [receivedBytes, List.flatMap_cons, ← List.append_assoc, ← receivedBytes, run]
    split
    · next ns s₁ hstep =>
      rw [hstep] at ht hrest
      obtain rfl := hrest s₁ rfl
      obtain ⟨t', ht', hrest'⟩ := ih s₁ (hfit.tail hstep)
      exact ⟨t', (ht.append_right _).trans ht', hrest'⟩
    · next ns o hnot hstep =>
      rw [hstep] at ht
      exact ⟨_, ht.append_right _, fun s' hs => absurd hs (hnot s')⟩

end Receiver

/-- **The source of the responses.** Whatever `recv` returns and whenever `stop` is called, as long
as the buffers stay below `2 ^ 31` bytes, the notices of the receiving thread are read off the bytes
that it has received: no response is made up, repeated or handed over out of order. -/
theorem receive_provenance (is : List Input)
    (hfit : Receiver.Tests ⟨[], false⟩ is fun data => data.length < 2 ^ 31) :
    ∃ rest, Delivered (receivedBytes is) (Receiver.run ⟨[], false⟩ is).1 rest := by
  obtain ⟨t, ht, -⟩ := Receiver.run_delivered is ⟨[], false⟩ hfit
  exact ⟨t, ht⟩

/-- A response and a line that is not understood. -/
theorem receive_provenance_skipped :
    ∃ rest, Delivered (receivedBytes [.recv (.bytes (ascii "* 1 EXISTS\r\n?\r\n"))])
      (Receiver.run ⟨[], false⟩ [.recv (.bytes (ascii "* 1 EXISTS\r\n?\r\n"))]).1 rest :=
  receive_provenance _ (Receiver.tests_of_received _ _ (by decide +kernel))

/-! ## Confluence -/

/-- Without a failure, a run of the parser that leaves the thread running has handed over a response
each time and has ended well. -/
lemma notify_inv {xs : List (Option Response)} {result : Except Fault ResponseParser}
    {stopped : Bool} (h : notify stopped result xs = (ns, .running s'))
    (hok : ∀ ex, .failed ex ∉ ns) :
    (∃ rs : List Response, xs = rs.map some ∧ ns = rs.map .incoming) ∧ (∃ s, result = .ok s) ∧
      s'.receivedData = [] := by
  obtain ⟨rs, rfl⟩ := exists_of_notify_running stopped result (congrArg Prod.snd h)
  have hnotify := notify_append stopped result rs []
  rw [List.append_nil, h] at hnotify
  obtain ⟨rfl, houtcome⟩ := Prod.mk.inj hnotify
  cases result with
  | ok s =>
    obtain rfl := Outcome.running.inj houtcome
    exact ⟨⟨rs, rfl, List.append_nil _⟩, ⟨s, rfl⟩, rfl⟩
  | error f =>
    cases f with
    | thrown ex => exact absurd (List.mem_append_right _ (List.mem_singleton_self _)) (hok ex)
    | undefined => cases houtcome
    | diverges => cases houtcome

namespace Receiver

/-- What a round without a failure hands over is the responses of whole words. -/
lemma append_whole (h : s.append c = (ns, .running s')) (hok : ∀ ex, .failed ex ∉ ns)
    (hd : (s.receivedData ++ c).length < 2 ^ 31) :
    ∃ (rs : List Response) (w : Bytes), ns = rs.map .incoming ∧
      s.receivedData ++ c = w ++ s'.receivedData ∧ Whole w (rs.map some) := by
  rw [append] at h
  by_cases hcomplete : bufferComplete (s.receivedData ++ c)
  · rw [if_pos hcomplete] at h
    obtain ⟨v, hchain, -, hend⟩ := parseBuffer_chain hd
    obtain ⟨⟨rs, hrs, rfl⟩, hresult, hs⟩ := notify_inv h hok
    obtain rfl := hend.mp hresult
    rw [hrs] at hchain
    exact ⟨rs, _, rfl, by rw [hs, List.append_nil], hchain.whole hd⟩
  · rw [if_neg hcomplete] at h
    split at h
    · cases h
    · split at h
      · cases h
      · cases h
        exact ⟨[], [], rfl, rfl, .nil⟩

/-- So is what a step hands over. -/
lemma step_whole (h : s.step i = (ns, .running s')) (hok : ∀ ex, .failed ex ∉ ns)
    (hd : ∀ result, i = .recv result → result ≠ .failed →
      (s.receivedData ++ i.bytes).length < 2 ^ 31) :
    ∃ (rs : List Response) (w : Bytes), ns = rs.map .incoming ∧
      s.receivedData ++ i.bytes = w ++ s'.receivedData ∧ Whole w (rs.map some) := by
  cases i with
  | stop =>
    cases h
    exact ⟨[], [], rfl, List.append_nil _, .nil⟩
  | recv result =>
    cases result with
    | bytes w => exact append_whole h hok (hd _ rfl nofun)
    | timedOut => exact append_whole h hok (hd _ rfl nofun)
    | closed => exact append_whole (s := { s with stopped := true }) h hok (hd _ rfl nofun)
    | failed => cases h

/-- A run without a failure hands over the responses of whole words, up to its buffer.

**Proof sketch.** Induction on the inputs; the buffer that a step leaves is the beginning of the
bytes of the next one. -/
lemma run_whole (is : List Input) :
    ∀ (s : Receiver) (ns : List Notice), (s.Tests is fun data => data.length < 2 ^ 31) →
      s.run is = (ns, .running s') → (∀ ex, .failed ex ∉ ns) →
      ∃ (rs : List Response) (w : Bytes), ns = rs.map .incoming ∧
        s.receivedData ++ receivedBytes is = w ++ s'.receivedData ∧ Whole w (rs.map some) := by
  induction is with
  | nil =>
    intro s ns _ h _
    cases h
    exact ⟨[], [], rfl, List.append_nil _, .nil⟩
  | cons i is ih =>
    intro s ns hfit h hok
    rw [run] at h
    split at h
    · next ns₁ s₁ hstep =>
      obtain ⟨rfl, hrun⟩ := Prod.mk.inj h
      obtain ⟨rs, w, rfl, hw, hwhole⟩ := step_whole hstep
        (fun ex hex => hok ex (List.mem_append_left _ hex)) fun result hi hne => hfit.head hi hne
      obtain ⟨rs', w', hns, hw', hwhole'⟩ := ih s₁ _ (hfit.tail hstep) (Prod.ext rfl hrun)
        fun ex hex => hok ex (List.mem_append_right _ hex)
      refine ⟨rs ++ rs', w ++ w', ?_, ?_, ?_⟩
      · rw [List.map_append]
        exact congrArg _ hns
      · rw [receivedBytes, List.flatMap_cons, ← List.append_assoc, ← receivedBytes, hw,
          List.append_assoc, hw', List.append_assoc]
      · rw [List.map_append]
        exact hwhole.append hwhole'
    · next ns₁ o hnot hstep =>
      obtain ⟨-, rfl⟩ := Prod.mk.inj h
      exact absurd rfl (hnot s')

/-- What two runs on the same bytes hand over, if they end with an empty buffer and report no
failure.

**Proof sketch.** The bytes of both runs are whole words, and these are determined by the bytes. -/
lemma run_unique {is is' : List Input} {ns ns' : List Notice} {stopped stopped' : Bool}
    (hbytes : receivedBytes is = receivedBytes is')
    (hfit : Receiver.Tests ⟨[], false⟩ is fun data => data.length < 2 ^ 31)
    (hfit' : Receiver.Tests ⟨[], false⟩ is' fun data => data.length < 2 ^ 31)
    (hrun : Receiver.run ⟨[], false⟩ is = (ns, .running ⟨[], stopped⟩))
    (hrun' : Receiver.run ⟨[], false⟩ is' = (ns', .running ⟨[], stopped'⟩))
    (hok : ∀ ex, .failed ex ∉ ns) (hok' : ∀ ex, .failed ex ∉ ns') :
    ns = ns' ∧ ∃ rs : List Response, ns = rs.map .incoming := by
  obtain ⟨rs, w, rfl, hw, hwhole⟩ := run_whole is _ _ hfit hrun hok
  obtain ⟨rs', w', rfl, hw', hwhole'⟩ := run_whole is' _ _ hfit' hrun' hok'
  rw [List.append_nil, List.nil_append] at hw hw'
  rw [← hw, hbytes, hw'] at hwhole
  rw [List.map_injective_iff.mpr (Option.some_injective _) (hwhole.unique hwhole')]
  exact ⟨rfl, rs', rfl⟩

end Receiver

/-- **Confluence.** Two runs of the thread on the same bytes, in whatever chunks they come and with
whatever timeouts and stop requests between, that end with an empty buffer and have reported no
failure, have handed over the same responses. -/
theorem receive_confluent (is is' : List Input) (ns ns' : List Notice) (stopped stopped' : Bool)
    (hbytes : receivedBytes is = receivedBytes is')
    (hfit : Receiver.Tests ⟨[], false⟩ is fun data => data.length < 2 ^ 31)
    (hfit' : Receiver.Tests ⟨[], false⟩ is' fun data => data.length < 2 ^ 31)
    (hrun : Receiver.run ⟨[], false⟩ is = (ns, .running ⟨[], stopped⟩))
    (hrun' : Receiver.run ⟨[], false⟩ is' = (ns', .running ⟨[], stopped'⟩))
    (hok : ∀ ex, .failed ex ∉ ns) (hok' : ∀ ex, .failed ex ∉ ns') : ns = ns' :=
  (Receiver.run_unique hbytes hfit hfit' hrun hrun' hok hok').1

/-- Two lines in one chunk, and in two chunks with a timeout and a stop request between. -/
theorem receive_confluent_lines :
    (Receiver.run ⟨[], false⟩ [.recv (.bytes (ascii "* 1 EXISTS\r\n* 2 RECENT\r\n"))]).1 =
      (Receiver.run ⟨[], false⟩ [.recv (.bytes (ascii "* 1 EXISTS\r\n")), .recv .timedOut, .stop,
        .recv (.bytes (ascii "* 2 RECENT\r\n"))]).1 := by
  have hrun : Receiver.run ⟨[], false⟩ [.recv (.bytes (ascii "* 1 EXISTS\r\n* 2 RECENT\r\n"))] =
      ([.incoming (.singleNumber .exists 1), .incoming (.singleNumber .recent 2)],
        .running ⟨[], false⟩) := by decide +kernel
  have hrun' : Receiver.run ⟨[], false⟩ [.recv (.bytes (ascii "* 1 EXISTS\r\n")),
      .recv .timedOut, .stop, .recv (.bytes (ascii "* 2 RECENT\r\n"))] =
      ([.incoming (.singleNumber .exists 1), .incoming (.singleNumber .recent 2)],
        .running ⟨[], true⟩) := by decide +kernel
  exact receive_confluent _ _ _ _ false true (by decide +kernel)
    (Receiver.tests_of_received _ _ (by decide +kernel))
    (Receiver.tests_of_received _ _ (by decide +kernel)) (Prod.ext rfl (by rw [hrun]))
    (Prod.ext rfl (by rw [hrun'])) (by rw [hrun]; simp) (by rw [hrun']; simp)

end Imapcl
