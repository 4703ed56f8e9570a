import Imapcl.Receiver.Provenance

set_option relaxedAutoImplicit false
set_option autoImplicit false

/-!
# Replies longer than a chunk

A reply that does not fit into one chunk of `recv` is collected in the buffer, round by round, until
the buffer looks complete. Then it is parsed, and what is read is handed over or a failure is
reported. But the loop is left, without either, when the flag is set and the buffer does not look
complete: if the buffer holds a whole reply and the beginning of another one by then, the reply is
lost.

## Main definitions

* `Imapcl.WireResponse.LongFetch` — a FETCH reply that is longer than a chunk.
* `Imapcl.Receiver.Accounts` — every such reply is handed over, or a failure is reported.
* `Imapcl.Receiver.LeftWith` — the loop is left with bytes in the buffer.

## Main results

* `Imapcl.Receiver.accounts_iff` — the runs in which no such reply is lost.
* `Imapcl.receive_survives_iff` — the runs that survive, and those in which no such reply is lost.
-/

namespace Imapcl

variable {c data : Bytes} {s s' : Receiver} {i : Input} {is : List Input} {ns : List Notice}
  {result : RecvResult}

/-! ## Long replies -/

/-- A FETCH reply that is longer than the largest chunk of `recv`. -/
def WireResponse.LongFetch (x : WireResponse) : Prop :=
  x.value.getType = .fetch ∧ recvMessageMaxlen < x.wire.length

/-- The data begins with responses, the last of which is such a reply. -/
def HoldsLongFetch (data : Bytes) : Prop :=
  ∃ (us : List WireResponse) (x : WireResponse) (rest : Bytes), x.LongFetch ∧
    (∀ u ∈ us ++ [x], u.wire.length < 2 ^ 31) ∧ data = Stream.wire (us ++ [x]) ++ rest

namespace Receiver

/-- The thread returns at the last of the inputs. -/
def Returns (s : Receiver) (is : List Input) : Prop :=
  ∃ pre i ns s', is = pre ++ [i] ∧ s.run pre = (ns, .running s') ∧ (s'.step i).2 = .returned

/-- Let the thread return. From every time in the run on, if what is in the buffer then and what is
received after it begins with responses of which the last one is a FETCH reply longer than a chunk,
they have been handed over, or a failure has been reported. -/
def Accounts (s : Receiver) (is : List Input) : Prop :=
  ∀ pre mid ns s', pre ++ mid <+: is → s.run pre = (ns, .running s') → s'.Returns mid →
    ∀ (us : List WireResponse) (x : WireResponse) (rest : Bytes), x.LongFetch →
      (∀ u ∈ us ++ [x], u.wire.length < 2 ^ 31) →
      s'.receivedData ++ receivedBytes mid = Stream.wire (us ++ [x]) ++ rest →
        ((us ++ [x]).map fun u => .incoming u.value) <+: (s'.run mid).1 ∨
          ∃ ex, .failed ex ∈ (s'.run mid).1

/-- The loop is left with `data` in the buffer: the flag has been set, by a call of `stop` or by the
end of the connection, and the buffer with the new data is neither taken for complete nor
overlong. -/
def LeftWith (s : Receiver) (is : List Input) (data : Bytes) : Prop :=
  ∃ pre result c ns s', pre ++ [.recv result] <+: is ∧ s.run pre = (ns, .running s') ∧
    result.received = some c ∧ data = s'.receivedData ++ c ∧
    (s'.stopped = true ∨ result = .closed) ∧ ¬ bufferComplete data ∧ ¬ Overlong data

/-! ## Leaving the loop -/

/-- A round whose buffer is not taken for complete tells the session nothing. -/
lemma append_kept (hopen : ¬ bufferComplete (s.receivedData ++ c))
    (hshort : ¬ Overlong (s.receivedData ++ c)) : s.append c =
      ([], if s.stopped then .returned else .running ⟨s.receivedData ++ c, s.stopped⟩) := by
  have hlen : (s.receivedData ++ c).length ≠ recvMessageMaxlen := fun h => hshort ⟨hopen, h⟩
  rw [append, if_neg hopen, if_neg hlen]
  split <;> rfl

/-- Two chunks after which the buffer is not taken for complete. -/
lemma run_kept {c₁ c₂ : Bytes} (hopen₁ : ¬ bufferComplete c₁) (hshort₁ : ¬ Overlong c₁)
    (hopen₂ : ¬ bufferComplete (c₁ ++ c₂)) (hshort₂ : ¬ Overlong (c₁ ++ c₂)) :
    Receiver.run ⟨[], false⟩ [.recv (.bytes c₁), .recv (.bytes c₂)] =
      ([], .running ⟨c₁ ++ c₂, false⟩) := by
  have hfirst : Receiver.step ⟨[], false⟩ (.recv (.bytes c₁)) = ([], .running ⟨c₁, false⟩) :=
    append_kept (s := ⟨[], false⟩) hopen₁ hshort₁
  have hsecond : Receiver.step ⟨c₁, false⟩ (.recv (.bytes c₂)) =
      ([], .running ⟨c₁ ++ c₂, false⟩) := append_kept (s := ⟨c₁, false⟩) hopen₂ hshort₂
  rw [run_cons_running hfirst, run_cons_running hsecond]
  rfl

/-- A round in which the loop is left. -/
lemma step_left (hc : result.received = some c) (hs : s.stopped = true ∨ result = .closed)
    (hopen : ¬ bufferComplete (s.receivedData ++ c))
    (hshort : ¬ Overlong (s.receivedData ++ c)) : s.step (.recv result) = ([], .returned) := by
  cases result with
  | failed => cases hc
  | closed =>
    obtain rfl := Option.some.inj hc
    exact append_kept (s := { s with stopped := true }) hopen hshort
  | bytes w =>
    obtain rfl := Option.some.inj hc
    exact (append_kept hopen hshort).trans (by rw [hs.resolve_right nofun]; rfl)
  | timedOut =>
    obtain rfl := Option.some.inj hc
    exact (append_kept hopen hshort).trans (by rw [hs.resolve_right nofun]; rfl)

/-- The thread returns after it has reported a failure, or by leaving the loop. -/
lemma step_returned (h : (s.step i).2 = .returned) : (∃ ex, .failed ex ∈ (s.step i).1) ∨
    ∃ result c, i = .recv result ∧ result.received = some c ∧
      (s.stopped = true ∨ result = .closed) ∧ ¬ bufferComplete (s.receivedData ++ c) ∧
      ¬ Overlong (s.receivedData ++ c) := by
  rcases step_ends s i with ⟨-, hi⟩ | ⟨-, ex, hi⟩ | ⟨result, c, b, rfl, hc, hb, hends⟩
  · rw [hi] at h
    cases h
  · left
    refine ⟨ex, ?_⟩
    rw [hi]
    exact List.mem_singleton_self _
  · right
    rw [h] at hends
    cases hends with
    | left hopen hshort hs => exact ⟨result, c, rfl, hc, hb hs, hopen, hshort⟩

/-- The bytes of a return of `receive_inner`. -/
lemma bytes_of_received (hc : result.received = some c) : (Input.recv result).bytes = c := by
  cases result with
  | failed => cases hc
  | _ => exact Option.some.inj hc

/-- The buffers that are tested from some time on. -/
lemma Tests.drop {Q : Bytes → Prop} {pre mid : List Input} (h : s.Tests is Q)
    (hrun : s.run pre = (ns, .running s')) (hpre : pre ++ mid <+: is) : s'.Tests mid Q := by
  intro pre' result c ns' s'' hpre' hrun' hc
  have hprefix : pre ++ pre' ++ [.recv result] <+: is := by
    rw [List.append_assoc]
    exact ((List.prefix_append_right_inj pre).mpr hpre').trans hpre
  refine h (pre ++ pre') result c (ns ++ ns') s'' hprefix ?_ hc
  rw [run_append_running pre hrun, hrun']

/-! ## Whole runs -/

/-- **Long replies.** Let the buffers stay below `2 ^ 31` bytes. Every FETCH reply that is longer
than a chunk is handed over, or a failure is reported, if and only if the loop is never left with
such a reply in the buffer.

**Proof sketch.** What a run hands over without a failure is the words of the bytes before its last
buffer. The replies in front of them are among these words, unless they reach into the buffer with
which the loop is left; and since no word is the beginning of another one, the buffer then begins
with the rest of the replies. -/
theorem accounts_iff (hfit : s.Tests is fun data => data.length < 2 ^ 31) :
    s.Accounts is ↔ ∀ data, s.LeftWith is data → ¬ HoldsLongFetch data := by
  constructor
  · rintro h data ⟨pre, result, c, ns, s', hpre, hrun, hc, rfl, hs, hopen, hshort⟩
      ⟨us, x, rest, hx, hus, hdata⟩
    have hstep := step_left hc hs hopen hshort
    have hreturns : s'.Returns [.recv result] := ⟨[], .recv result, [], s', rfl, rfl, by rw [hstep]⟩
    have hbytes : receivedBytes [.recv result] = c :=
      (List.append_nil _).trans (bytes_of_received hc)
    have hnone : (s'.run [.recv result]).1 = [] := by
      rw [run, hstep]
    rcases h pre _ ns s' hpre hrun hreturns us x rest hx hus (by rw [hbytes, hdata]) with
      hdelivered | ⟨ex, hex⟩
    · rw [hnone, List.map_append] at hdelivered
      exact absurd (List.prefix_nil.mp hdelivered) (by simp)
    · rw [hnone] at hex
      cases hex
  · intro h pre mid ns s₁ hpre hrun hreturns us x rest hx hus hbytes
    obtain ⟨mid, i, ns', s₂, rfl, hmid, hstep⟩ := hreturns
    rw [run_concat hmid i]
    by_cases hfailed : ∃ ex, .failed ex ∈ ns'
    · obtain ⟨ex, hex⟩ := hfailed
      exact Or.inr ⟨ex, List.mem_append_left _ hex⟩
    rcases step_returned hstep with ⟨ex, hex⟩ | ⟨result, c, rfl, hc, hs, hopen, hshort⟩
    · exact Or.inr ⟨ex, List.mem_append_right _ hex⟩
    left
    have hfit₁ : s₁.Tests mid fun data => data.length < 2 ^ 31 :=
      hfit.drop hrun
        (((List.prefix_append_right_inj pre).mpr (List.prefix_append mid _)).trans hpre)
    obtain ⟨rs, w, rfl, hw, hwhole⟩ :=
      run_whole mid s₁ ns' hfit₁ hmid fun ex hex => hfailed ⟨ex, hex⟩
    have hall : w ++ (s₂.receivedData ++ c) = Stream.wire (us ++ [x]) ++ rest := by
      rw [← hbytes, ← List.append_assoc, ← hw, receivedBytes, receivedBytes, List.flatMap_append,
        List.flatMap_singleton, bytes_of_received hc, List.append_assoc]
    rcases hwhole.wire_cases hus hall with ⟨xs', hxs⟩ | ⟨us₁, us₂, hsplit, hne, hleft⟩
    · -- the replies are among the words
      obtain ⟨rs₁, rs₂, rfl, hrs₁, -⟩ := List.map_eq_append_iff.mp hxs
      rw [← Function.comp_def some, ← List.map_map] at hrs₁
      obtain rfl := List.map_injective_iff.mpr (Option.some_injective _) hrs₁
      have hnotices : (((us ++ [x]).map WireResponse.value) ++ rs₂).map Notice.incoming =
          ((us ++ [x]).map fun u => .incoming u.value) ++ rs₂.map .incoming := by
        rw [List.map_append, List.map_map]
        rfl
      rw [hnotices, List.append_assoc]
      exact List.prefix_append _ _
    · -- the replies reach into the buffer
      obtain ⟨us₃, x', rfl⟩ := (List.eq_nil_or_concat us₂).resolve_left hne
      rw [List.concat_eq_append] at hsplit hleft
      rw [← List.append_assoc] at hsplit
      obtain ⟨rfl, hx'⟩ := List.append_inj' hsplit rfl
      obtain rfl := List.singleton_inj.mp hx'
      have hrun₂ : s.run (pre ++ mid) = (ns ++ rs.map .incoming, .running s₂) := by
        rw [run_append_running pre hrun, hmid]
      rw [← List.append_assoc] at hpre
      refine absurd ⟨us₃, x, rest, hx, fun u hu => hus u ?_, hleft⟩
        (h _ ⟨pre ++ mid, result, c, _, s₂, hpre, hrun₂, hc, rfl, hs, hopen, hshort⟩)
      rw [List.append_assoc]
      exact List.mem_append_right us₁ hu

end Receiver

/-- **The receiving thread.** No exception leaves `receive` if and only if no buffer that the loop
tests is overlong; and the thread survives, that is, it goes on, has been stopped or returns after a
report, if and only if moreover every buffer that is taken for complete is parsed safely. Where the
buffers stay below `2 ^ 31` bytes, every FETCH reply that is longer than a chunk is handed over or a
failure is reported if and only if the loop is never left with such a reply in the buffer.

**Proof sketch.** An outcome other than `running` comes from one step of the run, and all that
decides a step is the buffer it tests. The last part is `Receiver.accounts_iff`. -/
theorem receive_survives_iff (s : Receiver) (is : List Input) :
    ((∀ ex, (s.run is).2 ≠ .escaped ex) ↔ s.Tests is fun data => ¬ Overlong data) ∧
      (s.Survives is ↔ s.Tests is fun data =>
        ¬ Overlong data ∧ (bufferComplete data → ParsesSafely data)) ∧
      ((s.Tests is fun data => data.length < 2 ^ 31) →
        (s.Accounts is ↔ ∀ data, s.LeftWith is data → ¬ HoldsLongFetch data)) := by
  refine ⟨?_, ?_, Receiver.accounts_iff⟩
  · rw [← Receiver.run_not_ends_iff (P := fun o => ∃ ex, o = .escaped ex) (by simp) (by simp)
      fun h => not_congr h.escaped_iff, not_exists]
  · rw [Receiver.survives_iff, ← Receiver.run_not_ends_iff
      (P := fun o => (∃ ex, o = .escaped ex) ∨ ∃ f, o = .fault f) (by simp) (by simp)
      fun h => by rw [h.escaped_iff, h.fault_iff, not_or, not_and, not_not]]

/-- The letter `a`, over and over. -/
def letters (n : ℕ) : Bytes := List.replicate n (byte 'a')

/-- The number of letters. -/
@[simp] lemma length_letters (n : ℕ) : (letters n).length = n := List.length_replicate

/-- 40000 letters fit into a literal. -/
lemma letters_lt : (letters 40000).length < 2 ^ 31 := by
  rw [length_letters]
  norm_num

/-- A FETCH reply with a body of 40000 letters. -/
def lettersReply (h : 1 < 2 ^ 31) : WireResponse :=
  .fetch ⟨1, h⟩ (.body ⟨[], List.not_mem_nil⟩ (letters 40000) letters_lt) []

/-- The beginning of the reply, with `n` of the letters. -/
def lettersHead (n : ℕ) : Bytes := ascii "* 1 FETCH (BODY[] \x7b40000\x7d\r\n" ++ letters n

/-- The length of the beginning. -/
lemma length_lettersHead (n : ℕ) : (lettersHead n).length = 27 + n := by
  rw [lettersHead, List.length_append, length_letters]
  rfl

/-- The reply is its beginning and the rest of the letters, with the end of the reply. -/
lemma lettersReply_wire {m n : ℕ} (h₁ : 1 < 2 ^ 31) (h : m + n = 40000) :
    (lettersReply h₁).wire = lettersHead m ++ (letters n ++ (ascii ")" ++ crlf)) := by
  have hheader : ascii "* 1 FETCH (BODY[] \x7b40000\x7d\r\n" = ascii "* " ++ (decimal 1 ++
      (ascii " FETCH (" ++ (ascii "BODY[" ++ (ascii "] \x7b" ++ (decimal 40000 ++
        (ascii "\x7d" ++ crlf)))))) := by decide +kernel
  have hletters : letters 40000 = letters m ++ letters n := by
    rw [← h]
    exact List.replicate_add ..
  rw [lettersReply, WireResponse.wire, WireResponse.line, Attribute.wire, length_letters, hletters,
    lettersHead, hheader]
  simp only [List.append_assoc, List.flatMap_nil, List.nil_append]

/-- A buffer that ends within the letters is not taken for complete. -/
lemma lettersHead_open {n : ℕ} (hn : 0 < n) : ¬ bufferComplete (lettersHead n) := by
  have hlen := length_lettersHead n
  obtain ⟨k, rfl⟩ := Nat.exists_eq_add_of_lt hn
  have hlast : (lettersHead (0 + k + 1)).getLast? = some (byte 'a') := by
    rw [lettersHead, letters, List.replicate_succ', ← List.append_assoc, List.getLast?_concat]
  rw [bufferComplete_iff (by omega)]
  rintro ⟨w, hw⟩
  rw [← hw, List.getLast?_append_of_ne_nil w (by decide)] at hlast
  cases hlast

/-- **A long message.** The first bytes of a FETCH reply that is longer than a chunk fill the
buffer, and the exception leaves the thread function. -/
theorem receive_long_fetch :
    lettersHead 31973 <+: (lettersReply (by decide)).wire ∧
      (lettersHead 31973).length = recvMessageMaxlen ∧
      ¬ Receiver.Survives ⟨[], false⟩ [.recv (.bytes (lettersHead 31973))] := by
  have hlen : (lettersHead 31973).length = recvMessageMaxlen := length_lettersHead 31973
  refine ⟨⟨_, (lettersReply_wire (m := 31973) (n := 8027) _ rfl).symm⟩, hlen, fun h => ?_⟩
  refine Receiver.survives_iff.mp h (Or.inl ?_)
  rw [Receiver.run_singleton_outcome]
  exact (append_ends ⟨[], false⟩ (lettersHead 31973)).escaped_iff.mpr
    ⟨lettersHead_open (by decide), hlen⟩

/-- What comes after the first chunk of the reply, with the beginning of the next line. -/
def lettersRest : Bytes := letters 8028 ++ (ascii ")" ++ crlf) ++ ascii "1 OK do"

/-- The two chunks are the reply and the beginning of a line. -/
lemma lettersHead_rest (h₁ : 1 < 2 ^ 31) : lettersHead 31972 ++ lettersRest =
    Stream.wire ([] ++ [lettersReply h₁]) ++ ascii "1 OK do" := by
  rw [List.nil_append, Stream.wire, List.flatMap_singleton,
    lettersReply_wire (m := 31972) (n := 8028) h₁ rfl, lettersRest]
  simp only [List.append_assoc]

/-- They are not taken for complete. -/
lemma lettersRest_open : ¬ bufferComplete (lettersHead 31972 ++ lettersRest) := by
  have hlast : (lettersHead 31972 ++ lettersRest).getLast? = some (byte 'o') := by
    rw [lettersRest, ← List.append_assoc, List.getLast?_append_of_ne_nil _ (by decide)]
    rfl
  have hlen : 2 ≤ (lettersHead 31972 ++ lettersRest).length := by
    rw [List.length_append, length_lettersHead]
    omega
  rw [bufferComplete_iff hlen]
  rintro ⟨w, hw⟩
  rw [← hw, List.getLast?_append_of_ne_nil w (by decide)] at hlast
  cases hlast

/-- The reply in two chunks with the beginning of the next line, after which the connection ends:
the loop is left with the reply in the buffer, which is neither handed over nor reported. -/
theorem receive_survives_iff_left : ¬ Receiver.Accounts ⟨[], false⟩
    [.recv (.bytes (lettersHead 31972)), .recv (.bytes lettersRest), .recv .closed] := by
  have hlen : (lettersHead 31972 ++ lettersRest).length = 40037 := by
    rw [List.length_append, length_lettersHead, lettersRest, List.length_append,
      List.length_append, length_letters]
    rfl
  have hshort : ¬ Overlong (lettersHead 31972) := by
    rintro ⟨-, hmax⟩
    rw [length_lettersHead, recvMessageMaxlen] at hmax
    omega
  have hshort' : ¬ Overlong (lettersHead 31972 ++ lettersRest) := by
    rintro ⟨-, hmax⟩
    rw [hlen, recvMessageMaxlen] at hmax
    omega
  have hrun := Receiver.run_kept (lettersHead_open (by decide)) hshort lettersRest_open hshort'
  have hleft : Receiver.LeftWith ⟨[], false⟩
      [.recv (.bytes (lettersHead 31972)), .recv (.bytes lettersRest), .recv .closed]
      (lettersHead 31972 ++ lettersRest) := by
    refine ⟨[.recv (.bytes (lettersHead 31972)), .recv (.bytes lettersRest)], .closed, [], [],
      ⟨lettersHead 31972 ++ lettersRest, false⟩, List.prefix_rfl, hrun, rfl, ?_, Or.inr rfl,
      lettersRest_open, hshort'⟩
    exact (List.append_nil _).symm
  have hwire : ∀ h₁, (lettersReply h₁).wire.length = 40030 := by
    intro h₁
    rw [lettersReply_wire (m := 31972) (n := 8028) h₁ rfl, List.length_append,
      length_lettersHead, List.length_append, length_letters]
    rfl
  have hholds : HoldsLongFetch (lettersHead 31972 ++ lettersRest) := by
    refine ⟨[], lettersReply (by decide), ascii "1 OK do", ⟨rfl, ?_⟩, ?_, lettersHead_rest _⟩
    · rw [hwire, recvMessageMaxlen]
      norm_num
    · intro u hu
      rw [List.mem_singleton.mp hu, hwire]
      norm_num
  have hfit : Receiver.Tests ⟨[], false⟩
      [.recv (.bytes (lettersHead 31972)), .recv (.bytes lettersRest), .recv .closed]
      fun data => data.length < 2 ^ 31 := by
    refine Receiver.tests_of_received _ _ ?_
    have hbytes : receivedBytes [.recv (.bytes (lettersHead 31972)), .recv (.bytes lettersRest),
        .recv .closed] = lettersHead 31972 ++ lettersRest := by
      simp [receivedBytes, Input.bytes]
    rw [hbytes, List.nil_append, hlen]
    norm_num
  exact fun h => ((receive_survives_iff ⟨[], false⟩ _).2.2 hfit).mp h _ hleft hholds

end Imapcl
