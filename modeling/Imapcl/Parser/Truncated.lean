import Imapcl.Foundation.Cut
import Imapcl.Parser.Stream

set_option relaxedAutoImplicit false
set_option autoImplicit false

/-!
# Parsing a response that has not arrived in full

What `parse_next` does where the data end inside a response. If the end comes right after a line
feed, or after the first byte, no response is stored: an exception is thrown, or the parser reads
beyond the data. The line feed may be one of a FLAGS list, of a section, of the header of a
literal or of its content; outside of these a response has no line feed but its last byte.

## Main definitions

* `Imapcl.Rejects` — a method throws, or fails and restores its start.

## Main results

* `Imapcl.parseNext_cut` — a response that is cut off after a line feed.
* `Imapcl.parseNext_first` — the first byte of a response alone.
-/

namespace Imapcl

open StateExcept Cursor

variable {d t u v w : Bytes} {p q : ℕ} {κ : List ℤ} {r : Option Response} {m : Bytes}

/-! ## Methods that do not succeed -/

/-- From the state `s` the method does not answer `true`: it aborts, or it answers `false` with the
position `p` and the stack `κ`, having changed at most the message contents. -/
def Rejects (x : Parser Bool) (s : ResponseParser) (p : ℕ) (κ : List ℤ) : Prop :=
  (∃ e, x.run s = .error e) ∨
    ∃ m, x.run s = .ok (false, ⟨s.data, p, κ, s.parsedResponse, m⟩)

/-- A required part that is rejected makes the method fail. -/
lemma Rejects.expect {x rest : Parser Bool} (hq : q < 2 ^ 31)
    (h : Rejects x ⟨d, p, wrap32 q :: κ, r, m⟩ p (wrap32 q :: κ)) :
    Rejects (expect x rest) ⟨d, p, wrap32 q :: κ, r, m⟩ q κ := by
  rcases h with ⟨e, he⟩ | ⟨m', hf⟩
  · exact Or.inl ⟨e, ifM_run_error he⟩
  · refine Or.inr ⟨m', ?_⟩
    rw [Imapcl.expect, ifM_run_false hf, parseFail_run hq]

/-- A rejected alternative leaves the choice to the next one. -/
lemma Rejects.ifM {x y z : Parser Bool} {p' : ℕ} {κ' : List ℤ}
    (h : Rejects x ⟨d, p, κ, r, m⟩ p κ) (hz : ∀ m', Rejects z ⟨d, p, κ, r, m'⟩ p' κ') :
    Rejects (StateExcept.ifM x y z) ⟨d, p, κ, r, m⟩ p' κ' := by
  rcases h with ⟨e, he⟩ | ⟨m', hf⟩
  · exact Or.inl ⟨e, ifM_run_error he⟩
  · rw [Rejects, ifM_run_false hf]
    exact hz m'

/-- A method that ends in `parse_fail`. -/
lemma Rejects.parseFail (hq : q < 2 ^ 31) :
    Rejects parseFail ⟨d, p, wrap32 q :: κ, r, m⟩ q κ :=
  Or.inr ⟨m, parseFail_run hq⟩

/-- A method that leads to a rejected one is rejected. -/
lemma Rejects.of_run {x y : Parser Bool} {p' q : ℕ} {κ' κ'' : List ℤ} {m' : Bytes}
    (h : Rejects y ⟨d, p', κ', r, m'⟩ q κ'')
    (hrun : x.run ⟨d, p, κ, r, m⟩ = y.run ⟨d, p', κ', r, m'⟩) :
    Rejects x ⟨d, p, κ, r, m⟩ q κ'' := by
  rw [Rejects, hrun]
  exact h

/-! ## Brackets and literals -/

/-- A bracket that is not closed throws. -/
lemma parseBracketed_open {o c : Char} {what : String} (h : At d p ([byte o] ++ w))
    (hw : byte c ∉ w) :
    (parseBracketed o c what).run ⟨d, p, κ, r, m⟩ =
      .error (.thrown (.runtimeError (ascii what))) := by
  have hlen := h.skip.length_eq
  rw [parseBracketed, Imapcl.expect, ifM_run_true (matchStr_at h),
    run_bind_of_ok (skipTo_end h.skip hw), run_bind_of_ok (StateT.run_get _),
    if_pos (show d.length ≤ p + [byte o].length + w.length by omega)]
  rfl

/-- A literal whose bytes have not all arrived is read beyond the end of the data. -/
lemma readLiteral_short {n : ℕ} (h : At d p w) (hw : w.length < n) (hn : p + n < 2 ^ 64) :
    (readLiteral n).run ⟨d, p, κ, r, m⟩ = .error .undefined := by
  have hlen := h.length_eq
  rw [readLiteral, run_bind_of_ok (StateT.run_get _), Int.toNat_natCast]
  by_cases hb : d.length + 1 < p + n
  · rw [if_pos (show d.length + 1 < p + n from hb)]
    rfl
  · have hpos : toSizeT ((p : ℤ) + (n : ℤ)) = p + n := by
      rw [toSizeT]
      omega
    have hsize : toSizeT (n : ℤ) = n := by
      rw [toSizeT]
      omega
    have htake : ((d.drop p ++ [0]).take n).length = n := by
      rw [h.2, List.length_take, List.length_append, List.length_singleton]
      omega
    rw [if_neg (show ¬ d.length + 1 < p + n from hb)]
    show (set _ >>= _ : Parser Bool).run _ = _
    rw [htake, hpos, hsize, run_bind_of_ok (StateT.run_set _ _), if_neg (Nat.lt_irrefl _),
      run_bind_of_error (charAt_run_beyond (show d.length < p + n by omega))]

/-! ## Message attributes -/

/-- Flags that are cut off inside the list throw. -/
lemma parseMsgAttDynamic_open (h : At d p (ascii "FLAGS (" ++ w)) (hw : byte ')' ∉ w) :
    parseMsgAttDynamic.run ⟨d, p, κ, r, m⟩ =
      .error (.thrown (.runtimeError (ascii "Unmatched bracket."))) := by
  have hat : At d p (ascii "FLAGS" ++ (ascii " " ++ ([byte '('] ++ w))) := h
  rw [parseMsgAttDynamic, run_bind_of_ok savePos_run, expectMatch_at hat, expectMatch_at hat.skip,
    parseBracketed_open hat.skip.skip hw]

/-- A body that is cut off inside its section throws. -/
lemma parseMsgAttStatic_open (h : At d p (ascii "BODY[" ++ w)) (hw : byte ']' ∉ w) :
    parseMsgAttStatic.run ⟨d, p, κ, r, m⟩ =
      .error (.thrown (.runtimeError (ascii "Unmatched bracket."))) := by
  have hat : At d p (ascii "BODY" ++ ([byte '['] ++ w)) := h
  rw [parseMsgAttStatic_section hat, ifM_run_error (by
    rw [parseSection, run_bind_of_ok savePos_run, parseBracketed_open hat.skip hw])]

/-- `parse_nstring` on a literal whose bytes have not all arrived. -/
lemma parseNstring_short {n : ℕ} (hn : n < 2 ^ 31)
    (h : At d p (ascii "\x7b" ++ (decimal n ++ (ascii "\x7d" ++ (crlf ++ w)))))
    (hw : w.length < n) (hd : d.length < 2 ^ 31) :
    parseNstring.run ⟨d, p, κ, r, m⟩ = .error .undefined := by
  have hbody := h.skip.skip.skip.skip
  have hpos := hbody.1
  have hliteral : parseLiteral.run ⟨d, p, wrap32 p :: wrap32 p :: κ, r, m⟩ =
      .error .undefined := by
    have hvalue := numeralValue_decimal n
    rw [parseLiteral_header h (decimal_ne_nil n) (isDigit_of_mem_decimal n) (by omega), hvalue,
      readLiteral_short hbody hw (by omega)]
  rw [parseNstring, run_bind_of_ok savePos_run,
    ifM_run_false (matchStr_not h (not_prefix_append (by decide))), expect, ifM_run_error (by
      rw [parseString, run_bind_of_ok savePos_run, expect, ifM_run_error hliteral])]

/-- A body that is cut off inside its literal is read beyond the end of the data. -/
lemma parseMsgAttStatic_short (s : Free (byte ']')) {n : ℕ} (hn : n < 2 ^ 31)
    (h : At d p (ascii "BODY" ++ ([byte '['] ++ (s.1 ++ ([byte ']'] ++ (ascii " " ++
      (ascii "\x7b" ++ (decimal n ++ (ascii "\x7d" ++ (crlf ++ w))))))))))
    (hw : w.length < n) (hd : d.length < 2 ^ 31) :
    parseMsgAttStatic.run ⟨d, p, κ, r, m⟩ = .error .undefined := by
  rw [parseMsgAttStatic_nstring s h, expect,
    ifM_run_error (parseNstring_short hn h.skip.skip.skip.skip.skip hw hd)]

/-- An attribute that is cut off after a line feed is not read.

**Proof sketch.** The cut lies in the flags, in the section, or after the header of the literal:
the first two leave a bracket open, in the third bytes of the literal are missing. -/
lemma parseMsgAttItem_cut (a : Attribute) (hcut : Cut lf t a.wire) (h : At d p t)
    (hd : d.length < 2 ^ 31) : ∃ e, parseMsgAttItem.run ⟨d, p, κ, r, m⟩ = .error e := by
  have hp : p < 2 ^ 31 := Nat.lt_of_le_of_lt h.1 hd
  cases a with
  | flags s =>
    rw [Attribute.wire, List.append_assoc] at hcut
    obtain ⟨t', rfl, hcut'⟩ := hcut.skip (by decide)
    have hfree : byte ')' ∉ t' := fun hm =>
      s.2 ((Cut.left_of_last hcut'.isPrefix hcut'.last (by decide)).subset hm)
    exact ⟨_, ifM_run_error (parseMsgAttDynamic_open h hfree)⟩
  | uid n =>
    refine absurd hcut.mem ?_
    rw [Attribute.wire, List.mem_append, not_or]
    exact ⟨by decide, not_mem_decimal rfl⟩
  | body s w hw =>
    have hwire : (Attribute.body s w hw).wire = ascii "BODY[" ++ (s.1 ++ ((ascii "] \x7b" ++
        (decimal w.length ++ (ascii "\x7d" ++ [cr]))) ++ ([lf] ++ w))) := by
      simp only [Attribute.wire, List.append_assoc]
      rfl
    have hheader : lf ∉ ascii "] \x7b" ++ (decimal w.length ++ (ascii "\x7d" ++ [cr])) := by
      rw [List.mem_append, List.mem_append, not_or, not_or]
      exact ⟨by decide, not_mem_decimal rfl, by decide⟩
    rw [hwire] at hcut
    obtain ⟨t', rfl, hcut'⟩ := hcut.skip (by decide)
    rw [parseMsgAttItem,
      ifM_run_false (parseMsgAttDynamic_not h hp (not_prefix_append (by decide)))]
    rcases hcut'.append with hs | rfl | ⟨t₁, rfl, hcut₁⟩
    · exact ⟨_, parseMsgAttStatic_open h fun hm => s.2 (hs.isPrefix.subset hm)⟩
    · exact ⟨_, parseMsgAttStatic_open h s.2⟩
    · obtain ⟨t₂, rfl, hcut₂⟩ := hcut₁.skip hheader
      obtain ⟨w', rfl⟩ : ∃ w', t₂ = lf :: w' := by
        rcases List.prefix_cons_iff.mp hcut₂.isPrefix with rfl | ⟨w', rfl, -⟩
        · exact absurd rfl hcut₂.ne_nil
        · exact ⟨w', rfl⟩
      have hshort := hcut₂.length_lt
      rw [List.singleton_append, List.length_cons, List.length_cons] at hshort
      refine ⟨_, parseMsgAttStatic_short s hw ?_ (Nat.lt_of_succ_lt_succ hshort) hd⟩
      simp only [List.append_assoc] at h
      exact h

/-- What follows an attribute begins with a space, if it is not cut off. -/
lemma attributes_head {as : List Attribute}
    (h : t <+: as.flatMap fun a => ascii " " ++ a.wire) :
    (∀ c, t.head? = some c → isDigit c = false) ∧ ¬ 128 ≤ t.headD 0 := by
  obtain rfl | ⟨u, rfl⟩ : t = [] ∨ ∃ u, t = byte ' ' :: u := by
    cases as with
    | nil => exact Or.inl (List.prefix_nil.mp h)
    | cons a as =>
      rcases List.prefix_cons_iff.mp h with rfl | ⟨u, rfl, -⟩
      · exact Or.inl rfl
      · exact Or.inr ⟨u, rfl⟩
  · exact ⟨by simp, by decide⟩
  · exact ⟨head_cons u rfl, (by decide : ¬ 128 ≤ byte ' ')⟩

/-- The loop of `parse_msg_att` at the end of the data. -/
lemma msgAttLoop_end (h : At d p []) {fuel : ℕ} (hf : 0 < fuel) :
    (repeatWhile .diverges (ifM (matchStr (ascii " ")) parseMsgAttItem (pure false)) fuel).run
      ⟨d, p, κ, r, m⟩ = .ok ((), ⟨d, d.length, κ, r, m⟩) := by
  obtain ⟨k, rfl⟩ : ∃ k, fuel = k + 1 := ⟨fuel - 1, by omega⟩
  rw [repeatWhile_run_false (by
    rw [ifM_run_false (matchStr_not h (by decide))]
    rfl), h.eq_length]

/-- The loop of `parse_msg_att` on attributes that are cut off after a line feed: it aborts, or it
reads them to the end of the data.

**Proof sketch.** Induction on the attributes. The cut lies inside the first attribute, right after
it, or behind it; the induction hypothesis covers the last case. -/
lemma msgAttLoop_cut (as : List Attribute) (hd : d.length < 2 ^ 31) :
    ∀ (t : Bytes) (p fuel : ℕ) (m : Bytes),
      t <+: (as.flatMap fun a => ascii " " ++ a.wire) → t = [] ∨ t.getLast? = some lf →
      At d p t → t.length < fuel →
      (∃ e, (repeatWhile .diverges (ifM (matchStr (ascii " ")) parseMsgAttItem (pure false))
          fuel).run ⟨d, p, κ, r, m⟩ = .error e) ∨
        ∃ m', (repeatWhile .diverges (ifM (matchStr (ascii " ")) parseMsgAttItem (pure false))
          fuel).run ⟨d, p, κ, r, m⟩ = .ok ((), ⟨d, d.length, κ, r, m'⟩) := by
  induction as with
  | nil =>
    intro t p fuel m ht _ h hf
    obtain rfl := List.prefix_nil.mp ht
    exact Or.inr ⟨m, msgAttLoop_end h (by omega)⟩
  | cons a as ih =>
    intro t p fuel m ht hlast h hf
    rcases hlast with rfl | hlast
    · exact Or.inr ⟨m, msgAttLoop_end h (by omega)⟩
    obtain ⟨k, rfl⟩ : ∃ k, fuel = k + 1 := ⟨fuel - 1, by omega⟩
    rw [List.flatMap_cons, List.append_assoc] at ht
    obtain ⟨t', rfl, ht', hlast'⟩ := Cut.skip_of_last ht hlast (by decide)
    rcases Cut.cut_or_append ht' hlast' with hcut | ⟨t₁, rfl, ht₁, hlast₁⟩
    · obtain ⟨e, he⟩ := parseMsgAttItem_cut (κ := κ) (r := r) (m := m) a hcut h.skip hd
      exact Or.inl ⟨e, repeatWhile_run_error (by rw [ifM_run_true (matchStr_at h), he])⟩
    · have hhead := attributes_head ht₁
      have hpos := h.skip.skip.1
      rw [repeatWhile_run_true (by
        rw [ifM_run_true (matchStr_at h), readsItem_attribute a h.skip hhead.1 hhead.2 (by omega)])]
      rw [List.length_append, List.length_append, show (ascii " ").length = 1 from rfl] at hf
      exact ih t₁ _ k _ ht₁ hlast₁ h.skip.skip (by omega)

/-- `parse_msg_att` on attributes that are cut off after a line feed. -/
lemma parseMsgAtt_cut (first : Attribute) (rest : List Attribute) (hd : d.length < 2 ^ 31)
    (ht : t <+: first.wire ++ rest.flatMap fun a => ascii " " ++ a.wire)
    (hlast : t.getLast? = some lf) (h : At d p (ascii "(" ++ t)) :
    Rejects parseMsgAtt ⟨d, p, κ, r, m⟩ p κ := by
  have hp : p < 2 ^ 31 := Nat.lt_of_le_of_lt h.1 hd
  rcases Cut.cut_or_append ht hlast with hcut | ⟨t₁, rfl, ht₁, hlast₁⟩
  · obtain ⟨e, he⟩ := parseMsgAttItem_cut (κ := wrap32 p :: κ) (r := r) (m := m) first hcut
      h.skip hd
    refine Or.inl ⟨e, ?_⟩
    rw [parseMsgAtt, run_bind_of_ok savePos_run, expectMatch_at h, expect, ifM_run_error he]
  · have hrest := h.skip.skip
    have hhead := attributes_head ht₁
    have hlen := hrest.length_eq
    have hitem := readsItem_attribute first (κ := wrap32 p :: κ) (r := r) (m := m) h.skip hhead.1
      hhead.2 (Nat.lt_of_le_of_lt hrest.1 hd)
    have hend : At d d.length ([] : Bytes) := ⟨Nat.le_refl _, List.drop_length⟩
    have hloop := msgAttLoop_cut (κ := wrap32 p :: κ) (r := r) rest hd t₁ _ (d.length + 2)
      (first.contents m) ht₁ hlast₁ hrest (by omega)
    rcases hloop with ⟨e, he⟩ | ⟨m', hm'⟩
    · refine Or.inl ⟨e, ?_⟩
      rw [parseMsgAtt, run_bind_of_ok savePos_run, expectMatch_at h, expect, ifM_run_true hitem,
        whileParser, run_bind_of_error (run_bind_of_ok (StateT.run_get _) |>.trans he)]
    · refine Or.inr ⟨m', ?_⟩
      rw [parseMsgAtt, run_bind_of_ok savePos_run, expectMatch_at h, expect, ifM_run_true hitem,
        whileParser, run_bind_of_ok (run_bind_of_ok (StateT.run_get _) |>.trans hm'),
        expectMatch_not hend hp (by decide)]

/-! ## Responses -/

/-- `parse_message_data` on a FETCH response whose attributes are rejected. -/
lemma parseMessageData_reject (n : ℕ)
    (h : At d p (decimal n ++ (ascii " " ++ (ascii "FETCH" ++ (ascii " " ++ w)))))
    (hp : p < 2 ^ 31) (hatts : ∀ q κ, At d q w → Rejects parseMsgAtt ⟨d, q, κ, r, []⟩ q κ) :
    Rejects parseMessageData ⟨d, p, κ, r, m⟩ p κ := by
  have hword := h.skip.skip
  have hrun : parseMessageData.run ⟨d, p, κ, r, m⟩ = (expect parseMsgAtt do
      setResponse (.fetch (← get).messageContents)
      parseSuccess).run ⟨d, p + (decimal n).length + (ascii " ").length +
        (ascii "FETCH").length + (ascii " ").length, wrap32 p :: κ, r, []⟩ := by
    rw [parseMessageData, run_bind_of_ok savePos_run, expectNumber_digits (digits_decimal n) h (head_cons _ rfl),
      expectMatch_at h.skip, ifM_run_false (matchStr_not hword (not_prefix_append (by decide))),
      ifM_run_true (matchStr_at hword)]
    exact expectMatch_at hword.skip
  exact ((hatts _ (wrap32 p :: κ) hword.skip.skip).expect hp).of_run hrun

/-- `parse_response_tagged` before something that is no tag. -/
lemma parseResponseTagged_not (h : At d p v) (hp : p < 2 ^ 31)
    (hv : ∀ c, v.head? = some c → isAlnum c = false) :
    parseResponseTagged.run ⟨d, p, κ, r, m⟩ = .ok (false, ⟨d, p, κ, r, m⟩) := by
  rw [parseResponseTagged, run_bind_of_ok savePos_run, run_bind_of_ok (StateT.run_get _), expect,
    ifM_run_false (parseTag_not h hv), parseFail_run hp]

/-- `parse_response_done` before an untagged response other than BYE. -/
lemma parseResponseDone_not (h : At d p (ascii "* " ++ v)) (hp : p < 2 ^ 31)
    (hv : ¬ ascii "BYE" <+: v) (hd : d.length < 2 ^ 31) :
    parseResponseDone.run ⟨d, p, κ, r, m⟩ = .ok (false, ⟨d, p, κ, r, m⟩) := by
  have hat : At d p (ascii "*" ++ (ascii " " ++ v)) := h
  have hfatal : parseResponseFatal.run ⟨d, p, wrap32 p :: κ, r, m⟩ =
      .ok (false, ⟨d, p, wrap32 p :: κ, r, m⟩) := by
    rw [parseResponseFatal, run_bind_of_ok savePos_run, expectMatch_at hat,
      expectMatch_at hat.skip, expect, ifM_run_false (parseRespCondBye_not hat.skip.skip
        (Nat.lt_of_le_of_lt hat.skip.skip.1 hd) hv), parseFail_run hp]
  rw [parseResponseDone, run_bind_of_ok savePos_run,
    ifM_run_false (parseResponseTagged_not h hp (head_cons _ rfl)), ifM_run_false hfatal,
    parseFail_run hp]

/-- `parse_resp_cond_auth` before something that is no greeting. -/
lemma parseRespCondAuth_not (h : At d p v) (hp : p < 2 ^ 31) (ho : ¬ ascii "OK" <+: v)
    (hr : ¬ ascii "PREAUTH" <+: v) :
    parseRespCondAuth.run ⟨d, p, κ, r, m⟩ = .ok (false, ⟨d, p, κ, r, m⟩) := by
  rw [parseRespCondAuth, run_bind_of_ok savePos_run]
  show (ifM _ _ (ifM _ _ _)).run _ = _
  rw [ifM_run_false (matchStr_not h ho), ifM_run_false (matchStr_not h hr), parseFail_run hp]

/-- `parse_greeting` before an untagged response that is no greeting. -/
lemma parseGreeting_not (h : At d p (ascii "* " ++ v)) (hp : p < 2 ^ 31)
    (ho : ¬ ascii "OK" <+: v) (hr : ¬ ascii "PREAUTH" <+: v) (hd : d.length < 2 ^ 31) :
    parseGreeting.run ⟨d, p, κ, r, m⟩ = .ok (false, ⟨d, p, κ, r, m⟩) := by
  have hat : At d p (ascii "*" ++ (ascii " " ++ v)) := h
  rw [parseGreeting, run_bind_of_ok savePos_run, expectMatch_at hat, expectMatch_at hat.skip,
    expect, ifM_run_false (parseRespCondAuth_not hat.skip.skip
      (Nat.lt_of_le_of_lt hat.skip.skip.1 hd) ho hr), parseFail_run hp]

/-- `parse_next` where every alternative fails. -/
lemma parseNext_throw (h : p < d.length)
    (hresponse : Rejects parseResponse ⟨d, p, κ, r, m⟩ p κ)
    (hgreeting : ∀ m', parseGreeting.run ⟨d, p, κ, r, m'⟩ = .ok (false, ⟨d, p, κ, r, m'⟩)) :
    ∃ e, parseNext.run ⟨d, p, κ, r, m⟩ = .error e := by
  rw [parseNext, run_bind_of_ok (StateT.run_get _), if_neg (Nat.not_le.mpr h)]
  rcases hresponse with ⟨e, he⟩ | ⟨m', hm'⟩
  · exact ⟨e, ifM_run_error he⟩
  · rw [ifM_run_false hm', ifM_run_false (hgreeting m')]
    exact ⟨_, rfl⟩

/-- A FETCH response whose attributes are rejected. -/
lemma parseNext_fetchReject (n : ℕ) (hd : d.length < 2 ^ 31)
    (h : At d p (ascii "* " ++ (decimal n ++ (ascii " " ++ (ascii "FETCH" ++ (ascii " " ++ w))))))
    (hatts : ∀ q κ, At d q w → Rejects parseMsgAtt ⟨d, q, κ, r, []⟩ q κ) :
    ∃ e, parseNext.run ⟨d, p, κ, r, m⟩ = .error e := by
  have hp : p < 2 ^ 31 := Nat.lt_of_le_of_lt h.1 hd
  have hp' := Nat.lt_of_le_of_lt h.skip.1 hd
  have hlen := h.length_eq
  rw [List.length_append, show (ascii "* ").length = 2 from rfl] at hlen
  refine parseNext_throw (by omega) ?_ fun m' => parseGreeting_not h hp
    (not_prefix_digits (digits_decimal n) (by rfl)) (not_prefix_digits (digits_decimal n) (by rfl)) hd
  have hmessage : Rejects parseMessageData
      ⟨d, p + (ascii "* ").length, wrap32 p :: wrap32 p :: κ, r, m⟩ _ _ :=
    parseMessageData_reject n h.skip hp' hatts
  have hdata : Rejects parseResponseData ⟨d, p, wrap32 p :: κ, r, m⟩ p (wrap32 p :: κ) := by
    rw [Rejects, parseResponseData_data h hp' (digits_head (digits_decimal n)),
      ifM_run_false (parseMailboxData_not (digits_decimal n) h.skip hp')]
    exact hmessage.ifM fun m' => Rejects.parseFail hp
  rw [Rejects, parseResponse, run_bind_of_ok savePos_run,
    ifM_run_false (parseContinueReq_not h hp (not_prefix_append (by decide)))]
  refine hdata.ifM fun m' => ?_
  rw [Rejects, ifM_run_false (parseResponseDone_not h hp (not_prefix_digits (digits_decimal n) (by rfl)) hd)]
  exact Rejects.parseFail hp

/-- A FLAGS response that is cut off inside its list. -/
lemma parseNext_flagsCut (hd : d.length < 2 ^ 31) (hw : byte ')' ∉ w)
    (h : At d p (ascii "* " ++ (ascii "FLAGS (" ++ w))) :
    ∃ e, parseNext.run ⟨d, p, κ, r, m⟩ = .error e := by
  have hp : p < 2 ^ 31 := Nat.lt_of_le_of_lt h.1 hd
  have hlen := h.length_eq
  rw [List.length_append, show (ascii "* ").length = 2 from rfl] at hlen
  have hword : At d (p + (ascii "* ").length) (ascii "FLAGS" ++ (ascii " " ++ ([byte '('] ++ w))) :=
    h.skip
  have hmailbox : ∀ κ, parseMailboxData.run ⟨d, p + (ascii "* ").length, κ, r, m⟩ =
      .error (.thrown (.runtimeError (ascii "Didn't understand the server's response!"))) := by
    intro κ
    rw [parseMailboxData, run_bind_of_ok savePos_run, ifM_run_true (matchStr_at hword),
      expectMatch_at hword.skip, expect, ifM_run_error (by
        rw [parseFlagList, run_bind_of_ok savePos_run, parseBracketed_open hword.skip.skip hw])]
  refine ⟨.thrown (.runtimeError (ascii "Didn't understand the server's response!")), ?_⟩
  rw [parseNext, run_bind_of_ok (StateT.run_get _), if_neg (show ¬ d.length ≤ p by omega),
    ifM_run_error (by
      rw [parseResponse, run_bind_of_ok savePos_run,
        ifM_run_false (parseContinueReq_not h hp (not_prefix_append (by decide))),
        ifM_run_error (by
          rw [parseResponseData_data h (Nat.lt_of_le_of_lt h.skip.1 hd) (head_cons _ rfl),
            ifM_run_error (hmailbox _)])])]

/-- A cut after a line feed lies before the CRLF that ends the line. -/
lemma Cut.of_line (h : Cut lf t (w ++ crlf)) : t <+: w := by
  rcases h.append with h' | rfl | ⟨t', rfl, h'⟩
  · exact h'.isPrefix
  · exact List.prefix_refl t
  · exfalso
    rcases List.prefix_cons_iff.mp h'.isPrefix with rfl | ⟨t₁, rfl, h₁⟩
    · exact h'.ne_nil rfl
    · rcases List.prefix_cons_iff.mp h₁ with rfl | ⟨t₂, rfl, h₂⟩
      · cases h'.last
      · obtain rfl := List.prefix_nil.mp h₂
        exact h'.ne rfl

/-- The status word has no line feed. -/
lemma lf_not_mem_word (c : Cond) : lf ∉ c.word := by cases c <;> decide

/-- A status text has no line feed. -/
lemma lf_not_mem_text (t : StatusText) : lf ∉ t.bytes := fun h => (t.text.line lf h).2 rfl

/-- A response that is cut off after a line feed is not read.

**Proof sketch.** The lines of most kinds have no line feed, so a cut after one is no proper prefix.
In a FLAGS response the cut lies in the list, in a FETCH response in the attributes. -/
theorem parseNext_cut (x : WireResponse) (hcut : Cut lf t x.wire) (h : At d p t)
    (hd : d.length < 2 ^ 31) : ∃ e, parseNext.run ⟨d, p, κ, r, m⟩ = .error e := by
  have hline : t <+: x.line := Cut.of_line hcut
  have hmem : lf ∈ x.line := hline.subset (List.mem_of_getLast? hcut.last)
  cases x with
  | tagged tag c t =>
    have htag : lf ∉ tag.bytes := fun hm => absurd (tag.alnum lf hm) (by decide)
    simp only [WireResponse.line, List.mem_append, htag, lf_not_mem_word, lf_not_mem_text,
      or_false, false_or] at hmem
    exact absurd hmem (by decide)
  | untagged c t =>
    simp only [WireResponse.line, List.mem_append, lf_not_mem_word, lf_not_mem_text, or_false]
      at hmem
    exact absurd hmem (by decide)
  | bye t =>
    simp only [WireResponse.line, List.mem_append, lf_not_mem_text, or_false] at hmem
    exact absurd hmem (by decide)
  | flags s =>
    obtain ⟨t₁, rfl, ht₁, hlast₁⟩ := Cut.skip_of_last (u := ascii "* FLAGS (")
      (v := s.1 ++ ascii ")") (by rw [← List.append_assoc]; exact hline) hcut.last (by decide)
    have hfree : byte ')' ∉ t₁ := fun hm =>
      s.2 ((Cut.left_of_last ht₁ hlast₁ (by decide)).subset hm)
    exact parseNext_flagsCut hd hfree h
  | «exists» n =>
    simp only [WireResponse.line, List.mem_append,
      not_mem_decimal (show isDigit lf = false from rfl), or_false] at hmem
    exact absurd hmem (by decide)
  | recent n =>
    simp only [WireResponse.line, List.mem_append,
      not_mem_decimal (show isDigit lf = false from rfl), or_false] at hmem
    exact absurd hmem (by decide)
  | search ns =>
    rw [WireResponse.line, List.mem_append, List.mem_flatMap] at hmem
    rcases hmem with hmem | ⟨n, -, hmem⟩
    · exact absurd hmem (by decide)
    · rw [List.mem_append] at hmem
      exact absurd hmem (not_or.mpr ⟨by decide, not_mem_decimal rfl⟩)
  | fetch n first rest =>
    have hatts := Cut.left_of_last hline hcut.last (by decide)
    rw [List.append_assoc] at hatts
    obtain ⟨t₁, rfl, ht₁, hlast₁⟩ := Cut.skip_of_last hatts hcut.last (by
      rw [List.mem_append, List.mem_append, not_or, not_or]
      exact ⟨⟨by decide, not_mem_decimal rfl⟩, by decide⟩)
    simp only [List.append_assoc] at h
    exact parseNext_fetchReject n.1 hd h fun q κ hat => parseMsgAtt_cut first rest hd ht₁ hlast₁ hat

/-! ## The first byte of a response -/

/-- A single byte is no untagged response. -/
lemma starSpace_not {c : UInt8} {rest : Parser Bool} (h : At d p [c])
    (hq : q < 2 ^ 31) :
    (expectMatch "*" (expectMatch " " rest)).run ⟨d, p, wrap32 q :: κ, r, m⟩ =
      .ok (false, ⟨d, q, κ, r, m⟩) := by
  by_cases hc : c = byte '*'
  · subst hc
    have hat : At d p (ascii "*" ++ []) := h
    rw [expectMatch_at hat, expectMatch_not hat.skip hq (by decide)]
  · have hstar : ¬ ascii "*" <+: [c] := not_prefix_cons fun hs => hc hs.symm
    rw [expectMatch_not h hq hstar]

/-- A single byte is no tagged response. -/
lemma parseResponseTagged_single {c : UInt8} (h : At d p [c]) (hp : p < 2 ^ 31) :
    parseResponseTagged.run ⟨d, p, κ, r, m⟩ = .ok (false, ⟨d, p, κ, r, m⟩) := by
  by_cases hc : isAlnum c = true
  · have hw : (d.drop p).takeWhile isAlnum = [c] := by
      rw [h.2, List.takeWhile_cons, if_pos hc, List.takeWhile_nil]
    have hend : At d (p + 1) [] := h.next
    rw [parseResponseTagged, run_bind_of_ok savePos_run, run_bind_of_ok (StateT.run_get _), expect,
      ifM_run_true (by
        rw [parseTag, run_bind_of_ok (scanWhile_run h.1), hw]
        rfl), run_bind_of_ok (StateT.run_get _), run_bind_of_ok (substr_run h.1)]
    exact expectMatch_not hend hp (by decide)
  · exact parseResponseTagged_not h hp (head_cons _ (by simpa using hc))

/-- The first byte of a response is not read as a response. -/
theorem parseNext_first {c : UInt8} (h : At d p [c]) (hp : p < 2 ^ 31)
    (hc : c = byte '*' ∨ isAlnum c = true) :
    ∃ e, parseNext.run ⟨d, p, κ, r, m⟩ = .error e := by
  have hlen := h.length_eq
  rw [List.length_singleton] at hlen
  have hplus : ¬ ascii "+" <+: [c] := by
    refine not_prefix_cons fun hs => ?_
    rcases hc with rfl | hc
    · cases hs
    · rw [← hs] at hc
      cases hc
  have hdata : ∀ κ, parseResponseData.run ⟨d, p, κ, r, m⟩ =
      .ok (false, ⟨d, p, κ, r, m⟩) := by
    intro κ
    rw [parseResponseData, run_bind_of_ok savePos_run, starSpace_not h hp]
  have hdone : ∀ κ, parseResponseDone.run ⟨d, p, κ, r, m⟩ =
      .ok (false, ⟨d, p, κ, r, m⟩) := by
    intro κ
    rw [parseResponseDone, run_bind_of_ok savePos_run,
      ifM_run_false (parseResponseTagged_single h hp), ifM_run_false (by
        rw [parseResponseFatal, run_bind_of_ok savePos_run, starSpace_not h hp]), parseFail_run hp]
  refine parseNext_throw (by omega) (Or.inr ⟨m, ?_⟩) fun m' => ?_
  · rw [parseResponse, run_bind_of_ok savePos_run, ifM_run_false (parseContinueReq_not h hp hplus),
      ifM_run_false (hdata _), ifM_run_false (hdone _), parseFail_run hp]
  · rw [parseGreeting, run_bind_of_ok savePos_run, starSpace_not h hp]

end Imapcl
