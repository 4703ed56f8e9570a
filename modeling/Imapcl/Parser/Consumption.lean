import Imapcl.Parser.Elements

set_option relaxedAutoImplicit false
set_option autoImplicit false

/-!
# What the responses consume

The runs of the nonterminals above the elements: mailbox data, message attributes and data, and
whole responses.

## Main results

* `Imapcl.parseMailboxData_flags`, `Imapcl.parseMailboxData_search` — mailbox data.
* `Imapcl.readsItem_attribute`, `Imapcl.parseMsgAtt_at` — message attributes.
* `Imapcl.parseNext_at` — a whole response.
-/

namespace Imapcl

open StateExcept Cursor

variable {d u v w : Bytes} {p q : ℕ} {κ : List ℤ} {r : Option Response} {m : Bytes}

/-! ## Mailbox data -/

/-- A bracketed word without the closing bracket. -/
lemma parseBracketed_at {o c : Char} {what : String}
    (h : At d p ([byte o] ++ (w ++ ([byte c] ++ v)))) (hw : byte c ∉ w) :
    (parseBracketed o c what).run ⟨d, p, wrap32 q :: κ, r, m⟩ =
      .ok (true, ⟨d, p + [byte o].length + w.length + [byte c].length, κ, r, m⟩) := by
  have hlen := h.skip.length_eq
  simp only [List.length_append, List.length_cons, List.length_nil] at hlen
  rw [parseBracketed, expect, ifM_run_true (matchStr_at h), run_bind_of_ok (skipTo_at h.skip hw),
    run_bind_of_ok (StateT.run_get _),
    if_neg (show ¬ d.length ≤ p + [byte o].length + w.length by simp; omega), expect,
    ifM_run_true (matchStr_at h.skip.skip)]
  rfl

/-- A literal that starts with no digit is no prefix of a numeral. -/
lemma not_prefix_digits {w ds : Bytes} (hds : Digits ds) (hw : w.head?.map isDigit = some false) :
    ¬ w <+: ds ++ v := by
  obtain ⟨c, u, hc, hdigit⟩ := hds.exists_cons
  cases w with
  | nil => cases hw
  | cons a w =>
    rw [hc]
    refine not_prefix_cons fun hac => ?_
    rw [hac, List.head?_cons, Option.map_some, hdigit] at hw
    cases hw

/-- The number stored for a numeral below `2 ^ 31`. -/
lemma storedNumber_decimal (n : Number) : storedNumber (decimal n.1) = UInt32.ofNat n.1 := by
  have hvalue := foldl_accumulate_zero (isDigit_of_mem_decimal n.1)
  rw [numeralValue_decimal] at hvalue
  have hn : ((n.1 : ℤ) % 2 ^ 32).toNat = n.1 := by
    have := n.2
    omega
  rw [storedNumber, hvalue n.2, UInt32.ofInt, hn]

/-- The loop of `parse_message_id_list` reads numbers up to something that no space begins.

**Proof sketch.** Induction on the numbers. A round reads one space and one number; the byte after
a number is the space of the next round or what follows the list. -/
lemma messageIdLoop_at (dss : List Bytes) (hdss : ∀ ds ∈ dss, Digits ds)
    (hspace : ¬ ascii " " <+: v) (hv : ∀ c, v.head? = some c → isDigit c = false) :
    ∀ (p fuel : ℕ) (numbers : List UInt32),
      At d p ((dss.flatMap fun ds => ascii " " ++ ds) ++ v) → dss.length < fuel →
      (messageIdLoop fuel numbers).run ⟨d, p, wrap32 q :: κ, r, m⟩ =
        .ok (some (numbers ++ dss.map storedNumber),
          ⟨d, p + (dss.flatMap fun ds => ascii " " ++ ds).length, κ, r, m⟩) := by
  induction dss with
  | nil =>
    intro p fuel numbers h hf
    obtain ⟨k, rfl⟩ : ∃ k, fuel = k + 1 := ⟨fuel - 1, by simp at hf; omega⟩
    rw [messageIdLoop, ifM_run_false (matchStr_not h hspace)]
    simp only [List.map_nil, List.append_nil]
    rfl
  | cons ds dss ih =>
    intro p fuel numbers h hf
    rw [List.length_cons] at hf
    obtain ⟨k, rfl⟩ : ∃ k, fuel = k + 1 := ⟨fuel - 1, by omega⟩
    rw [List.flatMap_cons] at h ⊢
    have hds := hdss ds (by simp)
    have hnum := h.assoc.assoc.skip
    have hhead : ∀ c, ((dss.flatMap fun ds => ascii " " ++ ds) ++ v).head? = some c →
        isDigit c = false := by
      cases dss with
      | nil => exact hv
      | cons ds' dss => exact head_cons _ rfl
    rw [messageIdLoop, ifM_run_true (matchStr_at h.assoc.assoc),
      run_bind_of_ok (parseNumber_digits hnum hds.nonempty hds.digit hhead)]
    show (messageIdLoop k _).run _ = _
    rw [ih (fun ds' hds' => hdss ds' (by simp [hds'])) _ _ _ hnum.skip (by omega), List.map_cons,
      storedNumber, List.append_assoc, List.length_append, List.length_append]
    simp only [Nat.add_assoc]
    rfl

/-- `parse_message_id_list` on any number of numbers. -/
lemma parseMessageIdList_at (dss : List Bytes) (hdss : ∀ ds ∈ dss, Digits ds)
    (hspace : ¬ ascii " " <+: v) (hv : ∀ c, v.head? = some c → isDigit c = false)
    (h : At d p ((dss.flatMap fun ds => ascii " " ++ ds) ++ v)) :
    parseMessageIdList.run ⟨d, p, κ, r, m⟩ =
      .ok (some (dss.map storedNumber),
        ⟨d, p + (dss.flatMap fun ds => ascii " " ++ ds).length, κ, r, m⟩) := by
  have hlen : dss.length ≤ (dss.flatMap fun ds => ascii " " ++ ds).length :=
    length_le_flatMap fun ds => by simp [show (ascii " ").length = 1 from rfl]
  have hd := h.length_eq
  rw [List.length_append] at hd
  rw [parseMessageIdList, run_bind_of_ok savePos_run, run_bind_of_ok (StateT.run_get _),
    messageIdLoop_at dss hdss hspace hv p (d.length + 2) [] h (by omega), List.nil_append]

/-- `parse_mailbox_data` on `FLAGS`. -/
lemma parseMailboxData_flags (s : Free (byte ')'))
    (h : At d p (ascii "FLAGS (" ++ s.1 ++ ascii ")" ++ v)) :
    parseMailboxData.run ⟨d, p, κ, r, m⟩ =
      .ok (true, ⟨d, p + (ascii "FLAGS (" ++ s.1 ++ ascii ")").length, κ, some .flags, m⟩) := by
  have hat : At d p (ascii "FLAGS" ++ (ascii " " ++ ([byte '('] ++ (s.1 ++ ([byte ')'] ++ v))))) :=
    h.assoc.assoc
  have hend : At d _ v := hat.skip.skip.skip.skip.skip
  rw [parseMailboxData, run_bind_of_ok savePos_run, ifM_run_true (matchStr_at hat),
    expectMatch_at hat.skip, expect, ifM_run_true (by
      rw [parseFlagList, run_bind_of_ok savePos_run, parseBracketed_at hat.skip.skip s.2]),
    hend.unique h.skip]
  rfl

/-- `parse_mailbox_data` on `SEARCH`. -/
lemma parseMailboxData_search (dss : List Bytes) (hdss : ∀ ds ∈ dss, Digits ds)
    (h : At d p (ascii "SEARCH" ++ (dss.flatMap fun ds => ascii " " ++ ds) ++ (crlf ++ v))) :
    parseMailboxData.run ⟨d, p, κ, r, m⟩ =
      .ok (true, ⟨d, p + (ascii "SEARCH" ++ dss.flatMap fun ds => ascii " " ++ ds).length,
        κ, some (.search (dss.map storedNumber)), m⟩) := by
  have hat := h.assoc
  rw [parseMailboxData, run_bind_of_ok savePos_run,
    ifM_run_false (matchStr_not hat (not_prefix_append (by decide))),
    ifM_run_false (matchStr_not hat (not_prefix_append (by decide))),
    ifM_run_false (matchStr_not hat (not_prefix_append (by decide))),
    ifM_run_true (matchStr_at hat), expectSome,
    run_bind_of_ok (parseMessageIdList_at dss hdss (not_prefix_append (by decide))
      (head_cons _ rfl) hat.skip), hat.skip.skip.unique h.skip]
  rfl

/-- `parse_mailbox_data` on `SEARCH` and numerals below `2 ^ 31`. -/
lemma parseMailboxData_numbers (ns : List Number)
    (h : At d p (ascii "SEARCH" ++ (ns.flatMap fun n => ascii " " ++ decimal n.1) ++
      (crlf ++ v))) :
    parseMailboxData.run ⟨d, p, κ, r, m⟩ =
      .ok (true, ⟨d, p + (ascii "SEARCH" ++ ns.flatMap fun n => ascii " " ++ decimal n.1).length,
        κ, some (.search (ns.map fun n => UInt32.ofNat n.1)), m⟩) := by
  have hwords : (ns.flatMap fun n => ascii " " ++ decimal n.1) =
      (ns.map fun n => decimal n.1).flatMap fun ds => ascii " " ++ ds := by
    rw [List.flatMap_map]
  have hvalues : (ns.map fun n => decimal n.1).map storedNumber =
      ns.map fun n => UInt32.ofNat n.1 := by
    rw [List.map_map]
    exact List.map_congr_left fun n _ => storedNumber_decimal n
  rw [hwords] at h ⊢
  rw [parseMailboxData_search _ (fun ds hds => ?_) h, hvalues]
  obtain ⟨n, -, rfl⟩ := List.mem_map.mp hds
  exact digits_decimal n.1

section Numbers

variable {ds : Bytes} (hds : Digits ds)

include hds

/-- `parse_mailbox_data` on a number: the keywords are passed over and the number is read. -/
lemma parseMailboxData_number (h : At d p (ds ++ (ascii " " ++ v))) :
    parseMailboxData.run ⟨d, p, κ, r, m⟩ =
      (ifM (matchStr (ascii "EXISTS"))
        (do
          setResponse (.singleNumber .exists (storedNumber ds))
          parseSuccess) <|
      ifM (matchStr (ascii "RECENT"))
        (do
          setResponse (.singleNumber .recent (storedNumber ds))
          parseSuccess)
        parseFail).run ⟨d, p + ds.length + (ascii " ").length, wrap32 p :: κ, r, m⟩ := by
  rw [parseMailboxData, run_bind_of_ok savePos_run,
    ifM_run_false (matchStr_not h (not_prefix_digits hds (by rfl))),
    ifM_run_false (matchStr_not h (not_prefix_digits hds (by rfl))),
    ifM_run_false (matchStr_not h (not_prefix_digits hds (by rfl))),
    ifM_run_false (matchStr_not h (not_prefix_digits hds (by rfl))),
    ifM_run_false (matchStr_not h (not_prefix_digits hds (by rfl))),
    expectNumber_digits hds h (head_cons _ rfl), expectMatch_at h.skip]
  rfl

/-- `parse_mailbox_data` on a number of messages. -/
lemma parseMailboxData_exists (h : At d p (ds ++ ascii " EXISTS" ++ v)) :
    parseMailboxData.run ⟨d, p, κ, r, m⟩ =
      .ok (true, ⟨d, p + (ds ++ ascii " EXISTS").length, κ,
        some (.singleNumber .exists (storedNumber ds)), m⟩) := by
  have hat : At d p (ds ++ (ascii " " ++ (ascii "EXISTS" ++ v))) := h.assoc
  have hend := hat.skip.skip.skip
  rw [parseMailboxData_number hds hat, ifM_run_true (matchStr_at hat.skip.skip),
    hend.unique h.skip]
  rfl

/-- `parse_mailbox_data` on a number of recent messages. -/
lemma parseMailboxData_recent (h : At d p (ds ++ ascii " RECENT" ++ v)) :
    parseMailboxData.run ⟨d, p, κ, r, m⟩ =
      .ok (true, ⟨d, p + (ds ++ ascii " RECENT").length, κ,
        some (.singleNumber .recent (storedNumber ds)), m⟩) := by
  have hat : At d p (ds ++ (ascii " " ++ (ascii "RECENT" ++ v))) := h.assoc
  have hend := hat.skip.skip.skip
  rw [parseMailboxData_number hds hat,
    ifM_run_false (matchStr_not hat.skip.skip (not_prefix_append (by decide))),
    ifM_run_true (matchStr_at hat.skip.skip), hend.unique h.skip]
  rfl

/-- `parse_mailbox_data` before message data. -/
lemma parseMailboxData_not (h : At d p (ds ++ (ascii " " ++ (ascii "FETCH" ++ v))))
    (hp : p < 2 ^ 31) :
    parseMailboxData.run ⟨d, p, κ, r, m⟩ = .ok (false, ⟨d, p, κ, r, m⟩) := by
  rw [parseMailboxData_number hds h,
    ifM_run_false (matchStr_not h.skip.skip (not_prefix_append (by decide))),
    ifM_run_false (matchStr_not h.skip.skip (not_prefix_append (by decide))),
    parseFail_run hp]

end Numbers

/-! ## Message attributes -/

/-- `parse_msg_att_dynamic` on flags. -/
lemma parseMsgAttDynamic_at (s : Free (byte ')'))
    (h : At d p ((Attribute.flags s).wire ++ v)) :
    parseMsgAttDynamic.run ⟨d, p, κ, r, m⟩ =
      .ok (true, ⟨d, p + (Attribute.flags s).wire.length, κ, r, m⟩) := by
  have hat : At d p (ascii "FLAGS" ++ (ascii " " ++ ([byte '('] ++ (s.1 ++ ([byte ')'] ++ v))))) :=
    h.assoc.assoc
  have hend : At d _ v := hat.skip.skip.skip.skip.skip
  rw [parseMsgAttDynamic, run_bind_of_ok savePos_run, expectMatch_at hat, expectMatch_at hat.skip,
    parseBracketed_at hat.skip.skip s.2, hend.unique h.skip]

/-- `parse_msg_att_dynamic` before another attribute. -/
lemma parseMsgAttDynamic_not (h : At d p v) (hp : p < 2 ^ 31) (hv : ¬ ascii "FLAGS" <+: v) :
    parseMsgAttDynamic.run ⟨d, p, κ, r, m⟩ = .ok (false, ⟨d, p, κ, r, m⟩) := by
  rw [parseMsgAttDynamic, run_bind_of_ok savePos_run, expectMatch_not h hp hv]

/-- `parse_msg_att_static` on a unique identifier. -/
lemma parseMsgAttStatic_uid {ds : Bytes} (hds : Digits ds) (h : At d p (ascii "UID " ++ ds ++ v))
    (hv : ∀ c, v.head? = some c → isDigit c = false) :
    parseMsgAttStatic.run ⟨d, p, κ, r, m⟩ =
      .ok (true, ⟨d, p + (ascii "UID " ++ ds).length, κ, r, m⟩) := by
  have hat : At d p (ascii "UID" ++ (ascii " " ++ (ds ++ v))) := h.assoc
  have hend : At d _ v := hat.skip.skip.skip
  rw [parseMsgAttStatic, run_bind_of_ok savePos_run,
    ifM_run_false (matchStr_not hat (not_prefix_append (by decide))),
    ifM_run_false (matchStr_not hat (not_prefix_append (by decide))),
    ifM_run_false (matchStr_not hat (not_prefix_append (by decide))),
    ifM_run_false (matchStr_not hat (not_prefix_append (by decide))),
    ifM_run_false (matchStr_not hat (not_prefix_append (by decide))),
    ifM_run_true (matchStr_at hat), expectMatch_at hat.skip,
    expectNumber_digits hds hat.skip.skip hv, hend.unique h.skip]
  rfl

/-- The body of `parse_literal` on the announced number of bytes: it goes on to `PARSE_SUCCESS`,
unless the character ahead is negative, which the log line takes for the length of a string. -/
lemma readLiteral_enough (h : At d p (w ++ v)) (hp : p + w.length < 2 ^ 64) :
    (readLiteral w.length).run ⟨d, p, κ, r, m⟩ =
      if 128 ≤ v.headD 0 then .error (.thrown .lengthError)
      else parseSuccess.run ⟨d, p + w.length, κ, r, w⟩ := by
  have hlen := h.length_eq
  rw [List.length_append] at hlen
  have hpos : toSizeT ((p : ℤ) + (w.length : ℤ)) = p + w.length := by
    rw [toSizeT]
    omega
  have hsize : toSizeT (w.length : ℤ) = w.length := by
    rw [toSizeT]
    omega
  have htake : (d.drop p ++ [0]).take w.length = w := by
    rw [h.2, List.append_assoc, List.take_left]
  rw [readLiteral, run_bind_of_ok (StateT.run_get _), Int.toNat_natCast,
    if_neg (show ¬ d.length + 1 < p + w.length by omega)]
  show (set _ >>= _ : Parser Bool).run _ = _
  rw [htake, hpos, hsize, run_bind_of_ok (StateT.run_set _ _), if_neg (Nat.lt_irrefl _),
    run_bind_of_ok (charAt_run h.skip.1), h.skip.2]
  split <;> rfl

/-- With a saved position on the stack it succeeds. -/
lemma readLiteral_run {x : ℤ} (h : At d p (w ++ v)) (hp : p + w.length < 2 ^ 64) :
    (readLiteral w.length).run ⟨d, p, x :: κ, r, m⟩ =
      if 128 ≤ v.headD 0 then .error (.thrown .lengthError)
      else .ok (true, ⟨d, p + w.length, κ, r, w⟩) :=
  readLiteral_enough h hp

/-- The digits in the header of a literal announce the length `n`: a failed `parse_number` leaves
the length `0`, and its result wraps. -/
structure Announces (ds : Bytes) (n : ℕ) : Prop where
  digit : ∀ c ∈ ds, isDigit c = true
  value : ds.foldl accumulate 0 = n

/-- Digits announce their value. -/
lemma announces_of_lt {ds : Bytes} (hds : ∀ c ∈ ds, isDigit c = true)
    (hn : numeralValue ds < 2 ^ 31) : Announces ds (numeralValue ds) :=
  ⟨hds, foldl_accumulate_zero hds hn⟩

/-- A numeral announces its number. -/
lemma announces_decimal {n : ℕ} (hn : n < 2 ^ 31) : Announces (decimal n) n := by
  have h := announces_of_lt (isDigit_of_mem_decimal n) (by rwa [numeralValue_decimal])
  rwa [numeralValue_decimal] at h

/-- The header of a literal: `parse_literal` goes on with the length that `parse_number` yields. -/
lemma parseLiteral_length {ds : Bytes} {o : Option ℤ}
    (h : At d p (ascii "\x7b" ++ (ds ++ (ascii "\x7d" ++ (crlf ++ v)))))
    (hnum : parseNumber.run ⟨d, p + (ascii "\x7b").length, wrap32 p :: κ, r, m⟩ =
      .ok (o, ⟨d, p + (ascii "\x7b").length + ds.length, wrap32 p :: κ, r, m⟩)) :
    parseLiteral.run ⟨d, p, κ, r, m⟩ = (readLiteral (o.getD 0)).run
      ⟨d, p + (ascii "\x7b").length + ds.length + (ascii "\x7d").length + crlf.length,
        wrap32 p :: κ, r, m⟩ := by
  rw [parseLiteral, run_bind_of_ok savePos_run, expectMatch_at h, run_bind_of_ok hnum,
    expectMatch_at h.skip.skip, expectCrlf_at h.skip.skip.skip]
  rfl

/-- A header with a length below `2 ^ 31`. -/
lemma parseLiteral_header {ds : Bytes}
    (h : At d p (ascii "\x7b" ++ (ds ++ (ascii "\x7d" ++ (crlf ++ v))))) (hne : ds ≠ [])
    (hds : ∀ c ∈ ds, isDigit c = true) (hn : numeralValue ds < 2 ^ 31) :
    parseLiteral.run ⟨d, p, κ, r, m⟩ = (readLiteral (numeralValue ds)).run
      ⟨d, p + (ascii "\x7b").length + ds.length + (ascii "\x7d").length + crlf.length,
        wrap32 p :: κ, r, m⟩ := by
  have hnum := parseNumber_digits (κ := wrap32 p :: κ) (r := r) (m := m) h.skip hne hds
    (head_cons _ rfl)
  rw [foldl_accumulate_zero hds hn] at hnum
  exact parseLiteral_length h hnum

/-- Any header that announces a length. -/
lemma parseLiteral_announced {ds : Bytes} {n : ℕ} (hds : Announces ds n)
    (h : At d p (ascii "\x7b" ++ (ds ++ (ascii "\x7d" ++ (crlf ++ v)))))
    (hp : p + (ascii "\x7b").length < 2 ^ 31) :
    parseLiteral.run ⟨d, p, κ, r, m⟩ = (readLiteral n).run
      ⟨d, p + (ascii "\x7b").length + ds.length + (ascii "\x7d").length + crlf.length,
        wrap32 p :: κ, r, m⟩ := by
  by_cases hne : ds = []
  · subst hne
    have hzero : (0 : ℤ) = n := hds.value
    have hnum := parseNumber_none (κ := wrap32 p :: κ) (r := r) (m := m) h.skip (head_cons _ rfl)
    rw [toSizeT_wrap32 hp] at hnum
    rw [parseLiteral_length h hnum, Option.getD_none, hzero]
  · rw [parseLiteral_length h (parseNumber_digits h.skip hne hds.digit (head_cons _ rfl)),
      Option.getD_some, hds.value]

section Literals

variable {ds : Bytes} (hds : Announces ds w.length)

include hds

/-- `parse_literal` on a literal. -/
lemma parseLiteral_at (h : At d p (ascii "\x7b" ++ (ds ++ (ascii "\x7d" ++ (crlf ++ (w ++ v))))))
    (hv : ¬ 128 ≤ v.headD 0)
    (hp : p + (ascii "\x7b" ++ ds ++ ascii "\x7d" ++ crlf ++ w).length < 2 ^ 31) :
    parseLiteral.run ⟨d, p, κ, r, m⟩ =
      .ok (true, ⟨d, p + (ascii "\x7b" ++ ds ++ ascii "\x7d" ++ crlf ++ w).length, κ, r, w⟩) := by
  simp only [List.length_append, ← Nat.add_assoc] at hp ⊢
  rw [parseLiteral_announced hds h (by omega),
    readLiteral_run h.skip.skip.skip.skip (by omega), if_neg hv]

/-- `parse_nstring` on a literal. -/
lemma parseNstring_at (h : At d p (ascii "\x7b" ++ (ds ++ (ascii "\x7d" ++ (crlf ++ (w ++ v))))))
    (hv : ¬ 128 ≤ v.headD 0)
    (hp : p + (ascii "\x7b" ++ ds ++ ascii "\x7d" ++ crlf ++ w).length < 2 ^ 31) :
    parseNstring.run ⟨d, p, κ, r, m⟩ =
      .ok (true, ⟨d, p + (ascii "\x7b" ++ ds ++ ascii "\x7d" ++ crlf ++ w).length, κ, r, w⟩) := by
  rw [parseNstring, run_bind_of_ok savePos_run,
    ifM_run_false (matchStr_not h (not_prefix_append (by decide))), expect, ifM_run_true (by
      rw [parseString, run_bind_of_ok savePos_run, expect,
        ifM_run_true (parseLiteral_at hds h hv hp)]
      rfl)]
  rfl

end Literals

/-- What `parse_msg_att_static` does after `BODY` and an opening bracket. -/
lemma parseMsgAttStatic_section (h : At d p (ascii "BODY" ++ ([byte '['] ++ w))) :
    parseMsgAttStatic.run ⟨d, p, κ, r, m⟩ =
      (ifM parseSection
        (ifM (matchStr (ascii "<")) (throwLogic "Not implemented") <|
          expectMatch " " <| expect parseNstring parseSuccess)
        parseFail).run ⟨d, p + (ascii "BODY").length, wrap32 p :: κ, r, m⟩ := by
  rw [parseMsgAttStatic, run_bind_of_ok savePos_run,
    ifM_run_false (matchStr_not h (not_prefix_append (by decide))),
    ifM_run_false (matchStr_not h (not_prefix_append (by decide))),
    ifM_run_false (matchStr_not h (not_prefix_append (by decide))),
    ifM_run_false (matchStr_not h (not_prefix_append (by decide))),
    ifM_run_true (matchStr_at h),
    ifM_run_false (matchStr_not h.skip (not_prefix_append (by decide))),
    ifM_run_false (matchStr_not h.skip (not_prefix_append (by decide)))]

/-- What it does after a section and a space. -/
lemma parseMsgAttStatic_nstring (s : Free (byte ']')) (h : At d p (ascii "BODY" ++ ([byte '['] ++
      (s.1 ++ ([byte ']'] ++ (ascii " " ++ w)))))) :
    parseMsgAttStatic.run ⟨d, p, κ, r, m⟩ = (expect parseNstring parseSuccess).run
      ⟨d, p + (ascii "BODY").length + [byte '['].length + s.1.length + [byte ']'].length +
        (ascii " ").length, wrap32 p :: κ, r, m⟩ := by
  have hspace := h.skip.skip.skip.skip
  rw [parseMsgAttStatic_section h, ifM_run_true (by
      rw [parseSection, run_bind_of_ok savePos_run, parseBracketed_at h.skip s.2]),
    ifM_run_false (matchStr_not hspace (not_prefix_append (by decide))), expectMatch_at hspace]

/-- `parse_msg_att_static` on a body section. -/
lemma parseMsgAttStatic_body (s : Free (byte ']')) {ds : Bytes} (hds : Announces ds w.length)
    (h : At d p (ascii "BODY[" ++ s.1 ++ ascii "] \x7b" ++ ds ++ ascii "\x7d" ++ crlf ++ w ++ v))
    (hv : ¬ 128 ≤ v.headD 0) (hp : p + (ascii "BODY[" ++ s.1 ++ ascii "] \x7b" ++ ds ++
      ascii "\x7d" ++ crlf ++ w).length < 2 ^ 31) :
    parseMsgAttStatic.run ⟨d, p, κ, r, m⟩ =
      .ok (true, ⟨d, p + (ascii "BODY[" ++ s.1 ++ ascii "] \x7b" ++ ds ++ ascii "\x7d" ++
        crlf ++ w).length, κ, r, w⟩) := by
  have hat : At d p (ascii "BODY" ++ ([byte '['] ++ (s.1 ++ ([byte ']'] ++ (ascii " " ++
      (ascii "\x7b" ++ (ds ++ (ascii "\x7d" ++ (crlf ++ (w ++ v)))))))))) := by
    simp only [List.append_assoc] at h
    exact h
  have hlit := hat.skip.skip.skip.skip.skip
  have hend : At d _ v := hlit.skip.skip.skip.skip.skip
  have hpos := hend.unique h.skip
  have hparsed := parseNstring_at (κ := wrap32 p :: κ) (r := r) (m := m) hds hlit hv (by
    simp only [List.length_append, ← Nat.add_assoc]
    omega)
  simp only [List.length_append, ← Nat.add_assoc] at hparsed
  rw [hpos] at hparsed
  rw [parseMsgAttStatic_nstring s hat, expect, ifM_run_true hparsed]
  rfl

/-- The bytes `u` are read as an attribute, wherever they stand before a byte that is neither a
digit nor negative; `f` is what this does to the message contents. -/
def ReadsItem (d u : Bytes) (f : Bytes → Bytes) : Prop :=
  ∀ ⦃p : ℕ⦄ ⦃κ : List ℤ⦄ ⦃r : Option Response⦄ ⦃m v : Bytes⦄, At d p (u ++ v) →
    (∀ c, v.head? = some c → isDigit c = false) → ¬ 128 ≤ v.headD 0 → p + u.length < 2 ^ 31 →
    parseMsgAttItem.run ⟨d, p, κ, r, m⟩ = .ok (true, ⟨d, p + u.length, κ, r, f m⟩)

/-- Flags are read as an attribute, by `parse_msg_att_dynamic`. -/
lemma readsItem_flags (s : Free (byte ')')) :
    ReadsItem d (ascii "FLAGS (" ++ s.1 ++ ascii ")") fun m => m := by
  intro p κ r m v h _ _ _
  rw [parseMsgAttItem, ifM_run_true (parseMsgAttDynamic_at s h)]
  rfl

/-- A unique identifier is read as an attribute, after `parse_msg_att_dynamic` has failed. -/
lemma readsItem_uid {ds : Bytes} (hds : Digits ds) :
    ReadsItem d (ascii "UID " ++ ds) fun m => m := by
  intro p κ r m v h hd _ hp
  rw [parseMsgAttItem, ifM_run_false (parseMsgAttDynamic_not h.assoc (by omega)
    (not_prefix_append (by decide))), parseMsgAttStatic_uid hds h hd]

/-- A body section is read as an attribute, after `parse_msg_att_dynamic` has failed. -/
lemma readsItem_body (s : Free (byte ']')) {ds : Bytes}
    (hds : w.length < 2 ^ 31 → Announces ds w.length) :
    ReadsItem d (ascii "BODY[" ++ s.1 ++ ascii "] \x7b" ++ ds ++ ascii "\x7d" ++ crlf ++ w)
      fun _ => w := by
  intro p κ r m v h _ hv hp
  have hlen := hp
  rw [List.length_append] at hlen
  have hword := h
  simp only [List.append_assoc] at hword
  rw [parseMsgAttItem, ifM_run_false (parseMsgAttDynamic_not hword (by omega)
    (not_prefix_append (by decide))), parseMsgAttStatic_body s (hds (by omega)) h hv hp]

/-- One attribute, whatever its kind. -/
lemma readsItem_attribute (a : Attribute) : ReadsItem d a.wire fun m => a.contents m := by
  cases a with
  | flags s => exact readsItem_flags s
  | uid n => exact readsItem_uid (digits_decimal n.1)
  | body s w hw => exact readsItem_body s announces_decimal

section Attributes

variable {α : Type} {wire : α → Bytes} {contents : Bytes → α → Bytes}

/-- Attributes begin with a space, and what follows them with a byte that is neither a digit nor
negative. -/
lemma attributes_append_head (f : α → Bytes) (as : List α)
    (hd : ∀ c, v.head? = some c → isDigit c = false) (hv : ¬ 128 ≤ v.headD 0) :
    (∀ c, ((as.flatMap fun a => ascii " " ++ f a) ++ v).head? = some c → isDigit c = false) ∧
      ¬ 128 ≤ ((as.flatMap fun a => ascii " " ++ f a) ++ v).headD 0 := by
  cases as with
  | nil => exact ⟨hd, hv⟩
  | cons a as => exact ⟨head_cons _ rfl, (by decide : ¬ 128 ≤ byte ' ')⟩

/-- The loop of `parse_msg_att` reads attributes and goes on with what follows them.

**Proof sketch.** Induction on the attributes. A round reads one space and one attribute; what
follows an attribute is the space of the next round or what stands behind the attributes. -/
lemma msgAttLoop_skip (as : List α) (hread : ∀ a ∈ as, ReadsItem d (wire a) fun m => contents m a)
    (hd : ∀ c, v.head? = some c → isDigit c = false) (hv : ¬ 128 ≤ v.headD 0) :
    ∀ (p fuel : ℕ) (m : Bytes), At d p ((as.flatMap fun a => ascii " " ++ wire a) ++ v) →
      p + (as.flatMap fun a => ascii " " ++ wire a).length < 2 ^ 31 →
      (repeatWhile .diverges (ifM (matchStr (ascii " ")) parseMsgAttItem (pure false))
          (as.length + fuel)).run ⟨d, p, κ, r, m⟩ =
        (repeatWhile .diverges (ifM (matchStr (ascii " ")) parseMsgAttItem (pure false)) fuel).run
          ⟨d, p + (as.flatMap fun a => ascii " " ++ wire a).length, κ, r, as.foldl contents m⟩ := by
  induction as with
  | nil =>
    intro p fuel m _ _
    rw [List.length_nil, Nat.zero_add]
    rfl
  | cons a as ih =>
    intro p fuel m h hp
    rw [List.flatMap_cons] at h hp ⊢
    simp only [List.length_append, ← Nat.add_assoc] at hp ⊢
    have hitem := h.assoc.assoc.skip
    have hhead := attributes_append_head wire as hd hv
    rw [List.length_cons, Nat.add_right_comm, repeatWhile_run_true (by
      rw [ifM_run_true (matchStr_at h.assoc.assoc), hread a (by simp) hitem hhead.1 hhead.2
        (by omega)])]
    exact ih (fun b hb => hread b (by simp [hb])) _ fuel _ hitem.skip (by omega)

/-- `parse_msg_att` reads an opening parenthesis and attributes, and goes on with what follows. -/
lemma parseMsgAtt_skip (first : α) (rest : List α)
    (hread : ∀ a ∈ first :: rest, ReadsItem d (wire a) fun m => contents m a)
    (h : At d p (ascii "(" ++ (wire first ++ ((rest.flatMap fun a => ascii " " ++ wire a) ++ v))))
    (hd : ∀ c, v.head? = some c → isDigit c = false) (hv : ¬ 128 ≤ v.headD 0)
    (hp : p + (ascii "(").length + (wire first).length +
      (rest.flatMap fun a => ascii " " ++ wire a).length < 2 ^ 31) :
    ∃ fuel, parseMsgAtt.run ⟨d, p, κ, r, m⟩ =
      (do
        repeatWhile .diverges (ifM (matchStr (ascii " ")) parseMsgAttItem (pure false)) (fuel + 1)
        expectMatch ")" parseSuccess : Parser Bool).run
          ⟨d, p + (ascii "(").length + (wire first).length +
            (rest.flatMap fun a => ascii " " ++ wire a).length, wrap32 p :: κ, r,
            rest.foldl contents (contents m first)⟩ := by
  have hloop := h.skip.skip
  have hlen : rest.length ≤ (rest.flatMap fun a => ascii " " ++ wire a).length :=
    length_le_flatMap fun a => by simp [show (ascii " ").length = 1 from rfl]
  have hdata := hloop.length_eq
  rw [List.length_append] at hdata
  obtain ⟨fuel, hfuel⟩ : ∃ fuel, d.length + 2 = rest.length + (fuel + 1) :=
    ⟨d.length + 1 - rest.length, by omega⟩
  have hhead := attributes_append_head wire rest hd hv
  have hskip := msgAttLoop_skip (κ := wrap32 p :: κ) (r := r) rest
    (fun a ha => hread a (by simp [ha])) hd hv _ (fuel + 1) (contents m first) hloop hp
  refine ⟨fuel, ?_⟩
  rw [parseMsgAtt, run_bind_of_ok savePos_run, expectMatch_at h, expect,
    ifM_run_true (hread first (by simp) h.skip hhead.1 hhead.2 (by omega)), StateT.run_bind,
    StateT.run_bind, ← hskip, ← hfuel]
  rfl

/-- What ends the attributes of a message: the closing parenthesis, with a space before it or
without one. -/
def Closes (e : Bytes) : Prop := e = ascii ")" ∨ e = ascii " )"

/-- `parse_msg_att_static` before the closing parenthesis. -/
lemma parseMsgAttItem_close (h : At d p (ascii ")" ++ v)) (hp : p < 2 ^ 31) :
    parseMsgAttItem.run ⟨d, p, κ, r, m⟩ = .ok (false, ⟨d, p, κ, r, m⟩) := by
  rw [parseMsgAttItem, ifM_run_false (parseMsgAttDynamic_not h hp (not_prefix_append (by decide))),
    parseMsgAttStatic, run_bind_of_ok savePos_run,
    ifM_run_false (matchStr_not h (not_prefix_append (by decide))),
    ifM_run_false (matchStr_not h (not_prefix_append (by decide))),
    ifM_run_false (matchStr_not h (not_prefix_append (by decide))),
    ifM_run_false (matchStr_not h (not_prefix_append (by decide))),
    ifM_run_false (matchStr_not h (not_prefix_append (by decide))),
    ifM_run_false (matchStr_not h (not_prefix_append (by decide))), parseFail_run hp]

/-- `parse_msg_att` on a list of attributes in parentheses. -/
lemma parseMsgAtt_at (first : α) (rest : List α) {e : Bytes} (he : Closes e)
    (hread : ∀ a ∈ first :: rest, ReadsItem d (wire a) fun m => contents m a)
    (h : At d p (ascii "(" ++ (wire first ++ ((rest.flatMap fun a => ascii " " ++ wire a) ++
      (e ++ v)))))
    (hp : p + (ascii "(").length + (wire first).length +
      (rest.flatMap fun a => ascii " " ++ wire a).length + e.length < 2 ^ 31) :
    parseMsgAtt.run ⟨d, p, κ, r, m⟩ =
      .ok (true, ⟨d, p + (ascii "(").length + (wire first).length +
        (rest.flatMap fun a => ascii " " ++ wire a).length + e.length, κ, r,
        rest.foldl contents (contents m first)⟩) := by
  have hclose := h.skip.skip.skip
  rcases he with rfl | rfl
  · obtain ⟨fuel, hrun⟩ := parseMsgAtt_skip (κ := κ) (r := r) (m := m) first rest hread h
      (head_cons _ rfl) (by decide : ¬ 128 ≤ byte ')') (by omega)
    rw [hrun, run_bind_of_ok (repeatWhile_run_false (by
      rw [ifM_run_false (matchStr_not hclose (not_prefix_append (by decide)))]
      rfl)), expectMatch_at hclose]
    rfl
  · obtain ⟨fuel, hrun⟩ := parseMsgAtt_skip (κ := κ) (r := r) (m := m) first rest hread h
      (head_cons _ rfl) (by decide : ¬ 128 ≤ byte ' ') (by omega)
    -- the round that the space begins finds no attribute and ends the loop behind the space
    have hspace : At d _ (ascii " " ++ (ascii ")" ++ v)) := hclose
    rw [show (ascii " )").length = (ascii " ").length + (ascii ")").length
      from rfl, ← Nat.add_assoc] at hp ⊢
    rw [hrun, run_bind_of_ok (repeatWhile_run_false (by
      rw [ifM_run_true (matchStr_at hspace), parseMsgAttItem_close hspace.skip (by omega)])),
      expectMatch_at hspace.skip]
    rfl

/-- `parse_message_data` on a FETCH response. -/
lemma parseMessageData_at {ds : Bytes} (hds : Digits ds) (first : α) (rest : List α)
    {e : Bytes} (he : Closes e)
    (hread : ∀ a ∈ first :: rest, ReadsItem d (wire a) fun m => contents m a)
    (h : At d p (ds ++ (ascii " " ++ (ascii "FETCH" ++ (ascii " " ++ (ascii "(" ++
      (wire first ++ ((rest.flatMap fun a => ascii " " ++ wire a) ++ (e ++ v)))))))))
    (hp : p + ds.length + (ascii " ").length + (ascii "FETCH").length +
      (ascii " ").length + (ascii "(").length + (wire first).length +
      (rest.flatMap fun a => ascii " " ++ wire a).length + e.length < 2 ^ 31) :
    parseMessageData.run ⟨d, p, κ, r, m⟩ =
      .ok (true, ⟨d, p + ds.length + (ascii " ").length + (ascii "FETCH").length +
          (ascii " ").length + (ascii "(").length + (wire first).length +
          (rest.flatMap fun a => ascii " " ++ wire a).length + e.length, κ,
        some (.fetch ((first :: rest).foldl contents [])), (first :: rest).foldl contents []⟩) := by
  have hword := h.skip.skip
  rw [parseMessageData, run_bind_of_ok savePos_run,
    expectNumber_digits hds h (head_cons _ rfl), expectMatch_at h.skip,
    ifM_run_false (matchStr_not hword (not_prefix_append (by decide))),
    ifM_run_true (matchStr_at hword)]
  show (expectMatch " " _).run ⟨d, _, _, r, []⟩ = _
  rw [expectMatch_at hword.skip, expect,
    ifM_run_true (parseMsgAtt_at first rest he hread hword.skip.skip hp)]
  rfl

end Attributes

/-! ## Responses -/

/-- The first byte of the keyword of a status condition. -/
def isCondStart (c : UInt8) : Bool := c = byte 'O' || c = byte 'N' || c = byte 'B'

/-- The digits start no status condition. -/
lemma digits_head {ds : Bytes} (hds : Digits ds) :
    ∀ c, (ds ++ v).head? = some c → isCondStart c = false := by
  obtain ⟨a, u, ha, hdigit⟩ := hds.exists_cons
  rw [ha]
  refine head_cons _ ?_
  by_contra hc
  simp only [isCondStart, Bool.not_eq_false, Bool.or_eq_true, decide_eq_true_eq] at hc
  rcases hc with (rfl | rfl) | rfl <;> cases hdigit

/-- `parse_response_data` on something that starts with none of the status words. -/
lemma parseResponseData_data (h : At d p (ascii "* " ++ v))
    (hp : p + (ascii "* ").length < 2 ^ 31)
    (hv : ∀ c, v.head? = some c → isCondStart c = false) :
    parseResponseData.run ⟨d, p, κ, r, m⟩ =
      (ifM parseMailboxData (expect matchCrlf parseSuccess) <|
        ifM parseMessageData (expect matchCrlf parseSuccess) parseFail).run
          ⟨d, p + (ascii "* ").length, wrap32 p :: κ, r, m⟩ := by
  have hat : At d p (ascii "*" ++ (ascii " " ++ v)) := h
  have hnot : ∀ a w, isCondStart a = true → ¬ a :: w <+: v := by
    intro a w ha
    refine not_prefix_of_head fun c hc hca => ?_
    rw [hca] at hc
    rw [hv a hc] at ha
    cases ha
  rw [parseResponseData, run_bind_of_ok savePos_run, expectMatch_at hat, expectMatch_at hat.skip]
  show StateT.run _ (⟨d, p + (ascii "* ").length, _, r, m⟩ : ResponseParser) = _
  rw [ifM_run_false (parseRespCondState_not h.skip hp (hnot _ _ rfl) (hnot _ _ rfl)
    (hnot _ _ rfl)), ifM_run_false (parseRespCondBye_not h.skip hp (hnot _ _ rfl))]

/-- `parse_response_data` where `parse_mailbox_data` reads the line `w`. -/
lemma parseResponseData_mailbox {x : Response} (h : At d p (ascii "* " ++ w ++ crlf ++ v))
    (hp : p + (ascii "* ").length < 2 ^ 31)
    (hw : ∀ c, (w ++ (crlf ++ v)).head? = some c → isCondStart c = false)
    (hrun : ∀ κ, At d (p + (ascii "* ").length) (w ++ (crlf ++ v)) →
      parseMailboxData.run ⟨d, p + (ascii "* ").length, κ, r, m⟩ =
        .ok (true, ⟨d, p + (ascii "* ").length + w.length, κ, some x, m⟩)) :
    parseResponseData.run ⟨d, p, κ, r, m⟩ =
      .ok (true, ⟨d, p + (ascii "* " ++ w ++ crlf).length, κ, some x, m⟩) := by
  have hat := h.assoc.assoc
  have hend := hat.skip.skip.skip
  rw [parseResponseData_data hat hp hw, ifM_run_true (hrun _ hat.skip),
    expectCrlf_at hat.skip.skip, ← hend.unique h.skip]
  rfl

/-- `parse_response_data` on a FETCH response. -/
lemma parseResponseData_fetch {α : Type} {wire : α → Bytes} {contents : Bytes → α → Bytes}
    {ds : Bytes} (hds : Digits ds) (first : α) (rest : List α)
    {e : Bytes} (he : Closes e)
    (hread : ∀ a ∈ first :: rest, ReadsItem d (wire a) fun m => contents m a)
    (h : At d p (ascii "* " ++ ds ++ ascii " FETCH (" ++ wire first ++
      (rest.flatMap fun a => ascii " " ++ wire a) ++ e ++ crlf ++ v))
    (hp : p + (ascii "* " ++ ds ++ ascii " FETCH (" ++ wire first ++
      (rest.flatMap fun a => ascii " " ++ wire a) ++ e).length < 2 ^ 31) :
    parseResponseData.run ⟨d, p, κ, r, m⟩ =
      .ok (true, ⟨d, p + (ascii "* " ++ ds ++ ascii " FETCH (" ++ wire first ++
          (rest.flatMap fun a => ascii " " ++ wire a) ++ e ++ crlf).length, κ,
        some (.fetch ((first :: rest).foldl contents [])), (first :: rest).foldl contents []⟩) := by
  have hat : At d p (ascii "* " ++ (ds ++ (ascii " " ++ (ascii "FETCH" ++ (ascii " " ++
      (ascii "(" ++ (wire first ++ ((rest.flatMap fun a => ascii " " ++ wire a) ++
        (e ++ (crlf ++ v)))))))))) := by
    simp only [List.append_assoc] at h ⊢
    exact h
  have hnum := hat.skip
  have hend : At d _ v := hnum.skip.skip.skip.skip.skip.skip.skip.skip.skip
  simp only [List.length_append, show (ascii " FETCH (").length =
    (ascii " ").length + (ascii "FETCH").length + (ascii " ").length + (ascii "(").length
    from rfl] at hp
  rw [parseResponseData_data hat (by omega) (digits_head hds),
    ifM_run_false (parseMailboxData_not hds hnum (by omega)),
    ifM_run_true (parseMessageData_at hds first rest he hread hnum (by omega)),
    expectCrlf_at hnum.skip.skip.skip.skip.skip.skip.skip.skip, ← hend.unique h.skip]
  rfl

/-- An untagged response starts with `* `. -/
lemma start_le_line {x : WireResponse} (hx : x.value.getTag = []) :
    (ascii "* ").length ≤ x.line.length := by
  cases x with
  | tagged tag c t => exact absurd hx tag.nonempty
  | _ => exact Nat.succ_le_succ (Nat.succ_le_succ (Nat.zero_le _))

/-- `parse_response_data` on a status condition, up to the end of its line. -/
lemma parseResponseData_cond (c : Cond) (ht : RespText w) (hv : LineEnd v)
    (h : At d p (ascii "* " ++ c.word ++ ascii " " ++ w ++ v))
    (hp : p + (ascii "* " ++ c.word ++ ascii " " ++ w).length < 2 ^ 31) :
    parseResponseData.run ⟨d, p, κ, r, m⟩ = (expect matchCrlf parseSuccess).run
      ⟨d, p + (ascii "* " ++ c.word ++ ascii " " ++ w).length, wrap32 p :: κ,
        some (.status c.type [] w), m⟩ := by
  have hat : At d p (ascii "*" ++ (ascii " " ++ (c.word ++ (ascii " " ++ w) ++ v))) := by
    simp only [List.append_assoc] at h ⊢
    exact h
  have hend := hat.skip.skip.skip.unique h.skip
  rw [parseResponseData, run_bind_of_ok savePos_run, expectMatch_at hat,
    expectMatch_at hat.skip, ifM_run_true (parseRespCondState_at c ht hv hat.skip.skip (by omega)),
    hend]
  rfl

/-- `parse_response_data` on a BYE, up to the end of its line. -/
lemma parseResponseData_bye (ht : RespText w) (hv : LineEnd v)
    (h : At d p (ascii "* BYE " ++ w ++ v)) (hp : p + (ascii "* BYE " ++ w).length < 2 ^ 31) :
    parseResponseData.run ⟨d, p, κ, r, m⟩ = (expect matchCrlf parseSuccess).run
      ⟨d, p + (ascii "* BYE " ++ w).length, wrap32 p :: κ, some (.status .bye [] w), m⟩ := by
  have hat : At d p (ascii "*" ++ (ascii " " ++ (ascii "BYE" ++ (ascii " " ++ w) ++ v))) := by
    simp only [List.append_assoc] at h ⊢
    exact h
  have hend := hat.skip.skip.skip.unique h.skip
  rw [parseResponseData, run_bind_of_ok savePos_run, expectMatch_at hat,
    expectMatch_at hat.skip, ifM_run_false (parseRespCondState_not hat.skip.skip.assoc (by omega)
      (not_prefix_append (by decide)) (not_prefix_append (by decide))
      (not_prefix_append (by decide))),
    ifM_run_true (parseRespCondBye_at ht hv hat.skip.skip (by omega)), hend]
  rfl

/-- A response that is read by `parse_response_data`, with the message contents it leaves behind.

**Proof sketch.** By cases on the response; every alternative before the right one fails on its
first literal, except that `parse_mailbox_data` reads the number of a FETCH response and goes
back. -/
lemma parseResponseData_at (x : WireResponse) (hx : x.value.getTag = [])
    (h : At d p (x.wire ++ v)) (hp : p + x.line.length < 2 ^ 31) :
    ∃ m', parseResponseData.run ⟨d, p, κ, r, m⟩ =
      .ok (true, ⟨d, p + x.wire.length, κ, some x.value, m'⟩) := by
  have hstart : p + (ascii "* ").length < 2 ^ 31 := by
    have := start_le_line hx
    omega
  cases x with
  | tagged tag c t => exact absurd hx tag.nonempty
  | untagged c t =>
    have hat : At d p (ascii "* " ++ c.word ++ ascii " " ++ t.bytes ++ (crlf ++ v)) := h.assoc
    refine ⟨m, ?_⟩
    rw [parseResponseData_cond c t.respText (lineEnd_crlf v) hat hp, expectCrlf_at hat.skip,
      ← hat.skip.skip.unique h.skip]
    rfl
  | bye t =>
    have hat : At d p (ascii "* BYE " ++ t.bytes ++ (crlf ++ v)) := h.assoc
    refine ⟨m, ?_⟩
    rw [parseResponseData_bye t.respText (lineEnd_crlf v) hat hp, expectCrlf_at hat.skip,
      ← hat.skip.skip.unique h.skip]
    rfl
  | flags s =>
    exact ⟨m, parseResponseData_mailbox h hstart (head_cons _ rfl) fun κ hat =>
      parseMailboxData_flags s hat⟩
  | «exists» n =>
    exact ⟨m, parseResponseData_mailbox (w := decimal n.1 ++ ascii " EXISTS") h hstart
      (by rw [List.append_assoc]; exact digits_head (digits_decimal n.1)) fun κ hat => by
        rw [parseMailboxData_exists (digits_decimal n.1) hat, storedNumber_decimal]
        rfl⟩
  | recent n =>
    exact ⟨m, parseResponseData_mailbox (w := decimal n.1 ++ ascii " RECENT") h hstart
      (by rw [List.append_assoc]; exact digits_head (digits_decimal n.1)) fun κ hat => by
        rw [parseMailboxData_recent (digits_decimal n.1) hat, storedNumber_decimal]
        rfl⟩
  | search ns =>
    exact ⟨m, parseResponseData_mailbox h hstart (head_cons _ rfl) fun κ hat =>
      parseMailboxData_numbers ns hat⟩
  | fetch n first rest =>
    exact ⟨_, parseResponseData_fetch (digits_decimal n.1) first rest (.inl rfl)
      (fun a _ => readsItem_attribute a) h hp⟩

/-- `parse_continue_req` before something else. -/
lemma parseContinueReq_not (h : At d p v) (hp : p < 2 ^ 31) (hv : ¬ ascii "+" <+: v) :
    parseContinueReq.run ⟨d, p, κ, r, m⟩ = .ok (false, ⟨d, p, κ, r, m⟩) := by
  rw [parseContinueReq, run_bind_of_ok savePos_run, expectMatch_not h hp hv]

/-- `parse_response_data` before something else. -/
lemma parseResponseData_not (h : At d p v) (hp : p < 2 ^ 31) (hv : ¬ ascii "*" <+: v) :
    parseResponseData.run ⟨d, p, κ, r, m⟩ = .ok (false, ⟨d, p, κ, r, m⟩) := by
  rw [parseResponseData, run_bind_of_ok savePos_run, expectMatch_not h hp hv]

/-- A tag is no continuation request and no untagged response. -/
lemma not_prefix_tag (tag : Tag) {a : UInt8} {w : Bytes} (ha : isAlnum a = false) :
    ¬ a :: w <+: tag.bytes ++ v := by
  cases hb : tag.bytes with
  | nil => exact absurd hb tag.nonempty
  | cons c u =>
    refine not_prefix_cons fun hac => ?_
    have hc := tag.alnum c (by rw [hb]; exact List.mem_cons_self)
    rw [← hac, ha] at hc
    cases hc

/-- `parse_response` on a tagged response. -/
lemma parseResponse_tagged (tag : Tag) (c : Cond) (ht : RespText w)
    (h : At d p (tag.bytes ++ ascii " " ++ c.word ++ ascii " " ++ w ++ crlf ++ v))
    (hp : p + (tag.bytes ++ ascii " " ++ c.word ++ ascii " " ++ w).length < 2 ^ 31) :
    parseResponse.run ⟨d, p, κ, r, m⟩ =
      .ok (true, ⟨d, p + (tag.bytes ++ ascii " " ++ c.word ++ ascii " " ++ w ++ crlf).length, κ,
        some (.status c.type tag.bytes w), m⟩) := by
  have hat : At d p
      (tag.bytes ++ (ascii " " ++ (c.word ++ (ascii " " ++ (w ++ (crlf ++ v)))))) := by
    simp only [List.append_assoc] at h ⊢
    exact h
  have hstart : p < 2 ^ 31 := by omega
  rw [parseResponse, run_bind_of_ok savePos_run,
    ifM_run_false (parseContinueReq_not hat hstart (not_prefix_tag tag rfl)),
    ifM_run_false (parseResponseData_not hat hstart (not_prefix_tag tag rfl)), ifM_run_true (by
      rw [parseResponseDone, run_bind_of_ok savePos_run,
        ifM_run_true (parseResponseTagged_at tag c ht h hp)]
      rfl)]
  rfl

/-- `parse_response` where `parse_response_data` succeeds. -/
lemma parseResponse_data {r' : Option Response} {m' : Bytes} (h : At d p (ascii "*" ++ v))
    (hp : p < 2 ^ 31) (hdata : parseResponseData.run ⟨d, p, wrap32 p :: κ, r, m⟩ =
      .ok (true, ⟨d, q, wrap32 p :: κ, r', m'⟩)) :
    parseResponse.run ⟨d, p, κ, r, m⟩ = .ok (true, ⟨d, q, κ, r', m'⟩) := by
  rw [parseResponse, run_bind_of_ok savePos_run,
    ifM_run_false (parseContinueReq_not h hp (not_prefix_append (by decide))),
    ifM_run_true hdata]
  rfl

/-- `parse_next` where `parse_response` succeeds. -/
lemma parseNext_response {s' : ResponseParser} (hp : p < d.length)
    (hresponse : parseResponse.run ⟨d, p, κ, r, m⟩ = .ok (true, s')) :
    parseNext.run ⟨d, p, κ, r, m⟩ = .ok (true, s') := by
  rw [parseNext, run_bind_of_ok (StateT.run_get _), if_neg (show ¬ d.length ≤ p by omega),
    ifM_run_true hresponse]
  rfl

/-- `parse_response` on a well-formed response. -/
lemma parseResponse_at (x : WireResponse) (h : At d p (x.wire ++ v))
    (hp : p + x.line.length < 2 ^ 31) :
    ∃ m', parseResponse.run ⟨d, p, κ, r, m⟩ =
      .ok (true, ⟨d, p + x.wire.length, κ, some x.value, m'⟩) := by
  have hstart : p < 2 ^ 31 := by omega
  by_cases hx : x.value.getTag = []
  · obtain ⟨m', hdata⟩ := parseResponseData_at (κ := wrap32 p :: κ) (r := r) (m := m) x hx h hp
    obtain ⟨w, hw⟩ : ∃ w, x.wire = byte '*' :: w := by
      cases x with
      | tagged tag c t => exact absurd hx tag.nonempty
      | _ => exact ⟨_, rfl⟩
    rw [hw] at h
    exact ⟨m', parseResponse_data h hstart hdata⟩
  · obtain ⟨tag, c, t, rfl⟩ : ∃ tag c t, x = .tagged tag c t := by
      cases x with
      | tagged tag c t => exact ⟨tag, c, t, rfl⟩
      | _ => exact absurd rfl hx
    exact ⟨m, parseResponse_tagged tag c t.respText h hp⟩

/-- `parse_next` on a well-formed response. -/
lemma parseNext_at (x : WireResponse) (h : At d p (x.wire ++ v))
    (hp : p + x.line.length < 2 ^ 31) :
    ∃ m', parseNext.run ⟨d, p, κ, r, m⟩ =
      .ok (true, ⟨d, p + x.wire.length, κ, some x.value, m'⟩) := by
  obtain ⟨m', hrun⟩ := parseResponse_at (κ := κ) (r := r) (m := m) x h hp
  have hlen := h.length_eq
  simp only [WireResponse.wire, List.length_append, show crlf.length = 2 from rfl] at hlen
  exact ⟨m', parseNext_response (by omega) hrun⟩

/-- `parse_next` at the end of the data. -/
lemma parseNext_end (h : At d p []) :
    parseNext.run ⟨d, p, κ, r, m⟩ = .ok (false, ⟨d, p, κ, r, m⟩) := by
  rw [parseNext, run_bind_of_ok (StateT.run_get _), if_pos (show d.length ≤ p by
    rw [h.eq_length])]
  rfl

end Imapcl
