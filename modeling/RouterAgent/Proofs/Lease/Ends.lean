import RouterAgent.Proofs.Calendar.Moment
import RouterAgent.Proofs.Lease.QuotedName
import RouterAgent.Proofs.Text.Digits

/-!
The end of a lease.

The value of an `ends` statement says a moment: its words are the day of the week, the date and the
time of day. Where this moment exists it is the end of the lease, counted in seconds from the start
of 1970, and every other value gives no end. Such a statement changes nothing else in the list of
clients, and whatever its value is, the database is accepted.
-/

namespace RouterAgent

open RouterAgent.Text

namespace Calendar.Moment

/-- Whether the day exists and the time of day may be written. A minute may have two leap
seconds. -/
def Admitted (m : Moment) : Prop := m.date.Valid ∧ m.hour ≤ 23 ∧ m.minute ≤ 59 ∧ m.second ≤ 61

instance (m : Moment) : Decidable m.Admitted := inferInstanceAs (Decidable (_ ∧ _ ∧ _ ∧ _))

/-- Whether four digits are enough for the year and two for each of the other parts. -/
def Short (m : Moment) : Prop := Fits [4, 2, 2] m.date.parts ∧ Fits [2, 2, 2] m.clock

variable {m : Moment}

lemma Exists.admitted (h : m.Exists) : m.Admitted :=
  ⟨h.1, h.2.1, h.2.2.1, le_trans h.2.2.2 (by decide)⟩

lemma short_iff : m.Short ↔ (m.date.year < 10000 ∧ m.date.month < 100 ∧ m.date.day < 100) ∧
    m.hour < 100 ∧ m.minute < 100 ∧ m.second < 100 := by
  simp [Short, Fits, Date.parts, clock]

lemma Admitted.short (h : m.Admitted) (hyear : m.date.year ≤ 9999) : m.Short := by
  obtain ⟨hdate, hhour, hminute, hsecond⟩ := h
  have hmonth := hdate.month
  have hday := le_trans hdate.2.2 (monthLength_le _ _)
  exact short_iff.2 ⟨⟨by omega, by omega, by omega⟩, by omega, by omega, by omega⟩

end Calendar.Moment

namespace Lease.Isc

open RouterAgent.Calendar

/-! ### Parts -/

lemma part?_padded {lo hi n : ℕ} (h : n < 100) (hlo : lo ≤ n) (hhi : n ≤ hi) :
    part? lo hi (padded 2 n) = some n := by
  have htens : digit? (n / 10 % 10).digitChar = some (n / 10 % 10) := digit?_digitChar (by omega)
  have hones : digit? (n % 10).digitChar = some (n % 10) := digit?_digitChar (by omega)
  have hvalue : 10 * (n / 10 % 10) + n % 10 = n := by omega
  have htwo : padded 2 n = [(n / 10 % 10).digitChar, (n % 10).digitChar] := rfl
  have hcommon (k : ℕ) : (k % 10).digitChar.isDigit = true := by
    rw [Nat.isDigit_digitChar, decide_eq_true_eq]
    omega
  rw [htwo, part?]
  simp only [hcommon, htens, hones, hvalue, if_true, true_or]
  simp [hlo, hhi]

lemma writes_of_part? {lo hi n : ℕ} {cs : List Char} (h : part? lo hi cs = some n) :
    Writes cs n ∧ lo ≤ n ∧ n ≤ hi := by
  simp only [part?, Option.filter_eq_some_iff] at h
  obtain ⟨hvalue, hrange⟩ := h
  refine ⟨?_, by simpa using hrange⟩
  split at hvalue
  · next c =>
    rw [Option.ite_none_right_eq_some] at hvalue
    exact writes_singleton_iff.2 hvalue.2
  · next c d =>
    rw [Option.ite_none_right_eq_some] at hvalue
    obtain ⟨-, hvalue⟩ := hvalue
    split at hvalue
    · next a b hc hd =>
      rw [Option.ite_none_right_eq_some, Option.some.injEq] at hvalue
      exact writes_pair_iff.2 ⟨a, b, hc, hd, hvalue.2⟩
    · simp at hvalue
  · simp at hvalue

lemma year?_padded {n : ℕ} (h : n < 10000) : year? (padded 4 n) = some n := by
  rw [year?, if_pos (length_padded 4 n), mapM_digit?_padded, Nat.mod_eq_of_lt (by simpa using h)]

lemma writes_of_year? {n : ℕ} {cs : List Char} (h : year? cs = some n) : Writes cs n := by
  rw [year?] at h
  split at h
  · next hlength => exact ⟨List.ne_nil_of_length_pos (by omega), h⟩
  · simp at h

/-! ### Values -/

/-- A value that says a moment: of its three words the second writes the date and the third the time
of day. -/
def Says (value : List Char) (m : Moment) : Prop := ∃ weekday date time,
  words value = [weekday, date, time] ∧
  List.Forall₂ Writes (date.splitOn '/') m.date.parts ∧
  List.Forall₂ Writes (time.splitOn ':') m.clock

lemma Says.unique {value : List Char} {m n : Moment} (hm : Says value m) (hn : Says value n) :
    m = n := by
  obtain ⟨weekday, date, time, hwords, hdate, hclock⟩ := hm
  obtain ⟨weekday', date', time', hwords', hdate', hclock'⟩ := hn
  rw [hwords, List.cons.injEq, List.cons.injEq, List.cons.injEq] at hwords'
  obtain ⟨-, rfl, rfl, -⟩ := hwords'
  apply Moment.eq_of_parts
  have hunique : Relator.RightUnique (List.Forall₂ Writes) :=
    Relator.RightUnique.forall₂ fun _ _ _ => Writes.unique
  rw [Moment.parts, Moment.parts, hunique hdate hdate', hunique hclock hclock']

/-- **What gives an end says a moment that may be.** -/
lemma says_of_ends? {value : List Char} {e : ℤ} (h : ends? value = some e) :
    ∃ m : Moment, Says value m ∧ m.Admitted ∧ m.seconds = e := by
  unfold ends? at h
  split at h
  · next weekday date time hwords =>
    split at h
    · next y mo d hour minute second hdate htime =>
      simp only [Option.bind_eq_bind, Option.bind_eq_some_iff, Option.ite_none_right_eq_some,
        Option.some.injEq] at h
      obtain ⟨year, hyear, month, hmonth, day, hday, ho, hho, mi, hmi, s, hs, hvalid, rfl⟩ := h
      obtain ⟨hmonth, -⟩ := writes_of_part? hmonth
      obtain ⟨hday, -⟩ := writes_of_part? hday
      obtain ⟨hho, -, hhour⟩ := writes_of_part? hho
      obtain ⟨hmi, -, hminute⟩ := writes_of_part? hmi
      obtain ⟨hs, -, hsecond⟩ := writes_of_part? hs
      refine ⟨⟨⟨year, month, day⟩, ho, mi, s⟩, ⟨weekday, date, time, hwords, ?_, ?_⟩,
        ⟨hvalid, hhour, hminute, hsecond⟩, rfl⟩
      · rw [hdate]
        exact .cons (writes_of_year? hyear) (.cons hmonth (.cons hday .nil))
      · rw [htime]
        exact .cons hho (.cons hmi (.cons hs .nil))
    · simp at h
  · simp at h

/-- A day of the week, the date and the time of day, filled up with zeros. -/
def stamp (weekday : List Char) (m : Moment) : List Char :=
  [' '].intercalate [weekday, joined '/' [4, 2, 2] m.date.parts, joined ':' [2, 2, 2] m.clock]

lemma words_stamp {weekday : List Char} (hweekday : IsWord weekday) {m : Moment} (h : m.Short) :
    words (stamp weekday m) =
      [weekday, joined '/' [4, 2, 2] m.date.parts, joined ':' [2, 2, 2] m.clock] := by
  refine words_intercalate fun w hw => ?_
  simp only [List.mem_cons, List.not_mem_nil, or_false] at hw
  rcases hw with rfl | rfl | rfl
  · exact hweekday
  · exact h.1.isWord_joined (by simp [Date.parts]) (by decide)
  · exact h.2.isWord_joined (by simp [Moment.clock]) (by decide)

lemma says_stamp {weekday : List Char} (hweekday : IsWord weekday) {m : Moment} (h : m.Short) :
    Says (stamp weekday m) m := by
  refine ⟨_, _, _, words_stamp hweekday h, ?_, ?_⟩
  · rw [h.1.splitOn_joined (by simp [Date.parts]) (by decide)]
    exact h.1.writes
  · rw [h.2.splitOn_joined (by simp [Moment.clock]) (by decide)]
    exact h.2.writes

/-- **The stamp of a moment gives its second.** -/
lemma ends?_stamp {weekday : List Char} (hweekday : IsWord weekday) {m : Moment} (h : m.Admitted)
    (hyear : m.date.year ≤ 9999) : ends? (stamp weekday m) = some m.seconds := by
  have hshort := h.short hyear
  obtain ⟨hy, hho, hmi⟩ := Moment.short_iff.1 hshort
  have hdate : (joined '/' [4, 2, 2] m.date.parts).splitOn '/' =
      [padded 4 m.date.year, padded 2 m.date.month, padded 2 m.date.day] :=
    hshort.1.splitOn_joined (by simp [Date.parts]) (by decide)
  have hclock : (joined ':' [2, 2, 2] m.clock).splitOn ':' =
      [padded 2 m.hour, padded 2 m.minute, padded 2 m.second] :=
    hshort.2.splitOn_joined (by simp [Moment.clock]) (by decide)
  have hday := le_trans h.1.2.2 (monthLength_le _ _)
  simp only [ends?, words_stamp hweekday hshort, hdate, hclock]
  rw [year?_padded hy.1, part?_padded hy.2.1 h.1.month.1 h.1.month.2,
    part?_padded hy.2.2 h.1.2.1 hday, part?_padded hho (Nat.zero_le _) h.2.1,
    part?_padded hmi.1 (Nat.zero_le _) h.2.2.1, part?_padded hmi.2 (Nat.zero_le _) h.2.2.2]
  exact if_pos h.1

/-! ### In a database -/

lemma Statements.after_of_end {line : List Char} (h : keyword line ≠ "ends") (st : Statements)
    (value : List Char) :
    ({ st with ends := value } : Statements).after line = { st.after line with ends := value } := by
  by_cases hvoid : IsVoid line
  · rw [Statements.after, Statements.after, if_pos hvoid, if_pos hvoid]
  · rw [Statements.after_eq hvoid, Statements.after_eq hvoid, if_neg h]

lemma Statements.foldl_after_of_end {ls : List (List Char)} (h : ∀ line ∈ ls, keyword line ≠ "ends")
    (st : Statements) (value : List Char) :
    ls.foldl Statements.after { st with ends := value } =
      { ls.foldl Statements.after st with ends := value } := by
  induction ls generalizing st with
  | nil => rfl
  | cons line ls ih =>
    rw [List.foldl_cons, Statements.after_of_end (h line (by simp)),
      ih fun l hl => h l (by simp [hl])]
    rfl

lemma Statements.client?_of_end (st : Statements) (value : List Char) (source ip : String) :
    ({ st with ends := value } : Statements).client? source ip =
      (st.client? source ip).map fun c => { c with expires := ends? value } := by
  simp only [Statements.client?]
  split
  · rw [Option.map_map]
    rfl
  · rfl

lemma ends?_trim (value : List Char) : ends? (trim value) = ends? value := by
  rw [ends?, ends?, words_trim]

lemma Slot.client?_of_end (s : Slot) (last : ∀ line ∈ s.below, keyword line ≠ "ends")
    {st : Statement} (h : String.ofList st.keyword = "ends") (source : String) :
    s.client? source st.line =
      (s.block.client? source).map fun c => { c with expires := ends? st.value } := by
  have hafter (before : Statements) :
      before.after st.line = { before with ends := trim st.value } := by
    rw [st.after_line, h]
    rfl
  rw [Slot.client?, List.foldl_append, List.foldl_cons, hafter,
    Statements.foldl_after_of_end last, Statements.client?_of_end, ends?_trim, Block.client?,
    Block.statements, s.inside_block, List.foldl_append]

def endingLine (weekday : List Char) (m : Moment) : List Char :=
  "ends".toList ++ ' ' :: (stamp weekday m ++ [';'])

lemma stamp_eq_concat (weekday : List Char) (m : Moment) :
    ∃ init, stamp weekday m = init ++ [(m.second % 10).digitChar] := by
  refine ⟨weekday ++ ' ' :: (joined '/' [4, 2, 2] m.date.parts ++ ' ' :: (padded 2 m.hour ++
    ':' :: (padded 2 m.minute ++ ':' :: padded 1 (m.second / 10)))), ?_⟩
  simp [stamp, joined, Moment.clock, padded, List.intercalate]

lemma plain_of_isDigit {c : Char} (h : c.isDigit = true) : c ≠ '"' ∧ c ≠ '{' ∧ c ≠ '}' := by
  refine ⟨?_, ?_, ?_⟩ <;>
  · rintro rfl
    exact absurd h (by decide)

lemma plain_of_mem_endingLine {weekday : List Char} (h : IsToken weekday) {m : Moment} {c : Char}
    (hc : c ∈ endingLine weekday m) : c ≠ '"' ∧ c ≠ '{' ∧ c ≠ '}' := by
  have hends : ∀ d ∈ "ends".toList, d ≠ '"' ∧ d ≠ '{' ∧ d ≠ '}' := by simp
  have hjoined {sep : Char} (hsep : sep ≠ '"' ∧ sep ≠ '{' ∧ sep ≠ '}') {ks ns : List ℕ}
      (hmem : c ∈ joined sep ks ns) : c ≠ '"' ∧ c ≠ '{' ∧ c ≠ '}' :=
    (isDigit_of_mem_joined hmem).elim (fun heq => heq ▸ hsep) plain_of_isDigit
  simp only [endingLine, List.mem_append, List.mem_cons, List.not_mem_nil, or_false] at hc
  rcases hc with hc | rfl | hc | rfl
  · exact hends c hc
  · decide
  · rcases mem_of_mem_intercalate hc with rfl | ⟨w, hw, hmem⟩
    · decide
    · simp only [List.mem_cons, List.not_mem_nil, or_false] at hw
      rcases hw with rfl | rfl | rfl
      · exact h.2 c hmem
      · exact hjoined (by decide) hmem
      · exact hjoined (by decide) hmem
  · decide

lemma trim_endingLine (weekday : List Char) (m : Moment) :
    trim (endingLine weekday m) = endingLine weekday m := by
  have hends : endingLine weekday m = 'e' :: (("nds ".toList ++ stamp weekday m) ++ [';']) := by
    simp [endingLine]
  rw [hends]
  exact trim_cons_concat (by decide) (by decide) _

def ending {weekday : List Char} (h : IsToken weekday) (m : Moment) : Statement where
  line := endingLine weekday m
  keyword := "ends".toList
  value := stamp weekday m
  more := 0
  isWord_keyword := by decide
  getLast?_value := by
    obtain ⟨init, hinit⟩ := stamp_eq_concat weekday m
    rw [hinit, List.getLast?_concat]
    intro hlast
    have hdigit : (m.second % 10).digitChar.isDigit = true :=
      isDigit_of_mem_padded (k := 1) (n := m.second) (by simp [padded])
    rw [Option.some.inj hlast] at hdigit
    exact absurd hdigit (by decide)
  trim_line := trim_endingLine weekday m
  unbraced := by
    have hplain (c : Char) (hc : c ∈ endingLine weekday m) := plain_of_mem_endingLine h hc
    have hopen : '{' ∉ endingLine weekday m := fun hc => (hplain _ hc).2.1 rfl
    have hclose : '}' ∉ endingLine weekday m := fun hc => (hplain _ hc).2.2 rfl
    rw [trim_endingLine, bare_of_not_mem fun hc => (hplain _ hc).1 rfl]
    simp [hasBrace, hopen, hclose]

/-- **The ends of leases are exact.** Of every second of the years 1 to 9999 the stamp, with any day
of the week, gives this second as the end; the seconds are counted from the start of 1970. Any value
that gives an end says a moment that may be, and the end is the second of this moment, so ends are
in the order of the calendar. A value that says a moment that may not be, or that has not three
words, gives no end. An `ends` statement in a lease block changes at most the end of the client of
the block, to what its value gives, and the database is accepted. -/
theorem end_times_are_exact (source : String) :
    (∀ weekday, IsWord weekday → ∀ e : ℤ, -62135596800 ≤ e → e ≤ 253402300799 →
      ends? (stamp weekday (Moment.ofSeconds e)) = some e) ∧
    Moment.ofSeconds 0 = ⟨⟨1970, 1, 1⟩, 0, 0, 0⟩ ∧
    (∀ value e, ends? value = some e →
      ∃ m : Moment, Says value m ∧ m.Admitted ∧ (m.Exists → Moment.ofSeconds e = m)) ∧
    (∀ value₁ value₂ m₁ m₂ e₁ e₂, Says value₁ m₁ → Says value₂ m₂ → m₁.Exists → m₂.Exists →
      ends? value₁ = some e₁ → ends? value₂ = some e₂ → (e₁ < e₂ ↔ m₁.parts < m₂.parts)) ∧
    (∀ value m, Says value m → ¬ m.Admitted → ends? value = none) ∧
    (∀ value, (words value).length ≠ 3 → ends? value = none) ∧
    (∀ weekday, IsToken weekday → ∀ m, ∃ st : Statement, st.line = endingLine weekday m ∧
      String.ofList st.keyword = "ends" ∧ st.value = stamp weekday m) ∧
    ∀ (s : Slot) (st : Statement) (t : List Char), String.ofList st.keyword = "ends" →
      Text.lines t = s.upper ++ st.line :: s.lower →
      ∃ listed, parse source t = .ok listed ∧
        ((∀ line ∈ s.below, keyword line ≠ "ends") →
          listed = Client.lastOfEach (s.before.clients source ++
            (((s.block.client? source).map fun c => { c with expires := ends? st.value }).toList ++
              s.after.clients source))) := by
  have hsound {value : List Char} {m : Moment} {e : ℤ} (hsaid : Says value m)
      (h : ends? value = some e) : m.Admitted ∧ m.seconds = e := by
    obtain ⟨n, hsaid', hadmitted, hseconds⟩ := says_of_ends? h
    rw [hsaid.unique hsaid']
    exact ⟨hadmitted, hseconds⟩
  refine ⟨?_, ?_, ?_, ?_, ?_, ?_, ?_, ?_⟩
  · intro weekday hweekday e hfirst hlast
    rw [ends?_stamp hweekday (Moment.exists_ofSeconds e).admitted
      (Moment.year_ofSeconds_le hfirst hlast), Moment.seconds_ofSeconds hfirst]
  · exact Moment.ofSeconds_seconds (m := ⟨⟨1970, 1, 1⟩, 0, 0, 0⟩) (by decide)
  · intro value e h
    obtain ⟨m, hsaid, hadmitted, rfl⟩ := says_of_ends? h
    exact ⟨m, hsaid, hadmitted, Moment.ofSeconds_seconds⟩
  · intro value₁ value₂ m₁ m₂ e₁ e₂ hsaid₁ hsaid₂ hm₁ hm₂ h₁ h₂
    rw [← (hsound hsaid₁ h₁).2, ← (hsound hsaid₂ h₂).2]
    exact Moment.seconds_lt_iff hm₁ hm₂
  · intro value m hsaid hm
    exact Option.eq_none_iff_forall_ne_some.2 fun e h => hm (hsound hsaid h).1
  · intro value hlength
    refine Option.eq_none_iff_forall_ne_some.2 fun e h => hlength ?_
    obtain ⟨m, ⟨weekday, date, time, hwords, -⟩, -⟩ := says_of_ends? h
    rw [hwords]
    rfl
  · intro weekday hweekday m
    exact ⟨ending hweekday m, rfl, rfl, rfl⟩
  · intro s st t hkeyword ht
    have hinner : IsInner st.line := .inr st.unbraced
    rw [← s.lines_fill hinner] at ht
    refine ⟨_, parse_of_layout ht source, fun last => ?_⟩
    rw [s.clients_fill, s.client?_of_end last hkeyword]

def leapDay : Moment := ⟨⟨2024, 2, 29⟩, 23, 59, 59⟩

def lostDay : Moment := ⟨⟨2023, 2, 29⟩, 23, 59, 59⟩

theorem end_times_are_exact_leapDay :
    ends? "4 2024/02/29 23:59:59".toList = some 1709251199 ∧
    ends? "4 2023/02/29 23:59:59".toList = none ∧ ends? "never".toList = none ∧
    parse "" (tvWith "ends 4 2024/02/29 23:59:59;".toList) =
      .ok [⟨"aa:00:00:00:00:01", "10.0.0.1", "t\x7bv", some 1709251199, ""⟩] := by
  obtain ⟨hstamp, -, -, -, hnone, hwords, hline, hfile⟩ := end_times_are_exact ""
  have hmoment : Moment.ofSeconds 1709251199 = leapDay :=
    Moment.ofSeconds_seconds (m := leapDay) (by decide)
  have hends := hstamp "4".toList (by decide) 1709251199 (by decide) (by decide)
  rw [hmoment] at hends
  have hlost : Says (stamp "4".toList lostDay) lostDay :=
    says_stamp (by decide) (Moment.short_iff.2 (by decide))
  refine ⟨hends, hnone _ lostDay hlost (by decide), hwords _ (by decide), ?_⟩
  · obtain ⟨st, hst, hkeyword, hvalue⟩ := hline "4".toList (by decide) leapDay
    obtain ⟨listed, hparse, hlisted⟩ := hfile tvSlot st (tvWith "ends 4 2024/02/29 23:59:59;".toList)
      hkeyword (by rw [hst]; decide +kernel)
    rw [hparse, hlisted (by simp [tvSlot]), hvalue, hends]
    decide +kernel

end Lease.Isc

end RouterAgent
