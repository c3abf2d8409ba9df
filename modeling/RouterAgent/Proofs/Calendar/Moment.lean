import Mathlib.Algebra.Order.Ring.Int
import Mathlib.Data.List.Lex
import Mathlib.Logic.Function.Iterate
import RouterAgent.Proofs.Calendar.Days

/-!
The seconds of the calendar, one after the other.

A moment is a day and a time of day. From the first moment of year 1 on every moment is reached by
going on second by second, so the seconds counted from the start of 1970 have a moment each, and an
earlier moment has a smaller count.
-/

namespace RouterAgent.Calendar

structure Moment where
  date : Date
  hour : ℕ
  minute : ℕ
  second : ℕ
deriving DecidableEq

namespace Moment

def clock (m : Moment) : List ℕ := [m.hour, m.minute, m.second]

def parts (m : Moment) : List ℕ := m.date.parts ++ m.clock

def Exists (m : Moment) : Prop :=
  m.date.Valid ∧ m.hour ≤ 23 ∧ m.minute ≤ 59 ∧ m.second ≤ 59

instance (m : Moment) : Decidable m.Exists := inferInstanceAs (Decidable (_ ∧ _ ∧ _ ∧ _))

def seconds (m : Moment) : ℤ := Calendar.seconds m.date m.hour m.minute m.second

lemma eq_of_parts {a b : Moment} (h : a.parts = b.parts) : a = b := by
  obtain ⟨⟨y, mo, d⟩, ho, mi, s⟩ := a
  obtain ⟨⟨y', mo', d'⟩, ho', mi', s'⟩ := b
  simpa [parts, clock, Date.parts, and_assoc] using h

/-! ### Second by second -/

def next (m : Moment) : Moment :=
  if m.second < 59 then { m with second := m.second + 1 }
  else if m.minute < 59 then { m with minute := m.minute + 1, second := 0 }
  else if m.hour < 23 then { m with hour := m.hour + 1, minute := 0, second := 0 }
  else ⟨m.date.next, 0, 0, 0⟩

def first : Moment := ⟨⟨1, 1, 1⟩, 0, 0, 0⟩

/-- The moment of a second: the first moment is 62135596800 seconds before the start of 1970, and
from there it is reached second by second. -/
def ofSeconds (e : ℤ) : Moment := next^[(e + 62135596800).toNat] first

lemma exists_next {m : Moment} (h : m.Exists) : m.next.Exists := by
  obtain ⟨hdate, hhour, hminute, hsecond⟩ := h
  unfold next
  split
  · next hlt => exact ⟨hdate, hhour, hminute, hlt⟩
  · split
    · next hlt => exact ⟨hdate, hhour, hlt, Nat.zero_le _⟩
    · split
      · next hlt => exact ⟨hdate, hlt, Nat.zero_le _, Nat.zero_le _⟩
      · exact ⟨hdate.next, Nat.zero_le _, Nat.zero_le _, Nat.zero_le _⟩

lemma seconds_next {m : Moment} (h : m.Exists) : m.next.seconds = m.seconds + 1 := by
  obtain ⟨hdate, hhour, hminute, hsecond⟩ := h
  have hday := hdate.number_next
  unfold next
  split
  · simp only [seconds, Calendar.seconds]
    omega
  · split
    · simp only [seconds, Calendar.seconds]
      omega
    · split
      · simp only [seconds, Calendar.seconds]
        omega
      · simp only [seconds, Calendar.seconds, hday]
        omega

lemma exists_first : first.Exists := by decide

lemma seconds_first : first.seconds = -62135596800 := by decide

lemma exists_iterate_next (n : ℕ) : (next^[n] first).Exists := by
  induction n with
  | zero => exact exists_first
  | succ n ih =>
    rw [Function.iterate_succ_apply']
    exact exists_next ih

lemma seconds_iterate_next (n : ℕ) : (next^[n] first).seconds = n - 62135596800 := by
  induction n with
  | zero => exact seconds_first
  | succ n ih =>
    rw [Function.iterate_succ_apply', seconds_next (exists_iterate_next n), ih]
    omega

lemma exists_ofSeconds (e : ℤ) : (ofSeconds e).Exists := exists_iterate_next _

lemma seconds_ofSeconds {e : ℤ} (h : -62135596800 ≤ e) : (ofSeconds e).seconds = e := by
  rw [ofSeconds, seconds_iterate_next]
  omega

/-! ### The order of the moments -/

variable {a b m : Moment}

lemma seconds_lt (ha : a.Exists) (hb : b.Exists) (h : a.parts < b.parts) :
    a.seconds < b.seconds := by
  obtain ⟨hdate, hhour, hminute, hsecond⟩ := ha
  have hparts : a.date.parts < b.date.parts ∨ a.date = b.date ∧ a.clock < b.clock := by
    obtain ⟨⟨y, mo, d⟩, ho, mi, s⟩ := a
    obtain ⟨⟨y', mo', d'⟩, ho', mi', s'⟩ := b
    simp only [parts, clock, Date.parts, List.cons_append, List.nil_append, List.cons_lt_cons_iff,
      List.lt_irrefl, and_false, or_false, Date.mk.injEq] at h ⊢
    omega
  rcases hparts with hday | ⟨hday, hclock⟩
  · have hnumber := hdate.number_lt hb.1 hday
    simp only [seconds, Calendar.seconds]
    omega
  · simp only [clock, List.cons_lt_cons_iff, List.lt_irrefl, and_false, or_false] at hclock
    simp only [seconds, Calendar.seconds, hday]
    omega

/-- **The counts are in the order of the calendar.** -/
theorem seconds_lt_iff (ha : a.Exists) (hb : b.Exists) :
    a.seconds < b.seconds ↔ a.parts < b.parts := by
  refine ⟨fun h => ?_, seconds_lt ha hb⟩
  rcases lt_trichotomy a.parts b.parts with hlt | heq | hgt
  · exact hlt
  · rw [eq_of_parts heq] at h
    exact absurd h (lt_irrefl _)
  · exact absurd h (lt_asymm (seconds_lt hb ha hgt))

lemma ofSeconds_seconds (h : m.Exists) : ofSeconds m.seconds = m := by
  have hfirst : -62135596800 ≤ m.seconds := by
    have hdays := h.1.lt_number
    simp only [seconds, Calendar.seconds, epoch]
    omega
  have hcount := seconds_ofSeconds hfirst
  apply eq_of_parts
  by_contra hne
  rcases lt_or_gt_of_ne hne with hlt | hgt
  · exact absurd hcount (seconds_lt (exists_ofSeconds _) h hlt).ne
  · exact absurd hcount (seconds_lt h (exists_ofSeconds _) hgt).ne'

def last : Moment := ⟨⟨9999, 12, 31⟩, 23, 59, 59⟩

lemma seconds_last : last.seconds = 253402300799 := by decide

lemma year_ofSeconds_le {e : ℤ} (hfirst : -62135596800 ≤ e) (hlast : e ≤ 253402300799) :
    (ofSeconds e).date.year ≤ 9999 := by
  by_contra hlate
  have hlater : last.parts < (ofSeconds e).parts :=
    List.cons_lt_cons_iff.2 (.inl (not_le.1 hlate))
  have hcount := seconds_lt (by decide) (exists_ofSeconds e) hlater
  rw [seconds_last, seconds_ofSeconds hfirst] at hcount
  omega

end Moment

end RouterAgent.Calendar
