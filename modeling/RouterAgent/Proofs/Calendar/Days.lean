import Mathlib.Data.Nat.Basic
import Mathlib.Order.Monotone.Basic
import RouterAgent.Calendar

/-!
The days of the calendar, one after the other.

The number of a day counts the days from the first one on: the next day has the next number, and of
two days the earlier one has the smaller number.
-/

namespace RouterAgent.Calendar

/-! ### Years and months -/

def yearLength (year : ℕ) : ℕ := if isLeap year then 366 else 365

lemma isLeap_iff {year : ℕ} : isLeap year = true ↔ 4 ∣ year ∧ (¬ 100 ∣ year ∨ 400 ∣ year) := by
  simp [isLeap, Nat.dvd_iff_mod_eq_zero]

lemma daysBeforeYear_succ {year : ℕ} (h : 1 ≤ year) :
    daysBeforeYear (year + 1) = daysBeforeYear year + yearLength year := by
  obtain ⟨y, rfl⟩ := Nat.exists_eq_add_of_le' h
  -- the year is the last of four, of a hundred or of four hundred years, or of none of them
  have hfour : 100 ∣ y + 1 → 4 ∣ y + 1 := Nat.dvd_trans (by decide)
  have hhundred : 400 ∣ y + 1 → 100 ∣ y + 1 := Nat.dvd_trans (by decide)
  have hmore : y / 100 ≤ y / 4 := Nat.div_le_div_left (by decide) (by decide)
  simp only [daysBeforeYear, yearLength, Nat.add_sub_cancel, isLeap_iff, Nat.succ_div]
  generalize y / 4 = a, y / 100 = b, y / 400 = c at *
  by_cases h4 : 4 ∣ y + 1
  · by_cases h100 : 100 ∣ y + 1
    · by_cases h400 : 400 ∣ y + 1
      · simp only [h4, h100, h400, if_true, not_true_eq_false, false_or, and_self]
        omega
      · simp only [h4, h100, h400, if_true, if_false, not_true_eq_false, or_self, and_false]
        omega
    · have h400 : ¬ 400 ∣ y + 1 := fun h => h100 (hhundred h)
      simp only [h4, h100, h400, if_true, if_false, not_false_eq_true, true_or, and_self]
      omega
  · have h100 : ¬ 100 ∣ y + 1 := fun h => h4 (hfour h)
    have h400 : ¬ 400 ∣ y + 1 := fun h => h100 (hhundred h)
    simp only [h4, h100, h400, if_false, false_and]
    omega

lemma daysBeforeYear_mono {a b : ℕ} (ha : 1 ≤ a) (h : a ≤ b) :
    daysBeforeYear a ≤ daysBeforeYear b := by
  have hstep (year : ℕ) (hyear : 1 ≤ year) : daysBeforeYear year ≤ daysBeforeYear (year + 1) := by
    rw [daysBeforeYear_succ hyear]
    exact Nat.le_add_right _ _
  exact monotoneOn_nat_Ici_of_le_succ hstep ha (le_trans ha h) h

lemma daysBeforeMonth_succ {month : ℕ} (h : 1 ≤ month) (year : ℕ) :
    daysBeforeMonth year (month + 1) = daysBeforeMonth year month + monthLength year month := by
  obtain ⟨m, rfl⟩ := Nat.exists_eq_add_of_le' h
  rfl

lemma daysBeforeMonth_mono (year : ℕ) {a b : ℕ} (ha : 1 ≤ a) (h : a ≤ b) :
    daysBeforeMonth year a ≤ daysBeforeMonth year b := by
  have hstep (month : ℕ) (hmonth : 1 ≤ month) :
      daysBeforeMonth year month ≤ daysBeforeMonth year (month + 1) := by
    rw [daysBeforeMonth_succ hmonth]
    exact Nat.le_add_right _ _
  exact monotoneOn_nat_Ici_of_le_succ hstep ha (le_trans ha h) h

lemma daysBeforeMonth_thirteen (year : ℕ) : daysBeforeMonth year 13 = yearLength year := by
  cases h : isLeap year <;> simp [daysBeforeMonth, monthLength, yearLength, h]

lemma monthLength_le (year month : ℕ) : monthLength year month ≤ 31 := by
  unfold monthLength
  split
  · split <;> decide
  all_goals decide

lemma one_le_monthLength_iff {year month : ℕ} :
    1 ≤ monthLength year month ↔ 1 ≤ month ∧ month ≤ 12 := by
  constructor
  · intro h
    unfold monthLength at h
    split at h <;> omega
  · rintro ⟨hone, htop⟩
    unfold monthLength
    split
    · split <;> decide
    all_goals grind

namespace Date

lemma Valid.month {d : Date} (h : d.Valid) : 1 ≤ d.month ∧ d.month ≤ 12 :=
  one_le_monthLength_iff.1 (le_trans h.2.1 h.2.2)

/-! ### The next day -/

def next (d : Date) : Date :=
  if d.day < monthLength d.year d.month then { d with day := d.day + 1 }
  else if d.month < 12 then ⟨d.year, d.month + 1, 1⟩
  else ⟨d.year + 1, 1, 1⟩

lemma Valid.next {d : Date} (h : d.Valid) : d.next.Valid := by
  obtain ⟨hyear, hday, -⟩ := h
  unfold Date.next
  split
  · next hlt => exact ⟨hyear, Nat.le_add_left .., hlt⟩
  · split
    · next hmonth => exact ⟨hyear, le_rfl, one_le_monthLength_iff.2 ⟨Nat.le_add_left .., hmonth⟩⟩
    · exact ⟨Nat.le_add_left .., le_rfl, one_le_monthLength_iff.2 ⟨le_rfl, Nat.le_add_left ..⟩⟩

lemma Valid.number_next {d : Date} (h : d.Valid) : d.next.number = d.number + 1 := by
  obtain ⟨hmonth, htop⟩ := h.month
  obtain ⟨hyear, -, hday⟩ := h
  unfold Date.next
  split
  · rfl
  · next hlast =>
    split
    · simp only [number, daysBeforeMonth_succ hmonth]
      omega
    · next hdecember =>
      have hlength := daysBeforeMonth_succ hmonth d.year
      rw [show d.month + 1 = 13 by omega, daysBeforeMonth_thirteen] at hlength
      have hfirst : daysBeforeMonth (d.year + 1) 1 = 0 := rfl
      simp only [number, daysBeforeYear_succ hyear, hfirst]
      omega

example : (Date.mk 2000 2 28).next = ⟨2000, 2, 29⟩ := by decide
example : (Date.mk 1900 2 28).next = ⟨1900, 3, 1⟩ := by decide

/-! ### The order of the days -/

/-- The parts of a day, in the order in which they decide which of two days is earlier. -/
def parts (d : Date) : List ℕ := [d.year, d.month, d.day]

lemma Valid.lt_number {d : Date} (h : d.Valid) : daysBeforeYear d.year < d.number := by
  have hday := h.2.1
  unfold number
  omega

lemma Valid.number_le {d : Date} (h : d.Valid) :
    d.number ≤ daysBeforeYear d.year + daysBeforeMonth d.year (d.month + 1) := by
  rw [daysBeforeMonth_succ h.month.1, number]
  have hday := h.2.2
  omega

lemma Valid.number_lt {a b : Date} (ha : a.Valid) (hb : b.Valid) (h : a.parts < b.parts) :
    a.number < b.number := by
  simp only [parts, List.cons_lt_cons_iff, List.lt_irrefl, and_false, or_false] at h
  rcases h with hyear | ⟨hyear, hmonth | ⟨hmonth, hday⟩⟩
  · have hyears := daysBeforeYear_mono (Nat.le_add_left 1 a.year) hyear
    have hmonths := daysBeforeMonth_mono a.year (Nat.le_add_left 1 a.month)
      (show a.month + 1 ≤ 13 by have := ha.month.2; omega)
    rw [daysBeforeYear_succ ha.1] at hyears
    rw [daysBeforeMonth_thirteen] at hmonths
    have hlow := ha.number_le
    have hhigh := hb.lt_number
    omega
  · have hmonths := daysBeforeMonth_mono a.year (Nat.le_add_left 1 a.month) hmonth
    have hlow := ha.number_le
    have hday := hb.2.1
    rw [number, number, ← hyear] at *
    omega
  · rw [number, number, ← hyear, ← hmonth]
    omega

end Date

end RouterAgent.Calendar
