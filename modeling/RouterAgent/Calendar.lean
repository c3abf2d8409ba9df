/-!
The Gregorian calendar, extended to every year from 1 on, and seconds counted from the start of
1970.
-/

namespace RouterAgent.Calendar

def isLeap (year : Nat) : Bool := year % 4 = 0 && (year % 100 ≠ 0 || year % 400 = 0)

/-- The length of a month, and 0 for a month that does not exist. -/
def monthLength (year month : Nat) : Nat :=
  match month with
  | 2 => if isLeap year then 29 else 28
  | 4 | 6 | 9 | 11 => 30
  | 1 | 3 | 5 | 7 | 8 | 10 | 12 => 31
  | _ => 0

structure Date where
  year : Nat
  month : Nat
  day : Nat
deriving DecidableEq

def Date.Valid (d : Date) : Prop :=
  1 ≤ d.year ∧ 1 ≤ d.day ∧ d.day ≤ monthLength d.year d.month

instance (d : Date) : Decidable d.Valid := inferInstanceAs (Decidable (_ ∧ _ ∧ _))

def daysBeforeYear (year : Nat) : Nat :=
  let y := year - 1
  365 * y + y / 4 - y / 100 + y / 400

/-- The number of days before the first day of a month, within its year. -/
def daysBeforeMonth (year : Nat) : Nat → Nat
  | 0 | 1 => 0
  | month + 1 => daysBeforeMonth year month + monthLength year month

/-- The number of days from the first day of year 1 to a day, both counted. -/
def Date.number (d : Date) : Nat :=
  daysBeforeYear d.year + daysBeforeMonth d.year d.month + d.day

/-- The number of the first day of 1970. -/
def epoch : Nat := 719163

example : (Date.mk 1970 1 1).number = epoch := by decide

/-- The second of a day and a time of day, counted from the start of 1970. -/
def seconds (d : Date) (hour minute second : Nat) : Int :=
  ((d.number : Int) - epoch) * 86400 + hour * 3600 + minute * 60 + second

example : seconds ⟨2023, 1, 5⟩ 22 0 0 = 1672956000 := by decide

end RouterAgent.Calendar
