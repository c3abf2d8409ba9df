import RouterAgent.Text.Digit

/-!
Whole numbers as texts: the reading of a numeral, and the writing of one.

A numeral is an optional sign and digits of any script; single underscores may stand between two
digits. A numeral of more than `maxDigits` digits is not read and a number of so many digits is
not written.
-/

namespace RouterAgent.Text

/-- The greatest number of digits that a numeral may have. -/
def maxDigits : Nat := 4300

def natural? (cs : List Char) : Option Nat :=
  (row? digit? cs).bind fun ds => if ds.length ≤ maxDigits then some (ofDigits ds) else none

def integer? : List Char → Option Int
  | '-' :: cs => (natural? cs).map fun n => -(n : Int)
  | '+' :: cs => (natural? cs).map Int.ofNat
  | cs => (natural? cs).map Int.ofNat

example : integer? "-1_0".toList = some (-10) := by decide +kernel
example : integer? "1__0".toList = none := by decide +kernel
example : integer? "_1".toList = none := by decide +kernel
example : integer? "٣7".toList = some 37 := by decide +kernel

def ofInteger (n : Int) : String := toString n

/-- A number is written only if it has at most `maxDigits` digits. -/
def ofInteger? (n : Int) : Option String :=
  if n.natAbs < Nat.pow 10 maxDigits then some (ofInteger n) else none

end RouterAgent.Text
