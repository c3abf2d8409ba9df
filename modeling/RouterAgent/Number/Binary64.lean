import RouterAgent.Number.Rounding
import RouterAgent.Text.Quoted

/-!
Binary floating-point numbers of 64 bits.

The magnitude of a finite number is counted in units of `2 ^ -1074`, the least magnitude above
zero. A count belongs to a number if it is below `limit` and has at most 53 bits, so sums, products
with powers of two and comparisons are those of whole numbers, followed by one rounding.
-/

namespace RouterAgent.Number

/-- The number of units in one is `2 ^ unitBits`. -/
def unitBits : Nat := 1074

/-- The number of bits that a count of units may have. -/
def limitBits : Nat := 2098

/-- The first count of units that is too large for a finite number. -/
def limit : Nat := Nat.pow 2 limitBits

theorem limit_pos : 0 < limit := by
  unfold limit
  exact pow_two_pos limitBits

structure Magnitude where
  units : Nat
  isShort : Short units
  lt_limit : units < limit
deriving DecidableEq

namespace Magnitude

instance : Inhabited Magnitude := ⟨0, short_zero, limit_pos⟩

def zero : Magnitude := default

end Magnitude

/-- A floating-point number: a signed magnitude, a signed infinity, or not a number. -/
inductive Binary64 where
  | nan
  | infinite (negative : Bool)
  | finite (negative : Bool) (magnitude : Magnitude)
deriving DecidableEq

namespace Binary64

instance : Inhabited Binary64 := ⟨finite false Magnitude.zero⟩

/-- The number of so many units, or the infinity if they are too many. -/
def ofUnits (negative : Bool) (units : Nat) (h : Short units) : Binary64 :=
  if hl : units < limit then finite negative ⟨units, h, hl⟩ else infinite negative

/-- The number nearest to `num / den`. -/
def ofRatio (negative : Bool) (num den : Nat) : Binary64 :=
  ofUnits negative (roundShort (num * Nat.pow 2 unitBits) den) (short_roundShort _ _)

/-- The number nearest to a whole number, unless that one is too large. -/
def ofInt? (n : Int) : Option Binary64 :=
  match ofRatio (n < 0) n.natAbs 1 with
  | finite negative m => some (finite negative m)
  | _ => none

def zero : Binary64 := finite false Magnitude.zero

/-! ### Order -/

def signed (negative : Bool) (units : Nat) : Int := if negative then -(units : Int) else units

/-- Whether the first number is less than the second; nothing is less or greater than `nan`. -/
def lt : Binary64 → Binary64 → Bool
  | nan, _ | _, nan => false
  | infinite a, infinite b => a && !b
  | infinite a, finite _ _ => a
  | finite _ _, infinite b => !b
  | finite a m, finite b n => signed a m.units < signed b n.units

def le : Binary64 → Binary64 → Bool
  | nan, _ | _, nan => false
  | x, y => !lt y x

/-- Whether two numbers have one value; the two zeros do and `nan` has none. -/
def same (x y : Binary64) : Bool := le x y && le y x

def isNegative (x : Binary64) : Bool := lt x zero

def isNonpositive (x : Binary64) : Bool := le x zero

/-- The second number if it is less than the first, and else the first. -/
def capped (x top : Binary64) : Binary64 := if lt top x then top else x

/-! ### Arithmetic -/

/-- The number times a power of two. -/
def scale : Binary64 → Nat → Binary64
  | finite negative m, k => ofUnits negative (m.units * Nat.pow 2 k) (m.isShort.mul_two_pow k)
  | x, _ => x

def add : Binary64 → Binary64 → Binary64
  | nan, _ | _, nan => nan
  | infinite a, infinite b => if a = b then infinite a else nan
  | infinite a, finite _ _ => infinite a
  | finite _ _, infinite b => infinite b
  | finite a m, finite b n =>
    let sum := signed a m.units + signed b n.units
    let negative := if sum = 0 then a && b else decide (sum < 0)
    ofRatio negative sum.natAbs (Nat.pow 2 unitBits)

def neg : Binary64 → Binary64
  | nan => nan
  | infinite negative => infinite !negative
  | finite negative m => finite (!negative) m

def sub (x y : Binary64) : Binary64 := x.add y.neg

/-! ### Bits -/

/-- The exponent field and the fraction field of a count of units. -/
def fields (units : Nat) : Nat :=
  if units < Nat.pow 2 52 then units
  else (units.log2 - 51) * Nat.pow 2 52 + (units / Nat.pow 2 (units.log2 - 52) - Nat.pow 2 52)

def bits : Binary64 → Nat
  | nan => 2047 * Nat.pow 2 52 + Nat.pow 2 51
  | infinite negative => negative.toNat * Nat.pow 2 63 + 2047 * Nat.pow 2 52
  | finite negative m => negative.toNat * Nat.pow 2 63 + fields m.units

/-- The bits of a number as sixteen hexadecimal digits, and `nan` for every number that is none. -/
def hex : Binary64 → String
  | nan => "nan"
  | x => String.ofList (Text.hexDigits 16 x.bits)

example : (ofRatio false 1 2).hex = "3fe0000000000000" := by decide +kernel
example : (ofRatio true 1 10).hex = "bfb999999999999a" := by decide +kernel

/-! ### One decimal place -/

/-- The text of a number with one decimal place, a half going to the even neighbour. -/
def tenths : Binary64 → String
  | nan => "nan"
  | infinite negative => if negative then "-inf" else "inf"
  | finite negative m =>
    let t := roundDiv (m.units * 10) (Nat.pow 2 unitBits)
    (if negative then "-" else "") ++ toString (t / 10) ++ "." ++ toString (t % 10)

example : (ofRatio false 1 4).tenths = "0.2" := by decide +kernel
example : (ofRatio false 3 4).tenths = "0.8" := by decide +kernel

end Binary64

end RouterAgent.Number
