import RouterAgent.Number.Binary64

/-!
The shortest decimal text of a floating-point number.

The digits are the fewest that read back as the number, and of those the nearest to it. They are
sought grid by grid: with `p` digits the two neighbours of the number on the grid of that many
digits are tried, and the first grid with a neighbour that reads back decides.
-/

namespace RouterAgent.Number

def digitCount (n : Nat) : Nat := (Nat.toDigits 10 n).length

/-- The decimal exponent of the first digit of `num / den`, for a quotient above zero. -/
def leadingExponent (num den : Nat) : Int :=
  if den ≤ num then (digitCount (num / den) : Int) - 1
  else -(digitCount ((den + num - 1) / num - 1) : Int)

def timesTenPow (num den : Nat) (e : Int) : Nat × Nat :=
  (num * Nat.pow 10 e.toNat, den * Nat.pow 10 (-e).toNat)

def ofDecimal (negative : Bool) (m : Nat) (e : Int) : Binary64 :=
  Binary64.ofRatio negative (timesTenPow m 1 e).1 (timesTenPow m 1 e).2

/-- Decimal digits, read as one whole number, and the exponent of the last of them. -/
structure Digits where
  significand : Nat
  exponent : Int
deriving DecidableEq

namespace Digits

/-- The point of the grid of `p` digits that reads back as `units`, if there is one. -/
def onGrid (units p : Nat) : Option Digits :=
  let e := leadingExponent units (Nat.pow 2 unitBits) - ((p : Int) - 1)
  let q := timesTenPow units (Nat.pow 2 unitBits) (-e)
  let reads (m : Nat) : Bool :=
    match ofDecimal false m e with
    | .finite _ n => n.units = units
    | _ => false
  let below := q.1 / q.2
  match reads below, reads (below + 1) with
  | true, true => some ⟨roundDiv q.1 q.2, e⟩
  | true, false => some ⟨below, e⟩
  | false, true => some ⟨below + 1, e⟩
  | false, false => none

/-- The fewest digits that read back as `units`; seventeen always do. -/
def shortest (units : Nat) : Digits :=
  if units = 0 then ⟨0, 0⟩
  else ((List.range 17).findSome? fun k => onGrid units (k + 1)).getD ⟨0, 0⟩

def stripped : Nat → Digits → Digits
  | 0, d => d
  | fuel + 1, d =>
    if d.significand % 10 = 0 ∧ d.significand ≠ 0 then
      stripped fuel ⟨d.significand / 10, d.exponent + 1⟩
    else d

/-- Digits with a point: positional where the first digit stands for `10 ^ -4` to `10 ^ 15`, and
with an exponent of at least two digits elsewhere. -/
def text (d : Digits) : String :=
  let ds := Nat.toDigits 10 d.significand
  let first := d.exponent + (ds.length : Int) - 1
  if -4 ≤ first ∧ first < 16 then
    if first < 0 then
      String.ofList ('0' :: '.' :: List.replicate ((-first).toNat - 1) '0' ++ ds)
    else
      let whole := ds.take (first.toNat + 1)
      let fraction := ds.drop (first.toNat + 1)
      String.ofList (whole ++ List.replicate (first.toNat + 1 - whole.length) '0' ++ '.' ::
        (if fraction.isEmpty then ['0'] else fraction))
  else
    let mantissa := ds.take 1 ++ (if ds.length = 1 then [] else '.' :: ds.drop 1)
    let size := Nat.toDigits 10 first.natAbs
    String.ofList (mantissa ++ 'e' :: (if first < 0 then '-' else '+') ::
      List.replicate (2 - size.length) '0' ++ size)

end Digits

namespace Binary64

/-- The spellings of the numbers that have no digits. -/
structure Spelling where
  nan : String
  infinity : String

def textWith (s : Spelling) : Binary64 → String
  | nan => s.nan
  | infinite negative => (if negative then "-" else "") ++ s.infinity
  | finite negative m =>
    (if negative then "-" else "") ++ (Digits.stripped 17 (Digits.shortest m.units)).text

def text : Binary64 → String := textWith ⟨"nan", "inf"⟩

example : (ofRatio false 1 10).text = "0.1" := by decide +kernel
example : (ofRatio false 1 1).text = "1.0" := by decide +kernel
example : (ofRatio true (10 ^ 16) 1).text = "-1e+16" := by decide +kernel
example : (ofRatio false 1 (10 ^ 5)).text = "1e-05" := by decide +kernel

end Binary64

end RouterAgent.Number
