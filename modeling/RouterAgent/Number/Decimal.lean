import RouterAgent.Number.Shortest
import RouterAgent.Text.Blank
import RouterAgent.Text.Integer

/-!
Floating-point numbers from texts.

A text is an optional sign and either a name of a special number in any case, or digits with at
most one point among them and an optional exponent. Single underscores may stand between two
digits. The number read is the one nearest to what the text says.
-/

namespace RouterAgent.Number

open RouterAgent.Text

/-- The value of one of the ten common digits. -/
def plainDigit? (c : Char) : Option Nat := if c.isDigit then some (c.toNat - '0'.toNat) else none

/-- A row of common digits, perhaps empty, with single underscores between two digits. -/
def plainRow? (cs : List Char) : Option (List Nat) :=
  if cs.isEmpty then some [] else row? plainDigit? cs

/-- A text before and after the first character that satisfies `p`, if there is one. -/
def cut (p : Char → Bool) (cs : List Char) : List Char × Option (List Char) :=
  match cs.dropWhile fun c => !p c with
  | [] => (cs, none)
  | _ :: rest => (cs.takeWhile fun c => !p c, some rest)

def sign : List Char → Bool × List Char
  | '-' :: cs => (true, cs)
  | '+' :: cs => (false, cs)
  | cs => (false, cs)

/-- The exponent that a text ends in; one that is absent is zero. -/
def exponent? : Option (List Char) → Option Int
  | none => some 0
  | some cs =>
    let (negative, ds) := sign cs
    if ds.isEmpty then none
    else (plainRow? ds).map fun ds => if negative then -(ofDigits ds : Int) else ofDigits ds

/-- The number nearest to `m` times a power of ten. Far beyond the range of the finite numbers the
power is not taken. -/
def ofDecimalText (negative : Bool) (m : Nat) (e : Int) : Binary64 :=
  let top := (digitCount m : Int) + e
  if m = 0 then .finite negative Magnitude.zero
  else if top > 400 then .infinite negative
  else if top < -400 then .finite negative Magnitude.zero
  else ofDecimal negative m e

def decimal? (negative : Bool) (cs : List Char) : Option Binary64 := do
  let (mantissa, power) := cut (fun c => c = 'e' || c = 'E') cs
  let (whole, fraction) := cut (· = '.') mantissa
  let ws ← plainRow? whole
  let fs ← plainRow? (fraction.getD [])
  if ws.isEmpty && fs.isEmpty then none
  else
    let e ← exponent? power
    some (ofDecimalText negative (ofDigits (ws ++ fs)) (e - fs.length))

/-- The number that a text writes, without blanks around it and with common digits only. -/
def plainFloat? (cs : List Char) : Option Binary64 :=
  let (negative, rest) := sign cs
  let name := String.ofList (rest.map Char.toLower)
  if name = "nan" then some .nan
  else if name = "inf" ∨ name = "infinity" then some (.infinite negative)
  else decimal? negative rest

/-- The blanks that may surround a number: all but the four separators of ASCII. -/
def isNumberBlank (c : Char) : Bool := isBlank c && !(28 ≤ c.toNat && c.toNat ≤ 31)

/-- A digit of any script as a common digit. -/
def commonDigit (c : Char) : Char :=
  match digit? c with
  | some d => Char.ofNat ('0'.toNat + d)
  | none => c

def float? (cs : List Char) : Option Binary64 :=
  plainFloat? ((trimWhere isNumberBlank cs).map commonDigit)

example : (float? "0.5".toList).map Binary64.hex = some "3fe0000000000000" := by decide +kernel
example : (float? " 1_0.e-1 ".toList).map Binary64.text = some "1.0" := by decide +kernel
example : float? "1__0".toList = none := by decide +kernel
example : float? ".".toList = none := by decide +kernel

end RouterAgent.Number
