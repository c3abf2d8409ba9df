import RouterAgent.Text.Point
import RouterAgent.Text.Printable

/-!
Quoted texts, as messages show them.

A text stands between single quotes, or between double quotes if it holds a single quote and no
double one. The backslash, the quote in use and every code point without a visible form are written
with a backslash.
-/

namespace RouterAgent.Text

def hexDigit (n : Nat) : Char := Char.ofNat (if n < 10 then 48 + n else 87 + n)

def hexDigits : Nat → Nat → List Char
  | 0, _ => []
  | width + 1, n => hexDigits width (n / 16) ++ [hexDigit (n % 16)]

theorem length_hexDigits (width n : Nat) : (hexDigits width n).length = width := by
  induction width generalizing n with
  | zero => rfl
  | succ width ih => simp [hexDigits, ih]

namespace Quoted

def mark (cs : List Char) : Char :=
  if cs.contains '\'' && !cs.contains '"' then '"' else '\''

def encodeChar (q c : Char) : List Char :=
  if c = q ∨ c = '\\' then ['\\', c]
  else if c = '\n' then ['\\', 'n']
  else if c = '\r' then ['\\', 'r']
  else if c = '\t' then ['\\', 't']
  else if isPrintable c then [c]
  else if c.toNat < 0x100 then '\\' :: 'x' :: hexDigits 2 c.toNat
  else if c.toNat < 0x10000 then '\\' :: 'u' :: hexDigits 4 c.toNat
  else '\\' :: 'U' :: hexDigits 8 c.toNat

def encodePoint (q : Char) : Point → List Char
  | .char c => encodeChar q c
  | p => '\\' :: 'u' :: hexDigits 4 p.toNat

end Quoted

def quotedPoints (ps : Points) : String :=
  let q := Quoted.mark (ps.filterMap Point.char?)
  String.ofList (q :: ps.flatMap (Quoted.encodePoint q) ++ [q])

def quoted (s : String) : String := quotedPoints (.ofString s)

def quotedList (ss : List String) : String :=
  "[" ++ ", ".intercalate (ss.map quoted) ++ "]"

example : quoted "it's" = "\"it's\"" := by decide +kernel
example : quoted "a\nb\x1f" = "'a\\nb\\x1f'" := by decide +kernel

end RouterAgent.Text
