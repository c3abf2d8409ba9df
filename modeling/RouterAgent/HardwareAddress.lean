import RouterAgent.Text.Blank
import RouterAgent.Text.Quoted

/-!
Hardware addresses of network clients.

An address is six octets. It is written as six groups of two hexadecimal digits in either case,
joined by colons or by hyphens; its normal form has lower-case digits and colons.
-/

namespace RouterAgent

open RouterAgent.Text

structure HardwareAddress where
  octets : List UInt8
  length_octets : octets.length = 6
deriving DecidableEq

namespace HardwareAddress

def hexValue? (c : Char) : Option Nat :=
  if '0' ≤ c ∧ c ≤ '9' then some (c.toNat - 48)
  else if 'a' ≤ c ∧ c ≤ 'f' then some (c.toNat - 87)
  else if 'A' ≤ c ∧ c ≤ 'F' then some (c.toNat - 55)
  else none

def octet? : List Char → Option UInt8
  | [a, b] => do return UInt8.ofNat (16 * (← hexValue? a) + (← hexValue? b))
  | _ => none

/-- The address that a text without blanks around it writes. The third character says which of the
two separators is in use. -/
def read? (cs : List Char) : Option HardwareAddress := do
  let sep ← cs[2]?
  if sep = ':' ∨ sep = '-' then
    let octets ← (cs.splitOn sep).mapM octet?
    if h : octets.length = 6 then some ⟨octets, h⟩ else none
  else none

def octetText (b : UInt8) : List Char := hexDigits 2 b.toNat

/-- The normal form of an address. -/
def text (a : HardwareAddress) : List Char := [':'].intercalate (a.octets.map octetText)

/-- The address that a text writes, with any blanks around it. -/
def parse? (s : String) : Option HardwareAddress := read? (trim s.toList)

def normalize? (s : String) : Option String := (parse? s).map fun a => String.ofList a.text

example : normalize? " AA-bb-0c-DD-EE-FF\n" = some "aa:bb:0c:dd:ee:ff" := by decide +kernel
example : normalize? "aa:bb-cc:dd:ee:ff" = none := by decide +kernel

end HardwareAddress

end RouterAgent
