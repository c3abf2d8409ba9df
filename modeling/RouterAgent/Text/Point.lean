/-!
Code points: what an escape in a document can put into a text.

A code point is a character or a surrogate, one half of a pair that together would stand for a
character. Two halves that meet are not joined.
-/

namespace RouterAgent.Text

/-- A code point: a character, or the surrogate that is so many above the first one. -/
inductive Point where
  | char (c : Char)
  | surrogate (offset : Fin 0x800)
deriving DecidableEq

namespace Point

def ofNat? (n : Nat) : Option Point :=
  if h : 0xD800 ≤ n ∧ n < 0xE000 then some (surrogate ⟨n - 0xD800, by omega⟩)
  else if n < 0x110000 then some (char (Char.ofNat n))
  else none

def toNat : Point → Nat
  | char c => c.toNat
  | surrogate offset => 0xD800 + offset

def char? : Point → Option Char
  | char c => some c
  | surrogate _ => none

/-- The character that stands for a code point; for a surrogate that is the replacement
character. -/
def toChar (p : Point) : Char := p.char?.getD '\uFFFD'

theorem ofNat?_toNat (p : Point) : ofNat? p.toNat = some p := by
  cases p with
  | char c =>
    have valid := c.valid
    simp only [UInt32.isValidChar, Nat.isValidChar] at valid
    have val : c.val.toNat = c.toNat := rfl
    rw [ofNat?, toNat, dif_neg (by omega), if_pos (by omega), Char.ofNat_toNat]
  | surrogate offset =>
    have := offset.isLt
    rw [ofNat?, dif_pos (by simp only [toNat]; omega)]
    simp [toNat]

theorem mapM_char?_map_char (cs : List Char) : (cs.map char).mapM char? = some cs := by
  induction cs with
  | nil => rfl
  | cons c cs ih => simp [char?, ih]

end Point

/-- A text that may hold surrogates. -/
abbrev Points := List Point

def Points.ofString (s : String) : Points := s.toList.map .char

def Points.toString (ps : Points) : String := String.ofList (ps.map Point.toChar)

theorem Points.toString_ofString (s : String) : Points.toString (Points.ofString s) = s := by
  simp [toString, ofString, Point.toChar, Point.char?, Function.comp_def]

end RouterAgent.Text
