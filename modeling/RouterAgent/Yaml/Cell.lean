import RouterAgent.Yaml.Source

/-!
The characters of a document with their places.

A document is laid out as a row of cells, and a last cell with the end mark follows its characters.
So what looks ahead finds the end mark and needs no test of its own. Where a document cannot be read
to its end, the last cell bears the fault, which comes out when that cell is looked at.
-/

namespace RouterAgent.Yaml

/-- The mark of the end. No character of a document is equal to it. -/
def endMark : Char := '\x00'

/-- The mark that may begin a text; it takes no room on its line. -/
def orderMark : Char := '\uFEFF'

def isBreak (c : Char) : Bool :=
  c = '\n' || c = '\r' || c = '\x85' || c = '\u2028' || c = '\u2029'

/-- The characters that end a word of a document: blanks, line ends and the end mark. -/
def isGap (c : Char) : Bool := c = endMark || c = ' ' || c = '\t' || isBreak c

def breakText (c : Char) : Char := if c = '\u2028' ∨ c = '\u2029' then c else '\n'

/-- A character with its line, its column and its number in the document, or the fault that stands
in its place. -/
structure Cell where
  char : Char
  line : Nat
  column : Nat
  index : Nat
  fault : Option Fault
deriving DecidableEq

/-- Lays characters out from a place on, with what is wrong behind them. -/
def layoutFrom (fault : Option Fault) (line column index : Nat) : List Char → List Cell
  | [] => [⟨endMark, line, column, index, fault⟩]
  | c :: cs =>
    ⟨c, line, column, index, none⟩ ::
      (if isBreak c then layoutFrom fault (line + 1) 0 (index + 1) cs
        else layoutFrom fault line (if c = orderMark then column else column + 1) (index + 1) cs)

def Source.layout (s : Source) : List Cell :=
  match s.text with
  | c :: cs =>
    if c = orderMark then layoutFrom s.fault 0 0 1 cs else layoutFrom s.fault 0 0 0 (c :: cs)
  | [] => layoutFrom s.fault 0 0 0 []

def peek : List Cell → Char
  | [] => endMark
  | c :: _ => c.char

def look : Nat → List Cell → Except Fault Unit
  | n + 1, c :: cells =>
    match c.fault with
    | some fault => .error fault
    | none => look n cells
  | _, _ => .ok ()

/-- Whether three signs alike stand here that a marker of a document's start or end is made of. -/
def atSigns : List Cell → Bool
  | a :: b :: c :: _ =>
    a.char = b.char && b.char = c.char && (a.char = '-' || a.char = '.')
  | _ => false

/-- Whether a marker of a document's start or end stands here. What follows the signs is looked at
only where they stand. -/
def atMarker (cells : List Cell) : Except Fault Bool := do
  look 3 cells
  if atSigns cells then
    look 4 cells
    return isGap (peek (cells.drop 3))
  else return false

end RouterAgent.Yaml
