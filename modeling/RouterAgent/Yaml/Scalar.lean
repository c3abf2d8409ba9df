import RouterAgent.HardwareAddress
import RouterAgent.Text.Point
import RouterAgent.Yaml.Cell

/-!
Scalars of a document: the text of a plain or quoted scalar, with its lines folded.

A line end inside a scalar counts as one blank, unless empty lines follow; those are kept as line
ends. A plain scalar ends before a comment, before a colon that ends a word, at a line that is not
indented enough and, inside brackets, at a bracket or comma.
-/

namespace RouterAgent.Yaml

open RouterAgent.Text

abbrev Read (α : Type) := List α × List Cell

/-- What a line end and the empty lines after it stand for. -/
def folded (first : Char) (more : List Char) : List Char :=
  if breakText first ≠ '\n' then breakText first :: more
  else if more.isEmpty then [' '] else more

/-! ### Plain scalars -/

def endsPlain (inFlow : Bool) (c next : Char) : Bool :=
  isGap c
    || (c = ':' && (isGap next || (inFlow && [',', '[', ']', '\x7b', '\x7d'].contains next)))
    || (inFlow && [',', '?', '[', ']', '\x7b', '\x7d'].contains c)

def wordChars (inFlow : Bool) : List Cell → Read Char
  | [] => ([], [])
  | c :: rest =>
    if endsPlain inFlow c.char (peek rest) then ([], c :: rest)
    else
      let (word, rest) := wordChars inFlow rest
      (c.char :: word, rest)

/-- Reads a word of a plain scalar. What ends it is looked at, and what follows a colon. -/
def plainWord (inFlow : Bool) (cells : List Cell) : Except Fault (Read Char) := do
  let (word, rest) := wordChars inFlow cells
  look (if peek rest = ':' then 2 else 1) rest
  return (word, rest)

/-- The line ends in a row of blanks and line ends. A marker at the start of a line leaves
nothing. -/
def plainBreaks : List Cell → Except Fault (Option (List Char) × List Cell)
  | [] => .ok (some [], [])
  | c :: rest => do
    look 1 (c :: rest)
    if c.char = ' ' then plainBreaks rest
    else if isBreak c.char then
      if ← atMarker rest then return (none, rest)
      let (more, rest) ← plainBreaks rest
      return (more.map (breakText c.char :: ·), rest)
    else return (some [], c :: rest)

structure PlainGap where
  /-- What the gap stands for; a gap that stands for nothing ends the scalar. -/
  text : List Char
  /-- Whether a line ended in it. -/
  broken : Bool
  rest : List Cell

def plainGap (cells : List Cell) : Except Fault PlainGap := do
  let blanks := (cells.takeWhile (·.char = ' ')).map Cell.char
  let cells := cells.dropWhile (·.char = ' ')
  look 1 cells
  match cells with
  | [] => return ⟨blanks, false, []⟩
  | c :: rest =>
    if isBreak c.char then
      if ← atMarker rest then return ⟨[], true, rest⟩
      match ← plainBreaks rest with
      | (none, rest) => return ⟨[], true, rest⟩
      | (some more, rest) => return ⟨folded c.char more, true, rest⟩
    else return ⟨blanks, false, c :: rest⟩

def column : List Cell → Nat
  | [] => 0
  | c :: _ => c.column

/-- What was read of a plain scalar: its text, the cells after it, and whether a line ended after
its last word. -/
structure Plain where
  text : List Char
  rest : List Cell
  broken : Bool

/-- Reads a plain scalar whose further lines begin at `margin` or to the right of it. -/
def plainFrom (inFlow : Bool) (margin : Nat) :
    Nat → List Char → Bool → List Cell → Except Fault Plain
  | 0, _, broken, cells => .ok ⟨[], cells, broken⟩
  | fuel + 1, gap, broken, cells => do
    if peek cells = '#' then return ⟨[], cells, broken⟩
    let (word, rest) ← plainWord inFlow cells
    if word.isEmpty then return ⟨[], cells, broken⟩
    let g ← plainGap rest
    if g.text.isEmpty || peek g.rest = '#' || (!inFlow && column g.rest < margin) then
      return ⟨gap ++ word, g.rest, g.broken⟩
    let more ← plainFrom inFlow margin fuel g.text g.broken g.rest
    return { more with text := gap ++ word ++ more.text }

def plain (inFlow : Bool) (margin : Nat) (cells : List Cell) : Except Fault Plain :=
  plainFrom inFlow margin cells.length [] false cells

/-! ### Quoted scalars -/

/-- The line ends in a row of blanks, tabs and line ends. No line may begin with a marker. -/
def quotedBreaks : List Cell → Except Fault (Read Char)
  | [] => .ok ([], [])
  | c :: rest => do
    look 1 (c :: rest)
    if c.char = ' ' ∨ c.char = '\t' then quotedBreaks rest
    else if isBreak c.char then
      if ← atMarker rest then throw .malformed
      let (more, rest) ← quotedBreaks rest
      return (breakText c.char :: more, rest)
    else return ([], c :: rest)

def quotedLines (rest : List Cell) : Except Fault (Read Char) := do
  if ← atMarker rest then throw .malformed
  quotedBreaks rest

def escapes : List (Char × Char) :=
  [('0', '\x00'), ('a', '\x07'), ('b', '\x08'), ('t', '\t'), ('\t', '\t'), ('n', '\n'),
   ('v', '\x0b'), ('f', '\x0c'), ('r', '\r'), ('e', '\x1b'), (' ', ' '), ('"', '"'),
   ('\\', '\\'), ('/', '/'), ('N', '\x85'), ('_', '\xa0'), ('L', '\u2028'), ('P', '\u2029')]

/-- The number of hexadecimal digits after an escape that gives a character by its number. -/
def escapeLength : Char → Option Nat
  | 'x' => some 2
  | 'u' => some 4
  | 'U' => some 8
  | _ => none

def point (n : Nat) : Except Fault Point :=
  match Point.ofNat? n with
  | some p => .ok p
  | none => .error (.misfit (if n < 0x80000000 then .noCharacter else .tooLarge))

/-- The number that hexadecimal digits write, so many of them after those that write `n`. -/
def hexNumber : Nat → Nat → List Cell → Except Fault (Nat × List Cell)
  | 0, n, cells => .ok (n, cells)
  | _ + 1, _, [] => .error .malformed
  | count + 1, n, c :: rest => do
    look 1 (c :: rest)
    match HardwareAddress.hexValue? c.char with
    | some d => hexNumber count (16 * n + d) rest
    | none => throw .malformed

def escaped : List Cell → Except Fault (Read Point)
  | [] => .error .malformed
  | c :: rest => do
    look 1 (c :: rest)
    match escapes.lookup c.char, escapeLength c.char with
    | some d, _ => return ([.char d], rest)
    | none, some digits =>
      let (n, rest) ← hexNumber digits 0 rest
      return ([← point n], rest)
    | none, none =>
      if !isBreak c.char then throw .malformed
      let (breaks, rest) ← quotedLines rest
      return (breaks.map .char, rest)

def quotedFrom (quote : Char) : Nat → List Cell → Except Fault (Read Point)
  | 0, _ => .error .malformed
  | _ + 1, [] => .error .malformed
  | fuel + 1, c :: rest => do
    look 1 (c :: rest)
    if c.char = quote then
      if quote = '\'' ∧ peek rest = '\'' then more ['\''] (rest.drop 1) fuel
      else return ([], rest)
    else if quote = '"' ∧ c.char = '\\' then
      let (text, rest) ← escaped rest
      let (after, rest) ← quotedFrom quote fuel rest
      return (text ++ after, rest)
    else if c.char = ' ' ∨ c.char = '\t' then
      let blanks := (c :: rest).takeWhile fun d => d.char = ' ' || d.char = '\t'
      let rest := (c :: rest).dropWhile fun d => d.char = ' ' || d.char = '\t'
      more (if isBreak (peek rest) then [] else blanks.map Cell.char) rest fuel
    else if isBreak c.char then
      let (breaks, rest) ← quotedLines rest
      more (folded c.char breaks) rest fuel
    else if c.char = endMark then throw .malformed
    else more [c.char] rest fuel
where
  /-- Goes on after characters. -/
  more (text : List Char) (rest : List Cell) (fuel : Nat) : Except Fault (Read Point) := do
    let (after, rest) ← quotedFrom quote fuel rest
    return (text.map .char ++ after, rest)

def quoted (quote : Char) (cells : List Cell) : Except Fault (Read Point) :=
  quotedFrom quote (cells.length + 1) cells

end RouterAgent.Yaml
