import RouterAgent.Yaml.Scalar

/-!
Tokens of a document.

Outside of brackets, indentation opens and closes blocks. A key is recognised late: whatever might
be one is remembered, and when a colon follows on the same line the token of the key is put in
before it. So a token is held back as long as it may turn out to begin a key. `ofSource` gives the
row of tokens of a document. A fault ends the row, and what was held back when it came is lost.
-/

namespace RouterAgent.Yaml

open RouterAgent.Text

inductive Token where
  | documentStart
  | documentEnd
  | blockSequence
  | blockMapping
  | blockEnd
  | flowSequence
  | flowSequenceEnd
  | flowMapping
  | flowMappingEnd
  | blockEntry
  | flowEntry
  | key
  | value
  | plain (text : List Char)
  | quoted (text : Points)
  /-- Nothing can be read from here on. -/
  | broken (fault : Fault)
deriving DecidableEq

namespace Token

/-- What may turn out to be a key: the number of its first token, whether it must be one, and where
it stands. -/
structure Candidate where
  number : Nat
  required : Bool
  index : Nat
  line : Nat
  column : Nat
deriving DecidableEq

structure Scan where
  /-- The number of tokens that were given out. -/
  given : Nat
  /-- The tokens that are held back. -/
  tokens : List Token
  /-- The columns of the open blocks, the innermost first. -/
  blocks : List Nat
  /-- What may be a key, inside each open bracket and, last, outside of all. -/
  candidates : List (Option Candidate)
  /-- Whether a key may begin here. -/
  keyAllowed : Bool
deriving DecidableEq

namespace Scan

def init : Scan := ⟨0, [], [], [none], true⟩

def next (s : Scan) : Nat := s.given + s.tokens.length

def inFlow (s : Scan) : Bool := 1 < s.candidates.length

/-- Whether the innermost block begins to the left of a column. -/
def isDeeper (s : Scan) (column : Nat) : Bool :=
  match s.blocks with
  | [] => true
  | b :: _ => b < column

def isAt (s : Scan) (column : Nat) : Bool := s.blocks.head? = some column

def push (s : Scan) (t : Token) : Scan := { s with tokens := s.tokens ++ [t] }

/-- Puts a token in, so that it has a number. -/
def insertAt (s : Scan) (number : Nat) (t : Token) : Scan :=
  { s with tokens := s.tokens.insertIdx (number - s.given) t }

/-- Forgets what can no longer be a key: a key ends on its line and within 1024 characters. What
must be a key may not be forgotten. -/
def forgetOld (s : Scan) (place : Cell) : Except Fault Scan := do
  let candidates ← s.candidates.mapM fun
    | none => .ok none
    | some c =>
      if c.line ≠ place.line ∨ 1024 < place.index - c.index then
        if c.required then .error .malformed else .ok none
      else .ok (some c)
  return { s with candidates }

def forget (s : Scan) : Except Fault Scan :=
  match s.candidates with
  | some c :: rest =>
    if c.required then .error .malformed else .ok { s with candidates := none :: rest }
  | _ => .ok s

/-- Remembers the next token as one that may be a key, where a key may begin. -/
def remember (s : Scan) (place : Cell) : Except Fault Scan := do
  if s.keyAllowed then
    let required := !s.inFlow && s.isAt place.column
    let s ← s.forget
    let candidate : Candidate := ⟨s.next, required, place.index, place.line, place.column⟩
    return { s with candidates := some candidate :: s.candidates.drop 1 }
  else return s

/-- Closes the blocks whose content may not begin at a column. -/
def closeBlocks (s : Scan) (keep : Nat → Bool) : Scan :=
  let closed := s.blocks.takeWhile fun b => !keep b
  { s with
    tokens := s.tokens ++ closed.map fun _ => blockEnd
    blocks := s.blocks.drop closed.length }

def openBlock (s : Scan) (column : Nat) (number : Nat) (t : Token) : Scan :=
  if s.isDeeper column then { s.insertAt number t with blocks := column :: s.blocks } else s

def marker (s : Scan) (t : Token) : Except Fault Scan := do
  let s ← (s.closeBlocks fun _ => s.inFlow).forget
  return { s.push t with keyAllowed := false }

def openFlow (s : Scan) (place : Cell) (t : Token) : Except Fault Scan := do
  let s ← s.remember place
  return { s.push t with candidates := none :: s.candidates, keyAllowed := true }

/-- Takes in a closing bracket. Whether it closes one of its kind is seen when nodes are made. -/
def closeFlow (s : Scan) (t : Token) : Except Fault Scan := do
  let s ← s.forget
  return { s.push t with candidates := s.candidates.drop 1, keyAllowed := false }

def comma (s : Scan) : Except Fault Scan := do
  let s ← s.forget
  return { s.push flowEntry with keyAllowed := true }

/-- Takes in the sign of an entry or of a key, which outside of brackets may open a block. -/
def sign (s : Scan) (place : Cell) (opening t : Token) (keyAllowed : Bool) : Except Fault Scan := do
  if !s.inFlow && !s.keyAllowed then throw .malformed
  let s := if s.inFlow then s else s.openBlock place.column s.next opening
  let s ← s.forget
  return { s.push t with keyAllowed }

/-- Takes in a colon. What is remembered inside the innermost bracket becomes a key. -/
def colon (s : Scan) (place : Cell) : Except Fault Scan :=
  match s.candidates with
  | some c :: rest =>
    let s := { s with candidates := none :: rest }
    let s := s.insertAt c.number key
    let s := if s.inFlow then s else s.openBlock c.column c.number blockMapping
    .ok { s.push value with keyAllowed := false }
  | _ => s.sign place blockMapping value (!s.inFlow)

/-- Gives out the tokens before the first one that may begin a key. -/
def release (s : Scan) : List Token × Scan :=
  let held := s.candidates.foldl (fun n c => c.elim n fun c => min n c.number) s.next
  let count := held - s.given
  (s.tokens.take count, { s with given := s.given + count, tokens := s.tokens.drop count })

end Scan

/-! ### Reading -/

/-- Passes over blanks, comments and line ends, and says whether a line ended. -/
def skipGap (inComment : Bool) : List Cell → Bool × List Cell
  | [] => (false, [])
  | c :: rest =>
    if isBreak c.char then (true, (skipGap false rest).2)
    else if c.char = endMark then (false, c :: rest)
    else if inComment then skipGap true rest
    else if c.char = ' ' then skipGap false rest
    else if c.char = '#' then skipGap true rest
    else (false, c :: rest)

/-- Whether a character does not by itself begin a plain scalar. -/
def isReserved (c : Char) : Bool :=
  ['-', '?', ':', ',', '[', ']', '\x7b', '\x7d', '#', '&', '*', '!', '|', '>', '\'', '"', '%',
    '@', '\x60'].contains c || isGap c

def beginsPlain (inFlow : Bool) (c next : Char) : Bool :=
  !isGap next && (c = '-' || (!inFlow && (c = '?' || c = ':')))

def take (s : Scan) (c : Cell) (rest : List Cell) : Except Fault (Scan × List Cell) := do
  let flow := s.inFlow
  let next := peek rest
  if c.column = 0 ∧ (c.char = '-' ∨ c.char = '.') then
    if ← atMarker (c :: rest) then
      return (← s.marker (if c.char = '-' then documentStart else documentEnd), rest.drop 2)
  if c.char = '[' then return (← s.openFlow c flowSequence, rest)
  if c.char = '\x7b' then return (← s.openFlow c flowMapping, rest)
  if c.char = ']' then return (← s.closeFlow flowSequenceEnd, rest)
  if c.char = '\x7d' then return (← s.closeFlow flowMappingEnd, rest)
  if c.char = ',' then return (← s.comma, rest)
  if c.char = '\'' ∨ c.char = '"' then
    let s ← s.remember c
    let (text, rest) ← Yaml.quoted c.char rest
    return ({ s.push (quoted text) with keyAllowed := false }, rest)
  if c.char = '?' ∧ flow then return (← s.sign c blockMapping key false, rest)
  if c.char = ':' ∧ flow then return (← s.colon c, rest)
  if isReserved c.char then
    look 1 rest
    if c.char = '-' ∧ isGap next then return (← s.sign c blockSequence blockEntry true, rest)
    if c.char = '?' ∧ isGap next then return (← s.sign c blockMapping key true, rest)
    if c.char = ':' ∧ isGap next then return (← s.colon c, rest)
    if !beginsPlain flow c.char next then throw .malformed
  let s ← s.remember c
  let p ← Yaml.plain flow (s.blocks.head?.elim 0 (· + 1)) (c :: rest)
  return ({ s.push (plain p.text) with keyAllowed := p.broken }, p.rest)

/-- Takes in a gap and the token after it, and looks at what follows. The end leaves no cells. -/
def fetch (s : Scan) (cells : List Cell) : Except Fault (Scan × List Cell) := do
  let (ended, cells) := skipGap false cells
  look 1 cells
  let s := if ended && !s.inFlow then { s with keyAllowed := true } else s
  match cells with
  | [] => return (s, [])
  | c :: rest =>
    let s ← s.forgetOld c
    let s := if s.inFlow then s else s.closeBlocks fun b => b ≤ c.column
    if c.char = endMark then return (← (s.closeBlocks fun _ => s.inFlow).forget, [])
    let (s, rest) ← take s c rest
    look 1 rest
    match rest with
    | [] => return (s, [])
    | c :: _ => return (← s.forgetOld c, rest)

def scan : Nat → Scan → List Cell → List Token
  | 0, _, _ => [broken .malformed]
  | fuel + 1, s, cells =>
    match fetch s cells with
    | .error fault => [broken fault]
    | .ok (s, []) => s.tokens
    | .ok (s, rest) =>
      let (tokens, s) := s.release
      tokens ++ scan fuel s rest

def ofSource (source : Source) : List Token :=
  let cells := source.layout
  scan (cells.length + 1) .init cells

end Token

end RouterAgent.Yaml
