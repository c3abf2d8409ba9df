/-!
Blank characters, line breaks, and the cuts of a text that depend on them.

A text is a list of characters. `words` are the maximal runs without a blank, `lines` are the
stretches between line breaks, and `trim` takes the blanks off both ends. Every line break is a
blank, so a word never runs over the end of a line.
-/

namespace RouterAgent.Text

/-- The characters that separate words: the control blanks, the space and the spaces of Unicode. -/
def isBlank (c : Char) : Bool :=
  let n := c.toNat
  (9 ≤ n && n ≤ 13) || (28 ≤ n && n ≤ 32) || n == 0x85 || n == 0xA0 || n == 0x1680
    || (0x2000 ≤ n && n ≤ 0x200A) || n == 0x2028 || n == 0x2029 || n == 0x202F || n == 0x205F
    || n == 0x3000

/-- The characters that end a line. -/
def isLineBreak (c : Char) : Bool :=
  let n := c.toNat
  (10 ≤ n && n ≤ 13) || (28 ≤ n && n ≤ 30) || n == 0x85 || n == 0x2028 || n == 0x2029

theorem isBlank_of_isLineBreak {c : Char} (h : isLineBreak c = true) : isBlank c = true := by
  simp only [isLineBreak, isBlank, Bool.or_eq_true, Bool.and_eq_true, decide_eq_true_eq,
    beq_iff_eq] at h ⊢
  omega

/-! ### Ends -/

/-- The text without the longest end that satisfies `p` throughout. -/
def trimRightWhere (p : Char → Bool) (cs : List Char) : List Char :=
  (cs.reverse.dropWhile p).reverse

def trimWhere (p : Char → Bool) (cs : List Char) : List Char :=
  trimRightWhere p (cs.dropWhile p)

def trim (cs : List Char) : List Char := trimWhere isBlank cs

@[simp] theorem trim_nil : trim [] = [] := rfl

/-! ### Words and lines -/

/-- The maximal runs of characters that are not blank. -/
def words (cs : List Char) : List (List Char) :=
  (cs.splitOnP isBlank).filter fun w => !w.isEmpty

/-- A carriage return and the line feed after it count as one line feed. -/
def joinReturns : List Char → List Char
  | '\r' :: '\n' :: rest => '\n' :: joinReturns rest
  | c :: rest => c :: joinReturns rest
  | [] => []

/-- The lines of a text. A line break at the very end opens no further line. -/
def lines (cs : List Char) : List (List Char) :=
  let pieces := (joinReturns cs).splitOnP isLineBreak
  if pieces.getLast? = some [] then pieces.dropLast else pieces

example : words "  a\tbc \n d".toList = [['a'], ['b', 'c'], ['d']] := by decide
example : lines "a\r\nb\r\r\nc\n".toList = [['a'], ['b'], [], ['c']] := by decide
example : lines [] = [] := by decide

end RouterAgent.Text
