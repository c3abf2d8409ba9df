import RouterAgent.Text.Utf8

/-!
Texts that are read piece by piece.

A reader asks for portions of a text. Whenever the characters at hand are too few for a portion, one
more block of bytes is taken in and decoded as a whole. So bytes that encode no character spoil
every portion for which their block is needed, also the characters before them in that block.
-/

namespace RouterAgent.Text

/-- The number of characters of a portion. -/
def portionSize : Nat := 4096

/-- The least number of bytes of a block that more bytes follow. -/
def blockSize : Nat := 8192

/-- A text as far as it can be read, and whether that is all of it. -/
structure Readable where
  text : List Char
  whole : Bool
deriving DecidableEq

/-- Reading between two blocks: the bytes of a character that is not complete, whether a carriage
return waits for what follows it, the number of characters so far, and the numbers of bytes and of
characters of the last block. -/
structure Blocks where
  tail : List UInt8
  returned : Bool
  count : Nat
  bytes : Nat
  chars : Nat
deriving DecidableEq

namespace Blocks

def init : Blocks := ⟨[], false, 0, 0, 0⟩

/-- The size of the next block: what the characters that are missing for a portion would take at
the rate of the last block, but not less than the usual size. -/
def nextSize (b : Blocks) : Nat :=
  max blockSize ((portionSize - b.count % portionSize) * b.bytes / b.chars)

theorem nextSize_pos (b : Blocks) : 0 < b.nextSize :=
  Nat.lt_of_lt_of_le (by decide : 0 < blockSize) (Nat.le_max_left ..)

/-- Takes in a block: the characters that it adds, unless it encodes something else. A carriage
return at its end waits for the next block. -/
def take? (b : Blocks) (block : List UInt8) : Option (List Char × Blocks) :=
  (Utf8.decodeStart? (b.tail ++ block)).map fun (cs, tail) =>
    let cs := if b.returned && !cs.isEmpty then '\r' :: cs else cs
    let returned := if cs.isEmpty then b.returned else cs.getLast? = some '\r'
    let text := Utf8.unifyBreaks (if cs.getLast? = some '\r' then cs.dropLast else cs)
    (text, ⟨tail, returned, b.count + text.length, block.length, text.length⟩)

/-- Reads bytes to their end or to the first block that encodes something else. -/
def readable (b : Blocks) : List UInt8 → Readable
  | [] => if b.tail.isEmpty then ⟨if b.returned then ['\n'] else [], true⟩ else ⟨[], false⟩
  | byte :: bytes =>
    match b.take? ((byte :: bytes).take b.nextSize) with
    | none => ⟨[], false⟩
    | some (text, b') =>
      let r := b'.readable ((byte :: bytes).drop b.nextSize)
      { r with text := text ++ r.text }
termination_by bytes => bytes.length
decreasing_by
  have := b.nextSize_pos
  simp only [List.length_drop, List.length_cons]
  omega

end Blocks

/-- What can be read of bytes in portions. If not all can be read, these are whole portions. -/
def Readable.ofBytes (bytes : List UInt8) : Readable :=
  let r := Blocks.init.readable bytes
  if r.whole then r
  else { r with text := r.text.take (portionSize * (r.text.length / portionSize)) }

end RouterAgent.Text
