import RouterAgent.Fault
import RouterAgent.Text.Blocks

/-!
The text of a document, as far as it can be read.

A document is read in portions and only as far as its content is looked at. So what is wrong with a
portion, bytes that encode no character or a character that no document may hold, is found when its
first character is looked at. The first two portions are read together before all else.
-/

namespace RouterAgent.Yaml

open RouterAgent.Text

def isAllowed (c : Char) : Bool :=
  let n := c.toNat
  n = 9 || n = 10 || n = 13 || (32 ≤ n && n ≤ 126) || n = 0x85 || (0xA0 ≤ n && n ≤ 0xD7FF)
    || (0xE000 ≤ n && n ≤ 0xFFFD) || 0x10000 ≤ n

/-- The characters that can be read, and what is wrong with those that follow, if any do. -/
structure Source where
  text : List Char
  fault : Option Fault
deriving DecidableEq

namespace Source

def ofReadable (r : Readable) : Except Fault Source :=
  let first := 2 * portionSize
  let allowed := (r.text.takeWhile isAllowed).length
  if !r.whole && r.text.length < first then .error .undecodable
  else if allowed = r.text.length then
    .ok ⟨r.text, if r.whole then none else some .undecodable⟩
  else if allowed < first then .error .malformed
  else .ok ⟨r.text.take (portionSize * (allowed / portionSize)), some .malformed⟩

def ofBytes (bytes : List UInt8) : Except Fault Source := ofReadable (.ofBytes bytes)

end Source

end RouterAgent.Yaml
