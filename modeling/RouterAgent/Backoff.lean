import RouterAgent.Value

/-!
Delays that double up to a ceiling.
-/

namespace RouterAgent

open RouterAgent.Number

/-- The first delay, the ceiling, and the number of delays taken since the start. -/
structure Backoff where
  base : Binary64
  max : Binary64
  attempts : Nat
deriving DecidableEq

namespace Backoff

/-- The delays that two values give. Both must be above zero; the second is looked at only if the
first is. -/
def make (base max : Value) : Except Fault Backoff := do
  if ← base.isNonpositive then throw (.badSetting .backoffDelays)
  if ← max.isNonpositive then throw (.badSetting .backoffDelays)
  return ⟨← base.toFloat, ← max.toFloat, 0⟩

/-- The most doublings that a delay sees. -/
def doublings : Nat := 32

/-- The delay after so many others. -/
def delay (b : Backoff) (k : Nat) : Binary64 := (b.base.scale (min k doublings)).capped b.max

def next (b : Backoff) : Binary64 × Backoff :=
  (b.delay b.attempts, { b with attempts := b.attempts + 1 })

def reset (b : Backoff) : Backoff := { b with attempts := 0 }

@[simp] theorem next_fst (b : Backoff) : b.next.1 = b.delay b.attempts := rfl

@[simp] theorem attempts_next (b : Backoff) : b.next.2.attempts = b.attempts + 1 := rfl

@[simp] theorem attempts_reset (b : Backoff) : b.reset.attempts = 0 := rfl

end Backoff

end RouterAgent
