import RouterAgent.Backoff
import RouterAgent.Number.Binary64
import RouterAgent.World

/-!
Waiting for something outside of the agent to become ready.

A check is made again and again, with growing delays between, until it says yes or waiting is
cancelled. A check that fails counts as a no. What happens during the delays is given in advance:
a list of waits, and one more that cancels. So every wait ends.
-/

namespace RouterAgent

open RouterAgent.Number

/-- A cancellation event in surroundings `σ`: whether it is set from the start, what happens during
each of the next waits for it, which says whether it is set then, what happens during the one after
those, which sets it, and the longest delay of a wait, if there is one. -/
structure Cancellation (σ : Type) where
  isSet : Bool
  waits : List (StateM σ Bool)
  last : StateM σ Unit
  longest : Option Binary64

def Cancellation.after (isSet : Bool) (number : Nat) : Cancellation σ :=
  ⟨isSet, List.replicate (number - 1) (pure false), pure (), none⟩

def exceeds (delay : Binary64) (longest : Option Binary64) : Bool := longest.any (·.lt delay)

/-- What came of one check: its answer or failure, whether it cancelled the waiting, and what comes
of asking the failure for its words, if not even that works. -/
structure CheckOutcome where
  answer : Except Fault Bool
  cancels : Bool
  muffled : Option Fault

namespace CheckOutcome

def ready (c : CheckOutcome) : Bool :=
  match c.answer with
  | .ok b => b
  | .error _ => false

def words (c : CheckOutcome) : String :=
  match c.answer with
  | .ok _ => "not ready"
  | .error fault => if fault.message = "" then fault.label else fault.message

/-- What keeps a check that did not say yes from being noted. -/
def mishap (c : CheckOutcome) : Option Fault :=
  match c.answer with
  | .ok _ => none
  | .error _ => c.muffled

end CheckOutcome

/-- A waiting in surroundings `σ`: its name, the check, and how to write a note and to record an
action. -/
structure Waiting (σ : Type) where
  name : String
  check : StateM σ CheckOutcome
  note : String → σ → σ
  did : Action → σ → σ

namespace Waiting

/-- Takes note of a check that did not say yes and begins to wait, unless that fails: there may be
no words for the failure of the check, and the delay may be too long. A set event is not waited
for. -/
def pause (w : Waiting σ) (longest : Option Binary64) (outcome : CheckOutcome) (delay : Binary64) :
    StateM σ (Option Fault) := fun s =>
  match outcome.mishap with
  | some fault => (some fault, s)
  | none =>
    let s := w.note s!"{w.name}: {outcome.words}, retrying in {delay.tenths}s" s
    if exceeds delay longest && !outcome.cancels then (some (.misfit .tooLate), s)
    else (none, w.did (.waited delay) s)

def arrive (w : Waiting σ) (attempts : Nat) (s : σ) : σ :=
  if attempts = 0 then s else w.note s!"{w.name}: ready after {attempts} retries" s

def poll (w : Waiting σ) (longest : Option Binary64) (last : StateM σ Unit) :
    List (StateM σ Bool) → Backoff → StateM σ (Except Fault Unit)
  | waits, backoff => do
    let outcome ← w.check
    if outcome.ready then
      modify (w.arrive backoff.attempts)
      pure (.ok ())
    else
      match ← w.pause longest outcome (backoff.delay backoff.attempts) with
      | some fault => pure (.error fault)
      | none =>
        let backoff := backoff.next.2
        match waits with
        | [] =>
          last
          pure (.error (.cancelled w.name backoff.attempts))
        | wait :: waits =>
          let set ← wait
          if set || outcome.cancels then pure (.error (.cancelled w.name backoff.attempts))
          else w.poll longest last waits backoff

/-- Waits with delays between two bounds, unless the event is set already. -/
def run (w : Waiting σ) (base max : Value) (cancel : Cancellation σ) :
    StateM σ (Except Fault Unit) :=
  match Backoff.make base max with
  | .error fault => pure (.error fault)
  | .ok backoff =>
    if cancel.isSet then pure (.error (.cancelled w.name 0))
    else w.poll cancel.longest cancel.last cancel.waits backoff

end Waiting

end RouterAgent
