import RouterAgent.Detection
import RouterAgent.Platform

/-!
The registry of platforms.

The names are fixed; what stands behind a name can be replaced.
-/

namespace RouterAgent.Platform

abbrev Registry := OrderedMap String Platform

namespace Registry

def initial : Registry := .ofList (all.map fun p => (p.name, p))

def supports (r : Registry) (name : String) : Bool := r.contains name

/-- The names behind which a platform stands, in ascending order. -/
def available (r : Registry) : List String := r.keys.mergeSort

/-- Puts a platform behind one of the fixed names. -/
def register (r : Registry) (name : String) (p : Platform) : Except Fault Registry :=
  if supportedPlatforms.contains name then .ok (r.insert name p)
  else .error (.noSuchPlatform name supportedPlatforms)

end Registry

end RouterAgent.Platform
