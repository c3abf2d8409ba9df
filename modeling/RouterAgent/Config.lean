import RouterAgent.Host
import RouterAgent.Value.Text
import RouterAgent.Yaml

/-!
The configuration of the agent.

A configuration is read from a value: a mapping with the resolvers by name and the settings of the
router. What is left out has a default, and what stands for nothing counts as left out.
-/

namespace RouterAgent

open RouterAgent.Number RouterAgent.Text

/-- A resolver that queries are sent on to, and whether it is told about clients. -/
structure Resolver where
  name : Points
  endpoint : Points
  sendsClientInfo : Bool
deriving DecidableEq

/-- The settings of the router, as values: the interval at which lease files are read again, and
the least and greatest delay of waiting. -/
structure Settings where
  refresh : Value
  baseDelay : Value
  maxDelay : Value

def Settings.default : Settings :=
  ⟨.float Binary64.zero, .float (Binary64.ofRatio false 1 2), .float (Binary64.ofRatio false 10 1)⟩

structure Config where
  resolvers : OrderedMap Points Resolver
  refresh : Binary64
  baseDelay : Binary64
  maxDelay : Binary64

namespace Config

def settings (c : Config) : Settings := ⟨.float c.refresh, .float c.baseDelay, .float c.maxDelay⟩

def sendsClientInfo (c : Config) : Bool := c.resolvers.values.any (·.sendsClientInfo)

/-! ### Mappings -/

def mapping : Value → Except Fault (List (Value × Value))
  | .mapping entries => .ok entries
  | v => .error (.misfit (.lacks v.kind "get"))

/-- The items of a value: those of a list, the characters of a text, the keys of a mapping. -/
def items : Value → Except Fault (List Value)
  | .list vs => .ok vs
  | .text s => .ok (s.toList.map fun c => .text (String.ofList [c]))
  | .points ps => .ok (ps.map fun p => .ofPoints [p])
  | .mapping entries => .ok (entries.map Prod.fst)
  | v => .error (.misfit (.noItems v.kind))

/-- The key and the value that an item with two items of its own gives. -/
def pair (v : Value) : Except Fault (Value × Value) := do
  match ← items v with
  | [k, v] => if k.isKey then return (k, v) else throw (.misfit (.noKey k.kind))
  | _ => throw (.misfit .noPair)

/-- The entries that a value gives: those of a mapping, or pairs that a row of items makes. -/
def entries : Value → Except Fault (List (Value × Value))
  | .mapping es => .ok es
  | v => do return Value.distinct (← (← items v).mapM pair)

/-- The entries of a part of a mapping. A part that is left out or stands for nothing has none. -/
def part (es : List (Value × Value)) (key : String) : Except Fault (List (Value × Value)) :=
  match Value.lookup es key with
  | some v => if v.truth then entries v else .ok []
  | none => .ok []

/-! ### Reading -/

/-- The text of a value, which it has unless it is too long. -/
def text (v : Value) : Except Fault Points := v.text?.elim (.error (.misfit .tooLong)) .ok

def resolver (key value : Value) : Except Fault Resolver := do
  let name ← text key
  let fields ← mapping value
  let endpoint ← text ((Value.lookup fields "endpoint").getD (.text ""))
  return ⟨name, endpoint, ((Value.lookup fields "send_client_info").getD (.bool false)).truth⟩

/-- The resolvers of a row of entries; of several with one name the last one counts. -/
def readResolvers (es : List (Value × Value)) :
    Except Fault (OrderedMap Points Resolver) := do
  let rs ← es.mapM fun e => resolver e.1 e.2
  return .ofList (rs.map fun r => (r.name, r))

def setting (es : List (Value × Value)) (key : String) (default : Value) :
    Except Fault Binary64 :=
  ((Value.lookup es key).getD default).toFloat

def parse (raw : Value) : Except Fault Config := do
  let root ← mapping raw
  let resolverEntries ← part root "upstreams"
  let routerEntries ← part root "router"
  let resolvers ← readResolvers resolverEntries
  let refresh ← setting routerEntries "client_info_refresh" Settings.default.refresh
  let baseDelay ← setting routerEntries "readiness_base_delay" Settings.default.baseDelay
  let maxDelay ← setting routerEntries "readiness_max_delay" Settings.default.maxDelay
  if refresh.isNegative then throw (.badSetting .negativeRefresh)
  if baseDelay.isNonpositive || maxDelay.isNonpositive then throw (.badSetting .readinessDelays)
  return ⟨resolvers, refresh, baseDelay, maxDelay⟩

/-! ### Files -/

def bytes (h : Host) (path : String) : Except Fault (List UInt8) :=
  (h.read path).mapError (.refused · path)

/-- The configuration in a file. A file that says nothing gives the defaults. -/
def load (h : Host) (path : String) : Except Fault Config := do
  let value := (← Yaml.read (← bytes h path)).getD .null
  parse (if value.truth then value else .mapping [])

end Config

end RouterAgent
