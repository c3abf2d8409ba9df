import RouterAgent.Number.Decimal
import RouterAgent.Value
import RouterAgent.Yaml.Node

/-!
Configuration values from documents.

A plain scalar is nothing, a truth value, a number or else a text, as its form says; a quoted
scalar is a text. Of several things that are wrong with a document that is well formed, the one on
the highest level counts, and on one level the first one.
-/

namespace RouterAgent.Yaml

open RouterAgent.Number RouterAgent.Text

/-! ### Forms of plain scalars -/

def nulls : List String := ["", "~", "null", "Null", "NULL"]

def truths : List (String × Bool) :=
  [("yes", true), ("Yes", true), ("YES", true), ("no", false), ("No", false), ("NO", false),
   ("true", true), ("True", true), ("TRUE", true), ("false", false), ("False", false),
   ("FALSE", false), ("on", true), ("On", true), ("ON", true), ("off", false), ("Off", false),
   ("OFF", false)]

/-- Whether a text is not empty and of digits below a base, underscores among them. -/
def isRow (base : Nat) (cs : List Char) : Bool :=
  !cs.isEmpty && cs.all fun c => c = '_' || (HardwareAddress.hexValue? c).any (· < base)

def joined (cs : List Char) : List Char := cs.filter (· ≠ '_')

def inBase (base : Nat) (cs : List Char) : Nat :=
  cs.foldl (fun n c => base * n + (HardwareAddress.hexValue? c).getD 0) 0

/-- The number that a row of digits of a base writes; a row of underscores writes none. -/
def rowValue (base : Nat) (cs : List Char) : Except Fault Nat :=
  let ds := joined cs
  if ds.isEmpty then .error (.misfit (.badNumeral "")) else .ok (inBase base ds)

/-- The whole number that a text without a sign writes, if it has the form of one: binary, octal
after a zero, hexadecimal, or decimal. -/
def natural? (cs : List Char) : Option (Except Fault Nat) :=
  match cs with
  | ['0'] => some (.ok 0)
  | '0' :: 'b' :: rest => if isRow 2 rest then some (rowValue 2 rest) else none
  | '0' :: 'x' :: rest => if isRow 16 rest then some (rowValue 16 rest) else none
  | '0' :: rest => if isRow 8 rest then some (.ok (inBase 8 (joined rest))) else none
  | c :: _ =>
    if isRow 10 cs ∧ c ≠ '_' then
      some (if (joined cs).length ≤ maxDigits then .ok (inBase 10 (joined cs))
        else .error (.misfit .tooLong))
    else none
  | [] => none

/-- Whether a text ends a number as an exponent: nothing, or the mark, a sign and digits. -/
def isExponent : List Char → Bool
  | [] => true
  | e :: s :: ds =>
    (e = 'e' || e = 'E') && (s = '+' || s = '-') && !ds.isEmpty && ds.all Char.isDigit
  | _ => false

/-- Whether a text is of digits, underscores among them, and then perhaps an exponent. -/
def isFraction (cs : List Char) : Bool :=
  isExponent (cs.dropWhile fun c => c.isDigit || c = '_')

def isDecimal (negativeOrPlus : Bool) (cs : List Char) : Bool :=
  match cs with
  | [] => false
  | c :: rest =>
    if c = '.' then
      !negativeOrPlus && rest.head?.any Char.isDigit && isFraction rest
    else if c.isDigit then
      match cs.dropWhile fun c => c.isDigit || c = '_' with
      | '.' :: fraction => isFraction fraction
      | _ => false
    else false

def decimal? (cs : List Char) : Option Binary64 :=
  let (negative, rest) := sign cs
  let signed := rest.length ≠ cs.length
  let name := String.ofList rest
  if [".inf", ".Inf", ".INF"].contains name then some (.infinite negative)
  else if !signed ∧ [".nan", ".NaN", ".NAN"].contains name then some .nan
  else if isDecimal signed rest then plainFloat? (joined cs)
  else none

def plainValue (cs : List Char) : Except Fault Value :=
  let text := String.ofList cs
  if nulls.contains text then .ok .null
  else match truths.lookup text with
    | some b => .ok (.bool b)
    | none =>
      match decimal? cs with
      | some .nan => .ok .notANumber
      | some x => .ok (.float x)
      | none =>
        let (negative, rest) := sign cs
        match natural? rest with
        | some n => n.map fun n => .int (if negative then -(n : Int) else n)
        | none => .ok (.text text)

/-! ### Documents -/

def merged : List (List α) → List (List α) → List (List α)
  | as :: ass, bs :: bss => (as ++ bs) :: merged ass bss
  | [], bss => bss
  | ass, [] => ass

namespace Node

def isCollection : Node → Bool
  | sequence _ | mapping _ => true
  | _ => false

mutual

/-- What is wrong with a node, level by level: first with itself, then with what it holds, then
with what that holds. The keys of a mapping may not be sequences or mappings. -/
def faults : Node → List (List Fault)
  | plain text =>
    match plainValue text with
    | .ok _ => []
    | .error fault => [[fault]]
  | quoted _ => []
  | sequence items => [] :: faultsAll items
  | mapping entries => [] :: faultsEntries entries

def faultsAll : List Node → List (List Fault)
  | [] => []
  | n :: ns => merged n.faults (faultsAll ns)

def faultsEntries : List (Node × Node) → List (List Fault)
  | [] => []
  | (k, v) :: es =>
    let key := merged k.faults (if k.isCollection then [[.malformed]] else [])
    merged (merged key v.faults) (faultsEntries es)

end

mutual

/-- The value of a node. A plain scalar with which something is wrong counts as nothing. -/
def value : Node → Value
  | plain text => (plainValue text).toOption.getD .null
  | quoted text => .ofPoints text
  | sequence items => .list (valueAll items)
  | mapping entries => .mapping (Value.distinct (valueEntries entries))

def valueAll : List Node → List Value
  | [] => []
  | n :: ns => n.value :: valueAll ns

def valueEntries : List (Node × Node) → List (Value × Value)
  | [] => []
  | (k, v) :: es => (k.value, v.value) :: valueEntries es

end

def value? (n : Node) : Except Fault Value :=
  match n.faults.flatten with
  | [] => .ok n.value
  | fault :: _ => .error fault

end Node

/-- The value that bytes write; a text without a document has none. -/
def read (bytes : List UInt8) : Except Fault (Option Value) := do
  match ← Node.ofTokens (Token.ofSource (← Source.ofBytes bytes)) with
  | some node => return some (← node.value?)
  | none => return none

end RouterAgent.Yaml
