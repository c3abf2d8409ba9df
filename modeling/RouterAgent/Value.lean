import RouterAgent.Fault
import RouterAgent.Number.Decimal
import RouterAgent.Text.Point

/-!
Values of a configuration, before anything is known of their meaning.

The keys of a mapping are values too. Two keys are one key if they are equal texts or equal
numbers, where truth values count as 0 and 1. The number `nan` equals no key, but what a document
calls no number is one key wherever it stands.
-/

namespace RouterAgent

open RouterAgent.Number RouterAgent.Text

inductive Value where
  | null
  | bool (b : Bool)
  | int (n : Int)
  | float (x : Binary64)
  /-- What a document calls no number. -/
  | notANumber
  | text (s : String)
  /-- A text with surrogates in it. -/
  | points (ps : Points)
  | list (items : List Value)
  | mapping (entries : List (Value × Value))

namespace Value

instance : Inhabited Value := ⟨null⟩

def ofPoints (ps : Points) : Value :=
  match ps.mapM Point.char? with
  | some cs => text (String.ofList cs)
  | none => points ps

theorem ofPoints_ofString (s : String) : ofPoints (.ofString s) = text s := by
  rw [ofPoints, Points.ofString, Point.mapM_char?_map_char]
  simp

def kind : Value → String
  | null => "NoneType"
  | bool _ => "bool"
  | int _ => "int"
  | float _ | notANumber => "float"
  | text _ | points _ => "str"
  | list _ => "list"
  | mapping _ => "dict"

/-- Whether a value counts as true: all do but nothing, zero and what is empty. -/
def truth : Value → Bool
  | null => false
  | bool b => b
  | int n => n ≠ 0
  | float x => !x.same Binary64.zero
  | notANumber | points _ => true
  | text s => s ≠ ""
  | list items => !items.isEmpty
  | mapping entries => !entries.isEmpty

/-! ### Keys -/

def number? : Value → Option (Int ⊕ Binary64)
  | bool b => some (.inl b.toNat)
  | int n => some (.inl n)
  | float x => some (.inr x)
  | _ => none

def intSame (n : Int) : Binary64 → Bool
  | .finite negative m => n * Nat.pow 2 unitBits = Binary64.signed negative m.units
  | _ => false

def sameKey : Value → Value → Bool
  | null, null => true
  | text s, text t => s = t
  | points ps, points qs => ps = qs
  | notANumber, notANumber => true
  | a, b =>
    match a.number?, b.number? with
    | some (.inl m), some (.inl n) => m = n
    | some (.inl n), some (.inr x) | some (.inr x), some (.inl n) => intSame n x
    | some (.inr x), some (.inr y) => x.same y
    | _, _ => false

/-- Whether a value may be a key: lists and mappings may not. -/
def isKey : Value → Bool
  | list _ | mapping _ => false
  | _ => true

/-- Sets the value of a key in a row of entries; a new key comes last. -/
def insertEntry (k v : Value) : List (Value × Value) → List (Value × Value)
  | [] => [(k, v)]
  | e :: es => if e.1.sameKey k then (e.1, v) :: es else e :: insertEntry k v es

/-- The entries of a row of pairs: a key keeps its first place and its last value. -/
def distinct (pairs : List (Value × Value)) : List (Value × Value) :=
  pairs.foldl (fun es p => insertEntry p.1 p.2 es) []

def lookup (entries : List (Value × Value)) (key : String) : Option Value :=
  (entries.find? fun e => e.1.sameKey (text key)).map Prod.snd

/-! ### Values as numbers -/

/-- The floating-point number of a value: a truth value counts as 0 or 1, and a text is read. -/
def toFloat : Value → Except Fault Binary64
  | bool b => .ok (Binary64.ofRatio false b.toNat 1)
  | int n => (Binary64.ofInt? n).elim (.error (.misfit .tooLarge)) .ok
  | float x => .ok x
  | notANumber => .ok .nan
  | text s => (float? s.toList).elim (.error (.misfit (.badNumeral s))) .ok
  | points ps => .error (.misfit (.badNumeral ps.toString))
  | v => .error (.misfit (.noNumber v.kind))

/-- Whether a value is at most zero, for a value that has an order among numbers. -/
def isNonpositive : Value → Except Fault Bool
  | bool b => .ok (!b)
  | int n => .ok (n ≤ 0)
  | float x => .ok x.isNonpositive
  | notANumber => .ok false
  | v => .error (.misfit (.unordered v.kind))

end Value

end RouterAgent
