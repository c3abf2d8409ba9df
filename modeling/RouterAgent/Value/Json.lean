import RouterAgent.Number.Shortest
import RouterAgent.Text.Quoted
import RouterAgent.Value

/-!
Values as indented documents.

Two blanks indent each level, and the entries of a mapping are ordered by key. Only quotes,
backslashes and controls are escaped. A list or mapping without content stays on its line.
-/

namespace RouterAgent.Value.Json

open RouterAgent.Number RouterAgent.Text

def escape (c : Char) : List Char :=
  if c = '"' ∨ c = '\\' then ['\\', c]
  else if c = '\n' then ['\\', 'n']
  else if c = '\r' then ['\\', 'r']
  else if c = '\t' then ['\\', 't']
  else if c.toNat = 8 then ['\\', 'b']
  else if c.toNat = 12 then ['\\', 'f']
  else if c.toNat < 32 then '\\' :: 'u' :: hexDigits 4 c.toNat
  else [c]

def string (s : String) : String := String.ofList ('"' :: s.toList.flatMap escape ++ ['"'])

def newline (depth : Nat) : String := "\n" ++ "".pushn ' ' (2 * depth)

/-- Items between brackets, each on a line of its own. -/
def block (opening closing : String) (depth : Nat) (items : List String) : String :=
  if items.isEmpty then opening ++ closing
  else opening ++ newline (depth + 1) ++ ("," ++ newline (depth + 1)).intercalate items ++
    newline depth ++ closing

def keyText : Value → String
  | text s => s
  | points ps => ps.toString
  | bool b => if b then "true" else "false"
  | int n => toString n
  | float x => x.text
  | notANumber => Binary64.nan.text
  | _ => "null"

mutual

def renderAt (depth : Nat) : Value → String
  | null => "null"
  | bool b => if b then "true" else "false"
  | int n => toString n
  | float x => x.textWith ⟨"NaN", "Infinity"⟩
  | notANumber => Binary64.nan.textWith ⟨"NaN", "Infinity"⟩
  | text s => string s
  | points ps => string ps.toString
  | list items => block "[" "]" depth (renderItems (depth + 1) items)
  | mapping entries =>
    block "\x7b" "\x7d" depth
      (((renderEntries (depth + 1) entries).mergeSort fun a b => a.1 ≤ b.1).map Prod.snd)

def renderItems (depth : Nat) : List Value → List String
  | [] => []
  | v :: vs => renderAt depth v :: renderItems depth vs

def renderEntries (depth : Nat) : List (Value × Value) → List (String × String)
  | [] => []
  | (k, v) :: es =>
    (keyText k, string (keyText k) ++ ": " ++ renderAt depth v) :: renderEntries depth es

end

def render (v : Value) : String := renderAt 0 v

end RouterAgent.Value.Json
