import RouterAgent.Number.Shortest
import RouterAgent.Text.Integer
import RouterAgent.Value

/-!
The text of a value.

A text stands for itself when it is the whole value and is quoted inside another one. A value that
holds a whole number of too many digits has no text.
-/

namespace RouterAgent.Value

open RouterAgent.Number RouterAgent.Text

mutual

def inner? : Value → Option String
  | null => some "None"
  | bool b => some (if b then "True" else "False")
  | int n => ofInteger? n
  | float x => some x.text
  | notANumber => some Binary64.nan.text
  | text s => some (quoted s)
  | points ps => some (quotedPoints ps)
  | list items => do
    let parts ← innerAll? items
    return "[" ++ ", ".intercalate parts ++ "]"
  | mapping entries => do
    let parts ← innerEntries? entries
    return "\x7b" ++ ", ".intercalate parts ++ "\x7d"

def innerAll? : List Value → Option (List String)
  | [] => some []
  | v :: vs => do return (← inner? v) :: (← innerAll? vs)

def innerEntries? : List (Value × Value) → Option (List String)
  | [] => some []
  | (k, v) :: es => do
    let key ← inner? k
    let value ← inner? v
    return (key ++ ": " ++ value) :: (← innerEntries? es)

end

def text? : Value → Option Points
  | text s => some (.ofString s)
  | points ps => some ps
  | v => (inner? v).map .ofString

end RouterAgent.Value
