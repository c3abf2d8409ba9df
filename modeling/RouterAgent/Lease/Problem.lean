import RouterAgent.Text.Quoted

/-!
What can be wrong with a lease file.
-/

namespace RouterAgent.Lease

/-- Why no clients were taken from a lease file. -/
inductive Problem where
  /-- The file could not be opened. -/
  | unreadable (why : String)
  /-- A line has fewer than four fields. -/
  | tooFewFields (line fields : Nat)
  /-- The first field of a line is no whole number. -/
  | badExpiry (line : Nat) (field : String)
  /-- A brace stands where no block begins or ends. -/
  | unexpectedBrace (line : Nat)
  /-- A brace stands inside a lease. -/
  | nestedBlock (line : Nat) (ip : String)
  /-- The file ends inside a lease. -/
  | unterminated (ip : String)
  /-- Some other reader said so. -/
  | reported (why : String)
deriving DecidableEq

def Problem.reason : Problem → String
  | unreadable why => why
  | tooFewFields line fields =>
    s!"line {line}: expected at least 4 fields, got {fields}"
  | badExpiry line field => s!"line {line}: bad expiry {Text.quoted field}"
  | unexpectedBrace line => s!"line {line}: unexpected brace"
  | nestedBlock line ip => s!"line {line}: nested block in lease {ip}"
  | unterminated ip => s!"unterminated lease block for {ip}"
  | reported why => why

end RouterAgent.Lease
