import RouterAgent.Calendar
import RouterAgent.Client
import RouterAgent.Lease.Problem
import RouterAgent.Text.Digit

/-!
Lease databases of nested blocks.

A lease is a block with the network address in its header; statements inside give the hardware
address, the name and the end. Blocks of other kinds hold no client. Braces inside quoted strings
open and close nothing. The text is read line by line, with one state: outside of every lease, or
inside one with the statements read so far.
-/

namespace RouterAgent.Lease.Isc

open RouterAgent.Text

/-! ### Quoted strings -/

/-- What follows the quote that closes a string; a backslash takes the next character with it. -/
def afterQuote : List Char → Option (List Char)
  | [] => none
  | '"' :: rest => some rest
  | ['\\'] => none
  | '\\' :: _ :: rest => afterQuote rest
  | _ :: rest => afterQuote rest

theorem length_lt_of_afterQuote {cs rest : List Char} (h : afterQuote cs = some rest) :
    rest.length < cs.length := by
  fun_induction afterQuote cs with
  | case1 => simp at h
  | case2 => cases h; simp
  | case3 => simp at h
  | case4 _ _ ih => have := ih h; simp only [List.length_cons]; omega
  | case5 _ _ _ _ _ ih => have := ih h; simp only [List.length_cons]; omega

/-- The line with the inside of its quoted strings left out. -/
def bare : List Char → List Char
  | [] => []
  | '"' :: cs =>
    match _h : afterQuote cs with
    | some rest => '"' :: '"' :: bare rest
    | none => '"' :: bare cs
  | c :: cs => c :: bare cs
termination_by cs => cs.length
decreasing_by
  · have := length_lt_of_afterQuote _h; simp only [List.length_cons]; omega
  · simp
  · simp

/-! ### The end of a lease -/

/-- The number that two or fewer characters write, if it is one of `lo` to `hi`. Two digits may
begin with a zero. The second digit, or a single one where zero is allowed, may be of any script. -/
def part? (lo hi : Nat) (cs : List Char) : Option Nat :=
  let value : Option Nat := match cs with
    | [c] => if lo = 0 ∨ c.isDigit then digit? c else none
    | [c, d] =>
      if c.isDigit then
        match digit? c, digit? d with
        | some a, some b =>
          if d.isDigit ∨ (10 * a + 9 ≤ hi ∧ (0 < a ∨ lo = 0)) then some (10 * a + b) else none
        | _, _ => none
      else none
    | _ => none
  value.filter fun n => lo ≤ n && n ≤ hi

def year? (cs : List Char) : Option Nat :=
  if cs.length = 4 then (cs.mapM digit?).map ofDigits else none

/-- The second at which a lease ends: the day of the week, the date and the time, parted by blanks.
Anything else says that the lease does not end. -/
def ends? (value : List Char) : Option Int :=
  match words value with
  | [_, date, time] => do
    match date.splitOn '/', time.splitOn ':' with
    | [y, m, d], [hour, minute, second] =>
      let day : Calendar.Date := ⟨← year? y, ← part? 1 12 m, ← part? 1 31 d⟩
      let hour ← part? 0 23 hour
      let minute ← part? 0 59 minute
      let second ← part? 0 61 second
      if day.Valid then some (Calendar.seconds day hour minute second) else none
    | _, _ => none
  | _ => none

/-! ### Blocks -/

/-- The statements of a lease that matter; one that was not made is empty. -/
structure Statements where
  hardware : List Char := []
  hostname : List Char := []
  ends : List Char := []
deriving DecidableEq

/-- The client of a finished lease. The hardware statement must have exactly two words, of which
the second is an address. -/
def Statements.client? (s : Statements) (source ip : String) : Option Client :=
  match words s.hardware with
  | [_, mac] => (HardwareAddress.normalize? (String.ofList mac)).map fun mac =>
    ⟨mac, ip, String.ofList (trimWhere (· = '"') s.hostname), ends? s.ends, source⟩
  | _ => none

/-- Takes in one statement: a keyword, a space, and a value that semicolons may follow. -/
def Statements.read (s : Statements) (line : List Char) : Statements :=
  let body := trimRightWhere (· = ';') line
  let keyword := String.ofList (body.takeWhile (· ≠ ' '))
  let value := trim ((body.dropWhile (· ≠ ' ')).drop 1)
  if keyword = "hardware" then { s with hardware := value }
  else if keyword = "client-hostname" then { s with hostname := value }
  else if keyword = "ends" then { s with ends := value }
  else s

inductive Place where
  | outside
  | inside (ip : String) (statements : Statements)
deriving DecidableEq

/-- The network address in the header of a lease: between the keyword and the opening brace, one
word that blanks part from the keyword. -/
def header? (bare : List Char) : Option String :=
  if bare.take 5 = "lease".toList ∧ bare.getLast? = some '{' then
    match bare.drop 5 |>.dropLast with
    | c :: rest =>
      if isBlank c then
        match words rest with
        | [ip] => some (String.ofList ip)
        | _ => none
      else none
    | [] => none
  else none

def hasBrace (bare : List Char) : Bool := bare.contains '{' || bare.contains '}'

/-- The place after a line, and the client of the lease that the line closes. -/
def step (source : String) (place : Place) (n : Nat) (line : List Char) :
    Except Problem (Place × Option Client) :=
  let line := trim line
  if line.isEmpty ∨ line.head? = some '#' then .ok (place, none)
  else
    let bare := bare line
    match place with
    | .outside =>
      match header? bare with
      | some ip => .ok (.inside ip {}, none)
      | none =>
        if hasBrace bare ∧ bare.getLast? ≠ some '{' ∧ bare ≠ ['}'] then
          .error (.unexpectedBrace n)
        else .ok (.outside, none)
    | .inside ip statements =>
      if bare = ['}'] then .ok (.outside, statements.client? source ip)
      else if hasBrace bare then .error (.nestedBlock n ip)
      else .ok (.inside ip (statements.read line), none)

/-- Reads numbered lines from a place on, and gives the place after them and the clients of the
leases that they close. -/
def run (source : String) : Place → List (List Char × Nat) → Except Problem (Place × List Client)
  | place, [] => .ok (place, [])
  | place, (line, n) :: rest => do
    let (place, client) ← step source place n line
    let (place, clients) ← run source place rest
    return (place, client.toList ++ clients)

def parse (source : String) (text : List Char) : Except Problem (List Client) := do
  match ← run source .outside ((lines text).zipIdx 1) with
  | (.outside, clients) => return (Client.Table.byAddress clients).values
  | (.inside ip _, _) => throw (.unterminated ip)

end RouterAgent.Lease.Isc
