import RouterAgent.Text.Digit

/-!
The words of a command line.

A word is an option, a value, or the separator after which every word is a value. A long option may
be cut short as long as only one begins so, and its value may follow in the same word after an
equals sign. What looks like a negative number is a value.
-/

namespace RouterAgent.CommandLine

open RouterAgent.Text

/-- An option: its names, and the values that it takes, if it takes one. -/
structure Flag where
  names : List String
  accepts : Option (String → Bool)

def helpFlag : Flag := ⟨["-h", "--help"], none⟩

def Flag.isNamed (f : Flag) (name : String) : Bool := f.names.contains name

/-- What a word is. An option that nobody knows has no flag. -/
inductive Word where
  | value
  | separator
  | option (flag : Option Flag) (attached : Option String)

def splitEquals (s : String) : String × Option String :=
  let cs := s.toList
  match cs.dropWhile (· ≠ '=') with
  | [] => (s, none)
  | _ :: rest => (String.ofList (cs.takeWhile (· ≠ '=')), some (String.ofList rest))

/-- Whether a word looks like a negative number: digits after a hyphen, and perhaps a point that
digits follow. A line end may follow the number. -/
def looksNegative (s : String) : Bool :=
  match s.toList with
  | '-' :: cs =>
    let cs := if cs.getLast? = some '\n' then cs.dropLast else cs
    match cs.dropWhile fun c => (digit? c).isSome with
    | [] => !cs.isEmpty
    | '.' :: ds => !ds.isEmpty && ds.all fun c => (digit? c).isSome
    | _ => false
  | _ => false

/-- The options that a word may be cut short from, with what is attached to each. -/
def abbreviated (flags : List Flag) (s : String) : List (Flag × Option String) :=
  let named := flags.flatMap fun f => f.names.map fun n => (f, n)
  if s.startsWith "--" then
    let (start, attached) := splitEquals s
    named.filterMap fun (f, n) => if n.startsWith start then some (f, attached) else none
  else
    let short := String.ofList (s.toList.take 2)
    named.filterMap fun (f, n) =>
      if n = short then some (f, some (String.ofList (s.toList.drop 2)))
      else if n.startsWith s then some (f, none)
      else none

/-- What a word is, unless it may be several options. -/
def classify (flags : List Flag) (s : String) : Option Word :=
  if s = "" ∨ s = "-" ∨ !s.startsWith "-" then some .value
  else match flags.find? (·.isNamed s) with
    | some f => some (.option (some f) none)
    | none =>
      let (start, attached) := splitEquals s
      match attached, flags.find? (·.isNamed start) with
      | some v, some f => some (.option (some f) (some v))
      | _, _ =>
        match abbreviated flags s with
        | [(f, attached)] => some (.option (some f) attached)
        | _ :: _ :: _ => none
        | [] =>
          if looksNegative s ∨ s.toList.contains ' ' then some .value else some (.option none none)

def classifyAll (flags : List Flag) : List String → Option (List (String × Word))
  | [] => some []
  | "--" :: rest => some (("--", .separator) :: rest.map fun s => (s, .value))
  | s :: rest => do return (s, ← classify flags s) :: (← classifyAll flags rest)

/-- Why a command line is not carried out: it asks for help, or it makes no sense. -/
inductive Stop where
  | help
  | usage
deriving DecidableEq

/-- What a command line says: the values of options by their first name, the last one first,
whether a word had no place, and the command with the words that follow it. -/
structure Reading where
  values : List (String × String)
  strays : Bool
  command : Option (List String)

def isHelp (s : String) : Bool := s ≠ "" && s.toList.all (· = 'h')

/-- Reads words. The first value begins the command, if one is expected. -/
def readWords (expectsCommand : Bool) (r : Reading) :
    List (String × Word) → Except Stop Reading
  | [] => .ok r
  | (_, .option none _) :: rest => readWords expectsCommand { r with strays := true } rest
  | (s, .option (some f) attached) :: rest =>
    match f.accepts, attached with
    | none, none => .error .help
    | none, some more =>
      if !s.startsWith "--" && isHelp more then .error .help else .error .usage
    | some accepts, some v =>
      if accepts v then
        readWords expectsCommand { r with values := (f.names.headD "", v) :: r.values } rest
      else .error .usage
    | some accepts, none =>
      match rest with
      | (v, .value) :: rest =>
        if accepts v then
          readWords expectsCommand { r with values := (f.names.headD "", v) :: r.values } rest
        else .error .usage
      | _ => .error .usage
  | (s, .value) :: rest =>
    if expectsCommand then .ok { r with command := some (s :: rest.map Prod.fst) }
    else readWords expectsCommand { r with strays := true } rest
  | (_, .separator) :: rest =>
    if expectsCommand then .error .usage
    else readWords expectsCommand { r with strays := true } rest

def read (flags : List Flag) (expectsCommand : Bool) (args : List String) :
    Except Stop Reading :=
  match classifyAll (helpFlag :: flags) args with
  | none => .error .usage
  | some words => readWords expectsCommand ⟨[], false, none⟩ words

end RouterAgent.CommandLine
