import RouterAgent.Yaml.Token

/-!
The nodes of a document.

A stream of tokens holds at most one document, and that is one node. A node that is left out where
one may stand is an empty plain scalar.
-/

namespace RouterAgent.Yaml

open RouterAgent.Text

inductive Node where
  | plain (text : List Char)
  | quoted (text : Points)
  | sequence (items : List Node)
  | mapping (entries : List (Node × Node))

namespace Node

/-- The node that is left out. -/
def empty : Node := plain []

instance : Inhabited Node := ⟨empty⟩

abbrev Parsed (α : Type) := α × List Token

def next (tokens : List Token) (among : List Token) : Bool :=
  tokens.head?.any among.contains

def ends (tokens : List Token) (among : List Token) : Bool := tokens.isEmpty || next tokens among

/-- The fault of a token that has no place here, or of the end where a token is missing. -/
def unexpected : List Token → Fault
  | .broken fault :: _ => fault
  | _ => .malformed

mutual

/-- Reads a node. Blocks are read only where `block` says so, and a sequence that is not indented
only where `indentless` does. -/
def node (fuel : Nat) (block indentless : Bool) (tokens : List Token) :
    Except Fault (Parsed Node) :=
  match fuel with
  | 0 => .error .malformed
  | fuel + 1 =>
    match tokens with
    | .plain text :: rest => .ok (plain text, rest)
    | .quoted text :: rest => .ok (quoted text, rest)
    | .flowSequence :: rest => do
      let (items, rest) ← flowItems fuel true rest
      return (sequence items, rest)
    | .flowMapping :: rest => do
      let (entries, rest) ← flowEntries fuel true rest
      return (mapping entries, rest)
    | .blockSequence :: rest => do
      if !block then throw .malformed
      let (items, rest) ← blockItems fuel [.blockEntry, .blockEnd] rest
      match rest with
      | .blockEnd :: rest => return (sequence items, rest)
      | rest => throw (unexpected rest)
    | .blockMapping :: rest => do
      if !block then throw .malformed
      let (entries, rest) ← blockEntries fuel rest
      match rest with
      | .blockEnd :: rest => return (mapping entries, rest)
      | rest => throw (unexpected rest)
    | .blockEntry :: _ => do
      if !indentless then throw .malformed
      let (items, rest) ← blockItems fuel [.blockEntry, .key, .value, .blockEnd] tokens
      return (sequence items, rest)
    | tokens => .error (unexpected tokens)
  termination_by structural fuel

/-- Reads a node, unless a token follows that leaves it out. -/
def nodeUnless (fuel : Nat) (block indentless : Bool) (among tokens : List Token) :
    Except Fault (Parsed Node) :=
  match fuel with
  | 0 => .error .malformed
  | fuel + 1 =>
    if next tokens among then .ok (empty, tokens) else node fuel block indentless tokens
  termination_by structural fuel

def blockItems (fuel : Nat) (among tokens : List Token) : Except Fault (Parsed (List Node)) :=
  match fuel with
  | 0 => .error .malformed
  | fuel + 1 =>
    match tokens with
    | .blockEntry :: rest => do
      let (item, rest) ← nodeUnless fuel true false among rest
      let (items, rest) ← blockItems fuel among rest
      return (item :: items, rest)
    | _ => .ok ([], tokens)
  termination_by structural fuel

def blockEntries (fuel : Nat) (tokens : List Token) : Except Fault (Parsed (List (Node × Node))) :=
  match fuel with
  | 0 => .error .malformed
  | fuel + 1 =>
    match tokens with
    | .key :: rest => do
      let (k, rest) ← nodeUnless fuel true true [.key, .value, .blockEnd] rest
      let (v, rest) ← valueOf fuel true [.key, .value, .blockEnd] rest
      let (entries, rest) ← blockEntries fuel rest
      return ((k, v) :: entries, rest)
    | _ => .ok ([], tokens)
  termination_by structural fuel

/-- Reads the value of an entry, which may be left out with its colon or without. -/
def valueOf (fuel : Nat) (block : Bool) (among tokens : List Token) : Except Fault (Parsed Node) :=
  match fuel with
  | 0 => .error .malformed
  | fuel + 1 =>
    match tokens with
    | .value :: rest => nodeUnless fuel block block among rest
    | _ => .ok (empty, tokens)
  termination_by structural fuel

/-- Reads the items of a sequence in brackets and the bracket that closes it. A key makes an item a
mapping of one entry. -/
def flowItems (fuel : Nat) (first : Bool) (tokens : List Token) :
    Except Fault (Parsed (List Node)) :=
  match fuel with
  | 0 => .error .malformed
  | fuel + 1 =>
    match tokens with
    | .flowSequenceEnd :: rest => .ok ([], rest)
    | _ => do
      let tokens ← separated first tokens
      match tokens with
      | .flowSequenceEnd :: rest => return ([], rest)
      | .key :: rest =>
        let (k, rest) ← nodeUnless fuel false false [.value, .flowEntry, .flowSequenceEnd] rest
        let (v, rest) ← valueOf fuel false [.flowEntry, .flowSequenceEnd] rest
        let (items, rest) ← flowItems fuel false rest
        return (mapping [(k, v)] :: items, rest)
      | _ =>
        let (item, rest) ← node fuel false false tokens
        let (items, rest) ← flowItems fuel false rest
        return (item :: items, rest)
  termination_by structural fuel

/-- Reads the entries of a mapping in brackets and the bracket that closes it. A node without a
colon is a key without a value. -/
def flowEntries (fuel : Nat) (first : Bool) (tokens : List Token) :
    Except Fault (Parsed (List (Node × Node))) :=
  match fuel with
  | 0 => .error .malformed
  | fuel + 1 =>
    match tokens with
    | .flowMappingEnd :: rest => .ok ([], rest)
    | _ => do
      let tokens ← separated first tokens
      match tokens with
      | .flowMappingEnd :: rest => return ([], rest)
      | .key :: rest =>
        let (k, rest) ← nodeUnless fuel false false [.value, .flowEntry, .flowMappingEnd] rest
        let (v, rest) ← valueOf fuel false [.flowEntry, .flowMappingEnd] rest
        let (entries, rest) ← flowEntries fuel false rest
        return ((k, v) :: entries, rest)
      | _ =>
        let (k, rest) ← node fuel false false tokens
        let (entries, rest) ← flowEntries fuel false rest
        return ((k, empty) :: entries, rest)
  termination_by structural fuel

/-- Passes over the comma before an item that is not the first one. -/
def separated (first : Bool) (tokens : List Token) : Except Fault (List Token) :=
  if first then .ok tokens
  else match tokens with
    | .flowEntry :: rest => .ok rest
    | tokens => .error (unexpected tokens)

end

def content (tokens : List Token) : Except Fault (Parsed Node) :=
  node (4 * tokens.length + 4) true false tokens

def ofTokens (tokens : List Token) : Except Fault (Option Node) := do
  match tokens with
  | [] => return none
  | first :: rest =>
    let (root, rest) ←
      if first = .documentStart then
        if ends rest [.documentStart, .documentEnd] then .ok (empty, rest) else content rest
      else content tokens
    match rest.dropWhile (· = .documentEnd) with
    | [] => return some root
    | rest => throw (unexpected rest)

end Node

end RouterAgent.Yaml
