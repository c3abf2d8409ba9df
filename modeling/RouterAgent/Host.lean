import RouterAgent.Fault
import RouterAgent.Number.Binary64
import RouterAgent.OrderedMap
import RouterAgent.Path
import RouterAgent.Text.Utf8

/-!
The host that the agent runs on, as far as the agent can tell: files and directories, the answers
of commands, a clock, and the observers of directories that were asked for.
-/

namespace RouterAgent

open RouterAgent.Number RouterAgent.Text

/-- What a file holds. Of a file that may not be opened only its size can be told. -/
inductive Content where
  | bytes (data : List UInt8)
  | locked (size : Nat)
deriving DecidableEq

def Content.size : Content → Nat
  | bytes data => data.length
  | locked size => size

/-- How a command ends. The output of a command that ran may be absent. -/
inductive CommandResult where
  | ran (output errors : Option String) (code : Int)
  | refused (why : Refusal)
  | timedOut
deriving DecidableEq

structure Observer where
  started : Bool
  stopped : Bool
  dirs : List String
deriving DecidableEq

/-- Which calls of the observers fail, and how: making one, starting it, subscribing to a
directory. -/
structure ObserverScript where
  making : Option Fault
  starting : Option Fault
  subscribing : List (String × Fault)
deriving DecidableEq

/-- A host. `dirSize` is the size that it reports for directories, `rival` is a caller that is about
to publish a platform of its own, and `patience` is the number of the wait at which an event that
nobody sets is set after all, so that every run ends. -/
structure Host where
  files : OrderedMap Location Content
  dirs : List Location
  dirSize : Nat
  commands : OrderedMap String (List CommandResult)
  rival : Option String
  clock : Binary64
  script : ObserverScript
  observers : List Observer
  patience : Nat

namespace Host

def empty : Host :=
  { files := .empty, dirs := [], dirSize := 0, commands := .empty, rival := none
    clock := Binary64.zero, script := ⟨none, none, []⟩, observers := [], patience := 0 }

instance : Inhabited Host := ⟨empty⟩

/-! ### Files -/

/-- Whether a location is a directory; the root always is one. -/
def hasDir (h : Host) (p : Location) : Bool := p.isEmpty || h.dirs.contains p

def isDir (h : Host) (path : String) : Bool := path ≠ "" && h.hasDir (Location.ofText path)

/-- What a path names a file of. -/
def file? (h : Host) (path : String) : Option Content :=
  if path = "" then none else h.files.get? (Location.ofText path)

def holds (h : Host) (path : String) : Bool := h.isDir path || (h.file? path).isSome

def read (h : Host) (path : String) : Except Refusal (List UInt8) :=
  if h.isDir path then .error .directory
  else match h.file? path with
    | none => .error .missing
    | some (.locked _) => .error .denied
    | some (.bytes data) => .ok data

/-- The text of a file, whatever its bytes. -/
def readText (h : Host) (path : String) : Except Refusal (List Char) :=
  (h.read path).map fun data => Utf8.unifyBreaks (Utf8.decode data)

def size? (h : Host) (path : String) : Option Nat :=
  if h.isDir path then some h.dirSize else (h.file? path).map Content.size

/-- Adds directories that are not there yet. -/
def withDirs (h : Host) (ps : List Location) : Host :=
  { h with dirs := h.dirs ++ ps.filter fun p => !h.dirs.contains p }

/-- Makes a directory, with all above it. -/
def makeDir (h : Host) (path : String) : Host := h.withDirs (Location.ofText path).upTo

/-- Writes a file, and makes the directories above it. -/
def write (h : Host) (path : String) (content : Content) : Host :=
  let p := Location.ofText path
  { h.withDirs (Location.upTo p.dropLast) with files := h.files.insert p content }

/-- Deletes a file. Its directory stays. -/
def delete (h : Host) (path : String) : Host :=
  { h with files := h.files.erase (Location.ofText path) }

def wait (h : Host) (seconds : Binary64) : Host := { h with clock := h.clock.add seconds }

/-! ### Commands -/

/-- Runs a command. The answers of one command are used one after the other, the last one for
good; a command without answers is missing. -/
def run (h : Host) (line : String) : CommandResult × Host :=
  match h.commands.get? line with
  | none | some [] => (.refused .missing, h)
  | some [last] => (last, h)
  | some (next :: later) => (next, { h with commands := h.commands.insert line later })

/-! ### Observers -/

/-- Makes an observer and starts it; gives its number. -/
def startObserver (h : Host) : Except Fault Nat × Host :=
  match h.script.making with
  | some fault => (.error fault, h)
  | none =>
    match h.script.starting with
    | some fault => (.error fault, { h with observers := h.observers ++ [⟨false, false, []⟩] })
    | none => (.ok h.observers.length, { h with observers := h.observers ++ [⟨true, false, []⟩] })

def stopObserver (h : Host) (n : Nat) : Host :=
  { h with observers := h.observers.modify n fun o => { o with stopped := true } }

def subscribe (h : Host) (n : Nat) (dir : String) : Except Fault Unit × Host :=
  match h.script.subscribing.lookup dir with
  | some fault => (.error fault, h)
  | none =>
    (.ok (), { h with observers := h.observers.modify n fun o =>
      if o.dirs.contains dir then o else { o with dirs := o.dirs ++ [dir] } })

/-- Whether the newest observer is subscribed to a directory. -/
def observes (h : Host) (dir : String) : Bool :=
  h.observers.getLast?.any fun o => o.dirs.contains dir

end Host

end RouterAgent
