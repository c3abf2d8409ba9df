import RouterAgent.Fault
import RouterAgent.Number.Binary64

/-!
What the agent reports and what it does to its surroundings.
-/

namespace RouterAgent

inductive Level where
  | debug
  | info
  | warning
  | error
deriving DecidableEq

def Level.name : Level → String
  | debug => "DEBUG"
  | info => "INFO"
  | warning => "WARNING"
  | error => "ERROR"

inductive Writer where
  | probe
  | readiness
  | watcher
  | lifecycle
  | commandLine
  | platform (name : String)
deriving DecidableEq

def Writer.name : Writer → String
  | probe => "rplat.probe"
  | readiness => "rplat.readiness"
  | watcher => "rplat.watcher"
  | lifecycle => "rplat.lifecycle"
  | commandLine => "rplat.cli"
  | platform name => "rplat.platforms." ++ name

structure Note where
  level : Level
  writer : Writer
  text : String
deriving DecidableEq

inductive Phase where
  | idle
  | watching
  | reparsing
deriving DecidableEq

def Phase.name : Phase → String
  | idle => "idle"
  | watching => "watching"
  | reparsing => "reparsing"

/-- Something that the agent did to its surroundings or to a collaborator. -/
inductive Action where
  /-- Ran a command. -/
  | ran (line : String)
  /-- Asked whether a path names anything. -/
  | askedFor (path : String)
  /-- Asked whether a path names a directory. -/
  | askedForDir (path : String)
  /-- Opened a file. -/
  | opened (path : String)
  /-- Waited for an event. -/
  | waited (delay : Number.Binary64)
  /-- Subscribed to a directory. -/
  | subscribed (dir : String)
  /-- Called a reader of its own for a lease file, in a phase of the watcher. -/
  | parsed (path : String) (phase : Phase)
  /-- Called a hook of its own of a platform, with so many clients known. -/
  | hooked (hook : Hook) (clients : Nat)
deriving DecidableEq

end RouterAgent
