import RouterAgent.CommandLine.Words
import RouterAgent.Config
import RouterAgent.Process
import RouterAgent.Value.Json

/-!
The command line of the agent.

Its commands name the platform, list all platforms, give the address to listen on, wait until the
router is ready, and watch the lease files, printing the table of clients again and again until a
signal comes.
-/

namespace RouterAgent

open RouterAgent.Number

namespace CommandLine

inductive Command where
  | detect
  | platforms
  | listenAddress
  | preRun
  | watch (config : String) (interval : Binary64)
deriving DecidableEq

def Command.name : Command → String
  | detect => "detect"
  | platforms => "platforms"
  | listenAddress => "listen-address"
  | preRun => "pre-run"
  | watch _ _ => "watch"

def logLevelFlag : Flag :=
  ⟨["--log-level"], some (["DEBUG", "INFO", "WARNING", "ERROR"].contains ·)⟩

def configFlag : Flag := ⟨["--config"], some fun _ => true⟩

def intervalFlag : Flag := ⟨["--interval"], some fun s => (float? s.toList).isSome⟩

/-- The time between two tables where nothing is said. -/
def usualInterval : Binary64 := .ofRatio false 10 1

def flagsOf (name : String) : List Flag :=
  if name = "watch" then [configFlag, intervalFlag] else []

def commandOf (name : String) (values : List (String × String)) : Except Stop Command :=
  match name with
  | "detect" => .ok .detect
  | "platforms" => .ok .platforms
  | "listen-address" => .ok .listenAddress
  | "pre-run" => .ok .preRun
  | "watch" =>
    match values.lookup "--config" with
    | none => .error .usage
    | some config =>
      let interval := (values.lookup "--interval").bind fun s => float? s.toList
      .ok (.watch config (interval.getD usualInterval))
  | _ => .error .usage

def commandNames : List String := ["detect", "platforms", "listen-address", "pre-run", "watch"]

def parse (args : List String) : Except Stop Command := do
  let r ← read [logLevelFlag] true args
  match r.command with
  | none => throw .usage
  | some [] => throw .usage
  | some (name :: rest) =>
    if commandNames.contains name then
      let sub ← read (flagsOf name) false rest
      let command ← commandOf name sub.values
      if r.strays || sub.strays then throw .usage else return command
    else throw .usage

/-! ### Waiting for a signal -/

inductive Interlude where
  | step (s : Step)
  | signal (number : Nat)

/-- Lets something happen while a command waits, and says whether it was a signal. -/
def interlude (s : Session) : Interlude → Bool × Session
  | .step st => (false, (s.step st).2)
  | .signal number => (true, s.note .info .commandLine s!"received signal {number}, stopping")

def interludes (s : Session) : List Interlude → Bool × Session
  | [] => (false, s)
  | i :: is =>
    let (now, s) := interlude s i
    let (later, s) := interludes s is
    (now || later, s)

/-- The number of the signal that ends a waiting of which nothing more is said. -/
def terminate : Nat := 15

/-- The event that a signal sets, with what happens during each wait for it and during the wait
after those, at which it is set in any case. -/
def stopEvent (waits : List (List Interlude)) (last : List Interlude) : Cancellation Session :=
  { isSet := false
    waits := waits.map fun is s => interludes s is
    last := fun s => ((), (interludes s last).2)
    longest := none }

/-! ### Commands -/

def clientValue (c : Client) : Value :=
  .mapping
    [(.text "mac", .text c.mac), (.text "ip", .text c.ip), (.text "hostname", .text c.hostname),
     (.text "expires", c.expires.elim .null .int), (.text "source", .text c.source)]

def printLine (text : String) (s : Session) : Session :=
  { s with world := s.world.print (text ++ "\n") }

def printTable (s : Session) : Session :=
  printLine (Value.Json.render (.list (s.state.table.snapshot.map clientValue))) s

/-- Waits and prints the table, until the event is set. The interval may be too long to be
waited. -/
def watchLoop (interval : Binary64) (stop : Cancellation Session) :
    List (StateM Session Bool) → Session → Except Fault Unit × Session
  | waits, s =>
    if exceeds interval stop.longest then (.error (.misfit .tooLate), s)
    else
      let s := { s with world := s.world.did (.waited interval) }
      match waits with
      | [] => (.ok (), (stop.last s).2)
      | wait :: waits =>
        let (set, s) := wait s
        if set then (.ok (), s) else watchLoop interval stop waits (printTable s)

def watch (r : Router) (config : String) (interval : Binary64) (stop : Cancellation Session)
    (s : Session) : Except Fault Unit × Session :=
  match Config.load s.world.host config with
  | .error fault => (.error fault, s)
  | .ok c =>
    match r.configure c.request s with
    | (.error fault, s) => (.error fault, s)
    | (.ok (), s) => watchLoop interval stop stop.waits s

/-- The exit code of a command that may fail. A fault of the agent is noted; any other one is
passed on. -/
def exitCode (name : String) : Except Fault Unit × Session → Except Fault Nat × Session
  | (.ok (), s) => (.ok 0, s)
  | (.error fault, s) =>
    if fault.origin = .agent then
      (.ok 1, s.note .error .commandLine s!"{name} failed: {fault.message}")
    else (.error fault, s)

def perform (r : Router) (stop : Cancellation Session) (c : Command) (s : Session) :
    Except Fault Nat × Session :=
  match c with
  | .platforms => (.ok 0, s)
  | .detect =>
    let name := if s.state.platform = "" then "unknown" else s.state.platform
    (.ok (if r.platform.isSome then 0 else 1), printLine name s)
  | .listenAddress => (.ok 0, printLine r.listenAddress s)
  | .preRun => exitCode c.name (r.preRun stop s)
  | .watch config interval => exitCode c.name (watch r config interval stop s)

def Stop.exitCode : Stop → Nat
  | .help => 0
  | .usage => 2

end CommandLine

/-- Carries a command line out: its exit code, or the fault that it ends in. -/
def World.runCommandLine (w : World) (registry : Platform.Registry) (args : List String)
    (waits : List (List CommandLine.Interlude)) (last : List CommandLine.Interlude) :
    Except Fault Nat × World :=
  match CommandLine.parse args with
  | .error stop => (.ok stop.exitCode, w)
  | .ok .platforms =>
    (.ok 0, w.print (Value.Json.render (.list (supportedPlatforms.map .text)) ++ "\n"))
  | .ok command =>
    w.withRouter registry .default
      (CommandLine.perform · (CommandLine.stopEvent waits last) command ·)

end RouterAgent
