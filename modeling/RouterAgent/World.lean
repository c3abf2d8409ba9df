import RouterAgent.Watcher

/-!
The surroundings of the agent and what was observed of it.

A platform is published at most once: `publish` keeps what is already there. Running the first
command gives a rival, if there is one, the time to publish first.
-/

namespace RouterAgent

open RouterAgent.Number RouterAgent.Lease

/-- The state of a router: its platform, whether client information is reported, the table of
clients, and the watcher that feeds it. -/
structure RouterState where
  platform : String
  reporting : Bool
  table : Client.Table
  watcher : Option Watcher

def RouterState.ofPlatform (platform : String) : RouterState := ⟨platform, false, .empty, none⟩

/-- Puts a candidate into an empty slot and gives what the slot then holds. -/
def publish (candidate : α) : Option α → α × Option α
  | none => (candidate, some candidate)
  | some first => (first, some first)

/-- The host, the log, the actions and the printed text so far, the number of calls of each reader,
and the published state. -/
structure World where
  host : Host
  log : List Note
  trace : List Action
  printed : String
  calls : Nat → Nat
  published : Option RouterState

namespace World

def start (host : Host) : World :=
  { host, log := [], trace := [], printed := "", calls := fun _ => 0, published := none }

instance : Inhabited World := ⟨start .empty⟩

def note (w : World) (level : Level) (writer : Writer) (text : String) : World :=
  { w with log := w.log ++ [⟨level, writer, text⟩] }

def did (w : World) (action : Action) : World := { w with trace := w.trace ++ [action] }

def print (w : World) (text : String) : World := { w with printed := w.printed ++ text }

/-- Publishes a state unless there is one, and gives the published one. -/
def publish (w : World) (candidate : RouterState) : RouterState × World :=
  let (state, slot) := RouterAgent.publish candidate w.published
  (state, { w with published := slot })

def letRivalPublish (w : World) : World :=
  match w.host.rival with
  | none => w
  | some platform =>
    ({ w with host := { w.host with rival := none } }.publish (.ofPlatform platform)).2

def run (w : World) (line : String) : CommandResult × World :=
  let w := (w.did (.ran line)).letRivalPublish
  let (result, host) := w.host.run line
  (result, { w with host })

/-- Reads the clients of a lease file, by its own reader if it has one, in a phase of the
watcher. -/
def parse (w : World) (phase : Phase) (file : WatchedFile) : Except Fault (List Client) × World :=
  match file.reader with
  | none => (file.format.readLeases w.host file.path, w)
  | some r =>
    let n := w.calls r.key + 1
    let w := { w.did (.parsed file.path phase) with
      calls := fun k => if k = r.key then n else w.calls k }
    ((r.answer n).getD (file.format.readLeases w.host file.path), w)

end World

end RouterAgent
