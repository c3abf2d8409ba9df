import RouterAgent.Watcher.Feed

/-!
The steps of a watcher's life: what happens around it and what its callers ask for.
-/

namespace RouterAgent

open RouterAgent.Number RouterAgent.Lease

inductive ChangeKind where
  | created
  | modified
  | moved
  | deleted
  | closed
  | opened
  | closedUnwritten
deriving DecidableEq

/-- A change that an observer sees. A change without a destination has an empty one. -/
structure Change where
  kind : ChangeKind
  path : String
  destination : String
  ofDirectory : Bool
deriving DecidableEq

namespace Change

/-- The path at which the content is found after the change. -/
def target (c : Change) : String := if c.destination = "" then c.path else c.destination

/-- Whether a file may have a new content after the change. -/
def renews (c : Change) : Bool :=
  !c.ofDirectory && [ChangeKind.created, .modified, .moved, .closed].contains c.kind

end Change

/-- Whether the newest observer delivers a change: it is subscribed to the directory that the file
was in, or to that of the destination. -/
def Host.delivers (h : Host) (c : Change) : Bool :=
  h.observes (directoryPart c.path) ||
    (c.destination ≠ "" && h.observes (directoryPart c.destination))

inductive Happening where
  | write (path : String) (content : Content)
  | makeDir (path : String)
  | delete (path : String)
  | answers (line : String) (results : List CommandResult)
  | script (s : ObserverScript)
  | pass (seconds : Binary64)
  | change (c : Change)

def Host.after (h : Host) : Happening → Host
  | .write path content => h.write path content
  | .makeDir path => h.makeDir path
  | .delete path => h.delete path
  | .answers line results => { h with commands := h.commands.insert line results }
  | .script s => { h with script := s }
  | .pass seconds => h.wait seconds
  | .change _ => h

inductive Reply where
  | nothing
  | flag (b : Bool)
  | text (s : String)
  | texts (ss : List String)
  | client (c : Option Client)
  | clients (cs : List Client)
  | observers (os : List Observer)
deriving DecidableEq

/-- Lets something happen where no watcher is. -/
def World.happen (w : World) (h : Happening) : Reply × World :=
  (match h with
    | .change c => .flag (w.host.delivers c)
    | _ => .nothing,
   { w with host := w.host.after h })

inductive WatcherCall where
  | start
  | stop
  | notify (path : String)
  | watchList
  | load (file : WatchedFile)
  | add (file : WatchedFile)

def WatcherCall.name : WatcherCall → String
  | start => "start"
  | stop => "stop"
  | notify _ => "notify"
  | watchList => "watch_list"
  | load _ => "load"
  | add _ => "add"

inductive TableCall where
  | snapshot
  | get (mac : String)

inductive Step where
  | happening (h : Happening)
  | observers
  | watcher (c : WatcherCall)
  | table (c : TableCall)

def Client.Table.reply (t : Client.Table) : TableCall → Reply
  | .snapshot => .clients t.snapshot
  | .get mac => .client (t.get? mac)

namespace Feed

/-- Takes in a change that was delivered. -/
def see (f : Feed) (c : Change) : Feed := if c.renews then f.notify c.target else f

def happen (f : Feed) : Happening → Reply × Feed
  | .change c => if f.world.host.delivers c then (.flag true, f.see c) else (.flag false, f)
  | .pass seconds => (.nothing, f.advance seconds)
  | h => (.nothing, { f with world := { f.world with host := f.world.host.after h } })

def call (f : Feed) : WatcherCall → Except Fault Reply × Feed
  | .start => let (result, f) := f.start; (result.map fun _ => .nothing, f)
  | .stop => (.ok .nothing, f.stop)
  | .notify path => (.ok .nothing, f.notify path)
  | .watchList => (.ok (.texts f.watcher.watchList), f)
  | .load file => let (loaded, f) := f.load file; (.ok (.flag loaded), f)
  | .add file => let (result, f) := f.add file; (result.map .flag, f)

def step (f : Feed) : Step → Except Fault Reply × Feed
  | .happening h => let (reply, f) := f.happen h; (.ok reply, f)
  | .observers => (.ok (.observers f.world.host.observers), f)
  | .watcher c => f.call c
  | .table c => (.ok (f.table.reply c), f)

def run (f : Feed) (steps : List Step) : Feed := steps.foldl (fun f s => (f.step s).2) f

theorem run_append (f : Feed) (as bs : List Step) : f.run (as ++ bs) = (f.run as).run bs := by
  simp [run]

end Feed

end RouterAgent
