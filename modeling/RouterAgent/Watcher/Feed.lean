import RouterAgent.World

/-!
A watcher at work: how it keeps a table of clients in step with the lease files.

`load` reads a file at once and `add` subscribes to its directory. A notice of a change queues the
path, and the worker reads queued paths again, one after the other; so it does with all known files
when the interval has passed. A file that cannot be read leaves the table as it is.
-/

namespace RouterAgent

open RouterAgent.Number RouterAgent.Lease

/-- Why a file is read: a caller loads it, its path waited in the queue, or all files are read. -/
inductive Occasion where
  | load
  | notice
  | refresh
deriving DecidableEq

/-- A watcher with its surroundings and the table that it feeds. -/
structure Feed where
  world : World
  watcher : Watcher
  table : Client.Table

namespace Feed

def note (f : Feed) (level : Level) (text : String) : Feed :=
  { f with world := f.world.note level .watcher text }

def enter (f : Feed) (phase : Phase) : Feed := { f with watcher := { f.watcher with phase } }

def parse (f : Feed) (file : WatchedFile) : Except Fault (List Client) × Feed :=
  let (result, world) := f.world.parse f.watcher.phase file
  (result, { f with world })

def noteFailure (f : Feed) (path : String) : Fault → Feed
  | .leases p problem =>
    f.note .warning s!"failed to read client info file: {(Fault.leases p problem).message}"
  | _ => f.note .error s!"client info parser failed for {path}"

/-- Puts the clients of a file into the table, and says whether a record changed. -/
def replace (f : Feed) (path : String) (clients : List Client) : Bool × Feed :=
  let (changed, table) := f.table.replaceSource path clients
  (changed, { f with table })

/-! ### Reading a file -/

/-- Looks whether there is something to read. A caller wants the file to exist; the worker passes
over an empty one too, which is about to be written anew. -/
def seek (f : Feed) (occasion : Occasion) (path : String) : Bool × Feed :=
  match occasion with
  | .load =>
    if f.world.host.holds path then (true, f)
    else (false, f.note .debug s!"client info file {path} does not exist")
  | .notice | .refresh =>
    match f.world.host.size? path with
    | none => (false, f)
    | some 0 => (false, f.note .debug s!"skip empty client info file {path}")
    | some _ => (true, f)

def take (f : Feed) (occasion : Occasion) (path : String) (result : Except Fault (List Client)) :
    Bool × Feed :=
  match result with
  | .error fault => (false, f.noteFailure path fault)
  | .ok clients =>
    let (changed, f) := f.replace path clients
    match occasion with
    | .load => (true, f.note .debug s!"loaded {clients.length} client info records from {path}")
    | .notice | .refresh =>
      (true, if changed then
          f.note .debug s!"client info updated from {path}: {clients.length} records"
        else f)

def read (f : Feed) (occasion : Occasion) (path : String) (file : WatchedFile) : Bool × Feed :=
  let (there, f) := f.seek occasion path
  if there then
    let (result, f) := f.parse file
    f.take occasion path result
  else (false, f)

/-! ### The callers' side -/

/-- Gets to know a file and reads it at once. Says whether that worked. -/
def load (f : Feed) (file : WatchedFile) : Bool × Feed :=
  { f with watcher := f.watcher.know file }.read .load file.path file

def directoryOf (path : String) : String := (Path.ofText path).parent.text

/-- Gets to know a file and subscribes to its directory. Says whether that worked; a fault that is
not the operating system's is passed on. -/
def add (f : Feed) (file : WatchedFile) : Except Fault Bool × Feed :=
  match f.watcher.observer with
  | none => (.ok false, f.note .warning s!"cannot watch {file.path}: watcher not started")
  | some observer =>
    let f := { f with watcher := f.watcher.know file }
    let dir := directoryOf file.path
    if f.watcher.dirs.contains dir then (.ok true, f)
    else if !f.world.host.isDir dir then
      (.ok false, f.note .debug s!"not watching {file.path}: {dir} does not exist")
    else
      let (result, host) := f.world.host.subscribe observer dir
      let f := { f with world := { f.world.did (.subscribed dir) with host } }
      match result with
      | .error fault =>
        if fault.origin = .system then
          (.ok false, f.note .warning s!"failed to watch {dir}: {fault.message}")
        else (.error fault, f)
      | .ok () =>
        (.ok true, { f with watcher := { f.watcher with dirs := f.watcher.dirs ++ [dir] } })

/-! ### The worker's side -/

def reparse (f : Feed) (path : String) : Feed :=
  match f.watcher.files.get? path with
  | none => f
  | some file => ((f.enter .reparsing).read .notice path file).2.enter .watching

def reparseAll (f : Feed) (paths : List String) : Feed := paths.foldl reparse f

theorem reparseAll_cons (f : Feed) (path : String) (paths : List String) :
    f.reparseAll (path :: paths) = (f.reparse path).reparseAll paths := rfl

/-- Lets a running worker read all queued paths again. -/
def drain (f : Feed) : Feed :=
  if f.watcher.running then
    { f with watcher := { f.watcher with queue := [] } }.reparseAll f.watcher.queue
  else f

def plan (f : Feed) : Feed :=
  { f with watcher :=
    { f.watcher with nextRefresh := f.world.host.clock.add f.watcher.refresh } }

def refresh (f : Feed) : Feed := (f.reparseAll f.watcher.watchList).plan

/-- Lets time pass. A running worker whose interval has passed reads all known files again, once. -/
def advance (f : Feed) (seconds : Binary64) : Feed :=
  let f := { f with world := { f.world with host := f.world.host.wait seconds } }
  if f.watcher.isDue f.world.host.clock then f.refresh else f

/-- Starts the observer and the worker, unless the worker runs. The queue is left to the worker. -/
def launch (f : Feed) : Except Fault Unit × Feed :=
  if f.watcher.running then (.ok (), f)
  else
    let (result, host) := f.world.host.startObserver
    let f := { f with world := { f.world with host } }
    match result with
    | .error fault => (.error (.watchStart fault.message), f)
    | .ok observer =>
      let watcher :=
        { f.watcher with observer := some observer, running := true, phase := .watching }
      (.ok (), { f with watcher }.plan)

/-- Starts the observer and the worker, which reads what waits in the queue. -/
def start (f : Feed) : Except Fault Unit × Feed :=
  let (result, f) := f.launch
  (result, f.drain)

def hush (f : Feed) : Feed :=
  let host := f.watcher.observer.elim f.world.host f.world.host.stopObserver
  { f with world := { f.world with host } }

/-- Puts a watcher whose worker has come to its end to rest. -/
def rest (f : Feed) : Feed := { f with watcher := { f.watcher with running := false, phase := .idle } }

/-- Stops the observer and the worker. The known files and the queue stay. -/
def stop (f : Feed) : Feed := if f.watcher.running then f.hush.rest else f

def enqueue (f : Feed) (path : String) : Feed := { f with watcher := f.watcher.notify path }

def notify (f : Feed) (path : String) : Feed := (f.enqueue path).drain

end Feed

end RouterAgent
