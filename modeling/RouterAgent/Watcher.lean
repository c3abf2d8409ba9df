import RouterAgent.Journal
import RouterAgent.Lease.File

/-!
The state of a watcher of lease files.
-/

namespace RouterAgent

open RouterAgent.Number RouterAgent.Lease

/-- A watcher: the files it knows, the directories it is subscribed to, the paths that wait to be
read again, its newest observer, whether its worker runs, and when the worker reads all files again
by itself. -/
structure Watcher where
  files : OrderedMap String WatchedFile
  dirs : List String
  queue : List String
  observer : Option Nat
  running : Bool
  phase : Phase
  refresh : Binary64
  nextRefresh : Binary64

namespace Watcher

/-- A new watcher that reads all files again at an interval, if the interval is above zero. -/
def new (refresh : Binary64) : Watcher :=
  { files := .empty, dirs := [], queue := [], observer := none, running := false, phase := .idle
    refresh, nextRefresh := Binary64.zero }

/-- The known paths in ascending order. -/
def watchList (w : Watcher) : List String := w.files.keys.mergeSort

def know (w : Watcher) (file : WatchedFile) : Watcher :=
  { w with files := w.files.insert file.path file }

/-- Queues a path to be read again, if it is known. -/
def notify (w : Watcher) (path : String) : Watcher :=
  if w.files.contains path then { w with queue := w.queue ++ [path] } else w

def isDue (w : Watcher) (now : Binary64) : Bool :=
  w.running && Binary64.zero.lt w.refresh && w.nextRefresh.le now

end Watcher

end RouterAgent
