import RouterAgent.Proofs.Watcher.Reading

/-!
A watcher whose worker goes at its own pace.

`Feed.step` lets the worker finish after each step. Here the worker takes one path at a time, and
anything may happen between two of its readings: callers put paths at the end of the queue, the
worker takes them from the front, and where nothing waits and the interval has passed it goes
through all known files. The runs of `Feed.step` are those in which the worker is never interrupted.
A reading is one move, a worker lives until the watcher is stopped, and to stop it a caller waits
for as long as the worker takes; `Crew` is about what else may happen.
-/

namespace RouterAgent

open RouterAgent.Number RouterAgent.Lease RouterAgent.Client

namespace Feed

def withQueue (f : Feed) (paths : List String) : Feed :=
  { f with watcher := { f.watcher with queue := paths } }

/-- A step without the worker's part in it. Stopping is left out, since it waits for the worker. -/
def ask (f : Feed) : Step → Feed
  | .happening (.change c) =>
    if f.world.host.delivers c && c.renews then f.enqueue c.target else f
  | .happening h => { f with world := { f.world with host := f.world.host.after h } }
  | .watcher .start => f.launch.2
  | .watcher (.notify path) => f.enqueue path
  | .watcher (.load file) => (f.load file).2
  | .watcher (.add file) => (f.add file).2
  | .watcher .stop | .watcher .watchList | .observers | .table _ => f

/-- The paths that a step asks the worker to read: that of a file that a delivered change renews,
and that of a notice, if the file is known. -/
def requested (f : Feed) : Step → List String
  | .happening (.change c) =>
    if f.world.host.delivers c ∧ c.renews ∧ f.watcher.files.contains c.target then [c.target]
    else []
  | .watcher (.notify path) => if f.watcher.files.contains path then [path] else []
  | _ => []

end Feed

/-- A feed whose worker may be in the middle of reading all files; `agenda` has the paths of those
that are left. -/
structure Paced where
  feed : Feed
  agenda : List String

inductive Move where
  | outside (s : Step)
  | work

def Move.step? : Move → Option Step
  | .outside s => some s
  | .work => none

namespace Paced

def new (w : World) (refresh : Binary64) : Paced := ⟨⟨w, .new refresh, .empty⟩, []⟩

/-- The worker's next reading: of what is left on the agenda, else of the front of the queue; if
nothing waits and the time has come, all known files go on the agenda. -/
def work (p : Paced) : Paced :=
  match p.agenda with
  | [path] => ⟨(p.feed.reparse path).plan, []⟩
  | path :: rest => ⟨p.feed.reparse path, rest⟩
  | [] =>
    if p.feed.watcher.running then
      match p.feed.watcher.queue with
      | path :: rest => ⟨(p.feed.withQueue rest).reparse path, []⟩
      | [] =>
        if p.feed.watcher.isDue p.feed.world.host.clock then
          match p.feed.watcher.watchList with
          | [] => ⟨p.feed.plan, []⟩
          | paths => ⟨p.feed, paths⟩
        else p
    else p

/-- Stopping, without a limit to the time: the worker finishes what it is at and what waits, and
ends. -/
def halt (p : Paced) : Paced := ⟨(p.feed.reparseAll p.agenda).drain.stop, []⟩

def move (p : Paced) : Move → Paced
  | .outside (.watcher .stop) => p.halt
  | .outside s => { p with feed := p.feed.ask s }
  | .work => p.work

def run (p : Paced) (ms : List Move) : Paced := ms.foldl move p

@[simp] lemma run_nil (p : Paced) : p.run [] = p := rfl
@[simp] lemma run_cons (p : Paced) (m : Move) (ms : List Move) :
    p.run (m :: ms) = (p.move m).run ms := rfl
lemma run_append (p : Paced) (ms ns : List Move) : p.run (ms ++ ns) = (p.run ms).run ns := by
  simp [run, List.foldl_append]

structure Idle (p : Paced) : Prop where
  agenda : p.agenda = []
  queue : p.feed.watcher.running = true → p.feed.watcher.queue = []

/-! ### The readings of a move -/

def lastReadings (p : Paced) : List Reading :=
  p.feed.rereadings .refresh p.agenda ++
    if p.feed.watcher.running then
      (p.feed.reparseAll p.agenda).rereadings .notice p.feed.watcher.queue
    else []

def readingsOf (p : Paced) : Move → List Reading
  | .outside (.watcher (.load file)) => [p.feed.loading file]
  | .outside (.watcher .stop) => p.lastReadings
  | .outside _ => []
  | .work =>
    match p.agenda with
    | path :: _ => [p.feed.rereading .refresh path]
    | [] =>
      if p.feed.watcher.running then
        match p.feed.watcher.queue with
        | path :: _ => [p.feed.rereading .notice path]
        | [] => []
      else []

def readings (p : Paced) : List Move → List Reading
  | [] => []
  | m :: ms => p.readingsOf m ++ (p.move m).readings ms

def requestsOf (p : Paced) : Move → List String
  | .outside s => p.feed.requested s
  | .work => []

def requests (p : Paced) : List Move → List String
  | [] => []
  | m :: ms => p.requestsOf m ++ (p.move m).requests ms

end Paced

/-- The paths that were read because they waited in the queue. -/
def noticed (rs : List Reading) : List String :=
  (rs.filter (·.occasion = .notice)).map Reading.path

end RouterAgent
