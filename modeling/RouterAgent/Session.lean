import RouterAgent.Watcher.Step

/-!
A router with its surroundings.
-/

namespace RouterAgent

structure Session where
  world : World
  state : RouterState

namespace Session

def note (s : Session) (level : Level) (writer : Writer) (text : String) : Session :=
  { s with world := s.world.note level writer text }

/-- Lets the router's watcher act; nothing happens if there is none. -/
def withWatcher (s : Session) (act : Feed → α × Feed) : Option α × Session :=
  match s.state.watcher with
  | none => (none, s)
  | some watcher =>
    let (a, f) := act ⟨s.world, watcher, s.state.table⟩
    (some a, ⟨f.world, { s.state with table := f.table, watcher := some f.watcher }⟩)

def step (s : Session) : Step → Except Fault Reply × Session
  | .happening h =>
    match s.withWatcher (·.happen h) with
    | (some reply, s) => (.ok reply, s)
    | (none, s) =>
      let (reply, world) := s.world.happen h
      (.ok reply, { s with world })
  | .observers => (.ok (.observers s.world.host.observers), s)
  | .watcher c =>
    match s.withWatcher (·.call c) with
    | (some result, s) => (result, s)
    | (none, s) => (.error (.misfit (.lacks "NoneType" c.name)), s)
  | .table c => (.ok (s.state.table.reply c), s)

end Session

end RouterAgent
