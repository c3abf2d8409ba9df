import RouterAgent.Router

/-!
The one router of a process.

Its state is published once and found again by every later call; the first call detects the
platform.
-/

namespace RouterAgent.World

/-- Acts on the published router, which is detected first if need be. -/
def withRouter (w : World) (r : Platform.Registry) (settings : Settings)
    (act : Router → Session → α × Session) : α × World :=
  let (state, w) := w.getState
  let (a, s) := act (.ofState r state settings) ⟨w, state⟩
  (a, { s.world with published := some s.state })

/-- Drops the published state and stops its watcher. -/
def reset (w : World) : World :=
  let w' := { w with published := none }
  match w.published with
  | none => w'
  | some state => ((Session.mk w' state).withWatcher fun f => ((), f.stop)).2.world

/-- Takes a step on the published router; without one, only the surroundings can take a step. -/
def step (w : World) (st : Step) : Except Fault Reply × World :=
  match w.published with
  | some state =>
    let (result, s) := Session.step ⟨w, state⟩ st
    (result, { s.world with published := some s.state })
  | none =>
    match st with
    | .happening h =>
      let (reply, w) := w.happen h
      (.ok reply, w)
    | .observers => (.ok (.observers w.host.observers), w)
    | .watcher c => (.error (.misfit (.lacks "NoneType" c.name)), w)
    | .table _ => (.error (.misfit (.lacks "NoneType" "client_info")), w)

end RouterAgent.World
