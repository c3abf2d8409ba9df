import RouterAgent.Config
import RouterAgent.Detection
import RouterAgent.Platform.Hook
import RouterAgent.Platform.Registry

/-!
A router: the agent's way to one platform, through install, start and stop.

Configuring a router for a resolver that is told about clients starts the reporting of clients, at
most once: the watcher is started, every lease file of the platform is read and watched, and then
the platform's own hook is called.
-/

namespace RouterAgent

structure Router where
  platform : Option Platform
  settings : Settings

/-- What a configuration asks of a router: whether clients are to be reported, and perhaps
settings of its own. -/
structure Request where
  sendsClientInfo : Bool
  settings : Option Settings

def Config.request (c : Config) : Request := ⟨c.sendsClientInfo, some c.settings⟩

namespace Router

def noService : Service :=
  { name := "", displayName := "", description := "", executable := "", arguments := []
    options := .empty }

/-- The event that nobody sets, as long as the host has patience. -/
def noCancel (s : Session) : Cancellation Session := .after false s.world.host.patience

def ofState (r : Platform.Registry) (state : RouterState) (settings : Settings) : Router :=
  ⟨r.get? state.platform, settings⟩

/-! ### Reporting of clients -/

def feed (f : Feed) (file : Lease.WatchedFile) : Except Fault Unit × Feed :=
  let (result, f) := (f.load file).2.add file
  (result.map fun _ => (), f)

/-- Reads files and subscribes to their changes, up to the first fault. -/
def feedAll : List Lease.WatchedFile → Feed → Except Fault Unit × Feed
  | [], f => (.ok (), f)
  | file :: files, f =>
    match feed f file with
    | (.ok (), f) => feedAll files f
    | (.error fault, f) => (.error fault, f)

def enabledText (p : Platform) (f : Feed) : String :=
  s!"client info reporting enabled on {p.name}: {f.table.size} records from " ++
    Text.quotedList f.watcher.watchList

/-- Starts the reporting of clients, unless it goes on already. No time passes while the files are
put under watch, and the worker has no turn before it is done; `Crew.WarmUp` is about its turns in
between. -/
def enable (p : Platform) (settings : Settings) (s : Session) : Except Fault Unit × Session :=
  if s.state.reporting then (.ok (), s)
  else match settings.refresh.toFloat with
    | .error fault => (.error fault, s)
    | .ok refresh =>
      match Feed.start ⟨s.world, .new refresh, s.state.table⟩ with
      | (.error fault, f) => (.error fault, { s with world := f.world })
      | (.ok (), f) =>
        let (result, f) := feedAll p.watched f
        let state :=
          { s.state with reporting := true, table := f.table, watcher := some f.watcher }
        match result with
        | .error fault => (.error fault, ⟨f.world, state⟩)
        | .ok () =>
          (.ok (), (Session.mk f.world state).note .info .lifecycle (enabledText p f))

/-! ### Hooks -/

def call (r : Router) (hook : Hook) (cancel : Cancellation Session) (v : Visit) :
    Except Fault Unit × Visit :=
  match r.platform with
  | none => (.ok (), v)
  | some p => p.call hook r.settings cancel v

def configure (r : Router) (request : Request) (s : Session) : Except Fault Unit × Session :=
  match r.platform with
  | none => (.error (.unsupported s.state.platform), s)
  | some p =>
    let (result, s) :=
      if request.sendsClientInfo then enable p (request.settings.getD r.settings) s
      else (.ok (), s)
    match result with
    | .error fault => (.error fault, s)
    | .ok () =>
      let (result, v) := p.call .configure r.settings (noCancel s) ⟨s, noService⟩
      (result, v.session)

def preRun (r : Router) (cancel : Cancellation Session) (s : Session) :
    Except Fault Unit × Session :=
  let (result, v) := r.call .preRun cancel ⟨s, noService⟩
  (result, v.session)

def serve (r : Router) (hook : Hook) (service : Service) (s : Session) :
    Except Fault Unit × Visit :=
  r.call hook (noCancel s) ⟨s, service⟩

/-! ### Questions -/

def listenAddress (r : Router) : String := r.platform.elim "" Platform.listenAddress

/-- What is known about a client, while clients are reported. -/
def clientInfo (s : Session) (mac : String) : Option Client :=
  if s.state.reporting then s.state.table.get? mac else none

end Router

end RouterAgent
