import RouterAgent.Config
import RouterAgent.Platform
import RouterAgent.Readiness
import RouterAgent.Session
import RouterAgent.SettingsStore

/-!
What platforms do at their hooks.

The deeds of a hook are done in order, up to the first one that fails. A fault of the agent is
passed on as it is; any other one is wrapped with the names of platform and hook.
-/

namespace RouterAgent

/-- A session and the service that a hook may change. -/
structure Visit where
  session : Session
  service : Service

namespace Platform

def writer (p : Platform) : Writer := .platform p.name

def setting (key : String) (s : Session) : Except Fault String × Session :=
  let (result, world) := SettingsStore.get s.world key
  (result, { s with world })

/-- Whether a setting is 1. A problem of the store is noted and counts as a no. -/
def isOn (p : Platform) (key : String) (s : Session) : Except Fault Bool × Session :=
  match setting key s with
  | (.ok value, s) => (.ok (value = "1"), s)
  | (.error (.store problem), s) =>
    (.ok false, s.note .debug p.writer s!"nvram get {key}: {problem.words}")
  | (.error fault, s) => (.error fault, s)

/-- Whether one of some settings is 1; the later ones are asked for only if need be. -/
def anyOn (p : Platform) : List String → Session → Except Fault Bool × Session
  | [], s => (.ok false, s)
  | key :: keys, s =>
    match p.isOn key s with
    | (.ok false, s) => p.anyOn keys s
    | (result, s) => (result, s)

/-- The settings that enable the journal, of older firmware and of newer. -/
def journalKeys : List String := ["enable_jffs2", "sys_enable_jffs2"]

def clockWaiting (p : Platform) : Waiting Session :=
  { name := s!"{p.name} ntp_ready"
    check := do
      let result ← setting "ntp_ready"
      return ⟨result.map (· = "1"), false, none⟩
    note := fun text s => s.note .info p.writer text
    did := fun action s => { s with world := s.world.did action } }

def perform (p : Platform) (hook : Hook) (settings : Settings) (cancel : Cancellation Session)
    (v : Visit) : Deed → Except Fault Unit × Visit
  | .announce =>
    let s := v.session
    (.ok (), { v with session :=
      { s with world := s.world.did (.hooked hook s.state.table.size) } })
  | .setOptions entries =>
    (.ok (), { v with service :=
      { v.service with options := v.service.options.insertMany entries } })
  | .fail fault => (.error fault, v)
  | .requireJournal =>
    match p.anyOn journalKeys v.session with
    | (.ok true, session) => (.ok (), { v with session })
    | (.ok false, session) => (.error .noJournal, { v with session })
    | (.error fault, session) => (.error fault, { v with session })
  | .awaitClock =>
    let (result, session) :=
      p.clockWaiting.run settings.baseDelay settings.maxDelay cancel v.session
    (result, { v with session })

/-- Does deeds in order, up to the first one that fails. -/
def performAll (p : Platform) (hook : Hook) (settings : Settings)
    (cancel : Cancellation Session) : List Deed → Visit → Except Fault Unit × Visit
  | [], v => (.ok (), v)
  | deed :: deeds, v =>
    match p.perform hook settings cancel v deed with
    | (.ok (), v) => p.performAll hook settings cancel deeds v
    | (.error fault, v) => (.error fault, v)

/-- A fault as a caller of a hook sees it. -/
def wrap (p : Platform) (hook : Hook) (fault : Fault) : Fault :=
  if fault.origin = .agent then fault else .hook p.name hook fault

def call (p : Platform) (hook : Hook) (settings : Settings) (cancel : Cancellation Session)
    (v : Visit) : Except Fault Unit × Visit :=
  let (result, v) := p.performAll hook settings cancel (p.hooks hook) v
  (result.mapError (p.wrap hook), v)

end Platform

end RouterAgent
