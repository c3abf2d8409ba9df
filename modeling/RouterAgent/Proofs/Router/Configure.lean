import RouterAgent.Proofs.Crew.Rounds
import RouterAgent.Proofs.Watcher.Refinement

/-!
What configuring a router comes to.

On a platform that is supported there are five ways, and each property of configuring is a case
analysis over them: the platform's hook is called at once, or reporting does not begin, or it begins
with a warm-up, which is either cut off by a rejected file or followed by the hook.
-/

namespace RouterAgent

open RouterAgent.Number RouterAgent.Lease RouterAgent.Client

/-! ### The start of a new watcher -/

def World.withObservers (w : World) (os : List Observer) : World :=
  { w with host := { w.host with observers := w.host.observers ++ os } }

lemma Host.startObserver_eq_error {h g : Host} {fault : Fault}
    (hs : h.startObserver = (.error fault, g)) :
    ∃ os : List Observer, (∀ o ∈ os, o.started = false) ∧
      g = { h with observers := h.observers ++ os } := by
  unfold startObserver at hs
  split at hs
  · obtain ⟨-, rfl⟩ := Prod.mk.inj hs
    exact ⟨[], by simp, by simp⟩
  · split at hs
    · obtain ⟨-, rfl⟩ := Prod.mk.inj hs
      exact ⟨[⟨false, false, []⟩], by simp, rfl⟩
    · simp at hs

namespace Feed

def fresh (w : World) (refresh : Binary64) (t : Table) : Feed := ⟨w, .new refresh, t⟩

variable {w : World} {refresh : Binary64} {t : Table} {f : Feed}

lemma start_fresh (w : World) (refresh : Binary64) (t : Table) :
    (fresh w refresh t).start = (fresh w refresh t).launch := by
  have hrests : (fresh w refresh t).launch.2.Rests := fun _ => queue_launch _
  exact congrArg (Prod.mk (fresh w refresh t).launch.1) hrests.drain_eq

/-- A new watcher that was started has the newest observer, which is not subscribed to anything. -/
structure Begun (w : World) (t : Table) (f : Feed) : Prop where
  world : f.world = w.withObservers [⟨true, false, []⟩]
  observer : f.watcher.observer = some w.host.observers.length
  dirs : f.watcher.dirs = []
  table : f.table = t

lemma begun_of_start (h : (fresh w refresh t).start = (.ok (), f)) : Begun w t f := by
  rw [start_fresh] at h
  have hl := (fresh w refresh t).launched
  rw [h] at hl
  cases hl with
  | runs hr => simp [fresh, Watcher.new] at hr
  | started hr hs =>
    obtain ⟨rfl, rfl⟩ := Host.startObserver_eq_ok hs
    exact ⟨rfl, rfl, rfl, rfl⟩

lemma start_eq_error {fault : Fault} (h : (fresh w refresh t).start = (.error fault, f)) :
    (∃ why, fault = .watchStart why) ∧
      ∃ os : List Observer, (∀ o ∈ os, o.started = false) ∧ f.world = w.withObservers os := by
  rw [start_fresh] at h
  have hl := (fresh w refresh t).launched
  rw [h] at hl
  cases hl with
  | refused hr hs =>
    obtain ⟨os, hos, rfl⟩ := Host.startObserver_eq_error hs
    exact ⟨⟨_, rfl⟩, os, hos, rfl⟩

lemma Begun.open (h : Begun w t f) : f.Open :=
  ⟨by rw [h.observer]; rfl, by rw [h.dirs]; simp⟩

lemma Begun.twin (h : Begun w t f) : w.Twin f.world := by
  rw [h.world]
  exact ⟨⟨_, _, rfl⟩, rfl⟩

lemma Begun.hooked (h : Begun w t f) : f.world.hooked = w.hooked := by
  rw [h.world]
  rfl

end Feed

/-! ### The ways of configuring -/

def Session.reportFrom (s : Session) (f : Feed) : Session :=
  ⟨f.world, { s.state with reporting := true, table := f.table, watcher := some f.watcher }⟩

namespace Router

/-- The platform's own hook, as it is called when a router is configured. -/
def callConfigure (p : Platform) (settings : Settings) (s : Session) :
    Except Fault Unit × Session :=
  let (result, v) := p.call .configure settings (noCancel s) ⟨s, noService⟩
  (result, v.session)

/-- The session after a watcher that was started is warmed up with the platform's files. -/
def warmed (p : Platform) (s : Session) (f : Feed) : Session :=
  (s.reportFrom (f.enlistAll p.watched)).note .info .lifecycle
    (enabledText p (f.enlistAll p.watched))

inductive Configured (p : Platform) (settings : Settings) (request : Request) (s : Session) :
    Except Fault Unit × Session → Prop
  /-- There is nothing to begin. -/
  | plain (h : request.sendsClientInfo = true → s.state.reporting = true) :
    Configured p settings request s (callConfigure p settings s)
  /-- The interval is no number. -/
  | unfit {fault : Fault} (hs : request.sendsClientInfo = true) (hr : s.state.reporting = false)
      (hi : (request.settings.getD settings).refresh.toFloat = .error fault) :
    Configured p settings request s (.error fault, s)
  /-- The watcher does not start. -/
  | refused {refresh : Binary64} {fault : Fault} {f : Feed} (hs : request.sendsClientInfo = true)
      (hr : s.state.reporting = false)
      (hi : (request.settings.getD settings).refresh.toFloat = .ok refresh)
      (hf : (Feed.fresh s.world refresh s.state.table).start = (.error fault, f)) :
    Configured p settings request s (.error fault, { s with world := f.world })
  /-- A file is rejected. -/
  | rejected {refresh : Binary64} {f : Feed} {before after : List WatchedFile}
      {file : WatchedFile} {fault : Fault} (hs : request.sendsClientInfo = true)
      (hr : s.state.reporting = false)
      (hi : (request.settings.getD settings).refresh.toFloat = .ok refresh)
      (hf : (Feed.fresh s.world refresh s.state.table).start = (.ok (), f))
      (hw : p.watched = before ++ file :: after)
      (hb : ∀ other ∈ before, s.world.host.rejection? other = none)
      (hfile : s.world.host.rejection? file = some fault) :
    Configured p settings request s
      (.error fault, s.reportFrom (f.enlistAll (before ++ [file])))
  /-- The watcher starts, and no file is rejected. -/
  | primed {refresh : Binary64} {f : Feed} (hs : request.sendsClientInfo = true)
      (hr : s.state.reporting = false)
      (hi : (request.settings.getD settings).refresh.toFloat = .ok refresh)
      (hf : (Feed.fresh s.world refresh s.state.table).start = (.ok (), f))
      (hw : ∀ file ∈ p.watched, s.world.host.rejection? file = none) :
    Configured p settings request s (callConfigure p settings (warmed p s f))

section Start

variable {p : Platform} {settings : Settings} {request : Request} {s : Session}
  {refresh : Binary64} {f : Feed}

lemma configure_of_plain (h : request.sendsClientInfo = true → s.state.reporting = true) :
    configure ⟨some p, settings⟩ request s = callConfigure p settings s := by
  unfold configure enable
  cases hs : request.sendsClientInfo <;> simp_all [callConfigure]

variable (hs : request.sendsClientInfo = true) (hr : s.state.reporting = false)
  (hi : (request.settings.getD settings).refresh.toFloat = .ok refresh)

include hs hr hi

lemma configure_of_refused {fault : Fault}
    (hf : (Feed.fresh s.world refresh s.state.table).start = (.error fault, f)) :
    configure ⟨some p, settings⟩ request s = (.error fault, { s with world := f.world }) := by
  simp only [Feed.fresh] at hf
  simp [configure, enable, hs, hr, hi, hf]

variable (hf : (Feed.fresh s.world refresh s.state.table).start = (.ok (), f))

include hf

lemma configure_of_not_rejected (hw : ∀ file ∈ p.watched, s.world.host.rejection? file = none) :
    configure ⟨some p, settings⟩ request s = callConfigure p settings (warmed p s f) := by
  have hstart : Feed.start ⟨s.world, .new refresh, s.state.table⟩ = (.ok (), f) := hf
  have htwin := (Feed.begun_of_start hf).twin.host
  have hfeed : feedAll p.watched f = (.ok (), f.enlistAll p.watched) :=
    feedAll_of_not_rejected fun file h => (htwin.rejection? file).trans (hw file h)
  simp only [configure, enable, hs, hr, hi, hstart, hfeed, Bool.false_eq_true, if_true, if_false]
  rfl

lemma configure_of_rejected {before after : List WatchedFile} {file : WatchedFile} {fault : Fault}
    (hw : p.watched = before ++ file :: after)
    (hb : ∀ other ∈ before, s.world.host.rejection? other = none)
    (hfile : s.world.host.rejection? file = some fault) :
    configure ⟨some p, settings⟩ request s =
      (.error fault, s.reportFrom (f.enlistAll (before ++ [file]))) := by
  have hstart : Feed.start ⟨s.world, .new refresh, s.state.table⟩ = (.ok (), f) := hf
  have hbegun := Feed.begun_of_start hf
  have htwin := hbegun.twin.host
  have hfeed : feedAll (before ++ file :: after) f =
      (.error fault, f.enlistAll (before ++ [file])) :=
    feedAll_of_rejected hbegun.open (fun other h => (htwin.rejection? other).trans (hb other h))
      ((htwin.rejection? file).trans hfile)
  simp only [configure, enable, hs, hr, hi, hstart, hw, hfeed, Bool.false_eq_true, if_true,
    if_false]
  rfl

end Start

lemma rejected_or (h : Host) (files : List WatchedFile) :
    (∀ file ∈ files, h.rejection? file = none) ∨
    ∃ before file after fault, files = before ++ file :: after ∧
      (∀ other ∈ before, h.rejection? other = none) ∧ h.rejection? file = some fault := by
  induction files with
  | nil => exact .inl (by simp)
  | cons file files ih =>
    cases hr : h.rejection? file with
    | some fault => exact .inr ⟨[], file, files, fault, rfl, by simp, hr⟩
    | none =>
      rcases ih with hall | ⟨before, other, after, fault, rfl, hb, ho⟩
      · exact .inl (by simpa [hr] using hall)
      · exact .inr ⟨file :: before, other, after, fault, rfl, by simpa [hr] using hb, ho⟩

/-- **Configuring a router comes to one of five.** -/
theorem configured (p : Platform) (settings : Settings) (request : Request) (s : Session) :
    Configured p settings request s (configure ⟨some p, settings⟩ request s) := by
  by_cases hplain : request.sendsClientInfo = true → s.state.reporting = true
  · exact configure_of_plain hplain ▸ .plain hplain
  · obtain ⟨hs, hr⟩ : request.sendsClientInfo = true ∧ s.state.reporting = false := by
      simpa using hplain
    cases hi : (request.settings.getD settings).refresh.toFloat with
    | error fault =>
      have hcall : configure ⟨some p, settings⟩ request s = (.error fault, s) := by
        simp [configure, enable, hs, hr, hi]
      exact hcall ▸ .unfit hs hr hi
    | ok refresh =>
      rcases hf : (Feed.fresh s.world refresh s.state.table).start with ⟨fault | _, f⟩
      · exact configure_of_refused hs hr hi hf ▸ .refused hs hr hi hf
      · rcases rejected_or s.world.host p.watched with
          hall | ⟨before, file, after, fault, hw, hb, hfile⟩
        · exact configure_of_not_rejected hs hr hi hf hall ▸ .primed hs hr hi hf hall
        · exact configure_of_rejected hs hr hi hf hw hb hfile ▸ .rejected hs hr hi hf hw hb hfile

/-! ### Priming -/

lemma state_callConfigure (p : Platform) (settings : Settings) (s : Session) :
    (callConfigure p settings s).2.state = s.state :=
  congrArg Prod.fst (p.core_call (Platform.quiet_noCancel s) .configure settings ⟨s, noService⟩)

lemma rejection?_eq_none {h : Host} (system : ∀ e ∈ h.script.subscribing, e.2.origin = .system)
    (file : WatchedFile) : h.rejection? file = none := by
  unfold Host.rejection?
  split
  · rw [Option.filter_eq_none_iff]
    intro fault hfault
    obtain ⟨before, after, hsplit, -⟩ := List.lookup_eq_some_iff.1 hfault
    simpa using system (Feed.directoryOf file.path, fault) (by simp [hsplit])
  · rfl

def twoFiles : Platform :=
  { Platform.plain with
    watched := [Paced.lanFile, ⟨"/run/b", .isc, none⟩]
    hooks := Platform.only .configure [.announce] }

def twoFilesWorld : World :=
  .start (Paced.lanWorld.host.write "/run/b" (.bytes ("lease 10.0.0.2 \x7b".toList.map fun c =>
    UInt8.ofNat c.toNat)))

/-- The two files are put under watch while the worker has turns and time passes. -/
def twoFilesActs : List Act :=
  [.calls .start, .works 0, .calls (.load Paced.lanFile), .proceeds, .works 0, .proceeds,
    .happens (.pass .zero), .proceeds, .calls (.add Paced.lanFile), .works 0,
    .calls (.load ⟨"/run/b", .isc, none⟩), .proceeds, .proceeds, .works 0, .proceeds,
    .calls (.add ⟨"/run/b", .isc, none⟩)]

lemma callConfigure_eq_error {p : Platform} {settings : Settings} {s : Session} {fault : Fault}
    (h : (callConfigure p settings s).1 = .error fault) :
    ∃ cause, (p.performAll .configure settings (noCancel s) (p.hooks .configure) ⟨s, noService⟩).1 =
        .error cause ∧
      (cause.origin = .agent ∧ fault = cause ∨ fault = .hook p.name .configure cause) := by
  have hmap : ((p.performAll .configure settings (noCancel s) (p.hooks .configure)
      ⟨s, noService⟩).1.mapError (p.wrap .configure)) = .error fault := h
  cases hr : (p.performAll .configure settings (noCancel s) (p.hooks .configure) ⟨s, noService⟩).1 with
  | ok _ => simp [hr, Except.mapError] at hmap
  | error cause =>
    obtain rfl : p.wrap .configure cause = fault := by simpa [hr, Except.mapError] using hmap
    refine ⟨cause, rfl, ?_⟩
    unfold Platform.wrap
    split
    · next ha => exact .inl ⟨ha, rfl⟩
    · exact .inr rfl

/-- **Only a rejection lets the warm-up fail.** As long as subscribing to the directories of the
platform's files fails only for faults of the operating system, configuring fails only if the
watcher does not start, with the fault that says so, or by the platform's hook, with a fault of the
agent as it is and any other one wrapped; and whenever the watcher starts, all files are loaded and
added and the hook is called. But the first file whose directory meets another fault ends it all:
the fault comes out as it is, and the hook is not called. Adding a file fails for no other
reason. -/
theorem configure_fails_by_rejection (p : Platform) (settings : Settings) (c : Config)
    (s : Session) :
    ((∀ file ∈ p.watched, s.world.host.rejection? file = none) →
      (∀ fault, (configure ⟨some p, settings⟩ c.request s).1 = .error fault →
        (∃ why, fault = .watchStart why) ∨
        ∃ t cause, configure ⟨some p, settings⟩ c.request s = callConfigure p settings t ∧
          (p.performAll .configure settings (noCancel t) (p.hooks .configure) ⟨t, noService⟩).1 =
            .error cause ∧
          (cause.origin = .agent ∧ fault = cause ∨ fault = .hook p.name .configure cause)) ∧
      ((c.sendsClientInfo = true → s.state.reporting = true) →
        configure ⟨some p, settings⟩ c.request s = callConfigure p settings s) ∧
      (c.sendsClientInfo = true → s.state.reporting = false →
        ∀ f, (Feed.fresh s.world c.refresh s.state.table).start = (.ok (), f) →
          configure ⟨some p, settings⟩ c.request s = callConfigure p settings (warmed p s f))) ∧
    (∀ before file after fault, p.watched = before ++ file :: after →
      (∀ other ∈ before, s.world.host.rejection? other = none) →
      s.world.host.rejection? file = some fault →
      c.sendsClientInfo = true → s.state.reporting = false →
      ∀ f, (Feed.fresh s.world c.refresh s.state.table).start = (.ok (), f) →
        configure ⟨some p, settings⟩ c.request s =
          (.error fault, s.reportFrom (f.enlistAll (before ++ [file])))) ∧
    ∀ (f : Feed) file fault, (f.add file).1 = .error fault →
      f.world.host.rejection? file = some fault := by
  have hinterval : (c.request.settings.getD settings).refresh.toFloat = .ok c.refresh := rfl
  refine ⟨fun hw => ⟨fun fault herror => ?_, fun hplain => ?_, fun hs hr f hf => ?_⟩, ?_,
    fun f file fault h => (Feed.add_fst_eq_error_iff.1 h).2.2⟩
  · have h := configured p settings c.request s
    generalize configure ⟨some p, settings⟩ c.request s = out at h herror ⊢
    cases h with
    | plain | primed =>
      obtain ⟨cause, hcause, hfault⟩ := callConfigure_eq_error herror
      exact .inr ⟨_, cause, rfl, hcause, hfault⟩
    | unfit _ _ hi => simp [hinterval] at hi
    | refused _ _ _ hf =>
      obtain rfl : _ = fault := Except.error.inj herror
      exact .inl (Feed.start_eq_error hf).1
    | rejected _ _ _ _ hwatched _ hfile =>
      rw [hw _ (hwatched ▸ List.mem_append_right _ (List.mem_cons_self ..))] at hfile
      simp at hfile
  · exact configure_of_plain hplain
  · exact configure_of_not_rejected hs hr hinterval hf hw
  · intro before file after fault hw hb hfile hs hr f hf
    exact configure_of_rejected hs hr hinterval hf hw hb hfile

def tellingValue : Value :=
  .mapping [(.text "upstreams",
    .mapping [(.text "home", .mapping [(.text "send_client_info", .bool true)])])]

/-- A world in which subscribing to a directory meets a fault that is not the system's. -/
def rejectingWorld : World :=
  let host := Host.empty.write "/run/dnsmasq-dhcp.leases" (Paced.oneLease "aa:00:00:00:00:01")
  .start { host with script :=
    ⟨none, none, [("/run", .reported "RuntimeError" .other (some "inotify limit"))]⟩ }

/-- A rejection comes out as it is: on EdgeOS, in `rejectingWorld`, configuring fails neither
because the watcher does not start nor by the hook. -/
theorem configure_may_pass_on_rejection :
    ¬ ∀ (p : Platform) (settings : Settings) (value : Value) (c : Config) (s : Session)
      (fault : Fault), Config.parse value = .ok c →
      (configure ⟨some p, settings⟩ c.request s).1 = .error fault →
      (∃ why, fault = .watchStart why) ∨
      ∃ cause : Fault, cause.origin = .agent ∧ fault = cause ∨
        fault = .hook p.name .configure cause := by
  intro h
  have hsends : (Config.parse tellingValue).toOption.map (·.sendsClientInfo) = some true := by
    decide +kernel
  cases hc : Config.parse tellingValue with
  | error fault => simp [hc, Except.toOption] at hsends
  | ok c =>
    have hsend : c.sendsClientInfo = true := by simpa [hc, Except.toOption] using hsends
    have hinterval : (c.request.settings.getD .default).refresh.toFloat = .ok c.refresh := rfl
    have hwatched : Platform.edgeos.watched =
        [] ++ Platform.leaseFile .dnsmasq "/run/dnsmasq-dhcp.leases" ::
          [Platform.leaseFile .isc "/run/dhcpd.leases"] := rfl
    have hfile : rejectingWorld.host.rejection?
        (Platform.leaseFile .dnsmasq "/run/dnsmasq-dhcp.leases") =
        some (.reported "RuntimeError" .other (some "inotify limit")) := by decide +kernel
    have hconfigure : configure ⟨some .edgeos, .default⟩ c.request
        ⟨rejectingWorld, .ofPlatform "edgeos"⟩ = _ :=
      configure_of_rejected hsend rfl hinterval rfl hwatched (by simp) hfile
    have hclaim := h .edgeos .default tellingValue c _ _ hc (congrArg Prod.fst hconfigure)
    rcases hclaim with ⟨why, hwhy⟩ | ⟨cause, ⟨ha, rfl⟩ | hhook⟩
    · simp at hwhy
    · simp [Fault.origin] at ha
    · simp at hhook

end Router

end RouterAgent
