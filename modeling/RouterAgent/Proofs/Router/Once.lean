import RouterAgent.Proofs.Router.Configure

/-!
Reporting clients begins at most once.

The routers of one state may be configured over and over, while the host and the observers change.
A watcher is there exactly while clients are reported; it is started once and then stays.
-/

namespace RouterAgent

open RouterAgent.Number RouterAgent.Lease RouterAgent.Client

/-! ### The observers that were started -/

def Host.started (h : Host) : Nat := (h.observers.map Observer.started).count true

lemma Host.started_eq {h g : Host}
    (heq : g.observers.map Observer.started = h.observers.map Observer.started) :
    g.started = h.started :=
  congrArg (List.count true) heq

lemma World.started_withObservers (w : World) (os : List Observer) :
    (w.withObservers os).host.started =
      w.host.started + (os.map Observer.started).count true := by
  simp [World.withObservers, Host.started]

namespace Feed

/-- What reporting clients goes by: the watcher's observer, its interval, and which observers of the
host were started. -/
def core (f : Feed) : Option Nat × Binary64 × List Bool :=
  (f.watcher.observer, f.watcher.refresh, f.world.host.observers.map Observer.started)

lemma core_load (f : Feed) (file : WatchedFile) : (f.load file).2.core = f.core := by
  obtain ⟨-, hw, hhost, -⟩ := f.load_spec file
  simp [core, hw, hhost, Watcher.know]

lemma core_add (f : Feed) (file : WatchedFile) : (f.add file).2.core = f.core := by
  have h := f.added file
  generalize f.add file = out at h ⊢
  cases h with
  | counted hn hd => rfl
  | unobserved hn hq | failed hn hd hq hr | rejected hn hd hq hr =>
    simp [core, hq.host, Watcher.know]
  | @subscribed n w hn hd hq hl =>
    have hstarted : (f.world.host.subscribe n (directoryOf file.path)).2.observers.map
        Observer.started = f.world.host.observers.map Observer.started := by
      simp only [Host.subscribe, hl]
      refine List.ext_getElem? fun i => ?_
      rw [List.getElem?_map, List.getElem?_map, List.getElem?_modify]
      cases f.world.host.observers[i]? with
      | none => rfl
      | some o =>
        simp only [Option.map_eq_map, Option.map_some]
        split
        · split <;> rfl
        · rfl
    simp [core, hstarted, Watcher.know]

lemma core_enlistAll (f : Feed) (files : List WatchedFile) :
    (f.enlistAll files).core = f.core := by
  induction files generalizing f with
  | nil => rfl
  | cons file files ih =>
    have hfile : (f.enlist file).core = f.core :=
      ((f.load file).2.core_add file).trans (f.core_load file)
    rw [enlistAll_cons, ih, hfile]

lemma core_reparseAll (f : Feed) (paths : List String) : (f.reparseAll paths).core = f.core := by
  induction paths generalizing f with
  | nil => rfl
  | cons path paths ih =>
    obtain ⟨phase, hw⟩ := f.watcher_reparse path
    have hpath : (f.reparse path).core = f.core := by simp [core, hw, host_reparse]
    rw [reparseAll_cons, ih, hpath]

lemma core_drain (f : Feed) : f.drain.core = f.core := by
  cases hr : f.watcher.running with
  | false => rw [drain_of_stopped hr]
  | true => exact drain_of_running hr ▸ f.core_reparseAll f.watcher.queue

lemma core_happen (f : Feed) (h : Happening) : (f.happen h).2.core = f.core := by
  cases h with
  | change c =>
    have henqueue : (f.enqueue c.target).core = f.core := by
      unfold enqueue Watcher.notify
      split <;> rfl
    simp only [happen, see]
    split
    · split
      · exact (core_drain _).trans henqueue
      · rfl
    · rfl
  | pass seconds =>
    simp only [happen, advance]
    split
    · exact core_reparseAll _ _
    · rfl
  | _ => simp [happen, core, Host.observers_after]

end Feed

/-! ### Whatever happens to a state -/

inductive Turn where
  | configure (r : Router) (request : Request)
  | happening (h : Happening)

namespace Session

def after (s : Session) : Turn → Session
  | .configure r request => (r.configure request s).2
  | .happening h => (s.step (.happening h)).2

def afterAll (s : Session) (ts : List Turn) : Session := ts.foldl after s

/-- A watcher is there exactly while clients are reported, and since the beginning its observer is
the only one that was started. -/
structure Once (w : World) (s : Session) : Prop where
  watcher : s.state.watcher.isSome = s.state.reporting
  started : s.world.host.started = w.host.started + if s.state.reporting then 1 else 0

/-- Who reports goes on reporting, from the same observer and at the same interval. -/
structure Kept (s t : Session) : Prop where
  reporting : t.state.reporting = true
  watcher : t.state.watcher.map (fun w => (w.observer, w.refresh)) =
    s.state.watcher.map fun w => (w.observer, w.refresh)

end Session

namespace Session

variable {w : World} {s : Session}

lemma Once.of_eq {t : Session} (h : Once w s) (hstate : t.state = s.state)
    (hstarted : t.world.host.started = s.world.host.started) : Once w t :=
  ⟨by rw [hstate]; exact h.watcher, by rw [hstate, hstarted]; exact h.started⟩

lemma once_start (w : World) (name : String) : Once w ⟨w, .ofPlatform name⟩ := ⟨rfl, rfl⟩

/-! ### One step -/

lemma core_callConfigure (p : Platform) (settings : Settings) (s : Session) :
    (Router.callConfigure p settings s).2.core = s.core :=
  p.core_call (Platform.quiet_noCancel s) .configure settings ⟨s, Router.noService⟩

lemma Once.callConfigure (h : Once w s) (p : Platform) (settings : Settings) :
    Once w (Router.callConfigure p settings s).2 := by
  have hcore := core_callConfigure p settings s
  have hobservers : (Router.callConfigure p settings s).2.world.host.observers =
      s.world.host.observers := congrArg Prod.snd hcore
  exact h.of_eq (congrArg Prod.fst hcore) (Host.started_eq (by rw [hobservers]))

lemma Once.reportFrom (h : Once w s) (hr : s.state.reporting = false) {f : Feed}
    (hbegun : Feed.Begun s.world s.state.table f) (files : List WatchedFile) :
    Once w (s.reportFrom (f.enlistAll files)) := by
  have hcore : (f.enlistAll files).core = f.core := f.core_enlistAll files
  have hstarted : (f.enlistAll files).world.host.started = f.world.host.started :=
    Host.started_eq (congrArg (fun c => c.2.2) hcore)
  refine ⟨rfl, ?_⟩
  have hold := h.started
  rw [hr] at hold
  calc (f.enlistAll files).world.host.started
      = f.world.host.started := hstarted
    _ = s.world.host.started + 1 := by rw [hbegun.world, World.started_withObservers]; rfl
    _ = w.host.started + 1 := by rw [hold]; rfl

lemma Once.configure (h : Once w s) (r : Router) (request : Request) :
    Once w (r.configure request s).2 := by
  obtain ⟨_ | p, settings⟩ := r
  · exact h
  · have hc := Router.configured p settings request s
    generalize Router.configure ⟨some p, settings⟩ request s = out at hc ⊢
    cases hc with
    | plain => exact h.callConfigure p settings
    | unfit => exact h
    | refused _ _ _ hf =>
      obtain ⟨-, os, hos, hworld⟩ := Feed.start_eq_error hf
      refine h.of_eq rfl ?_
      rw [hworld, World.started_withObservers, List.count_eq_zero.2, Nat.add_zero]
      simpa using hos
    | rejected _ hr _ hf => exact h.reportFrom hr (Feed.begun_of_start hf) _
    | @primed _ f _ hr _ hf =>
      have hreport := h.reportFrom hr (Feed.begun_of_start hf) p.watched
      have hwarmed : Once w (Router.warmed p s f) := hreport.of_eq rfl rfl
      exact hwarmed.callConfigure p settings

lemma Once.happening (h : Once w s) (hap : Happening) :
    Once w (s.step (.happening hap)).2 := by
  obtain ⟨world, platform, reporting, table, watcher⟩ := s
  cases watcher with
  | none =>
    refine h.of_eq rfl (Host.started_eq ?_)
    exact congrArg (List.map Observer.started) (world.host.observers_after hap)
  | some watcher =>
    have hcore := Feed.core_happen ⟨world, watcher, table⟩ hap
    refine ⟨h.watcher, ?_⟩
    exact (Host.started_eq (congrArg (fun c => c.2.2) hcore)).trans h.started

lemma Once.after (h : Once w s) (t : Turn) : Once w (s.after t) := by
  cases t with
  | configure r request => exact h.configure r request
  | happening hap => exact h.happening hap

lemma kept_after (hr : s.state.reporting = true) (t : Turn) : Kept s (s.after t) := by
  cases t with
  | configure r request =>
    have hstate : (s.after (.configure r request)).state = s.state := by
      obtain ⟨_ | p, settings⟩ := r
      · rfl
      · have hcall : Router.configure ⟨some p, settings⟩ request s =
            Router.callConfigure p settings s := Router.configure_of_plain fun _ => hr
        rw [after, hcall, Router.state_callConfigure]
    exact ⟨hstate ▸ hr, by rw [hstate]⟩
  | happening hap =>
    obtain ⟨world, platform, reporting, table, watcher⟩ := s
    cases watcher with
    | none => exact ⟨hr, rfl⟩
    | some watcher =>
      have hcore := Feed.core_happen ⟨world, watcher, table⟩ hap
      refine ⟨hr, congrArg some ?_⟩
      exact congrArg (fun c => (c.1, c.2.1)) hcore

/-! ### All steps -/

lemma Once.afterAll (h : Once w s) (ts : List Turn) : Once w (s.afterAll ts) := by
  induction ts generalizing s with
  | nil => exact h
  | cons t ts ih => exact ih (h.after t)

lemma kept_afterAll (hr : s.state.reporting = true) (ts : List Turn) :
    Kept s (s.afterAll ts) := by
  induction ts generalizing s with
  | nil => exact ⟨hr, rfl⟩
  | cons t ts ih =>
    have ht := kept_after hr t
    have hrest := ih ht.reporting
    exact ⟨hrest.reporting, hrest.watcher.trans ht.watcher⟩

/-- **Reporting clients begins at most once.** Whatever routers of a new state are configured, in
whatever order, and whatever happens around them: a watcher is there exactly while clients are
reported, and then exactly one observer was started for it. Reporting never ends, and the watcher
keeps its observer and its interval. A configuration that is not supported changes nothing; one
whose watcher does not start leaves the state as it was, and one whose watcher starts begins the
reporting, whatever the hook does then. Who reports already, or is not to report, only has the hook
called, and the state stays as it is. A client is known exactly through the watcher's table. -/
theorem reporting_begins_once {w : World} {name : String} {s : Session}
    (reached : ∃ ts, (⟨w, .ofPlatform name⟩ : Session).afterAll ts = s) :
    (s.state.reporting = true ↔ s.state.watcher.isSome = true) ∧
    s.world.host.started = w.host.started + (if s.state.reporting then 1 else 0) ∧
    (s.state.reporting = true → ∀ ts, Kept s (s.afterAll ts)) ∧
    (∀ settings request, Router.configure ⟨none, settings⟩ request s =
      (.error (.unsupported s.state.platform), s)) ∧
    (∀ p settings (request : Request),
      (request.sendsClientInfo = true → s.state.reporting = true) →
      Router.configure ⟨some p, settings⟩ request s = Router.callConfigure p settings s ∧
      (Router.configure ⟨some p, settings⟩ request s).2.state = s.state) ∧
    (∀ p settings (request : Request) refresh, request.sendsClientInfo = true →
      s.state.reporting = false →
      (request.settings.getD settings).refresh.toFloat = .ok refresh →
      (∀ fault f, (Feed.fresh s.world refresh s.state.table).start = (.error fault, f) →
        (∃ why, (Router.configure ⟨some p, settings⟩ request s).1 = .error (.watchStart why)) ∧
        (Router.configure ⟨some p, settings⟩ request s).2.state = s.state) ∧
      ((Feed.fresh s.world refresh s.state.table).start.1 = .ok () →
        (Router.configure ⟨some p, settings⟩ request s).2.state.reporting = true)) ∧
    ∀ mac, Router.clientInfo s mac = s.state.watcher.bind fun _ => s.state.table.get? mac := by
  obtain ⟨ts, rfl⟩ := reached
  have honce := (once_start w name).afterAll ts
  generalize (⟨w, .ofPlatform name⟩ : Session).afterAll ts = s at honce ⊢
  refine ⟨by rw [honce.watcher], honce.started, fun hr ts => kept_afterAll hr ts, fun _ _ => rfl,
    fun p settings request hplain => ?_, fun p settings request refresh hs hr hi => ⟨?_, ?_⟩,
    fun mac => ?_⟩
  · have hcall : Router.configure ⟨some p, settings⟩ request s =
        Router.callConfigure p settings s := Router.configure_of_plain hplain
    exact ⟨hcall, by rw [hcall, Router.state_callConfigure]⟩
  · intro fault f hf
    obtain ⟨⟨why, rfl⟩, -⟩ := Feed.start_eq_error hf
    rw [Router.configure_of_refused hs hr hi hf]
    exact ⟨⟨why, rfl⟩, rfl⟩
  · intro hstart
    have hc := Router.configured p settings request s
    generalize Router.configure ⟨some p, settings⟩ request s = out at hc ⊢
    cases hc with
    | plain h => exact absurd (h hs) (by simp [hr])
    | unfit _ _ hi' => simp [hi] at hi'
    | refused _ _ hi' hf =>
      obtain rfl : refresh = _ := Except.ok.inj (hi.symm.trans hi')
      simp [hf] at hstart
    | rejected => rfl
    | primed => rw [Router.state_callConfigure]; rfl
  · have hwatcher := honce.watcher
    unfold Router.clientInfo
    cases hw : s.state.watcher <;> simp_all

def stalledWorld : World :=
  .start { Router.twoFilesWorld.host with
    script := ⟨none, some (.reported "OSError" .system none), []⟩ }

/-- A router is configured in vain, then observers start, and it is configured twice more. -/
def retried : Session :=
  (⟨stalledWorld, .ofPlatform ""⟩ : Session).afterAll
    [.configure ⟨some Router.twoFiles, .default⟩ ⟨true, none⟩,
      .happening (.script ⟨none, none, []⟩),
      .configure ⟨some Router.twoFiles, .default⟩ ⟨true, none⟩,
      .configure ⟨some Router.twoFiles, .default⟩ ⟨true, none⟩]

theorem reporting_begins_once_retried :
    retried.state.watcher.isSome = true ∧ retried.world.host.started = 1 := by
  obtain ⟨hwatcher, hstarted, -⟩ := reporting_begins_once ⟨_, (rfl : _ = retried)⟩
  have hr : retried.state.reporting = true := by decide +kernel
  refine ⟨hwatcher.1 hr, ?_⟩
  rw [hstarted, hr]
  decide

end Session

end RouterAgent
