import RouterAgent.Proofs.Watcher.Sound

/-!
Directories that a watcher is subscribed to.

Adding a file comes to one of five ends, and only one of them is a fault. A start makes a new
observer, which has no subscriptions yet, but the directories that the watcher counts stay counted.
So the running observer is subscribed to the directories that came after the last start and to no
others.
-/

namespace RouterAgent

open RouterAgent.Lease RouterAgent.Client

/-! ### What adding a file comes to -/

def Action.callsHook : Action → Bool
  | .hooked _ _ => true
  | _ => false

def World.hooked (w : World) : List Action := w.trace.filter Action.callsHook

/-- Since then the host was not touched, and no reader and no hook was called. -/
structure World.Quiet (w v : World) : Prop where
  host : v.host = w.host
  calls : v.calls = w.calls
  hooked : v.hooked = w.hooked

/-- The fault that subscribing to the directory of a file meets, if adding the file does not take it
for a failure of the operating system. -/
def Host.rejection? (h : Host) (file : WatchedFile) : Option Fault :=
  if h.isDir (Feed.directoryOf file.path) then
    (h.script.subscribing.lookup (Feed.directoryOf file.path)).filter (·.origin ≠ .system)
  else none

namespace Feed

/-- What adding a file comes to: there is no observer, its directory is counted already, it cannot
be subscribed to, subscribing raises a fault, or it is subscribed to now. -/
inductive Added (f : Feed) (file : WatchedFile) : Except Fault Bool × Feed → Prop
  | unobserved {w : World} (hn : f.watcher.observer = none) (hq : f.world.Quiet w) :
    Added f file (.ok false, { f with world := w })
  | counted {n : Nat} (hn : f.watcher.observer = some n)
      (hd : directoryOf file.path ∈ f.watcher.dirs) :
    Added f file (.ok true, { f with watcher := f.watcher.know file })
  | failed {n : Nat} {w : World} (hn : f.watcher.observer = some n)
      (hd : directoryOf file.path ∉ f.watcher.dirs) (hq : f.world.Quiet w)
      (hr : f.world.host.rejection? file = none) :
    Added f file (.ok false, { f with world := w, watcher := f.watcher.know file })
  | rejected {n : Nat} {w : World} {fault : Fault} (hn : f.watcher.observer = some n)
      (hd : directoryOf file.path ∉ f.watcher.dirs) (hq : f.world.Quiet w)
      (hr : f.world.host.rejection? file = some fault) :
    Added f file (.error fault, { f with world := w, watcher := f.watcher.know file })
  | subscribed {n : Nat} {w : World} (hn : f.watcher.observer = some n)
      (hd : directoryOf file.path ∉ f.watcher.dirs) (hq : f.world.Quiet w)
      (hl : f.world.host.script.subscribing.lookup (directoryOf file.path) = none) :
    Added f file (.ok true,
      { f with
        world := { w with host := (f.world.host.subscribe n (directoryOf file.path)).2 }
        watcher :=
          { f.watcher.know file with dirs := f.watcher.dirs ++ [directoryOf file.path] } })

lemma added (f : Feed) (file : WatchedFile) : Added f file (f.add file) := by
  have hdid : f.world.Quiet (f.world.did (.subscribed (directoryOf file.path))) :=
    ⟨rfl, rfl, by simp [World.hooked, World.did, Action.callsHook]⟩
  unfold add
  cases hn : f.watcher.observer with
  | none => exact .unobserved (w := f.world.note .warning .watcher _) hn ⟨rfl, rfl, rfl⟩
  | some n =>
    by_cases hd : directoryOf file.path ∈ f.watcher.dirs
    · have hc : f.watcher.dirs.contains (directoryOf file.path) = true := by simpa using hd
      simp only [Watcher.know, hc, if_true]
      exact .counted hn hd
    · have hc : f.watcher.dirs.contains (directoryOf file.path) = false := by simpa using hd
      simp only [Watcher.know, hc, Bool.false_eq_true, if_false]
      cases hdir : f.world.host.isDir (directoryOf file.path) with
      | false =>
        have hr : f.world.host.rejection? file = none := by simp [Host.rejection?, hdir]
        exact .failed (w := f.world.note .debug .watcher _) hn hd ⟨rfl, rfl, rfl⟩ hr
      | true =>
        cases hl : f.world.host.script.subscribing.lookup (directoryOf file.path) with
        | none =>
          have h := Added.subscribed hn hd hdid hl
          simp only [Host.subscribe, hl] at h ⊢
          exact h
        | some fault =>
          simp only [Host.subscribe, hl]
          by_cases hs : fault.origin = .system
          · have hr : f.world.host.rejection? file = none := by
              simp [Host.rejection?, hdir, hl, hs, Option.filter]
            simp only [hs, if_true]
            exact .failed (w := World.note _ .warning .watcher _) hn hd
              ⟨hdid.host, hdid.calls, hdid.hooked⟩ hr
          · have hr : f.world.host.rejection? file = some fault := by
              simp [Host.rejection?, hdir, hl, hs, Option.filter]
            simp only [hs, if_false]
            exact .rejected hn hd hdid hr

lemma add_fst_eq_error_iff {f : Feed} {file : WatchedFile} {fault : Fault} :
    (f.add file).1 = .error fault ↔
      f.watcher.observer.isSome = true ∧ directoryOf file.path ∉ f.watcher.dirs ∧
        f.world.host.rejection? file = some fault := by
  have h := f.added file
  generalize f.add file = out at h ⊢
  cases h with
  | unobserved hn hq => simp [hn]
  | counted hn hd => simp [hd]
  | failed hn hd hq hr => simp [hr]
  | rejected hn hd hq hr => simp [hn, hd, hr]
  | subscribed hn hd hq hl => simp [Host.rejection?, hl]

lemma host_add (f : Feed) (file : WatchedFile) :
    ∃ observers, (f.add file).2.world.host = { f.world.host with observers } := by
  have h := f.added file
  generalize f.add file = out at h ⊢
  cases h with
  | counted hn hd => exact ⟨_, rfl⟩
  | subscribed hn hd hq hl => exact ⟨_, by simp only [Host.subscribe, hl]; rfl⟩
  | unobserved hn hq | failed hn hd hq hr | rejected hn hd hq hr =>
    exact ⟨f.world.host.observers, hq.host⟩

lemma calls_add (f : Feed) (file : WatchedFile) :
    (f.add file).2.world.calls = f.world.calls := by
  have h := f.added file
  generalize f.add file = out at h ⊢
  cases h with
  | counted hn hd => rfl
  | unobserved hn hq | failed hn hd hq hr | rejected hn hd hq hr | subscribed hn hd hq hl =>
    exact hq.calls

lemma mem_dirs_of_add {f : Feed} {file : WatchedFile} (hok : (f.add file).1 = .ok true) :
    directoryOf file.path ∈ (f.add file).2.watcher.dirs := by
  have h := f.added file
  generalize f.add file = out at h hok ⊢
  cases h with
  | unobserved | failed | rejected => simp at hok
  | counted hn hd => exact hd
  | subscribed hn hd hq hl => simp

/-! ### A subscribed observer -/

def Hears (f : Feed) (dir : String) : Prop :=
  ∃ n o, f.watcher.observer = some n ∧ f.world.host.observers[n]? = some o ∧
    o.started = true ∧ o.stopped = false ∧ dir ∈ o.dirs

/-- The worker runs, and so does the watcher's observer, which is the newest one. It is subscribed
to the directories that the watcher counts, without those that were counted before. -/
structure Attached (before : List String) (f : Feed) : Prop where
  running : f.watcher.running = true
  counted : before ⊆ f.watcher.dirs
  observer : ∃ n o, f.watcher.observer = some n ∧ n + 1 = f.world.host.observers.length ∧
    f.world.host.observers[n]? = some o ∧ o.started = true ∧ o.stopped = false ∧
    ∀ dir, dir ∈ o.dirs ↔ dir ∈ f.watcher.dirs ∧ dir ∉ before

variable {before : List String} {f g : Feed}

lemma Attached.hears_iff (h : f.Attached before) {dir : String} :
    f.Hears dir ↔ dir ∈ f.watcher.dirs ∧ dir ∉ before := by
  obtain ⟨n, o, hn, -, ho, hs, ht, hdirs⟩ := h.observer
  rw [← hdirs]
  constructor
  · rintro ⟨m, p, hm, hp, -, -, hdir⟩
    obtain rfl : n = m := Option.some.inj (hn.symm.trans hm)
    obtain rfl : o = p := Option.some.inj (ho.symm.trans hp)
    exact hdir
  · exact fun hdir => ⟨n, o, hn, ho, hs, ht, hdir⟩

lemma Attached.of_eq (h : f.Attached before) (hr : g.watcher.running = f.watcher.running)
    (hn : g.watcher.observer = f.watcher.observer) (hd : g.watcher.dirs = f.watcher.dirs)
    (ho : g.world.host.observers = f.world.host.observers) : g.Attached before := by
  refine ⟨hr.trans h.running, hd ▸ h.counted, ?_⟩
  rw [hn, hd, ho]
  exact h.observer

lemma Attached.load (h : f.Attached before) (file : WatchedFile) :
    (f.load file).2.Attached before := by
  obtain ⟨-, hw, hhost, -⟩ := f.load_spec file
  refine h.of_eq ?_ ?_ ?_ ?_ <;> simp [hw, hhost, Watcher.know]

lemma Attached.add (h : f.Attached before) (file : WatchedFile) :
    (f.add file).2.Attached before := by
  have hadded := f.added file
  generalize f.add file = out at hadded ⊢
  cases hadded with
  | unobserved hn hq => exact h.of_eq rfl rfl rfl (by rw [hq.host])
  | counted hn hd => exact h.of_eq rfl rfl rfl rfl
  | failed hn hd hq hr | rejected hn hd hq hr => exact h.of_eq rfl rfl rfl (by rw [hq.host])
  | subscribed hn hd hq hl =>
    obtain ⟨n, o, hn', hlast, ho, hs, ht, hdirs⟩ := h.observer
    obtain rfl : n = _ := Option.some.inj (hn'.symm.trans hn)
    -- a directory that is not counted is neither one of the old ones nor subscribed to
    have hold : directoryOf file.path ∉ before := fun hmem => hd (h.counted hmem)
    have hnew : directoryOf file.path ∉ o.dirs := fun hmem => hd ((hdirs _).1 hmem).1
    have hsub : (f.world.host.subscribe n (directoryOf file.path)).2.observers[n]? =
        some { o with dirs := o.dirs ++ [directoryOf file.path] } := by
      simp [Host.subscribe, hl, ho, hnew]
    have hlength : (f.world.host.subscribe n (directoryOf file.path)).2.observers.length =
        f.world.host.observers.length := by
      simp [Host.subscribe, hl]
    refine ⟨h.running, fun dir hdir => List.mem_append_left _ (h.counted hdir), n, _, hn,
      hlast.trans hlength.symm, hsub, hs, ht, fun dir => ?_⟩
    simp only [List.mem_append, List.mem_singleton, hdirs]
    constructor
    · rintro (⟨hdir, hb⟩ | rfl)
      · exact ⟨.inl hdir, hb⟩
      · exact ⟨.inr rfl, hold⟩
    · rintro ⟨hdir | rfl, hb⟩
      · exact .inl ⟨hdir, hb⟩
      · exact .inr rfl

end Feed

lemma Host.startObserver_eq_ok {h g : Host} {n : Nat} (hs : h.startObserver = (.ok n, g)) :
    n = h.observers.length ∧ g = { h with observers := h.observers ++ [⟨true, false, []⟩] } := by
  unfold startObserver at hs
  split at hs
  · simp at hs
  · split at hs
    · simp at hs
    · simp only [Prod.mk.injEq, Except.ok.injEq] at hs
      exact ⟨hs.1.symm, hs.2.symm⟩

namespace Feed

/-- What starting comes to: the worker runs already, the observer does not start, or both start. -/
inductive Launched (f : Feed) : Except Fault Unit × Feed → Prop
  | runs (hr : f.watcher.running = true) : Launched f (.ok (), f)
  | refused {fault : Fault} {host : Host} (hr : f.watcher.running = false)
      (hs : f.world.host.startObserver = (.error fault, host)) :
    Launched f (.error (.watchStart fault.message), { f with world := { f.world with host } })
  | started {n : Nat} {host : Host} (hr : f.watcher.running = false)
      (hs : f.world.host.startObserver = (.ok n, host)) :
    Launched f (.ok (), Feed.plan
      { f with
        world := { f.world with host }
        watcher := { f.watcher with observer := some n, running := true, phase := .watching } })

lemma launched (f : Feed) : Launched f f.launch := by
  unfold launch
  cases hr : f.watcher.running with
  | true => exact .runs hr
  | false =>
    rcases hs : f.world.host.startObserver with ⟨fault | n, host⟩
    · exact .refused hr hs
    · exact .started hr hs

lemma dirs_launch (f : Feed) : f.launch.2.watcher.dirs = f.watcher.dirs := by
  have h := f.launched
  generalize f.launch = out at h ⊢
  cases h <;> rfl

lemma attached_launch {f : Feed} (hr : f.watcher.running = false) (hok : f.launch.1 = .ok ()) :
    f.launch.2.Attached f.watcher.dirs := by
  have h := f.launched
  generalize f.launch = out at h hok ⊢
  cases h with
  | runs hr' => simp [hr] at hr'
  | refused => simp at hok
  | started hr' hs =>
    obtain ⟨rfl, rfl⟩ := Host.startObserver_eq_ok hs
    exact ⟨rfl, List.Subset.refl _, _, ⟨true, false, []⟩, rfl, by simp [plan], by simp [plan], rfl,
      rfl, by simp [plan]⟩

end Feed

end RouterAgent
