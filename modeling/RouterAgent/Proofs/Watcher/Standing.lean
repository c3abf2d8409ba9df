import RouterAgent.Proofs.Watcher.Subscription

/-!
What stands while a watcher is neither started nor stopped.

The worker goes on, subscriptions and directories stay, a known file stays known until another one
of its path comes, and a file keeps its content until it is written or deleted.
-/

namespace RouterAgent

open RouterAgent.Lease RouterAgent.Client

def Move.call? : Move → Option WatcherCall
  | .outside (.watcher c) => some c
  | _ => none

lemma Move.call?_eq_some {m : Move} {c : WatcherCall} :
    m.call? = some c ↔ m = .outside (.watcher c) := by
  cases m with
  | work => simp [call?]
  | outside s => cases s <;> simp [call?]

/-- The move neither starts nor stops the watcher. -/
def Move.Steady (m : Move) : Prop := m.call? ≠ some .start ∧ m.call? ≠ some .stop

/-- The move brings in no other file of the path of this one. -/
def Move.Spares (file : WatchedFile) (m : Move) : Prop :=
  ∀ other, m.call? = some (.load other) ∨ m.call? = some (.add other) →
    other.path = file.path → other = file

/-- The move writes or deletes the file that a path leads to. -/
def Move.Alters (path : String) : Move → Prop
  | .outside (.happening (.write other _)) | .outside (.happening (.delete other)) =>
    Location.ofText other = Location.ofText path
  | _ => False

/-! ### The host -/

namespace Host

lemma observers_after (h : Host) (hap : Happening) : (h.after hap).observers = h.observers := by
  cases hap <;> rfl

lemma isDir_after {h : Host} {path : String} (hd : h.isDir path = true) (hap : Happening) :
    (h.after hap).isDir path = true := by
  simp only [isDir, hasDir, Bool.and_eq_true, Bool.or_eq_true, List.contains_iff_mem] at hd ⊢
  refine ⟨hd.1, hd.2.imp_right fun hmem => ?_⟩
  cases hap with
  | write | makeDir => exact List.mem_append_left _ hmem
  | _ => exact hmem

lemma file?_after {h : Host} {path : String} {hap : Happening}
    (ha : ¬ Move.Alters path (.outside (.happening hap))) :
    (h.after hap).file? path = h.file? path := by
  unfold file?
  split
  · rfl
  · cases hap with
    | write other content =>
      have hne : Location.ofText path ≠ Location.ofText other := fun heq => ha heq.symm
      exact (OrderedMap.get?_insert ..).trans (if_neg hne)
    | delete other =>
      have hne : Location.ofText path ≠ Location.ofText other := fun heq => ha heq.symm
      exact (OrderedMap.get?_erase ..).trans (if_neg hne)
    | _ => rfl

end Host

/-! ### One move -/

namespace Feed

/-- What goes on from one feed to another: the worker and the observer, and all directories. -/
structure Onward (f g : Feed) : Prop where
  running : g.watcher.running = f.watcher.running
  dirs : f.watcher.dirs ⊆ g.watcher.dirs
  isDir : ∀ path, f.world.host.isDir path = true → g.world.host.isDir path = true
  attached : ∀ before, f.Attached before → g.Attached before

lemma Onward.refl (f : Feed) : f.Onward f := ⟨rfl, fun _ h => h, fun _ h => h, fun _ h => h⟩

lemma Onward.trans {f g h : Feed} (hf : f.Onward g) (hg : g.Onward h) : f.Onward h :=
  ⟨hg.running.trans hf.running, fun _ hd => hg.dirs (hf.dirs hd),
    fun path hd => hg.isDir path (hf.isDir path hd),
    fun before hb => hg.attached before (hf.attached before hb)⟩

/-- The watcher is the same as far as callers can tell: only queue, phase and plan may differ. -/
structure Alike (f g : Feed) : Prop where
  files : g.watcher.files = f.watcher.files
  dirs : g.watcher.dirs = f.watcher.dirs
  observer : g.watcher.observer = f.watcher.observer
  running : g.watcher.running = f.watcher.running

lemma Alike.symm {f g : Feed} (h : f.Alike g) : g.Alike f :=
  ⟨h.files.symm, h.dirs.symm, h.observer.symm, h.running.symm⟩

lemma Alike.trans {f g h : Feed} (hf : f.Alike g) (hg : g.Alike h) : f.Alike h :=
  ⟨hg.files.trans hf.files, hg.dirs.trans hf.dirs, hg.observer.trans hf.observer,
    hg.running.trans hf.running⟩

lemma Alike.onward {f g : Feed} (h : f.Alike g)
    (hd : ∀ path, f.world.host.isDir path = true → g.world.host.isDir path = true)
    (ho : g.world.host.observers = f.world.host.observers) : f.Onward g :=
  ⟨h.running, fun _ hmem => h.dirs ▸ hmem, hd,
    fun _ hb => hb.of_eq h.running h.observer h.dirs ho⟩

lemma alike_reparse (f : Feed) (path : String) : f.Alike (f.reparse path) := by
  obtain ⟨phase, h⟩ := f.watcher_reparse path
  exact ⟨by rw [h], by rw [h], by rw [h], by rw [h]⟩

lemma files_drain (f : Feed) : f.drain.watcher.files = f.watcher.files := by
  cases hr : f.watcher.running with
  | false => rw [drain_of_stopped hr]
  | true =>
    rw [drain_of_running hr]
    exact f.files_reparseAll f.watcher.queue

lemma files_stop (f : Feed) : f.stop.watcher.files = f.watcher.files := by
  unfold stop
  split <;> rfl

lemma alike_enqueue (f : Feed) (path : String) : f.Alike (f.enqueue path) := by
  unfold enqueue Watcher.notify
  split <;> exact ⟨rfl, rfl, rfl, rfl⟩

lemma alike_happening (f : Feed) (hap : Happening) : f.Alike (f.ask (.happening hap)) := by
  cases hap with
  | change c =>
    simp only [ask]
    split
    · exact f.alike_enqueue c.target
    · exact ⟨rfl, rfl, rfl, rfl⟩
  | _ => exact ⟨rfl, rfl, rfl, rfl⟩

lemma host_happening (f : Feed) (hap : Happening) :
    (f.ask (.happening hap)).world.host = f.world.host.after hap := by
  cases hap with
  | change c =>
    simp only [ask]
    split <;> rfl
  | _ => rfl

lemma onward_add (f : Feed) (file : WatchedFile) : f.Onward (f.add file).2 := by
  obtain ⟨-, -, hrunning, -⟩ := f.add_spec file
  obtain ⟨observers, hhost⟩ := f.host_add file
  refine ⟨hrunning, ?_, fun path hd => by rw [hhost]; exact hd, fun _ hb => hb.add file⟩
  have h := f.added file
  generalize f.add file = out at h ⊢
  cases h with
  | subscribed hn hd hq hl => exact List.subset_append_left _ _
  | _ => exact fun _ hmem => hmem

lemma onward_load (f : Feed) (file : WatchedFile) : f.Onward (f.load file).2 := by
  obtain ⟨-, hw, hhost, -⟩ := f.load_spec file
  exact ⟨by rw [hw]; rfl, by rw [hw]; exact fun _ hmem => hmem,
    fun path hd => by rw [hhost]; exact hd, fun _ hb => hb.load file⟩

end Feed

namespace Paced

lemma alike_work (p : Paced) :
    p.feed.Alike p.work.feed ∧ p.work.feed.world.host = p.feed.world.host := by
  obtain ⟨f, agenda⟩ := p
  have hone (g : Feed) (path : String) (hg : f.Alike g) (hh : g.world.host = f.world.host) :
      f.Alike (g.reparse path) ∧ (g.reparse path).world.host = f.world.host :=
    ⟨hg.trans (g.alike_reparse path), (g.host_reparse path).trans hh⟩
  have hself : f.Alike f := ⟨rfl, rfl, rfl, rfl⟩
  unfold work
  rcases agenda with _ | ⟨path, _ | ⟨next, rest⟩⟩
  · simp only
    split
    · split
      · next path rest _ => exact hone (f.withQueue rest) path ⟨rfl, rfl, rfl, rfl⟩ rfl
      · split
        · split <;> exact ⟨⟨rfl, rfl, rfl, rfl⟩, rfl⟩
        · exact ⟨hself, rfl⟩
    · exact ⟨hself, rfl⟩
  · obtain ⟨h, hh⟩ := hone f path hself rfl
    exact ⟨⟨h.files, h.dirs, h.observer, h.running⟩, hh⟩
  · exact hone f path hself rfl

lemma onward_move (p : Paced) {m : Move} (hm : m.Steady) : p.feed.Onward (p.move m).feed := by
  cases m with
  | work =>
    obtain ⟨h, hhost⟩ := p.alike_work
    exact h.onward (fun path hd => hhost ▸ hd) (by rw [hhost])
  | outside s =>
    cases s with
    | happening hap =>
      have hhost := p.feed.host_happening hap
      refine (p.feed.alike_happening hap).onward (fun path hd => ?_) ?_
      · exact hhost ▸ Host.isDir_after hd hap
      · rw [hhost, Host.observers_after]
    | observers | table _ => exact .refl _
    | watcher c =>
      cases c with
      | start => exact absurd rfl hm.1
      | stop => exact absurd rfl hm.2
      | notify path => exact (p.feed.alike_enqueue path).onward (fun _ hd => hd) rfl
      | watchList => exact .refl _
      | load file => exact p.feed.onward_load file
      | add file => exact p.feed.onward_add file

lemma onward_run (p : Paced) {ms : List Move} (hms : ∀ m ∈ ms, m.Steady) :
    p.feed.Onward (p.run ms).feed := by
  induction ms generalizing p with
  | nil => exact .refl _
  | cons m ms ih =>
    exact (p.onward_move (hms m (by simp))).trans (ih (p.move m) fun n hn => hms n (by simp [hn]))

/-! ### One file -/

lemma files_move (p : Paced) (m : Move) :
    (p.move m).feed.watcher.files = p.feed.watcher.files ∨
      ∃ file, (m.call? = some (.load file) ∨ m.call? = some (.add file)) ∧
        (p.move m).feed.watcher.files = p.feed.watcher.files.insert file.path file := by
  cases m with
  | work => exact .inl p.alike_work.1.files
  | outside s =>
    cases s with
    | happening hap => exact .inl (p.feed.alike_happening hap).files
    | observers | table _ => exact .inl rfl
    | watcher c =>
      cases c with
      | start =>
        have h := p.feed.launched
        left
        change p.feed.launch.2.watcher.files = p.feed.watcher.files
        generalize p.feed.launch = out at h ⊢
        cases h <;> rfl
      | stop =>
        left
        change (p.feed.reparseAll p.agenda).drain.stop.watcher.files = p.feed.watcher.files
        rw [Feed.files_stop, Feed.files_drain, Feed.files_reparseAll]
      | notify path => exact .inl (p.feed.alike_enqueue path).files
      | watchList => exact .inl rfl
      | load file =>
        have hw : (p.feed.load file).2.watcher = _ := (p.feed.load_spec file).2.1
        exact .inr ⟨file, .inl rfl, congrArg Watcher.files hw⟩
      | add file =>
        have hfiles : (p.feed.add file).2.watcher.files = _ := (p.feed.add_spec file).2.2.2
        split at hfiles
        · exact .inr ⟨file, .inr rfl, hfiles⟩
        · exact .inl hfiles

lemma known_move {p : Paced} {file : WatchedFile} {m : Move} (hs : m.Spares file)
    (hk : p.feed.watcher.files.get? file.path = some file) :
    (p.move m).feed.watcher.files.get? file.path = some file := by
  rcases p.files_move m with h | ⟨other, hcall, h⟩
  · rw [h, hk]
  · rw [h, OrderedMap.get?_insert]
    split
    · next hpath => rw [hs other hcall hpath.symm]
    · exact hk

lemma known_run {p : Paced} {file : WatchedFile} {ms : List Move}
    (hs : ∀ m ∈ ms, m.Spares file) (hk : p.feed.watcher.files.get? file.path = some file) :
    (p.run ms).feed.watcher.files.get? file.path = some file := by
  induction ms generalizing p with
  | nil => exact hk
  | cons m ms ih => exact ih (fun n hn => hs n (by simp [hn])) (known_move (hs m (by simp)) hk)

lemma file?_move {p : Paced} {path : String} {m : Move} (hm : m.Steady) (ha : ¬ m.Alters path) :
    (p.move m).feed.world.host.file? path = p.feed.world.host.file? path := by
  cases m with
  | work => exact congrArg (Host.file? · path) p.alike_work.2
  | outside s =>
    cases s with
    | happening hap =>
      exact (congrArg (Host.file? · path) (p.feed.host_happening hap)).trans (Host.file?_after ha)
    | observers | table _ => rfl
    | watcher c =>
      cases c with
      | start => exact absurd rfl hm.1
      | stop => exact absurd rfl hm.2
      | notify _ | watchList => rfl
      | load file => exact congrArg (Host.file? · path) (p.feed.load_spec file).2.2.1
      | add file =>
        obtain ⟨observers, hhost⟩ := p.feed.host_add file
        exact (congrArg (Host.file? · path) hhost).trans rfl

lemma file?_run {p : Paced} {path : String} {ms : List Move} (hms : ∀ m ∈ ms, m.Steady)
    (ha : ∀ m ∈ ms, ¬ m.Alters path) :
    (p.run ms).feed.world.host.file? path = p.feed.world.host.file? path := by
  induction ms generalizing p with
  | nil => rfl
  | cons m ms ih =>
    have hmove := file?_move (p := p) (hms m (by simp)) (ha m (by simp))
    have hrest := ih (p := p.move m) (fun n hn => hms n (by simp [hn]))
      fun n hn => ha n (by simp [hn])
    exact hrest.trans hmove

end Paced

end RouterAgent
