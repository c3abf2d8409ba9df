import RouterAgent.Proofs.Path.Parent
import RouterAgent.Proofs.Watcher.Unaltered

/-!
A watcher that is stopped and started again.

Since its last start a running watcher is not stopped, so its observer is subscribed to what was
added since then. A file of a directory that was counted before is added with success too, but no
change of it is delivered.
-/

namespace RouterAgent

open RouterAgent.Number RouterAgent.Lease

abbrev Move.start : Move := .outside (.watcher .start)

abbrev Move.stop : Move := .outside (.watcher .stop)

lemma Move.steady_or (m : Move) : m.Steady ∨ m = .start ∨ m = .stop := by
  rw [← Move.call?_eq_some, ← Move.call?_eq_some]
  by_contra h
  rw [not_or, not_or] at h
  exact h.1 h.2

namespace Host

lemma delivers_in_place {h : Host} {c : Change} (hc : c.destination = "") :
    h.delivers c = h.observes (directoryPart c.path) := by
  simp [delivers, hc]

lemma delivers_of_target {h : Host} {c : Change}
    (ho : h.observes (directoryPart c.target) = true) : h.delivers c = true := by
  unfold Change.target at ho
  split at ho
  · simp [delivers, ho]
  · next hd => simp [delivers, hd, ho]

end Host

/-! ### The running observer -/

namespace Feed

variable {before : List String} {f g : Feed}

lemma Attached.observes_iff (h : f.Attached before) {dir : String} :
    f.world.host.observes dir = true ↔ f.Hears dir := by
  rw [h.hears_iff]
  obtain ⟨n, o, -, hlast, ho, -, -, hdirs⟩ := h.observer
  have hnewest : f.world.host.observers.getLast? = some o := by
    rw [List.getLast?_eq_getElem?, ← hlast, Nat.add_sub_cancel, ho]
  rw [← hdirs, Host.observes, hnewest, Option.any_some, List.contains_iff_mem]

structure Unstarted (f : Feed) : Prop where
  running : f.watcher.running = false
  observer : f.watcher.observer = none
  dirs : f.watcher.dirs = []

lemma Unstarted.of_eq (h : f.Unstarted) (hr : g.watcher.running = f.watcher.running)
    (hn : g.watcher.observer = f.watcher.observer) (hd : g.watcher.dirs = f.watcher.dirs) :
    g.Unstarted :=
  ⟨hr.trans h.running, hn.trans h.observer, hd.trans h.dirs⟩

lemma Unstarted.load (h : f.Unstarted) (file : WatchedFile) : (f.load file).2.Unstarted := by
  obtain ⟨-, hw, -, -⟩ := f.load_spec file
  refine h.of_eq ?_ ?_ ?_ <;> simp [hw, Watcher.know]

lemma Unstarted.add (h : f.Unstarted) (file : WatchedFile) :
    (f.add file).1 = .ok false ∧ (f.add file).2.Unstarted := by
  have hadded := f.added file
  generalize f.add file = out at hadded ⊢
  cases hadded with
  | unobserved hn hq => exact ⟨rfl, h.of_eq rfl rfl rfl⟩
  | counted hn | failed hn | rejected hn | subscribed hn => simp [h.observer] at hn

lemma Unstarted.launch (h : f.Unstarted) :
    f.launch.2.Unstarted ∨ f.launch.2.Attached [] := by
  have hlaunched := f.launched
  have hattached := attached_launch h.running
  rw [h.dirs] at hattached
  generalize f.launch = out at hlaunched hattached ⊢
  cases hlaunched with
  | runs hr => simp [h.running] at hr
  | refused hr hs => exact .inl (h.of_eq rfl rfl rfl)
  | started hr hs => exact .inr (hattached rfl)

lemma running_stop (f : Feed) : f.stop.watcher.running = false := by
  unfold stop
  split
  · rfl
  · next h => simpa using h

end Feed

namespace Paced

/-! ### Until the watcher is stopped -/

lemma attached_move {p : Paced} {before : List String} {m : Move} (hm : m ≠ .stop)
    (h : p.feed.Attached before) : (p.move m).feed.Attached before := by
  rcases m.steady_or with hs | rfl | rfl
  · exact (p.onward_move hs).attached before h
  · -- a worker that runs is not started again
    have hsame : p.feed.launch.2 = p.feed := by rw [Feed.launch, if_pos h.running]
    change p.feed.launch.2.Attached before
    rwa [hsame]
  · exact absurd rfl hm

lemma attached_run {p : Paced} {before : List String} {ms : List Move} (hms : .stop ∉ ms)
    (h : p.feed.Attached before) : (p.run ms).feed.Attached before := by
  induction ms generalizing p with
  | nil => exact h
  | cons m ms ih =>
    rw [List.mem_cons, not_or] at hms
    exact ih hms.2 (attached_move (Ne.symm hms.1) h)

lemma dirs_run {p : Paced} {ms : List Move} (hms : .stop ∉ ms) :
    p.feed.watcher.dirs ⊆ (p.run ms).feed.watcher.dirs := by
  induction ms generalizing p with
  | nil => exact List.Subset.refl _
  | cons m ms ih =>
    rw [List.mem_cons, not_or] at hms
    refine List.Subset.trans ?_ (ih hms.2)
    rcases m.steady_or with hm | rfl | rfl
    · exact (p.onward_move hm).dirs
    · exact (p.feed.dirs_launch).symm ▸ List.Subset.refl _
    · exact absurd rfl hms.1

lemma unstarted_move {p : Paced} {m : Move} (hm : m ≠ .stop) (h : p.feed.Unstarted) :
    (p.move m).feed.Unstarted ∨ (p.move m).feed.Attached [] := by
  cases m with
  | work =>
    obtain ⟨halike, -⟩ := p.alike_work
    exact .inl (h.of_eq halike.running halike.observer halike.dirs)
  | outside s =>
    cases s with
    | happening hap =>
      have halike := p.feed.alike_happening hap
      exact .inl (h.of_eq halike.running halike.observer halike.dirs)
    | observers | table _ => exact .inl h
    | watcher c =>
      cases c with
      | start => exact h.launch
      | stop => exact absurd rfl hm
      | notify path =>
        have halike := p.feed.alike_enqueue path
        exact .inl (h.of_eq halike.running halike.observer halike.dirs)
      | watchList => exact .inl h
      | load file => exact .inl (h.load file)
      | add file => exact .inl (h.add file).2

lemma unstarted_or_attached {p : Paced} {ms : List Move} (hms : .stop ∉ ms)
    (h : p.feed.Unstarted) : (p.run ms).feed.Unstarted ∨ (p.run ms).feed.Attached [] := by
  induction ms generalizing p with
  | nil => exact .inl h
  | cons m ms ih =>
    rw [List.mem_cons, not_or] at hms
    rcases unstarted_move (Ne.symm hms.1) h with hmove | hmove
    · exact ih hms.2 hmove
    · exact .inr (attached_run (p := p.move m) hms.2 hmove)

lemma unstarted_new (w : World) (refresh : Binary64) : (new w refresh).feed.Unstarted :=
  ⟨rfl, rfl, rfl⟩

/-! ### Since the last start -/

/-- The worker runs since a start: what was done before this start and after it. -/
structure RunsSince (p : Paced) (ms as bs : List Move) : Prop where
  split : ms = as ++ .start :: bs
  halted : (p.run as).feed.watcher.running = false
  launched : (p.run as).feed.launch.1 = .ok ()
  unstopped : .stop ∉ bs

lemma running_move {p : Paced} {m : Move} (hr : (p.move m).feed.watcher.running = true) :
    m ≠ .stop ∧ (p.feed.watcher.running = true ∨
      p.feed.watcher.running = false ∧ m = .start ∧ p.feed.launch.1 = .ok ()) := by
  rcases m.steady_or with hm | rfl | rfl
  · refine ⟨fun hstop => hm.2 (Move.call?_eq_some.2 hstop), .inl ?_⟩
    rw [← (p.onward_move hm).running, hr]
  · refine ⟨by simp, ?_⟩
    have hlaunched := p.feed.launched
    change p.feed.launch.2.watcher.running = true at hr
    generalize p.feed.launch = out at hlaunched hr ⊢
    cases hlaunched with
    | runs hr' => exact .inl hr'
    | refused hr' hs => exact absurd (hr'.symm.trans hr) Bool.false_ne_true
    | started hr' hs => exact .inr ⟨hr', rfl, rfl⟩
  · exact absurd ((Feed.running_stop _).symm.trans hr) Bool.false_ne_true

lemma exists_runsSince {p : Paced} {ms : List Move} (hp : p.feed.watcher.running = false)
    (hr : (p.run ms).feed.watcher.running = true) : ∃ as bs, p.RunsSince ms as bs := by
  -- the last move is looked at first
  induction ms using List.reverseRecOn with
  | nil => exact absurd (hp.symm.trans hr) Bool.false_ne_true
  | append_singleton ms m ih =>
    rw [run_append] at hr
    obtain ⟨hstop, hran | ⟨hidle, rfl, hok⟩⟩ := running_move hr
    · obtain ⟨as, bs, rfl, hhalted, hlaunched, hunstopped⟩ := ih hran
      exact ⟨as, bs ++ [m], by simp, hhalted, hlaunched, by simp [hunstopped, Ne.symm hstop]⟩
    · exact ⟨ms, [], rfl, hidle, hok, by simp⟩

lemma RunsSince.attached {p : Paced} {ms as bs : List Move} (h : p.RunsSince ms as bs) :
    (p.run ms).feed.Attached (p.run as).feed.watcher.dirs := by
  rw [h.split, run_append]
  have hstart := Feed.attached_launch h.halted h.launched
  exact attached_run (p := (p.run as).move .start) h.unstopped hstart

lemma RunsSince.eq_nil {p : Paced} {ms as bs es ds : List Move} (h : p.RunsSince ms as bs)
    (h' : p.RunsSince ms (as ++ es) ds) : es = [] := by
  rcases es with _ | ⟨e, es⟩
  · rfl
  · have hsplit : as ++ .start :: bs = as ++ e :: (es ++ .start :: ds) := by
      rw [← h.split, h'.split, List.append_assoc, List.cons_append]
    obtain ⟨rfl, rfl⟩ := List.cons.inj (List.append_cancel_left hsplit)
    have hstop : Move.stop ∉ es := fun hmem => h.unstopped (List.mem_append_left _ hmem)
    have hstart := Feed.attached_launch h.halted h.launched
    have hruns := (attached_run (p := (p.run as).move .start) hstop hstart).running
    have hhalted := h'.halted
    rw [run_append] at hhalted
    exact absurd (hhalted.symm.trans hruns) Bool.false_ne_true

lemma RunsSince.unique {p : Paced} {ms as bs cs ds : List Move} (h : p.RunsSince ms as bs)
    (h' : p.RunsSince ms cs ds) : as = cs ∧ bs = ds := by
  rcases List.append_eq_append_iff.1 (h.split.symm.trans h'.split) with
    ⟨es, rfl, hes⟩ | ⟨es, rfl, hes⟩
  · obtain rfl := h.eq_nil h'
    simpa using hes
  · obtain rfl := h'.eq_nil h
    simpa [eq_comm] using hes

/-! ### A file that was added -/

/-- From now on, until the watcher is stopped, its running observer is subscribed to the directory
of a file, and each change that leaves a content at the file is delivered. -/
def Follows (p : Paced) (file : WatchedFile) : Prop :=
  ∀ us, .stop ∉ us → (p.run us).feed.Hears (Feed.directoryOf file.path) ∧
    ∀ c : Change, c.target = Path.absolute file.path →
      (p.run us).feed.world.host.delivers c = true

/-- From now on, until the watcher is stopped, no running observer is subscribed to the directory of
a file, and no change of the file in its place is delivered. -/
def Ignores (p : Paced) (file : WatchedFile) : Prop :=
  ∀ us, .stop ∉ us → ¬ (p.run us).feed.Hears (Feed.directoryOf file.path) ∧
    ∀ c : Change, c.destination = "" → c.path = Path.absolute file.path →
      (p.run us).feed.world.host.delivers c = false

lemma follows_of_attached {p : Paced} {before : List String} {file : WatchedFile}
    (h : p.feed.Attached before) (hd : Feed.directoryOf file.path ∈ p.feed.watcher.dirs)
    (hb : Feed.directoryOf file.path ∉ before) : p.Follows file := by
  intro us hus
  have hrun := attached_run hus h
  have hhears : (p.run us).feed.Hears (Feed.directoryOf file.path) :=
    hrun.hears_iff.2 ⟨dirs_run hus hd, hb⟩
  refine ⟨hhears, fun c hc => Host.delivers_of_target ?_⟩
  rw [hc, Path.directoryPart_absolute]
  exact hrun.observes_iff.2 hhears

lemma ignores_of_attached {p : Paced} {before : List String} {file : WatchedFile}
    (h : p.feed.Attached before) (hb : Feed.directoryOf file.path ∈ before) :
    p.Ignores file := by
  intro us hus
  have hrun := attached_run hus h
  have hdeaf : ¬ (p.run us).feed.Hears (Feed.directoryOf file.path) :=
    fun hhears => (hrun.hears_iff.1 hhears).2 hb
  refine ⟨hdeaf, fun c hplace hc => ?_⟩
  rw [Host.delivers_in_place hplace, hc, Path.directoryPart_absolute, ← Bool.not_eq_true]
  exact fun hobserves => hdeaf (hrun.observes_iff.1 hobserves)

lemma attached_add {p : Paced} {ms : List Move} {before : List String}
    (h : (p.run ms).feed.Attached before) (file : WatchedFile) :
    (p.run (ms ++ [.add file])).feed.Attached before := by
  rw [run_append]
  exact h.add file

lemma counted_of_added {p : Paced} {ms : List Move} {file : WatchedFile}
    (added : ((p.run ms).feed.add file).1 = .ok true) :
    Feed.directoryOf file.path ∈ (p.run (ms ++ [.add file])).feed.watcher.dirs := by
  rw [run_append]
  exact Feed.mem_dirs_of_add added

lemma follows_of_unstopped {p : Paced} {ms : List Move} {file : WatchedFile}
    (hp : p.feed.Unstarted) (hms : .stop ∉ ms)
    (added : ((p.run ms).feed.add file).1 = .ok true) :
    (p.run ms).feed.watcher.running = true ∧ (p.run (ms ++ [.add file])).Follows file := by
  rcases unstarted_or_attached hms hp with h | h
  · simp [(h.add file).1] at added
  · exact ⟨h.running, follows_of_attached (attached_add h file) (counted_of_added added) (by simp)⟩

/-- **A success in adding is a subscription**, unless the directory was counted already when the
watcher was started again. A watcher was started, stopped and used in any order, whatever its
observers did, and then adding a file is a success. If the watcher was never stopped, it runs and
follows the file. If it runs, it does so since a start, and then it follows the file exactly if the
file's directory was not counted before this start. -/
theorem added_file_is_followed {w : World} {refresh : Binary64} {ms : List Move}
    {file : WatchedFile} (added : (((new w refresh).run ms).feed.add file).1 = .ok true) :
    (.stop ∉ ms →
      ((new w refresh).run ms).feed.watcher.running = true ∧
      ((new w refresh).run (ms ++ [.add file])).Follows file) ∧
    (((new w refresh).run ms).feed.watcher.running = true →
      ∃ as bs, (new w refresh).RunsSince ms as bs ∧
        (Feed.directoryOf file.path ∉ ((new w refresh).run as).feed.watcher.dirs →
          ((new w refresh).run (ms ++ [.add file])).Follows file) ∧
        (Feed.directoryOf file.path ∈ ((new w refresh).run as).feed.watcher.dirs →
          ((new w refresh).run (ms ++ [.add file])).Ignores file)) := by
  refine ⟨fun hms => follows_of_unstopped (unstarted_new w refresh) hms added, fun hr => ?_⟩
  have hidle : (new w refresh).feed.watcher.running = false := rfl
  obtain ⟨as, bs, hsince⟩ := exists_runsSince hidle hr
  have hattached := attached_add hsince.attached file
  exact ⟨as, bs, hsince, follows_of_attached hattached (counted_of_added added),
    ignores_of_attached hattached⟩

def hallFile : WatchedFile := ⟨"/hall/a", .dnsmasq, none⟩

def atticFile : WatchedFile := ⟨"/attic/a", .isc, none⟩

def twoDirs : World := .start ((Host.empty.makeDir "/hall").makeDir "/attic")

def restarting : List Move := [.start, .add hallFile, .stop, .start]

theorem added_file_is_followed_restarting :
    ((new twoDirs Binary64.zero).run (restarting ++ [.add atticFile])).Follows atticFile ∧
    ((new twoDirs Binary64.zero).run (restarting ++ [.add hallFile])).Ignores hallFile := by
  have hlast : (new twoDirs Binary64.zero).RunsSince restarting [.start, .add hallFile, .stop] [] :=
    ⟨rfl, by decide +kernel, by decide +kernel, by simp⟩
  have hrunning : ((new twoDirs Binary64.zero).run restarting).feed.watcher.running = true := by
    decide +kernel
  have hattic : (((new twoDirs Binary64.zero).run restarting).feed.add atticFile).1 = .ok true := by
    decide +kernel
  have hhall : (((new twoDirs Binary64.zero).run restarting).feed.add hallFile).1 = .ok true := by
    decide +kernel
  constructor
  · obtain ⟨as, bs, hsince, hfollows, -⟩ := (added_file_is_followed hattic).2 hrunning
    obtain ⟨rfl, -⟩ := hlast.unique hsince
    exact hfollows (by decide +kernel)
  · obtain ⟨as, bs, hsince, -, hignores⟩ := (added_file_is_followed hhall).2 hrunning
    obtain ⟨rfl, -⟩ := hlast.unique hsince
    exact hignores (by decide +kernel)

/-- After `restarting` a file in the counted directory is added with success, but the new observer
is not subscribed to anything; before the second start it is added with success while no observer
runs. -/
theorem added_file_may_be_ignored :
    (¬ ∀ (w : World) (refresh : Binary64) (ms : List Move) (file : WatchedFile),
      (((new w refresh).run ms).feed.add file).1 = .ok true →
      ((new w refresh).run ms).feed.watcher.running = true →
      ((new w refresh).run (ms ++ [.add file])).feed.Hears (Feed.directoryOf file.path)) ∧
    ¬ ∀ (w : World) (refresh : Binary64) (ms : List Move) (file : WatchedFile),
      (((new w refresh).run ms).feed.add file).1 = .ok true →
      ((new w refresh).run ms).feed.watcher.running = true := by
  constructor
  · intro h
    obtain ⟨n, o, -, ho, -, hstopped, hdir⟩ :=
      h twoDirs Binary64.zero restarting hallFile (by decide +kernel) (by decide +kernel)
    have hobservers : ((new twoDirs Binary64.zero).run
        (restarting ++ [.add hallFile])).feed.world.host.observers =
          [⟨true, true, ["/hall"]⟩, ⟨true, false, []⟩] := by decide +kernel
    have hmem := List.mem_of_getElem? ho
    rw [hobservers, List.mem_cons, List.mem_singleton] at hmem
    rcases hmem with rfl | rfl
    · simp at hstopped
    · simp at hdir
  · intro h
    have hruns := h twoDirs Binary64.zero [.start, .add hallFile, .stop] hallFile
      (by decide +kernel)
    exact absurd hruns (by decide +kernel)

end Paced

end RouterAgent
