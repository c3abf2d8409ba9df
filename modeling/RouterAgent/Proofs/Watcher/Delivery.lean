import RouterAgent.Proofs.Watcher.Enlisting
import RouterAgent.Proofs.Watcher.Refinement
import RouterAgent.Proofs.Watcher.Restart

/-!
What becomes of a change of a file that was added.

A file is subscribed to by the directory of its normal absolute path, and observers report it by
that path. The worker looks a reported path up as it is written. So a change is read again exactly
if the file was added under its normal absolute path.

How much a change adds to the readings is told by a comparison of two runs, one with it and one
without: the requests of all other moves are the same.
-/

namespace RouterAgent

open RouterAgent.Number RouterAgent.Lease

abbrev Move.seen (c : Change) : Move := .outside (.happening (.change c))

namespace Feed

/-! ### Feeds side by side -/

/-- Callers cannot tell the watchers apart, and the hosts are the same. -/
structure Beside (f g : Feed) : Prop where
  alike : f.Alike g
  host : g.world.host = f.world.host

lemma Beside.symm {f g : Feed} (h : f.Beside g) : g.Beside f := ⟨h.alike.symm, h.host.symm⟩

lemma Beside.trans {f g h : Feed} (hf : f.Beside g) (hg : g.Beside h) : f.Beside h :=
  ⟨hf.alike.trans hg.alike, hg.host.trans hf.host⟩

lemma beside_enqueue (f : Feed) (path : String) : f.Beside (f.enqueue path) :=
  ⟨f.alike_enqueue path, rfl⟩

lemma Beside.happening {f g : Feed} (h : f.Beside g) (hap : Happening) :
    (f.ask (.happening hap)).Beside (g.ask (.happening hap)) := by
  have hf := f.alike_happening hap
  have hg := g.alike_happening hap
  exact ⟨(hf.symm.trans h.alike).trans hg, by rw [host_happening, host_happening, h.host]⟩

lemma Beside.load {f g : Feed} (h : f.Beside g) (file : WatchedFile) :
    (f.load file).2.Beside (g.load file).2 := by
  obtain ⟨-, hf, hfhost, -⟩ := f.load_spec file
  obtain ⟨-, hg, hghost, -⟩ := g.load_spec file
  obtain ⟨⟨hfiles, hdirs, hobserver, hrunning⟩, hhost⟩ := h
  refine ⟨⟨?_, ?_, ?_, ?_⟩, ?_⟩ <;> simp [Watcher.know, *]

lemma Beside.launch {f g : Feed} (h : f.Beside g) : f.launch.2.Beside g.launch.2 := by
  obtain ⟨⟨hfiles, hdirs, hobserver, hrunning⟩, hhost⟩ := id h
  unfold Feed.launch
  rw [hrunning, hhost]
  split
  · exact h
  · rcases f.world.host.startObserver with ⟨fault | n, host⟩
    · exact ⟨⟨hfiles, hdirs, hobserver, hrunning⟩, rfl⟩
    · exact ⟨⟨hfiles, hdirs, rfl, rfl⟩, rfl⟩

lemma Beside.add {f g : Feed} (h : f.Beside g) (file : WatchedFile) :
    (f.add file).2.Beside (g.add file).2 := by
  obtain ⟨⟨hfiles, hdirs, hobserver, hrunning⟩, hhost⟩ := id h
  unfold Feed.add
  rw [hobserver]
  cases f.watcher.observer with
  | none => exact ⟨⟨hfiles, hdirs, hobserver, hrunning⟩, hhost⟩
  | some n =>
    have hinsert : g.watcher.files.insert file.path file = f.watcher.files.insert file.path file :=
      by rw [hfiles]
    simp only [Watcher.know, hdirs, hhost]
    by_cases hc : f.watcher.dirs.contains (directoryOf file.path) = true
    · simp only [hc, if_true]
      exact ⟨⟨hinsert, rfl, hobserver, hrunning⟩, hhost⟩
    · by_cases hd : f.world.host.isDir (directoryOf file.path) = true
      · rcases hs : f.world.host.subscribe n (directoryOf file.path) with ⟨fault | _, host⟩
        · by_cases ho : fault.origin = .system <;> simp only [hc, hd, ho]
          · exact ⟨⟨hinsert, rfl, hobserver, hrunning⟩, rfl⟩
          · exact ⟨⟨hinsert, rfl, hobserver, hrunning⟩, rfl⟩
        · simp only [hc, hd]
          exact ⟨⟨hinsert, rfl, hobserver, hrunning⟩, rfl⟩
      · simp only [hc, hd]
        exact ⟨⟨hinsert, rfl, hobserver, hrunning⟩, hhost⟩

end Feed

namespace Paced

lemma beside_work (p : Paced) : p.feed.Beside p.work.feed := by
  obtain ⟨halike, hhost⟩ := p.alike_work
  exact ⟨halike, hhost⟩

lemma beside_move {p q : Paced} {m : Move} (hm : m ≠ .stop) (h : p.feed.Beside q.feed) :
    (p.move m).feed.Beside (q.move m).feed := by
  cases m with
  | work => exact (p.beside_work.symm.trans h).trans q.beside_work
  | outside s =>
    cases s with
    | happening hap => exact h.happening hap
    | observers | table _ => exact h
    | watcher c =>
      cases c with
      | start => exact h.launch
      | stop => exact absurd rfl hm
      | notify path =>
        exact ((p.feed.beside_enqueue path).symm.trans h).trans (q.feed.beside_enqueue path)
      | watchList => exact h
      | load file => exact h.load file
      | add file => exact h.add file

lemma requestsOf_eq {p q : Paced} (h : p.feed.Beside q.feed) (m : Move) :
    p.requestsOf m = q.requestsOf m := by
  cases m with
  | work => rfl
  | outside s =>
    unfold requestsOf Feed.requested
    simp only [h.host, h.alike.files]

lemma requests_eq {p q : Paced} {ms : List Move} (hms : .stop ∉ ms) (h : p.feed.Beside q.feed) :
    p.requests ms = q.requests ms := by
  induction ms generalizing p q with
  | nil => rfl
  | cons m ms ih =>
    rw [List.mem_cons, not_or] at hms
    have hmove := beside_move (Ne.symm hms.1) h
    rw [requests, requests, requestsOf_eq h, ih hms.2 hmove]

/-! ### Readings for a path -/

/-- How often a path is read in the course of moves because it waited, and waits after them. -/
def attended (p : Paced) (ms : List Move) (path : String) : Nat :=
  (noticed (p.readings ms)).count path + (p.run ms).feed.watcher.queue.count path

lemma attended_eq (p : Paced) (ms : List Move) (path : String) :
    p.attended ms path = p.feed.watcher.queue.count path + (p.requests ms).count path := by
  have h := congrArg (List.count path) (p.ledger_run ms)
  rw [List.count_append, List.count_append] at h
  exact h.symm

lemma attended_seen {p : Paced} {us : List Move} (hus : .stop ∉ us) (c : Change) (path : String) :
    p.attended (.seen c :: us) path =
      p.attended us path + (p.requestsOf (.seen c)).count path := by
  have hbeside : (p.move (.seen c)).feed.Beside p.feed := by
    have halike := p.feed.alike_happening (.change c)
    have hhost := p.feed.host_happening (.change c)
    exact ⟨halike.symm, hhost.symm⟩
  rw [attended_eq, attended_eq, requests, List.count_append, requests_eq hus hbeside]
  omega

/-! ### A file that was added -/

lemma keys_move (p : Paced) (m : Move) :
    p.feed.watcher.files.keys ⊆ (p.move m).feed.watcher.files.keys := by
  rcases p.files_move m with h | ⟨file, -, h⟩
  · rw [h]
    exact List.Subset.refl _
  · rw [h, OrderedMap.keys_insert]
    split
    · exact List.Subset.refl _
    · exact List.subset_append_left _ _

lemma keys_run (p : Paced) (ms : List Move) :
    p.feed.watcher.files.keys ⊆ (p.run ms).feed.watcher.files.keys := by
  induction ms generalizing p with
  | nil => exact List.Subset.refl _
  | cons m ms ih => exact List.Subset.trans (p.keys_move m) (ih (p.move m))

lemma known_of_added {p : Paced} {file : WatchedFile} (added : (p.feed.add file).1 = .ok true) :
    file.path ∈ (p.move (.add file)).feed.watcher.files.keys := by
  have h := p.feed.added file
  change file.path ∈ (p.feed.add file).2.watcher.files.keys
  generalize p.feed.add file = out at h added ⊢
  cases h with
  | unobserved | failed | rejected => simp at added
  | counted | subscribed =>
    simp only [Watcher.know, OrderedMap.keys_insert]
    split
    · next hmem => exact hmem
    · simp

lemma attached_of_adds {p : Paced} {ms : List Move} {file : WatchedFile} (hp : p.feed.Unstarted)
    (hms : .stop ∉ ms) (adds : p.Adds ms file) :
    (p.run ms).feed.Attached [] ∧ Feed.directoryOf file.path ∈ (p.run ms).feed.watcher.dirs ∧
      file.path ∈ (p.run ms).feed.watcher.files.keys := by
  obtain ⟨as, bs, rfl, added⟩ := adds
  have hbs : Move.stop ∉ bs := fun hmem => hms (by simp [hmem])
  have hdir : Feed.directoryOf file.path ∈ (p.run (as ++ .add file :: bs)).feed.watcher.dirs := by
    rw [run_append]
    exact dirs_run hbs (Feed.mem_dirs_of_add added)
  have hknown : file.path ∈ (p.run (as ++ .add file :: bs)).feed.watcher.files.keys := by
    rw [run_append]
    exact keys_run _ bs (known_of_added added)
  refine ⟨(unstarted_or_attached hms hp).resolve_left fun h => ?_, hdir, hknown⟩
  rw [h.dirs] at hdir
  simp at hdir

lemma requestsOf_seen {p : Paced} {c : Change} (hd : p.feed.world.host.delivers c = true)
    (hr : c.renews = true) :
    p.requestsOf (.seen c) = if p.feed.watcher.files.contains c.target then [c.target] else [] := by
  simp [requestsOf, Feed.requested, hd, hr]

/-- **A change of an added file is read again once**, if the file was added under its normal
absolute path, and else not at all. A file was added with success to a watcher that was never
stopped, and a change of it in its place is seen under the path by which observers report the file.
The change is delivered. Whatever comes then, the readings for the path of the file are one more
than without the change exactly if the path is the reported one; and a worker that is left alone
leaves nothing waiting. -/
theorem change_is_reread_once {w : World} {refresh : Binary64} {ms : List Move}
    {file : WatchedFile} {c : Change} (unstopped : .stop ∉ ms)
    (adds : (new w refresh).Adds ms file)
    (kind : c.kind ∈ [ChangeKind.created, .modified, .closed]) (plain : c.ofDirectory = false)
    (place : c.target = Path.absolute file.path) :
    ((new w refresh).run ms).feed.world.host.delivers c = true ∧
    (∀ us, .stop ∉ us →
      ((new w refresh).run ms).attended (.seen c :: us) file.path =
        ((new w refresh).run ms).attended us file.path +
          if Path.absolute file.path = file.path then 1 else 0) ∧
    ∃ n, ((((new w refresh).run ms).move (.seen c)).works n).feed.watcher.queue = [] := by
  obtain ⟨hattached, hdir, hknown⟩ := attached_of_adds (unstarted_new w refresh) unstopped adds
  have hrenews : c.renews = true := by
    simp only [List.mem_cons, List.not_mem_nil, or_false] at kind
    rcases kind with hk | hk | hk <;> simp [Change.renews, plain, hk]
  have hdelivered : ((new w refresh).run ms).feed.world.host.delivers c = true :=
    (follows_of_attached hattached hdir (by simp) [] (by simp)).2 c place
  refine ⟨hdelivered, fun us hus => ?_, ?_⟩
  · rw [attended_seen hus, requestsOf_seen hdelivered hrenews, place]
    by_cases hpath : Path.absolute file.path = file.path
    · rw [hpath, if_pos rfl, if_pos (OrderedMap.contains_iff.2 hknown), List.count_singleton_self]
    · -- the path that is looked up is another one, be it known or not
      rw [if_neg hpath]
      split
      · rw [List.count_singleton, if_neg (by simpa using hpath)]
      · rfl
  · obtain ⟨n, hidle⟩ := (((new w refresh).run ms).move (.seen c)).exists_works_idle
    have hseen : (((new w refresh).run ms).move (.seen c)).feed.Attached [] :=
      attached_move (by simp) hattached
    have hworks : ((((new w refresh).run ms).move (.seen c)).works n).feed.Attached [] :=
      attached_run (by simp [List.mem_replicate]) hseen
    exact ⟨n, hidle.queue hworks.running⟩

theorem change_is_reread_once_modified :
    ((new twoDirs Binary64.zero).run [.start, .add hallFile]).attended
      [.told "/hall/a", .work] "/hall/a" = 1 := by
  have hadds : (new twoDirs Binary64.zero).Adds [.start, .add hallFile] hallFile :=
    ⟨[.start], [], rfl, by decide +kernel⟩
  have hpath : Path.absolute hallFile.path = "/hall/a" := by decide +kernel
  have hkind : (Change.rewritten "/hall/a").kind ∈ [ChangeKind.created, .modified, .closed] := by
    decide
  obtain ⟨-, hcount, -⟩ := change_is_reread_once (by simp) hadds hkind rfl hpath.symm
  have hwithout : ((new twoDirs Binary64.zero).run [.start, .add hallFile]).attended
      [.work] "/hall/a" = 0 := by decide +kernel
  have hone := hcount [.work] (by simp)
  rw [if_pos (by rw [hpath]; rfl)] at hone
  exact hone.trans (congrArg (· + 1) hwithout)

def crookedFile : WatchedFile := ⟨"/hall//a", .dnsmasq, none⟩

/-- A change of `crookedFile` is delivered, but the path by which it is reported is not known. -/
theorem change_may_be_overlooked :
    ¬ ∀ (w : World) (refresh : Binary64) (ms : List Move) (file : WatchedFile) (c : Change),
      .stop ∉ ms → (new w refresh).Adds ms file →
      c.kind ∈ [ChangeKind.created, .modified, .closed] → c.ofDirectory = false →
      c.target = Path.absolute file.path → ∀ us, .stop ∉ us →
      ((new w refresh).run ms).attended (.seen c :: us) file.path =
        ((new w refresh).run ms).attended us file.path + 1 := by
  intro h
  have hadds : (new twoDirs Binary64.zero).Adds [.start, .add crookedFile] crookedFile :=
    ⟨[.start], [], rfl, by decide +kernel⟩
  have hcount := h twoDirs Binary64.zero [.start, .add crookedFile] crookedFile
    (.rewritten "/hall/a") (by simp) hadds (by decide) rfl (by decide +kernel) [.work] (by simp)
  exact absurd hcount (by decide +kernel)

end Paced

end RouterAgent
