import RouterAgent.Proofs.Watcher.Pace

/-!
The account of a watcher's readings.

Every move makes certain readings, and nothing but a successful reading changes the table. A path
that was asked for is read again once, in the order in which the paths were asked for.
-/

namespace RouterAgent

open RouterAgent.Lease RouterAgent.Client

namespace Feed

/-! ### The queue beside the readings -/

lemma read_with (f : Feed) (watcher : Watcher) (hp : watcher.phase = f.watcher.phase)
    (occasion : Occasion) (path : String) (file : WatchedFile) :
    ({ f with watcher } : Feed).read occasion path file =
      ((f.read occasion path file).1, { (f.read occasion path file).2 with watcher }) := by
  have hseek : ({ f with watcher } : Feed).seek occasion path =
      ((f.seek occasion path).1, { (f.seek occasion path).2 with watcher }) := by
    cases occasion with
    | load => cases hh : f.world.host.holds path <;> simp [seek, hh, note]
    | notice | refresh => rcases hs : f.world.host.size? path with _ | _ | n <;> simp [seek, hs, note]
  have htake (g : Feed) (result : Except Fault (List Client)) :
      ({ g with watcher } : Feed).take occasion path result =
        ((g.take occasion path result).1, { (g.take occasion path result).2 with watcher }) := by
    cases result with
    | error fault => cases fault <;> rfl
    | ok clients =>
      rcases hc : g.table.replaceSource path clients with ⟨changed, table⟩
      cases occasion <;> cases changed <;> simp [take, replace, hc, note]
  have hwatcher : (f.seek occasion path).2.watcher = f.watcher := by
    obtain ⟨_, h⟩ := (f.seek_spec occasion path).2
    rw [h]
  unfold read
  rw [hseek]
  generalize f.seek occasion path = out at hwatcher ⊢
  obtain ⟨there, g⟩ := out
  cases there with
  | false => rfl
  | true =>
    have hphase : g.watcher.phase = watcher.phase := (congrArg Watcher.phase hwatcher).trans hp.symm
    simp only [parse, hphase, if_true]
    exact htake { g with world := (g.world.parse watcher.phase file).2 } _

lemma reparse_withQueue (f : Feed) (paths : List String) (path : String) :
    (f.withQueue paths).reparse path = (f.reparse path).withQueue paths := by
  unfold reparse
  rw [show (f.withQueue paths).watcher.files = f.watcher.files from rfl]
  cases f.watcher.files.get? path with
  | none => rfl
  | some file =>
    have hread := (f.enter .reparsing).read_with
      ((f.enter .reparsing).withQueue paths).watcher rfl .notice path file
    obtain ⟨_, h⟩ := notes_read (f.enter .reparsing) .notice path file
    refine (congrArg (fun out => out.2.enter .watching) hread).trans ?_
    simp only [h]
    rfl

lemma reparseAll_withQueue (f : Feed) (waiting paths : List String) :
    (f.withQueue waiting).reparseAll paths = (f.reparseAll paths).withQueue waiting := by
  induction paths generalizing f with
  | nil => rfl
  | cons path paths ih =>
    rw [reparseAll_cons, reparse_withQueue, ih, reparseAll_cons]

lemma queue_reparseAll (f : Feed) (paths : List String) :
    (f.reparseAll paths).watcher.queue = f.watcher.queue := by
  obtain ⟨phase, h⟩ := f.watcher_reparseAll paths
  rw [h]

lemma running_reparseAll (f : Feed) (paths : List String) :
    (f.reparseAll paths).watcher.running = f.watcher.running := by
  obtain ⟨phase, h⟩ := f.watcher_reparseAll paths
  rw [h]

lemma drain_of_running {f : Feed} (h : f.watcher.running = true) :
    f.drain = (f.reparseAll f.watcher.queue).withQueue [] := by
  rw [drain, if_pos h, ← reparseAll_withQueue]
  rfl

lemma drain_of_stopped {f : Feed} (h : f.watcher.running = false) : f.drain = f := by
  simp [drain, h]

/-! ### Readings of the worker's turns -/

lemma reads_plan (f : Feed) : f.Reads f.plan [] := .none rfl rfl

lemma reads_withQueue (f : Feed) (paths : List String) : f.Reads (f.withQueue paths) [] :=
  .none rfl rfl

lemma reads_enqueue (f : Feed) (path : String) : f.Reads (f.enqueue path) [] := .none rfl rfl

lemma reads_stop (f : Feed) : f.Reads f.stop [] := by
  unfold stop
  split
  · refine .none rfl ?_
    cases f.watcher.observer <;> rfl
  · exact .none rfl rfl

lemma reads_launch (f : Feed) : f.Reads f.launch.2 [] := by
  unfold launch
  split
  · exact .none rfl rfl
  · rcases f.world.host.startObserver with ⟨_ | _, host⟩ <;> exact .none rfl rfl

lemma reads_drain (f : Feed) :
    f.Reads f.drain
      (if f.watcher.running then f.rereadings .notice f.watcher.queue else []) := by
  cases hr : f.watcher.running with
  | false =>
    rw [drain_of_stopped hr]
    exact .none rfl rfl
  | true =>
    rw [drain_of_running hr]
    simpa using (f.reads_reparseAll .notice f.watcher.queue).trans (reads_withQueue _ [])

lemma reads_happening (f : Feed) (h : Happening) : f.Reads (f.ask (.happening h)) [] := by
  cases h with
  | change c =>
    simp only [ask]
    split
    · exact f.reads_enqueue c.target
    · exact .none rfl rfl
  | _ => exact .none rfl rfl

end Feed

namespace Paced

lemma work_of_queue {f : Feed} {path : String} {rest : List String}
    (hr : f.watcher.running = true) (hq : f.watcher.queue = path :: rest) :
    (⟨f, []⟩ : Paced).work = ⟨(f.reparse path).withQueue rest, []⟩ := by
  rw [← Feed.reparse_withQueue]
  simp only [work, hr, hq, if_true]

lemma reads_halt (p : Paced) : p.feed.Reads p.halt.feed p.lastReadings := by
  have hagenda := p.feed.reads_reparseAll .refresh p.agenda
  have hdrain := (p.feed.reparseAll p.agenda).reads_drain
  rw [Feed.queue_reparseAll, Feed.running_reparseAll] at hdrain
  have h := (hagenda.trans hdrain).trans (Feed.reads_stop _)
  rwa [List.append_nil] at h

lemma reads_work (p : Paced) : p.feed.Reads p.work.feed (p.readingsOf .work) := by
  obtain ⟨f, agenda⟩ := p
  unfold work readingsOf
  rcases agenda with _ | ⟨path, _ | ⟨next, rest⟩⟩
  · -- the queue, or a reading of all files that only begins
    simp only
    cases hr : f.watcher.running with
    | false => exact .none rfl rfl
    | true =>
      cases hq : f.watcher.queue with
      | cons path rest =>
        exact (f.reads_withQueue rest).trans ((f.withQueue rest).reads_reparse .notice path)
      | nil =>
        simp only [if_true]
        split
        · split <;> exact .none rfl rfl
        · exact .none rfl rfl
  · -- the last path of the agenda
    exact (f.reads_reparse .refresh path).trans (f.reparse path).reads_plan
  · exact f.reads_reparse .refresh path

/-- **One move.** What a move does to the table is what its readings contribute. -/
theorem reads_move (p : Paced) (m : Move) : p.feed.Reads (p.move m).feed (p.readingsOf m) := by
  cases m with
  | work => exact p.reads_work
  | outside s =>
    cases s with
    | happening h => exact p.feed.reads_happening h
    | observers | table _ => exact .none rfl rfl
    | watcher c =>
      cases c with
      | start => exact p.feed.reads_launch
      | stop => exact p.reads_halt
      | notify path => exact p.feed.reads_enqueue path
      | watchList => exact .none rfl rfl
      | load file => exact p.feed.reads_load file
      | add file => exact (p.feed.add_spec file).1

/-- **A run.** What moves do to the table is what their readings contribute, in their order. -/
theorem reads_run (p : Paced) (ms : List Move) :
    p.feed.Reads (p.run ms).feed (p.readings ms) := by
  induction ms generalizing p with
  | nil => exact .none rfl rfl
  | cons m ms ih => exact (p.reads_move m).trans (ih (p.move m))

end Paced

/-! ### Each request is read once -/

lemma noticed_append (rs qs : List Reading) : noticed (rs ++ qs) = noticed rs ++ noticed qs := by
  simp [noticed]

namespace Feed

lemma noticed_loading (f : Feed) (file : WatchedFile) : noticed [f.loading file] = [] := by
  unfold loading
  split <;> rfl

lemma noticed_rereadings_refresh (f : Feed) (paths : List String) :
    noticed (f.rereadings .refresh paths) = [] := by
  induction paths generalizing f with
  | nil => rfl
  | cons path paths ih =>
    have h := f.occasion_rereading .refresh path
    have := ih (f.reparse path)
    simp_all [noticed, rereadings]

lemma noticed_rereadings_notice (f : Feed) (paths : List String) :
    noticed (f.rereadings .notice paths) = paths := by
  induction paths generalizing f with
  | nil => rfl
  | cons path paths ih =>
    have h := f.occasion_rereading .notice path
    have hp := f.path_rereading .notice path
    have := ih (f.reparse path)
    simp_all [noticed, rereadings]

lemma queue_enqueue (f : Feed) (path : String) :
    (f.enqueue path).watcher.queue =
      f.watcher.queue ++ if f.watcher.files.contains path then [path] else [] := by
  unfold enqueue Watcher.notify
  split <;> simp

lemma queue_launch (f : Feed) : f.launch.2.watcher.queue = f.watcher.queue := by
  unfold launch
  split
  · rfl
  · rcases f.world.host.startObserver with ⟨_ | _, host⟩ <;> rfl

lemma queue_stop (f : Feed) : f.stop.watcher.queue = f.watcher.queue := by
  unfold stop
  split <;> rfl

lemma queue_ask (f : Feed) (s : Step) :
    (f.ask s).watcher.queue = f.watcher.queue ++ f.requested s := by
  cases s with
  | happening h =>
    cases h with
    | change c =>
      simp only [ask, requested]
      by_cases hd : (f.world.host.delivers c && c.renews) = true
      · rw [if_pos hd, queue_enqueue]
        rw [Bool.and_eq_true] at hd
        simp [hd]
      · rw [if_neg hd]
        rw [Bool.and_eq_true] at hd
        rw [if_neg fun h => hd ⟨h.1, h.2.1⟩, List.append_nil]
    | _ => exact (List.append_nil _).symm
  | observers | table _ => exact (List.append_nil _).symm
  | watcher c =>
    cases c with
    | start => exact f.queue_launch.trans (List.append_nil _).symm
    | notify path => exact f.queue_enqueue path
    | load file =>
      simp only [ask, requested, (f.load_spec file).2.1, List.append_nil]
      rfl
    | add file =>
      simp only [ask, requested, (f.add_spec file).2.1, List.append_nil]
    | stop | watchList => exact (List.append_nil _).symm

end Feed

namespace Paced

lemma queue_halt (p : Paced) :
    p.halt.feed.watcher.queue =
      if p.feed.watcher.running then [] else p.feed.watcher.queue := by
  have hrunning := p.feed.running_reparseAll p.agenda
  rw [halt, Feed.queue_stop]
  cases hr : p.feed.watcher.running with
  | false => rw [Feed.drain_of_stopped (hrunning.trans hr), Feed.queue_reparseAll]; rfl
  | true => rw [Feed.drain_of_running (hrunning.trans hr)]; rfl

lemma noticed_lastReadings (p : Paced) :
    noticed p.lastReadings = if p.feed.watcher.running then p.feed.watcher.queue else [] := by
  rw [lastReadings, noticed_append, Feed.noticed_rereadings_refresh, List.nil_append]
  split
  · exact Feed.noticed_rereadings_notice _ _
  · rfl

lemma ledger_work (p : Paced) :
    p.feed.watcher.queue = noticed (p.readingsOf .work) ++ p.work.feed.watcher.queue := by
  obtain ⟨f, agenda⟩ := p
  unfold work readingsOf
  rcases agenda with _ | ⟨path, rest⟩
  · simp only
    cases hr : f.watcher.running with
    | false => rfl
    | true =>
      cases hq : f.watcher.queue with
      | cons path rest =>
        have hnoticed : noticed [f.rereading .notice path] = [path] :=
          f.noticed_rereadings_notice [path]
        have hqueue : ((f.withQueue rest).reparse path).watcher.queue = rest :=
          (f.withQueue rest).queue_reparseAll [path]
        simp [hnoticed, hqueue]
      | nil =>
        simp only [if_true]
        split
        · split <;> simp [noticed, Feed.plan, hq]
        · simp [noticed, hq]
  · have hnoticed : noticed [f.rereading .refresh path] = [] :=
      f.noticed_rereadings_refresh [path]
    have hqueue : (f.reparse path).watcher.queue = f.watcher.queue := f.queue_reparseAll [path]
    rcases rest with _ | ⟨next, rest⟩ <;> simp [hnoticed, hqueue, Feed.plan]

lemma ledger_move (p : Paced) (m : Move) :
    p.feed.watcher.queue ++ p.requestsOf m =
      noticed (p.readingsOf m) ++ (p.move m).feed.watcher.queue := by
  cases m with
  | work => exact (List.append_nil _).trans p.ledger_work
  | outside s =>
    have hask := p.feed.queue_ask s
    cases s with
    | happening | observers | table _ => exact hask.symm
    | watcher c =>
      cases c with
      | stop =>
        rw [show p.move (.outside (.watcher .stop)) = p.halt from rfl, queue_halt,
          show p.readingsOf (.outside (.watcher .stop)) = p.lastReadings from rfl,
          noticed_lastReadings]
        split <;> simp [requestsOf, Feed.requested]
      | load file =>
        rw [show p.readingsOf (.outside (.watcher (.load file))) = [p.feed.loading file] from rfl,
          Feed.noticed_loading]
        exact hask.symm
      | start | notify _ | watchList | add _ => exact hask.symm

/-- **First in, first out.** The paths that were read because they waited are those that were asked
for, in their order, without the ones that wait still. -/
theorem ledger_run (p : Paced) (ms : List Move) :
    p.feed.watcher.queue ++ p.requests ms =
      noticed (p.readings ms) ++ (p.run ms).feed.watcher.queue := by
  induction ms generalizing p with
  | nil => simp [requests, readings, noticed]
  | cons m ms ih =>
    calc p.feed.watcher.queue ++ (p.requestsOf m ++ (p.move m).requests ms)
        = noticed (p.readingsOf m) ++
            ((p.move m).feed.watcher.queue ++ (p.move m).requests ms) := by
          rw [← List.append_assoc, p.ledger_move m, List.append_assoc]
      _ = noticed (p.readingsOf m ++ (p.move m).readings ms) ++
            ((p.move m).run ms).feed.watcher.queue := by
          rw [ih (p.move m), noticed_append, List.append_assoc]

end Paced

end RouterAgent
