import RouterAgent.Proofs.Watcher.Ledger

/-!
Whatever its pace, the worker keeps the table in step with its successful readings.

Left alone the worker comes to the end of what waits. If it is left alone after each step of
others, then the run is one of `Feed.run`.
-/

namespace RouterAgent

open RouterAgent.Number RouterAgent.Client

namespace Paced

/-! ### The worker left alone -/

/-- The worker makes so many readings and nobody interferes. -/
def works (p : Paced) (n : Nat) : Paced := p.run (.replicate n .work)

@[simp] lemma works_zero (p : Paced) : p.works 0 = p := rfl

lemma works_succ (p : Paced) (n : Nat) : p.works (n + 1) = p.work.works n := rfl

lemma works_add (p : Paced) (m n : Nat) : p.works (m + n) = (p.works m).works n := by
  rw [works, List.replicate_add, run_append]
  rfl

lemma works_agenda (f : Feed) (path : String) (rest : List String) :
    (⟨f, path :: rest⟩ : Paced).works (rest.length + 1) =
      ⟨(f.reparseAll (path :: rest)).plan, []⟩ := by
  induction rest generalizing f path with
  | nil => rfl
  | cons next rest ih => exact ih (f.reparse path) next

lemma works_queue {f : Feed} (hr : f.watcher.running = true) (paths rest : List String) :
    (⟨f.withQueue (paths ++ rest), []⟩ : Paced).works paths.length =
      ⟨(f.reparseAll paths).withQueue rest, []⟩ := by
  induction paths generalizing f with
  | nil => rfl
  | cons path paths ih =>
    have hwork : (⟨f.withQueue (path :: paths ++ rest), []⟩ : Paced).work =
        ⟨(f.reparse path).withQueue (paths ++ rest), []⟩ := by
      rw [work_of_queue (f := f.withQueue (path :: paths ++ rest)) hr rfl, Feed.reparse_withQueue]
      rfl
    rw [List.length_cons, works_succ, hwork]
    exact ih ((f.running_reparseAll [path]).trans hr)

lemma works_drain (f : Feed) : ∃ n, (⟨f, []⟩ : Paced).works n = ⟨f.drain, []⟩ := by
  cases hr : f.watcher.running with
  | false => exact ⟨0, by rw [Feed.drain_of_stopped hr]; rfl⟩
  | true =>
    refine ⟨f.watcher.queue.length, ?_⟩
    have h := works_queue hr f.watcher.queue []
    rw [List.append_nil] at h
    rw [Feed.drain_of_running hr]
    exact h

end Paced

namespace Feed

def Rests (f : Feed) : Prop := f.watcher.running = true → f.watcher.queue = []

lemma rests_drain (f : Feed) : f.drain.Rests := by
  intro h
  cases hr : f.watcher.running with
  | false =>
    rw [drain_of_stopped hr] at h
    exact absurd h (by simp [hr])
  | true =>
    rw [drain_of_running hr]
    rfl

lemma Rests.drain_eq {f : Feed} (h : f.Rests) : f.drain = f := by
  cases hr : f.watcher.running with
  | false => exact drain_of_stopped hr
  | true =>
    rw [drain_of_running hr, h hr]
    obtain ⟨w, watcher, t⟩ := f
    obtain ⟨files, dirs, queue, observer, running, phase, refresh, next⟩ := watcher
    have hq : queue = [] := h hr
    subst hq
    rfl

lemma Rests.refresh {f : Feed} (h : f.Rests) : f.refresh.Rests := by
  intro hr
  have hrunning : f.refresh.watcher.running = f.watcher.running := f.running_reparseAll _
  have hqueue : f.refresh.watcher.queue = f.watcher.queue := f.queue_reparseAll _
  rw [hqueue, h (hrunning.symm.trans hr)]

lemma Rests.stop {f : Feed} (h : f.Rests) : f.stop.Rests := by
  unfold Feed.stop
  split
  · intro hr
    exact absurd hr Bool.false_ne_true
  · exact h

end Feed

namespace Paced

/-- **Left alone the worker gets through**: through the agenda, and then through what waits. -/
theorem exists_works_idle (p : Paced) : ∃ n, (p.works n).Idle := by
  have hqueue (f : Feed) : ∃ n, ((⟨f, []⟩ : Paced).works n).Idle := by
    obtain ⟨n, hn⟩ := works_drain f
    exact ⟨n, by rw [hn]; exact ⟨rfl, f.rests_drain⟩⟩
  obtain ⟨f, agenda⟩ := p
  rcases agenda with _ | ⟨path, rest⟩
  · exact hqueue f
  · obtain ⟨n, hn⟩ := hqueue (f.reparseAll (path :: rest)).plan
    refine ⟨rest.length + 1 + n, ?_⟩
    rw [works_add, works_agenda]
    exact hn

lemma works_refresh {f : Feed} (h : f.Rests)
    (hdue : f.watcher.isDue f.world.host.clock = true) :
    ∃ n, (⟨f, []⟩ : Paced).works n = ⟨f.refresh, []⟩ := by
  have hr : f.watcher.running = true := by
    simp only [Watcher.isDue, Bool.and_eq_true] at hdue
    exact hdue.1.1
  rcases hl : f.watcher.watchList with _ | ⟨path, rest⟩
  · refine ⟨1, ?_⟩
    have hwork : (⟨f, []⟩ : Paced).work = ⟨f.plan, []⟩ := by
      simp only [work, hr, h hr, hdue, hl, if_true]
    rw [works_succ, hwork, Feed.refresh, hl]
    rfl
  · refine ⟨rest.length + 1 + 1, ?_⟩
    have hwork : (⟨f, []⟩ : Paced).work = ⟨f, path :: rest⟩ := by
      simp only [work, hr, h hr, hdue, hl, if_true]
    rw [works_succ, hwork, Feed.refresh, hl]
    exact works_agenda f path rest

/-! ### A worker that is never interrupted -/

lemma works_happen {f : Feed} (h : f.Rests) (hap : Happening) :
    (f.happen hap).2.Rests ∧
      ∃ n, (⟨f.ask (.happening hap), []⟩ : Paced).works n = ⟨(f.happen hap).2, []⟩ := by
  cases hap with
  | change c =>
    simp only [Feed.happen, Feed.ask, Feed.see]
    cases hd : f.world.host.delivers c with
    | false => exact ⟨h, 0, rfl⟩
    | true =>
      cases hc : c.renews with
      | false => exact ⟨h, 0, rfl⟩
      | true => exact ⟨(f.enqueue c.target).rests_drain, works_drain (f.enqueue c.target)⟩
  | pass seconds =>
    simp only [Feed.happen, Feed.ask, Feed.advance, Host.after]
    split
    · next hdue => exact ⟨Feed.Rests.refresh h, works_refresh h hdue⟩
    · exact ⟨h, 0, rfl⟩
  | _ => exact ⟨h, 0, rfl⟩

lemma works_call {f : Feed} (h : f.Rests) (c : WatcherCall) :
    (f.call c).2.Rests ∧
      ∃ n, ((⟨f, []⟩ : Paced).move (.outside (.watcher c))).works n = ⟨(f.call c).2, []⟩ := by
  cases c with
  | start => exact ⟨f.launch.2.rests_drain, works_drain f.launch.2⟩
  | stop =>
    -- nothing waits, so there is nothing that a stopped worker would still read
    refine ⟨h.stop, 0, ?_⟩
    rw [works_zero]
    exact congrArg (fun g : Feed => (⟨g.stop, []⟩ : Paced)) h.drain_eq
  | notify path => exact ⟨(f.enqueue path).rests_drain, works_drain (f.enqueue path)⟩
  | watchList => exact ⟨h, 0, rfl⟩
  | load file =>
    refine ⟨?_, 0, rfl⟩
    unfold Feed.Rests
    rw [show (f.call (.load file)).2 = (f.load file).2 from rfl, (f.load_spec file).2.1]
    exact h
  | add file =>
    obtain ⟨-, hqueue, hrunning, -⟩ := f.add_spec file
    refine ⟨?_, 0, rfl⟩
    unfold Feed.Rests
    rw [show (f.call (.add file)).2 = (f.add file).2 from rfl, hqueue, hrunning]
    exact h

/-- **One step of `Feed.step`** is the step of somebody else, and then the worker until it is
through. -/
lemma works_step {f : Feed} (h : f.Rests) (s : Step) :
    (f.step s).2.Rests ∧
      ∃ n, ((⟨f, []⟩ : Paced).move (.outside s)).works n = ⟨(f.step s).2, []⟩ := by
  cases s with
  | happening hap => exact works_happen h hap
  | observers | table _ => exact ⟨h, 0, rfl⟩
  | watcher c => exact works_call h c

/-- **The runs of `Feed.run`** are those in which the worker gets through after each step. -/
theorem exists_run_eq {f : Feed} (h : f.Rests) (steps : List Step) :
    ∃ ms, ms.filterMap Move.step? = steps ∧ (⟨f, []⟩ : Paced).run ms = ⟨f.run steps, []⟩ := by
  induction steps generalizing f with
  | nil => exact ⟨[], rfl, rfl⟩
  | cons s steps ih =>
    obtain ⟨hrests, n, hn⟩ := works_step h s
    obtain ⟨ms, hms, hrun⟩ := ih hrests
    refine ⟨.outside s :: (List.replicate n .work ++ ms), ?_, ?_⟩
    · have hwork : (List.replicate n Move.work).filterMap Move.step? = [] := by
        simp [Move.step?]
      simp [Move.step?, hwork, hms]
    · rw [run_cons, run_append]
      exact (congrArg (Paced.run · ms) hn).trans hrun

end Paced

end RouterAgent
