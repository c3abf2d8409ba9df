import RouterAgent.Proofs.Crew.Uninterrupted

/-!
The table follows what is read.

Whoever reads, and whoever waits for whom: the table holds what the successful readings put into it,
and each path that was asked for is read again once, in the order of asking, as long as there is a
worker to read it.
-/

namespace RouterAgent

open RouterAgent.Number RouterAgent.Lease RouterAgent.Client

namespace Crew

variable {c d : Crew} {a : Act} {i : ℕ} {w : Worker}

/-! ### Workers that can wait -/

lemma faints_of_mem_breakdowns (h : w ∈ c.breakdowns a) :
    (∃ i, c.worker? i = some w) ∧ c.mail = [] ∧ c.feed.watcher.refresh.isNonpositive = false ∧
      exceeds (w.plan.sub c.now) c.longest = true := by
  unfold breakdowns at h
  split at h
  · split at h
    · simp at h
    · next hw =>
      split at h
      · next hm =>
        simp only [List.mem_ite_nil_left, List.mem_ite_nil_right, List.mem_singleton] at h
        obtain ⟨-, hf, rfl⟩ := h
        simp only [faints, timed, Bool.and_eq_true, Bool.not_eq_true'] at hf
        exact ⟨⟨_, hw⟩, hm, hf⟩
      · simp at h
  · simp at h

lemma trace_breakdowns (h : c.feed.watcher.refresh.isNonpositive = true ∨ c.longest = none)
    (acts : List Act) : c.trace breakdowns acts = [] := by
  induction acts generalizing c with
  | nil => rfl
  | cons a acts ih =>
    obtain ⟨hrefresh, hlongest⟩ := c.timed_act a
    have hnone : c.breakdowns a = [] := by
      rw [List.eq_nil_iff_forall_not_mem]
      intro w hw
      obtain ⟨-, -, hr, hl⟩ := faints_of_mem_breakdowns hw
      rcases h with h | h <;> simp [h, exceeds] at hr hl
    rw [trace, hnone, List.nil_append]
    exact ih (by rw [hrefresh, hlongest]; exact h)

def Scheduled (top : Binary64) (c : Crew) : Prop :=
  ∀ i w, c.worker? i = some w → w.plan.le top = true

/-- The clock has not been set back below zero, and a round that is planned now is not later than a
time. -/
def Timely (top : Binary64) (c : Crew) : Prop :=
  Binary64.zero.le c.now = true ∧ (c.now.add c.feed.watcher.refresh).le top = true

lemma Scheduled.of_workers {top : Binary64} (h : c.Scheduled top) (hw : d.workers = c.workers) :
    d.Scheduled top := by
  intro i w hi
  exact h i w ((congrArg (fun ws => ws[i]?.join) hw).symm.trans hi)

lemma Scheduled.act {top : Binary64} (h : c.Scheduled top) (hc : c.Timely top)
    (ht : Binary64.zero.le top = true) (a : Act) : (c.act a).Scheduled top := by
  have hacted := c.acted a
  generalize c.act a = d at hacted ⊢
  cases hacted with
  | @works i w d hw hturned =>
    obtain ⟨w', hworkers, hplan⟩ := workers_turned hw hturned
    intro j v hj
    have hput : (c.put i w').worker? j = some v :=
      (congrArg (fun ws => ws[j]?.join) hworkers).symm.trans hj
    rw [worker?_put (lt_length_of_worker? hw)] at hput
    split at hput
    · rcases (hplan v hput).1 with hv | hv
      · exact hv ▸ h i w hw
      · exact (congrArg (Binary64.le · top) hv).trans hc.2
    · exact h j v hput
  | @starts f hfree hr hl =>
    intro j v hj
    rcases worker?_recruited hj with hold | ⟨-, rfl⟩
    · exact h j v hold
    · exact ht
  | _ => exact h.of_workers rfl

lemma scheduled_new (w : World) (refresh : Binary64) (longest : Option Binary64) (top : Binary64) :
    (new w refresh longest).Scheduled top := by
  simp [Scheduled, new, worker?]

lemma trace_breakdowns_of_timely {top : Binary64} (hl : c.longest = some top)
    (ht : Binary64.zero.le top = true) (h : c.Scheduled top) {acts : List Act}
    (hc : ∀ as, as <+: acts → (c.run as).Timely top) : c.trace breakdowns acts = [] := by
  induction acts generalizing c with
  | nil => rfl
  | cons a acts ih =>
    have hnow : c.Timely top := hc [] (List.nil_prefix)
    have hnone : c.breakdowns a = [] := by
      rw [List.eq_nil_iff_forall_not_mem]
      intro w hw
      obtain ⟨⟨i, hi⟩, -, -, hexceeds⟩ := faints_of_mem_breakdowns hw
      have hbelow := Binary64.lt_sub_eq_false (h i w hi) hnow.1 ht
      simp [hl, exceeds, hbelow] at hexceeds
    rw [trace, hnone, List.nil_append]
    refine ih ((c.timed_act a).2.trans hl) (h.act hnow ht a) fun as has => ?_
    exact hc (a :: as) ((List.prefix_cons_inj a).2 has)

/-! ### All runs -/

/-- The books of a run. The table holds what was put into it, and what was found was put into it or
is held by a reading that goes on. Every reading that was begun has ended or goes on. The paths that
were asked for are those that were taken by a worker, in this order, and those that wait. A file is
known that was loaded, or added to a watcher with an observer. The watcher is on since the last of
its starts and stops was a start that succeeded. -/
structure Booked (c : Crew) (acts : List Act) (d : Crew) : Prop where
  table : d.feed.table = c.feed.table.replay (c.trace puts acts)
  found : (c.trace findings acts).Perm (c.trace puts acts ++ d.held)
  asked : d.feed.world.asked = c.feed.world.asked ++ c.trace asks acts
  begun : (c.trace begins acts).Perm (c.trace ends acts ++ d.errands.map Errand.task)
  taken : c.trace requests acts = (c.trace begins acts).filterMap Errand.notice? ++ d.waiting
  known : ∀ path, d.feed.watcher.files.contains path = true ↔
    ∃ file ∈ c.trace learns acts, file.path = path
  observed : d.feed.watcher.observer.isSome = (c.trace switches acts).contains true
  on : d.isOn = (c.trace switches acts).getLast?.getD false

lemma booked_new (w : World) (refresh : Binary64) (longest : Option Binary64) (acts : List Act) :
    (new w refresh longest).Booked acts ((new w refresh longest).run acts) := by
  have hfiled := filed_new w refresh longest
  have hknown (path : String) : (new w refresh longest).feed.watcher.files.contains path = false :=
    rfl
  exact
    { table := (feed_run _ acts).1
      found := (balance puts_held (new w refresh longest) acts).symm
      asked := (feed_run _ acts).2
      begun := (@balance _ (fun c => c.errands.map Errand.task) ends begins ends_errands
        (new w refresh longest) acts).symm
      taken := waiting_run hfiled acts
      known := fun path => by simpa [hknown path] using contains_run (new w refresh longest) acts path
      observed := observer_run hfiled acts
      on := isOn_run _ acts }

/-- Where nobody gives up and no worker breaks down: what was asked for before a stop is read to the
end, in the order of asking, before the stop ends. Stops come to their end, and whenever the watcher
is on, its worker reads all that was asked for, each path once, if it is left alone. -/
structure Prompt (c : Crew) (acts : List Act) (d : Crew) : Prop where
  stopped : ∀ as bs, acts = as ++ .calls .stop :: bs → (c.run as).isFree = true →
    (c.run as).feed.watcher.running = true → d.isStopping = false →
    c.trace requests as <+: (c.trace ends acts).filterMap Errand.notice?
  stops : d.isStopping = true → ∃ i n, ((d.turns i n).act .proceeds).isFree = true
  served : d.isOn = true → ∃ i n, c.trace requests acts =
    (c.trace ends (acts ++ .replicate n (.works i))).filterMap Errand.notice?

lemma requests_turns (c : Crew) (i n : ℕ) : c.trace requests (.replicate n (.works i)) = [] := by
  induction n generalizing c with
  | zero => rfl
  | succ n ih => exact ih (c.act (.works i))

lemma prompt_new (w : World) (refresh : Binary64) (longest : Option Binary64) {acts : List Act}
    (ha : .givesUp ∉ acts) (hb : (new w refresh longest).trace breakdowns acts = []) :
    (new w refresh longest).Prompt acts ((new w refresh longest).run acts) := by
  have horderly := orderly_new w refresh longest
  have hfiled := filed_new w refresh longest
  have hmanned := (manned_new w refresh longest).run horderly hfiled ha hb
  refine ⟨?_, exists_stopped hmanned, fun hon => ?_⟩
  · rintro as bs rfl hfree hr hend
    rw [trace_append, List.append_eq_nil_iff] at hb
    exact requests_prefix_of_stopped horderly hfiled (manned_new ..) ha hb.1 hfree hr hend
  · obtain ⟨i, n, ⟨⟨plan, hw⟩, hmail⟩, -⟩ := exists_resting hmanned hon
    have hpatient : .givesUp ∉ acts ++ .replicate n (.works i) := by simp [ha]
    have hturns : (new w refresh longest).run (acts ++ .replicate n (.works i)) =
        ((new w refresh longest).run acts).turns i n := run_append ..
    have hwaiting := waiting_run hfiled (acts ++ .replicate n (.works i))
    have hserved := served_run horderly hfiled hpatient
    have horderly' := horderly.run hpatient
    rw [hturns] at hwaiting hserved horderly'
    have hnone : (((new w refresh longest).run acts).turns i n).served = [] := by
      rw [served, horderly'.newest hw]
      rfl
    have hempty : (((new w refresh longest).run acts).turns i n).waiting = [] := by
      rw [waiting, hmail]
      rfl
    refine ⟨i, n, ?_⟩
    calc (new w refresh longest).trace requests acts
        = (new w refresh longest).trace requests (acts ++ .replicate n (.works i)) := by
          rw [trace_append, requests_turns, List.append_nil]
      _ = ((new w refresh longest).trace begins (acts ++ .replicate n (.works i))).filterMap
            Errand.notice? := by
          rw [hempty, List.append_nil] at hwaiting
          exact hwaiting
      _ = ((new w refresh longest).trace ends (acts ++ .replicate n (.works i))).filterMap
            Errand.notice? := by
          rw [hnone, List.append_nil] at hserved
          exact hserved

def hall : World := .start (Host.empty.makeDir "/hall")

def hallFile : WatchedFile :=
  ⟨"/hall/a", .dnsmasq,
    some ⟨0, fun _ => some (.ok [⟨"aa:00:00:00:00:01", "10.0.0.1", "tv", none, "/hall/a"⟩])⟩⟩

/-- A watcher is started and told of a file that is missing yet. The file is written, and the
watcher is to be stopped before the worker has had a turn. -/
def hurried : List Act :=
  [.calls .start, .calls (.load hallFile), .proceeds, .calls (.add hallFile),
    .happens (.write "/hall/a" (.bytes [49])),
    .happens (.change ⟨.modified, "/hall/a", "", false⟩), .calls .stop, .proceeds, .works 0,
    .works 0, .works 0, .works 0, .works 0, .proceeds]

end Crew

end RouterAgent
