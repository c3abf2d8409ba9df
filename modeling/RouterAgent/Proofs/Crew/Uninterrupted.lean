import RouterAgent.Proofs.Crew.Alone
import RouterAgent.Proofs.Number.Order
import RouterAgent.Proofs.Watcher.Refinement

/-!
A crew in which nobody is interrupted.

Each step of `Feed.step` is an act of a crew, after which the caller and the worker are left alone
until they are through. So whatever is true of all runs of a crew is true of those of `Feed.run`.
-/

namespace RouterAgent

open RouterAgent.Number RouterAgent.Lease RouterAgent.Client

namespace Feed

/-! ### Nothing but the worker looks at what waits -/

lemma withQueue_of_queue {f : Feed} {paths : List String} (h : f.watcher.queue = paths) :
    f.withQueue paths = f := by
  rw [← h]
  rfl

lemma launch_withQueue (f : Feed) (paths : List String) :
    (f.withQueue paths).launch = (f.launch.1, f.launch.2.withQueue paths) := by
  obtain ⟨w, ⟨files, dirs, queue, observer, running, phase, refresh, next⟩, t⟩ := f
  cases running with
  | true => rfl
  | false =>
    simp only [launch, withQueue, Bool.false_eq_true, if_false]
    rcases w.host.startObserver with ⟨_ | n, host⟩ <;> rfl

lemma add_withQueue (f : Feed) (paths : List String) (file : WatchedFile) :
    (f.withQueue paths).add file = ((f.add file).1, (f.add file).2.withQueue paths) := by
  cases hn : f.watcher.observer with
  | none => simp [add, withQueue, hn, note]
  | some n =>
    simp only [add, withQueue, hn, Watcher.know]
    split
    · rfl
    · split
      · rfl
      · rcases f.world.host.subscribe n (directoryOf file.path) with ⟨fault | _, host⟩
        · simp only
          split <;> rfl
        · rfl

lemma load_withQueue (f : Feed) (paths : List String) (file : WatchedFile) :
    (f.withQueue paths).load file = ((f.load file).1, (f.load file).2.withQueue paths) := by
  have hread := ({ f with watcher := f.watcher.know file } : Feed).read_with
    { f.watcher.know file with queue := paths } rfl .load file.path file
  obtain ⟨log, h⟩ := notes_read { f with watcher := f.watcher.know file } .load file.path file
  refine hread.trans ?_
  simp only [load, h]
  rfl

lemma ask_withQueue (f : Feed) (paths : List String) (s : Step) :
    ((f.withQueue paths).ask s).withQueue [] = (f.ask s).withQueue [] := by
  have henqueue (path : String) :
      ((f.withQueue paths).enqueue path).withQueue [] = (f.enqueue path).withQueue [] := by
    unfold enqueue Watcher.notify
    by_cases hc : f.watcher.files.contains path = true <;> simp [withQueue, hc]
  cases s with
  | happening h =>
    cases h with
    | change ch =>
      simp only [ask]
      change Feed.withQueue (if f.world.host.delivers ch && ch.renews then _ else _) [] = _
      split
      · exact henqueue ch.target
      · rfl
    | _ => rfl
  | observers | table _ => rfl
  | watcher call =>
    cases call with
    | start => simp only [ask, launch_withQueue]; rfl
    | stop | watchList => rfl
    | notify path => exact henqueue path
    | load file => simp only [ask, load_withQueue]; rfl
    | add file => simp only [ask, add_withQueue]; rfl

end Feed

def Act.step? : Act → Option Step
  | .happens h => some (.happening h)
  | .calls call => some (.watcher call)
  | .proceeds | .givesUp | .works _ => none

def Step.isAct : Step → Bool
  | .happening _ | .watcher _ => true
  | .observers | .table _ => false

namespace Crew

variable {c d : Crew} {f g : Feed}

/-- Others make these steps, nobody gives up, and another crew comes of the first one. -/
def Reaches (steps : List Step) (c d : Crew) : Prop :=
  ∃ acts, .givesUp ∉ acts ∧ acts.filterMap Act.step? = steps ∧ c.run acts = d

lemma Reaches.refl (c : Crew) : Reaches [] c c := ⟨[], by simp⟩

lemma Reaches.trans {b : Crew} {ss ts : List Step} (h : Reaches ss b c) (h' : Reaches ts c d) :
    Reaches (ss ++ ts) b d := by
  obtain ⟨as, ha, hs, rfl⟩ := h
  obtain ⟨bs, hb, ht, rfl⟩ := h'
  exact ⟨as ++ bs, by simp [ha, hb], by simp [hs, ht], run_append ..⟩

lemma reaches_act {a : Act} (ha : a ≠ .givesUp) (c : Crew) :
    Reaches a.step?.toList c (c.act a) :=
  ⟨[a], by simpa using ha.symm, by cases h : a.step? <;> simp [h], rfl⟩

lemma Comes.reaches {i : ℕ} (h : Comes i c d) : Reaches [] c d := by
  obtain ⟨n, rfl⟩ := h
  exact ⟨.replicate n (.works i), by simp, by simp [Act.step?], rfl⟩

/-- A crew whose caller is free and whose worker, while the watcher runs, has only what waits to
read. -/
structure Mirrors (f : Feed) (c : Crew) : Prop where
  feed : c.feed = f.withQueue []
  mail : c.mail = f.watcher.queue.map some
  caller : c.caller = .free
  worker : f.watcher.running = true → ∃ plan, c.newest? = some ⟨plan, none, none⟩ ∧
    (f.watcher.refresh.isNonpositive = false → plan = f.watcher.nextRefresh)

lemma mirrors_new (w : World) (refresh : Binary64) (longest : Option Binary64) :
    Mirrors ⟨w, .new refresh, .empty⟩ (new w refresh longest) :=
  ⟨rfl, rfl, rfl, by simp [Watcher.new]⟩

lemma Mirrors.isFree (h : Mirrors f c) : c.isFree = true := isFree_iff.2 h.caller

lemma Mirrors.ask (h : Mirrors f c) {s : Step}
    (hr : (f.ask s).watcher.running = f.watcher.running)
    (hn : (f.ask s).watcher.nextRefresh = f.watcher.nextRefresh)
    (hi : (f.ask s).watcher.refresh = f.watcher.refresh) : Mirrors (f.ask s) (c.ask s) := by
  have hfeed : (c.feed.ask s).withQueue [] = (f.ask s).withQueue [] := by
    rw [h.feed, Feed.ask_withQueue]
  refine ⟨hfeed, ?_, h.caller, fun hrun => ?_⟩
  · have hqueue : (c.feed.ask s).watcher.queue = f.requested s := by
      rw [h.feed, Feed.queue_ask]
      rfl
    rw [f.queue_ask, List.map_append, ← h.mail, ← hqueue]
    rfl
  · obtain ⟨plan, hw, hplan⟩ := h.worker (hr.symm.trans hrun)
    exact ⟨plan, hw, fun ht => hn ▸ hplan (hi ▸ ht)⟩

lemma Mirrors.drain (h : Mirrors f c) : ∃ d, Reaches [] c d ∧ Mirrors f.drain d := by
  cases hr : f.watcher.running with
  | false =>
    rw [Feed.drain_of_stopped hr]
    exact ⟨c, .refl c, h⟩
  | true =>
    obtain ⟨plan, hw, hplan⟩ := h.worker hr
    rw [newest?_eq] at hw
    have hi := lt_length_of_worker? hw
    have hcomes := comes_mail hi plan c.feed f.watcher.queue []
    have hself : ({ c with feed := c.feed, mail := f.watcher.queue.map some ++ [] } : Crew) = c := by
      rw [List.append_nil, ← h.mail]
    have hfeed : c.feed.reparseAll f.watcher.queue = f.drain := by
      rw [h.feed, Feed.reparseAll_withQueue, Feed.drain_of_running hr]
    rw [hself, put_self hw, hfeed] at hcomes
    refine ⟨_, hcomes.reaches, ?_, ?_, h.caller, fun _ => ⟨plan, newest?_put_last hi .., ?_⟩⟩
    · rw [Feed.drain_of_running hr]
      rfl
    · rw [Feed.drain_of_running hr]
      rfl
    · obtain ⟨phase, hwatcher⟩ := f.watcher_reparseAll f.watcher.queue
      rw [Feed.drain_of_running hr]
      simpa [Feed.withQueue, hwatcher] using hplan

lemma Mirrors.refresh (h : Mirrors f c) (hq : f.watcher.queue = [])
    (hdue : f.watcher.isDue f.world.host.clock = true) :
    ∃ d, Reaches [] c d ∧ Mirrors f.refresh d := by
  have hr : f.watcher.running = true := by
    simp only [Watcher.isDue, Bool.and_eq_true] at hdue
    exact hdue.1.1
  obtain ⟨plan, hw, hplan⟩ := h.worker hr
  rw [newest?_eq] at hw
  have hi := lt_length_of_worker? hw
  have hmail : c.mail = [] := by rw [h.mail, hq]; rfl
  have hdue' : c.due ⟨plan, none, none⟩ = true := by
    simp only [Watcher.isDue, Bool.and_eq_true] at hdue
    obtain ⟨⟨-, hpos⟩, hle⟩ := hdue
    have hsign : f.watcher.refresh.isNonpositive = false := by
      rw [Binary64.isNonpositive_eq_not_lt (Binary64.ne_nan_of_lt hpos).2, hpos]
      rfl
    rw [hplan hsign]
    rw [Binary64.le_eq_not_lt (by rintro hx; simp [hx] at hle)
      (by rintro hx; simp [hx] at hle)] at hle
    simp only [due, timed, now, h.feed]
    exact Bool.and_eq_true_iff.2 ⟨congrArg Bool.not hsign, hle⟩
  have hqueue : f.refresh.watcher.queue = [] := (f.queue_reparseAll _).trans hq
  have hfeed : (c.feed.reparseAll c.feed.watcher.watchList).plan = f.refresh := by
    rw [h.feed, Feed.withQueue_of_queue hq]
    rfl
  have hcomes := comes_agenda (w := ⟨plan, none, none⟩) hi rfl c.feed c.feed.watcher.watchList
  have hturn : Comes _ c _ := .head (i := c.workers.length - 1) (by
    rw [act_works hw]
    simp only [turn, hmail, hdue', if_true]
    exact hcomes)
  refine ⟨_, hturn.reaches, ?_, ?_, h.caller, fun _ => ⟨_, newest?_put_last hi .., fun _ => ?_⟩⟩
  · exact hfeed.trans (Feed.withQueue_of_queue hqueue).symm
  · exact hmail.trans (by rw [hqueue]; rfl)
  · rw [hfeed]

lemma reaches_loading (e : Errand) (f : Feed) :
    Reaches [] { c with feed := f, caller := .loading e }
      { c with feed := e.finish f, caller := .free } := by
  induction hn : e.stage.remaining using Nat.strong_induction_on generalizing e f with
  | _ n ih =>
    refine Reaches.trans (reaches_act (a := .proceeds) (by simp) _) ?_
    rw [e.finish_of_proceed f]
    simp only [act]
    rcases hp : e.proceed f with ⟨_ | e', g⟩
    · exact .refl _
    · exact ih _ (hn ▸ Errand.remaining_of_proceed hp) e' g rfl

lemma Mirrors.load (h : Mirrors f c) (file : WatchedFile) :
    ∃ d, Reaches [.watcher (.load file)] c d ∧ Mirrors (f.load file).2 d := by
  have hfirst := reaches_act (a := .calls (.load file)) (by simp) c
  have hrest := reaches_loading (c := c) ⟨.load, file.path, file, .seeking⟩
    { c.feed with watcher := c.feed.watcher.know file }
  have hact : c.act (.calls (.load file)) =
      { c with
        feed := { c.feed with watcher := c.feed.watcher.know file }
        caller := .loading ⟨.load, file.path, file, .seeking⟩ } := by
    simp [act, h.isFree, call]
  rw [hact] at hfirst
  refine ⟨_, hfirst.trans hrest, ?_⟩
  have hfeed : (c.feed.load file).2 = (f.load file).2.withQueue [] := by
    rw [h.feed, Feed.load_withQueue]
  have hw : (f.load file).2.watcher = f.watcher.know file := (f.load_spec file).2.1
  refine ⟨hfeed, ?_, rfl, fun hrun => ?_⟩
  · rw [hw]
    exact h.mail
  · rw [hw] at hrun ⊢
    exact h.worker hrun

lemma Mirrors.start (h : Mirrors f c) :
    ∃ d, Reaches [.watcher .start] c d ∧ Mirrors f.launch.2 d := by
  have hfirst := reaches_act (a := .calls .start) (by simp) c
  have hlaunch : c.feed.launch = (f.launch.1, f.launch.2.withQueue []) := by
    rw [h.feed, Feed.launch_withQueue]
  have hrunning : c.feed.watcher.running = f.watcher.running := by rw [h.feed]; rfl
  have hl := f.launched
  generalize f.launch = out at hl hlaunch ⊢
  cases hl with
  | runs hr =>
    have hact : c.act (.calls .start) = c := by
      simp [act, h.isFree, call, hlaunch, hrunning, hr]
    rw [hact] at hfirst
    exact ⟨c, hfirst, h⟩
  | refused hr hs =>
    simp only [act, h.isFree, call, hlaunch, if_true] at hfirst
    exact ⟨_, hfirst, rfl, h.mail, h.caller, h.worker⟩
  | @started n host hr hs =>
    simp only [act, h.isFree, call, hlaunch, hrunning, hr, if_true, Bool.false_eq_true,
      if_false] at hfirst
    have htimed : c.timed = !f.watcher.refresh.isNonpositive := by rw [timed, h.feed]; rfl
    cases hsign : f.watcher.refresh.isNonpositive with
    | true =>
      rw [hsign] at htimed
      refine ⟨_, hfirst, rfl, h.mail, h.caller,
        fun _ => ⟨.zero, by simp [newest?, recruit, htimed], fun hpos => ?_⟩⟩
      exact absurd (hsign.symm.trans hpos) (by simp)
    | false =>
      -- a worker that reads by itself plans first when it does so
      rw [hsign] at htimed
      generalize hd : ({ c with feed := _, workers := _ } : Crew) = d at hfirst
      have hworker : d.newest? = some ⟨.zero, some [], none⟩ := by
        simp [← hd, newest?, recruit, htimed]
      rw [newest?_eq] at hworker
      have hi := lt_length_of_worker? hworker
      have hcomes := comes_agenda (w := ⟨.zero, none, none⟩) hi rfl d.feed []
      rw [show ({ d with feed := d.feed } : Crew) = d from rfl, put_self hworker] at hcomes
      refine ⟨_, hfirst.trans hcomes.reaches, ?_, ?_, ?_,
        fun _ => ⟨_, newest?_put_last hi .., fun _ => ?_⟩⟩
      · rw [← hd]
        rfl
      · rw [← hd]
        exact h.mail
      · rw [← hd]
        exact h.caller
      · rw [← hd]
        rfl

lemma Mirrors.stop (h : Mirrors f c) (hrests : f.Rests) :
    ∃ d, Reaches [.watcher .stop] c d ∧ Mirrors f.stop d := by
  have hfirst := reaches_act (a := .calls .stop) (by simp) c
  have hrunning : c.feed.watcher.running = f.watcher.running := by rw [h.feed]; rfl
  cases hr : f.watcher.running with
  | false =>
    simp only [act, h.isFree, call, hrunning, hr, if_true, Bool.false_eq_true, if_false] at hfirst
    rw [Feed.stop, hr]
    exact ⟨c, hfirst, h⟩
  | true =>
    simp only [act, h.isFree, call, hrunning, hr, if_true] at hfirst
    obtain ⟨plan, hw, -⟩ := h.worker hr
    rw [newest?_eq] at hw
    have hi := lt_length_of_worker? hw
    have hmail : c.mail ++ [none] = [none] := by rw [h.mail, hrests hr]; rfl
    rw [hmail] at hfirst
    generalize hd : ({ c with feed := _, mail := _, caller := _ } : Crew) = d at hfirst
    have hworker : d.worker? (c.workers.length - 1) = some ⟨plan, none, none⟩ := by
      rw [← hd]
      exact hw
    have hturn := reaches_act (a := .works (c.workers.length - 1)) (by simp) d
    have hleave : (d.act (.works (c.workers.length - 1))).act .proceeds =
        ({ d with mail := [] }.put (c.workers.length - 1) none).leave := by
      have hn : ({ d with mail := [] }.put (c.workers.length - 1) none).newest? = none := by
        rw [← hd]
        exact newest?_put_last hi c.feed.hush [] none
      rw [act_works hworker]
      simp only [turn, show d.mail = [none] by rw [← hd]]
      simp only [act, show ({ d with mail := [] }.put (c.workers.length - 1) none).caller =
        .stopping by rw [← hd]; rfl, hn]
      rfl
    have hend := reaches_act (a := .proceeds) (by simp) (d.act (.works (c.workers.length - 1)))
    rw [hleave] at hend
    have hstop : f.stop = f.hush.rest := by rw [Feed.stop, if_pos hr]
    refine ⟨_, hfirst.trans (hturn.trans hend), ?_, ?_, rfl, fun hrun => ?_⟩
    · rw [hstop, ← hd, h.feed]
      rfl
    · rw [hstop]
      exact (congrArg (List.map some) (hrests hr)).symm
    · rw [hstop] at hrun
      exact absurd hrun Bool.false_ne_true

/-! ### Whole runs -/

lemma Mirrors.happening (h : Mirrors f c) (hrests : f.Rests) (hap : Happening) :
    ∃ d, Reaches [.happening hap] c d ∧ Mirrors (f.happen hap).2 d := by
  have hfirst := reaches_act (a := .happens hap) (by simp) c
  obtain ⟨queue, hw⟩ := f.watcher_happening hap
  have hask : Mirrors (f.ask (.happening hap)) (c.act (.happens hap)) :=
    h.ask (by rw [hw]) (by rw [hw]) (by rw [hw])
  cases hap with
  | change ch =>
    simp only [Feed.happen, Feed.see]
    simp only [Feed.ask] at hask
    cases hd : f.world.host.delivers ch with
    | false =>
      rw [hd] at hask
      exact ⟨_, hfirst, hask⟩
    | true =>
      cases hc : ch.renews with
      | false =>
        rw [hd, hc] at hask
        exact ⟨_, hfirst, hask⟩
      | true =>
        rw [hd, hc] at hask
        obtain ⟨d, hrest, hdrained⟩ := hask.drain
        exact ⟨d, hfirst.trans hrest, hdrained⟩
  | pass seconds =>
    simp only [Feed.happen, Feed.advance]
    split
    · next hdue =>
      have hr : f.watcher.running = true := by
        simp only [Watcher.isDue, Bool.and_eq_true] at hdue
        exact hdue.1.1
      obtain ⟨d, hrest, hrefreshed⟩ := hask.refresh (hrests hr) hdue
      exact ⟨d, hfirst.trans hrest, hrefreshed⟩
    · exact ⟨_, hfirst, hask⟩
  | _ => exact ⟨_, hfirst, hask⟩

lemma Mirrors.call (h : Mirrors f c) (hrests : f.Rests) (call : WatcherCall) :
    ∃ d, Reaches [.watcher call] c d ∧ Mirrors (f.call call).2 d := by
  have hfirst := reaches_act (a := .calls call) (by simp) c
  have hact : c.act (.calls call) = c.call call := by simp [act, h.isFree]
  rw [hact] at hfirst
  cases call with
  | start =>
    obtain ⟨d, hlaunched, hd⟩ := h.start
    obtain ⟨d', hrest, hdrained⟩ := hd.drain
    exact ⟨d', hlaunched.trans hrest, hdrained⟩
  | stop => exact h.stop hrests
  | notify path =>
    obtain ⟨queue, hw⟩ := f.watcher_enqueue path
    have hw' : (f.ask (.watcher (.notify path))).watcher = { f.watcher with queue } := hw
    have hask : Mirrors (f.ask (.watcher (.notify path))) (c.ask (.watcher (.notify path))) :=
      h.ask (by rw [hw']) (by rw [hw']) (by rw [hw'])
    obtain ⟨d, hrest, hdrained⟩ := hask.drain
    exact ⟨d, hfirst.trans hrest, hdrained⟩
  | watchList => exact ⟨c, hfirst, h⟩
  | load file => exact h.load file
  | add file =>
    have hadded := f.added file
    have hask : Mirrors (f.add file).2 (c.ask (.watcher (.add file))) := by
      refine h.ask (s := .watcher (.add file)) (f.add_spec file).2.2.1 ?_ ?_
      · simp only [Feed.ask]
        generalize f.add file = out at hadded ⊢
        cases hadded <;> rfl
      · simp only [Feed.ask]
        generalize f.add file = out at hadded ⊢
        cases hadded <;> rfl
    exact ⟨_, hfirst, hask⟩

/-- **One step of `Feed.step`** is an act, and then whatever it takes until all are through. -/
lemma Mirrors.step (h : Mirrors f c) (hrests : f.Rests) (s : Step) :
    ∃ d, Reaches ([s].filter Step.isAct) c d ∧ Mirrors (f.step s).2 d := by
  cases s with
  | happening hap => exact h.happening hrests hap
  | watcher call => exact h.call hrests call
  | observers | table _ => exact ⟨c, .refl c, h⟩

/-- **The runs of `Feed.run`** are those in which nobody is interrupted. -/
theorem exists_run_mirrors (h : Mirrors f c) (hrests : f.Rests) (steps : List Step) :
    ∃ acts, .givesUp ∉ acts ∧ acts.filterMap Act.step? = steps.filter Step.isAct ∧
      Mirrors (f.run steps) (c.run acts) := by
  have hreaches : ∃ d, Reaches (steps.filter Step.isAct) c d ∧ Mirrors (f.run steps) d := by
    induction steps generalizing f c with
    | nil => exact ⟨c, .refl c, h⟩
    | cons s steps ih =>
      obtain ⟨d, hfirst, hmirrors⟩ := h.step hrests s
      obtain ⟨d', hrest, hend⟩ := ih hmirrors (Paced.works_step hrests s).1
      refine ⟨d', ?_, hend⟩
      rw [← List.singleton_append, List.filter_append]
      exact hfirst.trans hrest
  obtain ⟨d, ⟨acts, hpatient, hsteps, hrun⟩, hmirrors⟩ := hreaches
  exact ⟨acts, hpatient, hsteps, hrun ▸ hmirrors⟩

end Crew

end RouterAgent
