import RouterAgent.Proofs.Crew.Account

/-!
What waits for the workers of a crew, and how long there are workers.

A file is known as soon as it is loaded, or added after the watcher was once started. The paths of
known files that others ask for wait in the order of asking, and the workers take them in this
order. The watcher is on from a start that is a success until it is to be stopped.
-/

namespace RouterAgent

open RouterAgent.Number RouterAgent.Lease RouterAgent.Client

namespace Feed

variable {f g : Feed}

lemma watcher_launch_of_ok (h : f.launch = (.ok (), g)) :
    g.watcher.running = true ∧ g.watcher.files = f.watcher.files ∧
      g.watcher.observer.isSome = (!f.watcher.running || f.watcher.observer.isSome) := by
  have hl := f.launched
  rw [h] at hl
  cases hl with
  | runs hr => simp [hr]
  | started hr hs => simp [hr, Feed.plan]

lemma watcher_launch_of_error {fault : Fault} (h : f.launch = (.error fault, g)) :
    g.watcher = f.watcher ∧ g.table = f.table := by
  have hl := f.launched
  rw [h] at hl
  cases hl
  exact ⟨rfl, rfl⟩

lemma watcher_enqueue (f : Feed) (path : String) :
    ∃ queue, (f.enqueue path).watcher = { f.watcher with queue } := by
  unfold enqueue Watcher.notify
  split <;> exact ⟨_, rfl⟩

lemma watcher_happening (f : Feed) (hap : Happening) :
    ∃ queue, (f.ask (.happening hap)).watcher = { f.watcher with queue } := by
  cases hap with
  | change ch =>
    simp only [ask]
    split
    · exact f.watcher_enqueue ch.target
    · exact ⟨f.watcher.queue, rfl⟩
  | _ => exact ⟨f.watcher.queue, rfl⟩

lemma phase_enqueue (f : Feed) (path : String) :
    (f.enqueue path).watcher.phase = f.watcher.phase := by
  obtain ⟨queue, h⟩ := f.watcher_enqueue path
  rw [h]

lemma phase_happening (f : Feed) (hap : Happening) :
    (f.ask (.happening hap)).watcher.phase = f.watcher.phase := by
  obtain ⟨queue, h⟩ := f.watcher_happening hap
  rw [h]

lemma watcher_add (f : Feed) (file : WatchedFile) :
    (f.add file).2.watcher.observer = f.watcher.observer ∧
      (f.add file).2.watcher.running = f.watcher.running ∧
      (f.add file).2.watcher.phase = f.watcher.phase ∧
      (f.add file).2.watcher.refresh = f.watcher.refresh := by
  have h := f.added file
  generalize f.add file = out at h ⊢
  cases h <;> exact ⟨rfl, rfl, rfl, rfl⟩

end Feed

namespace Crew

variable {c d : Crew} {a : Act}

/-! ### What stays -/

/-- The crew goes on with the same caller, and its watcher with at most another phase and plan. -/
structure Keeps (c d : Crew) : Prop where
  watcher : ∃ phase nextRefresh, d.feed.watcher = { c.feed.watcher with phase, nextRefresh }
  caller : d.caller = c.caller
  longest : d.longest = c.longest

lemma keeps_put {f : Feed}
    (hf : ∃ phase nextRefresh, f.watcher = { c.feed.watcher with phase, nextRefresh })
    (mail : List (Option String)) (i : ℕ) (w : Option Worker) :
    c.Keeps ({ c with feed := f, mail }.put i w) := ⟨hf, rfl, rfl⟩

lemma keeps_send (c : Crew) (mail : List (Option String)) (i : ℕ) (w : Worker)
    (occasion : Occasion) (path : String) :
    c.Keeps ({ c with mail }.send i w occasion path) ∧
      ({ c with mail }.send i w occasion path).mail = mail := by
  unfold send
  split
  · exact ⟨keeps_put ⟨_, _, rfl⟩ mail i _, rfl⟩
  · exact ⟨keeps_put (f := c.feed.enter .reparsing) ⟨_, _, rfl⟩ mail i _, rfl⟩

lemma keeps_turned {i : ℕ} {w : Worker} (h : c.Turned i w d) : c.Keeps d := by
  cases h with
  | @goes e e' f he hp =>
    have hw : f.watcher = _ := Errand.watcher_of_proceed hp
    exact keeps_put ⟨_, _, hw⟩ c.mail i _
  | @ends e f he hp =>
    have hw : f.watcher = _ := Errand.watcher_of_proceed hp
    exact keeps_put ⟨.watching, _, congrArg (fun w : Watcher => { w with phase := .watching }) hw⟩
      c.mail i _
  | visits he ha => exact (keeps_send c c.mail ..).1
  | @takes path rest he ha hm => exact (keeps_send c rest ..).1
  | leaves | plans | begins | faints | waits => exact ⟨⟨_, _, rfl⟩, rfl, rfl⟩

/-! ### Starts and stops -/

/-- The starts that succeed, as `true`, and the stops, as `false`, that an act makes. -/
def switches (c : Crew) : Act → List Bool
  | .calls .start => if c.isFree && c.feed.launch.1.isOk then [true] else []
  | .calls .stop => if c.isFree then [false] else []
  | _ => []

/-- The watcher runs and is not about to stop. -/
def isOn (c : Crew) : Bool := c.feed.watcher.running && !c.isStopping

lemma switches_start_of_ok {f : Feed} (hc : c.isFree = true) (hl : c.feed.launch = (.ok (), f)) :
    c.switches (.calls .start) = [true] := by
  simp [switches, hc, hl, Except.isOk, Except.toBool]

lemma switches_start_of_error {f : Feed} {fault : Fault}
    (hl : c.feed.launch = (.error fault, f)) : c.switches (.calls .start) = [] := by
  simp [switches, hl, Except.isOk, Except.toBool]

lemma isStopping_of_isFree (h : c.isFree = true) : c.isStopping = false := by
  simp [isStopping, isFree_iff.1 h]

lemma isOn_of_eq (hr : d.feed.watcher.running = c.feed.watcher.running)
    (hs : d.isStopping = c.isStopping) : d.isOn = c.isOn := by
  rw [isOn, isOn, hr, hs]

lemma Keeps.isOn (h : c.Keeps d) : d.isOn = c.isOn := by
  obtain ⟨⟨_, _, hw⟩, hc, -⟩ := h
  exact isOn_of_eq (by rw [hw]) (by rw [isStopping, isStopping, hc])

lemma isOn_act (c : Crew) (a : Act) :
    (c.act a).isOn = (c.switches a).getLast?.getD c.isOn := by
  have h := c.acted a
  generalize c.act a = d at h ⊢
  cases h with
  | works hw ht => exact (keeps_turned ht).isOn
  | happens h => exact isOn_of_eq (c.feed.alike_happening h).running rfl
  | @notifies path hc => exact isOn_of_eq (c.feed.alike_enqueue path).running rfl
  | @adds file hc => exact isOn_of_eq (c.feed.add_spec file).2.2.1 rfl
  | refuses hc hl =>
    obtain ⟨hw, -⟩ := Feed.watcher_launch_of_error hl
    rw [switches_start_of_error hl]
    exact isOn_of_eq (by rw [hw]) rfl
  | @starts f hc hr hl =>
    obtain ⟨hr', -, -⟩ := Feed.watcher_launch_of_ok hl
    rw [switches_start_of_ok hc hl]
    change (f.watcher.running && !c.isStopping) = true
    rw [hr', isStopping_of_isFree hc]
    rfl
  | runs hc hr =>
    have hl : c.feed.launch = (.ok (), c.feed) := by simp [Feed.launch, hr]
    rw [switches_start_of_ok hc hl, isOn, hr, isStopping_of_isFree hc]
    rfl
  | stops hc hr => simp [switches, hc, isOn, isStopping]
  | rests hc hr => simp [switches, hc, isOn, hr]
  | loads hc => exact isOn_of_eq rfl (isStopping_of_isFree hc).symm
  | @goes e e' f hc hp | @ends e f hc hp =>
    have hw := Errand.watcher_of_proceed hp
    exact isOn_of_eq (congrArg Watcher.running hw) (by simp [isStopping, hc])
  | leaves hc hn | abandons hc => simp [switches, isOn, leave, Feed.rest, isStopping, hc]
  | @deaf call hc => cases call <;> simp [switches, hc]
  | _ => rfl

theorem isOn_run (c : Crew) (acts : List Act) :
    (c.run acts).isOn = (c.trace switches acts).getLast?.getD c.isOn := by
  induction acts generalizing c with
  | nil => rfl
  | cons a acts ih =>
    rw [run_cons, ih, isOn_act, trace, List.getLast?_append]
    cases ((c.act a).trace switches acts).getLast? <;> rfl

/-! ### Files that are known -/

lemma files_act (c : Crew) (a : Act) :
    (c.act a).feed.watcher.files =
      (c.learns a).foldl (fun files file => files.insert file.path file) c.feed.watcher.files := by
  have h := c.acted a
  generalize c.act a = d at h ⊢
  cases h with
  | works hw ht =>
    obtain ⟨_, _, h⟩ := (keeps_turned ht).watcher
    rw [h]
    rfl
  | happens h => exact (c.feed.alike_happening h).files
  | @notifies path hc => exact (c.feed.alike_enqueue path).files
  | @adds file hc =>
    refine ((c.feed.add_spec file).2.2.2).trans ?_
    cases ho : c.feed.watcher.observer.isSome <;> simp [learns, hc, ho]
  | refuses hc hl => exact congrArg Watcher.files (Feed.watcher_launch_of_error hl).1
  | starts hc hr hl => exact (Feed.watcher_launch_of_ok hl).2.1
  | loads hc => simp [learns, hc, Watcher.know]
  | @goes e e' f hc hp | @ends e f hc hp =>
    have hw := Errand.watcher_of_proceed hp
    exact congrArg Watcher.files hw
  | @deaf call hc => cases call <;> simp [learns, hc]
  | _ => rfl

lemma contains_insertAll (files : OrderedMap String WatchedFile) (news : List WatchedFile)
    (path : String) :
    (news.foldl (fun files file => files.insert file.path file) files).contains path = true ↔
      files.contains path = true ∨ ∃ file ∈ news, file.path = path := by
  induction news generalizing files with
  | nil => simp
  | cons file news ih =>
    have hinsert : (files.insert file.path file).contains path = true ↔
        file.path = path ∨ files.contains path = true := by
      unfold OrderedMap.contains
      rw [OrderedMap.get?_insert]
      split
      · next h => simp [h]
      · next h => simp [Ne.symm h]
    rw [List.foldl_cons, ih, hinsert]
    simp only [List.mem_cons, exists_eq_or_imp]
    tauto

/-- **A file is known** since it was loaded, or added to a watcher that was once started. -/
theorem contains_run (c : Crew) (acts : List Act) (path : String) :
    (c.run acts).feed.watcher.files.contains path = true ↔
      c.feed.watcher.files.contains path = true ∨
        ∃ file ∈ c.trace learns acts, file.path = path := by
  induction acts generalizing c with
  | nil => simp [trace]
  | cons a acts ih =>
    rw [run_cons, ih, files_act, contains_insertAll, trace]
    simp only [List.mem_append, or_and_right, exists_or, or_assoc]

/-! ### What waits -/

/-- Nothing waits in the watcher's own queue, and each path that waits is known; a watcher that runs
has an observer; and what a caller reads is to be loaded. -/
structure Filed (c : Crew) : Prop where
  queue : c.feed.watcher.queue = []
  known : ∀ path ∈ c.waiting, c.feed.watcher.files.contains path = true
  observed : c.feed.watcher.running = true → c.feed.watcher.observer.isSome = true
  loads : ∀ e, c.loading? = some e → e.occasion = .load

lemma filed_new (w : World) (refresh : Binary64) (longest : Option Binary64) :
    (new w refresh longest).Filed :=
  ⟨rfl, by simp [waiting, new], by simp [new, Watcher.new], by simp [loading?, new]⟩

lemma requests_happens (c : Crew) (h : Happening) :
    c.requests (.happens h) = c.feed.requested (.happening h) := by
  cases h with
  | change ch =>
    simp only [requests, Feed.requested, Change.target, Change.renews, Bool.and_eq_true,
      Bool.not_eq_true', List.contains_iff_mem, and_assoc]
  | _ => rfl

lemma requests_notify (hc : c.isFree = true) (path : String) :
    c.requests (.calls (.notify path)) = c.feed.requested (.watcher (.notify path)) := by
  simp [requests, Feed.requested, hc]

lemma waiting_ask (h : c.Filed) (s : Step) :
    (c.ask s).waiting = c.waiting ++ c.feed.requested s := by
  have hqueue := c.feed.queue_ask s
  rw [h.queue, List.nil_append] at hqueue
  simp [ask, waiting, hqueue]

def takes (c : Crew) (a : Act) : List String := (c.begins a).filterMap Errand.notice?

/-- **First in, first out**: what waits and what an act asks for is what the act takes and what
waits afterwards. -/
theorem waiting_act (h : c.Filed) (a : Act) :
    c.waiting ++ c.requests a = c.takes a ++ (c.act a).waiting := by
  have hacted := c.acted a
  generalize c.act a = d at hacted ⊢
  have hnone {a : Act} {d : Crew} (hr : c.requests a = []) (ht : c.takes a = [])
      (hd : d.waiting = c.waiting) : c.waiting ++ c.requests a = c.takes a ++ d.waiting := by
    rw [hr, ht, hd, List.append_nil, List.nil_append]
  cases hacted with
  | happens hap => exact (c.requests_happens hap ▸ waiting_ask h _).symm
  | @notifies path hc => exact (requests_notify hc path ▸ waiting_ask h _).symm
  | @adds file hc => exact hnone rfl rfl ((waiting_ask h _).trans (List.append_nil _))
  | stops hc hr => exact hnone rfl rfl (by simp [waiting])
  | @loads file hc => exact hnone rfl (by simp [takes, begins, hc, Errand.notice?]) rfl
  | @deaf call hc =>
    exact hnone (by cases call <;> simp [requests, hc])
      (by cases call <;> simp [takes, begins, hc]) rfl
  | gone hw => exact hnone rfl (by simp [takes, begins_gone hw]) rfl
  | @works i w d hw ht =>
    have htakes (hn : ∀ e ∈ c.next? w, e.notice? = none) : c.takes (.works i) = [] := by
      rw [takes, begins_works hw]
      cases he : c.next? w with
      | none => rfl
      | some e => simp [hn e he]
    cases ht with
    | @takes path rest he ha hm =>
      have hmem : path ∈ c.waiting := by simp [waiting, hm]
      obtain ⟨file, hfile⟩ := Option.isSome_iff_exists.1 (h.known path hmem)
      have hpath : c.takes (.works i) = [path] := by
        simp [takes, begins_works hw, next?_takes he ha hm, errandFor, hfile, Errand.notice?]
      rw [hpath, waiting, waiting, (keeps_send c rest i w .notice path).2, hm]
      simp [requests]
    | @visits path rest he ha =>
      refine hnone rfl (htakes fun e hmem => ?_)
        (congrArg (List.filterMap id) (keeps_send c c.mail i _ .refresh path).2)
      rw [next?_visits he ha] at hmem
      obtain ⟨file, -, rfl⟩ := Option.map_eq_some_iff.1 hmem
      rfl
    | leaves he ha hm =>
      exact hnone rfl (htakes (by simp [next?, he, ha, hm])) (by simp [waiting, put, hm])
    | plans he ha => exact hnone rfl (htakes (by simp [next?, he, ha])) rfl
    | goes he hp => exact hnone rfl (htakes (by simp [next?, he])) rfl
    | ends he hp => exact hnone rfl (htakes (by simp [next?, he])) rfl
    | begins he ha hm hd => exact hnone rfl (htakes (by simp [next?, he, ha, hm])) rfl
    | faints he ha hm hd hf => exact hnone rfl (htakes (by simp [next?, he, ha, hm])) rfl
    | waits he ha hm hd hf => exact hnone rfl (htakes (by simp [next?, he, ha, hm])) rfl
  | _ => exact hnone rfl rfl rfl

lemma known_of_requests {path : String} (h : path ∈ c.requests a) :
    c.feed.watcher.files.contains path = true := by
  unfold requests at h
  split at h
  · simp only [List.mem_ite_nil_right] at h
    obtain ⟨⟨-, -, -, hk⟩, hpath⟩ := h
    rw [List.mem_singleton.1 hpath]
    exact hk
  · rw [List.mem_ite_nil_right] at h
    obtain ⟨⟨-, hk⟩, hpath⟩ := h
    rw [List.mem_singleton.1 hpath]
    exact hk
  · simp at h

lemma queue_act (h : c.feed.watcher.queue = []) (a : Act) :
    (c.act a).feed.watcher.queue = [] := by
  have hacted := c.acted a
  generalize c.act a = d at hacted ⊢
  have hlaunch := c.feed.queue_launch
  cases hacted with
  | works hw ht =>
    obtain ⟨_, _, hd⟩ := (keeps_turned ht).watcher
    rw [hd, h]
  | refuses hc hl | starts hc hr hl =>
    rw [hl] at hlaunch
    exact hlaunch.trans h
  | @goes e e' f hc hp | @ends e f hc hp =>
    have hw := Errand.watcher_of_proceed hp
    exact (congrArg Watcher.queue hw).trans h
  | happens | notifies | adds => rfl
  | _ => exact h

lemma observer_act (h : c.feed.watcher.running = true → c.feed.watcher.observer.isSome = true)
    (a : Act) :
    (c.act a).feed.watcher.observer.isSome =
        (c.feed.watcher.observer.isSome || (c.switches a).contains true) ∧
      ((c.act a).feed.watcher.running = true →
        (c.act a).feed.watcher.observer.isSome = true) := by
  have hacted := c.acted a
  generalize c.act a = d at hacted ⊢
  have hsame {a : Act} {d : Crew} (hs : (c.switches a).contains true = false)
      (hr : d.feed.watcher.running = true → c.feed.watcher.running = true)
      (ho : d.feed.watcher.observer = c.feed.watcher.observer) :
      d.feed.watcher.observer.isSome =
          (c.feed.watcher.observer.isSome || (c.switches a).contains true) ∧
        (d.feed.watcher.running = true → d.feed.watcher.observer.isSome = true) := by
    rw [ho, hs, Bool.or_false]
    exact ⟨rfl, fun hd => h (hr hd)⟩
  have hask {a : Act} {s : Step} (hs : (c.switches a).contains true = false)
      (hr : (c.feed.ask s).watcher.running = c.feed.watcher.running)
      (ho : (c.feed.ask s).watcher.observer = c.feed.watcher.observer) :=
    hsame (a := a) (d := c.ask s) hs (fun hd => hr.symm.trans hd) ho
  cases hacted with
  | works hw ht =>
    obtain ⟨_, _, hd⟩ := (keeps_turned ht).watcher
    exact hsame rfl (by rw [hd]; exact id) (by rw [hd])
  | happens hap =>
    exact hask rfl (c.feed.alike_happening hap).running (c.feed.alike_happening hap).observer
  | @notifies path hc =>
    exact hask rfl (c.feed.alike_enqueue path).running (c.feed.alike_enqueue path).observer
  | @adds file hc =>
    obtain ⟨hobserver, hrunning, -, -⟩ := c.feed.watcher_add file
    exact hask rfl hrunning hobserver
  | refuses hc hl =>
    obtain ⟨hw, -⟩ := Feed.watcher_launch_of_error hl
    exact hsame (by rw [switches_start_of_error hl]; rfl) (hw ▸ id) (by rw [hw])
  | starts hc hr hl =>
    obtain ⟨-, -, ho⟩ := Feed.watcher_launch_of_ok hl
    rw [hr, Bool.not_false, Bool.true_or] at ho
    rw [switches_start_of_ok hc hl]
    exact ⟨by simp [ho], fun _ => ho⟩
  | runs hc hr => exact ⟨by simp [h hr], h⟩
  | stops hc hr | rests hc hr => exact hsame (by simp [switches, hc]) id rfl
  | @goes e e' f hc hp | @ends e f hc hp =>
    have hw : f.watcher = _ := Errand.watcher_of_proceed hp
    exact hsame rfl (fun hd => (congrArg Watcher.running hw).symm.trans hd)
      (congrArg Watcher.observer hw)
  | leaves hc hn | abandons hc => exact hsame rfl (by simp [leave, Feed.rest]) rfl
  | @deaf call hc => exact hsame (by cases call <;> simp [switches, hc]) id rfl
  | _ => exact hsame rfl id rfl

lemma loading_act (h : ∀ e, c.loading? = some e → e.occasion = .load) (a : Act) :
    ∀ e, (c.act a).loading? = some e → e.occasion = .load := by
  have hacted := c.acted a
  generalize c.act a = d at hacted ⊢
  have hsame {d : Crew} (hd : d.caller = c.caller) :
      ∀ e, d.loading? = some e → e.occasion = .load := by
    unfold loading? at h ⊢
    rwa [hd]
  cases hacted with
  | works hw ht => exact hsame (keeps_turned ht).caller
  | loads hc =>
    rintro e ⟨⟩
    rfl
  | @goes e e' f hc hp =>
    rintro _ ⟨⟩
    have htask := Errand.task_of_proceed hp
    exact (congrArg Errand.occasion htask).trans (h e (loading?_eq_some_iff.2 hc))
  | ends hc hp | stops hc hr | leaves hc hn | abandons hc => simp [loading?, leave]
  | _ => exact hsame rfl

lemma Filed.act (h : c.Filed) (a : Act) : (c.act a).Filed := by
  refine ⟨queue_act h.queue a, fun path hpath => ?_, (observer_act h.observed a).2,
    loading_act h.loads a⟩
  rw [files_act, contains_insertAll]
  have hmem : path ∈ c.waiting ++ c.requests a := by
    rw [waiting_act h a]
    exact List.mem_append_right _ hpath
  rcases List.mem_append.1 hmem with hw | hr
  · exact .inl (h.known path hw)
  · exact .inl (known_of_requests hr)

lemma Filed.run (h : c.Filed) (acts : List Act) : (c.run acts).Filed := by
  induction acts generalizing c with
  | nil => exact h
  | cons a acts ih => exact ih (h.act a)

lemma observer_run (h : c.Filed) (acts : List Act) :
    (c.run acts).feed.watcher.observer.isSome =
      (c.feed.watcher.observer.isSome || (c.trace switches acts).contains true) := by
  induction acts generalizing c with
  | nil => simp [trace]
  | cons a acts ih =>
    rw [run_cons, ih (h.act a), (observer_act h.observed a).1, trace, List.contains_append,
      Bool.or_assoc]

theorem waiting_run (h : c.Filed) (acts : List Act) :
    c.waiting ++ c.trace requests acts =
      (c.trace begins acts).filterMap Errand.notice? ++ (c.run acts).waiting := by
  induction acts generalizing c with
  | nil => simp [trace]
  | cons a acts ih =>
    calc c.waiting ++ (c.requests a ++ (c.act a).trace requests acts)
        = c.takes a ++ ((c.act a).waiting ++ (c.act a).trace requests acts) := by
          rw [← List.append_assoc, waiting_act h a, List.append_assoc]
      _ = (c.begins a ++ (c.act a).trace begins acts).filterMap Errand.notice? ++
            ((c.act a).run acts).waiting := by
          rw [ih (h.act a), List.filterMap_append, List.append_assoc]
          rfl

end Crew

end RouterAgent
