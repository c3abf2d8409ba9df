import RouterAgent.Proofs.Crew.Alone
import RouterAgent.Proofs.Router.Warmup

/-!
A warm-up at which a worker is at work.

While a caller loads files and adds them, time passes and the worker has its turns. As long as no
round of the worker comes due, the table is that of a warm-up in which nothing else happens.
-/

namespace RouterAgent

open RouterAgent.Number RouterAgent.Lease RouterAgent.Client

/-! ### Feeds in which readers find the same -/

lemma Host.twin_startObserver {h g : Host} {result : Except Fault Nat}
    (hs : h.startObserver = (result, g)) : h.Twin g := by
  unfold startObserver at hs
  split at hs
  · obtain ⟨-, rfl⟩ := Prod.mk.inj hs
    exact .refl h
  · split at hs
    all_goals
      obtain ⟨-, rfl⟩ := Prod.mk.inj hs
      exact ⟨_, _, rfl⟩

namespace World

/-- The world after files were loaded, as far as readers can tell. -/
def afterAll (w : World) : List WatchedFile → World
  | [] => w
  | file :: files =>
    if w.host.holds file.path then (w.parse .watching file).2.afterAll files else w.afterAll files

lemma afterAll_append (w : World) (as bs : List WatchedFile) :
    w.afterAll (as ++ bs) = (w.afterAll as).afterAll bs := by
  induction as generalizing w with
  | nil => rfl
  | cons file as ih =>
    rw [List.cons_append, afterAll, afterAll]
    split <;> exact ih _

lemma findings_append (w : World) (as bs : List WatchedFile) :
    w.findings (as ++ bs) = w.findings as ++ (w.afterAll as).findings bs := by
  induction as generalizing w with
  | nil => rfl
  | cons file as ih =>
    rw [List.cons_append, findings, findings, afterAll]
    split
    · rw [ih, List.append_assoc]
    · exact ih w

lemma findings_singleton (w : World) (file : WatchedFile) :
    w.findings [file] = ((w.finding? file).map fun batch => ⟨file.path, batch⟩).toList := by
  rw [findings, w.finding?_eq_parse .watching]
  split <;> simp [findings]

lemma Twin.finding? {w v : World} (h : w.Twin v) (file : WatchedFile) :
    v.finding? file = w.finding? file := by
  rw [World.finding?, World.finding?, h.host.holds, h.host.gives, h.turn]

lemma Twin.afterAll {w v : World} (h : w.Twin v) (files : List WatchedFile) :
    (w.afterAll files).Twin (v.afterAll files) := by
  induction files generalizing w v with
  | nil => exact h
  | cons file files ih =>
    rw [World.afterAll, World.afterAll, h.host.holds]
    split
    · exact ih (h.parse .watching .watching file).2
    · exact ih h

end World

namespace Feed

lemma table_load (f : Feed) (file : WatchedFile) :
    (f.load file).2.table = f.table.replay (f.world.findings [file]) := by
  rw [(f.load_spec file).1, contribution_loading_eq, World.findings_singleton]

/-- Feeds with one table, in worlds in which readers find the same. -/
structure Kin (f g : Feed) : Prop where
  table : g.table = f.table
  world : f.world.Twin g.world

lemma Kin.refl (f : Feed) : f.Kin f := ⟨rfl, .refl f.world⟩

lemma Kin.trans {f g h : Feed} (hf : f.Kin g) (hg : g.Kin h) : f.Kin h :=
  ⟨hg.table.trans hf.table, hf.world.trans hg.world⟩

lemma Kin.seek {f g : Feed} (h : f.Kin g) (occasion : Occasion) (path : String) :
    (g.seek occasion path).1 = (f.seek occasion path).1 ∧
      (f.seek occasion path).2.Kin (g.seek occasion path).2 := by
  obtain ⟨hf, hfnotes⟩ := f.seek_spec occasion path
  obtain ⟨hg, hgnotes⟩ := g.seek_spec occasion path
  have hfinds : g.finds occasion path = f.finds occasion path := by
    cases occasion with
    | load => exact h.world.host.holds path
    | notice | refresh => simp only [finds, h.world.host.size?]
  refine ⟨by rw [hf, hg, hfinds], ?_⟩
  obtain ⟨_, hfseek⟩ := hfnotes
  obtain ⟨_, hgseek⟩ := hgnotes
  rw [hfseek, hgseek]
  exact ⟨h.table, h.world.host, h.world.calls⟩

lemma Kin.parse {f g : Feed} (h : f.Kin g) (file : WatchedFile) :
    (g.parse file).1 = (f.parse file).1 ∧ (f.parse file).2.Kin (g.parse file).2 := by
  obtain ⟨hresult, hworld⟩ := h.world.parse f.watcher.phase g.watcher.phase file
  exact ⟨hresult, h.table, hworld⟩

lemma Kin.take {f g : Feed} (h : f.Kin g) (occasion : Occasion) (path : String)
    (result : Except Fault (List Client)) :
    (f.take occasion path result).2.Kin (g.take occasion path result).2 := by
  obtain ⟨_, hf⟩ := f.notes_take occasion path result
  obtain ⟨_, hg⟩ := g.notes_take occasion path result
  rw [hf, hg]
  exact ⟨congrArg (Table.replay · (contributed path result)) h.table, h.world.host, h.world.calls⟩

lemma kin_launch (f : Feed) : f.Kin f.launch.2 := by
  have h := f.launched
  generalize f.launch = out at h ⊢
  cases h with
  | runs => exact .refl f
  | refused hr hs => exact ⟨rfl, Host.twin_startObserver hs, rfl⟩
  | started hr hs => exact ⟨rfl, Host.twin_startObserver hs, rfl⟩

lemma kin_hush (f : Feed) : f.Kin f.hush := by
  refine ⟨rfl, ?_, rfl⟩
  unfold hush
  cases f.watcher.observer with
  | none => exact .refl _
  | some n => exact ⟨_, _, rfl⟩

lemma kin_add (f : Feed) (file : WatchedFile) : f.Kin (f.add file).2 :=
  ⟨(f.add_spec file).1.table, Host.twin_of_observers (f.host_add file), f.calls_add file⟩

end Feed

lemma Feed.Kin.finish {f g : Feed} (h : f.Kin g) (e : Errand) : (e.finish f).Kin (e.finish g) := by
  have hask {f g : Feed} (h : f.Kin g) :
      ((f.parse e.file).2.take e.occasion e.path (f.parse e.file).1).2.Kin
        ((g.parse e.file).2.take e.occasion e.path (g.parse e.file).1).2 := by
    obtain ⟨hresult, hparse⟩ := h.parse e.file
    rw [hresult]
    exact hparse.take ..
  unfold Errand.finish
  cases e.stage with
  | seeking =>
    obtain ⟨hthere, hseek⟩ := h.seek e.occasion e.path
    simp only [Feed.read]
    generalize f.seek e.occasion e.path = out at hthere hseek ⊢
    generalize g.seek e.occasion e.path = out' at hthere hseek ⊢
    obtain ⟨there, f'⟩ := out
    obtain ⟨_, g'⟩ := out'
    obtain rfl : _ = there := hthere
    split
    · exact hask hseek
    · exact hseek
  | asking => exact hask h
  | answered result => exact h.take ..

def WatcherCall.loads? : WatcherCall → Option WatchedFile
  | .load file => some file
  | _ => none

lemma loads?_enlisting (files : List WatchedFile) :
    (enlisting files).filterMap WatcherCall.loads? = files := by
  induction files with
  | nil => rfl
  | cons file files ih =>
    rw [enlisting, List.flatMap_cons, List.filterMap_append]
    exact congrArg (file :: ·) ih

/-- Around the watcher nothing happens but that time passes. -/
def Act.isStill : Act → Bool
  | .happens (.pass _) => true
  | .happens _ => false
  | _ => true

namespace Crew

variable {c d : Crew} {a : Act} {i : ℕ} {w : Worker}

/-! ### A caller who is left alone with its load -/

def finished (c : Crew) : Feed :=
  match c.loading? with
  | some e => e.finish c.feed
  | none => c.feed

lemma kin_finished (h : c.feed.Kin d.feed) (hl : d.loading? = c.loading?) :
    c.finished.Kin d.finished := by
  unfold finished
  rw [hl]
  split
  · exact h.finish _
  · exact h

lemma finished_of_isFree (h : c.isFree = true) : c.finished = c.feed := by
  rw [finished, loading?_of_isFree h]

/-! ### Acts that leave the files alone -/

def Unread (c : Crew) : Prop := ∀ i w, c.worker? i = some w → w.errand = none

lemma Unread.of_workers (h : c.Unread) (hw : d.workers = c.workers) : d.Unread :=
  fun i w hi => h i w ((congrArg (fun ws => ws[i]?.join) hw).symm.trans hi)

lemma occasion_of_next? {e : Errand} (h : c.next? w = some e) : e.occasion ≠ .load := by
  unfold next? errandFor at h
  split at h
  · obtain ⟨file, -, rfl⟩ := Option.map_eq_some_iff.1 h
    simp
  · obtain ⟨file, -, rfl⟩ := Option.map_eq_some_iff.1 h
    simp
  · simp at h

lemma Unread.turned (h : c.Unread) (hw : c.worker? i = some w) (ht : c.Turned i w d)
    (hn : c.next? w = none) : d.Unread ∧ c.feed.Kin d.feed := by
  have he := h i w hw
  have hput (f : Feed) (mail : List (Option String)) {w' : Option Worker}
      (he' : ∀ v, w' = some v → v.errand = none) (hk : c.feed.Kin f) :
      ({ c with feed := f, mail }.put i w').Unread ∧
        c.feed.Kin ({ c with feed := f, mail }.put i w').feed := by
    refine ⟨fun j v hj => ?_, hk⟩
    have hi : i < ({ c with feed := f, mail } : Crew).workers.length := lt_length_of_worker? hw
    rw [worker?_put hi] at hj
    split at hj
    · exact he' v hj
    · exact h j v hj
  have hsend {w' : Worker} (he' : w'.errand = none) {mail : List (Option String)}
      {occasion : Occasion} {path : String} (hnone : c.errandFor occasion path = none) :
      ({ c with mail }.send i w' occasion path).Unread ∧
        c.feed.Kin ({ c with mail }.send i w' occasion path).feed := by
    have hf : c.feed.watcher.files.get? path = none := Option.map_eq_none_iff.1 hnone
    simp only [send, hf]
    exact hput c.feed mail (by rintro v ⟨⟩; exact he') (.refl _)
  cases ht with
  | goes he' hp | ends he' hp => simp [he] at he'
  | @visits path rest _ ha =>
    have he' : ({ w with agenda := some rest } : Worker).errand = none := he
    rw [next?_visits he ha] at hn
    exact hsend he' hn
  | @takes path rest _ ha hm =>
    rw [next?_takes he ha hm] at hn
    exact hsend he hn
  | plans _ ha =>
    exact hput c.feed.plan c.mail (by rintro v ⟨⟩; exact he) ⟨rfl, .refl _⟩
  | @leaves rest _ ha hm => exact hput c.feed rest (by simp) (.refl _)
  | begins _ ha hm hd =>
    exact hput c.feed c.mail (by rintro v ⟨⟩; exact he) (.refl _)
  | faints _ ha hm hd hf => exact hput c.feed c.mail (by simp) (.refl _)
  | waits _ ha hm hd hf => exact ⟨h, .refl _⟩

def made (c : Crew) : Act → List WatcherCall
  | .calls call => if c.isFree then [call] else []
  | _ => []

/-- What an act that leaves the files alone comes to, if no worker begins a reading: the caller
starts to load a file, or the table will be the same when the caller has brought its load to the
end. -/
lemma Unread.act (h : c.Unread) (ha : a.isStill = true)
    (hb : ∀ e ∈ c.begins a, e.occasion = .load) :
    (c.act a).Unread ∧
      ((∃ file, c.made a = [.load file] ∧ (c.act a).finished = (c.feed.load file).2) ∨
        (∀ file, .load file ∉ c.made a) ∧ c.finished.Kin (c.act a).finished) := by
  have hacted := c.acted a
  generalize c.act a = d at hacted ⊢
  have hsame {a : Act} {d : Crew} (hm : ∀ file, .load file ∉ c.made a) (hw : d.Unread)
      (hk : c.feed.Kin d.feed) (hl : d.loading? = c.loading?) :
      d.Unread ∧
        ((∃ file, c.made a = [.load file] ∧ d.finished = (c.feed.load file).2) ∨
          (∀ file, .load file ∉ c.made a) ∧ c.finished.Kin d.finished) :=
    ⟨hw, .inr ⟨hm, kin_finished hk hl⟩⟩
  cases hacted with
  | @works i w d hw ht =>
    have hn : c.next? w = none := by
      cases hn : c.next? w with
      | none => rfl
      | some e => exact absurd (hb e (by simp [begins_works hw, hn])) (occasion_of_next? hn)
    obtain ⟨hunread, hkin⟩ := h.turned hw ht hn
    exact hsame (by simp [made]) hunread hkin (by rw [loading?, loading?, (keeps_turned ht).caller])
  | happens hap =>
    cases hap with
    | pass seconds =>
      refine hsame (by simp [made]) (h.of_workers rfl) ⟨rfl, ⟨_, _, rfl⟩, rfl⟩ rfl
    | _ => simp [Act.isStill] at ha
  | @deaf call hc => exact hsame (by simp [made, hc]) h (.refl _) rfl
  | refuses hc hl =>
    have hkin := c.feed.kin_launch
    rw [hl] at hkin
    exact hsame (by simp [made, hc]) (h.of_workers rfl) hkin rfl
  | @starts f hc hr hl =>
    have hkin := c.feed.kin_launch
    rw [hl] at hkin
    refine hsame (by simp [made, hc]) (fun i w hi => ?_) hkin rfl
    rcases worker?_recruited hi with hold | ⟨-, rfl⟩
    · exact h i w hold
    · rfl
  | stops hc hr =>
    refine hsame (by simp [made, hc]) (h.of_workers rfl) c.feed.kin_hush ?_
    exact (loading?_of_isFree hc).symm
  | @loads file hc =>
    exact ⟨h.of_workers rfl, .inl ⟨file, by simp [made, hc], rfl⟩⟩
  | notifies hc => exact hsame (by simp [made, hc]) (h.of_workers rfl) ⟨rfl, .refl _⟩ rfl
  | @adds file hc =>
    obtain ⟨htable, hworld⟩ := c.feed.kin_add file
    exact hsame (by simp [made, hc]) (h.of_workers rfl) ⟨htable, hworld⟩ rfl
  | runs hc hr | rests hc hr | lists hc => exact hsame (by simp [made, hc]) h (.refl _) rfl
  | free | waits | keeps | gone => exact hsame (by simp [made]) h (.refl _) rfl
  | @goes e e' f hc hp =>
    have hfinish := e.finish_of_proceed c.feed
    rw [hp] at hfinish
    have hsame : ({ c with feed := f, caller := .loading e' } : Crew).finished = c.finished := by
      simp only [finished, loading?, hc]
      exact hfinish.symm
    exact ⟨h.of_workers rfl, .inr ⟨by simp [made], hsame ▸ .refl _⟩⟩
  | @ends e f hc hp =>
    have hfinish := e.finish_of_proceed c.feed
    rw [hp] at hfinish
    have hsame : ({ c with feed := f, caller := .free } : Crew).finished = c.finished := by
      simp only [finished, loading?, hc]
      exact hfinish.symm
    exact ⟨h.of_workers rfl, .inr ⟨by simp [made], hsame ▸ .refl _⟩⟩
  | leaves hc hn | abandons hc =>
    exact hsame (by simp [made]) (h.of_workers rfl) ⟨rfl, .refl _⟩ (by simp [loading?, leave, hc])

/-! ### A warm-up without rounds -/

/-- These files were loaded, or will have been when the caller has brought its load to the end. -/
structure Warmed (w : World) (done : List WatchedFile) (c : Crew) : Prop where
  table : c.finished.table = Table.empty.replay (w.findings done)
  world : (w.afterAll done).Twin c.finished.world
  unread : c.Unread

lemma warmed_new (w : World) (refresh : Binary64) (longest : Option Binary64) :
    (new w refresh longest).Warmed w [] :=
  ⟨rfl, .refl w, by simp [Unread, worker?, new]⟩

lemma isFree_of_made (h : c.made a ≠ []) : c.isFree = true := by
  rw [← Bool.not_eq_false]
  intro hfree
  apply h
  unfold made
  split
  · exact if_neg (by simp [hfree])
  · rfl

lemma Warmed.act {w : World} {done : List WatchedFile} (h : c.Warmed w done)
    (ha : a.isStill = true) (hb : ∀ e ∈ c.begins a, e.occasion = .load) :
    (c.act a).Warmed w (done ++ (c.made a).filterMap WatcherCall.loads?) := by
  obtain ⟨htable, hworld, hunread⟩ := h
  obtain ⟨hunread', ⟨file, hmade, hload⟩ | ⟨hmade, hkin⟩⟩ := hunread.act ha hb
  · have hfree : c.finished = c.feed :=
      finished_of_isFree (isFree_of_made (by simp [hmade] : c.made a ≠ []))
    rw [hfree] at htable hworld
    have hloads : (c.made a).filterMap WatcherCall.loads? = [file] := by rw [hmade]; rfl
    refine ⟨?_, ?_, hunread'⟩
    · rw [hload, hloads, w.findings_append, c.feed.table_load, htable, Table.replay_append,
        hworld.findings]
    · rw [hload, hloads, w.afterAll_append]
      exact (hworld.afterAll [file]).trans (c.feed.twin_world_load file)
  · have hloads : (c.made a).filterMap WatcherCall.loads? = [] := by
      rw [List.filterMap_eq_nil_iff]
      intro call hcall
      cases call with
      | load file => exact absurd hcall (hmade file)
      | _ => rfl
    rw [hloads, List.append_nil]
    exact ⟨hkin.table.trans htable, hworld.trans hkin.world, hunread'⟩

/-- **A warm-up without rounds**: whatever turns the workers have and whenever they have them, the
table is that of the loads, in their order. -/
theorem Warmed.run {w : World} {done : List WatchedFile} (h : c.Warmed w done) {acts : List Act}
    (ha : ∀ a ∈ acts, a.isStill = true)
    (hb : ∀ e ∈ c.trace begins acts, e.occasion = .load) :
    (c.run acts).Warmed w (done ++ (c.trace made acts).filterMap WatcherCall.loads?) := by
  induction acts generalizing c done with
  | nil => simpa [trace] using h
  | cons a acts ih =>
    simp only [List.mem_cons, forall_eq_or_imp] at ha
    simp only [trace, List.mem_append, or_imp, forall_and] at hb
    rw [trace, List.filterMap_append, ← List.append_assoc]
    exact ih (h.act ha.1 hb.1) ha.2 hb.2

/-! ### Where there are no rounds -/

/-- Workers do not read by themselves, and nothing waits for them. -/
structure Untimed (c : Crew) : Prop where
  timed : c.timed = false
  waiting : c.waiting = []
  agenda : ∀ i w, c.worker? i = some w → w.agenda = none

lemma untimed_new (w : World) {refresh : Binary64} (longest : Option Binary64)
    (h : refresh.isNonpositive = true) : (new w refresh longest).Untimed :=
  ⟨by simp [timed, new, Watcher.new, h], rfl, by simp [worker?, new]⟩

lemma requests_of_isStill (ha : a.isStill = true) (hm : ∀ path, .notify path ∉ c.made a) :
    c.requests a = [] := by
  cases a with
  | happens hap => cases hap <;> first | rfl | simp [Act.isStill] at ha
  | calls call =>
    cases call with
    | notify path =>
      cases hc : c.isFree with
      | false => simp [requests, hc]
      | true => exact absurd (by simp [made, hc]) (hm path)
    | _ => rfl
  | _ => rfl

lemma Untimed.begins (h : c.Untimed) (a : Act) : ∀ e ∈ c.begins a, e.occasion = .load := by
  intro e he
  cases a with
  | calls call =>
    cases call with
    | load file =>
      simp only [Crew.begins, List.mem_ite_nil_right] at he
      rw [List.mem_singleton.1 he.2]
    | _ => simp [Crew.begins] at he
  | works i =>
    rw [Crew.begins, Option.mem_toList, Option.bind_eq_some_iff] at he
    obtain ⟨w, hw, hnext⟩ := he
    have hagenda := h.agenda i w hw
    have hwaiting := h.waiting
    unfold next? at hnext
    split at hnext
    · next ha => simp [hagenda] at ha
    · next hm => simp [Crew.waiting, hm] at hwaiting
    · simp at hnext
  | _ => simp [Crew.begins] at he

lemma Untimed.act (h : c.Untimed) (hfiled : c.Filed) (ha : a.isStill = true)
    (hm : ∀ path, .notify path ∉ c.made a) : (c.act a).Untimed := by
  have hwaiting := waiting_act hfiled a
  rw [h.waiting, requests_of_isStill ha hm] at hwaiting
  refine ⟨?_, (List.append_eq_nil_iff.1 hwaiting.symm).2, ?_⟩
  · rw [Crew.timed, (c.timed_act a).1]
    exact h.timed
  · have hacted := c.acted a
    generalize c.act a = d at hacted ⊢
    intro i v hv
    cases hacted with
    | @works i w d hw ht =>
      obtain ⟨w', hworkers, hsame⟩ := workers_turned hw ht
      have hput : (c.put i w').worker? _ = some v :=
        (congrArg (fun ws => ws[_]?.join) hworkers).symm.trans hv
      rw [worker?_put (lt_length_of_worker? hw)] at hput
      split at hput
      · exact (hsame v hput).2 (h.agenda i w hw) (by simp [due, h.timed])
      · exact h.agenda _ v hput
    | starts hc hr hl =>
      rcases worker?_recruited hv with hold | ⟨-, rfl⟩
      · exact h.agenda i v hold
      · simp [recruit, h.timed]
    | _ => exact h.agenda i v hv

lemma Untimed.trace_begins (h : c.Untimed) (hfiled : c.Filed) {acts : List Act}
    (ha : ∀ a ∈ acts, a.isStill = true) (hm : ∀ path, .notify path ∉ c.trace made acts) :
    ∀ e ∈ c.trace Crew.begins acts, e.occasion = .load := by
  induction acts generalizing c with
  | nil => simp [trace]
  | cons a acts ih =>
    simp only [List.mem_cons, forall_eq_or_imp] at ha
    simp only [trace, List.mem_append, not_or, forall_and] at hm
    intro e he
    rcases List.mem_append.1 he with hfirst | hrest
    · exact h.begins a e hfirst
    · exact ih (h.act hfiled ha.1 hm.1) (hfiled.act a) ha.2 hm.2 e hrest

/-! ### The calls of a warm-up -/

/-- While nothing happens around it but that time passes, a watcher is started, and files are put
under watch, one after the other. -/
structure WarmUp (files : List WatchedFile) (c : Crew) (acts : List Act) : Prop where
  still : ∀ a ∈ acts, a.isStill = true
  calls : c.trace made acts = .start :: enlisting files
  free : (c.run acts).isFree = true

/-- **The table after a warm-up** is that of the loads, in their order, unless a round of a worker
comes in between. -/
theorem WarmUp.table {w : World} {refresh : Binary64} {longest : Option Binary64}
    {files : List WatchedFile} {acts : List Act} (h : (new w refresh longest).WarmUp files acts)
    (hb : refresh.isNonpositive = true ∨
      ∀ e ∈ (new w refresh longest).trace Crew.begins acts, e.occasion = .load) :
    ((new w refresh longest).run acts).feed.table = Table.empty.replay (w.findings files) := by
  have hnotify : ∀ path, .notify path ∉ (new w refresh longest).trace made acts := by
    simp [h.calls, mem_enlisting]
  have hloads : ∀ e ∈ (new w refresh longest).trace Crew.begins acts, e.occasion = .load := by
    rcases hb with hr | hb
    · exact (untimed_new w longest hr).trace_begins (filed_new w refresh longest) h.still hnotify
    · exact hb
  have hwarmed := ((warmed_new w refresh longest).run h.still hloads).table
  rwa [finished_of_isFree h.free, h.calls, List.nil_append, List.filterMap_cons,
    loads?_enlisting] at hwarmed

end Crew

end RouterAgent
