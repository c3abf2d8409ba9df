import RouterAgent.Proofs.Crew.Warmup
import RouterAgent.Proofs.Table.Newest

/-!
A warm-up at which rounds come due.

A worker that reads all known files in between may do so in another order than the caller, so the
order of the contributions is another one. But as long as the files stay as they are, each reading
of a file without a reader of its own finds the same, and what another file gives does not touch it.
-/

namespace RouterAgent

open RouterAgent.Number RouterAgent.Lease RouterAgent.Client

def WatcherCall.Within (files : List WatchedFile) (call : WatcherCall) : Prop :=
  ∀ file, call = .load file ∨ call = .add file → file ∈ files

lemma within_enlisting (files : List WatchedFile) :
    ∀ call ∈ .start :: enlisting files, call.Within files := by
  intro call hcall file hfile
  rcases List.mem_cons.1 hcall with rfl | hcall
  · simp at hfile
  · obtain ⟨other, hother, rfl | rfl⟩ := mem_enlisting.1 hcall
    all_goals
      obtain rfl : other = file := by simpa using hfile
      exact hother

namespace Crew

variable {c d : Crew} {a : Act} {i : ℕ} {w : Worker}

/-! ### The host stays as it is -/

lemma host_turned (h : c.Turned i w d) : d.feed.world.host = c.feed.world.host := by
  have hsend (c : Crew) (w' : Worker) (occasion : Occasion) (path : String) :
      (c.send i w' occasion path).feed.world.host = c.feed.world.host := by
    unfold send
    split <;> rfl
  cases h with
  | goes he hp | ends he hp =>
    have hhost := Errand.host_of_proceed hp
    exact hhost
  | visits he ha => exact hsend c ..
  | @takes path rest he ha hm => exact hsend { c with mail := rest } ..
  | _ => rfl

lemma twin_act (ha : a.isStill = true) : c.feed.world.host.Twin (c.act a).feed.world.host := by
  have hacted := c.acted a
  generalize c.act a = d at hacted ⊢
  have hlaunch := c.feed.kin_launch.world.host
  cases hacted with
  | works hw ht =>
    rw [host_turned ht]
    exact .refl _
  | happens hap =>
    cases hap with
    | pass seconds => exact ⟨_, _, rfl⟩
    | _ => simp [Act.isStill] at ha
  | refuses hc hl | starts hc hr hl =>
    rw [hl] at hlaunch
    exact hlaunch
  | stops hc hr => exact c.feed.kin_hush.world.host
  | @adds file hc => exact (c.feed.kin_add file).world.host
  | @goes e e' f hc hp | @ends e f hc hp =>
    exact Errand.host_of_proceed hp ▸ .refl _
  | _ => exact .refl _

lemma twin_run {acts : List Act} (ha : ∀ a ∈ acts, a.isStill = true) :
    c.feed.world.host.Twin (c.run acts).feed.world.host := by
  induction acts generalizing c with
  | nil => exact .refl _
  | cons a acts ih =>
    rw [List.forall_mem_cons] at ha
    exact (twin_act ha.1).trans (ih ha.2)

/-! ### What readings find -/

lemma get?_insertAll {files : OrderedMap String WatchedFile} {news : List WatchedFile}
    {path : String} {file : WatchedFile}
    (h : (news.foldl (fun files file => files.insert file.path file) files).get? path = some file) :
    files.get? path = some file ∨ file ∈ news ∧ file.path = path := by
  induction news generalizing files with
  | nil => exact .inl h
  | cons new news ih =>
    rcases ih h with hget | ⟨hmem, hpath⟩
    · rw [OrderedMap.get?_insert] at hget
      split at hget
      · next hp =>
        obtain rfl : new = file := Option.some.inj hget
        exact .inr ⟨List.mem_cons_self .., hp.symm⟩
      · exact .inl hget
    · exact .inr ⟨List.mem_cons_of_mem _ hmem, hpath⟩

lemma mem_errands (h : c.errandAt a = some e) : e ∈ c.errands := by
  cases a with
  | proceeds => exact List.mem_append_left _ (Option.mem_toList.2 h)
  | works i =>
    obtain ⟨w, hw, he⟩ := Option.bind_eq_some_iff.1 h
    obtain ⟨before, after, hworkers, -⟩ := split_of_worker? hw
    simp [errands, hworkers, he]
  | happens | calls | givesUp => simp [errandAt] at h

lemma mem_of_learns {files : List WatchedFile} (h : ∀ call ∈ c.made a, call.Within files)
    {file : WatchedFile} (hf : file ∈ c.learns a) : file ∈ files := by
  unfold Crew.learns at hf
  split at hf
  · next f =>
    rw [List.mem_ite_nil_right, List.mem_singleton] at hf
    exact h (.load f) (by simp [made, hf.1]) file (.inl (by rw [hf.2]))
  · next f =>
    rw [List.mem_ite_nil_right, List.mem_singleton] at hf
    exact h (.add f) (by simp [made, hf.1.1]) file (.inr (by rw [hf.2]))
  · simp at hf

/-- The files are those of the world at first, none but certain ones are known and read, each under
its own path, and the readings of those without readers of their own find what is in the files. -/
structure Faithful (w : World) (files : List WatchedFile) (c : Crew) : Prop where
  host : w.host.Twin c.feed.world.host
  known : ∀ path file, c.feed.watcher.files.get? path = some file → file ∈ files ∧ file.path = path
  tasks : ∀ e ∈ c.errands, e.file ∈ files ∧ e.path = e.file.path
  answers : ∀ e ∈ c.errands, ∀ result, e.stage = .answered result → e.file.reader = none →
    result = e.file.format.readLeases w.host e.file.path

lemma faithful_new (w : World) (refresh : Binary64) (longest : Option Binary64)
    (files : List WatchedFile) : (new w refresh longest).Faithful w files :=
  ⟨.refl _, by simp [new, Watcher.new, OrderedMap.get?_empty], by simp [errands, loading?, new],
    by simp [errands, loading?, new]⟩

lemma Faithful.begins {w : World} {files : List WatchedFile} (h : c.Faithful w files)
    (hwithin : ∀ call ∈ c.made a, call.Within files) {e : Errand} (he : e ∈ c.begins a) :
    e.file ∈ files ∧ e.path = e.file.path := by
  have hfor {occasion : Occasion} {path : String} {e : Errand}
      (he : c.errandFor occasion path = some e) : e.file ∈ files ∧ e.path = e.file.path := by
    obtain ⟨file, hfile, rfl⟩ := Option.map_eq_some_iff.1 he
    obtain ⟨hmem, hpath⟩ := h.known path file hfile
    exact ⟨hmem, hpath.symm⟩
  cases a with
  | calls call =>
    cases call with
    | load file =>
      simp only [Crew.begins, List.mem_ite_nil_right, List.mem_singleton] at he
      obtain ⟨hfree, rfl⟩ := he
      exact ⟨hwithin (.load file) (by simp [made, hfree]) file (.inl rfl), rfl⟩
    | _ => simp [Crew.begins] at he
  | works i =>
    rw [Crew.begins, Option.mem_toList, Option.bind_eq_some_iff] at he
    obtain ⟨v, -, hnext⟩ := he
    unfold next? at hnext
    split at hnext
    · exact hfor hnext
    · exact hfor hnext
    · simp at hnext
  | _ => simp [Crew.begins] at he

lemma Faithful.act {w : World} {files : List WatchedFile} (h : c.Faithful w files)
    (ha : a.isStill = true) (hwithin : ∀ call ∈ c.made a, call.Within files) :
    (c.act a).Faithful w files := by
  have hmem {e : Errand} (he : e ∈ (c.act a).errands) : e ∈ c.errands ∨ e ∈ c.left a := by
    rw [← List.mem_append, ← (c.errands_act a).mem_iff]
    exact List.mem_append_right _ he
  have hleft {e : Errand} (he : e ∈ c.left a) :
      (e.file ∈ files ∧ e.path = e.file.path) ∧ ∀ result, e.stage = .answered result →
        e.file.reader = none → result = e.file.format.readLeases w.host e.file.path := by
    cases hat : c.errandAt a with
    | none =>
      rw [left_of_none hat] at he
      exact ⟨h.begins hwithin he, by simp [stage_of_begins he]⟩
    | some e₀ =>
      have htask := h.tasks e₀ (mem_errands hat)
      rw [left_eq hat, Errand.after] at he
      split at he
      · rw [List.mem_ite_nil_right, List.mem_singleton] at he
        rw [he.2]
        exact ⟨htask, by simp⟩
      · rw [List.mem_singleton] at he
        rw [he]
        refine ⟨htask, fun result hresult hr => ?_⟩
        obtain rfl := Errand.Stage.answered.inj hresult
        rw [World.parse_fst, h.host.gives, Host.gives, hr, Option.bind_none, Option.getD_none]
      · simp at he
  refine ⟨h.host.trans (twin_act ha), fun path file hget => ?_, fun e he => ?_, fun e he => ?_⟩
  · rw [files_act] at hget
    rcases get?_insertAll hget with hold | ⟨hnew, hpath⟩
    · exact h.known path file hold
    · exact ⟨mem_of_learns hwithin hnew, hpath⟩
  · rcases hmem he with hold | hnew
    · exact h.tasks e hold
    · exact (hleft hnew).1
  · rcases hmem he with hold | hnew
    · exact h.answers e hold
    · exact (hleft hnew).2

/-! ### What comes into the table -/

lemma Faithful.puts {w : World} {files : List WatchedFile} (h : c.Faithful w files)
    {k : Contribution} (hk : k ∈ c.puts a) :
    ∃ file ∈ files, k.source = file.path ∧
      (file.reader = none → file.format.readLeases w.host file.path = .ok k.batch) := by
  obtain ⟨e, he, hheld⟩ := List.mem_flatMap.1 hk
  have hmem := mem_errands (Option.mem_toList.1 he)
  obtain ⟨hfile, hpath⟩ := h.tasks e hmem
  unfold Errand.held at hheld
  split at hheld
  · next result hstage =>
    have hanswer := h.answers e hmem result hstage
    cases result with
    | error fault => simp [Feed.contributed, Except.toOption] at hheld
    | ok batch =>
      obtain rfl : k = ⟨e.path, batch⟩ := by simpa [Feed.contributed, Except.toOption] using hheld
      exact ⟨e.file, hfile, hpath, fun hr => (hanswer hr).symm⟩
  · simp at hheld

def Loads (file : WatchedFile) (c : Crew) : Prop :=
  ∃ e, c.loading? = some e ∧ e.task = ⟨.load, file.path, file, .seeking⟩

lemma loads_of_made {file : WatchedFile} (h : .load file ∈ c.made a) : (c.act a).Loads file := by
  unfold made at h
  split at h
  · rw [List.mem_ite_nil_right, List.mem_singleton] at h
    obtain ⟨hfree, rfl⟩ := h
    rw [act, if_pos hfree]
    exact ⟨_, rfl, rfl⟩
  · simp at h

lemma loading?_act_of_ne {e : Errand} (h : c.loading? = some e) (ha : a ≠ .proceeds) :
    (c.act a).loading? = some e := by
  have hcaller := loading?_eq_some_iff.1 h
  have hacted := c.acted a
  generalize c.act a = d at hacted ⊢
  cases hacted with
  | works hw ht => rw [loading?, (keeps_turned ht).caller, hcaller]
  | happens | deaf | gone | keeps => exact h
  | free | goes | ends | waits | leaves => exact absurd rfl ha
  | abandons hc => simp [hcaller] at hc
  | refuses hc | starts hc | runs hc | stops hc | rests hc | loads hc | notifies hc | adds hc
  | lists hc => simp [isFree_iff, hcaller] at hc

section Plain

variable {w : World} {files : List WatchedFile} {file : WatchedFile} {batch : List Client}
  (reader : file.reader = none) (reads : file.format.readLeases w.host file.path = .ok batch)

include reader reads

lemma Loads.act (h : c.Loads file) (hfaithful : c.Faithful w files) (a : Act) :
    (c.act a).Loads file ∨ ⟨file.path, batch⟩ ∈ c.puts a := by
  obtain ⟨e, he, htask⟩ := h
  by_cases ha : a = .proceeds
  · subst ha
    have hat : c.errandAt .proceeds = some e := he
    have hpath : e.path = file.path := congrArg Errand.path htask
    have hfile : e.file = file := congrArg Errand.file htask
    rcases hp : e.proceed c.feed with ⟨_ | e', f⟩
    · right
      cases hstage : e.stage with
      | seeking =>
        have hfinds : c.feed.finds e.occasion e.path = true := by
          have hfound := w.finding?_of_reader_eq_none reader
          rw [reads] at hfound
          have hoccasion : e.occasion = .load := congrArg Errand.occasion htask
          rw [hoccasion, hpath, Feed.finds, hfaithful.host.holds]
          by_contra hnone
          simp [World.finding?, hnone, Except.toOption] at hfound
        have hproceed := Errand.proceed_seeking hstage c.feed
        simp [hp, hfinds] at hproceed
      | asking => simp [Errand.proceed, hstage] at hp
      | answered result =>
        have hanswer := hfaithful.answers e (mem_errands hat) result hstage (hfile ▸ reader)
        rw [hfile, reads] at hanswer
        simp [puts, hat, Errand.held, hstage, hanswer, hpath, Feed.contributed, Except.toOption]
    · left
      have hact : c.act .proceeds = { c with feed := f, caller := .loading e' } := by
        simp only [Crew.act, loading?_eq_some_iff.1 he, hp]
      rw [hact]
      exact ⟨e', rfl, (Errand.task_of_proceed hp).trans htask⟩
  · exact .inl ⟨e, loading?_act_of_ne he ha, htask⟩

lemma Faithful.loads {acts : List Act} (h : c.Faithful w files)
    (ha : ∀ a ∈ acts, a.isStill = true) (hwithin : ∀ call ∈ c.trace made acts, call.Within files)
    (hload : c.Loads file ∨ .load file ∈ c.trace made acts) :
    (c.run acts).Loads file ∨ ⟨file.path, batch⟩ ∈ c.trace Crew.puts acts := by
  induction acts generalizing c with
  | nil => exact hload.imp_right (by simp [trace])
  | cons a acts ih =>
    simp only [List.mem_cons, forall_eq_or_imp] at ha
    simp only [trace, List.mem_append, or_imp, forall_and] at hwithin hload ⊢
    have hnext := h.act ha.1 hwithin.1
    have hrest (hl : (c.act a).Loads file ∨ .load file ∈ (c.act a).trace made acts) :
        ((c.act a).run acts).Loads file ∨ ⟨file.path, batch⟩ ∈ c.puts a ∨
          ⟨file.path, batch⟩ ∈ (c.act a).trace Crew.puts acts :=
      (ih hnext ha.2 hwithin.2 hl).imp_right .inr
    rcases hload with hl | hfirst | hlater
    · rcases hl.act reader reads h a with hl | hput
      · exact hrest (.inl hl)
      · exact .inr (.inl hput)
    · exact hrest (.inl (loads_of_made hfirst))
    · exact hrest (.inr hlater)

end Plain

lemma Faithful.trace_puts {w : World} {files : List WatchedFile} {acts : List Act}
    (h : c.Faithful w files) (ha : ∀ a ∈ acts, a.isStill = true)
    (hwithin : ∀ call ∈ c.trace made acts, call.Within files) {k : Contribution}
    (hk : k ∈ c.trace Crew.puts acts) :
    ∃ file ∈ files, k.source = file.path ∧
      (file.reader = none → file.format.readLeases w.host file.path = .ok k.batch) := by
  induction acts generalizing c with
  | nil => simp [trace] at hk
  | cons a acts ih =>
    simp only [List.mem_cons, forall_eq_or_imp] at ha
    simp only [trace, List.mem_append, or_imp, forall_and] at hwithin hk
    rcases hk with hfirst | hlater
    · exact h.puts hfirst
    · exact ih (h.act ha.1 hwithin.1) ha.2 hwithin.2 hlater

section WarmUp

variable {w : World} {refresh : Binary64} {longest : Option Binary64} {files : List WatchedFile}
  {acts : List Act} (warm : (new w refresh longest).WarmUp files acts)

include warm

lemma WarmUp.within : ∀ call ∈ (new w refresh longest).trace made acts, call.Within files :=
  warm.calls ▸ within_enlisting files

lemma WarmUp.reads_of_mem_puts {k : Contribution}
    (hk : k ∈ (new w refresh longest).trace puts acts) :
    ∃ file ∈ files, k.source = file.path ∧
      (file.reader = none → file.format.readLeases w.host file.path = .ok k.batch) :=
  (faithful_new w refresh longest files).trace_puts warm.still warm.within hk

lemma WarmUp.mem_puts_of_reads {file : WatchedFile} (mem : file ∈ files)
    (reader : file.reader = none) {batch : List Client} (reads : file.format.readLeases w.host file.path = .ok batch) :
    ⟨file.path, batch⟩ ∈ (new w refresh longest).trace puts acts := by
  have hloaded : .load file ∈ (new w refresh longest).trace made acts := by
    rw [warm.calls]
    exact List.mem_cons_of_mem _ (mem_enlisting.2 ⟨file, mem, .inl rfl⟩)
  rcases (faithful_new w refresh longest files).loads reader reads warm.still warm.within
    (.inr hloaded) with ⟨e, he, -⟩ | hput
  · simp [loading?_of_isFree warm.free] at he
  · exact hput

variable (distinct : (files.map (·.path)).Nodup)

include distinct

/-- **The listings after a warm-up**: however often and in whatever order workers read the files in
between, in the end each file that has no reader of its own lists what is in it. -/
theorem WarmUp.get?_listed {file : WatchedFile} (mem : file ∈ files) (reader : file.reader = none) :
    ((new w refresh longest).run acts).feed.table.listed.get? file.path =
      (w.finding? file).map fun batch => (Table.byAddress batch).keys := by
  have hputs {k : Contribution} (hk : k ∈ (new w refresh longest).trace puts acts)
      (hs : k.source = file.path) : file.format.readLeases w.host file.path = .ok k.batch := by
    obtain ⟨other, hother, hsource, hreads⟩ := warm.reads_of_mem_puts hk
    obtain rfl : other = file :=
      List.inj_on_of_nodup_map distinct hother mem (hsource.symm.trans hs)
    exact hreads reader
  have htable := (feed_run (new w refresh longest) acts).1
  rw [htable, w.finding?_of_reader_eq_none reader]
  cases hread : file.format.readLeases w.host file.path with
  | error fault =>
    refine (Table.get?_listed_replay_of_others _ fun k hk hs => ?_).trans rfl
    have hok := hputs hk hs
    simp [hread] at hok
  | ok batch =>
    obtain ⟨later, hnewest⟩ :=
      Table.exists_newest (warm.mem_puts_of_reads mem reader hread) fun k hk hs => by
        obtain ⟨source, others⟩ := k
        obtain rfl : source = file.path := hs
        rw [Except.ok.inj (hread.symm.trans (hputs hk rfl))]
    exact hnewest.get?_listed _

/-- **The records after a warm-up** at which workers read the files in between: where no file has a
reader of its own, a client whom no two files list has the record that it has after the loads
alone. -/
theorem WarmUp.get?_records (plain : ∀ file ∈ files, file.reader = none) {mac : String}
    (once : ∀ k ∈ w.findings files, ∀ k' ∈ w.findings files, k.Lists mac → k'.Lists mac → k' = k) :
    ((new w refresh longest).run acts).feed.table.records.get? mac =
      (Table.empty.replay (w.findings files)).records.get? mac := by
  have htable := (feed_run (new w refresh longest) acts).1
  rw [htable]
  refine Table.get?_replay_congr (fun k => ?_) (fun k hk => ?_) (fun k hk k' hk' hs => ?_) once
  · rw [World.mem_findings plain]
    constructor
    · intro hk
      obtain ⟨file, hfile, hsource, hreads⟩ := warm.reads_of_mem_puts hk
      exact ⟨file, hfile, hsource, hreads (plain file hfile)⟩
    · rintro ⟨file, hfile, hsource, hreads⟩
      have hput := warm.mem_puts_of_reads hfile (plain file hfile) hreads
      rwa [← hsource] at hput
  · obtain ⟨file, -, hsource, hreads⟩ := (World.mem_findings plain).1 hk
    rw [Contribution.Tagged, hsource]
    exact Format.readLeases_tagged hreads
  · obtain ⟨source, batch⟩ := k
    obtain ⟨source', batch'⟩ := k'
    obtain rfl : source' = source := hs
    obtain ⟨file, hfile, hsource, hreads⟩ := (World.mem_findings plain).1 hk
    obtain ⟨file', hfile', hsource', hreads'⟩ := (World.mem_findings plain).1 hk'
    obtain rfl : file' = file :=
      List.inj_on_of_nodup_map distinct hfile' hfile (hsource'.symm.trans hsource)
    obtain rfl : batch' = batch := Except.ok.inj (hreads'.symm.trans hreads)
    rfl

end WarmUp

end Crew

end RouterAgent
