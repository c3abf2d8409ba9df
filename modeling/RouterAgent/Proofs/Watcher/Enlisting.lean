import RouterAgent.Proofs.Watcher.Unaltered

/-!
Putting files under watch while they are written.

Each file is loaded and then added, and only adding subscribes to its directory. What is written
last between the two, while nobody listens yet, is missed; any other last write is read before the
worker is through.
-/

namespace RouterAgent

open RouterAgent.Number RouterAgent.Lease RouterAgent.Client

def enlisting (files : List WatchedFile) : List WatcherCall :=
  files.flatMap fun file => [.load file, .add file]

namespace Paced

/-! ### Files put under watch -/

def begun (w : World) (refresh : Binary64) : Paced :=
  (new w refresh).move (.outside (.watcher .start))

/-- Each write to the file, made while its directory is subscribed to, is told of later. -/
def Heard (p : Paced) (ms : List Move) (file : WatchedFile) : Prop :=
  ∀ as other content bs, ms = as ++ .write other content :: bs →
    Location.ofText other = Location.ofText file.path →
    (p.run as).feed.Hears (Feed.directoryOf file.path) →
    ∃ cs ds, bs = cs ++ .told file.path :: ds ∧
      (p.run (as ++ .write other content :: cs)).feed.world.host.delivers
        (.rewritten file.path) = true

/-- The file was last altered between its loading and its adding, when its directory was not
subscribed to. -/
def Missed (p : Paced) (ms : List Move) (file : WatchedFile) : Prop :=
  ∃ as m bs, ms = as ++ m :: bs ∧ m.Alters file.path ∧ (∀ n ∈ bs, ¬ n.Alters file.path) ∧
    .load file ∉ bs ∧ .add file ∈ bs ∧ ¬ (p.run as).feed.Hears (Feed.directoryOf file.path)

def Adds (p : Paced) (ms : List Move) (file : WatchedFile) : Prop :=
  ∃ as bs, ms = as ++ .add file :: bs ∧ ((p.run as).feed.add file).1 = .ok true

end Paced

lemma mem_enlisting {files : List WatchedFile} {c : WatcherCall} :
    c ∈ enlisting files ↔ ∃ file ∈ files, c = .load file ∨ c = .add file := by
  simp [enlisting]

section Calls

variable {ms : List Move} {files : List WatchedFile}
  (calls : ms.filterMap Move.call? = enlisting files)

include calls

lemma mem_enlisting_of_call {m : Move} (hm : m ∈ ms) {c : WatcherCall} (hc : m.call? = some c) :
    ∃ file ∈ files, c = .load file ∨ c = .add file :=
  mem_enlisting.1 (calls ▸ List.mem_filterMap.2 ⟨m, hm, hc⟩)

lemma steady_of_calls : ∀ m ∈ ms, m.Steady := by
  intro m hm
  refine ⟨fun hc => ?_, fun hc => ?_⟩ <;>
    obtain ⟨file, -, h⟩ := mem_enlisting_of_call calls hm hc <;> simp at h

lemma mem_of_call {m : Move} (hm : m ∈ ms) {file : WatchedFile}
    (hc : m.call? = some (.load file) ∨ m.call? = some (.add file)) : file ∈ files := by
  rcases hc with hc | hc <;>
    obtain ⟨found, hfound, h⟩ := mem_enlisting_of_call calls hm hc <;> simp_all

lemma spares_of_calls {file : WatchedFile}
    (alone : ∀ other ∈ files, other.path = file.path → other = file) :
    ∀ m ∈ ms, m.Spares file :=
  fun _ hm other hc hpath => alone other (mem_of_call calls hm hc) hpath

lemma honest_of_calls (honest : ∀ file ∈ files, file.Honest) : ∀ m ∈ ms, m.Honest := by
  intro m hm
  unfold Move.Honest
  split
  · next file => exact honest file (mem_of_call calls hm (.inl rfl))
  · next file => exact honest file (mem_of_call calls hm (.inr rfl))
  · trivial

lemma load_mem_of_calls {file : WatchedFile} (hf : file ∈ files) : .load file ∈ ms := by
  have hc : WatcherCall.load file ∈ ms.filterMap Move.call? :=
    calls ▸ mem_enlisting.2 ⟨file, hf, .inl rfl⟩
  obtain ⟨m, hm, hcall⟩ := List.mem_filterMap.1 hc
  obtain rfl := Move.call?_eq_some.1 hcall
  exact hm

end Calls

namespace Paced

variable {p : Paced} {file : WatchedFile} {batch : List Client}

lemma known_of_load {ms : List Move} (hs : ∀ m ∈ ms, m.Spares file) (hl : .load file ∈ ms) :
    (p.run ms).feed.watcher.files.get? file.path = some file := by
  obtain ⟨as, bs, rfl⟩ := List.append_of_mem hl
  rw [run_append, run_cons]
  exact known_run (fun m hm => hs m (by simp [hm])) ((p.run as).known_load file)

lemma hears_of_adds {ms : List Move} (hlive : p.feed.Attached []) (hms : ∀ m ∈ ms, m.Steady)
    (hadds : p.Adds ms file) : (p.run ms).feed.Hears (Feed.directoryOf file.path) := by
  obtain ⟨as, bs, rfl, hok⟩ := hadds
  have hbefore := p.onward_run fun m hm => hms m (List.mem_append_left _ hm)
  have hafter := ((p.run as).move (.add file)).onward_run fun m hm =>
    hms m (List.mem_append_right _ (List.mem_cons_of_mem _ hm))
  rw [run_append, run_cons]
  have hdir : Feed.directoryOf file.path ∈ ((p.run as).move (.add file)).feed.watcher.dirs :=
    Feed.mem_dirs_of_add hok
  have hadd : ((p.run as).move (.add file)).feed.Attached [] :=
    (hbefore.attached [] hlive).add file
  exact (hafter.attached [] hadd).hears_iff.2 ⟨hafter.dirs hdir, by simp⟩

lemma not_stocks_of_delete {other : String} {as bs : List Move} (hbs : ∀ m ∈ bs, m.Steady)
    (ha : ∀ m ∈ bs, ¬ m.Alters file.path)
    (hloc : Location.ofText other = Location.ofText file.path) :
    ¬ (p.run (as ++ .outside (.happening (.delete other)) :: bs)).feed.world.host.Stocks
      file.path := by
  intro hstocks
  have hfile := file?_run (p := (p.run as).move (.outside (.happening (.delete other)))) hbs ha
  have hgone : ((p.run as).move (.outside (.happening (.delete other)))).feed.world.host.file?
      file.path = none := by
    have hhost := (p.run as).feed.host_happening (.delete other)
    refine (congrArg (Host.file? · file.path) hhost).trans ?_
    simp [Host.after, Host.delete, Host.file?, OrderedMap.get?_erase, hloc]
  obtain ⟨hdir, hsize⟩ := hstocks
  rw [run_append, run_cons] at hdir hsize
  simp [Host.size?, hdir, hfile, hgone] at hsize

lemma split_unique {q : α → Prop} (us : List α) {as bs ws : List α} {a v : α}
    (h : us ++ v :: ws = as ++ a :: bs) (ha : q a) (hus : ∀ u ∈ us, ¬ q u)
    (hws : ∀ w ∈ ws, ¬ q w) : as = us ∧ a = v ∧ bs = ws := by
  induction as generalizing us with
  | nil =>
    cases us with
    | nil => simpa [eq_comm] using h
    | cons u us =>
      obtain ⟨rfl, -⟩ := List.cons.inj h
      exact absurd ha (hus u (by simp))
  | cons b as ih =>
    cases us with
    | nil =>
      obtain ⟨-, rfl⟩ := List.cons.inj h
      exact absurd ha (hws a (by simp))
    | cons u us =>
      obtain ⟨rfl, htail⟩ := List.cons.inj h
      obtain ⟨rfl, hrest⟩ := ih us htail fun u hu => hus u (by simp [hu])
      exact ⟨rfl, hrest⟩

lemma Adds.before {as bs : List Move} {m : Move} (h : p.Adds (as ++ m :: bs) file)
    (hm : m.Alters file.path) (hadd : .add file ∉ bs) : p.Adds as file := by
  obtain ⟨cs, ds, hsplit, hok⟩ := h
  rcases List.append_eq_append_iff.1 hsplit with ⟨es, rfl, hes⟩ | ⟨es, rfl, hes⟩
  · -- it would be the move itself or come later
    cases es with
    | nil =>
      obtain ⟨rfl, -⟩ := List.cons.inj hes
      exact absurd hm id
    | cons e es =>
      obtain ⟨-, rfl⟩ := List.cons.inj hes
      exact absurd (List.mem_append_right _ (List.mem_cons_self ..)) hadd
  · cases es with
    | nil =>
      obtain ⟨rfl, -⟩ := List.cons.inj hes
      exact absurd hm id
    | cons e es =>
      obtain ⟨rfl, -⟩ := List.cons.inj hes
      exact ⟨cs, es, rfl, hok⟩

lemma hears_of_not_missed {as bs : List Move} {m : Move} (has : ∀ m ∈ as, m.Steady)
    (hlive : p.feed.Attached []) (hm : m.Alters file.path) (ha : ∀ n ∈ bs, ¬ n.Alters file.path)
    (hload : .load file ∉ bs) (hadds : p.Adds (as ++ m :: bs) file)
    (hmissed : ¬ p.Missed (as ++ m :: bs) file) :
    (p.run as).feed.Hears (Feed.directoryOf file.path) := by
  by_cases hadd : .add file ∈ bs
  · by_contra hdeaf
    exact hmissed ⟨as, m, bs, rfl, hm, ha, hload, hadd, hdeaf⟩
  · exact hears_of_adds hlive has (hadds.before hm hadd)

/-- **The newest contribution is the current one**, unless the last write fell into the gap between
loading and adding. -/
lemma newest_of_not_missed {ms : List Move} (hms : ∀ m ∈ ms, m.Steady)
    (hs : ∀ m ∈ ms, m.Spares file) (hlive : p.feed.Attached []) (hload : .load file ∈ ms)
    (hadds : p.Adds ms file) (hheard : p.Heard ms file) (hmissed : ¬ p.Missed ms file)
    (hq : (p.run ms).feed.watcher.queue = [])
    (hstocks : (p.run ms).feed.world.host.Stocks file.path) (hgives : p.Gives ms file batch) :
    ∃ later, Table.Newest (contributions (p.readings ms)) ⟨file.path, batch⟩ later := by
  by_cases hex : ∃ m ∈ ms, m = .load file ∨ m.Alters file.path
  swap
  · exact absurd ⟨_, hload, .inl rfl⟩ hex
  obtain ⟨as, m, bs, rfl, hm, hn⟩ := exists_last hex
  have hbs : ∀ n ∈ bs, n.Steady := fun n h => hms n (by simp [h])
  have hsbs : ∀ n ∈ bs, n.Spares file := fun n h => hs n (by simp [h])
  have ha : ∀ n ∈ bs, ¬ n.Alters file.path := fun n h hna => hn n h (.inr hna)
  rcases hm with rfl | hm
  · -- the last write came before the file was loaded
    exact newest_of_load hbs hsbs ha hstocks hgives
  have hnotload : .load file ∉ bs := fun h => hn _ h (.inl rfl)
  have hhears := hears_of_not_missed (fun n h => hms n (by simp [h])) hlive hm ha hnotload hadds
    hmissed
  unfold Move.Alters at hm
  split at hm
  · next other content =>
    -- the worker was told of the last write
    obtain ⟨cs, ds, rfl, hd⟩ := hheard as other content bs rfl hm hhears
    have hbefore : .load file ∈ as ++ .write other content :: cs := by
      simp only [List.mem_append, List.mem_cons] at hload hnotload ⊢
      tauto
    have hsplit : as ++ .write other content :: (cs ++ .told file.path :: ds)
        = (as ++ .write other content :: cs) ++ .told file.path :: ds := by
      simp
    rw [hsplit] at hms hs hq hstocks hgives ⊢
    have hk := known_of_load (p := p) (fun n h => hs n (List.mem_append_left _ h)) hbefore
    exact newest_of_heard (fun n h => hbs n (by simp [h])) (fun n h => hsbs n (by simp [h]))
      (fun n h => ha n (by simp [h])) hk hd hq hstocks hgives
  · exact absurd hstocks (not_stocks_of_delete hbs ha hm)
  · exact absurd hm id

section Begun

variable {w : World} {refresh : Binary64} (started : (new w refresh).feed.launch.1 = .ok ())

include started

lemma live_begun : (begun w refresh).feed.Attached [] := Feed.attached_launch rfl started

lemma running_begun : (begun w refresh).feed.watcher.running = true := by
  have h := (new w refresh).feed.launched
  unfold begun move Feed.ask
  generalize (new w refresh).feed.launch = out at h started ⊢
  cases h with
  | runs hr => exact hr
  | refused => simp at started
  | started hr hs => rfl

end Begun

lemma sound_begun (w : World) (refresh : Binary64) : (begun w refresh).feed.Sound :=
  sound_move (Feed.sound_new w refresh) trivial

lemma table_begun (w : World) (refresh : Binary64) : (begun w refresh).feed.table = .empty :=
  (reads_move (new w refresh) (.outside (.watcher .start))).table

/-- **Putting files under watch loses no update but one in the gap.** A new watcher was started, and
files were loaded and added, one after the other, while anything may have happened and the worker
went at its own pace. Take a file that was added with success and that is not empty in the end. If
each write to it was told of that was made while its directory was subscribed to, and the last one
did not fall between its loading and its adding while the directory was not, then, when nothing
waits any more, the newest contribution of the file is what it holds. The table lists for the file
the addresses of this batch; if all files are honest, the records that it owns are of this batch,
and of these only those are missing that another file listed later. -/
theorem enlisted_file_is_current {w : World} {refresh : Binary64} {files : List WatchedFile}
    {ms : List Move} {file : WatchedFile}
    (started : (new w refresh).feed.launch.1 = .ok ())
    (calls : ms.filterMap Move.call? = enlisting files)
    (alone : ∀ other ∈ files, other.path = file.path → other = file)
    (adds : (begun w refresh).Adds ms file)
    (heard : (begun w refresh).Heard ms file)
    (unmissed : ¬ (begun w refresh).Missed ms file)
    (idle : ((begun w refresh).run ms).Idle)
    (stocks : ((begun w refresh).run ms).feed.world.host.Stocks file.path) :
    ((begun w refresh).run ms).feed.table =
      Table.empty.replay (contributions ((begun w refresh).readings ms)) ∧
    (∀ batch, (begun w refresh).Gives ms file batch →
      ((begun w refresh).run ms).feed.table.listed.get? file.path =
        some (Table.byAddress batch).keys ∧
      ∃ later,
        Table.Newest (contributions ((begun w refresh).readings ms)) ⟨file.path, batch⟩ later ∧
        ((∀ other ∈ files, other.Honest) →
          ((begun w refresh).run ms).feed.table.OwnedFrom ⟨file.path, batch⟩ ∧
          ∀ mac, (∃ r ∈ batch, r.mac = mac) → (∀ d ∈ later, ¬ d.Lists mac) →
            ((begun w refresh).run ms).feed.table.records.get? mac = latest? batch mac)) ∧
    (file.reader = none → ∀ batch,
      file.format.readLeases ((begun w refresh).run ms).feed.world.host file.path = .ok batch →
      (begun w refresh).Gives ms file batch) := by
  have hms := steady_of_calls calls
  have hs := spares_of_calls calls alone
  have hlive := live_begun started
  have hfile : file ∈ files := by
    obtain ⟨as, bs, rfl, -⟩ := adds
    exact mem_of_call (m := .add file) calls (by simp) (.inr rfl)
  have hrunning : ((begun w refresh).run ms).feed.watcher.running = true :=
    ((begun w refresh).onward_run hms).running.trans (running_begun started)
  have htable : ((begun w refresh).run ms).feed.table =
      Table.empty.replay (contributions ((begun w refresh).readings ms)) :=
    table_begun w refresh ▸ ((begun w refresh).reads_run ms).table
  refine ⟨htable, fun batch hgives => ?_, fun hr batch hb => gives_of_reader_eq_none hms hr hb⟩
  obtain ⟨later, hnewest⟩ := newest_of_not_missed hms hs hlive (load_mem_of_calls calls hfile) adds
    heard unmissed (idle.queue hrunning) stocks hgives
  refine ⟨htable ▸ hnewest.get?_listed _, later, hnewest, fun honest => ?_⟩
  exact htable ▸ hnewest.records
    (tagged_readings (sound_begun w refresh) (honest_of_calls calls honest))

def oneLease (mac : String) : Content :=
  .bytes (("1 " ++ mac ++ " 10.0.0.1 tv *").toList.map fun c => UInt8.ofNat c.toNat)

def lanFile : WatchedFile := ⟨"/run/a", .dnsmasq, none⟩

def lanWorld : World := .start (Host.empty.write "/run/a" (oneLease "aa:00:00:00:00:01"))

def lanRenewal : Move := .write "/run/a" (oneLease "aa:00:00:00:00:02")

/-- The file is written when it is under watch, and the worker is told. -/
def toldRenewal : List Move := [.load lanFile, .add lanFile, lanRenewal, .told "/run/a", .work]

/-- The file is written between its loading and its adding. -/
def missedRenewal : List Move := [.load lanFile, lanRenewal, .add lanFile]

theorem enlisted_file_is_current_toldRenewal :
    ((begun lanWorld Binary64.zero).run toldRenewal).feed.table.listed.get? "/run/a" =
      some ["aa:00:00:00:00:02"] := by
  have hlast {as bs : List Move} {m : Move} (h : toldRenewal = as ++ m :: bs)
      (hm : m.Alters lanFile.path) :
      as = [.load lanFile, .add lanFile] ∧ m = lanRenewal ∧ bs = [.told "/run/a", .work] := by
    have hsplit : [.load lanFile, .add lanFile] ++ lanRenewal :: [.told "/run/a", .work] =
        as ++ m :: bs := h
    exact split_unique _ hsplit hm (by simp [Move.Alters]) (by simp [Move.Alters])
  have hheard : (begun lanWorld Binary64.zero).Heard toldRenewal lanFile := by
    rintro as other content bs hsplit hloc -
    obtain ⟨rfl, hwrite, rfl⟩ := hlast hsplit hloc
    rw [hwrite]
    exact ⟨[], [.work], rfl, by decide +kernel⟩
  have hunmissed : ¬ (begun lanWorld Binary64.zero).Missed toldRenewal lanFile := by
    rintro ⟨as, m, bs, hsplit, hm, -, -, hadd, -⟩
    obtain ⟨-, -, rfl⟩ := hlast hsplit hm
    simp at hadd
  have hcalls : toldRenewal.filterMap Move.call? = enlisting [lanFile] := rfl
  have hadds : (begun lanWorld Binary64.zero).Adds toldRenewal lanFile :=
    ⟨[.load lanFile], _, rfl, by decide +kernel⟩
  obtain ⟨-, hcurrent, hgives⟩ := enlisted_file_is_current rfl hcalls (by simp) hadds hheard
    hunmissed ⟨by decide +kernel, by decide +kernel⟩ ⟨by decide +kernel, by decide +kernel⟩
  have hb := hgives rfl [⟨"aa:00:00:00:00:02", "10.0.0.1", "tv", some 1, "/run/a"⟩]
    (by decide +kernel)
  exact (hcurrent _ hb).1.trans (by decide +kernel)

/-- What is written in the gap stays unread: at the end of `missedRenewal` the table lists the
client that the file has no more. -/
theorem enlisted_file_may_be_outdated :
    ¬ ∀ (w : World) (refresh : Binary64) (files : List WatchedFile) (ms : List Move)
      (file : WatchedFile), (new w refresh).feed.launch.1 = .ok () →
      ms.filterMap Move.call? = enlisting files →
      (∀ other ∈ files, other.path = file.path → other = file) →
      (begun w refresh).Adds ms file → (begun w refresh).Heard ms file →
      ((begun w refresh).run ms).Idle →
      ((begun w refresh).run ms).feed.world.host.Stocks file.path → file.reader = none →
      ∀ batch,
        file.format.readLeases ((begun w refresh).run ms).feed.world.host file.path = .ok batch →
        ((begun w refresh).run ms).feed.table.listed.get? file.path =
          some (Table.byAddress batch).keys := by
  intro h
  have hheard : (begun lanWorld Binary64.zero).Heard missedRenewal lanFile := by
    intro as other content bs hsplit hloc hhears
    have hsplit : [.load lanFile] ++ lanRenewal :: [.add lanFile] =
        as ++ .write other content :: bs := hsplit
    obtain ⟨rfl, -⟩ := split_unique (q := Move.Alters lanFile.path) _ hsplit hloc
      (by simp [Move.Alters]) (by simp [Move.Alters])
    -- the new observer is not subscribed to anything
    obtain ⟨n, o, hn, ho, -, -, hdir⟩ := hhears
    have hnew : ((begun lanWorld Binary64.zero).run [.load lanFile]).feed.world.host.observers =
        [⟨true, false, []⟩] := by decide +kernel
    rw [hnew] at ho
    obtain rfl : o = ⟨true, false, []⟩ := List.mem_singleton.1 (List.mem_of_getElem? ho)
    simp at hdir
  have hlisted := h lanWorld Binary64.zero [lanFile] missedRenewal lanFile rfl rfl (by simp)
    ⟨[.load lanFile, lanRenewal], [], rfl, by decide +kernel⟩ hheard
    ⟨by decide +kernel, by decide +kernel⟩ ⟨by decide +kernel, by decide +kernel⟩ rfl
    [⟨"aa:00:00:00:00:02", "10.0.0.1", "tv", some 1, "/run/a"⟩] (by decide +kernel)
  have hold : ((begun lanWorld Binary64.zero).run missedRenewal).feed.table.listed.get? "/run/a" =
      some ["aa:00:00:00:00:01"] := by decide +kernel
  exact absurd (hold.symm.trans hlisted) (by decide +kernel)

end Paced

end RouterAgent
