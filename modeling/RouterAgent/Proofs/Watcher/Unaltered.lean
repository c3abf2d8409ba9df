import RouterAgent.Proofs.Table.Newest
import RouterAgent.Proofs.Watcher.Standing

/-!
What a watcher reads of a file that is not written any more.

Every reading after the last write gives what the file holds. So if there is one, be it that the
file is loaded or that a change is told, then the newest contribution of the file is what it holds.
-/

namespace RouterAgent

open RouterAgent.Number RouterAgent.Lease RouterAgent.Client

def Change.rewritten (path : String) : Change := ⟨.modified, path, "", false⟩

abbrev Move.load (file : WatchedFile) : Move := .outside (.watcher (.load file))

abbrev Move.add (file : WatchedFile) : Move := .outside (.watcher (.add file))

abbrev Move.write (path : String) (content : Content) : Move :=
  .outside (.happening (.write path content))

abbrev Move.told (path : String) : Move := .outside (.happening (.change (.rewritten path)))

/-- A path names a file that is not empty. -/
def Host.Stocks (h : Host) (path : String) : Prop :=
  h.isDir path = false ∧ (h.size? path).any (0 < ·) = true

namespace Host

lemma Stocks.holds {h : Host} {path : String} (hs : h.Stocks path) : h.holds path = true := by
  obtain ⟨hdir, hsize⟩ := hs
  rw [size?, hdir, if_neg Bool.false_ne_true] at hsize
  cases hf : h.file? path with
  | none => simp [hf] at hsize
  | some content => simp [Host.holds, hf]

lemma Stocks.earlier {g h : Host} {path : String} (hs : h.Stocks path)
    (hdir : g.isDir path = true → h.isDir path = true) (hfile : h.file? path = g.file? path) :
    g.Stocks path := by
  have hg : g.isDir path = false := by
    rw [← Bool.not_eq_true]
    intro hd
    exact Bool.false_ne_true (hs.1.symm.trans (hdir hd))
  obtain ⟨hh, hsize⟩ := hs
  rw [size?, hh, hfile] at hsize
  exact ⟨hg, by rw [size?, hg]; exact hsize⟩

end Host

namespace Feed

structure Offers (f : Feed) (file : WatchedFile) (batch : List Client) : Prop where
  stocks : f.world.host.Stocks file.path
  gives : f.world.host.gives file (f.world.turn file) = .ok batch

lemma Offers.found_loading {f : Feed} {file : WatchedFile} {batch : List Client}
    (h : f.Offers file batch) : (f.loading file).found = some batch := by
  simp [loading, h.stocks.holds, World.parse_fst, h.gives, Except.toOption]

lemma Offers.found_rereading {f : Feed} {file : WatchedFile} {batch : List Client}
    (h : f.Offers file batch) (hk : f.watcher.files.get? file.path = some file)
    (occasion : Occasion) : (f.rereading occasion file.path).found = some batch := by
  simp [rereading, hk, h.stocks.2, World.parse_fst, h.gives, Except.toOption]

end Feed

namespace Paced

/-! ### Readings of one file -/

lemma readings_append (p : Paced) (ms ns : List Move) :
    p.readings (ms ++ ns) = p.readings ms ++ (p.run ms).readings ns := by
  induction ms generalizing p with
  | nil => rfl
  | cons m ms ih => rw [List.cons_append, readings, readings, ih, run_cons, List.append_assoc]

lemma found_readingsOf {p : Paced} {m : Move} {file : WatchedFile} {batch : List Client}
    (hm : m.Steady) (hs : m.Spares file) (ho : p.feed.Offers file batch)
    (hk : p.feed.watcher.files.get? file.path = some file) :
    ∀ r ∈ p.readingsOf m, r.path = file.path → r.found = some batch := by
  have hreread (occasion : Occasion) (path : String) :
      ∀ r ∈ [p.feed.rereading occasion path], r.path = file.path → r.found = some batch := by
    intro r hr hpath
    obtain rfl : r = _ := List.mem_singleton.1 hr
    rw [Feed.path_rereading] at hpath
    subst hpath
    exact ho.found_rereading hk occasion
  have hnil : ∀ r ∈ ([] : List Reading), r.path = file.path → r.found = some batch := by simp
  cases m with
  | work =>
    simp only [readingsOf]
    split
    · exact hreread .refresh _
    · split
      · split
        · exact hreread .notice _
        · exact hnil
      · exact hnil
  | outside s =>
    cases s with
    | happening | observers | table => exact hnil
    | watcher c =>
      cases c with
      | stop => exact absurd rfl hm.2
      | load other =>
        intro r hr hpath
        obtain rfl : r = p.feed.loading other := List.mem_singleton.1 hr
        rw [Feed.path_loading] at hpath
        obtain rfl : other = file := hs other (.inl rfl) hpath
        exact ho.found_loading
      | start | notify | watchList | add => exact hnil

lemma found_readings {p : Paced} {ms : List Move} {file : WatchedFile} {batch : List Client}
    (hms : ∀ m ∈ ms, m.Steady) (hs : ∀ m ∈ ms, m.Spares file)
    (ho : ∀ as bs, ms = as ++ bs → (p.run as).feed.Offers file batch)
    (hk : p.feed.watcher.files.get? file.path = some file) :
    ∀ r ∈ p.readings ms, r.path = file.path → r.found = some batch := by
  induction ms generalizing p with
  | nil => simp [readings]
  | cons m ms ih =>
    have hm := hms m (by simp)
    have hsm := hs m (by simp)
    intro r hr hpath
    rw [readings, List.mem_append] at hr
    rcases hr with hr | hr
    · exact found_readingsOf hm hsm (ho [] (m :: ms) rfl) hk r hr hpath
    · refine ih (fun n hn => hms n (by simp [hn])) (fun n hn => hs n (by simp [hn])) ?_
        (known_move hsm hk) r hr hpath
      intro as bs hsplit
      exact ho (m :: as) bs (by rw [hsplit]; rfl)

lemma exists_reading_of_waiting {p : Paced} {ms : List Move} {path : String}
    (hw : path ∈ p.feed.watcher.queue) (hq : (p.run ms).feed.watcher.queue = []) :
    ∃ r ∈ p.readings ms, r.path = path := by
  have hledger := p.ledger_run ms
  rw [hq, List.append_nil] at hledger
  have hmem : path ∈ noticed (p.readings ms) := hledger ▸ List.mem_append_left _ hw
  obtain ⟨r, hr, hpath⟩ := List.mem_map.1 hmem
  exact ⟨r, (List.mem_filter.1 hr).1, hpath⟩

lemma newest_of_readings {p : Paced} {as bs : List Move} {path : String} {batch : List Client}
    (hfound : ∀ r ∈ (p.run as).readings bs, r.path = path → r.found = some batch)
    (hex : ∃ r ∈ (p.run as).readings bs, r.path = path) :
    ∃ later, Table.Newest (contributions (p.readings (as ++ bs))) ⟨path, batch⟩ later := by
  have hmem : (⟨path, batch⟩ : Contribution) ∈ contributions ((p.run as).readings bs) := by
    obtain ⟨r, hr, hpath⟩ := hex
    exact List.mem_filterMap.2
      ⟨r, hr, Reading.mem_contribution?.2 ⟨hpath.symm, hfound r hr hpath⟩⟩
  have hsame : ∀ d ∈ contributions ((p.run as).readings bs),
      d.source = path → d = ⟨path, batch⟩ := by
    intro d hd hsource
    obtain ⟨r, hr, hc⟩ := List.mem_filterMap.1 hd
    obtain ⟨hpath, hbatch⟩ := Reading.mem_contribution?.1 hc
    have hr' : r.found = some batch := hfound r hr (hpath.symm.trans hsource)
    obtain ⟨source, found⟩ := d
    obtain rfl : source = path := hsource
    obtain rfl : found = batch := Option.some.inj (hbatch.symm.trans hr')
    rfl
  obtain ⟨later, hnewest⟩ := Table.exists_newest hmem hsame
  rw [readings_append, contributions_append]
  exact ⟨later, hnewest.append_left _⟩

/-! ### After the last write -/

/-- From the last time on that the file was written or deleted, reading it would give this batch. -/
def Gives (p : Paced) (ms : List Move) (file : WatchedFile) (batch : List Client) : Prop :=
  ∀ as bs, ms = as ++ bs → (∀ m ∈ bs, ¬ m.Alters file.path) →
    (p.run as).feed.world.host.gives file ((p.run as).feed.world.turn file) = .ok batch

lemma gives_of_reader_eq_none {p : Paced} {ms : List Move} {file : WatchedFile}
    {batch : List Client} (hms : ∀ m ∈ ms, m.Steady) (hr : file.reader = none)
    (hb : file.format.readLeases (p.run ms).feed.world.host file.path = .ok batch) :
    p.Gives ms file batch := by
  intro as bs hsplit ha
  have hbs : ∀ m ∈ bs, m.Steady := fun m hm => hms m (by simp [hsplit, hm])
  have honward := (p.run as).onward_run hbs
  have hfile := file?_run (p := p.run as) hbs ha
  rw [hsplit, run_append] at hb
  have hdir : ((p.run as).run bs).feed.world.host.isDir file.path = false := by
    cases hd : ((p.run as).run bs).feed.world.host.isDir file.path with
    | false => rfl
    | true => simp [Format.readLeases, Host.readText, Host.read, hd, Except.map] at hb
  have hdir' : (p.run as).feed.world.host.isDir file.path = false := by
    rw [← Bool.not_eq_true]
    intro hd
    exact Bool.false_ne_true (hdir.symm.trans (honward.isDir _ hd))
  simp only [Format.readLeases, Host.readText, Host.read, hdir, hfile] at hb
  simp only [Host.gives, hr, Option.bind_none, Option.getD_none, Format.readLeases, Host.readText,
    Host.read, hdir']
  exact hb

variable {p : Paced} {file : WatchedFile} {batch : List Client} {as bs : List Move}

lemma offers_along (hbs : ∀ m ∈ bs, m.Steady) (ha : ∀ m ∈ bs, ¬ m.Alters file.path)
    (hstocks : (p.run (as ++ bs)).feed.world.host.Stocks file.path)
    (hgives : p.Gives (as ++ bs) file batch) :
    ∀ cs ds, bs = cs ++ ds → ((p.run as).run cs).feed.Offers file batch := by
  rintro cs ds rfl
  have hds : ∀ m ∈ ds, m.Steady := fun m hm => hbs m (by simp [hm])
  have hda : ∀ m ∈ ds, ¬ m.Alters file.path := fun m hm => ha m (by simp [hm])
  have hnow := hgives (as ++ cs) ds (by simp) hda
  rw [← run_append]
  rw [← List.append_assoc, run_append] at hstocks
  have honward := (p.run (as ++ cs)).onward_run hds
  have hfile := file?_run (p := p.run (as ++ cs)) hds hda
  exact ⟨hstocks.earlier (honward.isDir _) hfile, hnow⟩

lemma known_load (p : Paced) (file : WatchedFile) :
    (p.move (.load file)).feed.watcher.files.get? file.path = some file := by
  have hw : (p.feed.load file).2.watcher = _ := (p.feed.load_spec file).2.1
  refine (congrArg (fun w : Watcher => w.files.get? file.path) hw).trans ?_
  simp [Watcher.know, OrderedMap.get?_insert]

lemma newest_of_load (hbs : ∀ m ∈ bs, m.Steady) (hs : ∀ m ∈ bs, m.Spares file)
    (ha : ∀ m ∈ bs, ¬ m.Alters file.path)
    (hstocks : (p.run (as ++ .load file :: bs)).feed.world.host.Stocks file.path)
    (hgives : p.Gives (as ++ .load file :: bs) file batch) :
    ∃ later, Table.Newest (contributions (p.readings (as ++ .load file :: bs)))
      ⟨file.path, batch⟩ later := by
  have hsteady : ∀ m ∈ (.load file :: bs : List Move), m.Steady := by
    simpa [Move.Steady, Move.call?] using hbs
  have hunaltered : ∀ m ∈ (.load file :: bs : List Move), ¬ m.Alters file.path := by
    simpa [Move.Alters] using ha
  have hoffers := offers_along hsteady hunaltered hstocks hgives
  refine newest_of_readings ?_ ⟨(p.run as).feed.loading file, ?_, Feed.path_loading _ _⟩
  · intro r hr hpath
    rw [readings, List.mem_append] at hr
    rcases hr with hr | hr
    · -- the loading itself
      obtain rfl : r = (p.run as).feed.loading file := List.mem_singleton.1 hr
      exact (hoffers [] _ rfl).found_loading
    · have hlater : ∀ cs ds, bs = cs ++ ds →
          (((p.run as).move (.load file)).run cs).feed.Offers file batch :=
        fun cs ds hsplit => hoffers (.load file :: cs) ds (by rw [hsplit]; rfl)
      exact found_readings hbs hs hlater ((p.run as).known_load file) r hr hpath
  · rw [readings]
    exact List.mem_append_left _ (List.mem_singleton.2 rfl)

lemma waits_told {p : Paced} (hk : p.feed.watcher.files.get? file.path = some file)
    (hd : p.feed.world.host.delivers (.rewritten file.path) = true) :
    file.path ∈ (p.move (.told file.path)).feed.watcher.queue := by
  have hqueue := p.feed.queue_ask (.happening (.change (.rewritten file.path)))
  have hc : p.feed.watcher.files.contains file.path = true := by simp [OrderedMap.contains, hk]
  have ht : (Change.rewritten file.path).target = file.path := rfl
  refine hqueue ▸ List.mem_append_right _ ?_
  rw [Feed.requested, if_pos ⟨hd, rfl, by rw [ht]; exact hc⟩, ht]
  exact List.mem_singleton.2 rfl

lemma newest_of_heard (hbs : ∀ m ∈ bs, m.Steady) (hs : ∀ m ∈ bs, m.Spares file)
    (ha : ∀ m ∈ bs, ¬ m.Alters file.path)
    (hk : (p.run as).feed.watcher.files.get? file.path = some file)
    (hd : (p.run as).feed.world.host.delivers (.rewritten file.path) = true)
    (hq : (p.run (as ++ .told file.path :: bs)).feed.watcher.queue = [])
    (hstocks : (p.run (as ++ .told file.path :: bs)).feed.world.host.Stocks file.path)
    (hgives : p.Gives (as ++ .told file.path :: bs) file batch) :
    ∃ later, Table.Newest (contributions (p.readings (as ++ .told file.path :: bs)))
      ⟨file.path, batch⟩ later := by
  have hsplit : as ++ .told file.path :: bs = (as ++ [.told file.path]) ++ bs := by simp
  have htold : p.run (as ++ [.told file.path]) = (p.run as).move (.told file.path) :=
    run_append p as [.told file.path]
  have hspares : (Move.told file.path).Spares file := by simp [Move.Spares, Move.call?]
  have hknown := known_move hspares hk
  rw [← htold] at hknown
  have hwaits := waits_told hk hd
  rw [← htold] at hwaits
  rw [hsplit] at hq hstocks hgives ⊢
  rw [run_append] at hq
  have hoffers := offers_along hbs ha hstocks hgives
  exact newest_of_readings (found_readings hbs hs hoffers hknown)
    (exists_reading_of_waiting hwaits hq)

end Paced

end RouterAgent
