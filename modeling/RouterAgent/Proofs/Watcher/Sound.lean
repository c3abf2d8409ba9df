import RouterAgent.Proofs.Lease.Listing
import RouterAgent.Proofs.Watcher.Ledger

/-!
Honest files, and what holds of a watcher that is given no others.

Files are honest if their readers name them in all clients. Then every record of the table belongs
to the newest batch of a known file.
-/

namespace RouterAgent

open RouterAgent.Number RouterAgent.Lease RouterAgent.Client

/-! ### Honest files -/

/-- A file's own reader, if it has one, names the file in all clients. -/
def Lease.WatchedFile.Honest (file : WatchedFile) : Prop :=
  ∀ reader ∈ file.reader, ∀ n batch, reader.answer n = some (.ok batch) →
    ∀ r ∈ batch, r.source = file.path

/-- What a file gives at the `n`-th call of its own reader. -/
def Host.gives (h : Host) (file : WatchedFile) (n : Nat) : Except Fault (List Client) :=
  (file.reader.bind (·.answer n)).getD (file.format.readLeases h file.path)

def World.turn (w : World) (file : WatchedFile) : Nat :=
  (file.reader.map fun r => w.calls r.key + 1).getD 0

lemma World.parse_fst (w : World) (phase : Phase) (file : WatchedFile) :
    (w.parse phase file).1 = w.host.gives file (w.turn file) := by
  unfold parse Host.gives turn
  cases file.reader <;> rfl

lemma Lease.WatchedFile.Honest.tagged {file : WatchedFile} (hf : file.Honest) {h : Host} {n : Nat}
    {batch : List Client} (hg : h.gives file n = .ok batch) :
    ∀ r ∈ batch, r.source = file.path := by
  unfold Host.gives at hg
  cases ha : file.reader.bind (·.answer n) with
  | none =>
    rw [ha, Option.getD_none] at hg
    exact Format.readLeases_tagged hg
  | some answer =>
    rw [ha, Option.getD_some] at hg
    rw [Option.bind_eq_some_iff] at ha
    obtain ⟨reader, hreader, hanswer⟩ := ha
    exact hf reader hreader n batch (hg ▸ hanswer)

lemma Lease.WatchedFile.Honest.tagged_parse {file : WatchedFile} (hf : file.Honest) {w : World}
    {phase : Phase} {batch : List Client} (h : (w.parse phase file).1.toOption = some batch) :
    ∀ r ∈ batch, r.source = file.path := by
  rw [World.parse_fst] at h
  cases hg : w.host.gives file (w.turn file) with
  | error fault => simp [hg, Except.toOption] at h
  | ok found =>
    obtain rfl : found = batch := by simpa [hg, Except.toOption] using h
    exact hf.tagged hg

namespace Feed

/-- Each known file stands at its own path and is honest, every record belongs to the newest batch
of its file, and only known files have listings. -/
structure Sound (f : Feed) : Prop where
  honest : ∀ {path file}, f.watcher.files.get? path = some file → file.path = path ∧ file.Honest
  owned : f.table.Owned
  known : ∀ {source macs}, f.table.listed.get? source = some macs → source ∈ f.watcher.files.keys

lemma Sound.of_eq {f g : Feed} (h : f.Sound) (hf : g.watcher.files = f.watcher.files)
    (ht : g.table = f.table) : g.Sound :=
  ⟨by rw [hf]; exact h.honest, by rw [ht]; exact h.owned, by rw [hf, ht]; exact h.known⟩

lemma Sound.of_contribution {f g : Feed} (h : f.Sound) {c : Option Contribution}
    (hf : g.watcher.files = f.watcher.files) (ht : g.table = f.table.replay c.toList)
    (hc : ∀ d ∈ c, d.Tagged ∧ d.source ∈ f.watcher.files.keys) : g.Sound := by
  cases c with
  | none => exact h.of_eq hf ht
  | some c =>
    obtain ⟨htagged, hknown⟩ := hc c rfl
    have ht : g.table = f.table.contribute c := ht
    refine ⟨by rw [hf]; exact h.honest, by rw [ht]; exact h.owned.contribute htagged, ?_⟩
    intro source macs hlisted
    rw [ht, Table.contribute, Table.listed_replaceSource, OrderedMap.get?_insert] at hlisted
    rw [hf]
    split at hlisted
    · next hs => exact hs ▸ hknown
    · exact h.known hlisted

lemma Sound.know {f : Feed} (h : f.Sound) {file : WatchedFile} (hfile : file.Honest) :
    ({ f with watcher := f.watcher.know file } : Feed).Sound := by
  refine ⟨fun {path other} hother => ?_, h.owned, fun {source macs} hlisted => ?_⟩
  · simp only [Watcher.know, OrderedMap.get?_insert] at hother
    split at hother
    · next hpath =>
      -- the new file itself
      obtain rfl : file = other := Option.some.inj hother
      exact ⟨hpath.symm, hfile⟩
    · exact h.honest hother
  · have hkeys := h.known hlisted
    simp only [Watcher.know, OrderedMap.keys_insert]
    split
    · exact hkeys
    · exact List.mem_append_left _ hkeys

/-! ### Soundness along the moves -/

lemma contribution_rereading {f : Feed} (h : f.Sound) (occasion : Occasion) (path : String) :
    ∀ c ∈ (f.rereading occasion path).contribution?,
      c.Tagged ∧ c.source ∈ f.watcher.files.keys := by
  intro c hc
  obtain ⟨hsource, hfound⟩ := Reading.mem_contribution?.1 hc
  rw [path_rereading] at hsource
  unfold rereading at hfound
  cases hf : f.watcher.files.get? path with
  | none => simp [hf] at hfound
  | some file =>
    simp only [hf] at hfound
    split at hfound
    · obtain ⟨hpath, hhonest⟩ := h.honest hf
      have htagged := hhonest.tagged_parse hfound
      rw [Contribution.Tagged, hsource, ← hpath]
      exact ⟨htagged, hpath ▸ OrderedMap.mem_keys_of_get? hf⟩
    · simp at hfound

lemma contribution_loading (f : Feed) {file : WatchedFile} (hfile : file.Honest) :
    ∀ c ∈ (f.loading file).contribution?, c.Tagged ∧ c.source = file.path := by
  intro c hc
  obtain ⟨hsource, hfound⟩ := Reading.mem_contribution?.1 hc
  rw [path_loading] at hsource
  unfold loading at hfound
  split at hfound
  · rw [Contribution.Tagged, hsource]
    exact ⟨hfile.tagged_parse hfound, rfl⟩
  · simp at hfound

lemma files_reparse (f : Feed) (path : String) :
    (f.reparse path).watcher.files = f.watcher.files := by
  obtain ⟨phase, h⟩ := f.watcher_reparse path
  rw [h]

lemma files_reparseAll (f : Feed) (paths : List String) :
    (f.reparseAll paths).watcher.files = f.watcher.files := by
  obtain ⟨phase, h⟩ := f.watcher_reparseAll paths
  rw [h]

lemma Sound.reparse {f : Feed} (h : f.Sound) (path : String) : (f.reparse path).Sound :=
  h.of_contribution (f.files_reparse path) (f.reparse_spec .notice path).1
    (contribution_rereading h .notice path)

lemma Sound.reparseAll {f : Feed} (h : f.Sound) (paths : List String) :
    (f.reparseAll paths).Sound := by
  induction paths generalizing f with
  | nil => exact h
  | cons path paths ih => exact ih (h.reparse path)

lemma Sound.tagged_rereadings {f : Feed} (h : f.Sound) (occasion : Occasion)
    (paths : List String) : ∀ c ∈ contributions (f.rereadings occasion paths), c.Tagged := by
  induction paths generalizing f with
  | nil => simp [rereadings, contributions]
  | cons path paths ih =>
    intro c hc
    rw [rereadings, ← List.singleton_append, contributions_append, contributions_singleton,
      List.mem_append, Option.mem_toList] at hc
    rcases hc with hc | hc
    · exact (contribution_rereading h occasion path c hc).1
    · exact ih (h.reparse path) c hc

lemma Sound.withQueue {f : Feed} (h : f.Sound) (paths : List String) : (f.withQueue paths).Sound :=
  h.of_eq rfl rfl

lemma Sound.drain {f : Feed} (h : f.Sound) : f.drain.Sound := by
  cases hr : f.watcher.running with
  | false => exact (drain_of_stopped hr).symm ▸ h
  | true => exact (drain_of_running hr).symm ▸ (h.reparseAll _).withQueue []

lemma Sound.load {f : Feed} (h : f.Sound) {file : WatchedFile} (hfile : file.Honest) :
    (f.load file).2.Sound := by
  obtain ⟨ht, hw, -, -⟩ := f.load_spec file
  refine (h.know hfile).of_contribution (c := (f.loading file).contribution?) (by rw [hw]) ht ?_
  intro c hc
  obtain ⟨htagged, hsource⟩ := f.contribution_loading hfile c hc
  refine ⟨htagged, ?_⟩
  rw [hsource, ← OrderedMap.contains_iff]
  simp [OrderedMap.contains, Watcher.know, OrderedMap.get?_insert]

lemma Sound.add {f : Feed} (h : f.Sound) {file : WatchedFile} (hfile : file.Honest) :
    (f.add file).2.Sound := by
  obtain ⟨hreads, -, -, hfiles⟩ := f.add_spec file
  have ht : (f.add file).2.table = f.table := hreads.table
  split at hfiles
  · exact (h.know hfile).of_eq hfiles ht
  · exact h.of_eq hfiles ht

lemma files_enqueue (f : Feed) (path : String) :
    (f.enqueue path).watcher.files = f.watcher.files := by
  unfold enqueue Watcher.notify
  split <;> rfl

lemma Sound.enqueue {f : Feed} (h : f.Sound) (path : String) : (f.enqueue path).Sound :=
  h.of_eq (f.files_enqueue path) rfl

lemma Sound.launch {f : Feed} (h : f.Sound) : f.launch.2.Sound := by
  unfold Feed.launch
  split
  · exact h
  · rcases f.world.host.startObserver with ⟨_ | _, host⟩ <;> exact h.of_eq rfl rfl

lemma Sound.stop {f : Feed} (h : f.Sound) : f.stop.Sound := by
  unfold Feed.stop
  split
  · exact h.of_eq rfl rfl
  · exact h

lemma Sound.happening {f : Feed} (h : f.Sound) (hap : Happening) :
    (f.ask (.happening hap)).Sound := by
  cases hap with
  | change c =>
    simp only [ask]
    split
    · exact h.enqueue c.target
    · exact h
  | _ => exact h.of_eq rfl rfl

lemma sound_new (w : World) (refresh : Binary64) : (Paced.new w refresh).feed.Sound :=
  ⟨fun h => by simp [Paced.new, Watcher.new, OrderedMap.get?_empty] at h, Table.owned_empty,
    fun h => by simp [Paced.new, Table.empty, OrderedMap.get?_empty] at h⟩

end Feed

def Move.Honest : Move → Prop
  | .outside (.watcher (.load file)) | .outside (.watcher (.add file)) => file.Honest
  | _ => True

namespace Paced

lemma sound_work {p : Paced} (h : p.feed.Sound) : p.work.feed.Sound := by
  obtain ⟨f, agenda⟩ := p
  unfold work
  rcases agenda with _ | ⟨path, _ | ⟨next, rest⟩⟩
  · simp only
    split
    · split
      · next rest _ => exact (h.withQueue rest).reparse _
      · split
        · split
          · exact h.of_eq rfl rfl
          · exact h
        · exact h
    · exact h
  · exact (h.reparse path).of_eq rfl rfl
  · exact h.reparse path

lemma sound_move {p : Paced} (h : p.feed.Sound) {m : Move} (hm : m.Honest) :
    (p.move m).feed.Sound := by
  cases m with
  | work => exact sound_work h
  | outside s =>
    cases s with
    | happening hap => exact h.happening hap
    | observers | table _ => exact h
    | watcher c =>
      cases c with
      | start => exact h.launch
      | stop => exact (h.reparseAll p.agenda).drain.stop
      | notify path => exact h.enqueue path
      | watchList => exact h
      | load file => exact h.load hm
      | add file => exact h.add hm

lemma sound_run {p : Paced} (h : p.feed.Sound) {ms : List Move} (hms : ∀ m ∈ ms, m.Honest) :
    (p.run ms).feed.Sound := by
  induction ms generalizing p with
  | nil => exact h
  | cons m ms ih =>
    exact ih (sound_move h (hms m (by simp))) fun n hn => hms n (by simp [hn])

lemma tagged_readingsOf {p : Paced} (h : p.feed.Sound) {m : Move} (hm : m.Honest) :
    ∀ c ∈ contributions (p.readingsOf m), c.Tagged := by
  have hnone : ∀ c ∈ contributions [], c.Tagged := by simp [contributions]
  have hone {r : Reading} (hr : ∀ c ∈ r.contribution?, c.Tagged) :
      ∀ c ∈ contributions [r], c.Tagged := by
    intro c hc
    rw [contributions_singleton, Option.mem_toList] at hc
    exact hr c hc
  cases m with
  | work =>
    have hreread (occasion : Occasion) (path : String) :=
      hone fun c hc => (Feed.contribution_rereading h occasion path c hc).1
    simp only [readingsOf]
    split
    · exact hreread .refresh _
    · split
      · split
        · exact hreread .notice _
        · exact hnone
      · exact hnone
  | outside s =>
    cases s with
    | happening | observers | table => exact hnone
    | watcher c =>
      cases c with
      | stop =>
        intro c hc
        simp only [readingsOf, lastReadings, contributions_append, List.mem_append] at hc
        rcases hc with hc | hc
        · exact h.tagged_rereadings .refresh _ c hc
        · split at hc
          · exact (h.reparseAll _).tagged_rereadings .notice _ c hc
          · exact hnone c hc
      | load file => exact hone fun c hc => (p.feed.contribution_loading hm c hc).1
      | start | notify | watchList | add => exact hnone

lemma tagged_readings {p : Paced} (h : p.feed.Sound) {ms : List Move}
    (hms : ∀ m ∈ ms, m.Honest) : ∀ c ∈ contributions (p.readings ms), c.Tagged := by
  induction ms generalizing p with
  | nil => simp [readings, contributions]
  | cons m ms ih =>
    have hm : m.Honest := hms m (by simp)
    intro c hc
    rw [readings, contributions_append, List.mem_append] at hc
    rcases hc with hc | hc
    · exact tagged_readingsOf h hm c hc
    · exact ih (sound_move h hm) (fun n hn => hms n (by simp [hn])) c hc

end Paced

namespace Feed

/-- The feed of a watcher, at any time, to which only honest files were given. -/
def Reached (f : Feed) : Prop :=
  ∃ w refresh ms, (∀ m ∈ ms, Move.Honest m) ∧ f = ((Paced.new w refresh).run ms).feed

lemma Reached.sound {f : Feed} (h : f.Reached) : f.Sound := by
  obtain ⟨w, refresh, ms, hms, rfl⟩ := h
  exact Paced.sound_run (sound_new w refresh) hms

end Feed

end RouterAgent
