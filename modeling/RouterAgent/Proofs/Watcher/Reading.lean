import RouterAgent.Proofs.Table.History
import RouterAgent.Watcher.Step

/-!
Readings of lease files, and what one reading does to a watcher and its surroundings.

A reading is successful if it gives clients; then it is one contribution to the table, and else the
table stays as it is. Besides the table a reading changes only the log, the calls of readers and
the phase.
-/

namespace RouterAgent

open RouterAgent.Lease RouterAgent.Client

/-- A reading: the calls of the file's own reader, and the clients that were found if it was
successful. -/
structure Reading where
  occasion : Occasion
  path : String
  asked : List Action
  found : Option (List Client)

def Reading.contribution? (r : Reading) : Option Contribution :=
  r.found.map fun batch => ⟨r.path, batch⟩

lemma Reading.mem_contribution? {r : Reading} {c : Contribution} :
    c ∈ r.contribution? ↔ c.source = r.path ∧ r.found = some c.batch := by
  obtain ⟨source, batch⟩ := c
  rw [Reading.contribution?, Option.mem_def, Option.map_eq_some_iff]
  constructor
  · rintro ⟨found, hfound, h⟩
    rw [Contribution.mk.injEq] at h
    exact ⟨h.1.symm, h.2 ▸ hfound⟩
  · rintro ⟨hsource, hfound⟩
    exact ⟨batch, hfound, by rw [← hsource]⟩

def contributions (rs : List Reading) : List Contribution := rs.filterMap Reading.contribution?

lemma contributions_append (rs qs : List Reading) :
    contributions (rs ++ qs) = contributions rs ++ contributions qs :=
  List.filterMap_append

lemma contributions_singleton (r : Reading) : contributions [r] = r.contribution?.toList := by
  cases h : r.contribution? <;> simp [contributions, h]

/-! ### Calls of readers -/

def Action.asksReader : Action → Bool
  | .parsed _ _ => true
  | _ => false

namespace World

def asked (w : World) : List Action := w.trace.filter Action.asksReader

@[simp] lemma asked_note (w : World) (level : Level) (writer : Writer) (text : String) :
    (w.note level writer text).asked = w.asked := rfl

end World

def Lease.WatchedFile.asks (file : WatchedFile) (phase : Phase) : List Action :=
  if file.reader.isSome then [.parsed file.path phase] else []

namespace World

lemma host_parse (w : World) (phase : Phase) (file : WatchedFile) :
    (w.parse phase file).2.host = w.host := by
  unfold parse
  split <;> rfl

lemma asked_parse (w : World) (phase : Phase) (file : WatchedFile) :
    (w.parse phase file).2.asked = w.asked ++ file.asks phase := by
  unfold parse
  split
  · next h => simp [WatchedFile.asks, h]
  · next r h => simp [WatchedFile.asks, h, asked, did, Action.asksReader]

lemma calls_parse (w : World) (phase : Phase) (file : WatchedFile) (k : Nat) :
    w.calls k ≤ (w.parse phase file).2.calls k := by
  unfold parse
  split
  · exact le_refl _
  · simp only
    split
    · next hk => subst hk; omega
    · exact le_refl _

end World

namespace World

lemma parse_log (w : World) (log : List Note) (phase : Phase) (file : WatchedFile) :
    ({ w with log } : World).parse phase file =
      ((w.parse phase file).1, { (w.parse phase file).2 with log }) := by
  unfold parse
  cases file.reader <;> rfl

end World

namespace Feed

@[simp] lemma table_note (f : Feed) (level : Level) (text : String) :
    (f.note level text).table = f.table := rfl
@[simp] lemma watcher_note (f : Feed) (level : Level) (text : String) :
    (f.note level text).watcher = f.watcher := rfl

/-! ### The steps of a reading -/

/-- On the way from one feed to another notes are written, and that is all. -/
def Notes (f g : Feed) : Prop := ∃ log, g = { f with world := { f.world with log } }

lemma Notes.refl (f : Feed) : f.Notes f := ⟨f.world.log, rfl⟩

lemma Notes.trans {f g h : Feed} (hf : f.Notes g) (hg : g.Notes h) : f.Notes h := by
  obtain ⟨_, rfl⟩ := hf
  exact hg

lemma notes_note (f : Feed) (level : Level) (text : String) : f.Notes (f.note level text) :=
  ⟨_, rfl⟩

lemma notes_noteFailure (f : Feed) (path : String) (fault : Fault) :
    f.Notes (f.noteFailure path fault) := by
  unfold noteFailure
  split <;> exact notes_note ..

/-- Whether there is something to read: for a caller a file that exists, for the worker something
that is not empty. -/
def finds (f : Feed) (occasion : Occasion) (path : String) : Bool :=
  match occasion with
  | .load => f.world.host.holds path
  | .notice | .refresh => (f.world.host.size? path).any (0 < ·)

lemma seek_spec (f : Feed) (occasion : Occasion) (path : String) :
    (f.seek occasion path).1 = f.finds occasion path ∧ f.Notes (f.seek occasion path).2 := by
  cases occasion with
  | load => cases hh : f.world.host.holds path <;> simp [seek, finds, hh, Notes.refl, notes_note]
  | notice | refresh =>
    rcases hs : f.world.host.size? path with _ | _ | n <;>
      simp [seek, finds, hs, Notes.refl, notes_note]

def contributed (path : String) (result : Except Fault (List Client)) : List Contribution :=
  (result.toOption.map fun batch => ⟨path, batch⟩).toList

lemma notes_take (f : Feed) (occasion : Occasion) (path : String)
    (result : Except Fault (List Client)) :
    Notes { f with table := f.table.replay (contributed path result) }
      (f.take occasion path result).2 := by
  cases result with
  | error fault => exact f.notes_noteFailure path fault
  | ok clients =>
    have hreplay : f.table.replay (contributed path (.ok clients)) =
        (f.table.replaceSource path clients).2 := rfl
    rcases hc : f.table.replaceSource path clients with ⟨changed, table⟩
    rw [hreplay]
    simp only [take, replace, hc]
    cases occasion with
    | load => exact notes_note ..
    | notice | refresh =>
      cases changed with
      | true => exact notes_note ..
      | false => exact .refl _

def reading (f : Feed) (occasion : Occasion) (path : String) (file : WatchedFile) : Reading :=
  if f.finds occasion path then
    { occasion, path, asked := file.asks f.watcher.phase
      found := (f.world.parse f.watcher.phase file).1.toOption }
  else { occasion, path, asked := [], found := none }

def worldAfter (f : Feed) (occasion : Occasion) (path : String) (file : WatchedFile) : World :=
  if f.finds occasion path then (f.world.parse f.watcher.phase file).2 else f.world

/-- **Reading a file.** The reading is one contribution to the table if it is successful, and
besides the table it changes only what is known of the surroundings. -/
theorem notes_read (f : Feed) (occasion : Occasion) (path : String) (file : WatchedFile) :
    Notes { f with
        world := f.worldAfter occasion path file
        table := f.table.replay (f.reading occasion path file).contribution?.toList }
      (f.read occasion path file).2 := by
  obtain ⟨hfst, hnotes⟩ := f.seek_spec occasion path
  unfold read reading worldAfter
  generalize f.seek occasion path = out at hfst hnotes ⊢
  obtain ⟨there, g⟩ := out
  obtain rfl : there = f.finds occasion path := hfst
  obtain ⟨log, rfl⟩ : f.Notes g := hnotes
  cases f.finds occasion path with
  | false => exact ⟨log, rfl⟩
  | true =>
    simp only [parse, World.parse_log, if_true]
    obtain ⟨log', h⟩ := notes_take
      { f with world := { (f.world.parse f.watcher.phase file).2 with log } } occasion path
      (f.world.parse f.watcher.phase file).1
    exact ⟨log', h⟩

lemma host_worldAfter (f : Feed) (occasion : Occasion) (path : String) (file : WatchedFile) :
    (f.worldAfter occasion path file).host = f.world.host := by
  unfold worldAfter
  split
  · exact f.world.host_parse ..
  · rfl

lemma asked_worldAfter (f : Feed) (occasion : Occasion) (path : String) (file : WatchedFile) :
    (f.worldAfter occasion path file).asked =
      f.world.asked ++ (f.reading occasion path file).asked := by
  unfold worldAfter reading
  split
  · exact f.world.asked_parse ..
  · exact (List.append_nil _).symm

lemma calls_worldAfter (f : Feed) (occasion : Occasion) (path : String) (file : WatchedFile)
    (k : Nat) : f.world.calls k ≤ (f.worldAfter occasion path file).calls k := by
  unfold worldAfter
  split
  · exact f.world.calls_parse ..
  · exact le_refl _

/-! ### Loading -/

/-- What a caller's reading finds: the file exists and its reader returns. -/
def loading (f : Feed) (file : WatchedFile) : Reading :=
  if f.world.host.holds file.path then
    { occasion := .load, path := file.path, asked := file.asks f.watcher.phase
      found := (f.world.parse f.watcher.phase file).1.toOption }
  else { occasion := .load, path := file.path, asked := [], found := none }

lemma path_loading (f : Feed) (file : WatchedFile) : (f.loading file).path = file.path := by
  unfold loading
  split <;> rfl

/-- **Loading a file.** The file is known from now on; its reading is one contribution to the
table if it is successful, and changes nothing else that the watcher goes by. -/
theorem load_spec (f : Feed) (file : WatchedFile) :
    (f.load file).2.table = f.table.replay (f.loading file).contribution?.toList ∧
    (f.load file).2.watcher = f.watcher.know file ∧
    (f.load file).2.world.host = f.world.host ∧
    (f.load file).2.world.asked = f.world.asked ++ (f.loading file).asked := by
  have hhost := host_worldAfter { f with watcher := f.watcher.know file } .load file.path file
  have hasked := asked_worldAfter { f with watcher := f.watcher.know file } .load file.path file
  obtain ⟨log, h⟩ := notes_read { f with watcher := f.watcher.know file } .load file.path file
  unfold load
  rw [h]
  exact ⟨rfl, rfl, hhost, hasked⟩

/-! ### Reading again -/

/-- What the worker's reading finds: the path is known, what it names is not empty, and the reader
returns. -/
def rereading (f : Feed) (occasion : Occasion) (path : String) : Reading :=
  match f.watcher.files.get? path with
  | none => { occasion, path, asked := [], found := none }
  | some file =>
    if (f.world.host.size? path).any (0 < ·) then
      { occasion, path, asked := file.asks .reparsing
        found := (f.world.parse .reparsing file).1.toOption }
    else { occasion, path, asked := [], found := none }

lemma occasion_rereading (f : Feed) (occasion : Occasion) (path : String) :
    (f.rereading occasion path).occasion = occasion := by
  unfold rereading
  split
  · rfl
  · split <;> rfl

lemma path_rereading (f : Feed) (occasion : Occasion) (path : String) :
    (f.rereading occasion path).path = path := by
  unfold rereading
  split
  · rfl
  · split <;> rfl

lemma contribution?_rereading (f : Feed) (occasion : Occasion) (path : String) :
    (f.rereading occasion path).contribution? = (f.rereading .notice path).contribution? ∧
      (f.rereading occasion path).asked = (f.rereading .notice path).asked := by
  unfold rereading
  split
  · exact ⟨rfl, rfl⟩
  · split <;> exact ⟨rfl, rfl⟩

/-- **Reading a file again.** The reading is one contribution to the table if it is successful, and
else nothing happens; of the watcher only the phase may change. -/
theorem reparse_spec (f : Feed) (occasion : Occasion) (path : String) :
    (f.reparse path).table = f.table.replay (f.rereading occasion path).contribution?.toList ∧
    (f.reparse path).watcher =
      (if f.watcher.files.contains path then { f.watcher with phase := .watching }
        else f.watcher) ∧
    (f.reparse path).world.host = f.world.host ∧
    (f.reparse path).world.asked = f.world.asked ++ (f.rereading occasion path).asked ∧
    ∀ k, f.world.calls k ≤ (f.reparse path).world.calls k := by
  obtain ⟨hcontribution, hasks⟩ := f.contribution?_rereading occasion path
  rw [hcontribution, hasks]
  unfold reparse rereading
  cases hf : f.watcher.files.get? path with
  | none => simp [OrderedMap.contains, hf, Reading.contribution?]
  | some file =>
    have hhost := host_worldAfter (f.enter .reparsing) .notice path file
    have hasked := asked_worldAfter (f.enter .reparsing) .notice path file
    have hcalls := calls_worldAfter (f.enter .reparsing) .notice path file
    obtain ⟨log, h⟩ := notes_read (f.enter .reparsing) .notice path file
    simp only [h]
    refine ⟨rfl, ?_, hhost, hasked, hcalls⟩
    rw [if_pos (by simp [OrderedMap.contains, hf])]
    rfl

def rereadings (f : Feed) (occasion : Occasion) : List String → List Reading
  | [] => []
  | path :: paths => f.rereading occasion path :: (f.reparse path).rereadings occasion paths

/-! ### Readings on the way from one feed to another -/

/-- On the way from one feed to another exactly these readings were made, in this order. -/
structure Reads (f g : Feed) (rs : List Reading) : Prop where
  table : g.table = f.table.replay (contributions rs)
  asked : g.world.asked = f.world.asked ++ rs.flatMap Reading.asked

lemma Reads.none {f g : Feed} (ht : g.table = f.table) (ha : g.world.asked = f.world.asked) :
    f.Reads g [] :=
  ⟨by simp [contributions, ht], by simp [ha]⟩

lemma Reads.trans {f g h : Feed} {rs qs : List Reading} (hf : f.Reads g rs) (hg : g.Reads h qs) :
    f.Reads h (rs ++ qs) :=
  ⟨by rw [hg.table, hf.table, contributions_append, Table.replay_append],
    by rw [hg.asked, hf.asked, List.flatMap_append, List.append_assoc]⟩

lemma reads_load (f : Feed) (file : WatchedFile) : f.Reads (f.load file).2 [f.loading file] := by
  obtain ⟨ht, -, -, ha⟩ := f.load_spec file
  exact ⟨by rw [ht, contributions_singleton], by simp [ha]⟩

lemma reads_reparse (f : Feed) (occasion : Occasion) (path : String) :
    f.Reads (f.reparse path) [f.rereading occasion path] := by
  obtain ⟨ht, -, -, ha, -⟩ := f.reparse_spec occasion path
  exact ⟨by rw [ht, contributions_singleton], by simp [ha]⟩

lemma reads_reparseAll (f : Feed) (occasion : Occasion) (paths : List String) :
    f.Reads (f.reparseAll paths) (f.rereadings occasion paths) := by
  induction paths generalizing f with
  | nil => exact .none rfl rfl
  | cons path paths ih => exact (f.reads_reparse occasion path).trans (ih (f.reparse path))

lemma watcher_reparse (f : Feed) (path : String) :
    ∃ phase, (f.reparse path).watcher = { f.watcher with phase } := by
  rw [(f.reparse_spec .notice path).2.1]
  split
  · exact ⟨_, rfl⟩
  · exact ⟨f.watcher.phase, rfl⟩

lemma watcher_reparseAll (f : Feed) (paths : List String) :
    ∃ phase, (f.reparseAll paths).watcher = { f.watcher with phase } := by
  induction paths generalizing f with
  | nil => exact ⟨f.watcher.phase, rfl⟩
  | cons path paths ih =>
    obtain ⟨phase, h⟩ := f.watcher_reparse path
    obtain ⟨phase', h'⟩ := ih (f.reparse path)
    exact ⟨phase', by rw [reparseAll_cons, h', h]⟩

lemma host_reparse (f : Feed) (path : String) : (f.reparse path).world.host = f.world.host :=
  (f.reparse_spec .notice path).2.2.1

/-! ### Adding -/

/-- **Adding a file.** It is known from now on, if there is an observer at all; nothing is read, and
the work of the watcher stays as it is. -/
theorem add_spec (f : Feed) (file : WatchedFile) :
    f.Reads (f.add file).2 [] ∧
    (f.add file).2.watcher.queue = f.watcher.queue ∧
    (f.add file).2.watcher.running = f.watcher.running ∧
    (f.add file).2.watcher.files =
      if f.watcher.observer.isSome then f.watcher.files.insert file.path file
      else f.watcher.files := by
  unfold add
  cases hn : f.watcher.observer with
  | none => exact ⟨.none rfl rfl, rfl, rfl, rfl⟩
  | some n =>
    have hasked (host : Host) :
        ({ f.world.did (.subscribed (directoryOf file.path)) with host } : World).asked =
          f.world.asked := by
      simp [World.asked, World.did, Action.asksReader]
    simp only
    split
    · exact ⟨.none rfl rfl, rfl, rfl, rfl⟩
    · split
      · exact ⟨.none rfl rfl, rfl, rfl, rfl⟩
      · rcases f.world.host.subscribe n (directoryOf file.path) with ⟨result, host⟩
        cases result with
        | ok _ => exact ⟨.none rfl (hasked host), rfl, rfl, rfl⟩
        | error fault =>
          simp only
          split <;> exact ⟨.none rfl (hasked host), rfl, rfl, rfl⟩

end Feed

end RouterAgent
