import RouterAgent.Proofs.Watcher.Enlisting
import RouterAgent.Proofs.Watcher.Refinement
import RouterAgent.Proofs.Watcher.Restart

/-!
A notice of a file does what loading the file does.

The caller who loads a file and the worker who reads it again ask the host differently whether there
is something to read. The answers differ for an empty file only, which the worker leaves alone.
-/

namespace RouterAgent

open RouterAgent.Number RouterAgent.Lease

abbrev Move.notify (path : String) : Move := .outside (.watcher (.notify path))

namespace Host

lemma holds_eq_isSome_size? (h : Host) (path : String) :
    h.holds path = (h.size? path).isSome := by
  unfold holds size?
  cases h.isDir path <;> simp

lemma any_size?_eq_holds {h : Host} {path : String} (hs : h.size? path ≠ some 0) :
    (h.size? path).any (0 < ·) = h.holds path := by
  rw [holds_eq_isSome_size?]
  rcases hsize : h.size? path with _ | n
  · rfl
  · have hn : n ≠ 0 := fun h => hs (by rw [hsize, h])
    simp [Nat.pos_of_ne_zero hn]

end Host

namespace Feed

/-- Each known file stands at its own path. -/
def Keyed (f : Feed) : Prop :=
  ∀ path file, f.watcher.files.get? path = some file → file.path = path

lemma Keyed.get?_of_mem {f : Feed} (h : f.Keyed) {file : WatchedFile}
    (hf : file ∈ f.watcher.files.values) : f.watcher.files.get? file.path = some file := by
  obtain ⟨⟨path, other⟩, hmem, rfl⟩ := List.mem_map.1 hf
  have hget : f.watcher.files.get? path = some other := OrderedMap.get?_eq_some_iff.2 hmem
  obtain rfl : other.path = path := h path other hget
  exact hget

variable {f : Feed} {file : WatchedFile}

lemma contribution_rereading_eq (hk : f.watcher.files.get? file.path = some file)
    (hs : f.world.host.size? file.path ≠ some 0) (occasion : Occasion) :
    (f.rereading occasion file.path).contribution? = (f.loading file).contribution? := by
  have hparse : (f.world.parse .reparsing file).1 = (f.world.parse f.watcher.phase file).1 := by
    rw [World.parse_fst, World.parse_fst]
  unfold rereading loading
  rw [hk]
  simp only [Host.any_size?_eq_holds hs, hparse]
  cases f.world.host.holds file.path <;> rfl

lemma table_reparse_eq_load (hk : f.watcher.files.get? file.path = some file)
    (hs : f.world.host.size? file.path ≠ some 0) :
    (f.reparse file.path).table = (f.load file).2.table := by
  rw [(f.reparse_spec .notice file.path).1, (f.load_spec file).1, contribution_rereading_eq hk hs]

lemma table_reparse_of_empty {path : String} (hs : f.world.host.size? path = some 0) :
    (f.reparse path).table = f.table := by
  have hfound : (f.rereading .notice path).contribution? = none := by
    unfold rereading
    rw [hs]
    split <;> rfl
  rw [(f.reparse_spec .notice path).1, hfound]
  rfl

end Feed

namespace Paced

variable {p : Paced}

lemma keyed_move (h : p.feed.Keyed) (m : Move) : (p.move m).feed.Keyed := by
  intro path file hget
  rcases p.files_move m with hsame | ⟨other, -, hinsert⟩
  · exact h path file (hsame ▸ hget)
  · rw [hinsert, OrderedMap.get?_insert] at hget
    split at hget
    · next hpath =>
      obtain rfl : other = file := Option.some.inj hget
      exact hpath.symm
    · exact h path file hget

lemma keyed_run (h : p.feed.Keyed) (ms : List Move) : (p.run ms).feed.Keyed := by
  induction ms generalizing p with
  | nil => exact h
  | cons m ms ih => exact ih (keyed_move h m)

lemma keyed_new (w : World) (refresh : Binary64) : (new w refresh).feed.Keyed :=
  fun _ _ h => by simp [new, Watcher.new, OrderedMap.get?_empty] at h

/-! ### The worker's part -/

/-- Next the worker reads a path again because of a notice. -/
structure Takes (p : Paced) (path : String) : Prop where
  running : p.feed.watcher.running = true
  agenda : p.agenda = []
  queue : p.feed.watcher.queue.head? = some path

lemma Takes.table_work {path : String} (h : p.Takes path) :
    p.work.feed.table = (p.feed.reparse path).table := by
  obtain ⟨f, agenda⟩ := p
  obtain ⟨hr, rfl, hq⟩ := h
  obtain ⟨rest, hq⟩ := List.head?_eq_some_iff.1 hq
  rw [work_of_queue hr hq]
  rfl

lemma move_notify {path : String} (hk : path ∈ p.feed.watcher.files.keys) :
    p.move (.notify path) = ⟨p.feed.withQueue (p.feed.watcher.queue ++ [path]), p.agenda⟩ := by
  have henqueue : p.feed.enqueue path = p.feed.withQueue (p.feed.watcher.queue ++ [path]) := by
    rw [Feed.enqueue, Watcher.notify, if_pos (OrderedMap.contains_iff.2 hk)]
    rfl
  exact congrArg (Paced.mk · p.agenda) henqueue

lemma Idle.takes {path : String} (h : p.Idle) (hr : p.feed.watcher.running = true)
    (hk : path ∈ p.feed.watcher.files.keys) : (p.move (.notify path)).Takes path := by
  rw [move_notify hk, h.queue hr]
  exact ⟨hr, h.agenda, rfl⟩

lemma exists_works_takes {path : String} (hr : p.feed.watcher.running = true)
    (hk : path ∈ p.feed.watcher.files.keys) :
    ∃ n, ((p.move (.notify path)).works n).Takes path := by
  -- first what is on the agenda, then what waited before
  have hqueue {f : Feed} (hf : f.watcher.running = true) (paths : List String) :
      ((⟨f.withQueue (paths ++ [path]), []⟩ : Paced).works paths.length).Takes path := by
    rw [works_queue hf]
    exact ⟨(f.running_reparseAll paths).trans hf, rfl, rfl⟩
  obtain ⟨f, agenda⟩ := p
  rw [move_notify hk]
  rcases agenda with _ | ⟨next, rest⟩
  · exact ⟨_, hqueue hr f.watcher.queue⟩
  · refine ⟨rest.length + 1 + f.watcher.queue.length, ?_⟩
    rw [works_add, works_agenda, Feed.reparseAll_withQueue]
    have hf : (f.reparseAll (next :: rest)).plan.watcher.running = true :=
      (f.running_reparseAll (next :: rest)).trans hr
    exact hqueue hf f.watcher.queue

/-- **A notice does what loading does.** A watcher whose worker runs knows a file, whatever was done
before. Unless the file is there and empty, reading it again leaves the same table as loading it
would, records and listings, be it missing, unreadable, malformed or read with success; an empty
file changes nothing. Reading again is what the worker does for a notice that comes first in the
queue, and for one that is given while nothing waits; and left alone it comes to each notice. -/
theorem notice_reads_as_load {w : World} {refresh : Binary64} {ms : List Move} {p : Paced}
    {file : WatchedFile} (reached : (new w refresh).run ms = p)
    (running : p.feed.watcher.running = true) (known : file ∈ p.feed.watcher.files.values) :
    (p.feed.world.host.size? file.path ≠ some 0 →
      (p.feed.reparse file.path).table = (p.move (.load file)).feed.table) ∧
    (p.feed.world.host.size? file.path = some 0 →
      (p.feed.reparse file.path).table = p.feed.table) ∧
    (p.Takes file.path → p.work.feed.table = (p.feed.reparse file.path).table) ∧
    (p.Idle → (p.run [.notify file.path, .work]).feed.table =
      (p.feed.reparse file.path).table) ∧
    ∃ n, ((p.move (.notify file.path)).works n).Takes file.path := by
  have hkeyed : p.feed.Keyed := reached ▸ keyed_run (keyed_new w refresh) ms
  have hget := hkeyed.get?_of_mem known
  have hmem := OrderedMap.mem_keys_of_get? hget
  refine ⟨Feed.table_reparse_eq_load hget, Feed.table_reparse_of_empty, Takes.table_work,
    fun hidle => ?_, exists_works_takes running hmem⟩
  have htable := (hidle.takes running hmem).table_work
  rw [move_notify hmem, Feed.reparse_withQueue] at htable
  rw [run_cons, move_notify hmem]
  exact htable

def filled : List Move :=
  [.start, .load hallFile, .write "/hall/a" (oneLease "aa:00:00:00:00:01")]

def emptied : List Move :=
  filled ++ [.notify "/hall/a", .work, .write "/hall/a" (.bytes [])]

theorem notice_reads_as_load_filled :
    (((new twoDirs Binary64.zero).run filled).run [.notify "/hall/a", .work]).feed.table =
      (((new twoDirs Binary64.zero).run filled).move (.load hallFile)).feed.table ∧
    (((new twoDirs Binary64.zero).run emptied).run [.notify "/hall/a", .work]).feed.table =
      ((new twoDirs Binary64.zero).run emptied).feed.table := by
  have hfilled : ((new twoDirs Binary64.zero).run filled).feed.watcher.running = true := by
    decide +kernel
  have hemptied : ((new twoDirs Binary64.zero).run emptied).feed.watcher.running = true := by
    decide +kernel
  have hknown {ms : List Move} (hs : ∀ m ∈ ms, m.Spares hallFile) (hl : .load hallFile ∈ ms) :
      hallFile ∈ ((new twoDirs Binary64.zero).run ms).feed.watcher.files.values :=
    List.mem_map.2 ⟨_, OrderedMap.get?_eq_some_iff.1 (known_of_load hs hl), rfl⟩
  constructor
  · obtain ⟨hread, -, -, hnotice, -⟩ := notice_reads_as_load rfl hfilled
      (hknown (by simp [filled, Move.Spares, Move.call?]) (by simp [filled]))
    exact (hnotice ⟨rfl, fun _ => by decide +kernel⟩).trans (hread (by decide +kernel))
  · obtain ⟨-, hempty, -, hnotice, -⟩ := notice_reads_as_load rfl hemptied
      (hknown (by simp [emptied, filled, Move.Spares, Move.call?]) (by simp [emptied, filled]))
    exact (hnotice ⟨rfl, fun _ => by decide +kernel⟩).trans (hempty (by decide +kernel))

end Paced

end RouterAgent
