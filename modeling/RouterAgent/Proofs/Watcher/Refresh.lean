import RouterAgent.Proofs.Table.Merge
import RouterAgent.Proofs.Watcher.Refinement
import RouterAgent.Proofs.Watcher.Sound

/-!
Reading all files again repairs the table, whatever came before.

If all known files can be read, each of them takes back what it does not list any more, and no
record of another file is there. What is left is the merge of the new batches.
-/

namespace RouterAgent

open RouterAgent.Number RouterAgent.Lease RouterAgent.Client

namespace Feed

/-! ### Reading all files -/

lemma mem_watchList {f : Feed} {path : String} :
    path ∈ f.watcher.watchList ↔ path ∈ f.watcher.files.keys :=
  List.mem_mergeSort

lemma pairwise_watchList (f : Feed) : f.watcher.watchList.Pairwise (· < ·) := by
  have hnodup : (f.watcher.files.keys.map id).Nodup := by
    rw [List.map_id]
    exact f.watcher.files.nodup
  exact pairwise_mergeSort_of_nodup hnodup

lemma watchList_refresh (f : Feed) : f.refresh.watcher.watchList = f.watcher.watchList := by
  have hfiles : f.refresh.watcher.files = f.watcher.files := f.files_reparseAll _
  simp only [Watcher.watchList, hfiles]

/-- Reading all known files now succeeds and gives these batches. -/
def Finds (f : Feed) (batch : String → List Client) : Prop :=
  contributions (f.rereadings .refresh f.watcher.watchList) =
    Contribution.ofEach f.watcher.watchList batch

/-- The file of a known path is there and not empty, and gives this batch from now on. -/
def Yields (f : Feed) (path : String) (batch : List Client) : Prop :=
  ∃ file, f.watcher.files.get? path = some file ∧
    (f.world.host.size? path).any (0 < ·) = true ∧
    ∀ n ≥ f.world.turn file, f.world.host.gives file n = .ok batch

lemma turn_reparse (f : Feed) (path : String) (file : WatchedFile) :
    f.world.turn file ≤ (f.reparse path).world.turn file := by
  obtain ⟨-, -, -, -, hcalls⟩ := f.reparse_spec .notice path
  unfold World.turn
  cases file.reader with
  | none => exact le_refl _
  | some r => exact Nat.add_le_add_right (hcalls r.key) 1

lemma Yields.reparse {f : Feed} {path : String} {batch : List Client} (h : f.Yields path batch)
    (other : String) : (f.reparse other).Yields path batch := by
  obtain ⟨file, hfile, hsize, hgives⟩ := h
  refine ⟨file, ?_, ?_, fun n hn => ?_⟩
  · rw [files_reparse, hfile]
  · rw [host_reparse, hsize]
  · rw [host_reparse]
    exact hgives n ((f.turn_reparse other file).trans hn)

lemma Yields.reparseAll {f : Feed} {path : String} {batch : List Client}
    (h : f.Yields path batch) (paths : List String) : (f.reparseAll paths).Yields path batch := by
  induction paths generalizing f with
  | nil => exact h
  | cons other paths ih => exact ih (h.reparse other)

lemma Yields.contribution {f : Feed} {path : String} {batch : List Client}
    (h : f.Yields path batch) (occasion : Occasion) :
    (f.rereading occasion path).contribution? = some ⟨path, batch⟩ := by
  obtain ⟨file, hfile, hsize, hgives⟩ := h
  have hparse : (f.world.parse .reparsing file).1 = .ok batch := by
    rw [World.parse_fst]
    exact hgives _ (le_refl _)
  simp [rereading, hfile, hsize, hparse, Reading.contribution?, Except.toOption]

lemma contributions_rereadings {f : Feed} {paths : List String} {batch : String → List Client}
    (h : ∀ path ∈ paths, f.Yields path (batch path)) (occasion : Occasion) :
    contributions (f.rereadings occasion paths) = Contribution.ofEach paths batch := by
  induction paths generalizing f with
  | nil => rfl
  | cons path paths ih =>
    have hpath := (h path (by simp)).contribution occasion
    have hpaths := ih fun other hother => (h other (by simp [hother])).reparse path
    rw [rereadings, contributions, List.filterMap_cons_some hpath]
    exact congrArg _ hpaths

lemma exists_batch {f : Feed} {paths : List String} (distinct : paths.Nodup)
    (h : ∀ r ∈ f.rereadings .refresh paths, r.found.isSome = true) :
    ∃ batch, contributions (f.rereadings .refresh paths) = Contribution.ofEach paths batch := by
  induction paths generalizing f with
  | nil => exact ⟨fun _ => [], rfl⟩
  | cons path paths ih =>
    rw [List.nodup_cons] at distinct
    obtain ⟨batch, hbatch⟩ := ih (f := f.reparse path) distinct.2
      fun r hr => h r (by simp [rereadings, hr])
    obtain ⟨found, hfound⟩ := Option.isSome_iff_exists.1
      (h (f.rereading .refresh path) (by simp [rereadings]))
    have hpath : (f.rereading .refresh path).contribution? = some ⟨path, found⟩ := by
      rw [Reading.contribution?, hfound, path_rereading]
      rfl
    refine ⟨Function.update batch path found, ?_⟩
    have hrest : Contribution.ofEach paths (Function.update batch path found) =
        Contribution.ofEach paths batch := by
      refine List.map_congr_left fun other hother => ?_
      have hne : other ≠ path := fun h => distinct.1 (h ▸ hother)
      rw [Function.update_of_ne hne]
    rw [rereadings, contributions, List.filterMap_cons_some hpath, Contribution.ofEach,
      List.map_cons, Function.update_self]
    exact congrArg _ (hbatch.trans hrest.symm)

lemma finds_of_yields {f : Feed} {batch : String → List Client}
    (h : ∀ path ∈ f.watcher.watchList, f.Yields path (batch path)) :
    f.Finds batch ∧ f.refresh.Finds batch := by
  have hagain : ∀ path ∈ f.watcher.watchList, f.refresh.Yields path (batch path) :=
    fun path hpath => (h path hpath).reparseAll f.watcher.watchList
  refine ⟨contributions_rereadings h .refresh, ?_⟩
  unfold Finds
  rw [watchList_refresh]
  exact contributions_rereadings hagain .refresh

/-! ### The table afterwards -/

lemma Finds.table_refresh {f : Feed} {batch : String → List Client} (h : f.Finds batch) :
    f.refresh.table = f.table.replay (Contribution.ofEach f.watcher.watchList batch) := by
  have hreads := (f.reads_reparseAll .refresh f.watcher.watchList).table
  rw [show contributions _ = _ from h] at hreads
  exact hreads

lemma Finds.tagged {f : Feed} (hs : f.Sound) {batch : String → List Client} (h : f.Finds batch) :
    ∀ c ∈ Contribution.ofEach f.watcher.watchList batch, c.Tagged := by
  have htagged := hs.tagged_rereadings .refresh f.watcher.watchList
  rwa [show contributions _ = _ from h] at htagged

lemma nodup_sources (f : Feed) (batch : String → List Client) :
    ((Contribution.ofEach f.watcher.watchList batch).map (·.source)).Nodup := by
  rw [Contribution.sources_ofEach]
  exact f.pairwise_watchList.imp ne_of_lt

lemma Sound.get?_refresh {f : Feed} (hs : f.Sound) {batch : String → List Client}
    (h : f.Finds batch) (mac : String) :
    f.refresh.table.records.get? mac = latest? (f.watcher.watchList.flatMap batch) mac := by
  have hold : (f.table.records.get? mac).filter (fun r => r.source ∉ f.watcher.watchList) =
      none := by
    rw [Option.filter_eq_none_iff]
    intro r hr
    have hlisted := hs.owned.listed hr
    rw [Table.listedBy] at hlisted
    cases hl : f.table.listed.get? r.source with
    | none => simp [hl] at hlisted
    | some macs => simp [mem_watchList, hs.known hl]
  rw [h.table_refresh, hs.owned.get?_replay_of_nodup (h.tagged hs) (f.nodup_sources batch),
    Contribution.batches_ofEach, Contribution.sources_ofEach, hold, Option.or_none]

lemma Sound.get?_listed_refresh {f : Feed} (hs : f.Sound) {batch : String → List Client}
    (h : f.Finds batch) (path : String) :
    f.refresh.table.listed.get? path =
      if path ∈ f.watcher.watchList then some (Table.byAddress (batch path)).keys else none := by
  rw [h.table_refresh, Table.get?_listed_replay _ (f.nodup_sources batch),
    Contribution.find?_ofEach]
  split
  · rfl
  · next hpath =>
    cases hl : f.table.listed.get? path with
    | none => rfl
    | some macs => exact absurd (mem_watchList.2 (hs.known hl)) hpath

lemma Sound.refresh_refresh {f : Feed} (hs : f.Sound) {batch : String → List Client}
    (h : f.Finds batch) (hagain : f.refresh.Finds batch) :
    f.refresh.refresh.table = f.refresh.table := by
  rw [hagain.table_refresh, watchList_refresh, h.table_refresh]
  exact hs.owned.replay_replay (h.tagged hs) (f.nodup_sources batch)

/-- **Reading all files repairs the table.** At any time in the life of a watcher that was given
honest files only, reading all known files with success leaves the merge of the batches, in which
of several records of an address the last one counts and the files go in ascending order; the
listings are those of the known files. Finding the same once more changes nothing. All this is so
if each known file is there, is not empty and can be read; and reading all files is what the worker
does when nothing waits and the time has come. -/
theorem refresh_repairs {f : Feed} (reached : f.Reached) :
    f.watcher.watchList.Pairwise (· < ·) ∧
    (∀ path, path ∈ f.watcher.watchList ↔ path ∈ f.watcher.files.keys) ∧
    (∀ batch, f.Finds batch →
      (∀ mac, f.refresh.table.records.get? mac =
        latest? (f.watcher.watchList.flatMap batch) mac) ∧
      (∀ path, f.refresh.table.listed.get? path =
        if path ∈ f.watcher.watchList then some (Table.byAddress (batch path)).keys else none) ∧
      (f.refresh.Finds batch → f.refresh.refresh.table = f.refresh.table)) ∧
    ((∀ r ∈ f.rereadings .refresh f.watcher.watchList, r.found.isSome = true) →
      ∃ batch, f.Finds batch) ∧
    (∀ batch, (∀ path ∈ f.watcher.watchList, f.Yields path (batch path)) →
      f.Finds batch ∧ f.refresh.Finds batch) ∧
    (f.Rests → f.watcher.isDue f.world.host.clock = true →
      ∃ n, (⟨f, []⟩ : Paced).works n = ⟨f.refresh, []⟩) := by
  have hs := reached.sound
  refine ⟨f.pairwise_watchList, fun path => mem_watchList, fun batch h => ?_, ?_,
    fun batch => finds_of_yields, fun hrests hdue => Paced.works_refresh hrests hdue⟩
  · exact ⟨hs.get?_refresh h, hs.get?_listed_refresh h, hs.refresh_refresh h⟩
  · exact exists_batch (f.pairwise_watchList.imp ne_of_lt)

def television (ip source : String) : Client := ⟨"aa:00:00:00:00:01", ip, "tv", none, source⟩

def steadyFile : WatchedFile :=
  ⟨"/run/a", .dnsmasq, some ⟨0, fun _ => some (.ok [television "10.0.0.1" "/run/a"])⟩⟩

def fickleFile : WatchedFile :=
  ⟨"/run/b", .dnsmasq, some ⟨1, fun n =>
    some (.ok (if n = 1 then [television "10.0.1.1" "/run/b"] else []))⟩⟩

/-- Both files are loaded, and then the second, which listed the client last, takes it back. -/
def losing : Feed :=
  ((Paced.new (.start ((Host.empty.write "/run/a" (.bytes [10])).write "/run/b" (.bytes [10])))
    Binary64.zero).run
    [.outside (.watcher (.load steadyFile)), .outside (.watcher (.load fickleFile)),
      .outside (.watcher .start), .outside (.watcher (.notify "/run/b")), .work]).feed

theorem refresh_repairs_losing :
    losing.Reached ∧ losing.table.records.get? "aa:00:00:00:00:01" = none ∧
    losing.refresh.table.records.get? "aa:00:00:00:00:01" =
      some (television "10.0.0.1" "/run/a") := by
  have hsteady : steadyFile.Honest := by
    intro reader hreader n batch hbatch r hr
    obtain rfl : _ = reader := Option.some.inj hreader
    obtain rfl : _ = batch := by simpa using hbatch
    simp_all [television, steadyFile]
  have hfickle : fickleFile.Honest := by
    intro reader hreader n batch hbatch r hr
    obtain rfl : _ = reader := Option.some.inj hreader
    obtain rfl : _ = batch := by simpa using hbatch
    split at hr <;> simp_all [television, fickleFile]
  have reached : losing.Reached := by
    refine ⟨_, _, _, ?_, rfl⟩
    simp [Move.Honest, hsteady, hfickle]
  have hlist : losing.watcher.watchList = ["/run/a", "/run/b"] :=
    List.mergeSort_of_pairwise (by decide)
  obtain ⟨-, -, hrepair, -, hyields, -⟩ := refresh_repairs reached
  have hfinds := (hyields fun path =>
    if path = "/run/a" then [television "10.0.0.1" "/run/a"] else []) ?_
  · refine ⟨reached, by decide, ?_⟩
    rw [(hrepair _ hfinds.1).1, hlist]
    decide
  · rw [hlist]
    intro path hpath
    simp only [List.mem_cons, List.not_mem_nil, or_false] at hpath
    rcases hpath with rfl | rfl
    · exact ⟨steadyFile, rfl, by decide, fun n _ => rfl⟩
    · refine ⟨fickleFile, rfl, by decide, fun n hn => ?_⟩
      have hturn : losing.world.turn fickleFile = 3 := by decide
      have hne : n ≠ 1 := by omega
      simp [Host.gives, fickleFile, hne]

end Feed

end RouterAgent
