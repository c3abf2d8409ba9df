import RouterAgent.Proofs.Platform.Frame
import RouterAgent.Proofs.Table.Merge
import RouterAgent.Proofs.Watcher.Enlisting

/-!
The warm-up: lease files are loaded and added, one after the other.

What cannot be read contributes nothing, and a directory that the system does not let subscribe to
is passed over. Only a rejection ends the warm-up; the files after it are not loaded.
-/

namespace RouterAgent

open RouterAgent.Number RouterAgent.Lease RouterAgent.Client

/-! ### One file after the other -/

namespace Host

/-- Hosts that differ in their observers and clocks only. -/
def Twin (h g : Host) : Prop := ∃ observers clock, g = { h with observers, clock }

lemma Twin.refl (h : Host) : h.Twin h := ⟨h.observers, h.clock, rfl⟩

lemma Twin.trans {h g k : Host} (hg : h.Twin g) (hk : g.Twin k) : h.Twin k := by
  obtain ⟨_, _, rfl⟩ := hg
  obtain ⟨observers, clock, rfl⟩ := hk
  exact ⟨observers, clock, rfl⟩

lemma twin_of_observers {h g : Host} (hg : ∃ observers, g = { h with observers }) : h.Twin g := by
  obtain ⟨observers, rfl⟩ := hg
  exact ⟨observers, h.clock, rfl⟩

lemma Twin.rejection? {h g : Host} (ht : h.Twin g) (file : WatchedFile) :
    g.rejection? file = h.rejection? file := by
  obtain ⟨_, _, rfl⟩ := ht
  rfl

lemma Twin.holds {h g : Host} (ht : h.Twin g) (path : String) : g.holds path = h.holds path := by
  obtain ⟨_, _, rfl⟩ := ht
  rfl

lemma Twin.size? {h g : Host} (ht : h.Twin g) (path : String) : g.size? path = h.size? path := by
  obtain ⟨_, _, rfl⟩ := ht
  rfl

lemma Twin.gives {h g : Host} (ht : h.Twin g) (file : WatchedFile) (n : Nat) :
    g.gives file n = h.gives file n := by
  obtain ⟨_, _, rfl⟩ := ht
  rfl

end Host

namespace Feed

def enlist (f : Feed) (file : WatchedFile) : Feed := ((f.load file).2.add file).2

def enlistAll (f : Feed) (files : List WatchedFile) : Feed :=
  f.run ((enlisting files).map .watcher)

lemma enlistAll_cons (f : Feed) (file : WatchedFile) (files : List WatchedFile) :
    f.enlistAll (file :: files) = (f.enlist file).enlistAll files := rfl

lemma twin_enlist (f : Feed) (file : WatchedFile) :
    f.world.host.Twin (f.enlist file).world.host := by
  have hload := (f.load_spec file).2.2.1
  have hadd := Host.twin_of_observers ((f.load file).2.host_add file)
  exact hload ▸ hadd

/-- The watcher has an observer, and to the directories that it counts one can subscribe. -/
structure Open (f : Feed) : Prop where
  observer : f.watcher.observer.isSome = true
  dirs : ∀ dir ∈ f.watcher.dirs, f.world.host.script.subscribing.lookup dir = none

lemma Open.of_eq {f g : Feed} (h : f.Open) (hobserver : g.watcher.observer = f.watcher.observer)
    (hdirs : g.watcher.dirs = f.watcher.dirs)
    (hscript : g.world.host.script = f.world.host.script) : g.Open :=
  ⟨hobserver ▸ h.observer, by rw [hdirs, hscript]; exact h.dirs⟩

lemma Open.load {f : Feed} (h : f.Open) (file : WatchedFile) : (f.load file).2.Open := by
  obtain ⟨-, hw, hhost, -⟩ := f.load_spec file
  exact h.of_eq (by rw [hw]; rfl) (by rw [hw]; rfl) (by rw [hhost])

lemma Open.add {f : Feed} (h : f.Open) (file : WatchedFile) : (f.add file).2.Open := by
  have hadded := f.added file
  generalize f.add file = out at hadded ⊢
  cases hadded with
  | counted hn hd => exact h.of_eq rfl rfl rfl
  | unobserved hn hq | failed hn hd hq hr | rejected hn hd hq hr =>
    exact h.of_eq rfl rfl (by rw [hq.host])
  | @subscribed n w hn hd hq hl =>
    have hscript : (f.world.host.subscribe n (directoryOf file.path)).2.script =
        f.world.host.script := by simp [Host.subscribe, hl]
    refine ⟨h.observer, fun dir hdir => ?_⟩
    rw [hscript]
    rcases List.mem_append.1 hdir with hdir | hdir
    · exact h.dirs dir hdir
    · obtain rfl : dir = directoryOf file.path := by simpa using hdir
      exact hl

lemma Open.enlist {f : Feed} (h : f.Open) (file : WatchedFile) : (f.enlist file).Open :=
  (h.load file).add file

end Feed

namespace Router

lemma feed_of_not_rejected {f : Feed} {file : WatchedFile}
    (hr : f.world.host.rejection? file = none) : feed f file = (.ok (), f.enlist file) := by
  have hhost := (f.load_spec file).2.2.1
  have hok : ∀ fault, ((f.load file).2.add file).1 ≠ .error fault := by
    intro fault h
    have hrejection := (Feed.add_fst_eq_error_iff.1 h).2.2
    rw [hhost, hr] at hrejection
    simp at hrejection
  unfold feed Feed.enlist
  generalize (f.load file).2.add file = out at hok ⊢
  obtain ⟨fault | flag, g⟩ := out
  · exact absurd rfl (hok fault)
  · rfl

lemma feed_of_rejected {f : Feed} {file : WatchedFile} {fault : Fault} (ho : f.Open)
    (hr : f.world.host.rejection? file = some fault) :
    feed f file = (.error fault, f.enlist file) := by
  have hhost := (f.load_spec file).2.2.1
  have hnew : Feed.directoryOf file.path ∉ (f.load file).2.watcher.dirs := by
    intro hmem
    have hl := (ho.load file).dirs _ hmem
    rw [hhost] at hl
    simp [Host.rejection?, hl] at hr
  have herror : ((f.load file).2.add file).1 = .error fault :=
    Feed.add_fst_eq_error_iff.2 ⟨(ho.load file).observer, hnew, hhost ▸ hr⟩
  unfold feed Feed.enlist
  generalize (f.load file).2.add file = out at herror ⊢
  obtain ⟨result, g⟩ := out
  obtain rfl : result = .error fault := herror
  rfl

lemma feedAll_of_not_rejected {f : Feed} {files : List WatchedFile}
    (hr : ∀ file ∈ files, f.world.host.rejection? file = none) :
    feedAll files f = (.ok (), f.enlistAll files) := by
  induction files generalizing f with
  | nil => rfl
  | cons file files ih =>
    have htwin := f.twin_enlist file
    have hrest : ∀ other ∈ files, (f.enlist file).world.host.rejection? other = none :=
      fun other hother => (htwin.rejection? other).trans (hr other (by simp [hother]))
    rw [feedAll, feed_of_not_rejected (hr file (by simp)), Feed.enlistAll_cons]
    exact ih hrest

lemma feedAll_of_rejected {f : Feed} {before after : List WatchedFile} {file : WatchedFile}
    {fault : Fault} (ho : f.Open)
    (hbefore : ∀ other ∈ before, f.world.host.rejection? other = none)
    (hr : f.world.host.rejection? file = some fault) :
    feedAll (before ++ file :: after) f = (.error fault, f.enlistAll (before ++ [file])) := by
  induction before generalizing f with
  | nil =>
    rw [List.nil_append, feedAll, feed_of_rejected ho hr]
    rfl
  | cons other before ih =>
    have htwin := f.twin_enlist other
    rw [List.cons_append, feedAll, feed_of_not_rejected (hbefore other (by simp))]
    refine ih (ho.enlist other) (fun another h => ?_) ((htwin.rejection? file).trans hr)
    exact (htwin.rejection? another).trans (hbefore another (by simp [h]))

end Router

/-! ### What the warm-up finds -/

/-- What loading files, one after the other, finds: the batch of each file that exists and whose
reader returns. -/
def World.findings (w : World) : List WatchedFile → List Contribution
  | [] => []
  | file :: files =>
    if w.host.holds file.path then
      ((w.parse .watching file).1.toOption.map fun batch => ⟨file.path, batch⟩).toList ++
        (w.parse .watching file).2.findings files
    else w.findings files

/-- The batch that loading a file finds, as the first one of all. -/
def World.finding? (w : World) (file : WatchedFile) : Option (List Client) :=
  if w.host.holds file.path then (w.host.gives file (w.turn file)).toOption else none

/-- Worlds in which readers find the same. -/
structure World.Twin (w v : World) : Prop where
  host : w.host.Twin v.host
  calls : v.calls = w.calls

namespace World

lemma Twin.refl (w : World) : w.Twin w := ⟨.refl w.host, rfl⟩

lemma Twin.trans {u v w : World} (h : u.Twin v) (h' : v.Twin w) : u.Twin w :=
  ⟨h.host.trans h'.host, h'.calls.trans h.calls⟩

lemma Twin.turn {w v : World} (h : w.Twin v) (file : WatchedFile) : v.turn file = w.turn file := by
  unfold World.turn
  rw [h.calls]

lemma Twin.parse {w v : World} (h : w.Twin v) (phase other : Phase) (file : WatchedFile) :
    (v.parse other file).1 = (w.parse phase file).1 ∧
      (w.parse phase file).2.Twin (v.parse other file).2 := by
  refine ⟨?_, ?_, ?_⟩
  · rw [parse_fst, parse_fst, h.turn, h.host.gives]
  · rw [host_parse, host_parse]
    exact h.host
  · unfold World.parse
    cases file.reader with
    | none => exact h.calls
    | some r => simp only [h.calls]

lemma Twin.findings {w v : World} (h : w.Twin v) (files : List WatchedFile) :
    v.findings files = w.findings files := by
  induction files generalizing w v with
  | nil => rfl
  | cons file files ih =>
    obtain ⟨hfst, hsnd⟩ := h.parse .watching .watching file
    rw [World.findings, World.findings, h.host.holds, hfst, ih hsnd, ih h]

lemma finding?_eq_parse (w : World) (phase : Phase) (file : WatchedFile) :
    w.finding? file =
      if w.host.holds file.path then (w.parse phase file).1.toOption else none := by
  rw [finding?, parse_fst]

lemma finding?_of_reader_eq_none (w : World) {file : WatchedFile} (hr : file.reader = none) :
    w.finding? file = (file.format.readLeases w.host file.path).toOption := by
  have hgives : w.host.gives file (w.turn file) = file.format.readLeases w.host file.path := by
    simp [Host.gives, hr]
  unfold World.finding?
  rw [hgives]
  split
  · rfl
  · next hh =>
    -- what does not exist cannot be read either
    obtain ⟨hdir, hfile⟩ : w.host.isDir file.path = false ∧ w.host.file? file.path = none := by
      simpa [Host.holds] using hh
    simp [Format.readLeases, Host.readText, Host.read, hdir, hfile, Except.map, Except.toOption]

lemma mem_findings {w : World} {files : List WatchedFile}
    (plain : ∀ file ∈ files, file.reader = none) {c : Contribution} :
    c ∈ w.findings files ↔ ∃ file ∈ files, c.source = file.path ∧
      file.format.readLeases w.host file.path = .ok c.batch := by
  induction files generalizing w with
  | nil => simp [findings]
  | cons file files ih =>
    rw [List.forall_mem_cons] at plain
    have hread := w.finding?_of_reader_eq_none plain.1
    rw [w.finding?_eq_parse .watching] at hread
    obtain ⟨source, batch⟩ := c
    simp only [List.exists_mem_cons_iff]
    rw [findings]
    split
    · next hh =>
      rw [if_pos hh] at hread
      rw [hread, List.mem_append, ih plain.2, host_parse]
      cases file.format.readLeases w.host file.path <;>
        simp [Except.toOption, eq_comm]
    · next hh =>
      rw [if_neg hh] at hread
      rw [ih plain.2]
      cases hr : file.format.readLeases w.host file.path <;> simp [hr, Except.toOption] at hread ⊢

lemma sublist_sources_findings (w : World) (files : List WatchedFile) :
    ((w.findings files).map (·.source)).Sublist (files.map (·.path)) := by
  induction files generalizing w with
  | nil => exact .refl _
  | cons file files ih =>
    rw [findings, List.map_cons]
    split
    · cases (w.parse .watching file).1.toOption with
      | none => exact (ih _).cons _
      | some batch => exact (ih _).cons_cons _
    · exact (ih w).cons _

end World

/-- Files whose readers, if they have such of their own, are not one. -/
def Lease.WatchedFile.Apart (file other : WatchedFile) : Prop :=
  ∀ reader ∈ file.reader, ∀ another ∈ other.reader, reader.key ≠ another.key

namespace World

lemma turn_parse_of_apart {file other : WatchedFile} (h : file.Apart other) (w : World)
    (phase : Phase) : (w.parse phase other).2.turn file = w.turn file := by
  unfold parse turn
  cases hother : other.reader with
  | none => rfl
  | some another =>
    cases hfile : file.reader with
    | none => rfl
    | some reader => simp [h reader hfile another hother]

lemma finding?_parse_of_apart {file other : WatchedFile} (h : file.Apart other) (w : World)
    (phase : Phase) : (w.parse phase other).2.finding? file = w.finding? file := by
  rw [finding?, finding?, turn_parse_of_apart h, host_parse]

lemma find?_findings {w : World} {files : List WatchedFile} {file : WatchedFile}
    (distinct : (files.map (·.path)).Nodup) (hfile : file ∈ files)
    (hapart : ∀ other ∈ files, other.path ≠ file.path → file.Apart other) :
    (w.findings files).find? (·.source = file.path) =
      (w.finding? file).map fun batch => ⟨file.path, batch⟩ := by
  induction files generalizing w with
  | nil => simp at hfile
  | cons other files ih =>
    rw [List.map_cons, List.nodup_cons] at distinct
    have hrest : ∀ another ∈ files, another.path ≠ file.path → file.Apart another :=
      fun another h => hapart another (by simp [h])
    by_cases hpath : other.path = file.path
    · -- the file itself: none of the others has its path
      obtain rfl : file = other := by
        rcases List.mem_cons.1 hfile with h | h
        · exact h
        · exact absurd (List.mem_map.2 ⟨file, h, hpath.symm⟩) distinct.1
      have hnone (v : World) : (v.findings files).find? (·.source = file.path) = none := by
        rw [List.find?_eq_none]
        intro c hc hsource
        have hmem := (v.sublist_sources_findings files).subset (List.mem_map.2 ⟨c, hc, rfl⟩)
        exact distinct.1 (of_decide_eq_true hsource ▸ hmem)
      rw [findings, w.finding?_eq_parse .watching]
      split
      · cases (w.parse .watching file).1.toOption <;> simp [hnone]
      · exact hnone w
    · have hmem : file ∈ files := by
        rcases List.mem_cons.1 hfile with rfl | h
        · exact absurd rfl hpath
        · exact h
      have hother := hapart other (by simp) hpath
      rw [findings]
      split
      · rw [List.find?_append, ih distinct.2 hmem hrest, finding?_parse_of_apart hother]
        cases (w.parse .watching other).1.toOption <;> simp [hpath]
      · exact ih distinct.2 hmem hrest

end World

namespace World

lemma hooked_parse (w : World) (phase : Phase) (file : WatchedFile) :
    (w.parse phase file).2.hooked = w.hooked := by
  unfold parse
  cases file.reader <;> simp [hooked, did, Action.callsHook]

end World

namespace Feed

lemma world_load (f : Feed) (file : WatchedFile) :
    (f.load file).2.world.hooked = f.world.hooked ∧
    (f.load file).2.world.calls =
      if f.world.host.holds file.path then (f.world.parse f.watcher.phase file).2.calls
      else f.world.calls := by
  have hhooked := f.world.hooked_parse f.watcher.phase file
  obtain ⟨log, h⟩ := notes_read { f with watcher := f.watcher.know file } .load file.path file
  unfold load
  rw [h, worldAfter]
  cases hh : f.world.host.holds file.path with
  | false => simp [finds, hh, World.hooked]
  | true => simpa [finds, hh, World.hooked, Watcher.know] using hhooked

lemma hooked_add (f : Feed) (file : WatchedFile) :
    (f.add file).2.world.hooked = f.world.hooked := by
  have h := f.added file
  generalize f.add file = out at h ⊢
  cases h with
  | counted hn hd => rfl
  | unobserved hn hq | failed hn hd hq hr | rejected hn hd hq hr | subscribed hn hd hq hl =>
    exact hq.hooked

lemma hooked_enlistAll (f : Feed) (files : List WatchedFile) :
    (f.enlistAll files).world.hooked = f.world.hooked := by
  induction files generalizing f with
  | nil => rfl
  | cons file files ih =>
    have hfile : (f.enlist file).world.hooked = f.world.hooked :=
      ((f.load file).2.hooked_add file).trans (f.world_load file).1
    rw [enlistAll_cons, ih, hfile]

lemma twin_world_load (f : Feed) (file : WatchedFile) :
    (if f.world.host.holds file.path then (f.world.parse .watching file).2 else f.world).Twin
      (f.load file).2.world := by
  obtain ⟨-, -, hhost, -⟩ := f.load_spec file
  have hcalls := (f.world_load file).2
  have hparse := ((World.Twin.refl f.world).parse .watching f.watcher.phase file).2
  refine ⟨?_, ?_⟩
  · rw [hhost]
    split
    · rw [World.host_parse]
      exact .refl _
    · exact .refl _
  · rw [hcalls]
    split
    · exact hparse.calls
    · rfl

lemma twin_world_enlist (f : Feed) (file : WatchedFile) :
    (if f.world.host.holds file.path then (f.world.parse .watching file).2 else f.world).Twin
      (f.enlist file).world :=
  (f.twin_world_load file).trans
    ⟨Host.twin_of_observers ((f.load file).2.host_add file), (f.load file).2.calls_add file⟩

lemma contribution_loading_eq (f : Feed) (file : WatchedFile) :
    (f.loading file).contribution? =
      (f.world.finding? file).map fun batch => ⟨file.path, batch⟩ := by
  rw [World.finding?_eq_parse f.world f.watcher.phase, Reading.contribution?, path_loading]
  unfold loading
  split <;> rfl

/-- **What the warm-up puts into the table** are the findings, in the order of the files. -/
theorem table_enlistAll (f : Feed) (files : List WatchedFile) :
    (f.enlistAll files).table = f.table.replay (f.world.findings files) := by
  induction files generalizing f with
  | nil => rfl
  | cons file files ih =>
    have htable : (f.enlist file).table =
        f.table.replay (f.loading file).contribution?.toList :=
      ((f.load file).2.add_spec file).1.table.trans (f.load_spec file).1
    have htwin := f.twin_world_enlist file
    rw [contribution_loading_eq, World.finding?_eq_parse f.world .watching] at htable
    rw [enlistAll_cons, ih, htwin.findings, htable, ← Table.replay_append, World.findings]
    split <;> rfl

end Feed

end RouterAgent
