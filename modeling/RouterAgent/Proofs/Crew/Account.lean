import Mathlib.Algebra.Order.Group.Multiset
import Mathlib.Tactic.Abel
import RouterAgent.Proofs.Crew.Act
import RouterAgent.Proofs.Watcher.Standing

/-!
The account of what a crew reads.

Each act goes on with one reading at most. What the reader of a file answers is found at one moment
and put into the table at a later one, so of all that is found everything was put into the table, or
is on its way there. A path that waits is taken by one worker, which begins one reading of it; and
every reading that was begun has come to its end, or goes on.
-/

namespace RouterAgent

open RouterAgent.Number RouterAgent.Lease RouterAgent.Client

/-! ### One moment of a reading -/

namespace Errand

/-- What a reading is about to put into the table. -/
def held (e : Errand) : List Contribution :=
  match e.stage with
  | .answered result => Feed.contributed e.path result
  | _ => []

def finding (e : Errand) (f : Feed) : List Contribution :=
  match e.stage with
  | .asking => Feed.contributed e.path (f.world.parse f.watcher.phase e.file).1
  | _ => []

def asks (e : Errand) (f : Feed) : List Action :=
  match e.stage with
  | .asking => e.file.asks f.watcher.phase
  | _ => []

/-- A reading as it was when it began. -/
def task (e : Errand) : Errand := { e with stage := .seeking }

/-- The path of the notice that a reading is for, if it is for one. -/
def notice? (e : Errand) : Option String := if e.occasion = .notice then some e.path else none

/-- **One moment of a reading** puts what it holds into the table; of the watcher and its host it
changes nothing. -/
theorem proceed_spec (e : Errand) (f : Feed) :
    (e.proceed f).2.table = f.table.replay e.held ∧
    (e.proceed f).2.watcher = f.watcher ∧
    (e.proceed f).2.world.host = f.world.host ∧
    (e.proceed f).2.world.asked = f.world.asked ++ e.asks f ∧
    (e.proceed f).1.toList.flatMap held = e.finding f ∧
    ∀ e' ∈ (e.proceed f).1, e'.task = e.task := by
  obtain ⟨occasion, path, file, stage⟩ := e
  cases stage with
  | seeking =>
    obtain ⟨-, log, h⟩ := f.seek_spec occasion path
    simp only [proceed]
    generalize f.seek occasion path = out at h ⊢
    obtain ⟨there, g⟩ := out
    obtain rfl : g = _ := h
    cases there <;> simp [held, finding, asks, task, World.asked]
  | asking =>
    refine ⟨rfl, rfl, f.world.host_parse _ file, f.world.asked_parse _ file, ?_, ?_⟩
    · simp [proceed, Feed.parse, held, finding]
    · simp [proceed, task]
  | answered result =>
    obtain ⟨log, h⟩ := f.notes_take occasion path result
    simp only [proceed]
    rw [h]
    simp [held, finding, asks, World.asked]

lemma watcher_of_proceed {e : Errand} {o : Option Errand} {f g : Feed}
    (h : e.proceed f = (o, g)) : g.watcher = f.watcher := by
  have hw := (e.proceed_spec f).2.1
  rwa [h] at hw

lemma host_of_proceed {e : Errand} {o : Option Errand} {f g : Feed} (h : e.proceed f = (o, g)) :
    g.world.host = f.world.host := by
  have hhost := (e.proceed_spec f).2.2.1
  rwa [h] at hhost

lemma task_of_proceed {e e' : Errand} {f g : Feed} (h : e.proceed f = (some e', g)) :
    e'.task = e.task :=
  (e.proceed_spec f).2.2.2.2.2 e' (by rw [h]; rfl)

lemma proceed_seeking {e : Errand} (he : e.stage = .seeking) (f : Feed) :
    (e.proceed f).1 =
      if f.finds e.occasion e.path then some { e with stage := .asking } else none := by
  unfold proceed
  rw [he]
  simp only [(f.seek_spec e.occasion e.path).1]

/-- What is left of a reading after its next moment: the reader of a file that is found is to be
asked, and what it answers is to be put into the table. -/
def after (e : Errand) (f : Feed) : List Errand :=
  match e.stage with
  | .seeking => if f.finds e.occasion e.path then [{ e with stage := .asking }] else []
  | .asking => [{ e with stage := .answered (f.world.parse f.watcher.phase e.file).1 }]
  | .answered _ => []

end Errand

namespace Crew

variable {c d : Crew} {a : Act}

/-! ### What is seen at an act -/

def loading? (c : Crew) : Option Errand :=
  match c.caller with
  | .loading e => some e
  | _ => none

/-- The readings that go on. -/
def errands (c : Crew) : List Errand :=
  c.loading?.toList ++ c.workers.filterMap fun w => w.bind Worker.errand

def waiting (c : Crew) : List String := c.mail.filterMap id

/-- The reading that an act goes on with. -/
def errandAt (c : Crew) : Act → Option Errand
  | .proceeds => c.loading?
  | .works i => (c.worker? i).bind Worker.errand
  | _ => none

def errandFor (c : Crew) (occasion : Occasion) (path : String) : Option Errand :=
  (c.feed.watcher.files.get? path).map fun file => ⟨occasion, path, file, .seeking⟩

def next? (c : Crew) (w : Worker) : Option Errand :=
  match w.errand, w.agenda, c.mail with
  | none, some (path :: _), _ => c.errandFor .refresh path
  | none, none, some path :: _ => c.errandFor .notice path
  | _, _, _ => none

def begins (c : Crew) : Act → List Errand
  | .calls (.load file) => if c.isFree then [⟨.load, file.path, file, .seeking⟩] else []
  | .works i => ((c.worker? i).bind c.next?).toList
  | _ => []

/-- The readings that an act brings to their end, as they were when they began. -/
def ends (c : Crew) (a : Act) : List Errand :=
  ((c.errandAt a).filter fun e => (e.proceed c.feed).1.isNone).toList.map Errand.task

def puts (c : Crew) (a : Act) : List Contribution := (c.errandAt a).toList.flatMap Errand.held

def findings (c : Crew) (a : Act) : List Contribution :=
  (c.errandAt a).toList.flatMap (Errand.finding · c.feed)

def asks (c : Crew) (a : Act) : List Action := (c.errandAt a).toList.flatMap (Errand.asks · c.feed)

/-- The paths that an act asks the workers to read again: that of a file that a change renews, if
its observer delivers the change, and that of a notice, if the file is known. -/
def requests (c : Crew) : Act → List String
  | .happens (.change ch) =>
    let path := if ch.destination = "" then ch.path else ch.destination
    if c.feed.world.host.delivers ch ∧ ch.ofDirectory = false ∧
        ch.kind ∈ [.created, .modified, .moved, .closed] ∧
        c.feed.watcher.files.contains path then [path] else []
  | .calls (.notify path) =>
    if c.isFree ∧ c.feed.watcher.files.contains path then [path] else []
  | _ => []

def learns (c : Crew) : Act → List WatchedFile
  | .calls (.load file) => if c.isFree then [file] else []
  | .calls (.add file) => if c.isFree ∧ c.feed.watcher.observer.isSome then [file] else []
  | _ => []

/-! ### Where readings are -/

variable {i : ℕ} {w : Worker} {e : Errand}

lemma loading?_eq_some_iff : c.loading? = some e ↔ c.caller = .loading e := by
  unfold loading?
  cases c.caller <;> simp

lemma loading?_of_isFree (h : c.isFree = true) : c.loading? = none := by
  simp [loading?, isFree_iff.1 h]

lemma errandAt_free (h : c.caller = .free) : c.errandAt .proceeds = none := by
  simp [errandAt, loading?, h]

lemma errandAt_stopping (h : c.caller = .stopping) : c.errandAt .proceeds = none := by
  simp [errandAt, loading?, h]

lemma errandAt_works (h : c.worker? i = some w) : c.errandAt (.works i) = w.errand := by
  simp [errandAt, h]

lemma errandAt_gone (h : c.worker? i = none) : c.errandAt (.works i) = none := by
  simp [errandAt, h]

lemma begins_works (h : c.worker? i = some w) : c.begins (.works i) = (c.next? w).toList := by
  simp [begins, h]

lemma begins_gone (h : c.worker? i = none) : c.begins (.works i) = [] := by
  simp [begins, h]

lemma next?_visits {path : String} {rest : List String} (he : w.errand = none)
    (ha : w.agenda = some (path :: rest)) : c.next? w = c.errandFor .refresh path := by
  simp [next?, he, ha]

lemma next?_takes {path : String} {rest : List (Option String)} (he : w.errand = none)
    (ha : w.agenda = none) (hm : c.mail = some path :: rest) :
    c.next? w = c.errandFor .notice path := by
  simp [next?, he, ha, hm]

/-! ### Places of workers -/

lemma split_of_worker? {i : ℕ} {w : Worker} (h : c.worker? i = some w) :
    ∃ before after, c.workers = before ++ some w :: after ∧
      ∀ w' : Option Worker, c.workers.set i w' = before ++ w' :: after := by
  have hi : c.workers[i]? = some (some w) := Option.join_eq_some_iff.1 h
  obtain ⟨hlt, hget⟩ := List.getElem?_eq_some_iff.1 hi
  refine ⟨c.workers.take i, c.workers.drop (i + 1), ?_, fun w' => ?_⟩
  · rw [← hget, List.getElem_cons_drop, List.take_append_drop]
  · rw [List.set_eq_take_append_cons_drop, if_pos hlt]

lemma errands_put {i : ℕ} {w : Worker} (h : c.worker? i = some w) (w' : Option Worker) :
    (w.errand.toList ++ (c.put i w').errands).Perm
      (c.errands ++ (w'.bind Worker.errand).toList) := by
  obtain ⟨before, after, hworkers, hset⟩ := split_of_worker? h
  have hone (w : Option Worker) (ws : List (Option Worker)) :
      (w :: ws).filterMap (·.bind Worker.errand) =
        (w.bind Worker.errand).toList ++ ws.filterMap (·.bind Worker.errand) := by
    cases hw : w.bind Worker.errand <;> simp [hw]
  have hput : (c.put i w').errands =
      c.loading?.toList ++ (before ++ w' :: after).filterMap (·.bind Worker.errand) :=
    congrArg (fun ws => c.loading?.toList ++ ws.filterMap (·.bind Worker.errand)) (hset w')
  rw [hput, errands, hworkers, List.filterMap_append, List.filterMap_append, hone, hone,
    Option.bind_some, ← Multiset.coe_eq_coe]
  simp only [← Multiset.coe_add]
  abel

/-! ### The readings that go on -/

/-- What is left of the reading that an act goes on with, or else the reading that the act
begins. -/
def left (c : Crew) (a : Act) : List Errand :=
  match c.errandAt a with
  | some e => (e.proceed c.feed).1.toList
  | none => c.begins a

lemma errands_send {i : ℕ} {w w' : Worker} (h : c.worker? i = some w) (he : w.errand = none)
    (he' : w'.errand = none) (occasion : Occasion) (path : String) :
    (c.send i w' occasion path).errands.Perm
      (c.errands ++ (c.errandFor occasion path).toList) := by
  unfold send errandFor
  cases c.feed.watcher.files.get? path with
  | none => simpa [he, he'] using errands_put h (some w')
  | some file =>
    have hput := errands_put h (some { w' with errand := some ⟨occasion, path, file, .seeking⟩ })
    rw [he] at hput
    exact hput

lemma left_of_some {e : Errand} (h : c.errandAt a = some e) :
    c.left a = (e.proceed c.feed).1.toList := by
  rw [left, h]

lemma left_eq {e : Errand} (h : c.errandAt a = some e) : c.left a = e.after c.feed := by
  rw [left_of_some h]
  obtain ⟨occasion, path, file, stage⟩ := e
  cases stage with
  | seeking =>
    rw [Errand.proceed_seeking rfl]
    cases hf : c.feed.finds occasion path <;> simp [Errand.after, hf]
  | asking | answered => rfl

lemma left_of_none (h : c.errandAt a = none) : c.left a = c.begins a := by
  rw [left, h]

lemma errands_turn {i : ℕ} {w : Worker} (h : c.worker? i = some w) (ht : c.Turned i w d) :
    (w.errand.toList ++ d.errands).Perm (c.errands ++ c.left (.works i)) := by
  have hat : c.errandAt (.works i) = w.errand := by simp [errandAt, h]
  have hbegins (he : w.errand = none) : c.left (.works i) = (c.next? w).toList := by
    simp [left_of_none (hat.trans he), begins, h]
  -- a turn in which nothing is begun
  have hrest (w' : Option Worker) (he : w.errand = none) (hn : c.next? w = none)
      (hw' : w'.bind Worker.errand = none) :
      (w.errand.toList ++ (c.put i w').errands).Perm (c.errands ++ c.left (.works i)) := by
    have hput := errands_put h w'
    rwa [hw', ← hn, ← hbegins he] at hput
  cases ht with
  | @goes e e' f he hp =>
    rw [left_of_some (hat.trans he), hp]
    exact errands_put h (some { w with errand := some e' })
  | @ends e f he hp =>
    rw [left_of_some (hat.trans he), hp]
    exact errands_put h (some { w with errand := none })
  | @visits path rest he ha =>
    rw [hbegins he, next?_visits he ha, he]
    exact errands_send h he rfl .refresh path
  | @takes path rest he ha hm =>
    rw [hbegins he, next?_takes he ha hm, he]
    exact errands_send (c := { c with mail := rest }) h he he .notice path
  | plans he ha => exact hrest _ he (by simp [next?, he, ha]) (by simp [he])
  | leaves he ha hm => exact hrest none he (by simp [next?, he, ha, hm]) rfl
  | begins he ha hm hd => exact hrest _ he (by simp [next?, he, ha, hm]) (by simp [he])
  | faints he ha hm hd hf => exact hrest none he (by simp [next?, he, ha, hm]) rfl
  | waits he ha hm hd hf =>
    have hn : c.next? w = none := by simp [next?, he, ha, hm]
    simp [hbegins he, hn, he]

/-- **The readings that go on after an act** are those that went on before, with what is left of the
one that the act goes on with, or with the one that it begins. -/
theorem errands_act (c : Crew) (a : Act) :
    ((c.errandAt a).toList ++ (c.act a).errands).Perm (c.errands ++ c.left a) := by
  have h := c.acted a
  generalize c.act a = d at h ⊢
  have hnone {a : Act} (hat : c.errandAt a = none) (hb : c.begins a = []) (d : Crew)
      (hd : d.errands = c.errands) :
      ((c.errandAt a).toList ++ d.errands).Perm (c.errands ++ c.left a) := by
    simp [hat, left_of_none hat, hb, hd]
  cases h with
  | works hw ht =>
    have hat : c.errandAt (.works _) = _ := congrArg (Option.bind · Worker.errand) hw
    rw [hat]
    exact errands_turn hw ht
  | @loads file hc =>
    have hfree : c.errands = c.workers.filterMap fun w => w.bind Worker.errand := by
      simp [errands, loading?_of_isFree hc]
    have hb : c.begins (.calls (.load file)) = [⟨.load, file.path, file, .seeking⟩] := by
      simp [begins, hc]
    rw [left_of_none rfl, hb, hfree]
    exact (List.perm_append_singleton _ _).symm
  | @goes e e' f hc hp =>
    have hat : c.errandAt .proceeds = some e := loading?_eq_some_iff.2 hc
    rw [left_of_some hat, hat, hp, errands, errands, show c.loading? = some e from hat]
    exact (List.perm_append_singleton e' _).symm.cons e
  | @ends e f hc hp =>
    have hat : c.errandAt .proceeds = some e := loading?_eq_some_iff.2 hc
    rw [left_of_some hat, hat, hp, errands, errands, show c.loading? = some e from hat]
    exact .of_eq (by simp [loading?])
  | @starts f hc hr hl =>
    exact hnone rfl rfl _ (by simp [errands, loading?, recruit])
  | stops hc hr => exact hnone rfl rfl _ (by simp [errands, loading?, isFree_iff.1 hc])
  | leaves hc hn =>
    exact hnone (errandAt_stopping hc) rfl _ (by simp [errands, loading?, hc, leave])
  | abandons hc => exact hnone rfl rfl _ (by simp [errands, loading?, hc, leave])
  | @deaf call hc => exact hnone rfl (by cases call <;> simp [begins, hc]) _ rfl
  | gone hw => exact hnone (errandAt_gone hw) (begins_gone hw) _ rfl
  | free hc => exact hnone (errandAt_free hc) rfl _ rfl
  | waits hc hn => exact hnone (errandAt_stopping hc) rfl _ rfl
  | _ => exact hnone rfl (by simp [begins, *]) _ rfl

lemma begins_of_some {e : Errand} (h : c.errandAt a = some e) : c.begins a = [] := by
  cases a with
  | works i =>
    obtain ⟨w, hw, he⟩ := Option.bind_eq_some_iff.1 h
    simp [begins, hw, next?, he]
  | proceeds => rfl
  | happens | calls | givesUp => simp [errandAt] at h

lemma stage_of_errandFor {occasion : Occasion} {path : String} {e : Errand}
    (h : c.errandFor occasion path = some e) : e.stage = .seeking := by
  obtain ⟨file, -, rfl⟩ := Option.map_eq_some_iff.1 h
  rfl

lemma stage_of_begins {e : Errand} (h : e ∈ c.begins a) : e.stage = .seeking := by
  cases a with
  | calls call =>
    cases call with
    | load file =>
      simp only [begins] at h
      split at h
      · rw [List.mem_singleton.1 h]
      · simp at h
    | _ => simp [begins] at h
  | works i =>
    rw [begins, Option.mem_toList, Option.bind_eq_some_iff] at h
    obtain ⟨w, -, he⟩ := h
    unfold next? at he
    split at he
    · exact stage_of_errandFor he
    · exact stage_of_errandFor he
    · simp at he
  | happens | proceeds | givesUp => simp [begins] at h

/-! ### The account of one act -/

def held (c : Crew) : List Contribution := c.errands.flatMap Errand.held

lemma puts_held (c : Crew) (a : Act) :
    (c.puts a ++ (c.act a).held).Perm (c.held ++ c.findings a) := by
  have hfindings : (c.left a).flatMap Errand.held = c.findings a := by
    cases hat : c.errandAt a with
    | some e =>
      obtain ⟨-, -, -, -, hfound, -⟩ := e.proceed_spec c.feed
      simp [left_of_some hat, findings, hat, hfound]
    | none =>
      rw [left_of_none hat, findings, hat, Option.toList_none, List.flatMap_nil,
        List.flatMap_eq_nil_iff]
      intro e he
      simp [Errand.held, stage_of_begins he]
  have h := (c.errands_act a).flatMap_right Errand.held
  rwa [List.flatMap_append, List.flatMap_append, hfindings] at h

lemma ends_errands (c : Crew) (a : Act) :
    (c.ends a ++ (c.act a).errands.map Errand.task).Perm
      (c.errands.map Errand.task ++ c.begins a) := by
  have h := (c.errands_act a).map Errand.task
  rw [List.map_append, List.map_append] at h
  cases hat : c.errandAt a with
  | none =>
    have hbegins : (c.begins a).map Errand.task = c.begins a := by
      refine (List.map_congr_left fun e he => ?_).trans (List.map_id _)
      rw [Errand.task, ← stage_of_begins he]
      rfl
    rw [hat, left_of_none hat, hbegins] at h
    simpa [ends, hat] using h
  | some e =>
    obtain ⟨-, -, -, -, -, htask⟩ := e.proceed_spec c.feed
    rw [hat, left_of_some hat] at h
    rw [begins_of_some hat, ends, hat]
    cases hp : (e.proceed c.feed).1 with
    | none => simpa [hp, Option.filter] using h
    | some e' =>
      have hsame : e'.task = e.task := htask e' hp
      rw [hp] at h
      have hcons : (e.task :: (c.act a).errands.map Errand.task).Perm
          (e.task :: c.errands.map Errand.task) := by
        simpa [hsame] using h.trans List.perm_append_comm
      simpa [hp, Option.filter] using hcons.cons_inv

lemma reads_send (c : Crew) (i : ℕ) (w : Worker) (occasion : Occasion) (path : String) :
    c.feed.Reads (c.send i w occasion path).feed [] := by
  unfold send
  split <;> exact .none rfl rfl

/-- **One act** puts what it is to put into the table and calls the readers that it is to call, and
does nothing else to the table and the readers. -/
theorem feed_act (c : Crew) (a : Act) :
    (c.act a).feed.table = c.feed.table.replay (c.puts a) ∧
      (c.act a).feed.world.asked = c.feed.world.asked ++ c.asks a := by
  have h := c.acted a
  generalize c.act a = d at h ⊢
  have hnone {a : Act} (hat : c.errandAt a = none) {f : Feed} (hf : c.feed.Reads f []) :
      f.table = c.feed.table.replay (c.puts a) ∧
        f.world.asked = c.feed.world.asked ++ c.asks a := by
    simpa [puts, asks, hat, contributions] using And.intro hf.table hf.asked
  have hsome {a : Act} {e : Errand} (hat : c.errandAt a = some e) :
      (e.proceed c.feed).2.table = c.feed.table.replay (c.puts a) ∧
        (e.proceed c.feed).2.world.asked = c.feed.world.asked ++ c.asks a := by
    obtain ⟨htable, -, -, hasked, -⟩ := e.proceed_spec c.feed
    simpa [puts, asks, hat] using And.intro htable hasked
  have hself : c.feed.Reads c.feed [] := .none rfl rfl
  have hlaunch := c.feed.reads_launch
  have hask {s : Step} (h : c.feed.Reads (c.feed.ask s) []) : c.feed.Reads (c.ask s).feed [] :=
    ⟨h.table, h.asked⟩
  cases h with
  | happens h => exact hnone rfl (hask (c.feed.reads_happening h))
  | refuses hc hl | starts hc hr hl =>
    rw [hl] at hlaunch
    exact hnone rfl hlaunch
  | stops hc hr | loads hc => exact hnone rfl (.none rfl rfl)
  | @notifies path hc => exact hnone rfl (hask (c.feed.reads_enqueue path))
  | @adds file hc => exact hnone rfl (hask (c.feed.add_spec file).1)
  | @goes e e' f hc hp =>
    have h := hsome (a := .proceeds) (loading?_eq_some_iff.2 hc)
    rwa [hp] at h
  | @ends e f hc hp =>
    have h := hsome (a := .proceeds) (loading?_eq_some_iff.2 hc)
    rwa [hp] at h
  | leaves hc hn => exact hnone (errandAt_stopping hc) (.none rfl rfl)
  | abandons hc => exact hnone rfl (.none rfl rfl)
  | @works i w d hw ht =>
    have hat := errandAt_works hw
    cases ht with
    | @goes e e' f he hp =>
      have h := hsome (hat.trans he)
      rwa [hp] at h
    | @ends e f he hp =>
      have h := hsome (hat.trans he)
      rwa [hp] at h
    | visits he ha => exact hnone (hat.trans he) (reads_send ..)
    | @takes path rest he ha hm =>
      exact hnone (hat.trans he) (reads_send { c with mail := rest } i w .notice path)
    | plans he ha => exact hnone (hat.trans he) c.feed.reads_plan
    | _ => exact hnone (hat.trans (by assumption)) hself
  | gone hw => exact hnone (errandAt_gone hw) hself
  | free hc => exact hnone (errandAt_free hc) hself
  | waits hc hn => exact hnone (errandAt_stopping hc) hself
  | _ => exact hnone rfl hself

/-! ### The account of a run -/

/-- What holds at each act of goods that come in and go out holds of a whole run. -/
lemma balance {stock : Crew → List β} {outs ins : Crew → Act → List β}
    (h : ∀ c a, (outs c a ++ stock (c.act a)).Perm (stock c ++ ins c a)) (c : Crew)
    (acts : List Act) :
    (c.trace outs acts ++ stock (c.run acts)).Perm (stock c ++ c.trace ins acts) := by
  induction acts generalizing c with
  | nil => simp [trace]
  | cons a acts ih =>
    have hrest := (ih (c.act a)).append_left (outs c a)
    have hfirst := (h c a).append_right ((c.act a).trace ins acts)
    simp only [trace, run_cons, List.append_assoc] at hrest hfirst ⊢
    exact hrest.trans hfirst

/-- **A run** does to the table what its acts put into it, in their order. -/
theorem feed_run (c : Crew) (acts : List Act) :
    (c.run acts).feed.table = c.feed.table.replay (c.trace puts acts) ∧
      (c.run acts).feed.world.asked = c.feed.world.asked ++ c.trace asks acts := by
  induction acts generalizing c with
  | nil => simp [trace]
  | cons a acts ih =>
    obtain ⟨htable, hasked⟩ := c.feed_act a
    obtain ⟨htables, haskeds⟩ := ih (c.act a)
    rw [run_cons, htables, haskeds, htable, hasked, trace, trace, Table.replay_append,
      List.append_assoc]
    exact ⟨rfl, rfl⟩

end Crew

end RouterAgent
