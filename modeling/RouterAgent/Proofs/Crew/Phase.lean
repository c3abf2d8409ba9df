import RouterAgent.Proofs.Crew.Refinement

/-!
What a watcher says that it is doing.

While nobody reads, the phase is the one that was set last: by a start that was a success, by the
end of a stop, or by a worker that came to the end of a reading. A worker that was left behind by a
stop that was given up so makes a stopped watcher say that it is watching. Where no stop is given
up, a watcher at rest is watching exactly since its last start, and else it is idle.
-/

namespace RouterAgent

open RouterAgent.Number RouterAgent.Lease

namespace Crew

variable {c d : Crew} {a : Act} {i : ℕ} {w : Worker}

def phase (c : Crew) : Phase := c.feed.watcher.phase

/-- The phases of rest that an act brings about. -/
def settles (c : Crew) (a : Act) : List Phase :=
  match a with
  | .calls .start => if c.isFree && c.feed.launch.1.isOk then [.watching] else []
  | .proceeds => if c.isStopping && c.newest?.isNone then [.idle] else []
  | .givesUp => if c.isStopping then [.idle] else []
  | .works _ => (c.ends a).map fun _ => .watching
  | _ => []

/-! ### The phase that was set last -/

lemma phase_of_launch {f g : Feed} (hr : f.watcher.running = false) (h : f.launch = (.ok (), g)) :
    g.watcher.phase = .watching := by
  have hl := f.launched
  rw [h] at hl
  cases hl with
  | runs hr' => simp [hr] at hr'
  | started => rfl

/-- A watcher that is reparsing has a worker at a reading, one that runs is not idle, and one that
is not reparsing is in the phase of rest that was brought about last. -/
structure Marked (last : Phase) (c : Crew) : Prop where
  reading : c.phase = .reparsing → ∃ e ∈ c.errands, e.occasion ≠ .load
  running : c.feed.watcher.running = true → c.phase ≠ .idle
  resting : c.phase ≠ .reparsing → c.phase = last

lemma marked_new (w : World) (refresh : Binary64) (longest : Option Binary64) :
    (new w refresh longest).Marked .idle :=
  ⟨by simp [new, phase, Watcher.new], by simp [new, Watcher.new], fun _ => rfl⟩

/-- The phase after an act: it is the same, or a phase of rest that the act brings about, or the act
sends a worker to read. -/
inductive Shifts (c : Crew) (a : Act) (d : Crew) : Prop
  | same (hs : c.settles a = []) (hp : d.phase = c.phase)
      (hr : d.feed.watcher.running = c.feed.watcher.running)
      (hk : ∀ e ∈ c.errandAt a, e.occasion ≠ .load → (e.proceed c.feed).1.isSome)
  | runs (hs : c.settles a = [.watching]) (hr : c.feed.watcher.running = true) (hd : d = c)
  | settles (last : Phase) (hs : c.settles a = [last]) (hp : d.phase = last) (hl : last ≠ .reparsing)
      (hr : d.feed.watcher.running = true → last ≠ .idle)
  | sets {e : Errand} (hs : c.settles a = []) (hp : d.phase = .reparsing) (hb : c.begins a = [e])
      (he : e.occasion ≠ .load)
      (hr : d.feed.watcher.running = c.feed.watcher.running)

lemma settles_works (c : Crew) (i : ℕ) :
    c.settles (.works i) = (c.ends (.works i)).map fun _ => .watching := rfl

lemma shifts_send (hw : c.worker? i = some w) {w' : Worker} {mail : List (Option String)}
    {occasion : Occasion} {path : String} (ho : occasion ≠ .load)
    (hn : c.next? w = c.errandFor occasion path) (he : w.errand = none) :
    c.Shifts (.works i) ({ c with mail }.send i w' occasion path) := by
  have hat : c.errandAt (.works i) = none := by simp [errandAt, hw, he]
  have hs : c.settles (.works i) = [] := by simp [settles_works, ends, hat]
  have hbegins : c.begins (.works i) = (c.errandFor occasion path).toList := by
    rw [begins_works hw, hn]
  unfold send
  cases hf : c.feed.watcher.files.get? path with
  | none => exact .same hs rfl rfl (by simp [hat])
  | some file =>
    rw [errandFor, hf] at hbegins
    exact .sets hs rfl hbegins ho rfl

lemma shifts_turned (hw : c.worker? i = some w) (ht : c.Turned i w d) :
    c.Shifts (.works i) d := by
  have hat := errandAt_works hw
  have hidle {d : Crew} (he : w.errand = none) (hp : d.phase = c.phase)
      (hr : d.feed.watcher.running = c.feed.watcher.running) : c.Shifts (.works i) d :=
    .same (by simp [settles_works, ends, hat, he]) hp hr (by simp [hat, he])
  cases ht with
  | @goes e e' f he hp =>
    have hwatcher := Errand.watcher_of_proceed hp
    refine .same ?_ (congrArg Watcher.phase hwatcher) (congrArg Watcher.running hwatcher) ?_
    · simp [settles_works, ends, hat, he, hp, Option.filter]
    · simp [hat, he, hp]
  | @ends e f he hp =>
    refine .settles .watching ?_ rfl (by simp) (by simp)
    simp [settles_works, ends, hat, he, hp, Option.filter]
  | visits he ha => exact shifts_send hw (by simp) (next?_visits he ha) he
  | takes he ha hm => exact shifts_send hw (by simp) (next?_takes he ha hm) he
  | plans he | leaves he | begins he | faints he | waits he => exact hidle he rfl rfl

lemma shifts_act (hfiled : c.Filed) (a : Act) : c.Shifts a (c.act a) := by
  have hacted := c.acted a
  generalize c.act a = d at hacted ⊢
  have hsame {a : Act} {d : Crew} (hs : c.settles a = []) (hat : c.errandAt a = none)
      (hp : d.phase = c.phase) (hr : d.feed.watcher.running = c.feed.watcher.running) :
      c.Shifts a d := .same hs hp hr (by simp [hat])
  have hask {a : Act} {s : Step} (hs : c.settles a = []) (hat : c.errandAt a = none)
      (hp : (c.feed.ask s).watcher.phase = c.feed.watcher.phase)
      (hr : (c.feed.ask s).watcher.running = c.feed.watcher.running) : c.Shifts a (c.ask s) :=
    hsame hs hat hp hr
  cases hacted with
  | works hw ht => exact shifts_turned hw ht
  | @gone i hw =>
    have hat := errandAt_gone hw
    exact hsame (by simp [settles_works, ends, hat]) hat rfl rfl
  | happens hap =>
    exact hask rfl rfl (c.feed.phase_happening hap) (c.feed.alike_happening hap).running
  | @notifies path hc =>
    exact hask rfl rfl (c.feed.phase_enqueue path) (c.feed.alike_enqueue path).running
  | @adds file hc =>
    obtain ⟨-, hrunning, hphase, -⟩ := c.feed.watcher_add file
    exact hask rfl rfl hphase hrunning
  | refuses hc hl =>
    obtain ⟨hw, -⟩ := Feed.watcher_launch_of_error hl
    exact hsame (by simp [settles, hl, Except.isOk, Except.toBool]) rfl (congrArg Watcher.phase hw)
      (congrArg Watcher.running hw)
  | @starts f hc hr hl =>
    refine .settles .watching ?_ (phase_of_launch hr hl) (by simp) (by simp)
    simp [settles, hc, hl, Except.isOk, Except.toBool]
  | runs hc hr =>
    exact .runs (by simp [settles, hc, Feed.launch, hr, Except.isOk, Except.toBool]) hr rfl
  | @deaf call hc => exact hsame (by cases call <;> simp [settles, hc]) rfl rfl rfl
  | @goes e e' f hc hp | @ends e f hc hp =>
    have he := loading?_eq_some_iff.2 hc
    have hwatcher := Errand.watcher_of_proceed hp
    refine .same (by simp [settles, isStopping, hc]) (congrArg Watcher.phase hwatcher)
      (congrArg Watcher.running hwatcher) fun e' he' hload => ?_
    obtain rfl : e = e' := Option.some.inj (he.symm.trans he')
    exact absurd (hfiled.loads e he) hload
  | leaves hc hn =>
    exact .settles .idle (by simp [settles, isStopping, hc, hn]) rfl (by simp)
      (by simp [leave, Feed.rest])
  | abandons hc =>
    exact .settles .idle (by simp [settles, isStopping, hc]) rfl (by simp)
      (by simp [leave, Feed.rest])
  | keeps hc => exact hsame (by simp [settles, hc]) rfl rfl rfl
  | free hc =>
    exact hsame (by simp [settles, isStopping, hc]) (errandAt_free hc) rfl rfl
  | waits hc hn =>
    have hsome : c.newest?.isNone = false := by rw [← Option.not_isSome, hn]; rfl
    exact hsame (by simp [settles, hsome]) (errandAt_stopping hc) rfl rfl
  | _ => exact hsame rfl rfl rfl rfl

lemma exists_errand_act (h : ∃ e ∈ c.errands, e.occasion ≠ .load)
    (hk : ∀ e ∈ c.errandAt a, e.occasion ≠ .load → (e.proceed c.feed).1.isSome) :
    ∃ e ∈ (c.act a).errands, e.occasion ≠ .load := by
  obtain ⟨e, he, hload⟩ := h
  have hperm := c.errands_act a
  have hmem : e ∈ (c.errandAt a).toList ++ (c.act a).errands :=
    hperm.mem_iff.2 (List.mem_append_left _ he)
  rcases List.mem_append.1 hmem with hat | hnext
  · rw [Option.mem_toList] at hat
    obtain ⟨e', he'⟩ := Option.isSome_iff_exists.1 (hk e hat hload)
    have hp : e.proceed c.feed = (some e', (e.proceed c.feed).2) := Prod.ext he' rfl
    have htask := Errand.task_of_proceed hp
    have hless := Errand.remaining_of_proceed hp
    have hmem' : e' ∈ (c.errandAt a).toList ++ (c.act a).errands := by
      rw [hperm.mem_iff, left_of_some hat, he']
      simp
    rcases List.mem_append.1 hmem' with hsame | hnext
    · -- what goes on is not what it was
      rw [Option.mem_toList] at hsame
      obtain rfl : e = e' := Option.some.inj (hat.symm.trans hsame)
      exact absurd hless (lt_irrefl _)
    · exact ⟨e', hnext, (congrArg Errand.occasion htask).trans_ne hload⟩
  · exact ⟨e, hnext, hload⟩

lemma Marked.act {last : Phase} (h : c.Marked last) (hfiled : c.Filed) (a : Act) :
    (c.act a).Marked ((c.settles a).getLast?.getD last) := by
  cases shifts_act hfiled a with
  | same hs hp hr hk =>
    rw [hs]
    exact ⟨fun hd => exists_errand_act (h.reading (hp.symm.trans hd)) hk,
      fun hd => hp ▸ h.running (hr.symm.trans hd), fun hd => hp.trans (h.resting (hp ▸ hd))⟩
  | runs hs hr hd =>
    rw [hs, hd]
    refine ⟨h.reading, h.running, fun hreading => ?_⟩
    have hidle := h.running hr
    cases hc : c.phase <;> simp_all
  | settles _ hs hp hl hr =>
    rw [hs]
    exact ⟨fun hd => absurd (hp.symm.trans hd) hl, fun hd => hp ▸ hr hd, fun _ => hp⟩
  | @sets e hs hp hb he hr =>
    rw [hs]
    refine ⟨fun _ => ⟨e, ?_, he⟩, fun _ => by simp [hp], fun hd => absurd hp hd⟩
    have hat : c.errandAt a = none := by
      cases hat : c.errandAt a with
      | none => rfl
      | some e' => simp [begins_of_some hat] at hb
    have hmem : e ∈ (c.errandAt a).toList ++ (c.act a).errands := by
      rw [(c.errands_act a).mem_iff, left_of_none hat, hb]
      simp
    simpa [hat] using hmem

lemma Marked.run {last : Phase} (h : c.Marked last) (hfiled : c.Filed) (acts : List Act) :
    (c.run acts).Marked ((c.trace settles acts).getLast?.getD last) := by
  induction acts generalizing c last with
  | nil => exact h
  | cons a acts ih =>
    have hrest := ih (h.act hfiled a) (hfiled.act a)
    rw [trace, List.getLast?_append]
    cases hs : ((c.act a).trace settles acts).getLast? <;> simpa [hs] using hrest

/-! ### Nobody gives up -/

def isReading (c : Crew) : Bool := (c.newest?.bind Worker.errand).isSome

def rest (c : Crew) : Phase := if c.feed.watcher.running then .watching else .idle

/-- The watcher is reparsing exactly while the newest worker reads. -/
def Phased (c : Crew) : Prop := c.phase = if c.isReading then .reparsing else c.rest

lemma phased_new (w : World) (refresh : Binary64) (longest : Option Binary64) :
    (new w refresh longest).Phased := rfl

lemma Phased.of_eq (h : c.Phased) (hp : d.phase = c.phase)
    (hr : d.feed.watcher.running = c.feed.watcher.running) (hn : d.isReading = c.isReading) :
    d.Phased := by
  rw [Phased, hp, hn, rest, hr]
  exact h

lemma phased_send (h : c.Phased) (horderly : c.Orderly) (hw : c.worker? i = some w)
    (he : w.errand = none) {w' : Worker} (he' : w'.errand = none) {mail : List (Option String)}
    (occasion : Occasion) (path : String) :
    ({ c with mail }.send i w' occasion path).Phased := by
  obtain ⟨w'', hn, hsome⟩ := newest?_send horderly hw mail w' he' occasion path
  have hidle : c.isReading = false := by simp [isReading, horderly.newest hw, he]
  unfold send at hn ⊢
  cases hf : c.feed.watcher.files.get? path with
  | none =>
    simp only [hf] at hn ⊢
    refine h.of_eq rfl rfl ?_
    rw [hidle, isReading, hn, Option.bind_some, hsome, errandFor, hf]
    rfl
  | some file =>
    simp only [hf] at hn ⊢
    have hreading : ∀ d : Crew, d.newest? = some w'' → d.isReading = true := by
      intro d hd
      rw [isReading, hd, Option.bind_some, hsome, errandFor, hf]
      rfl
    rw [Phased, hreading _ hn]
    rfl

lemma phased_turned (h : c.Phased) (horderly : c.Orderly) (hw : c.worker? i = some w)
    (ht : c.Turned i w d) : d.Phased := by
  have hput (f : Feed) (mail : List (Option String)) (w' : Option Worker) :
      ({ c with feed := f, mail }.put i w').newest? = w' := newest?_put horderly hw w'
  have hreading : c.isReading = w.errand.isSome := by
    simp [isReading, horderly.newest hw]
  have hidle (f : Feed) (mail : List (Option String)) {w' : Option Worker} (he : w.errand = none)
      (hp : f.watcher.phase = c.phase) (hr : f.watcher.running = c.feed.watcher.running)
      (he' : w'.bind Worker.errand = none) : ({ c with feed := f, mail }.put i w').Phased := by
    refine h.of_eq hp hr ?_
    rw [hreading, he, isReading, hput, he']
  cases ht with
  | @goes e e' f he hp =>
    have hwatcher := Errand.watcher_of_proceed hp
    refine h.of_eq (congrArg Watcher.phase hwatcher) (congrArg Watcher.running hwatcher) ?_
    rw [hreading, he, isReading, hput]
    rfl
  | @ends e f he hp =>
    have hwatcher := Errand.watcher_of_proceed hp
    have hrunning : f.watcher.running = true :=
      (congrArg Watcher.running hwatcher).trans (horderly.runs i w hw)
    rw [Phased, isReading, hput, rest]
    simp [put, phase, Feed.enter, hrunning]
  | visits he ha => exact phased_send h horderly hw he (by exact he) .refresh _
  | takes he ha hm => exact phased_send h horderly hw he he .notice _
  | plans he ha => exact hidle c.feed.plan c.mail he rfl rfl he
  | @leaves rest he ha hm => exact hidle c.feed rest he rfl rfl rfl
  | begins he ha hm hd => exact hidle c.feed c.mail he rfl rfl he
  | faints he ha hm hd hf => exact hidle c.feed c.mail he rfl rfl rfl
  | waits he ha hm hd hf => exact h

lemma Phased.act (h : c.Phased) (horderly : c.Orderly) (ha : a ≠ .givesUp) :
    (c.act a).Phased := by
  have hacted := c.acted a
  generalize c.act a = d at hacted ⊢
  have hcaller {f : Feed} (hw : f.watcher = c.feed.watcher) (caller : Business) :
      ({ c with feed := f, caller } : Crew).Phased :=
    h.of_eq (congrArg Watcher.phase hw) (congrArg Watcher.running hw) rfl
  cases hacted with
  | works hw ht => exact phased_turned h horderly hw ht
  | happens hap =>
    exact h.of_eq (c.feed.phase_happening hap) (c.feed.alike_happening hap).running rfl
  | @notifies path hc =>
    exact h.of_eq (c.feed.phase_enqueue path) (c.feed.alike_enqueue path).running rfl
  | @adds file hc =>
    obtain ⟨-, hrunning, hphase, -⟩ := c.feed.watcher_add file
    exact h.of_eq hphase hrunning rfl
  | refuses hc hl => exact hcaller (Feed.watcher_launch_of_error hl).1 c.caller
  | @starts f hc hr hl =>
    have hphase := phase_of_launch hr hl
    have hrunning := (Feed.watcher_launch_of_ok hl).1
    have hnew : ({ c with feed := f, workers := c.workers ++ [some c.recruit] } : Crew).isReading =
        false := by simp [isReading, newest?, recruit]
    rw [Phased, hnew, rest, hrunning]
    exact hphase
  | goes hc hp | ends hc hp => exact hcaller (Errand.watcher_of_proceed hp) _
  | leaves hc hn =>
    have hidle : c.leave.isReading = false := by
      rw [isReading, show c.leave.newest? = none from hn]
      rfl
    rw [Phased, hidle]
    rfl
  | stops hc hr | loads hc => exact h
  | abandons | keeps => exact absurd rfl ha
  | _ => exact h

lemma Phased.run (h : c.Phased) (horderly : c.Orderly) {acts : List Act} (ha : .givesUp ∉ acts) :
    (c.run acts).Phased := by
  induction acts generalizing c with
  | nil => exact h
  | cons a acts ih =>
    rw [List.mem_cons, not_or] at ha
    have ha' := Ne.symm ha.1
    exact ih (h.act horderly ha') (horderly.act ha') ha.2

/-! ### All runs -/

def Quiet (c : Crew) : Prop := ∀ e ∈ c.errands, e.occasion = .load

lemma Marked.phase_eq {last : Phase} (h : c.Marked last) (hq : c.Quiet) :
    c.phase ≠ .reparsing ∧ c.phase = last := by
  have hresting : c.phase ≠ .reparsing := by
    intro hp
    obtain ⟨e, he, hload⟩ := h.reading hp
    exact hload (hq e he)
  exact ⟨hresting, h.resting hresting⟩

lemma Phased.phase_eq {last : Phase} (h : c.Phased) (hmarked : c.Marked last) (hq : c.Quiet) :
    c.phase = c.rest := by
  have hresting := (hmarked.phase_eq hq).1
  rw [Phased] at h
  cases hr : c.isReading with
  | true => exact absurd (h.trans (if_pos hr)) hresting
  | false => simpa [hr] using h

lemma Phased.reparsing (h : c.Phased) (horderly : c.Orderly) (hfiled : c.Filed) {e : Errand}
    (he : c.errandAt a = some e) (ho : e.occasion ≠ .load) : c.phase = .reparsing := by
  cases a with
  | works i =>
    obtain ⟨w, hw, hworker⟩ := Option.bind_eq_some_iff.1 he
    have hreading : c.isReading = true := by simp [isReading, horderly.newest hw, hworker]
    rw [h, if_pos hreading]
  | proceeds => exact absurd (hfiled.loads e he) ho
  | happens | calls | givesUp => simp [errandAt] at he

lemma asks_eq_parsed {file : WatchedFile} {phase : Phase} {x : Action} (h : x ∈ file.asks phase) :
    ∃ path, x = .parsed path phase := by
  unfold WatchedFile.asks at h
  split at h
  · exact ⟨file.path, List.mem_singleton.1 h⟩
  · simp at h

lemma exists_errand_of_asks {x : Action} (h : x ∈ c.asks a) :
    ∃ e, c.errandAt a = some e ∧ ∃ path, x = .parsed path c.phase := by
  rw [asks, List.mem_flatMap] at h
  obtain ⟨e, he, hx⟩ := h
  refine ⟨e, Option.mem_toList.1 he, ?_⟩
  unfold Errand.asks at hx
  split at hx
  · exact asks_eq_parsed hx
  · simp at hx

lemma act_start_of_error {fault : Fault} (hc : c.isFree = true)
    (h : c.feed.launch.1 = .error fault) :
    ∃ world, c.act (.calls .start) = { c with feed := { c.feed with world } } := by
  obtain ⟨hw, ht⟩ := Feed.watcher_launch_of_error (Prod.ext h rfl : c.feed.launch = (_, _))
  have hact : c.act (.calls .start) = { c with feed := c.feed.launch.2 } := by
    rcases hl : c.feed.launch with ⟨_ | _, f⟩
    · simp [act, hc, call, hl]
    · simp [hl] at h
  refine ⟨c.feed.launch.2.world, hact.trans ?_⟩
  have hfeed : c.feed.launch.2 = ⟨c.feed.launch.2.world, c.feed.watcher, c.feed.table⟩ := by
    rw [← hw, ← ht]
  exact congrArg (fun f => { c with feed := f }) hfeed

lemma act_start_of_running (hr : c.feed.watcher.running = true) : c.act (.calls .start) = c := by
  cases hc : c.isFree <;> simp [act, hc, call, Feed.launch, hr]

lemma act_stop_of_idle (hr : c.feed.watcher.running = false) : c.act (.calls .stop) = c := by
  cases hc : c.isFree <;> simp [act, hc, call, hr]

/-- A file with a reader of its own, which leaves everything to the form of the file. -/
def readFile : WatchedFile := ⟨"/hall/a", .dnsmasq, some ⟨0, fun _ => none⟩⟩

/-- A watcher is started, a file is loaded, and read again after a notice; then the watcher is
stopped when no observer starts any more. -/
def stranded : List Act :=
  [.calls .start, .happens (.write "/hall/a" (.bytes [49])), .calls (.load readFile), .proceeds,
    .proceeds, .proceeds, .calls (.notify "/hall/a"), .works 0, .works 0, .works 0, .works 0,
    .happens (.script ⟨none, some (.reported "OSError" .system none), []⟩), .calls .stop, .works 0,
    .proceeds]

-- where a stop is given up, the worker comes to the end of its reading afterwards
example :
    ((new hall Binary64.zero none).run
      [.calls .start, .happens (.write "/hall/a" (.bytes [49])), .calls (.load readFile), .proceeds,
        .proceeds, .proceeds, .calls (.notify "/hall/a"), .works 0, .calls .stop, .givesUp,
        .works 0, .works 0, .works 0]).phase = .watching := by
  decide +kernel

end Crew

end RouterAgent
