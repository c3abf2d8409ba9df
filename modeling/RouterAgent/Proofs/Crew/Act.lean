import RouterAgent.Proofs.Watcher.Pace
import RouterAgent.Readiness

/-!
A watcher with its workers and its caller, who act moment by moment.

`Feed.step` does a call in one go and lets the worker finish after each step. Here a reading has
three moments: the file is looked for, its reader is asked, and the answer goes into the table.
Anything may happen between two of them: other threads tell of changes, the worker reads while a
caller loads, and time passes. To stop the watcher, a caller puts a notice to leave behind the paths
that wait, and then waits for the newest worker, unless its time runs out first. So an older worker
may be there still when the next one is started, and each of them may find the notice of the other.
A worker breaks down where it would have to wait longer than can be waited.
-/

namespace RouterAgent

open RouterAgent.Number RouterAgent.Lease RouterAgent.Client

/-- How far a reading has come: the file is looked for, its reader is asked next, or it has
answered. -/
inductive Errand.Stage where
  | seeking
  | asking
  | answered (result : Except Fault (List Client))

structure Errand where
  occasion : Occasion
  path : String
  file : WatchedFile
  stage : Errand.Stage

/-- The next moment of a reading, and what is left of it. -/
def Errand.proceed (e : Errand) (f : Feed) : Option Errand × Feed :=
  match e.stage with
  | .seeking =>
    let (there, f) := f.seek e.occasion e.path
    (if there then some { e with stage := .asking } else none, f)
  | .asking =>
    let (result, f) := f.parse e.file
    (some { e with stage := .answered result }, f)
  | .answered result => (none, (f.take e.occasion e.path result).2)

/-- A worker: when it reads all files by itself, the paths that are left of such a round, none of
them if the round is to be planned, and the reading that it is at. -/
structure Worker where
  plan : Binary64
  agenda : Option (List String)
  errand : Option Errand

inductive Business where
  | free
  | loading (e : Errand)
  | stopping

/-- A watcher with those who act on it: the paths that wait and the notices to leave among them, all
workers that were ever started, of whom some have ended, and the caller. The paths are kept here and
not in the watcher's own queue. A worker can wait no longer than for the longest delay, if there is
one. -/
structure Crew where
  feed : Feed
  mail : List (Option String)
  workers : List (Option Worker)
  caller : Business
  longest : Option Binary64

/-- What may come next: something happens around the watcher, the caller makes a call if it is free,
it goes on with a call that takes time, its time to wait for a worker is over, or a worker has a
turn. -/
inductive Act where
  | happens (h : Happening)
  | calls (call : WatcherCall)
  | proceeds
  | givesUp
  | works (i : ℕ)

namespace Crew

def new (w : World) (refresh : Binary64) (longest : Option Binary64) : Crew :=
  ⟨⟨w, .new refresh, .empty⟩, [], [], .free, longest⟩

def now (c : Crew) : Binary64 := c.feed.world.host.clock

/-- Whether workers read all files by themselves. -/
def timed (c : Crew) : Bool := !c.feed.watcher.refresh.isNonpositive

def isFree (c : Crew) : Bool :=
  match c.caller with
  | .free => true
  | _ => false

def isStopping (c : Crew) : Bool :=
  match c.caller with
  | .stopping => true
  | _ => false

/-- A worker that has not ended. -/
def worker? (c : Crew) (i : ℕ) : Option Worker := c.workers[i]?.join

/-- The worker that was started last, if it has not ended. -/
def newest? (c : Crew) : Option Worker := c.workers.getLast?.join

def put (c : Crew) (i : ℕ) (w : Option Worker) : Crew := { c with workers := c.workers.set i w }

/-- A step without the worker's part in it; a path that is to be read joins those that wait. -/
def ask (c : Crew) (s : Step) : Crew :=
  let f := c.feed.ask s
  { c with feed := f.withQueue [], mail := c.mail ++ f.watcher.queue.map some }

/-! ### Workers -/

/-- A worker sets out to read a path, if it is known. -/
def send (c : Crew) (i : ℕ) (w : Worker) (occasion : Occasion) (path : String) : Crew :=
  match c.feed.watcher.files.get? path with
  | none => c.put i (some w)
  | some file =>
    { c with feed := c.feed.enter .reparsing }.put i
      (some { w with errand := some ⟨occasion, path, file, .seeking⟩ })

def due (c : Crew) (w : Worker) : Bool := c.timed && !c.now.lt w.plan

/-- Whether a worker that finds nothing waiting breaks down, since it cannot wait until its plan. -/
def faints (c : Crew) (w : Worker) : Bool := c.timed && exceeds (w.plan.sub c.now) c.longest

/-- A worker's turn: it goes on with its reading, or with the round that it is on, or takes what
comes first of all that waits. -/
def turn (c : Crew) (i : ℕ) (w : Worker) : Crew :=
  match w.errand with
  | some e =>
    match e.proceed c.feed with
    | (some e, f) => { c with feed := f }.put i (some { w with errand := some e })
    | (none, f) => { c with feed := f.enter .watching }.put i (some { w with errand := none })
  | none =>
    match w.agenda with
    | some (path :: rest) => c.send i { w with agenda := some rest } .refresh path
    | some [] =>
      let f := c.feed.plan
      { c with feed := f }.put i (some { w with plan := f.watcher.nextRefresh, agenda := none })
    | none =>
      match c.mail with
      | some path :: rest => { c with mail := rest }.send i w .notice path
      | none :: rest => { c with mail := rest }.put i none
      | [] =>
        if c.due w then c.put i (some { w with agenda := some c.feed.watcher.watchList })
        else if c.faints w then c.put i none
        else c

/-- A new worker. One that reads all files by itself is to plan first when it does so. -/
def recruit (c : Crew) : Worker := ⟨.zero, if c.timed then some [] else none, none⟩

/-! ### The caller -/

def call (c : Crew) : WatcherCall → Crew
  | .start =>
    match c.feed.launch with
    | (.error _, f) => { c with feed := f }
    | (.ok (), f) =>
      if c.feed.watcher.running then c
      else { c with feed := f, workers := c.workers ++ [some c.recruit] }
  | .stop =>
    if c.feed.watcher.running then
      { c with feed := c.feed.hush, mail := c.mail ++ [none], caller := .stopping }
    else c
  | .load file =>
    { c with
      feed := { c.feed with watcher := c.feed.watcher.know file }
      caller := .loading ⟨.load, file.path, file, .seeking⟩ }
  | .notify path => c.ask (.watcher (.notify path))
  | .add file => c.ask (.watcher (.add file))
  | .watchList => c

def leave (c : Crew) : Crew := { c with feed := c.feed.rest, caller := .free }

def act (c : Crew) : Act → Crew
  | .happens h => c.ask (.happening h)
  | .calls call => if c.isFree then c.call call else c
  | .proceeds =>
    match c.caller with
    | .free => c
    | .loading e =>
      match e.proceed c.feed with
      | (some e, f) => { c with feed := f, caller := .loading e }
      | (none, f) => { c with feed := f, caller := .free }
    | .stopping => if c.newest?.isSome then c else c.leave
  | .givesUp => if c.isStopping then c.leave else c
  | .works i =>
    match c.worker? i with
    | some w => c.turn i w
    | none => c

def run (c : Crew) (acts : List Act) : Crew := acts.foldl act c

@[simp] lemma run_nil (c : Crew) : c.run [] = c := rfl
@[simp] lemma run_cons (c : Crew) (a : Act) (acts : List Act) :
    c.run (a :: acts) = (c.act a).run acts := rfl
lemma run_append (c : Crew) (as bs : List Act) : c.run (as ++ bs) = (c.run as).run bs := by
  simp [run, List.foldl_append]

/-- What is seen at each act of a list, one after the other. -/
def trace (see : Crew → Act → List α) (c : Crew) : List Act → List α
  | [] => []
  | a :: acts => see c a ++ (c.act a).trace see acts

lemma trace_append (see : Crew → Act → List α) (c : Crew) (as bs : List Act) :
    c.trace see (as ++ bs) = c.trace see as ++ (c.run as).trace see bs := by
  induction as generalizing c with
  | nil => rfl
  | cons a as ih => simp [trace, ih]

/-! ### What an act comes to -/

variable {c : Crew}

lemma isFree_iff : c.isFree = true ↔ c.caller = .free := by
  unfold isFree
  split <;> simp_all

lemma isStopping_iff : c.isStopping = true ↔ c.caller = .stopping := by
  unfold isStopping
  split <;> simp_all

inductive Turned (c : Crew) (i : ℕ) (w : Worker) : Crew → Prop
  | goes {e e' : Errand} {f : Feed} (he : w.errand = some e)
      (hp : e.proceed c.feed = (some e', f)) :
    Turned c i w ({ c with feed := f }.put i (some { w with errand := some e' }))
  | ends {e : Errand} {f : Feed} (he : w.errand = some e) (hp : e.proceed c.feed = (none, f)) :
    Turned c i w ({ c with feed := f.enter .watching }.put i (some { w with errand := none }))
  | visits {path : String} {rest : List String} (he : w.errand = none)
      (ha : w.agenda = some (path :: rest)) :
    Turned c i w (c.send i { w with agenda := some rest } .refresh path)
  | plans (he : w.errand = none) (ha : w.agenda = some []) :
    Turned c i w ({ c with feed := c.feed.plan }.put i
      (some { w with plan := c.feed.plan.watcher.nextRefresh, agenda := none }))
  | takes {path : String} {rest : List (Option String)} (he : w.errand = none)
      (ha : w.agenda = none) (hm : c.mail = some path :: rest) :
    Turned c i w ({ c with mail := rest }.send i w .notice path)
  | leaves {rest : List (Option String)} (he : w.errand = none) (ha : w.agenda = none)
      (hm : c.mail = none :: rest) :
    Turned c i w ({ c with mail := rest }.put i none)
  | begins (he : w.errand = none) (ha : w.agenda = none) (hm : c.mail = [])
      (hd : c.due w = true) :
    Turned c i w (c.put i (some { w with agenda := some c.feed.watcher.watchList }))
  | faints (he : w.errand = none) (ha : w.agenda = none) (hm : c.mail = [])
      (hd : c.due w = false) (hf : c.faints w = true) :
    Turned c i w (c.put i none)
  | waits (he : w.errand = none) (ha : w.agenda = none) (hm : c.mail = [])
      (hd : c.due w = false) (hf : c.faints w = false) :
    Turned c i w c

theorem turned (c : Crew) (i : ℕ) (w : Worker) : c.Turned i w (c.turn i w) := by
  obtain ⟨plan, agenda, _ | e⟩ := w
  · rcases agenda with _ | _ | ⟨path, rest⟩
    · simp only [turn]
      rcases hm : c.mail with _ | ⟨_ | path, rest⟩
      · simp only
        split
        · next hd => exact .begins rfl rfl hm hd
        · next hd =>
          rw [Bool.not_eq_true] at hd
          split
          · next hf => exact .faints rfl rfl hm hd hf
          · next hf => exact .waits rfl rfl hm hd (eq_false_of_ne_true hf)
      · exact .leaves rfl rfl hm
      · exact .takes rfl rfl hm
    · exact .plans rfl rfl
    · exact .visits rfl rfl
  · simp only [turn]
    rcases hp : e.proceed c.feed with ⟨_ | e', f⟩
    · exact .ends rfl hp
    · exact .goes rfl hp

inductive Acted (c : Crew) : Act → Crew → Prop
  | happens (h : Happening) : Acted c (.happens h) (c.ask (.happening h))
  | deaf {call : WatcherCall} (hc : c.isFree = false) : Acted c (.calls call) c
  | refuses {fault : Fault} {f : Feed} (hc : c.isFree = true)
      (hl : c.feed.launch = (.error fault, f)) :
    Acted c (.calls .start) { c with feed := f }
  | starts {f : Feed} (hc : c.isFree = true) (hr : c.feed.watcher.running = false)
      (hl : c.feed.launch = (.ok (), f)) :
    Acted c (.calls .start) { c with feed := f, workers := c.workers ++ [some c.recruit] }
  | runs (hc : c.isFree = true) (hr : c.feed.watcher.running = true) : Acted c (.calls .start) c
  | stops (hc : c.isFree = true) (hr : c.feed.watcher.running = true) :
    Acted c (.calls .stop)
      { c with feed := c.feed.hush, mail := c.mail ++ [none], caller := .stopping }
  | rests (hc : c.isFree = true) (hr : c.feed.watcher.running = false) : Acted c (.calls .stop) c
  | loads {file : WatchedFile} (hc : c.isFree = true) :
    Acted c (.calls (.load file))
      { c with
        feed := { c.feed with watcher := c.feed.watcher.know file }
        caller := .loading ⟨.load, file.path, file, .seeking⟩ }
  | notifies {path : String} (hc : c.isFree = true) :
    Acted c (.calls (.notify path)) (c.ask (.watcher (.notify path)))
  | adds {file : WatchedFile} (hc : c.isFree = true) :
    Acted c (.calls (.add file)) (c.ask (.watcher (.add file)))
  | lists (hc : c.isFree = true) : Acted c (.calls .watchList) c
  | free (hc : c.caller = .free) : Acted c .proceeds c
  | goes {e e' : Errand} {f : Feed} (hc : c.caller = .loading e)
      (hp : e.proceed c.feed = (some e', f)) :
    Acted c .proceeds { c with feed := f, caller := .loading e' }
  | ends {e : Errand} {f : Feed} (hc : c.caller = .loading e)
      (hp : e.proceed c.feed = (none, f)) :
    Acted c .proceeds { c with feed := f, caller := .free }
  | waits (hc : c.caller = .stopping) (hn : c.newest?.isSome = true) : Acted c .proceeds c
  | leaves (hc : c.caller = .stopping) (hn : c.newest? = none) : Acted c .proceeds c.leave
  | abandons (hc : c.caller = .stopping) : Acted c .givesUp c.leave
  | keeps (hc : c.isStopping = false) : Acted c .givesUp c
  | works {i : ℕ} {w : Worker} {d : Crew} (hw : c.worker? i = some w) (h : c.Turned i w d) :
    Acted c (.works i) d
  | gone {i : ℕ} (hw : c.worker? i = none) : Acted c (.works i) c

theorem acted (c : Crew) (a : Act) : c.Acted a (c.act a) := by
  cases a with
  | happens h => exact .happens h
  | calls call =>
    unfold act
    cases hc : c.isFree with
    | false => exact .deaf hc
    | true =>
      cases call with
      | start =>
        simp only [Crew.call, if_true]
        rcases hl : c.feed.launch with ⟨_ | _, f⟩
        · exact .refuses hc hl
        · cases hr : c.feed.watcher.running with
          | true => exact .runs hc hr
          | false => exact .starts hc hr hl
      | stop =>
        simp only [Crew.call, if_true]
        cases hr : c.feed.watcher.running with
        | true => exact .stops hc hr
        | false => exact .rests hc hr
      | notify path => exact .notifies hc
      | watchList => exact .lists hc
      | load file => exact .loads hc
      | add file => exact .adds hc
  | proceeds =>
    unfold act
    cases hc : c.caller with
    | free => exact .free hc
    | loading e =>
      simp only
      rcases hp : e.proceed c.feed with ⟨_ | e', f⟩
      · exact .ends hc hp
      · exact .goes hc hp
    | stopping =>
      simp only
      cases hn : c.newest? with
      | none => exact .leaves hc hn
      | some w => exact .waits hc (by simp [hn])
  | givesUp =>
    unfold act
    cases hc : c.isStopping with
    | true => exact .abandons (isStopping_iff.1 hc)
    | false => exact .keeps hc
  | works i =>
    simp only [act]
    cases hw : c.worker? i with
    | none => exact .gone hw
    | some w => exact .works hw (c.turned i w)

end Crew

end RouterAgent
