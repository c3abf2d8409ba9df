import RouterAgent.Proofs.Crew.Mail

/-!
Callers who wait for the worker as long as it takes.

If no stop is given up, only the newest worker may be there, and only while the watcher runs. So
what is taken is read in the order in which it is taken. If moreover no worker breaks down, then a
watcher that is on has a worker, there is one notice to leave exactly while that worker is to leave,
and a stop does not end before all is read that was asked for before it began.
-/

namespace RouterAgent

open RouterAgent.Number RouterAgent.Lease RouterAgent.Client

def Worker.serves (w : Worker) : List String := (w.errand.bind Errand.notice?).toList

namespace Crew

variable {c d : Crew} {a : Act} {i : ℕ} {w : Worker}

/-- Only the newest worker may be there, and only while the watcher runs; and nobody stops a watcher
that does not run. -/
structure Orderly (c : Crew) : Prop where
  last : ∀ i w, c.worker? i = some w → i + 1 = c.workers.length
  runs : ∀ i w, c.worker? i = some w → c.feed.watcher.running = true
  stopping : c.isStopping = true → c.feed.watcher.running = true

lemma orderly_new (w : World) (refresh : Binary64) (longest : Option Binary64) :
    (new w refresh longest).Orderly :=
  ⟨by simp [worker?, new], by simp [worker?, new], by simp [isStopping, new]⟩

lemma newest?_eq (c : Crew) : c.newest? = c.worker? (c.workers.length - 1) := by
  rw [newest?, worker?, List.getLast?_eq_getElem?]

lemma Orderly.newest (h : c.Orderly) (hw : c.worker? i = some w) : c.newest? = some w := by
  rw [newest?_eq, ← h.last i w hw, Nat.add_sub_cancel, hw]

lemma Orderly.running_of_newest (h : c.Orderly) (hn : c.newest?.isSome = true) :
    c.feed.watcher.running = true := by
  obtain ⟨w, hw⟩ := Option.isSome_iff_exists.1 hn
  rw [newest?_eq] at hw
  exact h.runs _ w hw

lemma Orderly.worker?_eq_none (h : c.Orderly) (hn : c.newest? = none) (i : ℕ) :
    c.worker? i = none := by
  cases hw : c.worker? i with
  | none => rfl
  | some w => exact absurd (h.newest hw) (by simp [hn])

/-! ### Workers after a turn -/

lemma lt_length_of_worker? (hw : c.worker? i = some w) : i < c.workers.length :=
  (List.getElem?_eq_some_iff.1 (Option.join_eq_some_iff.1 hw)).1

lemma worker?_put (hi : i < c.workers.length) (w' : Option Worker) (j : ℕ) :
    (c.put i w').worker? j = if i = j then w' else c.worker? j := by
  simp only [put, worker?]
  rw [List.getElem?_set]
  split
  · simp
  · rfl

lemma worker?_recruited {f : Feed} {v : Worker}
    (h : ({ c with feed := f, workers := c.workers ++ [some w] } : Crew).worker? i = some v) :
    c.worker? i = some v ∨ i = c.workers.length ∧ v = w := by
  have hget : (c.workers ++ [some w])[i]?.join = some v := h
  rcases Nat.lt_or_ge i c.workers.length with hold | hnew
  · rw [List.getElem?_append_left hold] at hget
    exact .inl hget
  · rw [List.getElem?_append_right hnew] at hget
    rcases hn : i - c.workers.length with _ | n
    · rw [hn] at hget
      exact .inr ⟨by omega, by simpa using hget.symm⟩
    · simp [hn] at hget

lemma workers_turned (hw : c.worker? i = some w) (h : c.Turned i w d) :
    ∃ w', d.workers = c.workers.set i w' ∧ ∀ v, w' = some v →
      (v.plan = w.plan ∨ v.plan = c.feed.plan.watcher.nextRefresh) ∧
      (w.agenda = none → c.due w = false → v.agenda = none) := by
  have hsend (c : Crew) (w' : Worker) (occasion : Occasion) (path : String) :
      ∃ w'', (c.send i w' occasion path).workers = c.workers.set i w'' ∧
        ∀ v, w'' = some v → v.plan = w'.plan ∧ v.agenda = w'.agenda := by
    unfold send
    split <;> exact ⟨_, rfl, by rintro v ⟨⟩; exact ⟨rfl, rfl⟩⟩
  cases h with
  | @visits path rest he ha =>
    obtain ⟨w'', hset, hsame⟩ := hsend c { w with agenda := some rest } .refresh path
    exact ⟨w'', hset, fun v hv => ⟨.inl (hsame v hv).1, by simp [ha]⟩⟩
  | @takes path rest he ha hm =>
    obtain ⟨w'', hset, hsame⟩ := hsend { c with mail := rest } w .notice path
    exact ⟨w'', hset, fun v hv => ⟨.inl (hsame v hv).1, fun hnone _ => (hsame v hv).2.trans hnone⟩⟩
  | waits he ha hm hd hf =>
    refine ⟨some w, ?_, by rintro v ⟨⟩; exact ⟨.inl rfl, fun hnone _ => hnone⟩⟩
    obtain ⟨hlt, hget⟩ := List.getElem?_eq_some_iff.1 (Option.join_eq_some_iff.1 hw)
    rw [← hget, List.set_getElem_self]
  | plans he ha => exact ⟨_, rfl, by rintro v ⟨⟩; exact ⟨.inr rfl, fun _ _ => rfl⟩⟩
  | leaves | faints => exact ⟨none, rfl, by simp⟩
  | goes | ends => exact ⟨_, rfl, by rintro v ⟨⟩; exact ⟨.inl rfl, fun hnone _ => hnone⟩⟩
  | begins he ha hm hd => exact ⟨_, rfl, by rintro v ⟨⟩; exact ⟨.inl rfl, by simp [hd]⟩⟩

lemma live_of_turned (hw : c.worker? i = some w) (h : c.Turned i w d) {j : ℕ} {w' : Worker}
    (hj : d.worker? j = some w') : (c.worker? j).isSome = true := by
  obtain ⟨w'', hd, -⟩ := workers_turned hw h
  have hput : d.worker? j = (c.put i w'').worker? j := congrArg (fun ws => ws[j]?.join) hd
  rw [hput, worker?_put (lt_length_of_worker? hw)] at hj
  split at hj
  · next hij => rw [← hij, hw]; rfl
  · rw [hj]; rfl

lemma timed_act (c : Crew) (a : Act) :
    (c.act a).feed.watcher.refresh = c.feed.watcher.refresh ∧ (c.act a).longest = c.longest := by
  have hacted := c.acted a
  generalize c.act a = d at hacted ⊢
  have hlaunched := c.feed.launched
  cases hacted with
  | works hw ht =>
    obtain ⟨⟨_, _, hwatcher⟩, -, hlongest⟩ := keeps_turned ht
    exact ⟨by rw [hwatcher], hlongest⟩
  | happens hap =>
    obtain ⟨queue, hw⟩ := c.feed.watcher_happening hap
    exact ⟨(congrArg Watcher.refresh hw).trans rfl, rfl⟩
  | @notifies path hc =>
    obtain ⟨queue, hw⟩ := c.feed.watcher_enqueue path
    exact ⟨(congrArg Watcher.refresh hw).trans rfl, rfl⟩
  | @adds file hc =>
    obtain ⟨-, -, -, hrefresh⟩ := c.feed.watcher_add file
    exact ⟨hrefresh, rfl⟩
  | refuses hc hl => exact ⟨congrArg Watcher.refresh (Feed.watcher_launch_of_error hl).1, rfl⟩
  | starts hc hr hl =>
    rw [hl] at hlaunched
    cases hlaunched <;> exact ⟨rfl, rfl⟩
  | @goes e e' f hc hp | @ends e f hc hp =>
    exact ⟨congrArg Watcher.refresh (Errand.watcher_of_proceed hp), rfl⟩
  | _ => exact ⟨rfl, rfl⟩

lemma timed_run (c : Crew) (acts : List Act) :
    (c.run acts).feed.watcher.refresh = c.feed.watcher.refresh ∧
      (c.run acts).longest = c.longest := by
  induction acts generalizing c with
  | nil => exact ⟨rfl, rfl⟩
  | cons a acts ih =>
    obtain ⟨hrefresh, hlongest⟩ := ih (c.act a)
    exact ⟨hrefresh.trans (c.timed_act a).1, hlongest.trans (c.timed_act a).2⟩

lemma Orderly.of_workers (h : c.Orderly) (hw : d.workers = c.workers)
    (hr : d.feed.watcher.running = c.feed.watcher.running)
    (hs : d.isStopping = true → d.feed.watcher.running = true) : d.Orderly := by
  have hworker (i : ℕ) : d.worker? i = c.worker? i := congrArg (fun ws => ws[i]?.join) hw
  refine ⟨fun i w hi => ?_, fun i w hi => ?_, hs⟩
  · rw [hw]
    exact h.last i w ((hworker i).symm.trans hi)
  · rw [hr]
    exact h.runs i w ((hworker i).symm.trans hi)

lemma Orderly.starts (h : c.Orderly) {f : Feed} (hr : c.feed.watcher.running = false)
    (hf : f.watcher.running = true) (w : Worker) :
    ({ c with feed := f, workers := c.workers ++ [some w] } : Crew).Orderly := by
  refine ⟨fun j v hj => ?_, fun _ _ _ => hf, fun _ => hf⟩
  rcases worker?_recruited hj with hold | ⟨rfl, -⟩
  · exact absurd (h.runs j v hold) (by simp [hr])
  · simp

lemma Orderly.act (h : c.Orderly) (ha : a ≠ .givesUp) : (c.act a).Orderly := by
  have hacted := c.acted a
  generalize c.act a = d at hacted ⊢
  cases hacted with
  | @works i w d hw ht =>
    obtain ⟨⟨_, _, hwatcher⟩, hcaller, -⟩ := keeps_turned ht
    obtain ⟨w', hworkers, -⟩ := workers_turned hw ht
    refine ⟨fun j w' hj => ?_, fun j w' hj => ?_, fun hs => ?_⟩
    · obtain ⟨w'', hj'⟩ := Option.isSome_iff_exists.1 (live_of_turned hw ht hj)
      rw [hworkers, List.length_set]
      exact h.last j w'' hj'
    · rw [hwatcher]
      exact h.runs i w hw
    · rw [hwatcher]
      exact h.runs i w hw
  | happens hap =>
    have hr := (c.feed.alike_happening hap).running
    exact h.of_workers rfl hr fun hs => hr.trans (h.stopping hs)
  | @notifies path hc =>
    have hr := (c.feed.alike_enqueue path).running
    exact h.of_workers rfl hr fun hs => hr.trans (h.stopping hs)
  | @adds file hc =>
    have hr := (c.feed.add_spec file).2.2.1
    exact h.of_workers rfl hr fun hs => hr.trans (h.stopping hs)
  | refuses hc hl =>
    obtain ⟨hw, -⟩ := Feed.watcher_launch_of_error hl
    have hr := congrArg Watcher.running hw
    exact h.of_workers rfl hr fun hs => hr.trans (h.stopping hs)
  | starts hc hr hl => exact h.starts hr (Feed.watcher_launch_of_ok hl).1 _
  | stops hc hr => exact h.of_workers rfl rfl fun _ => hr
  | loads hc => exact h.of_workers rfl rfl (by simp [isStopping])
  | @goes e e' f hc hp | @ends e f hc hp =>
    have hw := Errand.watcher_of_proceed hp
    exact h.of_workers rfl (congrArg Watcher.running hw) (by simp [isStopping])
  | leaves hc hn =>
    have hnone (i : ℕ) (w : Worker) (hw : c.worker? i = some w) : False := by
      simp [h.worker?_eq_none hn i] at hw
    exact ⟨fun i w hw => (hnone i w hw).elim, fun i w hw => (hnone i w hw).elim,
      by simp [leave, isStopping]⟩
  | abandons | keeps => exact absurd rfl ha
  | _ => exact h

lemma Orderly.run (h : c.Orderly) {acts : List Act} (ha : .givesUp ∉ acts) :
    (c.run acts).Orderly := by
  induction acts generalizing c with
  | nil => exact h
  | cons a acts ih =>
    rw [List.mem_cons, not_or] at ha
    exact ih (h.act (Ne.symm ha.1)) ha.2

/-! ### What is taken is read in its order -/

def served (c : Crew) : List String := c.newest?.toList.flatMap Worker.serves

/-- The paths of notices whose readings an act brings to their end. -/
def serves (c : Crew) (a : Act) : List String := (c.ends a).filterMap Errand.notice?

lemma newest?_put (h : c.Orderly) (hw : c.worker? i = some w) (w' : Option Worker) :
    (c.put i w').newest? = w' := by
  have hlength : (c.put i w').workers.length = c.workers.length := List.length_set
  rw [newest?_eq, hlength, worker?_put (lt_length_of_worker? hw), ← h.last i w hw,
    Nat.add_sub_cancel, if_pos rfl]

lemma newest?_send (h : c.Orderly) (hw : c.worker? i = some w) (mail : List (Option String))
    (w' : Worker) (he : w'.errand = none) (occasion : Occasion) (path : String) :
    ∃ w'', ({ c with mail }.send i w' occasion path).newest? = some w'' ∧
      w''.errand = c.errandFor occasion path := by
  have hput (w'' : Worker) : (c.put i (some w'')).newest? = some w'' := newest?_put h hw _
  unfold send errandFor
  cases c.feed.watcher.files.get? path with
  | none => exact ⟨w', hput w', he⟩
  | some file => exact ⟨_, hput _, rfl⟩

lemma serves_of_none (h : c.errandAt a = none) : c.serves a = [] := by
  simp [serves, ends, h]

lemma serves_of_some {e : Errand} (h : c.errandAt a = some e) :
    c.serves a = if (e.proceed c.feed).1.isNone then e.notice?.toList else [] := by
  rw [serves, ends, h]
  cases hp : (e.proceed c.feed).1 with
  | none =>
    have hnotice : e.task.notice? = e.notice? := rfl
    cases hn : e.notice? <;> simp [Option.filter, hp, hnotice, hn]
  | some e' => simp [Option.filter, hp]

def breakdowns (c : Crew) : Act → List Worker
  | .works i =>
    match c.worker? i with
    | none => []
    | some w =>
      match w.errand, w.agenda, c.mail with
      | none, none, [] => if c.due w then [] else if c.faints w then [w] else []
      | _, _, _ => []
  | _ => []

/-- What a worker's turn does to what waits: it takes a path, or the notice to leave, or nothing. -/
inductive Fetched (c : Crew) (i : ℕ) (w : Worker) (d : Crew) : Prop
  | nothing (hm : d.mail = c.mail) (ht : c.takes (.works i) = []) (hn : d.newest?.isSome = true)
  | path {path : String} (hm : c.mail = some path :: d.mail) (ht : c.takes (.works i) = [path])
      (hn : d.newest?.isSome = true)
  | notice (he : w.errand = none) (hm : c.mail = none :: d.mail) (hn : d.newest? = none)
  | faint (hb : c.breakdowns (.works i) = [w])

lemma served_turned (h : c.Orderly) (hfiled : c.Filed) (hw : c.worker? i = some w)
    (ht : c.Turned i w d) :
    c.served ++ c.takes (.works i) = c.serves (.works i) ++ d.served ∧ c.Fetched i w d := by
  have hserved : c.served = w.serves := by simp [served, h.newest hw]
  have hat := errandAt_works hw
  have htakes : c.takes (.works i) = ((c.next? w).bind Errand.notice?).toList := by
    rw [takes, begins_works hw]
    cases c.next? w with
    | none => rfl
    | some e => cases he : e.notice? <;> simp [he]
  have hput (f : Feed) (mail : List (Option String)) (w' : Option Worker) :
      ({ c with feed := f, mail }.put i w').newest? = w' := newest?_put h hw w'
  -- a worker that has no reading has afterwards the one that it begins
  have hidle {d : Crew} (he : w.errand = none)
      (hd : (d.newest?.bind Worker.errand) = c.next? w) :
      c.served ++ c.takes (.works i) = c.serves (.works i) ++ d.served := by
    rw [hserved, Worker.serves, he, serves_of_none (hat.trans he), htakes, ← hd, served]
    cases d.newest? <;> simp [Worker.serves]
  have hbusy {e : Errand} (he : w.errand = some e) :
      c.served = e.notice?.toList ∧ c.takes (.works i) = [] := by
    rw [hserved, Worker.serves, he, htakes, next?, he]
    exact ⟨rfl, rfl⟩
  cases ht with
  | @goes e e' f he hp =>
    obtain ⟨hs, ht⟩ := hbusy he
    have htask := Errand.task_of_proceed hp
    have hsame : e'.task.notice? = e.task.notice? := congrArg Errand.notice? htask
    have hsome : e'.notice? = e.notice? := hsame
    refine ⟨?_, .nothing rfl ht (by rw [hput]; rfl)⟩
    rw [hs, ht, serves_of_some (hat.trans he), hp, served, hput]
    simp [Worker.serves, hsome]
  | @ends e f he hp =>
    obtain ⟨hs, ht⟩ := hbusy he
    refine ⟨?_, .nothing rfl ht (by rw [hput]; rfl)⟩
    rw [hs, ht, serves_of_some (hat.trans he), hp, served, hput]
    simp [Worker.serves]
  | @visits path rest he ha =>
    have hn := next?_visits (c := c) he ha
    obtain ⟨w', hw', he'⟩ := newest?_send h hw c.mail { w with agenda := some rest } he
      .refresh path
    have ht : c.takes (.works i) = [] := by
      rw [htakes, hn, errandFor]
      cases c.feed.watcher.files.get? path <;> rfl
    refine ⟨hidle he ?_, .nothing (keeps_send c c.mail ..).2 ht (by rw [hw']; rfl)⟩
    rw [hw', hn, Option.bind_some, he']
  | @takes path rest he ha hm =>
    have hn := next?_takes he ha hm
    obtain ⟨w', hw', he'⟩ := newest?_send h hw rest w he .notice path
    obtain ⟨file, hfile⟩ := Option.isSome_iff_exists.1 (hfiled.known path (by simp [waiting, hm]))
    have ht : c.takes (.works i) = [path] := by
      rw [htakes, hn, errandFor, hfile]
      rfl
    have hmail := (keeps_send c rest i w .notice path).2
    refine ⟨hidle he ?_, .path (hm.trans (by rw [hmail])) ht (by rw [hw']; rfl)⟩
    rw [hw', hn, Option.bind_some, he']
  | leaves he ha hm =>
    refine ⟨hidle he ?_, .notice he hm (hput ..)⟩
    rw [hput]
    simp [next?, he, ha, hm]
  | plans he ha =>
    have hn : c.next? w = none := by simp [next?, he, ha]
    refine ⟨hidle he ?_, .nothing rfl (by rw [htakes, hn]; rfl) (by rw [hput]; rfl)⟩
    rw [hput, hn, Option.bind_some, he]
  | begins he ha hm hd =>
    have hn : c.next? w = none := by simp [next?, he, ha, hm]
    refine ⟨hidle he ?_, .nothing rfl (by rw [htakes, hn]; rfl) (by rw [hput c.feed c.mail]; rfl)⟩
    rw [hput c.feed c.mail, hn, Option.bind_some, he]
  | faints he ha hm hd hf =>
    refine ⟨hidle he ?_, .faint (by simp [breakdowns, hw, he, ha, hm, hd, hf])⟩
    rw [hput c.feed c.mail]
    simp [next?, he, ha, hm]
  | waits he ha hm hd hf =>
    have hn : c.next? w = none := by simp [next?, he, ha, hm]
    refine ⟨hidle he ?_, .nothing rfl (by rw [htakes, hn]; rfl) (by rw [h.newest hw]; rfl)⟩
    rw [h.newest hw, hn, Option.bind_some, he]

/-- **In the order of taking**: what the newest worker reads for, and what an act takes, is what the
act brings to its end, and what the worker reads for afterwards. -/
lemma served_act (h : c.Orderly) (hfiled : c.Filed) (ha : a ≠ .givesUp) :
    c.served ++ c.takes a = c.serves a ++ (c.act a).served := by
  have hacted := c.acted a
  generalize c.act a = d at hacted ⊢
  have hsame {a : Act} {d : Crew} (ht : c.takes a = []) (hs : c.serves a = [])
      (hd : d.workers = c.workers) : c.served ++ c.takes a = c.serves a ++ d.served := by
    rw [ht, hs, List.append_nil, List.nil_append]
    exact congrArg (fun ws => ws.getLast?.join.toList.flatMap Worker.serves) hd.symm
  cases hacted with
  | works hw ht => exact (served_turned h hfiled hw ht).1
  | gone hw =>
    exact hsame (by simp [takes, begins_gone hw]) (serves_of_none (errandAt_gone hw)) rfl
  | starts hc hr hl =>
    have hn : c.newest? = none := by
      rw [← Option.not_isSome_iff_eq_none]
      intro hn
      simp [h.running_of_newest hn] at hr
    have hs : c.served = [] := by
      rw [served, hn]
      rfl
    rw [hs]
    simp [served, newest?, takes, begins, serves, ends, errandAt, Worker.serves, recruit]
  | @loads file hc => exact hsame (by simp [takes, begins, hc, Errand.notice?]) rfl rfl
  | @deaf call hc => exact hsame (by cases call <;> simp [takes, begins, hc]) rfl rfl
  | @goes e e' f hc hp | @ends e f hc hp =>
    have he := loading?_eq_some_iff.2 hc
    have hnotice : e.notice? = none := by simp [Errand.notice?, hfiled.loads e he]
    refine hsame rfl ?_ rfl
    rw [serves_of_some (a := .proceeds) (e := e) he, hnotice]
    split <;> rfl
  | abandons | keeps => exact absurd rfl ha
  | free hc => exact hsame rfl (serves_of_none (errandAt_free hc)) rfl
  | waits hc hn | leaves hc hn =>
    exact hsame rfl (serves_of_none (errandAt_stopping hc)) rfl
  | _ => exact hsame rfl rfl rfl

theorem served_run (h : c.Orderly) (hfiled : c.Filed) {acts : List Act} (ha : .givesUp ∉ acts) :
    c.served ++ (c.trace begins acts).filterMap Errand.notice? =
      (c.trace ends acts).filterMap Errand.notice? ++ (c.run acts).served := by
  induction acts generalizing c with
  | nil => simp [trace]
  | cons a acts ih =>
    rw [List.mem_cons, not_or] at ha
    have hact := served_act h hfiled (Ne.symm ha.1)
    have hrest := ih (h.act (Ne.symm ha.1)) (hfiled.act a) ha.2
    simp only [trace, List.filterMap_append, run_cons]
    calc c.served ++ (c.takes a ++ ((c.act a).trace begins acts).filterMap Errand.notice?)
        = c.serves a ++ ((c.act a).served ++
            ((c.act a).trace begins acts).filterMap Errand.notice?) := by
          rw [← List.append_assoc, hact, List.append_assoc]
      _ = c.serves a ++ ((c.act a).trace ends acts).filterMap Errand.notice? ++
            ((c.act a).run acts).served := by
          rw [hrest, List.append_assoc]

/-! ### Notices to leave -/

/-- A watcher that is on has a worker that is not to leave; and when it is off, there is one notice
to leave as long as there is a worker, and none afterwards. -/
structure Manned (c : Crew) : Prop where
  on : c.isOn = true → c.newest?.isSome = true ∧ none ∉ c.mail
  leaving : c.isOn = false → c.newest?.isSome = true →
    ∃ paths later : List String, c.mail = paths.map some ++ none :: later.map some
  left : c.isOn = false → c.newest? = none → none ∉ c.mail

lemma manned_new (w : World) (refresh : Binary64) (longest : Option Binary64) :
    (new w refresh longest).Manned :=
  ⟨by simp [isOn, new, Watcher.new], by simp [new, newest?], by simp [new]⟩

lemma exists_map_some {mail : List (Option String)} (h : none ∉ mail) :
    ∃ paths : List String, mail = paths.map some := by
  induction mail with
  | nil => exact ⟨[], rfl⟩
  | cons m mail ih =>
    rw [List.mem_cons, not_or] at h
    obtain ⟨paths, rfl⟩ := ih h.2
    obtain ⟨path, rfl⟩ := Option.ne_none_iff_exists'.1 (Ne.symm h.1)
    exact ⟨path :: paths, rfl⟩

lemma Manned.turned (h : c.Manned) (horderly : c.Orderly) (hfiled : c.Filed)
    (hw : c.worker? i = some w) (ht : c.Turned i w d) (hb : c.breakdowns (.works i) = []) :
    d.Manned := by
  have hon := (keeps_turned ht).isOn
  have hnewest : c.newest?.isSome = true := by
    rw [horderly.newest hw]
    rfl
  cases (served_turned horderly hfiled hw ht).2 with
  | nothing hm _ hn =>
    refine ⟨fun hd => ?_, fun hd _ => ?_, fun _ hgone => by simp [hgone] at hn⟩
    · exact ⟨hn, hm ▸ (h.on (hon.symm.trans hd)).2⟩
    · exact hm ▸ h.leaving (hon.symm.trans hd) hnewest
  | path hm _ hn =>
    refine ⟨fun hd => ⟨hn, ?_⟩, fun hd _ => ?_, fun _ hgone => by simp [hgone] at hn⟩
    · have hnone := (h.on (hon.symm.trans hd)).2
      rw [hm] at hnone
      exact fun hmem => hnone (List.mem_cons_of_mem _ hmem)
    · obtain ⟨before, later, hmail⟩ := h.leaving (hon.symm.trans hd) hnewest
      rw [hm] at hmail
      rcases before with _ | ⟨first, before⟩
      · simp at hmail
      · exact ⟨before, later, (List.cons.inj hmail).2⟩
  | notice _ hm hn =>
    -- there is no notice to leave in front of a worker that is on
    have hoff : c.isOn = false := by
      rw [← Bool.not_eq_true]
      intro hc
      exact (h.on hc).2 (by simp [hm])
    obtain ⟨before, later, hmail⟩ := h.leaving hoff hnewest
    refine ⟨fun hd => ?_, fun _ hlive => by simp [hn] at hlive, fun _ _ => ?_⟩
    · simp [hon.symm.trans hd] at hoff
    · rw [hm] at hmail
      rcases before with _ | ⟨first, before⟩
      · rw [(List.cons.inj hmail).2]
        simp
      · simp at hmail
  | faint hb' => simp [hb'] at hb

lemma Manned.act (h : c.Manned) (horderly : c.Orderly) (hfiled : c.Filed) (ha : a ≠ .givesUp)
    (hb : c.breakdowns a = []) : (c.act a).Manned := by
  have hacted := c.acted a
  have hon := c.isOn_act a
  generalize c.act a = d at hacted hon ⊢
  have hsame {d : Crew} (hon : d.isOn = c.isOn) (hn : d.newest?.isSome = c.newest?.isSome)
      (paths : List String) (hm : d.mail = c.mail ++ paths.map some) : d.Manned := by
    refine ⟨fun hd => ?_, fun hd hlive => ?_, fun hd hgone => ?_⟩
    · rw [hn, hm]
      simpa using h.on (hon.symm.trans hd)
    · obtain ⟨before, after, hmail⟩ := h.leaving (hon.symm.trans hd) (hn.symm.trans hlive)
      exact ⟨before, after ++ paths, by simp [hm, hmail]⟩
    · have hnone : c.newest? = none := by simpa [hgone] using hn
      simpa [hm] using h.left (hon.symm.trans hd) hnone
  cases hacted with
  | happens hap => exact hsame hon rfl _ rfl
  | notifies hc | adds hc => exact hsame hon rfl _ rfl
  | refuses hc hl =>
    rw [switches_start_of_error hl] at hon
    exact hsame hon rfl [] (List.append_nil _).symm
  | starts hc hr hl =>
    -- where the watcher did not run, there was no worker, and so no notice
    have hn : c.newest? = none := by
      rw [← Option.not_isSome_iff_eq_none]
      intro hn
      simp [horderly.running_of_newest hn] at hr
    rw [switches_start_of_ok hc hl] at hon
    exact ⟨fun _ => ⟨by simp [newest?], h.left (by simp [isOn, hr]) hn⟩,
      fun hd => by simp [hon] at hd, fun hd => by simp [hon] at hd⟩
  | stops hc hr =>
    obtain ⟨hlive, hnone⟩ := h.on (by simp [isOn, hr, isStopping_of_isFree hc])
    obtain ⟨paths, hpaths⟩ := exists_map_some hnone
    refine ⟨fun hd => by simp [isOn, isStopping] at hd, fun _ _ => ⟨paths, [], by rw [hpaths]; rfl⟩,
      fun _ hgone => ?_⟩
    rw [show c.newest? = none from hgone] at hlive
    simp at hlive
  | loads hc =>
    exact hsame (isOn_of_eq rfl (isStopping_of_isFree hc).symm) rfl [] (by simp)
  | goes hc hp | ends hc hp => exact hsame hon rfl [] (by simp)
  | leaves hc hn =>
    have hoff : c.leave.isOn = false := by simp [isOn, leave, Feed.rest]
    exact ⟨fun hd => by simp [hoff] at hd,
      fun _ hlive => by simp [show c.leave.newest? = none from hn] at hlive,
      fun _ _ => h.left (by simp [isOn, isStopping, hc]) hn⟩
  | works hw ht => exact h.turned horderly hfiled hw ht hb
  | abandons | keeps => exact absurd rfl ha
  | _ => exact h

lemma Manned.run (h : c.Manned) (horderly : c.Orderly) (hfiled : c.Filed) {acts : List Act}
    (ha : .givesUp ∉ acts) (hb : c.trace breakdowns acts = []) : (c.run acts).Manned := by
  induction acts generalizing c with
  | nil => exact h
  | cons a acts ih =>
    rw [List.mem_cons, not_or] at ha
    obtain ⟨hfirst, hrest⟩ := List.append_eq_nil_iff.1 hb
    have ha' := Ne.symm ha.1
    exact ih (h.act horderly hfiled ha' hfirst) (horderly.act ha') (hfiled.act a) ha.2 hrest

/-! ### The end of a stop -/

/-- A stop goes on: there is a worker, and these paths wait in front of the notice to leave. -/
structure Halting (paths : List String) (c : Crew) : Prop where
  stopping : c.isStopping = true
  live : c.newest?.isSome = true
  mail : ∃ later, c.mail = paths.map some ++ none :: later

lemma Halting.turned {paths : List String} (h : c.Halting paths) (horderly : c.Orderly)
    (hfiled : c.Filed) (hw : c.worker? i = some w) (ht : c.Turned i w d) :
    (∃ still, d.Halting still ∧ c.served ++ paths = c.serves (.works i) ++ (d.served ++ still)) ∨
      c.served ++ paths = [] := by
  obtain ⟨later, hm⟩ := h.mail
  obtain ⟨hserved, hfetched⟩ := served_turned horderly hfiled hw ht
  have hs : d.isStopping = true := by
    rw [isStopping_iff, (keeps_turned ht).caller]
    exact isStopping_iff.1 h.stopping
  cases hfetched with
  | nothing hm' htakes hn =>
    rw [htakes, List.append_nil] at hserved
    exact .inl ⟨paths, ⟨hs, hn, later, hm'.trans hm⟩, by rw [hserved, List.append_assoc]⟩
  | @path path hm' htakes hn =>
    rw [hm] at hm'
    rcases paths with _ | ⟨first, paths⟩
    · simp at hm'
    · obtain ⟨hfirst, hmail⟩ := List.cons.inj hm'
      rw [htakes, ← Option.some.inj hfirst] at hserved
      refine .inl ⟨paths, ⟨hs, hn, later, hmail.symm⟩, ?_⟩
      rw [List.append_cons, hserved, List.append_assoc]
  | notice he hm' hn =>
    rw [hm] at hm'
    rcases paths with _ | ⟨first, paths⟩
    · exact .inr (by simp [served, horderly.newest hw, Worker.serves, he])
    · simp at hm'
  | faint hb =>
    -- a worker that finds the notice does not wait
    have hnone : c.breakdowns (.works i) = [] := by
      simp only [breakdowns, hw, hm]
      cases w.errand <;> cases w.agenda <;> cases paths <;> rfl
    simp [hnone] at hb

lemma Halting.act {paths : List String} (h : c.Halting paths) (horderly : c.Orderly)
    (hfiled : c.Filed) (ha : a ≠ .givesUp) :
    (∃ still, (c.act a).Halting still ∧
        c.served ++ paths = c.serves a ++ ((c.act a).served ++ still)) ∨
      c.served ++ paths = [] := by
  have hcaller : c.caller = .stopping := isStopping_iff.1 h.stopping
  have hfree : c.isFree = false := by simp [isFree, hcaller]
  have hacted := c.acted a
  generalize c.act a = d at hacted ⊢
  have hsame {a : Act} (hserves : c.serves a = []) :
      (∃ still, c.Halting still ∧ c.served ++ paths = c.serves a ++ (c.served ++ still)) ∨
        c.served ++ paths = [] :=
    .inl ⟨paths, h, by rw [hserves, List.nil_append]⟩
  cases hacted with
  | happens hap =>
    obtain ⟨later, hm⟩ := h.mail
    exact .inl ⟨paths, ⟨h.stopping, h.live, _, by simp [ask, hm]; rfl⟩, rfl⟩
  | deaf hc => exact hsame rfl
  | gone hw => exact hsame (serves_of_none (errandAt_gone hw))
  | waits hc hn => exact hsame (serves_of_none (errandAt_stopping hc))
  | works hw ht => exact h.turned horderly hfiled hw ht
  | free hc | goes hc hp | ends hc hp => simp [hcaller] at hc
  | leaves hc hn => exact absurd h.live (by simp [hn])
  | abandons | keeps => exact absurd rfl ha
  | _ hc => simp [hfree] at hc

/-- **A stop does not end before** all is read that waits in front of the notice to leave: when a
caller is no longer stopping, then what the worker was reading for and what waited is read to the
end. -/
theorem Halting.prefix_of_stopped {paths : List String} (h : c.Halting paths)
    (horderly : c.Orderly) (hfiled : c.Filed) {acts : List Act} (ha : .givesUp ∉ acts)
    (hend : (c.run acts).isStopping = false) :
    c.served ++ paths <+: (c.trace ends acts).filterMap Errand.notice? := by
  induction acts generalizing c paths with
  | nil => simp [h.stopping] at hend
  | cons a acts ih =>
    rw [List.mem_cons, not_or] at ha
    have ha' := Ne.symm ha.1
    rw [trace, List.filterMap_append]
    rcases h.act horderly hfiled ha' with ⟨still, hnext, heq⟩ | hnone
    · rw [heq]
      exact (List.prefix_append_right_inj _).2
        (ih hnext (horderly.act ha') (hfiled.act a) ha.2 hend)
    · rw [hnone]
      exact List.nil_prefix

/-- **Before a stop ends** all is read that was asked for before it began. -/
theorem requests_prefix_of_stopped (horderly : c.Orderly) (hfiled : c.Filed) (hmanned : c.Manned)
    {as bs : List Act} (ha : .givesUp ∉ as ++ .calls .stop :: bs)
    (hb : c.trace breakdowns as = []) (hon : (c.run as).isFree = true)
    (hr : (c.run as).feed.watcher.running = true)
    (hend : (c.run (as ++ .calls .stop :: bs)).isStopping = false) :
    c.served ++ c.waiting ++ c.trace requests as <+:
      (c.trace ends (as ++ .calls .stop :: bs)).filterMap Errand.notice? := by
  rw [List.mem_append, not_or, List.mem_cons, not_or] at ha
  have hwaiting := waiting_run hfiled as
  have hserved := served_run horderly hfiled ha.1
  have hmanned' := hmanned.run horderly hfiled ha.1 hb
  have horderly' := horderly.run ha.1
  have hfiled' := hfiled.run as
  rw [run_append, run_cons] at hend
  rw [trace_append, trace, List.filterMap_append, List.filterMap_append]
  generalize c.run as = d at *
  obtain ⟨hlive, hnone⟩ := hmanned'.on (by simp [isOn, hr, isStopping_of_isFree hon])
  obtain ⟨paths, hpaths⟩ := exists_map_some hnone
  have hw : d.waiting = paths := by simp [waiting, hpaths]
  have hstop : d.act (.calls .stop) =
      { d with feed := d.feed.hush, mail := d.mail ++ [none], caller := .stopping } := by
    simp [act, hon, call, hr]
  have hhalting : (d.act (.calls .stop)).Halting paths := by
    rw [hstop]
    exact ⟨rfl, hlive, [], by rw [hpaths]⟩
  have hprefix := hhalting.prefix_of_stopped (horderly'.act (a := .calls .stop) (by simp))
    (hfiled'.act (.calls .stop)) ha.2.2 hend
  have hsame : (d.act (.calls .stop)).served = d.served := by
    rw [hstop]
    rfl
  rw [hsame] at hprefix
  calc c.served ++ c.waiting ++ c.trace requests as
      = (c.trace ends as).filterMap Errand.notice? ++ (d.served ++ paths) := by
        rw [List.append_assoc, hwaiting, ← List.append_assoc, hserved, hw, List.append_assoc]
    _ <+: (c.trace ends as).filterMap Errand.notice? ++
          (d.serves (.calls .stop) ++
            ((d.act (.calls .stop)).trace ends bs).filterMap Errand.notice?) := by
        rw [serves_of_none rfl, List.nil_append]
        exact (List.prefix_append_right_inj _).2 hprefix

end Crew

end RouterAgent
