import RouterAgent.Proofs.Crew.Patience

/-!
A worker, or a caller, that is left alone.

Left alone, a worker brings its reading to the end, then the round that it is on, and then takes
what waits, path after path. What it does to the watcher is what `Feed.reparse` does. So everything
that waits is read, a stop comes to its end, and the runs of `Feed.run` are those in which nobody is
ever interrupted.
-/

namespace RouterAgent

open RouterAgent.Number RouterAgent.Lease RouterAgent.Client

/-- The watcher after a reading was brought to its end, with nothing in between. -/
def Errand.finish (e : Errand) (f : Feed) : Feed :=
  match e.stage with
  | .seeking => (f.read e.occasion e.path e.file).2
  | .asking => ((f.parse e.file).2.take e.occasion e.path (f.parse e.file).1).2
  | .answered result => (f.take e.occasion e.path result).2

lemma Errand.finish_of_proceed (e : Errand) (f : Feed) :
    e.finish f = match e.proceed f with
      | (some e', g) => e'.finish g
      | (none, g) => g := by
  obtain ⟨occasion, path, file, stage⟩ := e
  cases stage with
  | seeking =>
    simp only [finish, proceed, Feed.read]
    generalize f.seek occasion path = out
    obtain ⟨_ | _, g⟩ := out <;> rfl
  | asking | answered result => rfl

def Errand.Stage.remaining : Errand.Stage → ℕ
  | seeking => 3
  | asking => 2
  | answered _ => 1

lemma Errand.remaining_of_proceed {e e' : Errand} {f g : Feed} (h : e.proceed f = (some e', g)) :
    e'.stage.remaining < e.stage.remaining := by
  obtain ⟨occasion, path, file, stage⟩ := e
  cases stage with
  | seeking =>
    simp only [proceed] at h
    generalize f.seek occasion path = out at h
    obtain ⟨_ | _, g'⟩ := out
    · simp at h
    · obtain ⟨he, -⟩ := Prod.mk.inj h
      rw [← Option.some.inj he]
      simp [Errand.Stage.remaining]
  | asking =>
    obtain ⟨he, -⟩ := Prod.mk.inj h
    rw [← Option.some.inj he]
    simp [Errand.Stage.remaining]
  | answered result => simp [proceed] at h

namespace Crew

variable {c d : Crew} {a : Act} {i : ℕ} {w : Worker}

/-- A worker has so many turns, and nobody else does anything. -/
def turns (c : Crew) (i n : ℕ) : Crew := c.run (.replicate n (.works i))

lemma turns_succ (c : Crew) (i n : ℕ) : c.turns i (n + 1) = (c.act (.works i)).turns i n := rfl

lemma turns_add (c : Crew) (i m n : ℕ) : c.turns i (m + n) = (c.turns i m).turns i n := by
  rw [turns, List.replicate_add, run_append]
  rfl

/-- What comes of one crew comes of another one after so many turns. -/
def Comes (i : ℕ) (c d : Crew) : Prop := ∃ n, c.turns i n = d

lemma Comes.refl (i : ℕ) (c : Crew) : Comes i c c := ⟨0, rfl⟩

lemma Comes.trans {b : Crew} (h : Comes i b c) (h' : Comes i c d) : Comes i b d := by
  obtain ⟨m, rfl⟩ := h
  obtain ⟨n, rfl⟩ := h'
  exact ⟨m + n, turns_add ..⟩

lemma Comes.head (h : Comes i (c.act (.works i)) d) : Comes i c d := by
  obtain ⟨n, rfl⟩ := h
  exact ⟨n + 1, turns_succ ..⟩

lemma act_works (h : c.worker? i = some w) : c.act (.works i) = c.turn i w := by
  simp only [act, h]

@[simp] lemma put_put (c : Crew) (i : ℕ) (w w' : Option Worker) :
    (c.put i w).put i w' = c.put i w' := by
  simp [put, List.set_set]

lemma put_self (hw : c.worker? i = some w) : c.put i (some w) = c := by
  obtain ⟨hlt, hget⟩ := List.getElem?_eq_some_iff.1 (Option.join_eq_some_iff.1 hw)
  rw [put, ← hget, List.set_getElem_self]

lemma worker?_put_self (hi : i < c.workers.length) (f : Feed) (mail : List (Option String))
    (w : Option Worker) : ({ c with feed := f, mail }.put i w).worker? i = w := by
  have h := worker?_put (c := { c with feed := f, mail }) hi w i
  rwa [if_pos rfl] at h

lemma newest?_put_last (hi : c.workers.length - 1 < c.workers.length) (f : Feed)
    (mail : List (Option String)) (w : Option Worker) :
    ({ c with feed := f, mail }.put (c.workers.length - 1) w).newest? = w := by
  have hlength : ({ c with feed := f, mail }.put (c.workers.length - 1) w).workers.length =
      c.workers.length := List.length_set
  rw [newest?_eq, hlength]
  exact worker?_put_self hi f mail w

lemma act_errand (hi : i < c.workers.length) (w : Worker) (e : Errand) (f : Feed) :
    ({ c with feed := f }.put i (some { w with errand := some e })).act (.works i) =
      match e.proceed f with
      | (some e', g) => { c with feed := g }.put i (some { w with errand := some e' })
      | (none, g) => { c with feed := g.enter .watching }.put i (some { w with errand := none }) := by
  have hput (g : Feed) (w' w'' : Option Worker) :
      { { c with feed := f }.put i w' with feed := g }.put i w'' = { c with feed := g }.put i w'' :=
    put_put { c with feed := g } i w' w''
  rw [act_works (worker?_put_self hi f c.mail _)]
  change (match e.proceed f with
    | (some e', g) => { { c with feed := f }.put i _ with feed := g }.put i _
    | (none, g) => { { c with feed := f }.put i _ with feed := g.enter .watching }.put i _) = _
  rcases e.proceed f with ⟨_ | e', g⟩ <;> exact hput ..

lemma comes_errand (hi : i < c.workers.length) (w : Worker) (e : Errand) (f : Feed) :
    Comes i ({ c with feed := f }.put i (some { w with errand := some e }))
      ({ c with feed := (e.finish f).enter .watching }.put i (some { w with errand := none })) := by
  induction hn : e.stage.remaining using Nat.strong_induction_on generalizing e f with
  | _ n ih =>
    refine .head ?_
    rw [act_errand hi, e.finish_of_proceed f]
    rcases hp : e.proceed f with ⟨_ | e', g⟩
    · exact .refl i _
    · exact ih _ (hn ▸ Errand.remaining_of_proceed hp) e' g rfl

lemma send_put (c : Crew) (i : ℕ) (w' : Option Worker) (w : Worker) (occasion : Occasion)
    (path : String) : (c.put i w').send i w occasion path = c.send i w occasion path := by
  simp only [send, show (c.put i w').feed = c.feed from rfl]
  cases c.feed.watcher.files.get? path with
  | none => exact put_put ..
  | some file => exact put_put { c with feed := c.feed.enter .reparsing } ..

lemma comes_send (hi : i < c.workers.length) (hw : w.errand = none) (f : Feed)
    {occasion : Occasion} (ho : occasion ≠ .load) (path : String) :
    Comes i ({ c with feed := f }.send i w occasion path)
      ({ c with feed := f.reparse path }.put i (some w)) := by
  unfold send Feed.reparse
  cases hf : f.watcher.files.get? path with
  | none => exact ⟨0, rfl⟩
  | some file =>
    have h := comes_errand hi w ⟨occasion, path, file, .seeking⟩ (f.enter .reparsing)
    have hfinish : Errand.finish ⟨occasion, path, file, .seeking⟩ (f.enter .reparsing) =
        ((f.enter .reparsing).read .notice path file).2 := by
      cases occasion with
      | load => exact absurd rfl ho
      | notice | refresh => rfl
    rw [hfinish] at h
    obtain ⟨plan, agenda, errand⟩ := w
    obtain rfl : errand = none := hw
    exact h

lemma comes_agenda (hi : i < c.workers.length) (hw : w.errand = none) (f : Feed)
    (paths : List String) :
    Comes i ({ c with feed := f }.put i (some { w with agenda := some paths }))
      ({ c with feed := (f.reparseAll paths).plan }.put i
        (some ⟨(f.reparseAll paths).plan.watcher.nextRefresh, none, none⟩)) := by
  obtain ⟨plan, agenda, errand⟩ := w
  obtain rfl : errand = none := hw
  induction paths generalizing f with
  | nil =>
    refine .head ?_
    rw [act_works (worker?_put_self hi f c.mail _)]
    exact ⟨0, put_put { c with feed := f.plan } i _ _⟩
  | cons path paths ih =>
    refine .head ?_
    rw [act_works (worker?_put_self hi f c.mail _)]
    change Comes i (({ c with feed := f }.put i _).send i ⟨plan, some paths, none⟩ .refresh path) _
    rw [send_put]
    exact (comes_send hi rfl f (by simp) path).trans (ih (f.reparse path))

lemma comes_mail (hi : i < c.workers.length) (plan : Binary64) (f : Feed) (paths : List String)
    (rest : List (Option String)) :
    Comes i ({ c with feed := f, mail := paths.map some ++ rest }.put i (some ⟨plan, none, none⟩))
      ({ c with feed := f.reparseAll paths, mail := rest }.put i (some ⟨plan, none, none⟩)) := by
  induction paths generalizing f with
  | nil => exact .refl i _
  | cons path paths ih =>
    refine .head ?_
    rw [act_works (worker?_put_self hi f _ _)]
    change Comes i (({ c with feed := f, mail := paths.map some ++ rest }.put i _).send i
      ⟨plan, none, none⟩ .notice path) _
    rw [send_put]
    exact (comes_send (c := { c with mail := paths.map some ++ rest }) hi rfl f (by simp) path).trans
      (ih (f.reparse path))

/-- **Left alone, a worker** comes to the point where all is read that waits in front of a notice to
leave, or at all. -/
theorem comes_rest (hw : c.worker? i = some w) {paths : List String}
    {rest : List (Option String)} (hm : c.mail = paths.map some ++ rest) :
    ∃ f plan, Comes i c ({ c with feed := f, mail := rest }.put i (some ⟨plan, none, none⟩)) := by
  have hi := lt_length_of_worker? hw
  have hself := put_self hw
  have hmail (f : Feed) (plan : Binary64) :
      Comes i ({ c with feed := f }.put i (some ⟨plan, none, none⟩))
        ({ c with feed := f.reparseAll paths, mail := rest }.put i (some ⟨plan, none, none⟩)) := by
    have h := comes_mail hi plan f paths rest
    rwa [← hm] at h
  have hround (f : Feed) (w : Worker) (he : w.errand = none) :
      ∃ g plan, Comes i ({ c with feed := f }.put i (some w))
        ({ c with feed := g, mail := rest }.put i (some ⟨plan, none, none⟩)) := by
    obtain ⟨plan, _ | agenda, errand⟩ := w
    · obtain rfl : errand = none := he
      exact ⟨_, plan, hmail f plan⟩
    · have hagenda := comes_agenda (w := ⟨plan, none, errand⟩) hi he f agenda
      exact ⟨_, _, hagenda.trans (hmail ..)⟩
  obtain ⟨plan, agenda, _ | e⟩ := w
  · obtain ⟨g, plan', h⟩ := hround c.feed ⟨plan, agenda, none⟩ rfl
    rw [show ({ c with feed := c.feed } : Crew) = c from rfl, hself] at h
    exact ⟨g, plan', h⟩
  · obtain ⟨g, plan', h⟩ := hround ((e.finish c.feed).enter .watching) ⟨plan, agenda, none⟩ rfl
    have herrand := comes_errand hi ⟨plan, agenda, none⟩ e c.feed
    rw [show ({ c with feed := c.feed } : Crew) = c from rfl, hself] at herrand
    exact ⟨g, plan', herrand.trans h⟩

/-! ### What a worker owes -/

/-- The worker has nothing to do now, and nothing waits for it. -/
structure Resting (c : Crew) (i : ℕ) : Prop where
  worker : ∃ plan, c.worker? i = some ⟨plan, none, none⟩
  mail : c.mail = []

lemma isOn_turns (c : Crew) (i n : ℕ) : (c.turns i n).isOn = c.isOn := by
  induction n generalizing c with
  | zero => rfl
  | succ n ih => rw [turns_succ, ih, isOn_act]; rfl

/-- **A watcher that is on is served**: left alone, its worker reads all that waits. -/
theorem exists_resting (h : c.Manned) (hon : c.isOn = true) :
    ∃ i n, (c.turns i n).Resting i ∧ (c.turns i n).isOn = true := by
  obtain ⟨hlive, hnone⟩ := h.on hon
  obtain ⟨w, hw⟩ := Option.isSome_iff_exists.1 hlive
  rw [newest?_eq] at hw
  obtain ⟨paths, hpaths⟩ := exists_map_some hnone
  obtain ⟨f, plan, n, hn⟩ := comes_rest hw (hpaths.trans (List.append_nil _).symm)
  refine ⟨c.workers.length - 1, n, ?_, ?_⟩
  · rw [hn]
    exact ⟨⟨plan, worker?_put_self (lt_length_of_worker? hw) ..⟩, rfl⟩
  · rw [isOn_turns, hon]

/-- **A stop comes to its end**: left alone, the worker finds the notice to leave, and then the
caller goes on. -/
theorem exists_stopped (h : c.Manned) (hs : c.isStopping = true) :
    ∃ i n, ((c.turns i n).act .proceeds).isFree = true := by
  have hcaller := isStopping_iff.1 hs
  have hfree (d : Crew) (hd : d.caller = .stopping) (hn : d.newest? = none) :
      (d.act .proceeds).isFree = true := by
    simp [act, hd, hn, leave, isFree]
  cases hn : c.newest? with
  | none => exact ⟨0, 0, hfree c hcaller hn⟩
  | some w =>
    have hoff : c.isOn = false := by simp [isOn, hs]
    obtain ⟨paths, later, hmail⟩ := h.leaving hoff (by rw [hn]; rfl)
    rw [newest?_eq] at hn
    have hi := lt_length_of_worker? hn
    obtain ⟨f, plan, n, hturns⟩ := comes_rest hn hmail
    refine ⟨c.workers.length - 1, n + 1, ?_⟩
    rw [turns_add, hturns, turns_succ, act_works (worker?_put_self hi f _ _)]
    change ((({ c with feed := f, mail := later.map some }.put _ (some ⟨plan, none, none⟩)).put _
      none).act .proceeds).isFree = true
    rw [put_put]
    refine hfree _ hcaller ?_
    exact newest?_put_last hi f _ none

end Crew

end RouterAgent
