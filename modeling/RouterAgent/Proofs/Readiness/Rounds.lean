import Mathlib.Data.Nat.Find
import RouterAgent.Proofs.Backoff.Delays
import RouterAgent.Readiness

/-!
Waiting for readiness, round by round.

A round is a check and, if the check does not say yes, a note and a wait. Waiting goes on from one
round to the next until a check says yes, a pause fails or a wait finds the event set. Here the
waits are a script without an end. The event of a run has a beginning of such a script, and what
waiting comes to is what it comes to under every beginning that is long enough.
-/

namespace RouterAgent

open RouterAgent.Number

namespace Cancellation

variable {σ : Type}

/-- The event that a script of waits sets no later than at the wait of the given number. -/
def upTo (isSet : Bool) (waits : ℕ → StateM σ Bool) (longest : Option Binary64) (n : ℕ) :
    Cancellation σ :=
  ⟨isSet, (List.range n).map waits, pure (), longest⟩

/-- The waits of an event as a script: after the last one it is set. -/
def script (c : Cancellation σ) (i : ℕ) : StateM σ Bool :=
  c.waits[i]?.getD do
    c.last
    pure true

end Cancellation

namespace Waiting

variable {σ : Type} (w : Waiting σ) (waits : ℕ → StateM σ Bool) (longest : Option Binary64)
  (b : Backoff) (s : σ)

/-! ### Rounds -/

/-- The surroundings before a round, if none before it ended the waiting. -/
def before : ℕ → σ
  | 0 => s
  | i + 1 =>
    let checked := w.check (before i)
    (waits i (w.pause longest checked.1 (b.after i).next.1 checked.2).2).2

/-- What comes of the check of a round, and the surroundings after it. -/
def checked (i : ℕ) : CheckOutcome × σ := w.check (w.before waits longest b s i)

def paused (i : ℕ) : Option Fault × σ :=
  let checked := w.checked waits longest b s i
  w.pause longest checked.1 (b.after i).next.1 checked.2

/-- Whether the wait of a round finds the event set: the check of the round has set it, or something
sets it during the wait. -/
def found (i : ℕ) : Bool :=
  (waits i (w.paused waits longest b s i).2).1 || (w.checked waits longest b s i).1.cancels

structure Fruitless (i : ℕ) : Prop where
  ready : (w.checked waits longest b s i).1.ready = false
  paused : (w.paused waits longest b s i).1 = none
  found : w.found waits longest b s i = false

lemma fruitless_iff {w : Waiting σ} {waits : ℕ → StateM σ Bool} {longest : Option Binary64}
    {b : Backoff} {s : σ} {i : ℕ} : w.Fruitless waits longest b s i ↔
      (w.checked waits longest b s i).1.ready = false ∧ (w.paused waits longest b s i).1 = none ∧
        w.found waits longest b s i = false :=
  ⟨fun h => ⟨h.ready, h.paused, h.found⟩, fun h => ⟨h.1, h.2.1, h.2.2⟩⟩

def verdict (i : ℕ) : Except Fault Unit × σ :=
  if (w.checked waits longest b s i).1.ready then
    (.ok (), w.arrive (b.after i).attempts (w.checked waits longest b s i).2)
  else
    match (w.paused waits longest b s i).1 with
    | some fault => (.error fault, (w.paused waits longest b s i).2)
    | none =>
      (.error (.cancelled w.name (b.after (i + 1)).attempts), w.before waits longest b s (i + 1))

/-- Waiting ends so: it does under every beginning of the script that is long enough. -/
def Ends (base max : Value) (isSet : Bool) (out : Except Fault Unit × σ) : Prop :=
  ∃ n, ∀ m ≥ n, w.run base max (.upTo isSet waits longest m) s = out

variable {w waits longest b s} {last : StateM σ Unit} {rest : List (StateM σ Bool)} {i k : ℕ}

/-! ### One round -/

lemma bind_apply {m : StateM σ α} {f : α → StateM σ β} (t : σ) : (m >>= f) t = f (m t).1 (m t).2 :=
  rfl

lemma modify_apply (f : σ → σ) (t : σ) : (modify f : StateM σ PUnit) t = ((), f t) := rfl

lemma pure_apply (a : α) (t : σ) : (pure a : StateM σ α) t = (a, t) := rfl

lemma ite_run (c : Prop) [Decidable c] (m n : StateM σ α) (t : σ) :
    (if c then m else n) t = if c then m t else n t := by
  split <;> rfl

lemma poll_cons (wait : StateM σ Bool) (t : σ) : w.poll longest last (wait :: rest) b t =
    let checked := w.check t
    let paused := w.pause longest checked.1 b.next.1 checked.2
    let waited := wait paused.2
    if checked.1.ready then (.ok (), w.arrive b.attempts checked.2)
    else match paused.1 with
      | some fault => (.error fault, paused.2)
      | none =>
        if waited.1 || checked.1.cancels then
          (.error (.cancelled w.name b.next.2.attempts), waited.2)
        else w.poll longest last rest b.next.2 waited.2 := by
  rw [poll]
  simp only [bind_apply, ite_run, modify_apply, pure_apply, Backoff.next_fst]
  split
  · rfl
  · cases (w.pause longest (w.check t).1 (b.delay b.attempts) (w.check t).2).1 with
    | some fault => rfl
    | none => exact ite_run ..

lemma poll_nil (t : σ) : w.poll longest last [] b t =
    let checked := w.check t
    let paused := w.pause longest checked.1 b.next.1 checked.2
    if checked.1.ready then (.ok (), w.arrive b.attempts checked.2)
    else match paused.1 with
      | some fault => (.error fault, paused.2)
      | none => (.error (.cancelled w.name b.next.2.attempts), (last paused.2).2) := by
  rw [poll]
  simp only [bind_apply, ite_run, modify_apply, pure_apply, Backoff.next_fst]
  split
  · rfl
  · cases (w.pause longest (w.check t).1 (b.delay b.attempts) (w.check t).2).1 <;> rfl

lemma poll_of_ready (h : (w.checked waits longest b s i).1.ready = true)
    (rest : List (StateM σ Bool)) :
    w.poll longest last rest (b.after i) (w.before waits longest b s i) =
      w.verdict waits longest b s i := by
  have hready : (w.check (w.before waits longest b s i)).1.ready = true := h
  rw [verdict, if_pos h]
  rcases rest with _ | ⟨wait, rest⟩
  · rw [poll_nil]
    exact if_pos hready
  · rw [poll_cons]
    exact if_pos hready

lemma poll_of_failed {fault : Fault} (h : (w.checked waits longest b s i).1.ready = false)
    (hfails : (w.paused waits longest b s i).1 = some fault) (rest : List (StateM σ Bool)) :
    w.poll longest last rest (b.after i) (w.before waits longest b s i) =
      w.verdict waits longest b s i := by
  have hready : ¬ (w.check (w.before waits longest b s i)).1.ready = true := by
    simpa [checked] using h
  have hpause : (w.pause longest (w.check (w.before waits longest b s i)).1 (b.after i).next.1
      (w.check (w.before waits longest b s i)).2).1 = some fault := hfails
  rw [verdict, if_neg (by simp [h])]
  rcases rest with _ | ⟨wait, rest⟩
  · rw [poll_nil]
    simp only [if_neg hready, hpause, hfails]
    rfl
  · rw [poll_cons]
    simp only [if_neg hready, hpause, hfails]
    rfl

lemma poll_of_found (h : (w.checked waits longest b s i).1.ready = false)
    (hpaused : (w.paused waits longest b s i).1 = none)
    (hfound : w.found waits longest b s i = true) (rest : List (StateM σ Bool)) :
    w.poll longest last (waits i :: rest) (b.after i) (w.before waits longest b s i) =
      w.verdict waits longest b s i := by
  have hready : ¬ (w.check (w.before waits longest b s i)).1.ready = true := by
    simpa [checked] using h
  have hpause : (w.pause longest (w.check (w.before waits longest b s i)).1 (b.after i).next.1
      (w.check (w.before waits longest b s i)).2).1 = none := hpaused
  rw [verdict, if_neg (by simp [h]), poll_cons]
  simp only [if_neg hready, hpause, hpaused]
  exact if_pos hfound

lemma Fruitless.poll (h : w.Fruitless waits longest b s i) (rest : List (StateM σ Bool)) :
    w.poll longest last (waits i :: rest) (b.after i) (w.before waits longest b s i) =
      w.poll longest last rest (b.after (i + 1)) (w.before waits longest b s (i + 1)) := by
  have hready : ¬ (w.check (w.before waits longest b s i)).1.ready = true := by
    simpa [checked] using h.ready
  have hpause : (w.pause longest (w.check (w.before waits longest b s i)).1 (b.after i).next.1
      (w.check (w.before waits longest b s i)).2).1 = none := h.paused
  have hfound : ¬ w.found waits longest b s i = true := by simpa using h.found
  rw [poll_cons]
  simp only [if_neg hready, hpause]
  exact if_neg hfound

lemma Fruitless.poll_nil (h : w.Fruitless waits longest b s i) :
    (w.poll longest last [] (b.after i) (w.before waits longest b s i)).1 =
      .error (.cancelled w.name (b.after (i + 1)).attempts) := by
  have hready : ¬ (w.check (w.before waits longest b s i)).1.ready = true := by
    simpa [checked] using h.ready
  have hpause : (w.pause longest (w.check (w.before waits longest b s i)).1 (b.after i).next.1
      (w.check (w.before waits longest b s i)).2).1 = none := h.paused
  rw [Waiting.poll_nil]
  simp only [if_neg hready, hpause]
  rfl

/-! ### Whole runs -/

lemma map_range_eq (waits : ℕ → StateM σ Bool) {n m : ℕ} (h : n < m) :
    (List.range' n (m - n)).map waits = waits n :: (List.range' (n + 1) (m - (n + 1))).map waits := by
  obtain ⟨d, rfl⟩ := Nat.exists_eq_add_of_lt h
  rw [show n + d + 1 - n = d + 1 by omega, show n + d + 1 - (n + 1) = d by omega]
  rfl

lemma poll_of_fruitless {n m : ℕ} (h : ∀ i < n, w.Fruitless waits longest b s i) (hn : n ≤ m) :
    w.poll longest last ((List.range m).map waits) b s =
      w.poll longest last ((List.range' n (m - n)).map waits) (b.after n)
        (w.before waits longest b s n) := by
  induction n with
  | zero =>
    rw [List.range_eq_range']
    rfl
  | succ n ih =>
    rw [ih (fun i hi => h i (by omega)) (by omega), map_range_eq waits (by omega)]
    exact (h n (by omega)).poll _

variable {base max : Value} {isSet : Bool}

lemma run_upTo (hb : Backoff.make base max = .ok b) (m : ℕ) :
    w.run base max (.upTo isSet waits longest m) s =
      if isSet then (.error (.cancelled w.name 0), s)
      else w.poll longest (pure ()) ((List.range m).map waits) b s := by
  rw [run, hb]
  exact ite_run ..

lemma poll_of_first (h : ∀ i < k, w.Fruitless waits longest b s i)
    (hk : ¬ w.Fruitless waits longest b s k) {m : ℕ} (hm : k < m) :
    w.poll longest last ((List.range m).map waits) b s = w.verdict waits longest b s k := by
  rw [poll_of_fruitless h (by omega), map_range_eq waits hm]
  cases hready : (w.checked waits longest b s k).1.ready with
  | true => exact poll_of_ready hready _
  | false =>
    cases hpaused : (w.paused waits longest b s k).1 with
    | some fault => exact poll_of_failed hready hpaused _
    | none =>
      have hfound : w.found waits longest b s k = true := by
        by_contra hnot
        exact hk ⟨hready, hpaused, by simpa using hnot⟩
      exact poll_of_found hready hpaused hfound _

lemma poll_fst_of_fruitless (h : ∀ i, w.Fruitless waits longest b s i) (m : ℕ) :
    (w.poll longest (pure ()) ((List.range m).map waits) b s).1 =
      .error (.cancelled w.name (b.attempts + m + 1)) := by
  rw [poll_of_fruitless (fun i _ => h i) (Nat.le_refl _), Nat.sub_self]
  exact (h m).poll_nil.trans (by rw [Backoff.attempts_after, Nat.add_assoc])

/-- **How waiting ends.** The event is set at the start, or there is a first round whose check says
yes, whose pause fails or whose wait finds the event set, and the waiting comes to what this round
comes to. -/
theorem ends_iff (hb : Backoff.make base max = .ok b) {out : Except Fault Unit × σ} :
    w.Ends waits longest s base max isSet out ↔
      (isSet = true ∧ out = (.error (.cancelled w.name 0), s)) ∨
      (isSet = false ∧ ∃ k, (∀ i < k, w.Fruitless waits longest b s i) ∧
        ¬ w.Fruitless waits longest b s k ∧ out = w.verdict waits longest b s k) := by
  simp only [Ends, run_upTo hb]
  cases isSet with
  | true => simpa using ⟨fun ⟨n, h⟩ => (h n (Nat.le_refl _)).symm, fun h => ⟨0, fun _ _ => h.symm⟩⟩
  | false =>
    simp only [Bool.false_eq_true, if_false, false_and, true_and, false_or]
    constructor
    · rintro ⟨n, h⟩
      by_cases hall : ∀ i, w.Fruitless waits longest b s i
      · -- two beginnings would have to come to one number of attempts
        have hn := poll_fst_of_fruitless hall n
        have hsucc := poll_fst_of_fruitless hall (n + 1)
        rw [h n (Nat.le_refl _)] at hn
        rw [h (n + 1) (Nat.le_succ n), hn, Except.error.injEq, Fault.cancelled.injEq] at hsucc
        omega
      · rw [not_forall] at hall
        classical
        refine ⟨Nat.find hall, fun i hi => not_not.1 (Nat.find_min hall hi), Nat.find_spec hall, ?_⟩
        rw [← h (n + Nat.find hall + 1) (by omega)]
        exact poll_of_first (fun i hi => not_not.1 (Nat.find_min hall hi)) (Nat.find_spec hall)
          (by omega)
    · rintro ⟨k, hfirst, hk, rfl⟩
      exact ⟨k + 1, fun m hm => poll_of_first hfirst hk hm⟩

/-! ### Events with finitely many waits -/

lemma poll_append_last (ws : List (StateM σ Bool)) :
    w.poll longest (pure ()) (ws ++ (do last; pure true) :: rest) b s =
      w.poll longest last ws b s := by
  induction ws generalizing b s with
  | nil =>
    rw [List.nil_append, poll_cons, poll_nil]
    rfl
  | cons wait ws ih => simp only [List.cons_append, poll_cons, ih]

lemma exists_map_script (c : Cancellation σ) {m : ℕ} (hm : c.waits.length < m) :
    ∃ more, (List.range m).map c.script = c.waits ++ (do c.last; pure true) :: more := by
  obtain ⟨d, rfl⟩ := Nat.exists_eq_add_of_lt hm
  refine ⟨(List.range d).map fun i => c.script (c.waits.length + 1 + i), ?_⟩
  have hlisted : (List.range c.waits.length).map c.script = c.waits :=
    List.ext_getElem (by simp) fun i hi hlen => by simp [Cancellation.script, hlen]
  have hlast : c.script c.waits.length = (do c.last; pure true) := by simp [Cancellation.script]
  rw [show c.waits.length + d + 1 = c.waits.length + 1 + d by omega, List.range_add, List.range_succ,
    List.map_append, List.map_append, hlisted, List.map_singleton, hlast, List.map_map]
  simp

/-- **A run of the waiting ends as its event does.** So what is known of scripts holds of every
run. -/
theorem ends_run (c : Cancellation σ) :
    w.Ends c.script c.longest s base max c.isSet (w.run base max c s) := by
  refine ⟨c.waits.length + 1, fun m hm => ?_⟩
  cases hb : Backoff.make base max with
  | error fault => rw [run, run, hb]
  | ok b =>
    obtain ⟨more, hmore⟩ := exists_map_script c hm
    rw [run_upTo hb, hmore, poll_append_last, run, hb]
    exact (ite_run ..).symm

end Waiting

end RouterAgent
