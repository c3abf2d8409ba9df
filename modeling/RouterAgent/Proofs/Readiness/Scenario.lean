import RouterAgent.Proofs.Readiness.Rounds

/-!
Waiting as it is seen from outside: how often the check is made, how long the waits are, and what is
noted.

A scenario says what comes of each check and where the event is set. It leaves one way for the
waiting to end: the first check that says yes, unless before it the event is found set or a pause
fails.
-/

namespace RouterAgent

open RouterAgent.Number

/-- What was seen of a waiting: the number of checks, the delays that were waited, and the notes. -/
structure Diary where
  checks : ℕ
  delays : List Binary64
  notes : List String
deriving DecidableEq

/-- What happens while something waits: whether the event is set at the start, what comes of each
check, and during which waits something else sets the event; and the longest delay of a wait. An
event that is set between a wait and the next check counts as set during this wait. -/
structure Scenario where
  isSet : Bool
  outcome : ℕ → CheckOutcome
  sets : ℕ → Bool
  longest : Option Binary64

namespace Scenario

variable (sc : Scenario) (name : String)

def waiting : Waiting Diary where
  name
  check := fun d => (sc.outcome d.checks, { d with checks := d.checks + 1 })
  note := fun text d => { d with notes := d.notes ++ [text] }
  did := fun action d =>
    match action with
    | .waited delay => { d with delays := d.delays ++ [delay] }
    | _ => d

def waits (i : ℕ) : StateM Diary Bool := pure (sc.sets i)

def Ends (base max : Value) (result : Except Fault Unit) (d : Diary) : Prop :=
  (sc.waiting name).Ends sc.waits sc.longest ⟨0, [], []⟩ base max sc.isSet (result, d)

def found (i : ℕ) : Bool := sc.sets i || (sc.outcome i).cancels

/-- What the pause after a check that does not say yes fails with, if it fails: what the failure of
the check has instead of words, or that the delay is too long, unless the check has set the
event. -/
def obstacle (b : Backoff) (i : ℕ) : Option Fault :=
  match (sc.outcome i).mishap with
  | some fault => some fault
  | none =>
    if exceeds (b.after i).next.1 sc.longest && !(sc.outcome i).cancels then
      some (.misfit .tooLate)
    else none

def FirstYes (k : ℕ) : Prop :=
  (sc.outcome k).ready = true ∧ ∀ i < k, (sc.outcome i).ready = false

/-- The event is found set after so many checks, none of which says yes: at the start, or first at
the wait after the last of these checks. -/
def FoundAfter : ℕ → Prop
  | 0 => sc.isSet = true
  | j + 1 => sc.isSet = false ∧ sc.found j = true ∧ (∀ i < j, sc.found i = false) ∧
      ∀ i ≤ j, (sc.outcome i).ready = false

/-- The first pause that fails, before any check says yes or any wait finds the event set. -/
structure BreaksAt (b : Backoff) (j : ℕ) (fault : Fault) : Prop where
  isSet : sc.isSet = false
  ready : ∀ i ≤ j, (sc.outcome i).ready = false
  found : ∀ i < j, sc.found i = false
  before : ∀ i < j, sc.obstacle b i = none
  obstacle : sc.obstacle b j = some fault

def refusal (b : Backoff) (i : ℕ) : String :=
  s!"{name}: {(sc.outcome i).words}, retrying in {(b.after i).next.1.tenths}s"

/-- The diary after so many checks that do not say yes, each with a wait after it. -/
def inVain (b : Backoff) (k : ℕ) : Diary :=
  ⟨k, b.taken k, (List.range k).map (sc.refusal name b)⟩

def atLast (b : Backoff) (k : ℕ) : Diary where
  checks := k + 1
  delays := b.taken k
  notes := (List.range k).map (sc.refusal name b) ++
    if k = 0 then [] else [s!"{name}: ready after {k} retries"]

/-- The diary after so many checks in vain and one after which the pause fails: it is noted, if
there are words for it. -/
def cutShort (b : Backoff) (j : ℕ) : Diary where
  checks := j + 1
  delays := b.taken j
  notes := (List.range j).map (sc.refusal name b) ++
    if (sc.outcome j).mishap.isSome then [] else [sc.refusal name b j]

variable {sc name} {b : Backoff}

/-! ### Rounds of a scenario -/

lemma pause_eq (k : ℕ) (h : (sc.obstacle b k) = none) (d : Diary) :
    (sc.waiting name).pause sc.longest (sc.outcome k) (b.after k).next.1 d =
      (none, { d with
        delays := d.delays ++ [(b.after k).next.1], notes := d.notes ++ [sc.refusal name b k] }) := by
  unfold obstacle at h
  unfold Waiting.pause
  cases hm : (sc.outcome k).mishap with
  | some fault => simp [hm] at h
  | none =>
    simp only [hm] at h ⊢
    split at h
    · simp at h
    · next hfits =>
      rw [if_neg hfits]
      rfl

lemma pause_eq_of_obstacle {k : ℕ} {fault : Fault} (h : (sc.obstacle b k) = some fault)
    (d : Diary) :
    (sc.waiting name).pause sc.longest (sc.outcome k) (b.after k).next.1 d =
      (some fault, { d with
        notes := d.notes ++ if (sc.outcome k).mishap.isSome then [] else [sc.refusal name b k] }) := by
  unfold obstacle at h
  unfold Waiting.pause
  cases hm : (sc.outcome k).mishap with
  | some other =>
    simp only [hm, Option.some.injEq] at h
    simp [h]
  | none =>
    simp only [hm] at h ⊢
    split at h
    · next hexceeds =>
      rw [if_pos hexceeds, Option.some.inj h]
      rfl
    · simp at h

def Clear (sc : Scenario) (b : Backoff) (k : ℕ) : Prop := ∀ i < k, sc.obstacle b i = none

lemma before_eq {k : ℕ} (h : sc.Clear b k) :
    (sc.waiting name).before sc.waits sc.longest b ⟨0, [], []⟩ k = sc.inVain name b k := by
  induction k with
  | zero => rfl
  | succ k ih =>
    rw [Waiting.before, ih fun i hi => h i (Nat.lt_succ_of_lt hi), inVain, inVain,
      Backoff.taken_succ, List.range_succ, List.map_append]
    exact congrArg Prod.snd (pause_eq k (h k (Nat.lt_succ_self k)) _)

lemma checked_eq {k : ℕ} (h : sc.Clear b k) :
    (sc.waiting name).checked sc.waits sc.longest b ⟨0, [], []⟩ k =
      (sc.outcome k, { sc.inVain name b k with checks := k + 1 }) := by
  rw [Waiting.checked, before_eq h]
  rfl

lemma paused_fst {k : ℕ} (h : sc.Clear b k) :
    ((sc.waiting name).paused sc.waits sc.longest b ⟨0, [], []⟩ k).1 = sc.obstacle b k := by
  rw [Waiting.paused, checked_eq h]
  cases ho : sc.obstacle b k with
  | none => exact congrArg Prod.fst (pause_eq k ho _)
  | some fault => exact congrArg Prod.fst (pause_eq_of_obstacle ho _)

lemma found_eq {k : ℕ} (h : sc.Clear b k) :
    (sc.waiting name).found sc.waits sc.longest b ⟨0, [], []⟩ k = sc.found k := by
  rw [Waiting.found, checked_eq h]
  rfl

lemma fruitless_iff {k : ℕ} (h : sc.Clear b k) :
    (sc.waiting name).Fruitless sc.waits sc.longest b ⟨0, [], []⟩ k ↔
      (sc.outcome k).ready = false ∧ sc.obstacle b k = none ∧ sc.found k = false := by
  rw [Waiting.fruitless_iff, checked_eq h, paused_fst h, found_eq h]

lemma forall_fruitless_iff {k : ℕ} :
    (∀ i < k, (sc.waiting name).Fruitless sc.waits sc.longest b ⟨0, [], []⟩ i) ↔
      sc.Clear b k ∧ ∀ i < k, (sc.outcome i).ready = false ∧ sc.found i = false := by
  induction k with
  | zero => simp [Clear]
  | succ k ih =>
    rw [Nat.forall_lt_succ_right, Nat.forall_lt_succ_right, ih, Clear, Clear,
      Nat.forall_lt_succ_right]
    constructor
    · rintro ⟨⟨hclear, hbefore⟩, hk⟩
      obtain ⟨hno, hpaused, hfound⟩ := (fruitless_iff hclear).1 hk
      exact ⟨⟨hclear, hpaused⟩, hbefore, hno, hfound⟩
    · rintro ⟨⟨hclear, hpaused⟩, hbefore, hno, hfound⟩
      exact ⟨⟨hclear, hbefore⟩, (fruitless_iff hclear).2 ⟨hno, hpaused, hfound⟩⟩

lemma verdict_eq (hb : b.attempts = 0) {k : ℕ} (h : sc.Clear b k) :
    (sc.waiting name).verdict sc.waits sc.longest b ⟨0, [], []⟩ k =
      if (sc.outcome k).ready then (.ok (), sc.atLast name b k)
      else match sc.obstacle b k with
        | some fault => (.error fault, sc.cutShort name b k)
        | none => (.error (.cancelled name (k + 1)), sc.inVain name b (k + 1)) := by
  rw [Waiting.verdict, checked_eq h, paused_fst h, Backoff.attempts_after, Backoff.attempts_after, hb,
    Nat.zero_add, Nat.zero_add, Waiting.arrive]
  split
  · rcases k with _ | k <;> rfl
  · cases ho : sc.obstacle b k with
    | some fault =>
      rw [Waiting.paused, checked_eq h]
      exact congrArg (Prod.mk (Except.error fault)) (congrArg Prod.snd (pause_eq_of_obstacle ho _))
    | none =>
      rw [before_eq fun i hi => (Nat.lt_succ_iff_lt_or_eq.1 hi).elim (h i) fun hik => hik ▸ ho]
      rfl

/-! ### How a waiting ends -/

variable {base max : Value} {x y : Binary64}

lemma ends_iff (hbase : base.IsDelay x) (hmax : max.IsDelay y) {result : Except Fault Unit}
    {d : Diary} : sc.Ends name base max result d ↔
      (sc.isSet = true ∧ result = .error (.cancelled name 0) ∧ d = ⟨0, [], []⟩) ∨
      (sc.isSet = false ∧ ∃ k, sc.Clear ⟨x, y, 0⟩ k ∧
        (∀ i < k, (sc.outcome i).ready = false ∧ sc.found i = false) ∧
        (((sc.outcome k).ready = true ∧ result = .ok () ∧ d = sc.atLast name ⟨x, y, 0⟩ k) ∨
         ((sc.outcome k).ready = false ∧
          ((∃ fault, sc.obstacle ⟨x, y, 0⟩ k = some fault ∧ result = .error fault ∧
            d = sc.cutShort name ⟨x, y, 0⟩ k) ∨
           (sc.obstacle ⟨x, y, 0⟩ k = none ∧ sc.found k = true ∧
            result = .error (.cancelled name (k + 1)) ∧ d = sc.inVain name ⟨x, y, 0⟩ (k + 1)))))) := by
  have hb := Backoff.make_of_isDelay hbase hmax
  rw [Ends, Waiting.ends_iff hb]
  refine or_congr (by rw [Prod.mk.injEq]; rfl) (and_congr_right fun _ => exists_congr fun k => ?_)
  rw [forall_fruitless_iff, and_assoc]
  refine and_congr_right fun hclear => and_congr_right fun _ => ?_
  rw [verdict_eq (b := ⟨x, y, 0⟩) rfl hclear, fruitless_iff hclear]
  cases (sc.outcome k).ready <;> cases sc.obstacle ⟨x, y, 0⟩ k <;> cases sc.found k <;> simp

lemma ends_ok_iff (hbase : base.IsDelay x) (hmax : max.IsDelay y) {d : Diary} :
    sc.Ends name base max (.ok ()) d ↔
      sc.isSet = false ∧ ∃ k, sc.FirstYes k ∧ (∀ i < k, sc.found i = false) ∧
        sc.Clear ⟨x, y, 0⟩ k ∧ d = sc.atLast name ⟨x, y, 0⟩ k := by
  rw [ends_iff hbase hmax]
  constructor
  · rintro (⟨-, hresult, -⟩ | ⟨hset, k, hclear, hopen, ⟨hyes, -, rfl⟩ |
      ⟨-, ⟨fault, -, hresult, -⟩ | ⟨-, -, hresult, -⟩⟩⟩)
    · simp at hresult
    · exact ⟨hset, k, ⟨hyes, fun i hi => (hopen i hi).1⟩, fun i hi => (hopen i hi).2, hclear, rfl⟩
    · simp at hresult
    · simp at hresult
  · rintro ⟨hset, k, ⟨hyes, hno⟩, hfound, hclear, rfl⟩
    exact .inr ⟨hset, k, hclear, fun i hi => ⟨hno i hi, hfound i hi⟩, .inl ⟨hyes, rfl, rfl⟩⟩

lemma ends_error_iff (hbase : base.IsDelay x) (hmax : max.IsDelay y) {fault : Fault} {d : Diary} :
    sc.Ends name base max (.error fault) d ↔
      (∃ j, sc.FoundAfter j ∧ sc.Clear ⟨x, y, 0⟩ j ∧ fault = .cancelled name j ∧
        d = sc.inVain name ⟨x, y, 0⟩ j) ∨
      ∃ j, sc.BreaksAt ⟨x, y, 0⟩ j fault ∧ d = sc.cutShort name ⟨x, y, 0⟩ j := by
  have hupTo {k : ℕ} (hno : (sc.outcome k).ready = false)
      (hopen : ∀ i < k, (sc.outcome i).ready = false ∧ sc.found i = false) :
      ∀ i ≤ k, (sc.outcome i).ready = false := fun i hi =>
    (Nat.lt_or_eq_of_le hi).elim (fun hlt => (hopen i hlt).1) fun heq => heq ▸ hno
  rw [ends_iff hbase hmax]
  constructor
  · rintro (⟨hset, hresult, rfl⟩ | ⟨hset, k, hclear, hopen, ⟨-, hresult, -⟩ |
      ⟨hno, ⟨other, hobstacle, hresult, rfl⟩ | ⟨hpaused, hk, hresult, rfl⟩⟩⟩)
    · exact .inl ⟨0, hset, fun i hi => absurd hi (Nat.not_lt_zero i), by simpa using hresult, rfl⟩
    · simp at hresult
    · obtain rfl : fault = other := by simpa using hresult
      exact .inr ⟨k, ⟨hset, hupTo hno hopen, fun i hi => (hopen i hi).2, hclear, hobstacle⟩, rfl⟩
    · refine .inl ⟨k + 1, ⟨hset, hk, fun i hi => (hopen i hi).2, hupTo hno hopen⟩, fun i hi => ?_,
        by simpa using hresult, rfl⟩
      exact (Nat.lt_succ_iff_lt_or_eq.1 hi).elim (hclear i) fun hik => hik ▸ hpaused
  · rintro (⟨_ | j, hj, hclear, rfl, rfl⟩ | ⟨j, ⟨hset, hno, hfound, hclear, hobstacle⟩, rfl⟩)
    · exact .inl ⟨hj, rfl, rfl⟩
    · obtain ⟨hset, hfound, hbefore, hno⟩ := hj
      exact .inr ⟨hset, j, fun i hi => hclear i (Nat.lt_succ_of_lt hi),
        fun i hi => ⟨hno i (Nat.le_of_lt hi), hbefore i hi⟩, .inr ⟨hno j (Nat.le_refl j),
          .inr ⟨hclear j (Nat.lt_succ_self j), hfound, rfl, rfl⟩⟩⟩
    · exact .inr ⟨hset, j, hclear, fun i hi => ⟨hno i (Nat.le_of_lt hi), hfound i hi⟩,
        .inr ⟨hno j (Nat.le_refl j), .inl ⟨fault, hobstacle, rfl, rfl⟩⟩⟩

lemma exceeds_eq_false {longest : Option Binary64}
    (fits : ∀ top ∈ longest, Binary64.le y top = true) (i : ℕ) :
    exceeds ((⟨x, y, 0⟩ : Backoff).after i).next.1 longest = false := by
  cases longest with
  | none => rfl
  | some top =>
    rw [Backoff.next_after]
    exact Binary64.lt_capped_eq_false (fits top rfl) _

lemma obstacle_eq_none (fits : ∀ top ∈ sc.longest, Binary64.le y top = true)
    (words : ∀ i, (sc.outcome i).mishap = none) (i : ℕ) : sc.obstacle ⟨x, y, 0⟩ i = none := by
  simp only [obstacle, words i, exceeds_eq_false fits i, Bool.false_and, Bool.false_eq_true, if_false]

/-- The first check fails, the second one says no, and the third one sets the event and says yes. -/
def thirdTime : Scenario where
  isSet := false
  outcome i := [⟨.error (.store (.absent "nvram")), false, none⟩, ⟨.ok false, false, none⟩].getD i
    ⟨.ok true, true, none⟩
  sets _ := false
  longest := some (.ofRatio false 10 1)

def secondWait : Scenario where
  isSet := false
  outcome _ := ⟨.ok false, false, none⟩
  sets i := i = 1
  longest := none

end Scenario

end RouterAgent
