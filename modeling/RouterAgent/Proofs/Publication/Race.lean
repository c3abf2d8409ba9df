import Mathlib.Logic.Function.Basic
import RouterAgent.Detection

/-!
Callers that race to publish the state.

A caller that finds the slot empty runs the detection and then presents what it found. These are
three turns, and others may take theirs in between. However the turns are mixed, the candidate
that was presented first stays in the slot, and every caller gets it.
-/

namespace RouterAgent

/-- A state as an object: two of equal content are told apart by the calls that made them. -/
structure Candidate where
  maker : Nat
  state : RouterState

inductive Inquiry where
  | state
  | name

/-- What a caller is told: the state itself, or only the name of its platform. -/
inductive Answer where
  | state (c : Candidate)
  | name (platform : String)

def Inquiry.answer : Inquiry → Candidate → Answer
  | .state, c => .state c
  | .name, c => .name c.state.platform

inductive Stage where
  /-- It found the slot empty, and the detection runs. -/
  | detecting (i : Inquiry)
  /-- The detection found a platform. -/
  | presenting (i : Inquiry) (c : Candidate)
  | answered (a : Answer)
  | failed (fault : Fault)

def Stage.Over : Stage → Prop
  | .answered _ | .failed _ => True
  | .detecting _ | .presenting _ _ => False

structure Race where
  slot : Option Candidate
  stage : Nat → Option Stage

namespace Race

/-- What may come next: a call begins and reads the slot, its detection ends, it presents its
candidate, or a call presents a candidate right away. A call takes each turn once. -/
inductive Turn where
  | look (call : Nat) (i : Inquiry)
  | detect (call : Nat) (found : Except Fault String)
  | present (call : Nat)
  | offer (call : Nat) (c : Candidate)

def Turn.call : Turn → Nat
  | .look call _ | .detect call _ | .present call | .offer call _ => call

def opening (slot : Option Candidate) : Race := ⟨slot, fun _ => none⟩

def put (r : Race) (call : Nat) (s : Stage) : Race :=
  { r with stage := Function.update r.stage call (some s) }

/-- Publishes a candidate, and tells the caller what the slot then holds. -/
def settle (r : Race) (call : Nat) (i : Inquiry) (c : Candidate) : Race :=
  let (winner, slot) := publish c r.slot
  { r with slot }.put call (.answered (i.answer winner))

def turn (r : Race) : Turn → Race
  | .look call i =>
    match r.stage call, r.slot with
    | none, none => r.put call (.detecting i)
    | none, some c => r.put call (.answered (i.answer c))
    | some _, _ => r
  | .detect call found =>
    match r.stage call, found with
    | some (.detecting i), .ok platform =>
      r.put call (.presenting i ⟨call, .ofPlatform platform⟩)
    | some (.detecting _), .error fault => r.put call (.failed fault)
    | _, _ => r
  | .present call =>
    match r.stage call with
    | some (.presenting i c) => r.settle call i c
    | _ => r
  | .offer call c =>
    match r.stage call with
    | none => r.settle call .state c
    | some _ => r

def run (r : Race) (ts : List Turn) : Race := ts.foldl turn r

@[simp] lemma run_nil (r : Race) : r.run [] = r := rfl
@[simp] lemma run_cons (r : Race) (t : Turn) (ts : List Turn) :
    r.run (t :: ts) = (r.turn t).run ts := rfl
lemma run_append (r : Race) (ts us : List Turn) : r.run (ts ++ us) = (r.run ts).run us := by
  simp [run, List.foldl_append]

def presented? (r : Race) : Turn → Option Candidate
  | .look _ _ | .detect _ _ => none
  | .present call =>
    match r.stage call with
    | some (.presenting _ c) => some c
    | _ => none
  | .offer call c => if (r.stage call).isNone then some c else none

def presented (r : Race) : List Turn → List Candidate
  | [] => []
  | t :: ts => (r.presented? t).toList ++ (r.turn t).presented ts

@[simp] lemma slot_put (r : Race) (call : Nat) (s : Stage) : (r.put call s).slot = r.slot := rfl
@[simp] lemma stage_put (r : Race) (call : Nat) (s : Stage) :
    (r.put call s).stage call = some s :=
  Function.update_self ..
lemma stage_put_of_ne {call other : Nat} (h : other ≠ call) (r : Race) (s : Stage) :
    (r.put call s).stage other = r.stage other :=
  Function.update_of_ne h ..

lemma slot_settle (r : Race) (call : Nat) (i : Inquiry) (c : Candidate) :
    (r.settle call i c).slot = some (r.slot.getD c) := by
  unfold settle
  cases r.slot <;> rfl

lemma stage_settle (r : Race) (call : Nat) (i : Inquiry) (c : Candidate) :
    (r.settle call i c).stage call = some (.answered (i.answer (r.slot.getD c))) := by
  unfold settle
  cases r.slot <;> simp [publish]

lemma stage_settle_of_ne {call other : Nat} (h : other ≠ call) (r : Race) (i : Inquiry)
    (c : Candidate) : (r.settle call i c).stage other = r.stage other := by
  unfold settle
  exact stage_put_of_ne h _ _

/-! ### One turn -/

/-- What a turn comes to: nothing, a new stage of its call and no candidate, or a candidate. The
stage of a call that is over does not change. -/
inductive Turned (r : Race) (t : Turn) : Race → Prop
  | idle (hp : r.presented? t = none) : Turned r t r
  | put {s : Stage} (ho : ∀ s ∈ r.stage t.call, ¬ s.Over) (hp : r.presented? t = none)
      (hs : ∀ a, s = .answered a →
        ∃ (i : Inquiry) (c : Candidate), r.slot = some c ∧ a = i.answer c) :
    Turned r t (r.put t.call s)
  | settled {i : Inquiry} {c : Candidate} (ho : ∀ s ∈ r.stage t.call, ¬ s.Over)
      (hp : r.presented? t = some c) : Turned r t (r.settle t.call i c)

lemma turned (r : Race) (t : Turn) : Turned r t (r.turn t) := by
  cases t with
  | look call i =>
    simp only [turn]
    split
    · next hs _ => exact .put (t := .look call i) (by simp [Turn.call, hs]) rfl (by simp)
    · next c hs hc =>
      refine .put (t := .look call i) (by simp [Turn.call, hs]) rfl fun a ha => ?_
      exact ⟨i, c, hc, (Stage.answered.inj ha).symm⟩
    · exact .idle rfl
  | detect call found =>
    simp only [turn]
    split
    · next hs =>
      exact .put (t := .detect call _) (by simp [Turn.call, hs, Stage.Over]) rfl (by simp)
    · next hs =>
      exact .put (t := .detect call _) (by simp [Turn.call, hs, Stage.Over]) rfl (by simp)
    · exact .idle rfl
  | present call =>
    simp only [turn]
    split
    · next i c hs =>
      exact .settled (t := .present call) (by simp [Turn.call, hs, Stage.Over])
        (by simp [presented?, hs])
    · next hs =>
      exact .idle (by simp only [presented?])
  | offer call c =>
    simp only [turn]
    split
    · next hs =>
      exact .settled (t := .offer call c) (by simp [Turn.call, hs]) (by simp [presented?, hs])
    · next s hs => exact .idle (by simp [presented?, hs])

lemma slot_turn (r : Race) (t : Turn) : (r.turn t).slot = r.slot.or (r.presented? t) := by
  have h := r.turned t
  generalize r.turn t = q at h ⊢
  cases h with
  | idle hp | put _ hp _ => simp [hp]
  | settled _ hp =>
    rw [slot_settle, hp]
    cases r.slot <;> rfl

lemma stage_turn_of_over {r : Race} {call : Nat} {s : Stage} (hs : r.stage call = some s)
    (ho : s.Over) (t : Turn) : (r.turn t).stage call = some s := by
  have h := r.turned t
  generalize r.turn t = q at h ⊢
  have hne : (∀ s ∈ r.stage t.call, ¬ s.Over) → call ≠ t.call := by
    rintro hover rfl
    exact hover s hs ho
  cases h with
  | idle => exact hs
  | put hover => rw [stage_put_of_ne (hne hover), hs]
  | settled hover => rw [stage_settle_of_ne (hne hover), hs]

/-- Whoever was answered was told of what the slot holds. -/
def Truthful (r : Race) : Prop :=
  ∀ call a, r.stage call = some (.answered a) →
    ∃ (i : Inquiry) (c : Candidate), r.slot = some c ∧ a = i.answer c

lemma Truthful.turn {r : Race} (h : r.Truthful) (t : Turn) : (r.turn t).Truthful := by
  intro call a ha
  have hslot := r.slot_turn t
  have hturned := r.turned t
  generalize r.turn t = q at ha hslot hturned ⊢
  cases hturned with
  | idle => exact h call a ha
  | @put s _ hp hs =>
    by_cases hc : call = t.call
    · subst hc
      rw [stage_put] at ha
      exact hs a (Option.some.inj ha)
    · rw [stage_put_of_ne hc] at ha
      exact h call a ha
  | @settled i c _ hp =>
    by_cases hc : call = t.call
    · subst hc
      rw [stage_settle] at ha
      exact ⟨i, _, slot_settle .., (Stage.answered.inj (Option.some.inj ha)).symm⟩
    · rw [stage_settle_of_ne hc] at ha
      obtain ⟨j, d, hd, hj⟩ := h call a ha
      exact ⟨j, d, by rw [hslot, hd]; rfl, hj⟩

/-! ### All turns -/

lemma slot_run (r : Race) (ts : List Turn) :
    (r.run ts).slot = r.slot.or (r.presented ts).head? := by
  induction ts generalizing r with
  | nil => simp [presented]
  | cons t ts ih =>
    rw [run_cons, ih, slot_turn, presented]
    cases r.slot <;> cases r.presented? t <;> simp

lemma stage_run_of_over {r : Race} {call : Nat} {s : Stage} (hs : r.stage call = some s)
    (ho : s.Over) (ts : List Turn) : (r.run ts).stage call = some s := by
  induction ts generalizing r with
  | nil => exact hs
  | cons t ts ih => exact ih (stage_turn_of_over hs ho t)

lemma Truthful.run {r : Race} (h : r.Truthful) (ts : List Turn) : (r.run ts).Truthful := by
  induction ts generalizing r with
  | nil => exact h
  | cons t ts ih => exact ih (h.turn t)

lemma truthful_opening (slot : Option Candidate) : (opening slot).Truthful := by
  intro call a ha
  simp [opening] at ha

/-! ### A race without one of its calls -/

structure SameBut (call : Nat) (r q : Race) : Prop where
  slot : q.slot = r.slot
  stage : ∀ other ≠ call, q.stage other = r.stage other

lemma SameBut.turn {call : Nat} {r q : Race} (h : SameBut call r q) {t : Turn}
    (ht : t.call ≠ call) :
    SameBut call (r.turn t) (q.turn t) ∧ q.presented? t = r.presented? t := by
  have hput (s : Stage) : SameBut call (r.put t.call s) (q.put t.call s) := by
    refine ⟨h.slot, fun other hother => ?_⟩
    by_cases ho : other = t.call
    · rw [ho, stage_put, stage_put]
    · rw [stage_put_of_ne ho, stage_put_of_ne ho, h.stage other hother]
  have hsettle (i : Inquiry) (c : Candidate) :
      SameBut call (r.settle t.call i c) (q.settle t.call i c) := by
    refine ⟨by rw [slot_settle, slot_settle, h.slot], fun other hother => ?_⟩
    by_cases ho : other = t.call
    · rw [ho, stage_settle, stage_settle, h.slot]
    · rw [stage_settle_of_ne ho, stage_settle_of_ne ho, h.stage other hother]
  have hstage := h.stage t.call ht
  cases t with
  | look c i =>
    refine ⟨?_, rfl⟩
    simp only [Race.turn]
    rw [show q.stage c = r.stage c from hstage, h.slot]
    split
    · exact hput _
    · exact hput _
    · exact h
  | detect c found =>
    refine ⟨?_, rfl⟩
    simp only [Race.turn]
    rw [show q.stage c = r.stage c from hstage]
    split
    · exact hput _
    · exact hput _
    · exact h
  | present c =>
    simp only [Race.turn, presented?]
    rw [show q.stage c = r.stage c from hstage]
    split
    · exact ⟨hsettle _ _, rfl⟩
    · exact ⟨h, rfl⟩
  | offer c d =>
    simp only [Race.turn, presented?]
    rw [show q.stage c = r.stage c from hstage]
    split
    · exact ⟨hsettle _ _, rfl⟩
    · exact ⟨h, rfl⟩

lemma SameBut.turn_left {call : Nat} {r q : Race} (h : SameBut call r q) {t : Turn}
    (ht : t.call = call) (hna : ∀ a, (r.turn t).stage call ≠ some (.answered a)) :
    SameBut call (r.turn t) q ∧ r.presented? t = none := by
  subst ht
  have hturned := r.turned t
  generalize r.turn t = r' at hna hturned ⊢
  cases hturned with
  | idle hp => exact ⟨h, hp⟩
  | put _ hp =>
    refine ⟨⟨h.slot, fun other hother => ?_⟩, hp⟩
    rw [h.stage other hother, stage_put_of_ne hother]
  | settled => exact absurd (stage_settle ..) (hna _)

lemma SameBut.run {call : Nat} {r q : Race} (h : SameBut call r q) {ts : List Turn}
    {fault : Fault} (hf : (r.run ts).stage call = some (.failed fault)) :
    SameBut call (r.run ts) (q.run (ts.filter fun t => t.call ≠ call)) ∧
      q.presented (ts.filter fun t => t.call ≠ call) = r.presented ts := by
  induction ts generalizing r q with
  | nil => exact ⟨h, rfl⟩
  | cons t ts ih =>
    have hna (a : Answer) : (r.turn t).stage call ≠ some (.answered a) := by
      intro ha
      have hend := stage_run_of_over ha trivial ts
      rw [run_cons, hend] at hf
      simp at hf
    by_cases ht : t.call = call
    · obtain ⟨hleft, hp⟩ := h.turn_left ht hna
      rw [List.filter_cons_of_neg (by simpa using ht), presented, hp]
      exact ih hleft hf
    · obtain ⟨hboth, hp⟩ := h.turn ht
      obtain ⟨hrun, hpresented⟩ := ih hboth hf
      rw [List.filter_cons_of_pos (by simpa using ht), presented, presented, hp, hpresented]
      exact ⟨hrun, rfl⟩

/-! ### The turns of one call -/

lemma stage_turn_of_ne {call : Nat} {t : Turn} (h : t.call ≠ call) (r : Race) :
    (r.turn t).stage call = r.stage call := by
  have hturned := r.turned t
  generalize r.turn t = q at hturned ⊢
  cases hturned with
  | idle => rfl
  | put => exact stage_put_of_ne h.symm ..
  | settled => exact stage_settle_of_ne h.symm ..

lemma stage_run_of_ne {call : Nat} {ts : List Turn} (h : ∀ t ∈ ts, t.call ≠ call) (r : Race) :
    (r.run ts).stage call = r.stage call := by
  induction ts generalizing r with
  | nil => rfl
  | cons t ts ih =>
    rw [run_cons, ih fun u hu => h u (by simp [hu]), stage_turn_of_ne (h t (by simp))]

def turnsOf (call : Nat) (i : Inquiry) (platform : String) (us vs : List Turn) : List Turn :=
  .look call i :: us ++ .detect call (.ok platform) :: vs ++ [.present call]

/-- **A call is answered** once it has taken its turns, whatever others do in between. -/
lemma answered_of_turns {call : Nat} {r : Race} (hr : r.stage call = none) (i : Inquiry)
    (platform : String) {us vs : List Turn} (hus : ∀ t ∈ us, t.call ≠ call)
    (hvs : ∀ t ∈ vs, t.call ≠ call) :
    ∃ c, (r.run (turnsOf call i platform us vs)).slot = some c ∧
      (r.run (turnsOf call i platform us vs)).stage call = some (.answered (i.answer c)) := by
  cases hs : r.slot with
  | some c =>
    have hlook : (r.turn (.look call i)).stage call = some (.answered (i.answer c)) := by
      simp [turn, hr, hs]
    refine ⟨c, by rw [slot_run, hs]; rfl, ?_⟩
    have hdone := stage_run_of_over hlook trivial
      (us ++ .detect call (.ok platform) :: (vs ++ [.present call]))
    simpa only [turnsOf, List.cons_append, List.append_assoc, run_cons] using hdone
  | none =>
    have hlook : (r.turn (.look call i)).stage call = some (.detecting i) := by
      simp [turn, hr, hs]
    simp only [turnsOf, run_append, run_cons, run_nil]
    have hdetecting := (stage_run_of_ne hus (r.turn (.look call i))).trans hlook
    generalize (r.turn (.look call i)).run us = q at hdetecting ⊢
    have hdetect : (q.turn (.detect call (.ok platform))).stage call =
        some (.presenting i ⟨call, .ofPlatform platform⟩) := by
      simp [turn, hdetecting]
    have hpresenting := (stage_run_of_ne hvs (q.turn (.detect call (.ok platform)))).trans hdetect
    generalize (q.turn (.detect call (.ok platform))).run vs = q at hpresenting ⊢
    have hpresent : q.turn (.present call) = q.settle call i ⟨call, .ofPlatform platform⟩ := by
      simp only [turn, hpresenting]
    rw [hpresent]
    exact ⟨_, slot_settle .., stage_settle ..⟩

end Race

end RouterAgent
