import RouterAgent.Proofs.Host.Commands
import RouterAgent.Router

/-!
What a platform's hook leaves alone.

A hook may run commands, wait, write notes and fail, but it does not touch the router's state and
the observers of the host.
-/

namespace RouterAgent

open RouterAgent.Number

/-! ### Computations that leave a view alone -/

/-- A computation changes nothing that a view shows. -/
def Keeps {σ : Type} {α : Type u} (view : σ → α) (m : StateM σ β) : Prop :=
  ∀ s, view (m s).2 = view s

namespace Keeps

variable {σ : Type} {α : Type u} {view : σ → α}

lemma pure (b : β) : Keeps view (pure b : StateM σ β) := fun _ => rfl

lemma bind {m : StateM σ β} {k : β → StateM σ γ} (hm : Keeps view m)
    (hk : ∀ b, Keeps view (k b)) : Keeps view (m >>= k) :=
  fun s => (hk (m s).1 (m s).2).trans (hm s)

lemma modify {change : σ → σ} (h : ∀ s, view (change s) = view s) :
    Keeps view (modify change : StateM σ PUnit) := h

end Keeps

namespace Waiting

variable {σ : Type} {α : Type u} {view : σ → α} {w : Waiting σ}

/-- A waiting whose check, notes and actions leave a view alone. -/
structure Modest (w : Waiting σ) (view : σ → α) : Prop where
  check : Keeps view w.check
  note : ∀ text s, view (w.note text s) = view s
  did : ∀ action s, view (w.did action s) = view s

lemma Modest.arrive (h : w.Modest view) (n : Nat) (s : σ) : view (w.arrive n s) = view s := by
  unfold Waiting.arrive
  split
  · rfl
  · exact h.note _ s

lemma Modest.pause (h : w.Modest view) (longest : Option Binary64) (outcome : CheckOutcome)
    (delay : Binary64) : Keeps view (w.pause longest outcome delay) := by
  intro s
  unfold Waiting.pause
  split
  · rfl
  · simp only
    split
    · exact h.note _ s
    · exact (h.did _ _).trans (h.note _ s)

lemma Modest.poll (h : w.Modest view) {last : StateM σ Unit} (hlast : Keeps view last)
    {waits : List (StateM σ Bool)} (hwaits : ∀ wait ∈ waits, Keeps view wait)
    (longest : Option Binary64) (backoff : Backoff) :
    Keeps view (w.poll longest last waits backoff) := by
  induction waits generalizing backoff with
  | nil =>
    rw [Waiting.poll]
    refine h.check.bind fun outcome => ?_
    split
    · exact (Keeps.modify (h.arrive _)).bind fun _ => .pure _
    · refine (h.pause longest outcome _).bind fun failure => ?_
      split
      · exact .pure _
      · exact hlast.bind fun _ => .pure _
  | cons wait waits ih =>
    rw [Waiting.poll]
    refine h.check.bind fun outcome => ?_
    split
    · exact (Keeps.modify (h.arrive _)).bind fun _ => .pure _
    · refine (h.pause longest outcome _).bind fun failure => ?_
      split
      · exact .pure _
      · refine (hwaits wait (by simp)).bind fun set => ?_
        split
        · exact .pure _
        · exact ih (fun other hother => hwaits other (by simp [hother])) backoff.next.2

lemma Modest.run (h : w.Modest view) {cancel : Cancellation σ} (hlast : Keeps view cancel.last)
    (hwaits : ∀ wait ∈ cancel.waits, Keeps view wait) (base max : Value) :
    Keeps view (w.run base max cancel) := by
  unfold Waiting.run
  split
  · exact .pure _
  · split
    · exact .pure _
    · exact h.poll hlast hwaits _ _

end Waiting

/-! ### Hooks -/

/-- What hooks leave alone: the router's state and the observers of the host. -/
def Session.core (s : Session) : RouterState × List Observer := (s.state, s.world.host.observers)

namespace World

lemma observers_run (w : World) (line : String) :
    (w.run line).2.host.observers = w.host.observers := by
  obtain ⟨-, -, -, commands, rival, hhost⟩ := w.run_spec line
  rw [hhost]

end World

namespace Platform

def Quiet (cancel : Cancellation Session) : Prop :=
  Keeps Session.core cancel.last ∧ ∀ wait ∈ cancel.waits, Keeps Session.core wait

lemma quiet_noCancel (s : Session) : Quiet (Router.noCancel s) := by
  refine ⟨.pure (), fun wait hwait => ?_⟩
  rw [List.eq_of_mem_replicate hwait]
  exact .pure false

lemma core_setting (key : String) : Keeps Session.core (setting key) := fun s =>
  congrArg (Prod.mk s.state) (s.world.observers_run _)

lemma core_isOn (p : Platform) (key : String) : Keeps Session.core (p.isOn key) := by
  intro s
  have h := core_setting key s
  unfold isOn
  generalize setting key s = out at h ⊢
  obtain ⟨fault | value, t⟩ := out
  · cases fault <;> exact h
  · exact h

lemma core_anyOn (p : Platform) (keys : List String) : Keeps Session.core (p.anyOn keys) := by
  induction keys with
  | nil => exact fun _ => rfl
  | cons key keys ih =>
    intro s
    have h := p.core_isOn key s
    unfold anyOn
    generalize p.isOn key s = out at h ⊢
    obtain ⟨_ | _ | _, t⟩ := out
    · exact h
    · exact (ih t).trans h
    · exact h

lemma modest_clockWaiting (p : Platform) : p.clockWaiting.Modest Session.core :=
  ⟨(core_setting "ntp_ready").bind fun _ => .pure _, fun _ _ => rfl, fun _ _ => rfl⟩

variable {cancel : Cancellation Session}

lemma core_perform (hc : Quiet cancel) (p : Platform) (hook : Hook) (settings : Settings)
    (v : Visit) (deed : Deed) :
    (p.perform hook settings cancel v deed).2.session.core = v.session.core := by
  cases deed with
  | announce | setOptions | fail => rfl
  | requireJournal =>
    have h := p.core_anyOn journalKeys v.session
    simp only [perform]
    generalize p.anyOn journalKeys v.session = out at h ⊢
    obtain ⟨_ | _ | _, t⟩ := out <;> exact h
  | awaitClock => exact p.modest_clockWaiting.run hc.1 hc.2 _ _ v.session

lemma core_performAll (hc : Quiet cancel) (p : Platform) (hook : Hook) (settings : Settings)
    (deeds : List Deed) (v : Visit) :
    (p.performAll hook settings cancel deeds v).2.session.core = v.session.core := by
  induction deeds generalizing v with
  | nil => rfl
  | cons deed deeds ih =>
    have h := core_perform hc p hook settings v deed
    unfold performAll
    generalize p.perform hook settings cancel v deed = out at h ⊢
    obtain ⟨_ | _, u⟩ := out
    · exact h
    · exact (ih u).trans h

/-- **A hook leaves the router's state and the observers alone.** -/
theorem core_call (hc : Quiet cancel) (p : Platform) (hook : Hook) (settings : Settings)
    (v : Visit) : (p.call hook settings cancel v).2.session.core = v.session.core :=
  core_performAll hc p hook settings (p.hooks hook) v

end Platform

end RouterAgent
