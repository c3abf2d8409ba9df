import RouterAgent.Proofs.Detection.FirstMatch
import RouterAgent.Proofs.Publication.Race

/-!
The candidate that is presented first is the only state that anybody ever sees.

`World.getState` is the race of one caller, in which a rival may take its turn while the detection
runs.
-/

namespace RouterAgent

lemma Host.rival_run (h : Host) (line : String) : (h.run line).2.rival = h.rival := by
  obtain ⟨commands, hcommands⟩ := h.run_snd line
  rw [hcommands]

namespace World

/-- What the slot holds once the rival, if there is one, has taken its turn. -/
def overtaken (w : World) : Option RouterState :=
  match w.host.rival with
  | none => w.published
  | some platform => (RouterAgent.publish (.ofPlatform platform) w.published).2

/-- The rival has taken its turn, and this is what the slot holds now. -/
structure Calm (slot : Option RouterState) (w : World) : Prop where
  rival : w.host.rival = none
  published : w.published = slot

variable {slot : Option RouterState} {w : World}

lemma Calm.did (h : Calm slot w) (action : Action) : Calm slot (w.did action) :=
  ⟨h.rival, h.published⟩

lemma Calm.note (h : Calm slot w) (level : Level) (text : String) :
    Calm slot (Detection.note w level text) :=
  ⟨h.rival, h.published⟩

lemma calm_letRivalPublish (w : World) : Calm w.overtaken w.letRivalPublish := by
  unfold overtaken letRivalPublish
  cases hr : w.host.rival with
  | none => exact ⟨hr, rfl⟩
  | some platform => exact ⟨rfl, rfl⟩

lemma Calm.overtaken_eq (h : Calm slot w) : w.overtaken = slot := by
  unfold overtaken
  rw [h.rival]
  exact h.published

lemma calm_run (w : World) (line : String) : Calm w.overtaken (w.run line).2 := by
  have h : Calm w.overtaken (w.did (.ran line)).letRivalPublish :=
    calm_letRivalPublish (w.did (.ran line))
  exact ⟨(Host.rival_run ..).trans h.rival, h.published⟩

lemma calm_kernel (w : World) (flag : String) : Calm w.overtaken (Detection.kernel w flag).2 := by
  have h := w.calm_run s!"uname {flag}"
  unfold Detection.kernel
  rcases hrun : w.run s!"uname {flag}" with ⟨result, v⟩
  rw [hrun] at h
  cases result with
  | ran output errors code => exact h
  | refused why => exact h.note _ _
  | timedOut => exact h.note _ _

lemma Calm.content (h : Calm slot w) (path : String) : Calm slot (Detection.content w path).2 := by
  simp only [Detection.content]
  split
  · exact h.did _
  · exact (h.did _).note _ _

lemma Calm.holds (h : Calm slot w) (check : Detection.Check) : Calm slot (check.holds w).2 := by
  cases check with
  | kernel flag word => exact h.overtaken_eq ▸ w.calm_kernel flag
  | file path => exact h.did _
  | dir path => exact h.did _
  | content path word => exact h.content path

lemma Calm.first (h : Calm slot w) (checks : List (Detection.Check × String)) :
    Calm slot (Detection.first w checks).2 := by
  induction checks generalizing w with
  | nil => exact h
  | cons entry rest ih =>
    have hheld := h.holds entry.1
    rw [Detection.first_cons]
    split
    · exact hheld
    · exact ih hheld

lemma calm_detect (w : World) : Calm w.overtaken w.detect.2 := by
  have hfirst : Calm w.overtaken (Detection.first w Detection.checks).2 := by
    have hheld : Calm w.overtaken ((Detection.Check.kernel "-o" "DD-WRT").holds w).2 :=
      w.calm_kernel "-o"
    rw [Detection.checks, Detection.first_cons]
    split
    · exact hheld
    · exact hheld.first _
  unfold detect
  rcases hf : Detection.first w Detection.checks with ⟨_ | platform, v⟩
  · rw [hf] at hfirst
    exact hfirst.note _ _
  · rw [hf] at hfirst
    exact hfirst.note _ _

/-- The turns in the race of a caller, whose call has the number 2: the rival takes its turn while
the detection runs. -/
def getStateTurns (w : World) : List Race.Turn :=
  [.look 2 .state] ++
    (w.host.rival.toList.map fun platform => .offer 1 ⟨1, .ofPlatform platform⟩) ++
    [.detect 2 (.ok w.detect.1), .present 2]

def getStateRace (w : World) : Race :=
  (Race.opening (w.published.map fun state => ⟨0, state⟩)).run w.getStateTurns

/-- **Getting the state** is the race of one caller and a rival. -/
lemma getState_eq_race (w : World) :
    ∃ c : Candidate, c.state = w.getState.1 ∧
      w.getStateRace.stage 2 = some (.answered (.state c)) ∧
      w.getStateRace.slot.map Candidate.state = w.getState.2.published := by
  have hcalm := w.calm_detect
  unfold getStateRace getStateTurns getState
  unfold overtaken at hcalm
  cases hp : w.published with
  | some state =>
    refine ⟨⟨0, state⟩, rfl, ?_⟩
    cases w.host.rival <;>
      simp [Race.opening, Race.turn, Race.put, Race.settle, RouterAgent.publish, Inquiry.answer, hp]
  | none =>
    rcases hd : w.detect with ⟨platform, v⟩
    rw [hd, hp] at hcalm
    have hv := hcalm.published
    cases hr : w.host.rival with
    | none =>
      refine ⟨⟨2, .ofPlatform platform⟩, ?_⟩
      simp_all [Race.opening, Race.turn, Race.put, Race.settle, World.publish, RouterAgent.publish,
        Inquiry.answer]
    | some rival =>
      refine ⟨⟨1, .ofPlatform rival⟩, ?_⟩
      simp_all [Race.opening, Race.turn, Race.put, Race.settle, World.publish, RouterAgent.publish,
        Inquiry.answer]

end World

namespace Race

/-- **Only the candidate that was presented first is ever seen**, in every race that began with an
empty slot. It stays in the slot, and every call that is answered is told of it or of its platform.
A call whose detection fails presents nothing, and without it the race of the others is the same. A
call that begins when the slot is taken is answered at once and runs no detection; any other one is
answered when it has taken its turns, and one that only offers a candidate right away. Getting the
state of a process is such a race. -/
theorem first_presented_is_shared {r : Race} {ts : List Turn}
    (reached : (opening none).run ts = r) :
    r.slot = ((opening none).presented ts).head? ∧
    (∀ c us, r.slot = some c → (r.run us).slot = some c) ∧
    (∀ call a, r.stage call = some (.answered a) →
      ∃ c, r.slot = some c ∧ (a = .state c ∨ a = .name c.state.platform)) ∧
    (∀ call fault, r.stage call = some (.failed fault) →
      SameBut call r ((opening none).run (ts.filter fun t => t.call ≠ call)) ∧
      (opening none).presented (ts.filter fun t => t.call ≠ call) =
        (opening none).presented ts) ∧
    (∀ call c i us, r.stage call = none → r.slot = some c →
      (r.run (.look call i :: us)).stage call = some (.answered (i.answer c))) ∧
    (∀ call i platform us vs, r.stage call = none →
      (∀ t ∈ us, t.call ≠ call) → (∀ t ∈ vs, t.call ≠ call) →
      ∃ c, (r.run (turnsOf call i platform us vs)).slot = some c ∧
        (r.run (turnsOf call i platform us vs)).stage call = some (.answered (i.answer c))) ∧
    (∀ call c, r.stage call = none →
      ∃ first, (r.turn (.offer call c)).slot = some first ∧
        (r.turn (.offer call c)).stage call = some (.answered (.state first))) ∧
    ∀ w : World, ∃ c : Candidate, c.state = w.getState.1 ∧
      w.getStateRace.stage 2 = some (.answered (.state c)) ∧
      w.getStateRace.slot.map Candidate.state = w.getState.2.published := by
  subst reached
  refine ⟨slot_run .., fun c us hc => ?_, fun call a ha => ?_, fun call fault hf => ?_,
    fun call c i us hn hc => ?_, fun call i platform us vs hn hus hvs => ?_,
    fun call c hn => ?_, fun w => w.getState_eq_race⟩
  · rw [slot_run, hc]
    rfl
  · obtain ⟨i, c, hc, rfl⟩ := (truthful_opening none).run ts call a ha
    cases i with
    | state => exact ⟨c, hc, .inl rfl⟩
    | name => exact ⟨c, hc, .inr rfl⟩
  · exact SameBut.run ⟨rfl, fun _ _ => rfl⟩ hf
  · have hlook : (((opening none).run ts).turn (.look call i)).stage call =
        some (.answered (i.answer c)) := by
      simp [turn, hn, hc]
    exact stage_run_of_over hlook trivial us
  · exact answered_of_turns hn i platform hus hvs
  · have hoffer : ((opening none).run ts).turn (.offer call c) =
        ((opening none).run ts).settle call .state c := by
      simp only [turn, hn]
    rw [hoffer]
    exact ⟨_, slot_settle .., stage_settle ..⟩

/-- Three calls find the slot empty and one of their detections fails; the second one is the first
to present what it found, and a fourth call begins when all is over. -/
def crowded : List Turn :=
  [.look 1 .state, .look 2 .name, .look 3 .state, .detect 1 (.ok "openwrt"),
    .detect 3 (.error Detection.noProbe), .detect 2 (.ok "tomato"), .present 2, .present 1,
    .look 4 .name]

theorem first_presented_is_shared_crowded :
    ((opening none).run crowded).slot = some ⟨2, .ofPlatform "tomato"⟩ ∧
    (∃ c, ((opening none).run crowded).slot = some c ∧
      (Answer.state ⟨2, .ofPlatform "tomato"⟩ = .state c ∨
        Answer.state ⟨2, .ofPlatform "tomato"⟩ = .name c.state.platform)) ∧
    SameBut 3 ((opening none).run crowded)
      ((opening none).run (crowded.filter fun t => t.call ≠ 3)) ∧
    (((opening none).run crowded).run [.look 5 .name]).stage 5 =
      some (.answered (.name "tomato")) := by
  obtain ⟨hslot, -, hanswered, hfailed, hlate, -⟩ :=
    first_presented_is_shared (rfl : (opening none).run crowded = _)
  have hfirst : ((opening none).presented crowded).head? = some ⟨2, .ofPlatform "tomato"⟩ := rfl
  rw [hfirst] at hslot
  exact ⟨hslot, hanswered 1 (.state ⟨2, .ofPlatform "tomato"⟩) rfl,
    (hfailed 3 Detection.noProbe rfl).1, hlate 5 _ .name [] rfl hslot⟩

end Race

end RouterAgent
