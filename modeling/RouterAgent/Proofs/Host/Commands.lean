import Mathlib.Data.List.Basic
import RouterAgent.World

/-!
Answers of commands, call by call.

The answers of a command are used one after the other, the last one for good. So the answer to a
call depends on the number of calls of the same command before it, and on nothing else.
-/

namespace RouterAgent

namespace Host

/-- The answer to a command that was called so many times before. -/
def answer (h : Host) (line : String) (n : Nat) : CommandResult :=
  let results := (h.commands.get? line).getD []
  (results[n]?.or results.getLast?).getD (.refused .missing)

lemma run_fst (h : Host) (line : String) : (h.run line).1 = h.answer line 0 := by
  unfold run answer
  rcases h.commands.get? line with _ | _ | ⟨next, _ | ⟨last, later⟩⟩ <;> rfl

lemma answer_run (h : Host) (line other : String) (n : Nat) :
    (h.run line).2.answer other n = h.answer other (if other = line then n + 1 else n) := by
  by_cases heq : other = line
  · subst heq
    rw [if_pos rfl]
    unfold run
    rcases hc : h.commands.get? other with _ | _ | ⟨next, _ | ⟨last, later⟩⟩
    · simp [answer, hc]
    · simp [answer, hc]
    · -- the last answer is kept
      cases n <;> simp [answer, hc]
    · simp [answer, hc, OrderedMap.get?_insert]
  · rw [if_neg heq]
    unfold run
    split
    · rfl
    · rfl
    · rfl
    · simp [answer, OrderedMap.get?_insert, heq]

lemma run_snd (h : Host) (line : String) :
    ∃ commands, (h.run line).2 = { h with commands } := by
  unfold run
  split <;> exact ⟨_, rfl⟩

end Host

namespace World

lemma letRivalPublish_eq (w : World) :
    ∃ rival published, w.letRivalPublish = { w with host := { w.host with rival }, published } := by
  unfold letRivalPublish
  split <;> exact ⟨_, _, rfl⟩

/-- **Running a command** gives its next answer and is recorded. Every later answer of the command
moves up by one place, and nothing else that can be asked of the host changes. -/
theorem run_spec (w : World) (line : String) :
    (w.run line).1 = w.host.answer line 0 ∧
    (w.run line).2.trace = w.trace ++ [.ran line] ∧
    (∀ other n, (w.run line).2.host.answer other n =
      w.host.answer other (if other = line then n + 1 else n)) ∧
    ∃ commands rival, (w.run line).2.host = { w.host with commands, rival } := by
  obtain ⟨rival, published, hrival⟩ := (w.did (.ran line)).letRivalPublish_eq
  obtain ⟨commands, hcommands⟩ := Host.run_snd { w.host with rival } line
  simp only [run, hrival]
  exact ⟨Host.run_fst _ line, rfl, Host.answer_run _ line, commands, rival, hcommands⟩

end World

end RouterAgent
