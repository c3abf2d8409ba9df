import Mathlib.Data.List.DropRight
import RouterAgent.Proofs.Backoff.Delays
import RouterAgent.Proofs.Number.Rational

/-!
Delays that are taken and started again in any order.

Only the delays that were taken since the last start count. In exact numbers the next delay is the
first one doubled so many times, or the ceiling if that is less, and no doubling beyond a fixed
number of them counts.
-/

namespace RouterAgent

open RouterAgent.Number

namespace Backoff

inductive Call where
  | next
  | reset
deriving DecidableEq

def act (b : Backoff) : Call → Backoff
  | .next => b.next.2
  | .reset => b.reset

def acts (b : Backoff) (calls : List Call) : Backoff := calls.foldl act b

def delayAfter (b : Backoff) (calls : List Call) : Binary64 := (b.acts calls).next.1

/-- How many delays were taken after the last new start, or from the beginning on. -/
def takenSince (calls : List Call) : ℕ := (calls.rtakeWhile (· = .next)).length

lemma takenSince_concat_next (calls : List Call) :
    takenSince (calls ++ [.next]) = takenSince calls + 1 := by
  simp [takenSince]

lemma takenSince_concat_reset (calls : List Call) : takenSince (calls ++ [.reset]) = 0 := by
  simp [takenSince]

lemma takenSince_append {calls between : List Call} (h : .reset ∉ between) :
    takenSince (calls ++ between) = takenSince calls + between.length := by
  induction between using List.reverseRecOn with
  | nil => simp
  | append_singleton between call ih =>
    rw [List.mem_append, List.mem_singleton, not_or] at h
    cases call with
    | reset => exact absurd rfl h.2
    | next =>
      rw [← List.append_assoc, takenSince_concat_next, ih h.1, List.length_append]
      rfl

lemma acts_concat (b : Backoff) (calls : List Call) (call : Call) :
    b.acts (calls ++ [call]) = (b.acts calls).act call := by
  simp [acts]

lemma acts_eq {b : Backoff} (h : b.attempts = 0) (calls : List Call) :
    b.acts calls = { b with attempts := takenSince calls } := by
  induction calls using List.reverseRecOn with
  | nil =>
    rw [show takenSince [] = 0 from rfl, ← h]
    rfl
  | append_singleton calls call ih =>
    rw [acts_concat, ih]
    cases call with
    | next =>
      rw [takenSince_concat_next]
      rfl
    | reset =>
      rw [takenSince_concat_reset]
      rfl

lemma delayAfter_eq {b : Backoff} (h : b.attempts = 0) (calls : List Call) :
    b.delayAfter calls = b.delay (takenSince calls) := by
  rw [delayAfter, acts_eq h]
  rfl

/-! ### Exact delays -/

variable {b : Backoff} {p q : ℚ}

lemma value?_delay (hp : b.base.value? = some p) (hpos : 0 < p) (hq : b.max.value? = some q)
    (k : ℕ) : (b.delay k).value? = some (min (p * 2 ^ min k doublings) q) :=
  Binary64.value?_capped_scale hp hpos hq _

lemma delay_mono (hp : b.base.value? = some p) (hpos : 0 < p) (hq : b.max.value? = some q) {i j : ℕ}
    (h : i ≤ j) : Binary64.le (b.delay i) (b.delay j) = true := by
  rw [Binary64.le_iff_of_value? (value?_delay hp hpos hq i) (value?_delay hp hpos hq j)]
  have hdoublings : min i doublings ≤ min j doublings := min_le_min_right _ h
  have hpow : (2 : ℚ) ^ min i doublings ≤ 2 ^ min j doublings :=
    pow_le_pow_right₀ (by norm_num) hdoublings
  exact min_le_min_right q (mul_le_mul_of_nonneg_left hpow hpos.le)

lemma delay_eq_of_reached (hp : b.base.value? = some p) (hpos : 0 < p) (hq : b.max.value? = some q)
    (hqpos : 0 < q) {i j : ℕ} (h : i ≤ j) (hreached : b.delay i = b.max) : b.delay j = b.delay i := by
  have hi := value?_delay hp hpos hq i
  have hj := value?_delay hp hpos hq j
  have hgrown := (Binary64.le_iff_of_value? hi hj).1 (delay_mono hp hpos hq h)
  rw [hreached, hq, Option.some.injEq] at hi
  have hceiling : min (p * 2 ^ min j doublings) q = q :=
    le_antisymm (min_le_right _ _) (hi.trans_le hgrown)
  rw [hceiling] at hj
  rw [hreached]
  exact Binary64.eq_of_value? hj hq hqpos

lemma delay_eq_of_doublings {i j : ℕ} (hi : doublings ≤ i) (hj : doublings ≤ j) :
    b.delay j = b.delay i := by
  rw [delay, delay, min_eq_right hi, min_eq_right hj]

/-- **What is taken is the first delay doubled, or the ceiling.** Two finite delays above zero are
accepted. After any calls the next delay is, in exact numbers, the first one doubled as often as
delays were taken since the last start, but at most `doublings` times, or the ceiling if that is
less, and then one delay more was taken. So the delays between two starts never get smaller, they
are above zero and at most the ceiling, and they stay as they are once the ceiling is reached or so
many delays were taken. -/
theorem delays_double_to_ceiling {base max : Value} {x y : Binary64} {p q : ℚ}
    (hbase : base.IsDelay x) (hmax : max.IsDelay y) (hx : x.value? = some p) (hy : y.value? = some q)
    (hp : 0 < p) (hq : 0 < q) :
    ∃ b, make base max = .ok b ∧ ∀ calls : List Call,
      (b.delayAfter calls).value? = some (min (p * 2 ^ min (takenSince calls) 32) q) ∧
      (b.acts (calls ++ [.next])).attempts = takenSince calls + 1 ∧
      Binary64.lt .zero (b.delayAfter calls) = true ∧
      Binary64.le (b.delayAfter calls) y = true ∧
      ∀ between : List Call, .reset ∉ between →
        Binary64.le (b.delayAfter calls) (b.delayAfter (calls ++ between)) = true ∧
        (b.delayAfter calls = y ∨ 32 ≤ takenSince calls →
          b.delayAfter (calls ++ between) = b.delayAfter calls) := by
  refine ⟨⟨x, y, 0⟩, make_of_isDelay hbase hmax, fun calls => ?_⟩
  have hpos : Binary64.lt .zero x = true := (Binary64.zero_lt_iff_of_value? hx).2 hp
  have htop : Binary64.lt .zero y = true := (Binary64.zero_lt_iff_of_value? hy).2 hq
  have hbounded := delay_bounded (b := ⟨x, y, 0⟩) hpos htop (takenSince calls)
  rw [delayAfter_eq rfl]
  refine ⟨value?_delay hx hp hy _, ?_, hbounded.1, hbounded.2, fun between hbetween => ?_⟩
  · rw [acts_eq rfl, takenSince_concat_next]
  · have hlater : takenSince calls ≤ takenSince (calls ++ between) := by
      rw [takenSince_append hbetween]
      exact Nat.le_add_right _ _
    rw [delayAfter_eq rfl]
    refine ⟨delay_mono hx hp hy hlater, ?_⟩
    rintro (hreached | hmany)
    · exact delay_eq_of_reached hx hp hy hq hlater hreached
    · exact delay_eq_of_doublings hmany (le_trans hmany hlater)

/-- A first delay that can be doubled 23 times before it is too large. -/
def vastDelay : Binary64 := .ofRatio false (2 ^ 1000) 1

def vastCeiling : Binary64 := .ofRatio false (3 * 2 ^ 1000) 1

theorem delays_double_to_ceiling_vast :
    vastDelay.value? = some (2 ^ 1000) ∧ vastCeiling.value? = some (3 * 2 ^ 1000) ∧
    ∃ b, make (.float vastDelay) (.float vastCeiling) = .ok b ∧
      (b.delayAfter [.next, .next, .reset, .next]).value? = some (2 ^ 1001) ∧
      (b.delayAfter (List.replicate 40 .next)).value? = some (3 * 2 ^ 1000) ∧
      b.delayAfter (List.replicate 40 .next ++ [.next]) =
        b.delayAfter (List.replicate 40 .next) := by
  have hx : vastDelay.value? = some (2 ^ 1000) := by decide +kernel
  have hy : vastCeiling.value? = some (3 * 2 ^ 1000) := by decide +kernel
  obtain ⟨b, hb, hall⟩ := delays_double_to_ceiling (Value.isDelay_float (by decide +kernel))
    (Value.isDelay_float (by decide +kernel)) hx hy (by decide +kernel) (by decide +kernel)
  refine ⟨hx, hy, b, hb, ?_, ?_, ?_⟩
  · rw [(hall _).1]
    decide +kernel
  · rw [(hall _).1]
    decide +kernel
  · obtain ⟨-, -, -, -, hlater⟩ := hall (List.replicate 40 .next)
    exact (hlater [.next] (by decide)).2 (.inr (by decide +kernel))

end Backoff

end RouterAgent
