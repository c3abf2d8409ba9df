import Mathlib.Data.List.Basic
import RouterAgent.Backoff
import RouterAgent.Proofs.Number.Order

/-!
The delays that are taken one after the other.

The delay after `n` others depends on `n` alone. Where both bounds are numbers above zero, every
delay is a number above zero and at most the ceiling.
-/

namespace RouterAgent

open RouterAgent.Number

/-- A value serves as a delay: it is a number, not at most zero, and this is the floating-point
number of it. -/
structure Value.IsDelay (v : Value) (x : Binary64) : Prop where
  isNonpositive : v.isNonpositive = .ok false
  toFloat : v.toFloat = .ok x

lemma Value.isDelay_float {x : Binary64} (h : x.isNonpositive = false) : (Value.float x).IsDelay x :=
  ⟨by rw [Value.isNonpositive, h], rfl⟩

namespace Backoff

variable {base max : Value} {x y : Binary64}

lemma make_of_isDelay (hbase : base.IsDelay x) (hmax : max.IsDelay y) :
    make base max = .ok ⟨x, y, 0⟩ := by
  unfold make
  rw [hbase.isNonpositive, hmax.isNonpositive, hbase.toFloat, hmax.toFloat]
  rfl

def after (b : Backoff) : ℕ → Backoff
  | 0 => b
  | n + 1 => (b.after n).next.2

def taken (b : Backoff) (n : ℕ) : List Binary64 := (List.range n).map fun i => (b.after i).next.1

lemma after_eq (b : Backoff) (n : ℕ) : b.after n = { b with attempts := b.attempts + n } := by
  induction n with
  | zero => rfl
  | succ n ih =>
    rw [after, ih]
    rfl

@[simp] lemma attempts_after (b : Backoff) (n : ℕ) : (b.after n).attempts = b.attempts + n := by
  rw [after_eq]

@[simp] lemma next_after (b : Backoff) (n : ℕ) :
    (b.after n).next.1 = b.delay (b.attempts + n) := by
  rw [after_eq]
  rfl

lemma taken_succ (b : Backoff) (n : ℕ) : b.taken (n + 1) = b.taken n ++ [(b.after n).next.1] := by
  simp [taken, List.range_succ]

/-! ### Bounds -/

lemma delay_of_nan_base {b : Backoff} (h : b.base = .nan) (k : ℕ) : b.delay k = .nan := by
  rw [delay, h]
  exact Binary64.nan_capped _

lemma delay_of_nan_max {b : Backoff} (h : b.max = .nan) (k : ℕ) :
    b.delay k = b.base.scale (min k doublings) := by
  rw [delay, h]
  exact Binary64.capped_nan _

/-- **Delays are bounded.** Each is a number above zero and at most the ceiling. -/
theorem delay_bounded {b : Backoff} (hbase : Binary64.lt .zero b.base = true)
    (hmax : Binary64.lt .zero b.max = true) (k : ℕ) :
    Binary64.lt .zero (b.delay k) = true ∧ Binary64.le (b.delay k) b.max = true := by
  have hscaled := Binary64.zero_lt_scale hbase (min k doublings)
  exact ⟨Binary64.zero_lt_capped hscaled hmax,
    Binary64.capped_le (Binary64.ne_nan_of_lt hscaled).2 (Binary64.ne_nan_of_lt hmax).2⟩

end Backoff

end RouterAgent
