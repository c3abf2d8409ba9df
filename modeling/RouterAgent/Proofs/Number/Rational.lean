import Mathlib.Algebra.Order.Field.Rat
import Mathlib.Tactic.Positivity
import RouterAgent.Proofs.Number.Order

/-!
The rational numbers that the finite floating-point numbers are.

Their order is that of the rational numbers. Doubling is exact or goes beyond every finite number,
so a number above zero that is doubled and then capped is the lesser of two rational numbers.
-/

namespace RouterAgent.Number.Binary64

/-- The rational number that a finite number is. -/
def value? : Binary64 → Option ℚ
  | finite negative m => some (signed negative m.units / 2 ^ unitBits)
  | _ => none

variable {x y : Binary64} {p q : ℚ}

lemma value?_eq_some_iff : x.value? = some p ↔
    ∃ (negative : Bool) (m : Magnitude), x = finite negative m ∧
      (signed negative m.units : ℚ) / 2 ^ unitBits = p := by
  cases x <;> simp [value?]

lemma ne_nan_of_value? (h : x.value? = some p) : x ≠ nan := by
  rintro rfl
  simp [value?] at h

/-! ### Order -/

lemma lt_iff_of_value? (hx : x.value? = some p) (hy : y.value? = some q) :
    lt x y = true ↔ p < q := by
  obtain ⟨a, m, rfl, rfl⟩ := value?_eq_some_iff.1 hx
  obtain ⟨b, n, rfl, rfl⟩ := value?_eq_some_iff.1 hy
  have hunit : (0 : ℚ) < 2 ^ unitBits := by positivity
  rw [lt, decide_eq_true_eq, div_lt_div_iff_of_pos_right hunit, Int.cast_lt]

lemma le_iff_of_value? (hx : x.value? = some p) (hy : y.value? = some q) :
    le x y = true ↔ p ≤ q := by
  rw [le_eq_not_lt (ne_nan_of_value? hx) (ne_nan_of_value? hy), Bool.not_eq_true',
    ← Bool.not_eq_true, lt_iff_of_value? hy hx, not_lt]

lemma value?_zero : zero.value? = some 0 := by
  have hunits : Magnitude.zero.units = 0 := rfl
  simp [zero, value?, signed, hunits]

lemma zero_lt_iff_of_value? (hx : x.value? = some p) : lt zero x = true ↔ 0 < p :=
  lt_iff_of_value? value?_zero hx

lemma exists_units (hx : x.value? = some p) (hp : 0 < p) :
    ∃ m : Magnitude, x = finite false m ∧ p = m.units / 2 ^ unitBits := by
  obtain ⟨m, -, rfl⟩ :=
    (zero_lt_iff.1 ((zero_lt_iff_of_value? hx).2 hp)).resolve_left (by rintro rfl; simp [value?] at hx)
  refine ⟨m, rfl, ?_⟩
  simpa [value?, signed] using hx.symm

lemma eq_of_value? (hx : x.value? = some p) (hy : y.value? = some p) (hp : 0 < p) : x = y := by
  obtain ⟨⟨m, hm, hm'⟩, rfl, rfl⟩ := exists_units hx hp
  obtain ⟨⟨n, hn, hn'⟩, rfl, hmn⟩ := exists_units hy hp
  have hunit : (2 : ℚ) ^ unitBits ≠ 0 := by positivity
  rw [div_left_inj' hunit, Nat.cast_inj] at hmn
  simp only at hmn
  subst hmn
  rfl

/-! ### Doubling -/

lemma scale_spec (hx : x.value? = some p) (hp : 0 < p) (k : ℕ) :
    (x.scale k).value? = some (p * 2 ^ k) ∨
      x.scale k = infinite false ∧ ∀ (z : Binary64) (r : ℚ), z.value? = some r → r < p * 2 ^ k := by
  obtain ⟨m, rfl, rfl⟩ := exists_units hx hp
  have hunit : (0 : ℚ) < 2 ^ unitBits := by positivity
  rw [scale, ofUnits]
  by_cases hlimit : m.units * Nat.pow 2 k < limit
  · left
    rw [dif_pos hlimit, value?, signed]
    simp [div_mul_eq_mul_div]
  · right
    rw [dif_neg hlimit]
    refine ⟨rfl, fun z r hz => ?_⟩
    obtain ⟨negative, n, rfl, rfl⟩ := value?_eq_some_iff.1 hz
    have hunits : signed negative n.units < (m.units * 2 ^ k : ℕ) := by
      have hn := n.lt_limit
      rw [Nat.pow_eq] at hlimit
      cases negative <;> simp only [signed, Bool.false_eq_true, if_true, if_false] <;> omega
    rw [div_mul_eq_mul_div, div_lt_div_iff_of_pos_right hunit]
    exact_mod_cast hunits

/-- **Doubled and then capped, a number is the lesser of two rational numbers.** -/
lemma value?_capped_scale (hx : x.value? = some p) (hp : 0 < p) (hy : y.value? = some q) (k : ℕ) :
    ((x.scale k).capped y).value? = some (min (p * 2 ^ k) q) := by
  rcases scale_spec hx hp k with hexact | ⟨hinfinite, hbeyond⟩
  · unfold capped
    split
    · next hlt =>
      rw [hy, min_eq_right ((lt_iff_of_value? hy hexact).1 hlt).le]
    · next hge =>
      rw [lt_iff_of_value? hy hexact, not_lt] at hge
      rw [hexact, min_eq_left hge]
  · obtain ⟨b, n, rfl, -⟩ := value?_eq_some_iff.1 hy
    have hcapped : (infinite false).capped (finite b n) = finite b n := rfl
    rw [hinfinite, hcapped, hy, min_eq_right (hbeyond _ _ hy).le]

end RouterAgent.Number.Binary64
