/-!
Rounding of a quotient to the nearest whole number, and to the nearest number of 53 bits.

Of two nearest numbers the even one is taken.
-/

namespace RouterAgent.Number

/-- The whole number nearest to `num / den`, a half going to the even neighbour. -/
def roundDiv (num den : Nat) : Nat :=
  if 2 * (num % den) > den ∨ (2 * (num % den) = den ∧ num / den % 2 = 1) then num / den + 1
  else num / den

theorem roundDiv_le (num den : Nat) : roundDiv num den ≤ num / den + 1 := by
  unfold roundDiv; split <;> omega

theorem pow_two_pos (e : Nat) : 0 < Nat.pow 2 e := Nat.two_pow_pos e

/-- A number that is a multiple of a power of two large enough to leave at most 53 bits. -/
def Short (n : Nat) : Prop := Nat.pow 2 (n.log2 - 52) ∣ n

instance (n : Nat) : Decidable (Short n) := inferInstanceAs (Decidable (_ ∣ _))

theorem short_zero : Short 0 := Nat.dvd_zero _

theorem short_mul_two_pow {m e : Nat} (h : m ≤ Nat.pow 2 53) : Short (m * Nat.pow 2 e) := by
  rw [Nat.pow_eq] at h ⊢
  rcases Nat.eq_zero_or_pos m with rfl | hm
  · simp [short_zero]
  rcases Nat.lt_or_eq_of_le h with hlt | rfl
  · have hpos : m * 2 ^ e ≠ 0 := Nat.ne_of_gt (Nat.mul_pos hm (Nat.two_pow_pos e))
    have hlog : (m * 2 ^ e).log2 < 53 + e := by
      rw [Nat.log2_lt hpos, Nat.pow_add]
      exact Nat.mul_lt_mul_of_pos_right hlt (Nat.two_pow_pos e)
    exact Nat.dvd_trans (Nat.pow_dvd_pow 2 (by omega)) (Nat.dvd_mul_left _ _)
  · rw [← Nat.pow_add]
    exact Nat.pow_dvd_pow 2 (by rw [Nat.log2_two_pow]; omega)

theorem Short.mul_two_pow {n : Nat} (h : Short n) (k : Nat) : Short (n * Nat.pow 2 k) := by
  rw [Nat.pow_eq]
  rcases Nat.eq_zero_or_pos n with rfl | hn
  · simp [short_zero]
  have hn' : n ≠ 0 := Nat.ne_of_gt hn
  have hpos : n * 2 ^ k ≠ 0 := Nat.ne_of_gt (Nat.mul_pos hn (Nat.two_pow_pos k))
  have hlog : (n * 2 ^ k).log2 < n.log2 + 1 + k := by
    rw [Nat.log2_lt hpos, Nat.pow_add]
    exact Nat.mul_lt_mul_of_pos_right Nat.lt_log2_self (Nat.two_pow_pos k)
  have hdvd : 2 ^ (n.log2 - 52 + k) ∣ n * 2 ^ k := by
    rw [Nat.pow_add]
    exact Nat.mul_dvd_mul_right h _
  exact Nat.dvd_trans (Nat.pow_dvd_pow 2 (by omega)) hdvd

/-- The number of at most 53 bits nearest to `num / den`. -/
def roundShort (num den : Nat) : Nat :=
  let e := (num / den).log2 - 52
  roundDiv num (den * Nat.pow 2 e) * Nat.pow 2 e

theorem short_roundShort (num den : Nat) : Short (roundShort num den) := by
  apply short_mul_two_pow
  have hle := roundDiv_le num (den * Nat.pow 2 ((num / den).log2 - 52))
  simp only [Nat.pow_eq] at hle ⊢
  rw [← Nat.div_div_eq_div_mul] at hle
  have hq : num / den / 2 ^ ((num / den).log2 - 52) < 2 ^ 53 := by
    rw [Nat.div_lt_iff_lt_mul (Nat.two_pow_pos _), ← Nat.pow_add]
    exact Nat.lt_of_lt_of_le Nat.lt_log2_self (Nat.pow_le_pow_right (by omega) (by omega))
  omega

theorem roundShort_le {n m d : Nat} (hd : 0 < d) (hm : Short m) (h : n ≤ m) :
    roundShort (n * d) d ≤ m := by
  unfold roundShort
  simp only [Nat.mul_div_cancel n hd, Nat.pow_eq]
  generalize he : n.log2 - 52 = e
  have hpos : 0 < d * 2 ^ e := Nat.mul_pos hd (Nat.two_pow_pos e)
  have hquot : n * d / (d * 2 ^ e) = n / 2 ^ e := by
    rw [Nat.mul_comm n d, Nat.mul_div_mul_left _ _ hd]
  have hrem : n * d % (d * 2 ^ e) = d * (n % 2 ^ e) := by
    rw [Nat.mul_comm n d, Nat.mul_mod_mul_left]
  have hdvd : 2 ^ e ∣ m := by
    rcases Nat.eq_zero_or_pos n with rfl | hn
    · obtain rfl : 0 = e := he
      exact ⟨m, (Nat.one_mul m).symm⟩
    · have hlog : n.log2 ≤ m.log2 := by
        rw [Nat.le_log2 (by omega)]
        exact Nat.le_trans (Nat.log2_self_le (by omega)) h
      exact Nat.dvd_trans (Nat.pow_dvd_pow 2 (by omega)) hm
  obtain ⟨k, rfl⟩ := hdvd
  rw [Nat.mul_comm (2 ^ e)]
  refine Nat.mul_le_mul_right _ ?_
  rcases Nat.eq_zero_or_pos (n % 2 ^ e) with hexact | hrest
  · have hround : roundDiv (n * d) (d * 2 ^ e) = n / 2 ^ e := by
      rw [roundDiv, hrem, hexact, hquot, if_neg (by omega)]
    rw [hround]
    exact Nat.div_le_of_le_mul h
  · -- what is rounded up is less than the bound, so the next multiple is at most that
    have hround := roundDiv_le (n * d) (d * 2 ^ e)
    have hlt : n / 2 ^ e < k := by
      rw [Nat.div_lt_iff_lt_mul (Nat.two_pow_pos e), Nat.mul_comm]
      refine Nat.lt_of_le_of_ne h ?_
      rintro rfl
      simp at hrest
    rw [hquot] at hround
    exact Nat.le_trans hround hlt

end RouterAgent.Number
