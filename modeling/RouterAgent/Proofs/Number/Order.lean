import Mathlib.Data.Nat.Notation
import Mathlib.Tactic.Lemma
import RouterAgent.Number.Binary64

/-!
The order of floating-point numbers.

`nan` has no place in the order: nothing is less than it, equal to it or greater. All others stand
in one row, so of two of them the one that is not greater is at most the other.
-/

namespace RouterAgent.Number.Binary64

variable {x y top : Binary64}

@[simp] lemma nan_lt (x : Binary64) : lt nan x = false := rfl

@[simp] lemma lt_nan (x : Binary64) : lt x nan = false := by cases x <;> rfl

@[simp] lemma nan_le (x : Binary64) : le nan x = false := rfl

@[simp] lemma le_nan (x : Binary64) : le x nan = false := by cases x <;> rfl

lemma le_eq_not_lt (hx : x ≠ nan) (hy : y ≠ nan) : le x y = !lt y x := by
  cases x <;> cases y <;> first | rfl | contradiction

lemma ne_nan_of_lt (h : lt x y = true) : x ≠ nan ∧ y ≠ nan := by
  constructor
  · rintro rfl
    simp at h
  · rintro rfl
    simp at h

lemma lt_of_le_of_lt {z : Binary64} (hxy : le x y = true) (hyz : lt y z = true) :
    lt x z = true := by
  have hx : x ≠ nan := by
    rintro rfl
    simp at hxy
  obtain ⟨hy, -⟩ := ne_nan_of_lt hyz
  rw [le_eq_not_lt hx hy, Bool.not_eq_true'] at hxy
  cases x <;> cases y <;> cases z <;> simp_all [lt]
  omega

lemma le_refl (hx : x ≠ nan) : le x x = true := by
  rw [le_eq_not_lt hx hx]
  cases x with
  | nan => rfl
  | infinite negative => cases negative <;> rfl
  | finite negative m => simp [lt]

/-! ### Signs -/

lemma isNegative_eq_not_le (hx : x ≠ nan) : x.isNegative = !le zero x := by
  rw [le_eq_not_lt (by simp [zero]) hx, Bool.not_not]
  rfl

lemma isNonpositive_eq_not_lt (hx : x ≠ nan) : x.isNonpositive = !lt zero x :=
  le_eq_not_lt hx (by simp [zero])

lemma zero_lt_iff : lt zero x = true ↔
    x = infinite false ∨ ∃ m : Magnitude, 0 < m.units ∧ x = finite false m := by
  have hzero : Magnitude.zero.units = 0 := rfl
  cases x with
  | nan => simp
  | infinite negative => cases negative <;> simp [lt, zero]
  | finite negative m =>
    cases negative <;> simp [lt, zero, signed, hzero]

lemma zero_lt_scale (h : lt zero x = true) (k : ℕ) : lt zero (x.scale k) = true := by
  obtain rfl | ⟨m, hm, rfl⟩ := zero_lt_iff.1 h
  · exact h
  · have hscaled : 0 < m.units * Nat.pow 2 k := Nat.mul_pos hm (Nat.two_pow_pos k)
    rw [scale, ofUnits, zero_lt_iff]
    by_cases hlimit : m.units * Nat.pow 2 k < limit
    · rw [dif_pos hlimit]
      exact .inr ⟨_, hscaled, rfl⟩
    · rw [dif_neg hlimit]
      exact .inl rfl

/-! ### The lesser of two -/

@[simp] lemma capped_nan (x : Binary64) : capped x nan = x := by simp [capped]

@[simp] lemma nan_capped (top : Binary64) : capped nan top = nan := by simp [capped]

lemma capped_le (hx : x ≠ nan) (ht : top ≠ nan) : le (capped x top) top = true := by
  unfold capped
  split
  · exact le_refl ht
  · next h => rw [le_eq_not_lt hx ht, eq_false_of_ne_true h, Bool.not_false]

lemma lt_capped_eq_false {z : Binary64} (h : le top z = true) (x : Binary64) :
    lt z (capped x top) = false := by
  have hnan : top ≠ nan := by
    rintro rfl
    simp at h
  rw [← Bool.not_eq_true]
  intro hlt
  have htop : lt top (capped x top) = true := lt_of_le_of_lt h hlt
  unfold capped at htop
  split at htop
  · simpa [htop] using (le_eq_not_lt hnan hnan).symm.trans (le_refl hnan)
  · next hx => exact hx htop

lemma zero_lt_capped (hx : lt zero x = true) (ht : lt zero top = true) :
    lt zero (capped x top) = true := by
  unfold capped
  split
  · exact ht
  · exact hx

/-! ### Differences -/

lemma signed_not (negative : Bool) (units : ℕ) :
    signed (!negative) units = -signed negative units := by
  cases negative <;> simp [signed]

lemma lt_ofUnits_eq_false {negative other : Bool} {m : Magnitude} {units : ℕ} {h : Short units}
    (hm : 0 ≤ signed negative m.units)
    (hunits : other = false → (units : Int) ≤ signed negative m.units) :
    lt (finite negative m) (ofUnits other units h) = false := by
  have hsmall : other = false → units < limit := by
    intro ho
    have hle := hunits ho
    have hlimit := m.lt_limit
    cases negative <;> simp only [signed, if_true, Bool.false_eq_true, if_false] at hle <;> omega
  unfold ofUnits
  split
  · simp only [lt, decide_eq_false_iff_not]
    cases other with
    | false =>
      have hle := hunits rfl
      simp only [signed, Bool.false_eq_true, if_false] at hle ⊢
      omega
    | true =>
      have hneg : signed true units ≤ 0 := by simp [signed]
      omega
  · next hlarge =>
    cases other with
    | false => exact absurd (hsmall rfl) hlarge
    | true => rfl

lemma lt_sub_eq_false (hx : le x top = true) (hy : le zero y = true) (ht : le zero top = true) :
    lt top (x.sub y) = false := by
  have hzero : signed false Magnitude.zero.units = 0 := rfl
  cases x with
  | nan => simp at hx
  | infinite a => cases y <;> cases top <;> cases a <;> simp_all [sub, neg, add, lt, le, zero]
  | finite a m =>
    cases y with
    | nan => simp at hy
    | infinite b => cases top <;> cases b <;> simp_all [sub, neg, add, lt, le, zero]
    | finite b n =>
      cases top with
      | nan => simp at hx
      | infinite t =>
        obtain rfl : t = false := by simpa [le, lt, zero] using ht
        cases (finite a m).sub (finite b n) <;> rfl
      | finite t k =>
        simp only [le, lt, zero, Bool.not_eq_true', decide_eq_false_iff_not, Int.not_lt,
          hzero] at hx hy ht
        have hsum := signed_not b n.units
        simp only [sub, neg, add, ofRatio, hsum]
        refine lt_ofUnits_eq_false ht fun hpositive => ?_
        have hsum' : 0 ≤ signed a m.units + -signed b n.units := by
          split at hpositive
          · omega
          · simpa using hpositive
        have hunits : signed t k.units = k.units := by
          cases t <;> simp only [signed, if_true, Bool.false_eq_true, if_false] at ht ⊢
          omega
        rw [hunits] at hx ⊢
        exact Int.ofNat_le.2 (roundShort_le (pow_two_pos unitBits) k.isShort (by omega))

end RouterAgent.Number.Binary64
