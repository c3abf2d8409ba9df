import Mathlib.Algebra.Group.Nat.Defs
import RouterAgent.Proofs.Text.Numeral

/-!
Rows of digits, and numbers that are filled up with zeros.

A row of digits of any script writes one number. With so many digits that a number fits in, its
filled-up form writes it.
-/

namespace RouterAgent.Text

/-- One digit or more, of any script, and the number that they write. -/
def Writes (cs : List Char) (n : ℕ) : Prop := cs ≠ [] ∧ (cs.mapM digit?).map ofDigits = some n

lemma Writes.unique {cs : List Char} {m n : ℕ} (hm : Writes cs m) (hn : Writes cs n) : m = n :=
  Option.some.inj (hm.2.symm.trans hn.2)

lemma writes_singleton_iff {c : Char} {n : ℕ} : Writes [c] n ↔ digit? c = some n := by
  cases h : digit? c <;> simp [Writes, h, ofDigits]

lemma writes_pair_iff {c d : Char} {n : ℕ} :
    Writes [c, d] n ↔ ∃ a b, digit? c = some a ∧ digit? d = some b ∧ 10 * a + b = n := by
  cases hc : digit? c <;> cases hd : digit? d <;> simp [Writes, hc, hd, ofDigits]

/-! ### Filled up with zeros -/

def padded : ℕ → ℕ → List Char
  | 0, _ => []
  | k + 1, n => padded k (n / 10) ++ [(n % 10).digitChar]

@[simp] lemma length_padded (k n : ℕ) : (padded k n).length = k := by
  induction k generalizing n with
  | zero => rfl
  | succ k ih => simp [padded, ih]

lemma isDigit_of_mem_padded {k n : ℕ} {c : Char} (h : c ∈ padded k n) : c.isDigit = true := by
  induction k generalizing n with
  | zero => simp [padded] at h
  | succ k ih =>
    rw [padded, List.mem_append, List.mem_singleton] at h
    rcases h with h | rfl
    · exact ih h
    · rw [Nat.isDigit_digitChar, decide_eq_true_eq]
      omega

lemma mapM_digit?_padded (k n : ℕ) :
    ((padded k n).mapM digit?).map ofDigits = some (n % 10 ^ k) := by
  induction k generalizing n with
  | zero => simp [padded, Nat.mod_one]
  | succ k ih =>
    have hlast : digit? (n % 10).digitChar = some (n % 10) := digit?_digitChar (by omega)
    have hsplit : n % 10 ^ (k + 1) = n % 10 + 10 * (n / 10 % 10 ^ k) := by
      rw [Nat.pow_succ', Nat.mod_mul]
    obtain ⟨ds, hds, hvalue⟩ := Option.map_eq_some_iff.1 (ih (n / 10))
    rw [padded, List.mapM_append, hds, hsplit, ← hvalue]
    simp [hlast, ofDigits_snoc, Nat.add_comm]

lemma writes_padded {k n : ℕ} (hk : 0 < k) (h : n < 10 ^ k) : Writes (padded k n) n := by
  refine ⟨List.ne_nil_of_length_pos (by simpa using hk), ?_⟩
  rw [mapM_digit?_padded, Nat.mod_eq_of_lt h]

lemma isWord_padded {k : ℕ} (hk : 0 < k) (n : ℕ) : IsWord (padded k n) :=
  ⟨List.ne_nil_of_length_pos (by simpa using hk),
    fun _ hc => isBlank_of_isDigit (isDigit_of_mem_padded hc)⟩

/-! ### Several numbers -/

def Fits (ks ns : List ℕ) : Prop := List.Forall₂ (fun k n => 0 < k ∧ n < 10 ^ k) ks ns

def joined (sep : Char) (ks ns : List ℕ) : List Char :=
  [sep].intercalate (List.zipWith padded ks ns)

variable {ks ns : List ℕ} {sep : Char}

lemma exists_padded {w : List Char} (h : w ∈ List.zipWith padded ks ns) :
    ∃ k ∈ ks, ∃ n, w = padded k n := by
  induction ks generalizing ns with
  | nil => simp at h
  | cons k ks ih =>
    rcases ns with _ | ⟨n, ns⟩
    · simp at h
    · rw [List.zipWith_cons_cons, List.mem_cons] at h
      rcases h with rfl | h
      · exact ⟨k, by simp, n, rfl⟩
      · obtain ⟨l, hl, m, rfl⟩ := ih h
        exact ⟨l, by simp [hl], m, rfl⟩

lemma isDigit_of_mem_joined {c : Char} (h : c ∈ joined sep ks ns) : c = sep ∨ c.isDigit = true := by
  refine (mem_of_mem_intercalate h).imp_right ?_
  rintro ⟨w, hw, hc⟩
  obtain ⟨k, -, n, rfl⟩ := exists_padded hw
  exact isDigit_of_mem_padded hc

namespace Fits

lemma pos (h : Fits ks ns) : ∀ k ∈ ks, 0 < k := by
  induction h with
  | nil => simp
  | cons hkn _ ih => simpa using ⟨hkn.1, ih⟩

lemma zipWith_ne_nil (h : Fits ks ns) (hne : ns ≠ []) : List.zipWith padded ks ns ≠ [] := by
  cases h with
  | nil => exact absurd rfl hne
  | cons _ _ => simp

lemma isWord_joined (h : Fits ks ns) (hne : ns ≠ []) (hsep : isBlank sep = false) :
    IsWord (joined sep ks ns) := by
  refine isWord_intercalate hsep (h.zipWith_ne_nil hne) fun w hw => ?_
  obtain ⟨k, hk, n, rfl⟩ := exists_padded hw
  exact isWord_padded (h.pos k hk) n

lemma splitOn_joined (h : Fits ks ns) (hne : ns ≠ []) (hsep : sep.isDigit = false) :
    (joined sep ks ns).splitOn sep = List.zipWith padded ks ns := by
  refine List.splitOn_intercalate sep (fun w hw hmem => ?_) (h.zipWith_ne_nil hne)
  obtain ⟨k, -, n, rfl⟩ := exists_padded hw
  simp [isDigit_of_mem_padded hmem] at hsep

lemma writes (h : Fits ks ns) : List.Forall₂ Writes (List.zipWith padded ks ns) ns := by
  induction h with
  | nil => exact .nil
  | cons hkn _ ih => exact .cons (writes_padded hkn.1 hkn.2) ih

end Fits

end RouterAgent.Text
