import RouterAgent.Proofs.Text.Words
import RouterAgent.Text.Integer

/-!
A whole number that is written is read back, as long as it has no more digits than may be read.
-/

namespace RouterAgent.Text

lemma digit?_digitChar {d : Nat} (h : d < 10) : digit? d.digitChar = some d := by
  have hall : ∀ m : Fin 10, digit? m.val.digitChar = some m.val := by decide
  exact hall ⟨d, h⟩

lemma mapM_digit?_toDigits (n : Nat) : ∃ ds, (Nat.toDigits 10 n).mapM digit? = some ds ∧
    ofDigits ds = n ∧ ds.length = (Nat.toDigits 10 n).length := by
  induction n using Nat.strongRecOn with
  | _ n ih =>
    rcases Nat.lt_or_ge n 10 with hlt | hge
    · rw [Nat.toDigits_of_lt_base hlt]
      exact ⟨[n], by simp [digit?_digitChar hlt], by simp [ofDigits], rfl⟩
    · obtain ⟨ds, hds, hvalue, hlength⟩ := ih (n / 10) (by omega)
      rw [Nat.toDigits_of_base_le (by decide) hge]
      refine ⟨ds ++ [n % 10], ?_, ?_, ?_⟩
      · have hlast : digit? (n % 10).digitChar = some (n % 10) := digit?_digitChar (by omega)
        rw [List.mapM_append, hds]
        simp [hlast]
      · rw [ofDigits_snoc, hvalue]
        omega
      · rw [List.length_append, List.length_append, hlength]
        rfl

lemma length_toDigits_le {n k : Nat} (hk : 0 < k) (h : n < Nat.pow 10 k) :
    (Nat.toDigits 10 n).length ≤ k :=
  (Nat.length_toDigits_le_iff (by decide) hk).2 h

lemma natural?_toDigits {n : Nat} (h : n < Nat.pow 10 maxDigits) :
    natural? (Nat.toDigits 10 n) = some n := by
  obtain ⟨ds, hds, hvalue, hlength⟩ := mapM_digit?_toDigits n
  have hne : Nat.toDigits 10 n ≠ [] := Nat.toDigits_ne_nil
  have hrow : row? digit? (Nat.toDigits 10 n) = some ds := by
    rw [row?, List.splitOn_eq_singleton Nat.underscore_not_in_toDigits]
    simp [hds, hne]
  have hfew : ds.length ≤ maxDigits := by
    rw [hlength]
    exact length_toDigits_le (by decide) h
  rw [natural?, hrow, Option.bind_some, if_pos hfew, hvalue]

lemma integer?_of_isDigit {c : Char} (hc : c.isDigit = true) (cs : List Char) :
    integer? (c :: cs) = (natural? (c :: cs)).map Int.ofNat := by
  rw [integer?]
  · intro rest h
    obtain ⟨rfl, -⟩ := List.cons.inj h
    exact absurd hc (by decide)
  · intro rest h
    obtain ⟨rfl, -⟩ := List.cons.inj h
    exact absurd hc (by decide)

lemma toList_ofInteger_ofNat (m : Nat) :
    (ofInteger (Int.ofNat m)).toList = Nat.toDigits 10 m :=
  Nat.toList_repr

lemma toList_ofInteger_negSucc (m : Nat) :
    (ofInteger (Int.negSucc m)).toList = '-' :: Nat.toDigits 10 (m + 1) := by
  change ("-" ++ Nat.repr (m + 1)).toList = _
  rw [String.toList_append, Nat.toList_repr]
  rfl

/-- **What is written is read.** -/
lemma integer?_ofInteger {n : Int} (h : n.natAbs < Nat.pow 10 maxDigits) :
    integer? (ofInteger n).toList = some n := by
  cases n with
  | ofNat m =>
    obtain ⟨c, cs, hcs⟩ := List.exists_cons_of_ne_nil (Nat.toDigits_ne_nil (n := m) (b := 10))
    have hc : c.isDigit = true :=
      Nat.isDigit_of_mem_toDigits (b := 10) (n := m) (by decide) (by decide) (by simp [hcs])
    have hnatural : natural? (c :: cs) = some m := hcs ▸ natural?_toDigits h
    rw [toList_ofInteger_ofNat, hcs, integer?_of_isDigit hc, hnatural]
    rfl
  | negSucc m =>
    have hnatural : natural? (Nat.toDigits 10 (m + 1)) = some (m + 1) := natural?_toDigits h
    rw [toList_ofInteger_negSucc, integer?, hnatural]
    rfl

lemma isBlank_of_isDigit {c : Char} (h : c.isDigit = true) : isBlank c = false := by
  have hrange : 48 ≤ c.toNat ∧ c.toNat ≤ 57 := Char.isDigit_iff_toNat.1 h
  rw [← Bool.not_eq_true]
  intro hblank
  simp only [isBlank, Bool.or_eq_true, Bool.and_eq_true, decide_eq_true_eq, beq_iff_eq] at hblank
  omega

lemma isWord_toDigits (m : Nat) : IsWord (Nat.toDigits 10 m) :=
  ⟨Nat.toDigits_ne_nil, fun _ hc =>
    isBlank_of_isDigit (Nat.isDigit_of_mem_toDigits (by decide) (by decide) hc)⟩

lemma isWord_ofInteger (n : Int) : IsWord (ofInteger n).toList := by
  cases n with
  | ofNat m => exact toList_ofInteger_ofNat m ▸ isWord_toDigits m
  | negSucc m =>
    rw [toList_ofInteger_negSucc]
    refine ⟨by simp, fun c hc => ?_⟩
    rcases List.mem_cons.1 hc with rfl | hc
    · decide
    · exact (isWord_toDigits (m + 1)).2 c hc

end RouterAgent.Text
