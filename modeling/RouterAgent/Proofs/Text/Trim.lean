import RouterAgent.Proofs.Text.Words

/-!
Texts without what stands at their ends.
-/

namespace RouterAgent.Text

lemma trimRightWhere_append_eq (p : Char → Bool) (as bs : List Char) :
    trimRightWhere p (as ++ bs) =
      if trimRightWhere p bs = [] then trimRightWhere p as else as ++ trimRightWhere p bs := by
  simp only [trimRightWhere, List.reverse_append, List.dropWhile_append, List.isEmpty_iff,
    List.reverse_eq_nil_iff]
  split
  · rfl
  · simp

lemma trimRightWhere_append {p : Char → Bool} {as bs : List Char}
    (h : ∀ c ∈ bs, p c = true) : trimRightWhere p (as ++ bs) = trimRightWhere p as := by
  have hrev : ∀ c ∈ bs.reverse, p c = true := fun c hc => h c (List.mem_reverse.1 hc)
  rw [trimRightWhere, trimRightWhere, List.reverse_append, List.dropWhile_append_of_pos hrev]

lemma trimRightWhere_concat {p : Char → Bool} {as : List Char} {c : Char}
    (h : ¬ p c = true) : trimRightWhere p (as ++ [c]) = as ++ [c] :=
  List.rdropWhile_concat_neg p as c h

lemma trimRightWhere_begins (p : Char → Bool) (cs : List Char) : trimRightWhere p cs <+: cs :=
  List.rdropWhile_prefix p cs

lemma trimRightWhere_of_getLast? {p : Char → Bool} {cs : List Char}
    (h : ∀ c, cs.getLast? = some c → p c = false) : trimRightWhere p cs = cs := by
  rcases List.eq_nil_or_concat cs with rfl | ⟨as, c, rfl⟩
  · rfl
  · rw [List.concat_eq_append] at h ⊢
    have hc : p c = false := h c (by simp)
    exact trimRightWhere_concat (by simp [hc])

lemma trim_prefix_trim {q line : List Char} (h : q <+: line) : trim q <+: trim line := by
  obtain ⟨rest, rfl⟩ := h
  rw [trim, trim, trimWhere, trimWhere, List.dropWhile_append]
  by_cases hq : q.dropWhile isBlank = []
  · rw [hq]
    exact List.nil_prefix
  · rw [if_neg (by simpa using hq), trimRightWhere_append_eq]
    split
    · exact List.prefix_refl _
    · exact (trimRightWhere_begins _ _).trans (List.prefix_append ..)

lemma trim_cons_concat {c d : Char} (hc : isBlank c = false) (hd : isBlank d = false)
    (cs : List Char) : trim (c :: (cs ++ [d])) = c :: (cs ++ [d]) := by
  have hleft : (c :: (cs ++ [d])).dropWhile isBlank = c :: (cs ++ [d]) :=
    List.dropWhile_cons_of_neg (by simp [hc])
  rw [trim, trimWhere, hleft, ← List.cons_append]
  exact trimRightWhere_concat (by simp [hd])

lemma words_trim (cs : List Char) : words (trim cs) = words cs := by
  have hleft : words (cs.dropWhile isBlank) = words cs := by
    conv_rhs => rw [← List.takeWhile_append_dropWhile (p := isBlank) (l := cs)]
    rw [words_blanks_append fun c hc => List.mem_takeWhile_imp hc]
  have hright (bs : List Char) : words (trimRightWhere isBlank bs) = words bs := by
    conv_rhs => rw [← List.rdropWhile_append_rtakeWhile (p := isBlank) (l := bs)]
    rw [words_append_blanks fun c hc => List.mem_rtakeWhile_imp hc]
    rfl
  rw [trim, trimWhere, hright, hleft]

lemma trim_of_letters {w : List Char} (h : ∀ c ∈ w, isBlank c = false) : trim w = w := by
  have hleft : w.dropWhile isBlank = w := by
    rw [List.dropWhile_eq_self_iff]
    intro hlen
    simp [h _ (List.getElem_mem hlen)]
  rw [trim, trimWhere, hleft]
  exact trimRightWhere_of_getLast? fun c hc => h c (List.mem_of_getLast? hc)

end RouterAgent.Text
