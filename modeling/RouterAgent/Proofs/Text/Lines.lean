import RouterAgent.Proofs.Text.Words

/-!
Lines of a text from its first character on, of a text behind whole lines, and of a text that is cut
anywhere.
-/

namespace RouterAgent.Text

def dropOpenEnd (pieces : List (List Char)) : List (List Char) :=
  if pieces.getLast? = some [] then pieces.dropLast else pieces

lemma lines_eq (cs : List Char) :
    lines cs = dropOpenEnd ((joinReturns cs).splitOnP isLineBreak) := rfl

lemma dropOpenEnd_nil_cons {pieces : List (List Char)} (h : pieces ≠ []) :
    dropOpenEnd ([] :: pieces) = [] :: dropOpenEnd pieces := by
  obtain ⟨piece, pieces, rfl⟩ := List.exists_cons_of_ne_nil h
  simp only [dropOpenEnd, List.getLast?_cons_cons, List.dropLast_cons_cons]
  split <;> rfl

lemma dropOpenEnd_modifyHead {pieces : List (List Char)} (h : pieces ≠ []) (c : Char) :
    dropOpenEnd (pieces.modifyHead (c :: ·)) =
      (c :: (dropOpenEnd pieces).headD []) :: (dropOpenEnd pieces).tail := by
  obtain ⟨first, rest, rfl⟩ := List.exists_cons_of_ne_nil h
  rcases rest with _ | ⟨second, rest⟩
  · by_cases hfirst : first = [] <;> simp [dropOpenEnd, hfirst]
  · simp only [dropOpenEnd, List.modifyHead_cons, List.getLast?_cons_cons, List.dropLast_cons_cons]
    split <;> rfl

@[simp] lemma lines_nil : lines [] = [] := rfl

lemma lines_return (rest : List Char) : lines ('\r' :: '\n' :: rest) = [] :: lines rest := by
  have hbreak : isLineBreak '\n' = true := rfl
  rw [lines_eq, joinReturns, List.splitOnP_cons_eq_if_modifyHead, if_pos hbreak,
    dropOpenEnd_nil_cons (List.splitOnP_ne_nil _ _)]
  rfl

lemma joinReturns_cons {c : Char} {rest : List Char}
    (h : ∀ later, c = '\r' → rest ≠ '\n' :: later) :
    joinReturns (c :: rest) = c :: joinReturns rest := by
  rw [joinReturns]
  rintro later rfl rfl
  exact h later rfl rfl

lemma lines_break {c : Char} (hc : isLineBreak c = true) {rest : List Char}
    (h : ∀ later, c = '\r' → rest ≠ '\n' :: later) :
    lines (c :: rest) = [] :: lines rest := by
  rw [lines_eq, joinReturns_cons h, List.splitOnP_cons_eq_if_modifyHead, if_pos hc,
    dropOpenEnd_nil_cons (List.splitOnP_ne_nil _ _)]
  rfl

lemma lines_letter {c : Char} (hc : isLineBreak c = false) (rest : List Char) :
    lines (c :: rest) = (c :: (lines rest).headD []) :: (lines rest).tail := by
  have hreturn : ∀ later, c = '\r' → rest ≠ '\n' :: later := by
    rintro later rfl
    exact absurd hc (by decide)
  rw [lines_eq, joinReturns_cons hreturn, List.splitOnP_cons_eq_if_modifyHead,
    if_neg (by simp [hc]), dropOpenEnd_modifyHead (List.splitOnP_ne_nil _ _)]
  rfl

lemma lines_ne_nil {cs : List Char} (h : cs ≠ []) : lines cs ≠ [] := by
  fun_cases joinReturns cs with
  | case1 rest => simp [lines_return]
  | case2 c rest hne =>
    cases hc : isLineBreak c with
    | false => simp [lines_letter hc]
    | true => simp [lines_break hc hne]
  | case3 => exact absurd rfl h

/-! ### Texts behind whole lines -/

lemma lines_append {as : List Char} (h : ∀ c ∈ as.getLast?, c = '\n') (bs : List Char) :
    lines (as ++ bs) = lines as ++ lines bs := by
  fun_induction joinReturns as with
  | case1 rest ih =>
    have hrest : ∀ c ∈ rest.getLast?, c = '\n' := by
      intro c hc
      cases rest with
      | nil => simp at hc
      | cons d rest => exact h c (by simpa using hc)
    rw [List.cons_append, List.cons_append, lines_return, lines_return, ih hrest]
    rfl
  | case2 c rest hne ih =>
    rcases rest with _ | ⟨d, rest⟩
    · obtain rfl : c = '\n' := h c rfl
      have hbreak (later : List Char) : lines ('\n' :: later) = [] :: lines later :=
        lines_break (by decide) (by simp)
      rw [List.singleton_append, hbreak, hbreak]
      rfl
    · have hrest := ih fun e he => h e (by simpa using he)
      cases hc : isLineBreak c with
      | false =>
        have hmore : lines (d :: rest) ≠ [] := lines_ne_nil (List.cons_ne_nil d rest)
        obtain ⟨first, later, hfirst⟩ := List.exists_cons_of_ne_nil hmore
        rw [List.cons_append, lines_letter hc, lines_letter hc, hrest, hfirst]
        rfl
      | true =>
        have hnext : ∀ later, c = '\r' → d :: rest ++ bs ≠ '\n' :: later := by
          intro later hreturn heq
          obtain ⟨rfl, -⟩ := List.cons.inj heq
          exact hne rest hreturn rfl
        rw [List.cons_append, lines_break hc hnext, lines_break hc hne, hrest]
        rfl
  | case3 => rfl

/-! ### Texts that are cut -/

/-- One row of lines is a beginning of another one: its lines are the first of the other, and
perhaps a beginning of the next one. -/
def Begins (ls ms : List (List Char)) : Prop :=
  ∃ n, ls = ms.take n ∨
    ∃ q line, q ≠ [] ∧ q <+: line ∧ ms[n]? = some line ∧ ls = ms.take n ++ [q]

lemma Begins.nil (ms : List (List Char)) : Begins [] ms := ⟨0, .inl rfl⟩

lemma Begins.cons {ls ms : List (List Char)} (h : Begins ls ms) (line : List Char) :
    Begins (line :: ls) (line :: ms) := by
  obtain ⟨n, rfl | ⟨q, next, hne, hq, hnext, rfl⟩⟩ := h
  · exact ⟨n + 1, .inl rfl⟩
  · exact ⟨n + 1, .inr ⟨q, next, hne, hq, hnext, rfl⟩⟩

lemma Begins.letter {ls ms : List (List Char)} (h : Begins ls ms) (c : Char) :
    Begins ((c :: ls.headD []) :: ls.tail) ((c :: ms.headD []) :: ms.tail) := by
  obtain ⟨n, hn⟩ := h
  rcases n with _ | n
  · -- nothing, or a beginning, of the first line
    refine ⟨0, .inr ⟨c :: ls.headD [], c :: ms.headD [], by simp, ?_, rfl, ?_⟩⟩
    all_goals
      rcases hn with rfl | ⟨q, line, -, hq, hline, rfl⟩
      · simp
      · rw [← List.head?_eq_getElem?] at hline
        simp [List.headD_eq_head?_getD, hline, hq]
  · rcases ms with _ | ⟨first, ms⟩
    · rcases hn with rfl | ⟨q, line, -, -, hline, -⟩
      · exact ⟨1, .inl rfl⟩
      · simp at hline
    · rcases hn with rfl | ⟨q, line, hne, hq, hline, rfl⟩
      · exact ⟨n + 1, .inl rfl⟩
      · exact ⟨n + 1, .inr ⟨q, line, hne, hq, hline, rfl⟩⟩

/-- **The lines of a text that is cut.** They are the first lines of the text, and perhaps a
beginning of the next one. -/
lemma begins_lines {p t : List Char} (h : p <+: t) : Begins (lines p) (lines t) := by
  fun_induction joinReturns t generalizing p with
  | case1 rest ih =>
    rcases p with _ | ⟨c, p⟩
    · exact .nil _
    · obtain ⟨rfl, hp⟩ := List.cons_prefix_cons.1 h
      rw [lines_return]
      rcases p with _ | ⟨d, p⟩
      · -- a cut between the two characters leaves a line break as well
        exact ⟨1, .inl rfl⟩
      · obtain ⟨rfl, hrest⟩ := List.cons_prefix_cons.1 hp
        rw [lines_return]
        exact (ih hrest).cons []
  | case2 c rest hne ih =>
    rcases p with _ | ⟨d, p⟩
    · exact .nil _
    · obtain ⟨rfl, hp⟩ := List.cons_prefix_cons.1 h
      cases hc : isLineBreak d with
      | false =>
        rw [lines_letter hc, lines_letter hc]
        exact (ih hp).letter d
      | true =>
        have hcut : ∀ later, d = '\r' → p ≠ '\n' :: later := by
          rintro later hd rfl
          obtain ⟨last, rfl⟩ := hp
          exact hne _ hd rfl
        rw [lines_break hc hne, lines_break hc hcut]
        exact (ih hp).cons []
  | case3 =>
    obtain rfl : p = [] := List.prefix_nil.1 h
    exact .nil _

end RouterAgent.Text
